import Mathlib.Algebra.Order.BigOperators.Group.List
import Mathlib.Algebra.Order.Ring.Nat
import HttpClient.Policy.CookieCarry

/-!
# The bounds of the policy loop

A request is tried at most once more than it may be retried, and each try sends at most one
raw request more than redirects may be followed. Whatever the servers answer, in a cycle of
redirects too, the loop comes to an end. What it returns is the response to its last raw
request, with the URL of that request and the number of redirects that led to it.

A raw request is not always made. A URL that cannot be parsed throws where the request is
completed, or where the jar is asked for its cookies; if that is the first URL, nothing has
been sent.

## Main definitions

* `recording` — every raw request records its response
* `Due`, `Followed` — the hops of a try, each where the one before leads
* `EndsWith`, `MayRetry`, `Retried` — how a try ends, and the tries that another one follows
* `Honest` — what the tries and the result have to do with each other
* `Blocked` — the requests that send nothing

## Main results

* `hopEnds_oneHop` — what one hop can do
* `tried_followHops`, `honest_tryRequest` — what a try and what all tries do
* `bounded_requestWithHttpxPolicy` — the bounds of every run, and its result
* `nothing_sent` — a run without a raw request
-/

set_option autoImplicit false

namespace HttpClient.Policy

open Text Semantics Semantics.Call

variable {ω τ : Type}

/-- The same surroundings; every raw request records its response. -/
def recording (externals : Externals ω τ) : Externals ω (Option Response) where
  raw request around :=
    let (response, after, _) := externals.raw request around
    (response, after, response)
  pause := externals.pause
  zlibDecode := externals.zlibDecode
  getenv := externals.getenv

/-- A hop with the response to its raw request, if there is one. -/
abbrev RecordedHop := Hop (Option Response)

variable (options : PolicyOptions) (externals : Externals ω τ) (request : Request)

/-! ### What a try should be -/

/-- The response as the hop completes it. -/
def completed (hop : RecordedHop) (response : Response) : Response :=
  completeResponse externals hop.redirects hop.request response

/-- Where the response of a hop leads, if it is a redirect that is followed. -/
def leadsTo (hop : RecordedHop) (response : Response) : Option Bytes :=
  nextLocation (followsRedirects options request) (completed externals hop response)

/-- What a try sends after some hops: the request itself, then where the latest hop leads. -/
def Due (current : Request) : List RecordedHop → Prop
  | [] => current = request
  | latest :: _ => ∃ response location, latest.did = some response ∧
      leadsTo options externals request latest response = some location ∧
      redirected latest.request (completed externals latest response).status location =
        .ok current

/-- Each hop sends what is due, perhaps with cookies, and counts the hops before it. -/
def Followed : List RecordedHop → Prop
  | [] => True
  | hop :: earlier =>
    hop.redirects = earlier.length ∧
      (∃ current, Due options externals request current earlier ∧
        hop.request.url = current.url ∧ hop.request.method = current.method) ∧
      Followed earlier

/-- A try whose latest hop is the given one returns this. A redirect is returned only where
no more may be followed, and as an error. -/
def EndsWith (last : RecordedHop) (response : Response) : Prop :=
  ∃ answer, last.did = some answer ∧
    match leadsTo options externals request last answer with
    | none => response = completed externals last answer
    | some _ => last.redirects = (maxRedirects options request).toNat ∧
        response = { completed externals last answer with error := str "too many redirects" }

/-- A response after which the request may be tried again. -/
def MayRetry (response : Response) : Prop :=
  isReplayable request = true ∧
    (response.error = [] ∧ (response.status : Int) ∈ options.retryStatuses ∨
      response.error ≠ [] ∧ response.reusedConnection = true ∧
        isRetriableTransportError response.error = true)

/-- A try after which the request may be tried again. -/
def Retried (hops : List RecordedHop) : Prop :=
  ∃ last earlier response, hops = last :: earlier ∧
    EndsWith options externals request last response ∧ MayRetry options request response

/-- The tries and the result of a run, the request being completed. -/
structure Honest (result : Except Bytes (Option Response)) (tries : List (List RecordedHop)) :
    Prop where
  followed : ∀ hops ∈ tries, Followed options externals request hops
  /-- Another try follows only one that ended with a response that allows it. -/
  retried : ∀ hops ∈ tries.tail, Retried options externals request hops
  /-- What is returned is the response to the last raw request. -/
  returned : ∀ response, result = .ok (some response) →
    ∃ last earlier older, tries = (last :: earlier) :: older ∧
      EndsWith options externals request last response ∧
      response.finalUrl = last.request.url ∧ response.redirectCount = earlier.length ∧
      earlier.length ≤ (maxRedirects options request).toNat
  /-- The loop does not end only if its last raw request does not. -/
  unfinished : result = .ok none →
    ∃ last earlier older, tries = (last :: earlier) :: older ∧ last.did = none

/-- The jar is asked for the cookies of a URL that is none. -/
def CookiesThrow (around : Around ω) (current : Request) : Prop :=
  (usesJar options current = true ∧ (current.header (str "Cookie")).isNone = true) ∧
    ∃ what, around.jar.cookieHeader current.url around.now = .error what

/-- Nothing is sent: completing the request throws, or asking for its first cookies. -/
def Blocked (around : Around ω) : Prop :=
  match applyDefaults options externals.getenv request with
  | .error _ => True
  | .ok prepared => CookiesThrow options around prepared

variable {options externals request}

/-! ### One hop -/

theorem withCookies_throws_iff (options : PolicyOptions) (current : Request)
    (state : PolicyState ω τ) :
    (∃ what, ((withCookies options current).outcome state).1 = .error what) ↔
      CookiesThrow options state.around current := by
  unfold withCookies CookiesThrow
  rw [outcome_bind_ok (outcome_get state)]
  by_cases hasks : usesJar options current = true ∧
      (current.header (str "Cookie")).isNone = true
  · rw [if_pos hasks, and_iff_right hasks]
    cases state.around.jar.cookieHeader current.url state.around.now with
    | error what => exact iff_of_true ⟨what, rfl⟩ ⟨what, rfl⟩
    | ok found => exact iff_of_false (fun ⟨_, h⟩ => by cases h) fun ⟨_, h⟩ => by cases h
  · rw [if_neg hasks]
    exact iff_of_false (fun ⟨_, h⟩ => by cases h) fun h => hasks h.1

/-- Without hooks a hop throws where it stores the cookies, or returns its response. -/
theorem finishHop_result (externals : Externals ω τ) (hhooks : options.responseHooks = [])
    (redirects : Nat) (current : Request) (response : Response) (state : PolicyState ω τ) :
    (∃ what, ((finishHop options externals redirects current response).outcome state).1 =
        .error what) ∨
      ((finishHop options externals redirects current response).outcome state).1 =
        .ok (some (current, completeResponse externals redirects current response)) := by
  unfold finishHop
  cases htake : (takeCookies options current
      (completeResponse externals redirects current response)).outcome state with
  | mk result after =>
    cases result with
    | error what =>
      rw [outcome_bind_error htake]
      exact Or.inl ⟨what, rfl⟩
    | ok _ =>
      rw [outcome_bind_ok htake, hhooks]
      exact Or.inr rfl

/-- A hop with this number sends `current`, perhaps with cookies. -/
structure Sends (options : PolicyOptions) (redirects : Nat) (current : Request)
    (state after : PolicyState ω (Option Response)) (hop : RecordedHop) : Prop where
  free : ¬ CookiesThrow options state.around current
  redirects : hop.redirects = redirects
  url : hop.request.url = current.url
  method : hop.request.method = current.method
  tries : after.tries = pushHop hop state.tries

/-- What one hop can do. -/
inductive HopEnds (options : PolicyOptions) (externals : Externals ω τ) (redirects : Nat)
    (current : Request) (state : PolicyState ω (Option Response)) :
    Except Bytes (Option (Request × Response)) × PolicyState ω (Option Response) → Prop
  | blocked {what : Bytes} (hthrows : CookiesThrow options state.around current) :
      HopEnds options externals redirects current state (.error what, state)
  | thrown {what : Bytes} {after : PolicyState ω (Option Response)} {hop : RecordedHop}
      (hsends : Sends options redirects current state after hop) :
      HopEnds options externals redirects current state (.error what, after)
  | unfinished {after : PolicyState ω (Option Response)} {hop : RecordedHop}
      (hsends : Sends options redirects current state after hop) (hdid : hop.did = none) :
      HopEnds options externals redirects current state (.ok none, after)
  | answered {after : PolicyState ω (Option Response)} {hop : RecordedHop} {response : Response}
      (hsends : Sends options redirects current state after hop) (hdid : hop.did = some response) :
      HopEnds options externals redirects current state
        (.ok (some (hop.request, completed externals hop response)), after)

theorem hopEnds_oneHop (externals : Externals ω τ) (hhooks : options.responseHooks = [])
    (redirects : Nat) (current : Request) (state : PolicyState ω (Option Response)) :
    HopEnds options externals redirects current state
      ((oneHop options (recording externals) redirects current).outcome state) := by
  unfold oneHop
  rw [outcome_bind_ok (outcome_get state)]
  have hiff := withCookies_throws_iff options current state
  rcases withCookies_cases current state with ⟨what, hthrow⟩ | ⟨sent, around, hcookies, hsent⟩
  · rw [outcome_bind_error hthrow]
    exact .blocked (hiff.mp ⟨what, by rw [hthrow]⟩)
  · rw [outcome_bind_ok hcookies]
    have hfree : ¬ CookiesThrow options state.around current := by
      intro hthrows
      obtain ⟨what, h⟩ := hiff.mpr hthrows
      rw [hcookies] at h
      cases h
    -- the hop is recorded before anything is done with its response
    let hop : RecordedHop :=
      { redirects, request := sent, jar := state.around.jar, now := state.around.now
        did := (externals.raw sent around).1 }
    have hraw : (rawHop (recording externals) redirects state.around.jar state.around.now
        sent).outcome { state with around } = (.ok (externals.raw sent around).1,
          { around := (externals.raw sent around).2.1, tries := pushHop hop state.tries }) := rfl
    have hsends : ∀ after : PolicyState ω (Option Response),
        after.tries = pushHop hop state.tries →
          Sends options redirects current state after hop := fun after htries =>
      ⟨hfree, rfl, hsent.url, hsent.method, htries⟩
    rw [outcome_bind_ok hraw]
    cases hanswer : (externals.raw sent around).1 with
    | none => exact .unfinished (hsends _ rfl) hanswer
    | some response =>
      have htries : ((finishHop options (recording externals) redirects sent response).outcome
          { around := (externals.raw sent around).2.1, tries := pushHop hop state.tries }).2.tries =
            pushHop hop state.tries := finishHop_tries redirects sent response _ _ rfl
      have hresult := finishHop_result (recording externals) hhooks redirects sent response
        { around := (externals.raw sent around).2.1, tries := pushHop hop state.tries }
      simp only
      generalize (finishHop options (recording externals) redirects sent response).outcome _ =
        ended at htries hresult ⊢
      obtain ⟨result, after⟩ := ended
      rcases hresult with ⟨what, rfl⟩ | rfl
      · exact .thrown (hsends after htries)
      · exact .answered (hsends after htries) hanswer

/-! ### One try -/

/-- A try that is to send `current` next; `older` are the tries before it. -/
structure Going (options : PolicyOptions) (externals : Externals ω τ) (request : Request)
    (older : List (List RecordedHop)) (current : Request) (hops : List RecordedHop)
    (state : PolicyState ω (Option Response)) : Prop where
  tries : state.tries = hops :: older
  followed : Followed options externals request hops
  due : Due options externals request current hops

/-- The hops and the result of a try. -/
structure Tried (options : PolicyOptions) (externals : Externals ω τ) (request : Request)
    (result : Except Bytes (Option Response)) (hops : List RecordedHop) : Prop where
  followed : Followed options externals request hops
  length_le : hops.length ≤ (maxRedirects options request).toNat + 1
  returned : ∀ response, result = .ok (some response) →
    ∃ last earlier, hops = last :: earlier ∧ EndsWith options externals request last response
  unfinished : result = .ok none → ∃ last earlier, hops = last :: earlier ∧ last.did = none

theorem Tried.error {hops : List RecordedHop} (what : Bytes)
    (hfollowed : Followed options externals request hops)
    (hlength : hops.length ≤ (maxRedirects options request).toNat + 1) :
    Tried options externals request (.error what) hops :=
  ⟨hfollowed, hlength, nofun, nofun⟩

theorem Tried.unanswered {hops : List RecordedHop}
    (hfollowed : Followed options externals request hops)
    (hlength : hops.length ≤ (maxRedirects options request).toNat + 1)
    (hunfinished : ∃ last earlier, hops = last :: earlier ∧ last.did = none) :
    Tried options externals request (.ok none) hops where
  followed := hfollowed
  length_le := hlength
  returned _ hok := absurd (Except.ok.inj hok).symm (Option.some_ne_none _)
  unfinished _ := hunfinished

theorem Tried.answered {hops : List RecordedHop} {response : Response}
    (hfollowed : Followed options externals request hops)
    (hlength : hops.length ≤ (maxRedirects options request).toNat + 1)
    (hends : ∃ last earlier, hops = last :: earlier ∧
      EndsWith options externals request last response) :
    Tried options externals request (.ok (some response)) hops where
  followed := hfollowed
  length_le := hlength
  returned _ hok := by
    cases hok
    exact hends
  unfinished hok := absurd (Except.ok.inj hok) (Option.some_ne_none _)

/-- A run after which the latest try is over. -/
def Ends (options : PolicyOptions) (externals : Externals ω τ) (request : Request)
    (older : List (List RecordedHop))
    (run : Except Bytes (Option Response) × PolicyState ω (Option Response)) : Prop :=
  ∃ hops, run.2.tries = hops :: older ∧ Tried options externals request run.1 hops

variable {older : List (List RecordedHop)} {current : Request} {hops : List RecordedHop}
variable {state : PolicyState ω (Option Response)}

/-- The hop that is sent counts those before it. -/
theorem Going.followed_cons {after : PolicyState ω (Option Response)} {hop : RecordedHop}
    (h : Going options externals request older current hops state)
    (hsends : Sends options hops.length current state after hop) :
    after.tries = (hop :: hops) :: older ∧
      Followed options externals request (hop :: hops) := by
  refine ⟨?_, hsends.redirects, ⟨current, h.due, hsends.url, hsends.method⟩, h.followed⟩
  rw [hsends.tries, h.tries]
  rfl

/-- A hop ends the try, unless its response leads on. -/
theorem ends_afterHop (hhooks : options.responseHooks = [])
    (h : Going options externals request older current hops state)
    (hlimit : hops.length ≤ (maxRedirects options request).toNat)
    {go : Request → Response → Bytes → PolicyCall ω (Option Response) (Option Response)}
    (hgo : ∀ hop response location after,
      after.tries = (hop :: hops) :: older → Followed options externals request (hop :: hops) →
        hop.did = some response → leadsTo options externals request hop response = some location →
          Ends options externals request older
            ((go hop.request (completed externals hop response) location).outcome after)) :
    Ends options externals request older
      ((oneHop options (recording externals) hops.length current >>= fun ended =>
        afterHop (followsRedirects options request) ended go).outcome state) := by
  have hends := hopEnds_oneHop externals hhooks hops.length current state
  generalize hout : (oneHop options (recording externals) hops.length current).outcome state =
    ended at hends
  cases hends with
  | blocked hthrows =>
    rw [outcome_bind_error hout]
    exact ⟨hops, h.tries, Tried.error _ h.followed (Nat.le_succ_of_le hlimit)⟩
  | thrown hsends =>
    -- the raw request has been made all the same
    obtain ⟨htries, hfollowed⟩ := h.followed_cons hsends
    rw [outcome_bind_error hout]
    exact ⟨_, htries, Tried.error _ hfollowed (Nat.succ_le_succ hlimit)⟩
  | unfinished hsends hdid =>
    obtain ⟨htries, hfollowed⟩ := h.followed_cons hsends
    rw [outcome_bind_ok hout]
    exact ⟨_, htries, Tried.unanswered hfollowed (Nat.succ_le_succ hlimit) ⟨_, _, rfl, hdid⟩⟩
  | @answered after hop response hsends hdid =>
    obtain ⟨htries, hfollowed⟩ := h.followed_cons hsends
    rw [outcome_bind_ok hout]
    cases hleads : leadsTo options externals request hop response with
    | none =>
      -- the response of this hop is what the try returns
      have hstays : nextLocation (followsRedirects options request)
        (completed externals hop response) = none := hleads
      simp only [afterHop, hstays]
      refine ⟨_, htries, Tried.answered hfollowed (Nat.succ_le_succ hlimit) ?_⟩
      exact ⟨hop, hops, rfl, response, hdid, by rw [hleads]⟩
    | some location =>
      have hgoes : nextLocation (followsRedirects options request)
        (completed externals hop response) = some location := hleads
      simp only [afterHop, hgoes]
      exact hgo hop response location after htries hfollowed hdid hleads

/-- Following redirects: on how many are left. -/
theorem ends_followHops (hhooks : options.responseHooks = []) {remaining : Nat}
    (h : Going options externals request older current hops state)
    (hlimit : hops.length + remaining = (maxRedirects options request).toNat) :
    Ends options externals request older
      ((followHops options (recording externals) (followsRedirects options request) remaining
        hops.length current).outcome state) := by
  -- on the redirects left; the hops behind and the redirects left are always the limit
  induction remaining generalizing current hops state with
  | zero =>
    refine ends_afterHop hhooks h (by omega) ?_
    intro hop response location after htries hfollowed hdid hleads
    have hlength : (hop :: hops).length ≤ (maxRedirects options request).toNat + 1 := by
      rw [List.length_cons]
      omega
    -- the redirect is returned as an error
    refine ⟨_, htries, Tried.answered hfollowed hlength ⟨hop, hops, rfl, response, hdid, ?_⟩⟩
    rw [hleads]
    exact ⟨hfollowed.1.trans hlimit, rfl⟩
  | succ remaining ih =>
    refine ends_afterHop hhooks h (by omega) ?_
    intro hop response location after htries hfollowed hdid hleads
    cases hredirected : redirected hop.request (completed externals hop response).status
        location with
    | error what =>
      -- the location leads nowhere
      refine ⟨_, htries, Tried.error what hfollowed ?_⟩
      rw [List.length_cons]
      omega
    | ok next =>
      have hgoing : Going options externals request older next (hop :: hops) after :=
        ⟨htries, hfollowed, response, location, hdid, hleads, hredirected⟩
      refine ih hgoing ?_
      rw [List.length_cons]
      omega

theorem ends_tryOnce (externals : Externals ω τ) (request : Request)
    (hhooks : options.responseHooks = []) (state : PolicyState ω (Option Response)) :
    Ends options externals request state.tries
      ((tryOnce options (recording externals) request).outcome state) := by
  have hgoing : Going options externals request state.tries request []
      { state with tries := [] :: state.tries } := ⟨rfl, trivial, rfl⟩
  exact ends_followHops hhooks hgoing (Nat.zero_add _)

/-! ### All tries -/

theorem retries_iff {response : Response} :
    retries options request response = true ↔ MayRetry options request response := by
  unfold retries MayRetry
  rw [Bool.and_eq_true]
  refine and_congr_right fun _ => ?_
  by_cases herror : response.error = []
  · simp [herror]
  · simp [herror]

theorem pauseBeforeRetry_ok (options : PolicyOptions) (externals : Externals ω τ)
    (request : Request) (state : PolicyState ω τ) :
    ∃ around, (pauseBeforeRetry options externals request).outcome state =
      (.ok (), { state with around }) := by
  by_cases hbackoff : 0 < retryBackoff options request
  · refine ⟨externals.pause (retryBackoff options request) state.around, ?_⟩
    rw [pauseBeforeRetry, outcome_modify, if_pos hbackoff]
  · refine ⟨state.around, ?_⟩
    rw [pauseBeforeRetry, outcome_modify, if_neg hbackoff]

/-- A try that another one follows. -/
structure Before (options : PolicyOptions) (externals : Externals ω τ) (request : Request)
    (hops : List RecordedHop) : Prop where
  followed : Followed options externals request hops
  length_le : hops.length ≤ (maxRedirects options request).toNat + 1
  retried : Retried options externals request hops

/-- The tries and the result of a run, with as many tries before the last one as are
allowed. -/
structure Ended (options : PolicyOptions) (externals : Externals ω τ) (request : Request)
    (allowed : Nat) (run : Except Bytes (Option Response) × PolicyState ω (Option Response))
    (hops : List RecordedHop) (older : List (List RecordedHop)) : Prop where
  tries : run.2.tries = hops :: older
  tried : Tried options externals request run.1 hops
  before : ∀ hops ∈ older, Before options externals request hops
  length_le : older.length ≤ allowed

theorem ended_tryRequest (hhooks : options.responseHooks = []) {remaining allowed : Nat}
    (hbefore : ∀ hops ∈ state.tries, Before options externals request hops)
    (hallowed : state.tries.length + remaining = allowed) :
    ∃ hops older, Ended options externals request allowed
      ((tryRequest options (recording externals) request remaining).outcome state) hops older := by
  -- on the retries left; every try but the last one has ended in a retry
  induction remaining generalizing state with
  | zero =>
    obtain ⟨hops, htries, htried⟩ := ends_tryOnce externals request hhooks state
    exact ⟨hops, state.tries, htries, htried, hbefore, by omega⟩
  | succ remaining ih =>
    obtain ⟨hops, htries, htried⟩ := ends_tryOnce externals request hhooks state
    have hlast : ∀ {run : Except Bytes (Option Response) × PolicyState ω (Option Response)},
        run = (tryOnce options (recording externals) request).outcome state →
          ∃ hops older, Ended options externals request allowed run hops older := by
      rintro run rfl
      exact ⟨hops, state.tries, htries, htried, hbefore, by omega⟩
    unfold tryRequest
    cases hout : (tryOnce options (recording externals) request).outcome state with
    | mk result after =>
      rw [hout] at htries htried hlast
      cases result with
      | error what =>
        rw [outcome_bind_error hout]
        exact hlast rfl
      | ok last =>
        rw [outcome_bind_ok hout]
        cases last with
        | none => exact hlast rfl
        | some last =>
          by_cases hretries : retries options request last = true
          · obtain ⟨latest, earlier, hhops, hended⟩ := htried.returned last rfl
            have hretried : Retried options externals request hops :=
              ⟨latest, earlier, last, hhops, hended, retries_iff.mp hretries⟩
            obtain ⟨around, hpause⟩ := pauseBeforeRetry_ok options
              (recording externals) request after
            simp only [if_pos hretries]
            rw [outcome_bind_ok hpause]
            refine ih (fun others hmem => ?_) ?_
            · rcases List.mem_cons.mp (htries ▸ hmem) with rfl | hold
              · exact ⟨htried.followed, htried.length_le, hretried⟩
              · exact hbefore others hold
            · rw [htries, List.length_cons]
              omega
          · simp only [if_neg hretries]
            exact hlast rfl

/-! ### What is returned -/

theorem decodeResponseBody_fields (response : Response) :
    (decodeResponseBody externals response).finalUrl = response.finalUrl ∧
      (decodeResponseBody externals response).redirectCount = response.redirectCount := by
  unfold decodeResponseBody
  split
  · exact ⟨rfl, rfl⟩
  · split
    · exact ⟨rfl, rfl⟩
    · exact ⟨rfl, rfl⟩
    · exact ⟨rfl, rfl⟩

theorem completed_fields (externals : Externals ω τ) (hop : RecordedHop) (response : Response) :
    (completed externals hop response).finalUrl = hop.request.url ∧
      (completed externals hop response).redirectCount = hop.redirects := by
  unfold completed completeResponse
  dsimp only
  split
  · exact decodeResponseBody_fields _
  · exact ⟨rfl, rfl⟩

theorem EndsWith.fields {last : RecordedHop} {response : Response}
    (h : EndsWith options externals request last response) :
    response.finalUrl = last.request.url ∧ response.redirectCount = last.redirects := by
  obtain ⟨answer, -, hends⟩ := h
  have hfields := completed_fields externals last answer
  cases hleads : leadsTo options externals request last answer with
  | none =>
    rw [hleads] at hends
    obtain rfl := hends
    exact hfields
  | some location =>
    rw [hleads] at hends
    obtain ⟨-, rfl⟩ := hends
    exact hfields

theorem Ended.honest {allowed : Nat}
    {run : Except Bytes (Option Response) × PolicyState ω (Option Response)}
    (h : Ended options externals request allowed run hops older) :
    Honest options externals request run.1 run.2.tries where
  followed := by
    rw [h.tries]
    exact List.forall_mem_cons.mpr ⟨h.tried.followed, fun others hmem => (h.before _ hmem).followed⟩
  retried := by
    rw [h.tries]
    exact fun others hmem => (h.before others hmem).retried
  returned := by
    intro response hok
    obtain ⟨last, earlier, rfl, hends⟩ := h.tried.returned response hok
    have hcount : last.redirects = earlier.length := h.tried.followed.1
    refine ⟨last, earlier, older, h.tries, hends, hends.fields.1, hends.fields.2.trans hcount, ?_⟩
    exact Nat.le_of_succ_le_succ h.tried.length_le
  unfinished := by
    intro hok
    obtain ⟨last, earlier, rfl, hdid⟩ := h.tried.unfinished hok
    exact ⟨last, earlier, older, h.tries, hdid⟩

/-- No try is longer than allowed, and there are no more tries than allowed. -/
theorem Ended.calls_le {allowed : Nat}
    {run : Except Bytes (Option Response) × PolicyState ω (Option Response)}
    (h : Ended options externals request allowed run hops older) :
    run.2.tries.flatten.length ≤ (allowed + 1) * ((maxRedirects options request).toNat + 1) := by
  have hlengths : ∀ n ∈ (hops :: older).map List.length,
      n ≤ (maxRedirects options request).toNat + 1 := by
    intro n hn
    obtain ⟨others, hmem, rfl⟩ := List.mem_map.mp hn
    rcases List.mem_cons.mp hmem with rfl | hold
    · exact h.tried.length_le
    · exact (h.before others hold).length_le
  have hsum := List.sum_le_card_nsmul _ _ hlengths
  rw [List.length_map, nsmul_eq_mul, Nat.cast_id, List.length_cons] at hsum
  rw [h.tries, List.length_flatten]
  exact hsum.trans (Nat.mul_le_mul_right _ (Nat.succ_le_succ h.length_le))

/-! ### Runs that send nothing -/

/-- A raw request has been made. -/
def Called (state : PolicyState ω τ) : Prop := state.tries.flatten ≠ []

theorem called_pushHop {hop : Hop τ} {tries : List (List (Hop τ))} :
    (pushHop hop tries).flatten ≠ [] := by
  cases tries with
  | nil => exact List.cons_ne_nil _ _
  | cons hops older => exact List.cons_ne_nil _ _

theorem oneHop_called (externals : Externals ω τ) (redirects : Nat) (current : Request) :
    Keeps Called (oneHop options externals redirects current) := by
  intro state h
  rcases oneHop_cases redirects current state with ⟨-, hsame⟩ | ⟨sent, around, -, hpush, -⟩
  · rw [Called, hsame]
    exact h
  · rw [Called, hpush]
    exact called_pushHop

/-- Once the first hop has called, the try has. -/
theorem followHops_called {follows : Bool} {remaining redirects : Nat} {current : Request}
    {state : PolicyState ω τ}
    (h : Called ((oneHop options externals redirects current).outcome state).2) :
    Called ((followHops options externals follows remaining redirects current).outcome
      state).2 := by
  induction remaining generalizing redirects current state with
  | zero => exact outcome_afterHop h fun _ _ _ _ => h
  | succ remaining ih =>
    refine outcome_afterHop h fun next response location _ => ?_
    cases hredirected : redirected next response.status location with
    | error what => exact h
    | ok following => exact ih (oneHop_called externals (redirects + 1) following _ h)

theorem tryOnce_called (options : PolicyOptions) (externals : Externals ω τ) (request : Request) :
    Keeps Called (tryOnce options externals request) := by
  intro state h
  exact followHops_called (oneHop_called externals 0 request _ h)

/-- Once the first try has called, the request has. -/
theorem tryRequest_called {remaining : Nat} {state : PolicyState ω τ}
    (h : Called ((tryOnce options externals request).outcome state).2) :
    Called ((tryRequest options externals request remaining).outcome state).2 := by
  induction remaining generalizing state with
  | zero => exact h
  | succ remaining ih =>
    refine outcome_bind_of_keeps h fun last => ?_
    cases last with
    | none => exact Keeps.pure none
    | some last =>
      simp only
      split
      · refine Keeps.bind (fun state h => ?_) fun _ state h => ih ?_
        · obtain ⟨around, hpause⟩ := pauseBeforeRetry_ok options externals request state
          rw [hpause]
          exact h
        · exact tryOnce_called options externals request state h
      · exact Keeps.pure _

/-- The first try sends nothing exactly if the jar throws at the first URL. -/
theorem tryOnce_first (externals : Externals ω τ) (request : Request)
    (hhooks : options.responseHooks = []) (state : PolicyState ω (Option Response)) :
    (CookiesThrow options state.around request ∧ ∃ what,
      (tryOnce options (recording externals) request).outcome state =
        (.error what, { state with tries := [] :: state.tries })) ∨
    ¬ CookiesThrow options state.around request ∧
      Called ((tryOnce options (recording externals) request).outcome state).2 := by
  have hends := hopEnds_oneHop externals hhooks 0 request
    { state with tries := [] :: state.tries }
  generalize hout : (oneHop options (recording externals) 0 request).outcome
    { state with tries := [] :: state.tries } = ended at hends
  -- what the first hop has called stays in the record
  have hcalled : Called ended.2 →
      Called ((tryOnce options (recording externals) request).outcome state).2 := by
    intro h
    rw [← hout] at h
    exact followHops_called h
  cases hends with
  | @blocked what hthrows =>
    refine Or.inl ⟨hthrows, what, ?_⟩
    change (followHops options (recording externals) (followsRedirects options request)
      (maxRedirects options request).toNat 0 request).outcome _ = _
    cases (maxRedirects options request).toNat with
    | zero => exact outcome_bind_error hout
    | succ remaining => exact outcome_bind_error hout
  | thrown hsends =>
    refine Or.inr ⟨hsends.free, hcalled ?_⟩
    rw [Called, hsends.tries]
    exact called_pushHop
  | unfinished hsends hdid =>
    refine Or.inr ⟨hsends.free, hcalled ?_⟩
    rw [Called, hsends.tries]
    exact called_pushHop
  | answered hsends hdid =>
    refine Or.inr ⟨hsends.free, hcalled ?_⟩
    rw [Called, hsends.tries]
    exact called_pushHop

/-! ### The whole request -/

/-- How often a request may be tried again, and how many redirects it follows, as it says
itself. -/
def limits (request : Request) : Int × Int := (request.maxRetries, request.maxRedirects)

theorem limits_defaultHeaders (headers : List Bytes) (request : Request) :
    limits (headers.foldl applyDefaultHeader request) = limits request := by
  induction headers generalizing request with
  | nil => rfl
  | cons line headers ih =>
    have hline : limits (applyDefaultHeader request line) = limits request := by
      unfold applyDefaultHeader
      split
      · rfl
      · split
        · rfl
        · rfl
    exact (ih _).trans hline

theorem limits_applySettings (options : PolicyOptions) (request : Request) (url : Bytes) :
    limits (applySettings options request url) = limits request := by
  have htimeout : limits (applyTimeout options { request with url }) = limits request := by
    unfold applyTimeout
    split
    · rfl
    · split
      · rfl
      · rfl
  have hdecompress : limits (applyAutoDecompress options
      (applyTimeout options { request with url })) = limits request := by
    unfold applyAutoDecompress
    split
    · exact htimeout
    · exact htimeout
  have hheaders := (limits_defaultHeaders options.defaultHeaders _).trans hdecompress
  unfold applySettings applyAcceptEncoding
  dsimp only
  split
  · exact hheaders
  · exact hheaders

/-- Completing a request leaves its limits, if no hook changes them. -/
theorem limits_applyDefaults {getenv : Bytes → Option Bytes} {prepared : Request}
    (hhooks : options.requestHooks = [])
    (h : applyDefaults options getenv request = .ok prepared) :
    limits prepared = limits request := by
  rw [applyDefaults_eq, hhooks] at h
  cases hurl : resolveBaseUrl options.baseUrl request.url with
  | error what =>
    rw [hurl] at h
    cases h
  | ok url =>
    rw [hurl] at h
    cases hproxy : applyProxy options getenv (applySettings options request url) with
    | error what =>
      simp only [Except.bind, hproxy] at h
      cases h
    | ok chosen =>
      simp only [Except.bind, hproxy, List.foldlM_nil] at h
      obtain rfl := Except.ok.inj h
      obtain ⟨proxy, proxyOverride, rfl⟩ := applyProxy_ok hproxy
      exact limits_applySettings options request url

theorem maxima_applyDefaults {getenv : Bytes → Option Bytes} {prepared : Request}
    (hhooks : options.requestHooks = [])
    (h : applyDefaults options getenv request = .ok prepared) :
    maxRetries options prepared = maxRetries options request ∧
      maxRedirects options prepared = maxRedirects options request := by
  have hsame := limits_applyDefaults hhooks h
  simp only [limits, Prod.mk.injEq] at hsame
  rw [maxRetries, maxRetries, maxRedirects, maxRedirects, hsame.1, hsame.2]
  exact ⟨rfl, rfl⟩

/-- A run of the loop, from no tries. -/
def recordedRun (options : PolicyOptions) (externals : Externals ω τ) (request : Request)
    (around : Around ω) : Except Bytes (Option Response) × PolicyState ω (Option Response) :=
  (requestWithHttpxPolicy options (recording externals) request).outcome { around }

theorem recordedRun_error {around : Around ω} {what : Bytes}
    (h : applyDefaults options externals.getenv request = .error what) :
    recordedRun options externals request around = (.error what, { around }) := by
  unfold recordedRun requestWithHttpxPolicy
  have hthrows : (ofExcept (applyDefaults options (recording externals).getenv request) :
      PolicyCall ω (Option Response) Request).outcome { around } = (.error what, { around }) := by
    have hsame : applyDefaults options (recording externals).getenv request = .error what := h
    rw [hsame]
    rfl
  exact outcome_bind_error hthrows

theorem recordedRun_ok {around : Around ω} {prepared : Request}
    (h : applyDefaults options externals.getenv request = .ok prepared)
    (hretries : 0 ≤ maxRetries options prepared) :
    recordedRun options externals request around =
      (tryRequest options (recording externals) prepared
        (maxRetries options prepared).toNat).outcome { around } := by
  unfold recordedRun requestWithHttpxPolicy
  have hprepares : (ofExcept (applyDefaults options (recording externals).getenv request) :
      PolicyCall ω (Option Response) Request).outcome { around } = (.ok prepared, { around }) := by
    have hsame : applyDefaults options (recording externals).getenv request = .ok prepared := h
    rw [hsame]
    rfl
  rw [outcome_bind_ok hprepares, if_neg (not_lt.mpr hretries)]

theorem ended_recordedRun (around : Around ω) (hhooks : options.responseHooks = [])
    {prepared : Request} (h : applyDefaults options externals.getenv request = .ok prepared)
    (hretries : 0 ≤ maxRetries options prepared) :
    ∃ hops older, Ended options externals prepared (maxRetries options prepared).toNat
      (recordedRun options externals request around) hops older := by
  rw [recordedRun_ok h hretries]
  exact ended_tryRequest hhooks (fun hops hmem => absurd hmem List.not_mem_nil) (Nat.zero_add _)

/-- The raw requests of a run are within the limits of the request. -/
theorem recordedRun_calls_le (around : Around ω)
    (hhooks : options.requestHooks = [] ∧ options.responseHooks = [])
    (hretries : 0 ≤ maxRetries options request) :
    ((recordedRun options externals request around).2.tries.flatten.length : Int) ≤
      (maxRetries options request + 1) * (max 0 (maxRedirects options request) + 1) := by
  cases hprepared : applyDefaults options externals.getenv request with
  | error what =>
    -- nothing has been called, and no bound is negative
    have htries : 0 ≤ maxRetries options request + 1 := by omega
    have hhops : 0 ≤ max 0 (maxRedirects options request) + 1 := by omega
    rw [recordedRun_error hprepared]
    exact Int.mul_nonneg htries hhops
  | ok prepared =>
    obtain ⟨hsame, hsame'⟩ := maxima_applyDefaults hhooks.1 hprepared
    obtain ⟨hops, older, hrun⟩ := ended_recordedRun around hhooks.2 hprepared (hsame ▸ hretries)
    have hle := hrun.calls_le
    rw [hsame, hsame'] at hle
    have hcast : (((maxRetries options request).toNat + 1) *
        ((maxRedirects options request).toNat + 1) : Nat) =
          (maxRetries options request + 1) * (max 0 (maxRedirects options request) + 1) := by
      push_cast
      rw [Int.toNat_of_nonneg hretries, Int.ofNat_toNat, max_comm]
    rw [← hcast]
    exact Int.ofNat_le.mpr hle

/-- Nothing is sent exactly if the request is blocked; then the run throws. -/
theorem recordedRun_called_iff (around : Around ω) (hhooks : options.responseHooks = [])
    (hretries : ∀ prepared, applyDefaults options externals.getenv request = .ok prepared →
      0 ≤ maxRetries options prepared) :
    Blocked options externals request around ∧
        (recordedRun options externals request around).2.tries.flatten = [] ∧
        (∃ what, (recordedRun options externals request around).1 = .error what) ∨
      ¬ Blocked options externals request around ∧
        Called (recordedRun options externals request around).2 := by
  unfold Blocked
  cases hprepared : applyDefaults options externals.getenv request with
  | error what =>
    rw [recordedRun_error hprepared]
    exact Or.inl ⟨trivial, rfl, what, rfl⟩
  | ok prepared =>
    rw [recordedRun_ok hprepared (hretries prepared hprepared)]
    rcases tryOnce_first externals prepared hhooks { around } with
      ⟨hthrows, what, hout⟩ | ⟨hfree, hcalled⟩
    · have hrun : (tryRequest options (recording externals) prepared
          (maxRetries options prepared).toNat).outcome { around } =
            (.error what, { around, tries := [[]] }) := by
        cases (maxRetries options prepared).toNat with
        | zero => exact hout
        | succ remaining => exact outcome_bind_error hout
      rw [hrun]
      exact Or.inl ⟨hthrows, rfl, what, rfl⟩
    · exact Or.inr ⟨hfree, tryRequest_called hcalled⟩

/-- Without hooks, a request makes at most as many raw requests as its limits allow. It makes
none exactly if it is blocked, and then it throws. Another try follows only one that ended
with a response that allows it, and what is returned is the response to the last raw
request. -/
theorem bounded_requestWithHttpxPolicy (options : PolicyOptions) (externals : Externals ω τ)
    (request : Request) (around : Around ω)
    (hhooks : options.requestHooks = [] ∧ options.responseHooks = [])
    (hretries : 0 ≤ maxRetries options request) :
    ((recordedRun options externals request around).2.tries.flatten.length : Int) ≤
        (maxRetries options request + 1) * (max 0 (maxRedirects options request) + 1) ∧
      ((recordedRun options externals request around).2.tries.flatten = [] ↔
        Blocked options externals request around) ∧
      (Blocked options externals request around →
        ∃ what, (recordedRun options externals request around).1 = .error what) ∧
      ∀ prepared, applyDefaults options externals.getenv request = .ok prepared →
        Honest options externals prepared (recordedRun options externals request around).1
          (recordedRun options externals request around).2.tries := by
  have hallowed : ∀ prepared, applyDefaults options externals.getenv request = .ok prepared →
      0 ≤ maxRetries options prepared := fun prepared hprepared =>
    (maxima_applyDefaults hhooks.1 hprepared).1 ▸ hretries
  have hcalled := recordedRun_called_iff around hhooks.2 hallowed
  refine ⟨recordedRun_calls_le around hhooks hretries, ?_, ?_, fun prepared hprepared => ?_⟩
  · rcases hcalled with ⟨hblocked, hnone, -⟩ | ⟨hfree, hsome⟩
    · exact iff_of_true hnone hblocked
    · exact iff_of_false hsome hfree
  · intro hblocked
    rcases hcalled with ⟨-, -, hthrows⟩ | ⟨hfree, -⟩
    · exact hthrows
    · exact absurd hblocked hfree
  · obtain ⟨hops, older, hrun⟩ :=
      ended_recordedRun around hhooks.2 hprepared (hallowed prepared hprepared)
    exact hrun.honest

/-- A server whose only page redirects to itself. -/
def redirectCycle : Externals Unit Unit where
  raw _ around := (some { status := 302, headers := [str "Location: /"] }, around, ())
  pause _ around := around
  zlibDecode _ body := .ok body
  getenv _ := none

/-- Up to two redirects are followed in each of at most two tries. -/
theorem bounded_requestWithHttpxPolicy_cycle :
    Honest { followRedirects := true, maxRedirects := 2, maxRetries := 1 } redirectCycle
      { url := str "https://a/" }
      (recordedRun { followRedirects := true, maxRedirects := 2, maxRetries := 1 } redirectCycle
        { url := str "https://a/" } { rest := () }).1
      (recordedRun { followRedirects := true, maxRedirects := 2, maxRetries := 1 } redirectCycle
        { url := str "https://a/" } { rest := () }).2.tries ∧
    (recordedRun { followRedirects := true, maxRedirects := 2, maxRetries := 1 } redirectCycle
      { url := str "https://a/" } { rest := () }).2.tries.flatten.length = 3 := by
  obtain ⟨-, -, -, hhonest⟩ := bounded_requestWithHttpxPolicy
    { followRedirects := true, maxRedirects := 2, maxRetries := 1 } redirectCycle
    { url := str "https://a/" } { rest := () } ⟨rfl, rfl⟩ (by decide)
  exact ⟨hhonest _ rfl, by decide +kernel⟩

/-- A request without a URL throws before it is sent. -/
theorem nothing_sent :
    ¬ ∀ (options : PolicyOptions) (externals : Externals Unit Unit) (request : Request)
        (around : Around Unit), options.requestHooks = [] ∧ options.responseHooks = [] →
      0 ≤ maxRetries options request →
        1 ≤ (recordedRun options externals request around).2.tries.flatten.length := by
  intro h
  have hsent := h {} redirectCycle {} { rest := () } ⟨rfl, rfl⟩ (by decide)
  exact absurd hsent (by decide)

end HttpClient.Policy
