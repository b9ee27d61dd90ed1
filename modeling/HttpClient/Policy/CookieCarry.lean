import HttpClient.Policy.RequestLoop

/-!
# Cookies across redirects

Each hop should carry the cookies that the jar has for its URL at that time, and no
others. The loop asks the jar only when the request has no cookies yet, and it keeps one
request from hop to hop. So the first cookies that a try sends are sent on all its later
hops, whatever their hosts and paths.

## Main definitions

* `Hop.OwnCookies` — the hop carries what the jar has for its URL
* `Steady` — the jar has the same for all hops after the first one it has something for
* `Tracks` — how the cookies of a hop come from those of the hop before

## Main results

* `oneHop_cases` — what one hop does to the record
* `tracks_requestWithHttpxPolicy` — the hops of every run track
* `ownCookies_iff_steady` — the runs whose hops carry their own cookies
* `cookie_sent_to_other_host` — the failing redirect
-/

set_option autoImplicit false

namespace HttpClient.Policy

open Text Semantics Semantics.Call

variable {ω τ : Type} {options : PolicyOptions} {externals : Externals ω τ}

/-! ### What a hop should carry -/

def cookieLines (request : Request) : List Bytes := linesNamed (str "Cookie") request

/-- The lines that carry a `Cookie` header; there are none for an empty one. -/
def linesFor (cookies : Bytes) : List Bytes :=
  if cookies = [] then [] else [headerLine (str "Cookie") cookies]

/-- The header that a jar has for a URL; for a URL that is none, nothing. -/
def jarCookies (jar : CookieJar) (url : Bytes) (now : Int) : Bytes :=
  match jar.cookieHeader url now with
  | .ok (cookies, _) => cookies
  | .error _ => []

/-- What the jar has for the URL of the hop. -/
def Hop.cookies (hop : Hop τ) : Bytes := jarCookies hop.jar hop.request.url hop.now

/-- The hop carries exactly what the jar has for its URL. -/
def Hop.OwnCookies (hop : Hop τ) : Prop := cookieLines hop.request = linesFor hop.cookies

instance (hop : Hop τ) : Decidable hop.OwnCookies :=
  inferInstanceAs (Decidable (cookieLines hop.request = linesFor hop.cookies))

/-- Of the hops of a try that begins with the cookie lines `initial`: if the jar is asked,
then once it has something for a hop, it has the same for all later ones; if it is not
asked, it has for every hop what the try has begun with. -/
def Steady (used : Bool) (initial : List Bytes) (hops : List (Hop τ)) : Prop :=
  if used = true ∧ initial = [] then hops.Pairwise fun later earlier =>
    earlier.cookies ≠ [] → later.cookies = earlier.cookies
  else ∀ hop ∈ hops, linesFor hop.cookies = initial

/-! ### What the hops of a try carry -/

/-- The cookie lines after some hops. -/
def linesAfter (initial : List Bytes) : List (Hop τ) → List Bytes
  | [] => initial
  | hop :: _ => cookieLines hop.request

/-- A hop carries what the hop before it did; if that is nothing and the jar is used, it
carries what the jar has. -/
def Tracks (used : Bool) (initial : List Bytes) : List (Hop τ) → Prop
  | [] => True
  | hop :: earlier =>
    cookieLines hop.request =
        (if used = true ∧ linesAfter initial earlier = [] then linesFor hop.cookies
          else linesAfter initial earlier) ∧
      Tracks used initial earlier

theorem linesFor_eq_nil {cookies : Bytes} : linesFor cookies = [] ↔ cookies = [] := by
  unfold linesFor
  split
  · simp [*]
  · simp [*]

theorem linesFor_injective {a b : Bytes} (h : linesFor a = linesFor b) : a = b := by
  unfold linesFor headerLine at h
  by_cases ha : a = []
  · by_cases hb : b = []
    · rw [ha, hb]
    · simp [ha, hb] at h
  · by_cases hb : b = []
    · simp [ha, hb] at h
    · simpa [ha, hb] using h

variable {used : Bool} {initial : List Bytes}

/-- Where the jar is not asked, all hops carry what the try has begun with. -/
theorem tracks_fixed {hops : List (Hop τ)} (hfixed : ¬ (used = true ∧ initial = []))
    (h : Tracks used initial hops) :
    linesAfter initial hops = initial ∧ ∀ hop ∈ hops, cookieLines hop.request = initial := by
  induction hops with
  | nil => exact ⟨rfl, fun hop hmem => absurd hmem List.not_mem_nil⟩
  | cons hop earlier ih =>
    obtain ⟨hlines, htracks⟩ := h
    obtain ⟨hafter, hearlier⟩ := ih htracks
    rw [hafter, if_neg hfixed] at hlines
    exact ⟨hlines, List.forall_mem_cons.mpr ⟨hlines, hearlier⟩⟩

theorem own_iff_steady_of_asked {hops : List (Hop τ)} (h : Tracks true [] hops) :
    (∀ hop ∈ hops, hop.OwnCookies) ↔ Steady true [] hops := by
  induction hops with
  | nil => exact iff_of_true (fun hop hmem => absurd hmem List.not_mem_nil) List.Pairwise.nil
  | cons hop earlier ih =>
    obtain ⟨hlines, htracks⟩ := h
    have hih := ih htracks
    simp only [Steady, and_self, if_true] at hih ⊢
    rw [List.forall_mem_cons, List.pairwise_cons, hih]
    refine and_congr_left fun hsteady => ?_
    have hown := hih.mpr hsteady
    cases earlier with
    | nil =>
      have hfirst : cookieLines hop.request = linesFor hop.cookies := by
        simpa [linesAfter] using hlines
      exact iff_of_true hfirst (by simp)
    | cons before rest =>
      have hbefore : cookieLines before.request = linesFor before.cookies :=
        hown before List.mem_cons_self
      simp only [linesAfter, hbefore, true_and, linesFor_eq_nil] at hlines
      -- The hop before carries what every earlier hop does, or nothing.
      have hsame : ∀ other ∈ before :: rest, other.cookies ≠ [] →
          before.cookies = other.cookies := by
        intro other hother hne
        rcases List.mem_cons.mp hother with rfl | hmem
        · rfl
        · exact (List.pairwise_cons.mp hsteady).1 other hmem hne
      by_cases hnone : before.cookies = []
      · rw [if_pos hnone] at hlines
        refine iff_of_true hlines fun other hother hne => ?_
        exact absurd ((hsame other hother hne).symm.trans hnone) hne
      · rw [if_neg hnone] at hlines
        constructor
        · intro howns other hother hne
          have hcookies : linesFor hop.cookies = linesFor before.cookies := howns.symm.trans hlines
          exact (linesFor_injective hcookies).trans (hsame other hother hne)
        · intro hlater
          have hcookies := hlater before List.mem_cons_self hnone
          exact hlines.trans (by rw [hcookies])

/-- For hops that track, to carry one's own cookies is to be steady. -/
theorem own_iff_steady {hops : List (Hop τ)} (h : Tracks used initial hops) :
    (∀ hop ∈ hops, hop.OwnCookies) ↔ Steady used initial hops := by
  by_cases hasked : used = true ∧ initial = []
  · obtain ⟨rfl, rfl⟩ := hasked
    exact own_iff_steady_of_asked h
  · rw [Steady, if_neg hasked]
    refine forall₂_congr fun hop hmem => ?_
    rw [Hop.OwnCookies, (tracks_fixed hasked h).2 hop hmem, eq_comm]

/-! ### What one hop does -/

/-- The request `sent` is `current` with the cookies of the jar, unless it has some. -/
structure Cookied (options : PolicyOptions) (around : Around ω) (current sent : Request) :
    Prop where
  url : sent.url = current.url
  method : sent.method = current.method
  useCookieJar : sent.useCookieJar = current.useCookieJar
  lines : cookieLines sent =
    if usesJar options current = true ∧ cookieLines current = [] then
      linesFor (jarCookies around.jar current.url around.now)
    else cookieLines current

theorem header_cookie_isNone {request : Request} :
    (request.header (str "Cookie")).isNone = true ↔ cookieLines request = [] := by
  rw [Option.isNone_iff_eq_none, header_eq_none_iff, cookieLines]

theorem cookieLines_setHeader (request : Request) (cookie : Bytes) :
    cookieLines (request.setHeader (str "Cookie") cookie) =
      [headerLine (str "Cookie") cookie] := by
  unfold cookieLines linesNamed
  have hname : lineNamed (str "Cookie") (headerLine (str "Cookie") cookie) = true := by
    simp [lineNamed, headerLine, str, splitHeaderView, findByte, headerNameEqual]
  simp only [Request.setHeader, Request.removeHeader, Request.addHeader, List.filter_append,
    List.filter_filter]
  simp [hname]

theorem withCookies_cases (current : Request) (state : PolicyState ω τ) :
    (∃ what, (withCookies options current).outcome state = (.error what, state)) ∨
      ∃ sent around, (withCookies options current).outcome state =
        (.ok sent, { state with around }) ∧ Cookied options state.around current sent := by
  unfold withCookies
  rw [outcome_bind_ok (outcome_get state)]
  by_cases hasks : usesJar options current = true ∧
      (current.header (str "Cookie")).isNone = true
  · rw [if_pos hasks]
    obtain ⟨hused, hnone⟩ := hasks
    have hlines : cookieLines current = [] := header_cookie_isNone.mp hnone
    cases hjar : state.around.jar.cookieHeader current.url state.around.now with
    | error what => exact Or.inl ⟨what, rfl⟩
    | ok found =>
      obtain ⟨cookie, jar⟩ := found
      have hcookies : jarCookies state.around.jar current.url state.around.now = cookie := by
        simp [jarCookies, hjar]
      refine Or.inr ⟨_, { state.around with jar }, rfl, ?_⟩
      by_cases hempty : cookie = []
      · rw [if_neg (not_not_intro hempty)]
        exact ⟨rfl, rfl, rfl, by rw [if_pos ⟨hused, hlines⟩, hcookies, hlines, linesFor,
          if_pos hempty]⟩
      · rw [if_pos hempty]
        exact ⟨rfl, rfl, rfl, by rw [if_pos ⟨hused, hlines⟩, hcookies,
          cookieLines_setHeader, linesFor, if_neg hempty]⟩
  · rw [if_neg hasks]
    refine Or.inr ⟨current, state.around, rfl, rfl, rfl, rfl, ?_⟩
    rw [if_neg fun h => hasks ⟨h.1, header_cookie_isNone.mpr h.2⟩]

theorem takeCookies_tries (current : Request) (response : Response) (tries : List (List (Hop τ))) :
    Keeps (fun state : PolicyState ω τ => state.tries = tries)
      (takeCookies options current response) := by
  refine fun state hstate => ?_
  unfold takeCookies
  rw [outcome_bind_ok (outcome_get state)]
  split
  · cases state.around.jar.addFromResponse options.toJarOptions current.url response
      state.around.now with
    | error what => exact hstate
    | ok jar => exact hstate
  · exact hstate

theorem finishHop_tries (redirects : Nat) (current : Request) (response : Response)
    (tries : List (List (Hop τ))) :
    Keeps (fun state : PolicyState ω τ => state.tries = tries)
      (finishHop options externals redirects current response) :=
  (takeCookies_tries current _ tries).bind fun _ =>
    (Keeps.ofExcept _).bind fun _ => Keeps.pure _

/-- A hop answers with the request it has sent. -/
theorem finishHop_request {redirects : Nat} {sent current : Request} {response last : Response}
    {state : PolicyState ω τ}
    (h : ((finishHop options externals redirects sent response).outcome state).1 =
      .ok (some (current, last))) : current = sent := by
  unfold finishHop at h
  cases htake : (takeCookies options sent
      (completeResponse externals redirects sent response)).outcome state with
  | mk result after =>
    cases result with
    | error what =>
      rw [outcome_bind_error htake] at h
      cases h
    | ok _ =>
      rw [outcome_bind_ok htake] at h
      cases hhooks : options.responseHooks.foldlM (fun response hook => hook response)
          (completeResponse externals redirects sent response) with
      | error what =>
        rw [hhooks] at h
        cases h
      | ok response =>
        rw [hhooks] at h
        cases h
        rfl

/-- A hop throws before its raw request, or records the request it sends, together with
the jar and the time it finds. -/
theorem oneHop_cases (redirects : Nat) (current : Request) (state : PolicyState ω τ) :
    ((∃ what, ((oneHop options externals redirects current).outcome state).1 = .error what) ∧
      ((oneHop options externals redirects current).outcome state).2.tries = state.tries) ∨
    ∃ sent around, Cookied options state.around current sent ∧
      ((oneHop options externals redirects current).outcome state).2.tries =
        pushHop { redirects, request := sent, jar := state.around.jar, now := state.around.now,
                  did := (externals.raw sent around).2.2 } state.tries ∧
      ∀ next last, ((oneHop options externals redirects current).outcome state).1 =
        .ok (some (next, last)) → next = sent := by
  unfold oneHop
  rw [outcome_bind_ok (outcome_get state)]
  rcases withCookies_cases current state with ⟨what, hthrow⟩ | ⟨sent, around, hcookies, hsent⟩
  · rw [outcome_bind_error hthrow]
    exact Or.inl ⟨⟨what, rfl⟩, rfl⟩
  · rw [outcome_bind_ok hcookies]
    refine Or.inr ⟨sent, around, hsent, ?_⟩
    have hraw : (rawHop externals redirects state.around.jar state.around.now sent).outcome
        { state with around } = (.ok (externals.raw sent around).1,
          { around := (externals.raw sent around).2.1
            tries := pushHop { redirects, request := sent, jar := state.around.jar,
                               now := state.around.now,
                               did := (externals.raw sent around).2.2 } state.tries }) := rfl
    rw [outcome_bind_ok hraw]
    cases (externals.raw sent around).1 with
    | none => exact ⟨rfl, fun next last h => by cases h⟩
    | some response =>
      exact ⟨finishHop_tries redirects sent response _ _ rfl, fun next last => finishHop_request⟩

/-! ### What a whole run does -/

/-- The hops of all tries track. -/
def AllTrack (used : Bool) (initial : List Bytes) (state : PolicyState ω τ) : Prop :=
  ∀ hops ∈ state.tries, Tracks used initial hops

/-- The latest hop has left its cookies to the request that goes on. -/
def latestLines (initial : List Bytes) : List (List (Hop τ)) → List Bytes
  | [] => initial
  | hops :: _ => linesAfter initial hops

theorem allTrack_pushHop {hop : Hop τ} {tries : List (List (Hop τ))}
    (h : ∀ hops ∈ tries, Tracks used initial hops)
    (hlines : cookieLines hop.request =
      if used = true ∧ latestLines initial tries = [] then linesFor hop.cookies
      else latestLines initial tries) :
    ∀ hops ∈ pushHop hop tries, Tracks used initial hops := by
  cases tries with
  | nil =>
    intro hops hmem
    obtain rfl := List.mem_singleton.mp hmem
    exact ⟨hlines, trivial⟩
  | cons latest older =>
    intro hops hmem
    rcases List.mem_cons.mp hmem with rfl | hold
    · exact ⟨hlines, h latest List.mem_cons_self⟩
    · exact h hops (List.mem_cons_of_mem _ hold)

theorem latestLines_pushHop (hop : Hop τ) (tries : List (List (Hop τ))) :
    latestLines initial (pushHop hop tries) = cookieLines hop.request := by
  cases tries with
  | nil => rfl
  | cons latest older => rfl

/-- What the loop keeps from hop to hop: all hops track, and the request that goes on
carries what the latest hop did. -/
structure Carrying (options : PolicyOptions) (used : Bool) (initial : List Bytes)
    (current : Request) (state : PolicyState ω τ) : Prop where
  tracks : AllTrack used initial state
  used : usesJar options current = used
  lines : cookieLines current = latestLines initial state.tries

theorem oneHop_carrying {current : Request} {state : PolicyState ω τ}
    (externals : Externals ω τ) (redirects : Nat)
    (h : Carrying options used initial current state) :
    AllTrack used initial ((oneHop options externals redirects current).outcome state).2 ∧
      ∀ next last, ((oneHop options externals redirects current).outcome state).1 =
        .ok (some (next, last)) →
          Carrying options used initial next
            ((oneHop options externals redirects current).outcome state).2 := by
  rcases oneHop_cases redirects current state with ⟨⟨what, hthrow⟩, hsame⟩ |
    ⟨sent, around, hsent, hpush, hnext⟩
  · refine ⟨fun hops hmem => h.tracks hops (hsame ▸ hmem), fun next last hok => ?_⟩
    rw [hthrow] at hok
    cases hok
  · have hlines := hsent.lines
    rw [h.used, h.lines, ← hsent.url] at hlines
    have htracks : AllTrack used initial
        ((oneHop options externals redirects current).outcome state).2 :=
      fun hops hmem => allTrack_pushHop h.tracks hlines hops (hpush ▸ hmem)
    refine ⟨htracks, fun next last hok => ⟨htracks, ?_, ?_⟩⟩
    · rw [hnext next last hok, ← h.used, usesJar, usesJar, hsent.useCookieJar]
    · rw [hnext next last hok, hpush, latestLines_pushHop]

theorem redirected_carrying {current next : Request} {status : Nat}
    {location : Bytes} {state : PolicyState ω τ} (h : Carrying options used initial current state)
    (hnext : redirected current status location = .ok next) :
    Carrying options used initial next state := by
  have htype : lowerCopy (str "Cookie") ≠ str "content-type" := by decide
  have hlength : lowerCopy (str "Cookie") ≠ str "content-length" := by decide
  obtain ⟨hlines, hused⟩ : cookieLines next = cookieLines current ∧
      next.useCookieJar = current.useCookieJar :=
    redirected_linesNamed htype hlength hnext
  refine ⟨h.tracks, ?_, hlines.trans h.lines⟩
  rw [← h.used, usesJar, usesJar, hused]

/-- What holds after a hop holds at the end, if what goes on keeps it. -/
theorem outcome_afterHop {Q : PolicyState ω τ → Prop} {follows : Bool} {current : Request}
    {state : PolicyState ω τ} {redirects : Nat}
    {go : Request → Response → Bytes → PolicyCall ω τ (Option Response)}
    (hended : Q ((oneHop options externals redirects current).outcome state).2)
    (hgo : ∀ next last location, ((oneHop options externals redirects current).outcome state).1 =
      .ok (some (next, last)) →
        Q ((go next last location).outcome
          ((oneHop options externals redirects current).outcome state).2).2) :
    Q ((oneHop options externals redirects current >>= fun ended =>
      afterHop follows ended go).outcome state).2 := by
  cases hout : (oneHop options externals redirects current).outcome state with
  | mk result after =>
    rw [hout] at hended hgo
    cases result with
    | error what =>
      rw [outcome_bind_error hout]
      exact hended
    | ok ended =>
      rw [outcome_bind_ok hout]
      cases ended with
      | none => exact hended
      | some answered =>
        obtain ⟨sent, response⟩ := answered
        simp only [afterHop]
        split
        · exact hended
        · exact hgo sent response _ rfl

/-- Following redirects: on how many are left. -/
theorem followHops_tracks {follows : Bool} {remaining redirects : Nat} {current : Request}
    {state : PolicyState ω τ} (h : Carrying options used initial current state) :
    AllTrack used initial
      ((followHops options externals follows remaining redirects current).outcome state).2 := by
  obtain ⟨htracks, hcarrying⟩ := oneHop_carrying externals redirects h
  -- on the redirects left: each hop starts from what the one before was allowed to carry
  induction remaining generalizing redirects current state with
  | zero => exact outcome_afterHop htracks fun _ _ _ _ => htracks
  | succ remaining ih =>
    refine outcome_afterHop htracks fun next response location hnext => ?_
    have hgoes := hcarrying next response hnext
    -- a redirect that cannot be followed ends the request with the hops so far
    cases hredirected : redirected next response.status location with
    | error what => exact htracks
    | ok following =>
      have hfollowing := redirected_carrying hgoes hredirected
      obtain ⟨htracks', hcarrying'⟩ := oneHop_carrying externals (redirects + 1) hfollowing
      exact ih hfollowing htracks' hcarrying'

theorem tryOnce_tracks {request : Request} :
    Keeps (AllTrack (usesJar options request) (cookieLines request))
      (tryOnce options externals request) := by
  intro state h
  refine followHops_tracks ⟨fun hops hmem => ?_, rfl, rfl⟩
  rcases List.mem_cons.mp hmem with rfl | hold
  · exact trivial
  · exact h hops hold

theorem tryRequest_tracks (externals : Externals ω τ) {request : Request} (remaining : Nat) :
    Keeps (AllTrack (usesJar options request) (cookieLines request))
      (tryRequest options externals request remaining) := by
  induction remaining with
  | zero => exact tryOnce_tracks
  | succ remaining ih =>
    refine tryOnce_tracks.bind fun last => ?_
    cases last with
    | none => exact Keeps.pure none
    | some last =>
      simp only
      split
      · refine Keeps.bind (Keeps.modify fun state h => ?_) fun _ => ih
        split
        · exact h
        · exact h
      · exact Keeps.pure _

theorem tracks_requestWithHttpxPolicy {request prepared : Request}
    (hprepared : applyDefaults options externals.getenv request = .ok prepared)
    (around : Around ω) :
    AllTrack (usesJar options prepared) (cookieLines prepared)
      ((requestWithHttpxPolicy options externals request).outcome { around }).2 := by
  have hempty : AllTrack (usesJar options prepared) (cookieLines prepared)
      ({ around } : PolicyState ω τ) := fun hops hmem => absurd hmem List.not_mem_nil
  unfold requestWithHttpxPolicy
  rw [hprepared]
  by_cases hnone : maxRetries options prepared < 0
  · simpa [outcome, ofExcept, hnone] using hempty
  · have hrun := tryRequest_tracks externals (maxRetries options prepared).toNat _ hempty
    simpa [outcome, ofExcept, hnone] using hrun

/-- All hops of a run carry exactly the cookies that the jar has for them, if and only if
the hops of each try are steady. -/
theorem ownCookies_iff_steady (options : PolicyOptions) (externals : Externals ω τ)
    (request : Request) (around : Around ω) {prepared : Request}
    (hprepared : applyDefaults options externals.getenv request = .ok prepared) :
    (∀ hops ∈ ((requestWithHttpxPolicy options externals request).outcome { around }).2.tries,
      ∀ hop ∈ hops, hop.OwnCookies) ↔
    ∀ hops ∈ ((requestWithHttpxPolicy options externals request).outcome { around }).2.tries,
      Steady (usesJar options prepared) (cookieLines prepared) hops :=
  forall₂_congr fun hops hmem =>
    own_iff_steady (tracks_requestWithHttpxPolicy hprepared around hops hmem)

/-- A server at `a.example` that redirects to another host. -/
def redirectingServer : Externals Unit Unit where
  raw request around :=
    (some (if request.url = str "https://a.example/" then
      { status := 302, headers := [str "Location: https://b.example/"] }
      else { status := 200 }), around, ())
  pause _ around := around
  zlibDecode _ body := .ok body
  getenv _ := none

/-- A jar with a cookie of the whole domain `example`. -/
def jarOfExample : Around Unit where
  jar :=
    [(str "example",
      [{ name := str "sid", value := str "1", domain := str "example", hostOnly := false }])]
  rest := ()

/-- A run with a redirect to another host. -/
def redirectedTries : List (List (Hop Unit)) :=
  ((requestWithHttpxPolicy { enableCookieJar := true, followRedirects := true } redirectingServer
    { url := str "https://a.example/" }).outcome { around := jarOfExample }).2.tries

theorem steady_redirectedTries : ∀ hops ∈ redirectedTries, Steady true [] hops := by
  have hpairs : ∀ hops ∈ redirectedTries, hops.Pairwise fun later earlier =>
      earlier.cookies ≠ [] → later.cookies = earlier.cookies := by decide +kernel
  intro hops hmem
  rw [Steady, if_pos ⟨rfl, rfl⟩]
  exact hpairs hops hmem

/-- Both hops carry the cookie of the domain that their hosts are in. -/
theorem ownCookies_iff_steady_domain :
    redirectedTries.map (List.map fun hop => (hop.request.url, cookieLines hop.request)) =
        [[(str "https://b.example/", [str "Cookie: sid=1"]),
          (str "https://a.example/", [str "Cookie: sid=1"])]] ∧
      ∀ hops ∈ redirectedTries, ∀ hop ∈ hops, hop.OwnCookies :=
  ⟨by decide +kernel,
    (ownCookies_iff_steady { enableCookieJar := true, followRedirects := true } redirectingServer
      { url := str "https://a.example/" } jarOfExample rfl).mpr steady_redirectedTries⟩

/-- A jar with a cookie of `a.example`. -/
def jarOfA : Around Unit where
  jar := [(str "a.example", [{ name := str "sid", value := str "1", domain := str "a.example" }])]
  rest := ()

/-- The cookie of `a.example` is sent to `b.example`. -/
theorem cookie_sent_to_other_host :
    ¬ ∀ (options : PolicyOptions) (externals : Externals Unit Unit) (request prepared : Request)
        (around : Around Unit),
      applyDefaults options externals.getenv request = .ok prepared →
        usesJar options prepared = true → prepared.header (str "Cookie") = none →
          ∀ hops ∈ ((requestWithHttpxPolicy options externals request).outcome
            { around }).2.tries, ∀ hop ∈ hops, hop.OwnCookies := by
  intro h
  have hown := h { enableCookieJar := true, followRedirects := true } redirectingServer
    { url := str "https://a.example/" } { url := str "https://a.example/" } jarOfA rfl rfl rfl
  exact absurd hown (by decide +kernel)

end HttpClient.Policy
