import HttpClient.H2.TransportKey
import HttpClient.Policy.RequestLoop
import HttpClient.Routing.Attempts

/-!
# Submitting a request with a handler

A request that needs nothing of the policy is given straight to one of the two protocol
clients, with its handler, if the route of its origin is known. Every other request runs
through the policy in a coroutine of its own, which calls the handler with the response.

The coroutine is detached: nobody learns of an exception that leaves it. An exception on
the fast path is caught, and the handler is called with its text; but the call of the
HTTP/2 client has already moved the handler away.

On the fast path the response is the client's own. The policy adds the final URL and the
number of redirects.

## Main definitions

* `needsHttpxPolicy`, `submitRoute` — which way a request goes
* `Submission` — what becomes of the handler
* `submit` — the whole submission

## Main results

* `parseUrl_eq_error_iff` — a URL is refused exactly if it has no scheme
* `submit_eq_policy_iff` — when the fast path delivers what the policy would
-/

set_option autoImplicit false

namespace HttpClient.Policy

open Text Semantics Semantics.Call

variable {ω τ : Type}

/-! ### The two ways -/

/-- Whether anything in the request or the options is left to the policy. -/
def needsHttpxPolicy (options : PolicyOptions) (request : Request) : Bool :=
  followsRedirects options request || decide (0 < maxRetries options request) ||
    usesJar options request || request.proxy.isSome || options.proxy.isSome ||
    options.trustEnvProxy || !options.defaultHeaders.isEmpty ||
    !options.defaultQueryParams.isEmpty || options.baseUrl != [] || options.autoDecompress ||
    request.autoDecompress || decide (0 ≤ options.timeout.totalMs) ||
    !options.requestHooks.isEmpty || !options.responseHooks.isEmpty

inductive SubmitRoute where
  | policy
  | h1
  | h2
  deriving DecidableEq, Repr

/-- The route of an origin that the table remembers. -/
def rememberedSubmit : Routing.ProtocolState → SubmitRoute
  | .h1Only => .h1
  | .h2Available => .h2
  | _ => .policy

/-- Which way a request goes, by what the route caches hold. -/
def submitRoute (options : PolicyOptions) (env : Routing.Env) (request : Request) :
    Except Bytes SubmitRoute :=
  if needsHttpxPolicy options request then .ok .policy
  else
    match request.protocolPolicy with
    | .forceH1 => .ok .h1
    | .auto =>
      match env.tlsRoute with
      | some .h1Only => .ok .h1
      | some .h2Available => .ok .h2
      | some .unknown => .ok (rememberedSubmit env.remembered)
      | none => do
        let _ ← originKey request.url
        return rememberedSubmit env.remembered
    | _ => .ok .policy

/-! ### The handler -/

/-- What becomes of a handler: the responses it is called with, and whether it is called
after it was moved away. -/
structure Submission where
  answers : List Response := []
  misused : Bool := false
  deriving DecidableEq

/-- The handler is called once, and never after it was moved away. -/
def Submission.AnsweredOnce (submission : Submission) : Prop :=
  submission.answers.length = 1 ∧ submission.misused = false

instance (submission : Submission) : Decidable submission.AnsweredOnce :=
  inferInstanceAs (Decidable (_ ∧ _))

/-- The handler is called with the text of an exception. -/
def Submission.report (what : Bytes) : Submission := { answers := [{ error := what }] }

/-- The coroutine of the policy, detached. A request that never finishes does not call the
handler, and neither does an exception. -/
def spawn (outcome : Except Bytes (Option Response)) : Submission where
  answers :=
    match outcome with
    | .ok (some response) => [response]
    | .ok none => []
    | .error _ => []

/-- The HTTP/1.1 client answers a URL it refuses with an error. -/
def h1Answer (env : Routing.Env) (request : Request) : Response :=
  (Routing.h1Delivery env request).response

/-- The HTTP/2 client turns an exception of the request into an error. -/
def h2Answer (env : Routing.Env) : Response :=
  match (env.h2 false).result with
  | .ok response => response
  | .error what => { error := what }

/-- The HTTP/2 client looks for its session group first. If that throws, the handler is
gone with the call, and the caller reports the exception to what is left of it. -/
def h2Callback (hash : Bytes → UInt64) (env : Routing.Env) (request : Request) : Submission :=
  match H2.groupKey hash request with
  | .error _ => { misused := true }
  | .ok _ => { answers := [h2Answer env] }

variable (options : PolicyOptions) (externals : Externals ω τ)

def submit (hash : Bytes → UInt64) (env : Routing.Env) (request : Request)
    (state : PolicyState ω τ) : Submission :=
  match submitRoute options env request with
  | .error what => .report what
  | .ok .policy => spawn ((requestWithHttpxPolicy options externals request).outcome state).1
  | .ok .h1 => { answers := [h1Answer env request] }
  | .ok .h2 => h2Callback hash env request

/-! ### URLs with and without a scheme -/

/-- A URL is refused exactly if it has no scheme. -/
theorem splitUrl_eq_error_iff {url what : Bytes} :
    splitUrl url = .error what ↔
      hasUrlScheme url = false ∧ what = str "url must include scheme" := by
  rw [splitUrl, hasUrlScheme]
  cases find (str "://") url with
  | none => simp [eq_comm]
  | some schemeEnd =>
    simp only [Option.isSome_some, Bool.true_eq_false, false_and, iff_false]
    split
    · simp
    · simp

theorem parseUrl_eq_error_iff {url what : Bytes} :
    parseUrl url = .error what ↔
      hasUrlScheme url = false ∧ what = str "url must include scheme" := by
  rw [← splitUrl_eq_error_iff, parseUrl]
  cases splitUrl url with
  | error text =>
    constructor
    · intro h
      cases h
      rfl
    · intro h
      cases h
      rfl
  | ok parts =>
    constructor
    · intro h
      cases h
    · intro h
      cases h

theorem parseUrl_of_hasUrlScheme {url : Bytes} (h : hasUrlScheme url = true) :
    ∃ parsed, parseUrl url = .ok parsed := by
  cases hparsed : parseUrl url with
  | ok parsed => exact ⟨parsed, rfl⟩
  | error what =>
    have hnone := (parseUrl_eq_error_iff.mp hparsed).1
    rw [h] at hnone
    cases hnone

theorem parseUrl_of_noScheme {url : Bytes} (h : hasUrlScheme url = false) :
    parseUrl url = .error (str "url must include scheme") :=
  parseUrl_eq_error_iff.mpr ⟨h, rfl⟩

theorem originKey_of_noScheme {url : Bytes} (h : hasUrlScheme url = false) :
    originKey url = .error (str "url must include scheme") := by
  rw [originKey, parseUrl_of_noScheme h]
  rfl

/-! ### What the fast path leaves out -/

/-- A request that needs nothing of the policy: what the policy reads is not set. -/
structure NeedsNothing (options : PolicyOptions) (request : Request) : Prop where
  follows : followsRedirects options request = false
  retries : maxRetries options request ≤ 0
  jar : usesJar options request = false
  proxy : request.proxy = none
  clientProxy : options.proxy = none
  envProxy : options.trustEnvProxy = false
  headers : options.defaultHeaders = []
  params : options.defaultQueryParams = []
  baseUrl : options.baseUrl = []
  clientDecompress : options.autoDecompress = false
  decompress : request.autoDecompress = false
  timeout : options.timeout.totalMs < 0
  requestHooks : options.requestHooks = []
  responseHooks : options.responseHooks = []

theorem needsNothing_of {request : Request} (h : needsHttpxPolicy options request = false) :
    NeedsNothing options request := by
  simp only [needsHttpxPolicy, Bool.or_eq_false_iff, decide_eq_false_iff_not,
    Option.isSome_eq_false_iff, Option.isNone_iff_eq_none, Bool.not_eq_false',
    List.isEmpty_iff, bne_eq_false_iff_eq] at h
  obtain ⟨⟨⟨⟨⟨⟨⟨⟨⟨⟨⟨⟨⟨h₁, h₂⟩, h₃⟩, h₄⟩, h₅⟩, h₆⟩, h₇⟩, h₈⟩, h₉⟩, h₁₀⟩, h₁₁⟩, h₁₂⟩, h₁₃⟩, h₁₄⟩ := h
  exact ⟨h₁, Int.not_lt.mp h₂, h₃, h₄, h₅, h₆, h₇, h₈, h₉, h₁₀, h₁₁, Int.not_le.mp h₁₂, h₁₃, h₁₄⟩

variable {options externals}

theorem NeedsNothing.applySettings {request : Request} (h : NeedsNothing options request) :
    applySettings options request request.url = applyTimeout options request := by
  obtain ⟨timeout, timeoutMs, htimeout⟩ := applyTimeout_eq options request
  have hauto : ∀ sent : Request, applyAutoDecompress options sent = sent := by
    intro sent
    rw [applyAutoDecompress, h.clientDecompress]
    rfl
  have hencoding : applyAcceptEncoding (applyTimeout options request) =
      applyTimeout options request := by
    rw [applyAcceptEncoding, if_neg]
    rw [htimeout]
    simp [h.decompress]
  simp only [Policy.applySettings, hauto, h.headers, h.params, List.foldl_nil, appendQueryParams,
    List.isEmpty_nil, if_true]
  exact hencoding

theorem NeedsNothing.applyProxy {request sent : Request} (h : NeedsNothing options request)
    (hproxy : sent.proxy = none) (getenv : Bytes → Option Bytes) :
    applyProxy options getenv sent =
      if sent.disableProxy = true ∨ hasUrlScheme sent.url = true then .ok sent
      else .error (str "url must include scheme") := by
  rw [Policy.applyProxy]
  by_cases hdisabled : sent.disableProxy = true
  · rw [if_pos (.inl hdisabled), if_pos (.inl hdisabled)]
    rfl
  · by_cases hscheme : hasUrlScheme sent.url = true
    · obtain ⟨parsed, hparsed⟩ := parseUrl_of_hasUrlScheme hscheme
      simp [hdisabled, hscheme, hproxy, hparsed, h.clientProxy, h.envProxy, bind, Except.bind]
      rfl
    · have hparsed := parseUrl_of_noScheme (Bool.eq_false_iff.mpr hscheme)
      simp [hdisabled, hscheme, hproxy, hparsed, bind, Except.bind]

/-- The policy completes such a request by its timeout alone, if it can read its URL. -/
theorem NeedsNothing.applyDefaults {request : Request} (h : NeedsNothing options request)
    (getenv : Bytes → Option Bytes) :
    applyDefaults options getenv request =
      if request.disableProxy = true ∨ hasUrlScheme request.url = true then
        .ok (applyTimeout options request)
      else .error (str "url must include scheme") := by
  obtain ⟨timeout, timeoutMs, htimeout⟩ := applyTimeout_eq options request
  have hbase : resolveBaseUrl options.baseUrl request.url = .ok request.url := by
    rw [resolveBaseUrl, if_pos (.inl h.baseUrl)]
    rfl
  have hnone : (applyTimeout options request).proxy = none := by
    rw [htimeout]
    exact h.proxy
  rw [applyDefaults_eq, hbase, Except.bind, h.applySettings, h.applyProxy hnone, h.requestHooks]
  rw [htimeout]
  dsimp only
  split
  · rfl
  · rfl

/-- Its hop is the raw request alone. -/
theorem oneHop_plain {redirects : Nat} {current : Request} {response : Response}
    {state : PolicyState ω τ} (hjar : usesJar options current = false)
    (hdecompress : current.autoDecompress = false) (hhooks : options.responseHooks = [])
    (hraw : (externals.raw current state.around).1 = some response) :
    ∃ after, (oneHop options externals redirects current).outcome state =
      (.ok (some (current,
        { response with finalUrl := current.url, redirectCount := redirects })), after) := by
  have hcookies : (withCookies options current).outcome state = (.ok current, state) := by
    rw [withCookies, outcome_bind_ok (outcome_get state), if_neg (by simp [hjar])]
    rfl
  have hcomplete : completeResponse externals redirects current response =
      { response with finalUrl := current.url, redirectCount := redirects } := by
    rw [completeResponse, if_neg (by simp [hdecompress])]
  rw [oneHop, outcome_bind_ok (outcome_get state), outcome_bind_ok hcookies]
  have hhop : ∃ after, (rawHop externals redirects state.around.jar state.around.now
      current).outcome state = (.ok (some response), after) := ⟨_, by rw [← hraw]; rfl⟩
  obtain ⟨after, hhop⟩ := hhop
  rw [outcome_bind_ok hhop]
  have htake : (takeCookies options current
      (completeResponse externals redirects current response)).outcome after =
        (.ok (), after) := by
    rw [takeCookies, outcome_bind_ok (outcome_get after), if_neg (by simp [hjar])]
    rfl
  refine ⟨after, ?_⟩
  change (finishHop options externals redirects current response).outcome after = _
  rw [finishHop, outcome_bind_ok htake, hhooks, hcomplete]
  rfl

/-- Without redirects, the first hop is the last one. -/
theorem followHops_plain {remaining redirects : Nat} {current : Request} {response : Response}
    {state after : PolicyState ω τ}
    (hhop : (oneHop options externals redirects current).outcome state =
      (.ok (some (current, response)), after)) :
    (followHops options externals false remaining redirects current).outcome state =
      (.ok (some response), after) := by
  cases remaining with
  | zero =>
    rw [followHops, outcome_bind_ok hhop]
    rfl
  | succ remaining =>
    rw [followHops, outcome_bind_ok hhop]
    rfl

/-- The policy's response to such a request. -/
theorem NeedsNothing.outcome {request : Request} {response : Response} {state : PolicyState ω τ}
    (h : NeedsNothing options request)
    (hraw : ∀ around, (externals.raw (applyTimeout options request) around).1 = some response) :
    ((requestWithHttpxPolicy options externals request).outcome state).1 =
      if request.disableProxy = true ∨ hasUrlScheme request.url = true then
        .ok (some (if maxRetries options request < 0 then {}
          else { response with finalUrl := request.url, redirectCount := 0 }))
      else .error (str "url must include scheme") := by
  obtain ⟨timeout, timeoutMs, htimeout⟩ := applyTimeout_eq options request
  rw [requestWithHttpxPolicy, h.applyDefaults]
  rw [htimeout] at hraw ⊢
  split
  · have hprepared : ∀ prepared : Request,
        (ofExcept (.ok prepared) : PolicyCall ω τ Request).outcome state = (.ok prepared, state) :=
      fun _ => rfl
    rw [outcome_bind_ok (hprepared _)]
    -- the timeout decides nothing here
    change ((if maxRetries options request < 0 then return some {}
      else tryRequest options externals { request with timeout, timeoutMs }
        (maxRetries options request).toNat : PolicyCall ω τ (Option Response)).outcome state).1 = _
    split
    · rfl
    · rename_i hnonneg
      have hzero : (maxRetries options request).toNat = 0 :=
        Int.toNat_eq_zero.mpr h.retries
      have hfollows : followsRedirects options { request with timeout, timeoutMs } = false :=
        h.follows
      rw [hzero, tryRequest, tryOnce, outcome_bind_ok (outcome_modify _ _), hfollows]
      have hhop : ∃ after, (oneHop options externals 0
          { request with timeout, timeoutMs }).outcome { state with tries := [] :: state.tries } =
          (.ok (some ({ request with timeout, timeoutMs },
            { response with finalUrl := request.url, redirectCount := 0 })), after) :=
        oneHop_plain h.jar h.decompress h.responseHooks (hraw _)
      obtain ⟨after, hhop⟩ := hhop
      rw [followHops_plain hhop]
  · rfl

/-! ### The raw request on a known route -/

section Known

open Routing

/-- A request on the fast path needs nothing of the policy. Its protocol is forced, or the
raw request would choose the same route. -/
theorem submitRoute_cases {options : PolicyOptions} {env : Env} {request : Request}
    {route : SubmitRoute} (h : submitRoute options env request = .ok route)
    (hfast : route ≠ .policy) :
    needsHttpxPolicy options request = false ∧
      ((request.protocolPolicy = .forceH1 ∧ route = .h1) ∨
        (request.protocolPolicy = .auto ∧
          ((route = .h1 ∧ chooseRoute env request = pure .h1) ∨
            (route = .h2 ∧ chooseRoute env request = pure .h2)))) := by
  rw [submitRoute] at h
  split at h
  · cases h
    exact absurd rfl hfast
  · rename_i hneeds
    refine ⟨Bool.eq_false_iff.mpr hneeds, ?_⟩
    -- what the table of origins remembers leads both the same way
    have hremembered : rememberedSubmit env.remembered = route →
        (route = .h1 ∧ rememberedRoute env = pure .h1) ∨
          (route = .h2 ∧ rememberedRoute env = pure .h2) := by
      intro hroute
      rw [rememberedRoute]
      cases hstate : env.remembered with
      | h1Only =>
        rw [hstate] at hroute
        exact .inl ⟨hroute.symm, rfl⟩
      | h2Available =>
        rw [hstate] at hroute
        exact .inr ⟨hroute.symm, rfl⟩
      | _ =>
        rw [hstate] at hroute
        exact absurd hroute.symm hfast
    cases hpolicy : request.protocolPolicy with
    | forceH1 =>
      rw [hpolicy] at h
      exact .inl ⟨rfl, (Except.ok.inj h).symm⟩
    | auto =>
      rw [hpolicy] at h
      refine .inr ⟨rfl, ?_⟩
      rw [chooseRoute]
      cases htls : env.tlsRoute with
      | some cached =>
        rw [htls] at h
        cases cached with
        | h1Only => exact .inl ⟨(Except.ok.inj h).symm, rfl⟩
        | h2Available => exact .inr ⟨(Except.ok.inj h).symm, rfl⟩
        | unknown => exact hremembered (Except.ok.inj h)
      | none =>
        rw [htls] at h
        cases hkey : originKey request.url with
        | error what =>
          rw [hkey] at h
          cases h
        | ok key =>
          rw [hkey] at h
          exact hremembered (Except.ok.inj h)
    | forceH2 | preferH1 | preferH2 =>
      rw [hpolicy] at h
      exact absurd (Except.ok.inj h).symm hfast

variable {env : Env} {request : Request}

theorem requestH1_uncancelled (hcancel : ∀ point, env.cancelled point = none) (world : World) :
    ((requestH1 env request).outcome world).1 = .ok (h1Answer env request) := by
  rcases requestH1_cases env request with ⟨what, hsome, -⟩ | ⟨-, hmakes⟩
  · rw [hcancel] at hsome
    cases hsome
  · obtain ⟨after, hout, -⟩ := hmakes world
    rw [hout]
    rfl

/-- The error of an exception is what the HTTP/2 client reports itself in the callback. -/
theorem requestH2_uncancelled {url : ParsedUrl} (hcancel : ∀ point, env.cancelled point = none)
    (hurl : H2.parseUrl request.url = .ok url) (world : World) :
    ((requestH2 env request false false).outcome world).1 = (env.h2 false).result := by
  have hreached : H2Reached env request false := ⟨hcancel _, url, hurl⟩
  rcases requestH2_cases env request false false with ⟨hnot, -⟩ |
    ⟨-, what, hresult, hmakes⟩ | ⟨-, response, hresult, ⟨-, hmakes⟩ | ⟨hnot, -⟩⟩
  · exact absurd hreached hnot
  · obtain ⟨after, hout, -⟩ := hmakes world
    rw [hout, hresult]
  · obtain ⟨after, hout, -⟩ := hmakes world
    rw [hout, hresult]
  · exact absurd (.inr (.inr (hcancel _))) hnot

/-- What the client of a route answers. -/
def clientAnswer (env : Env) (request : Request) : SubmitRoute → Response
  | .h2 => h2Answer env
  | _ => h1Answer env request

theorem rawRequest_of_dispatch {rounds : List Env} {route : SubmitRoute} {world : World}
    (h : ((dispatch (env :: rounds) request).outcome world).1 = .ok (some (h1Answer env request)) ∧
        route = .h1 ∨
      ((dispatch (env :: rounds) request).outcome world).1 = (env.h2 false).result.map some ∧
        route = .h2) :
    (rawRequest (env :: rounds) request world).1 = some (clientAnswer env request route) := by
  rw [rawRequest]
  rcases h with ⟨hout, rfl⟩ | ⟨hout, rfl⟩
  · cases hrun : (dispatch (env :: rounds) request).outcome world with
    | mk result after =>
      rw [hrun] at hout
      subst hout
      rfl
  · cases hrun : (dispatch (env :: rounds) request).outcome world with
    | mk result after =>
      rw [hrun] at hout
      subst hout
      rw [clientAnswer, h2Answer]
      cases (env.h2 false).result with
      | ok response => rfl
      | error what => rfl

/-- The raw request asks the same client. -/
theorem rawRequest_known {options : PolicyOptions} {rounds : List Env} {route : SubmitRoute}
    (hcancel : ∀ point, env.cancelled point = none) (hproxy : request.proxy = none)
    (h : submitRoute options env request = .ok route) (hfast : route ≠ .policy)
    (haccepted : route = .h2 → ∃ url, H2.parseUrl request.url = .ok url) (world : World) :
    (rawRequest (env :: rounds) request world).1 = some (clientAnswer env request route) := by
  have hpolicy : routePolicy request = request.protocolPolicy := by simp [routePolicy, hproxy]
  apply rawRequest_of_dispatch
  rw [dispatch, hpolicy]
  rcases (submitRoute_cases h hfast).2 with ⟨hforced, rfl⟩ |
    ⟨hauto, ⟨rfl, hchoose⟩ | ⟨rfl, hchoose⟩⟩
  · refine .inl ⟨?_, rfl⟩
    rw [hforced, outcome_map_fst, requestH1_uncancelled hcancel]
    rfl
  · refine .inl ⟨?_, rfl⟩
    rw [hauto]
    change ((requestAuto (env :: rounds) request).outcome world).1 = _
    rw [requestAuto, hchoose, pure_bind, if_neg (by decide), follow, outcome_map_fst,
      requestH1_uncancelled hcancel]
    rfl
  · refine .inr ⟨?_, rfl⟩
    obtain ⟨url, hurl⟩ := haccepted rfl
    rw [hauto]
    change ((requestAuto (env :: rounds) request).outcome world).1 = _
    rw [requestAuto, hchoose, pure_bind, if_neg (by decide), follow, outcome_map_fst,
      requestH2_uncancelled hcancel hurl]

end Known

/-! ### The two ways compared -/

/-- The raw requests of the policy meet the same transports. -/
def SameTransports (env : Routing.Env) (externals : Externals ω τ) : Prop :=
  ∀ sent around, ∃ rounds world,
    (externals.raw sent around).1 = (Routing.rawRequest (env :: rounds) sent world).1

/-- The handler is given the response that the policy would return. -/
def AnsweredAsPolicy (options : PolicyOptions) (externals : Externals ω τ)
    (hash : Bytes → UInt64) (env : Routing.Env) (request : Request)
    (state : PolicyState ω τ) : Prop :=
  ∃ response, (submit options externals hash env request state).answers = [response] ∧
    ((requestWithHttpxPolicy options externals request).outcome state).1 = .ok (some response)

theorem groupKey_of_noProxy {hash : Bytes → UInt64} {request : Request}
    (h : request.proxy = none) :
    H2.groupKey hash request =
      (H2.parseUrl request.url).map fun url => H2.transportKey hash url {} := by
  have hproxy : ProxySupport.proxyForRequest request = .ok {} := by
    rw [ProxySupport.proxyForRequest, h]
    exact ite_self _
  rw [H2.groupKey, hproxy]
  cases H2.parseUrl request.url with
  | ok url => rfl
  | error what => rfl

/-- On the fast path the handler is called with what the client answers. -/
theorem submit_fast {hash : Bytes → UInt64} {env : Routing.Env} {request : Request}
    {state : PolicyState ω τ} {route : SubmitRoute}
    (h : submitRoute options env request = .ok route) (hfast : route ≠ .policy)
    (haccepted : route = .h2 → ∃ url, H2.parseUrl request.url = .ok url) :
    submit options externals hash env request state =
      { answers := [clientAnswer env request route] } := by
  have hproxy := (needsNothing_of options (submitRoute_cases h hfast).1).proxy
  unfold submit
  rw [h]
  cases route with
  | policy => exact absurd rfl hfast
  | h1 => rfl
  | h2 =>
    obtain ⟨url, hurl⟩ := haccepted rfl
    dsimp only
    rw [h2Callback, groupKey_of_noProxy hproxy, hurl]
    rfl

/-- If the HTTP/2 client refuses the URL, nothing is left of the handler. -/
theorem submit_lost {hash : Bytes → UInt64} {env : Routing.Env} {request : Request}
    {state : PolicyState ω τ} (h : submitRoute options env request = .ok .h2)
    (hrefused : ¬ ∃ url, H2.parseUrl request.url = .ok url) :
    submit options externals hash env request state = { misused := true } := by
  have hproxy := (needsNothing_of options (submitRoute_cases h (by decide)).1).proxy
  unfold submit
  rw [h]
  dsimp only
  rw [h2Callback, groupKey_of_noProxy hproxy]
  cases hurl : H2.parseUrl request.url with
  | ok url => exact absurd ⟨url, hurl⟩ hrefused
  | error what => rfl

theorem located_eq_iff {response : Response} {url : Bytes} :
    response = { response with finalUrl := url, redirectCount := 0 } ↔
      response.finalUrl = url ∧ response.redirectCount = 0 := by
  constructor
  · intro h
    exact ⟨congrArg Response.finalUrl h, congrArg Response.redirectCount h⟩
  · rintro ⟨rfl, hcount⟩
    rw [← hcount]

theorem exists_answer_iff {answer returned : Response} :
    (∃ response, ({ answers := [answer] } : Submission).answers = [response] ∧
      (Except.ok (some returned) : Except Bytes (Option Response)) = .ok (some response)) ↔
      answer = returned := by
  constructor
  · rintro ⟨response, hanswer, hreturned⟩
    cases hanswer
    cases hreturned
    rfl
  · rintro rfl
    exact ⟨answer, rfl, rfl⟩

/-- The fast path delivers what the policy would if the client's response carries the URL
already, and if nothing refuses that URL. With a negative number of retries the policy
returns an empty response. -/
theorem submit_eq_policy_iff {hash : Bytes → UInt64} {env : Routing.Env} {request : Request}
    {state : PolicyState ω τ} {route : SubmitRoute}
    (hroute : submitRoute options env request = .ok route) (hfast : route ≠ .policy)
    (hcancel : ∀ point, env.cancelled point = none) (hsame : SameTransports env externals) :
    AnsweredAsPolicy options externals hash env request state ↔
      (route = .h2 → ∃ url, H2.parseUrl request.url = .ok url) ∧
        (request.disableProxy = true ∨ hasUrlScheme request.url = true) ∧
        if maxRetries options request < 0 then clientAnswer env request route = {}
        else (clientAnswer env request route).finalUrl = request.url ∧
          (clientAnswer env request route).redirectCount = 0 := by
  have hneeds := needsNothing_of options (submitRoute_cases hroute hfast).1
  rw [AnsweredAsPolicy]
  by_cases haccepted : route = .h2 → ∃ url, H2.parseUrl request.url = .ok url
  · have hknown : ∀ sent : Request, sent.proxy = none → sent.url = request.url →
        submitRoute options env sent = .ok route → ∀ rounds world,
        (Routing.rawRequest (env :: rounds) sent world).1 = some (clientAnswer env sent route) := by
      intro sent hproxy hurl hsent rounds world
      rw [← hurl] at haccepted
      exact rawRequest_known hcancel hproxy hsent hfast haccepted world
    have hraw : ∀ around, (externals.raw (applyTimeout options request) around).1 =
        some (clientAnswer env request route) := by
      intro around
      obtain ⟨rounds, world, hraw⟩ := hsame (applyTimeout options request) around
      obtain ⟨timeout, timeoutMs, htimeout⟩ := applyTimeout_eq options request
      rw [hraw, htimeout]
      -- the timeout neither chooses the route nor enters the client's answer here
      have hanswer : clientAnswer env { request with timeout, timeoutMs } route =
          clientAnswer env request route := by
        cases route with
        | policy | h1 | h2 => rfl
      rw [← hanswer]
      exact hknown { request with timeout, timeoutMs } hneeds.proxy rfl hroute rounds world
    rw [submit_fast hroute hfast haccepted, hneeds.outcome hraw]
    by_cases hread : request.disableProxy = true ∨ hasUrlScheme request.url = true
    · rw [if_pos hread, exists_answer_iff]
      by_cases hretries : maxRetries options request < 0
      · rw [if_pos hretries, if_pos hretries]
        exact ⟨fun h => ⟨haccepted, hread, h⟩, fun h => h.2.2⟩
      · rw [if_neg hretries, if_neg hretries, located_eq_iff]
        exact ⟨fun h => ⟨haccepted, hread, h⟩, fun h => h.2.2⟩
    · rw [if_neg hread]
      constructor
      · rintro ⟨response, -, hreturned⟩
        cases hreturned
      · exact fun h => absurd h.2.1 hread
  · obtain ⟨rfl, hrefused⟩ := Classical.not_imp.mp haccepted
    rw [submit_lost hroute hrefused]
    constructor
    · rintro ⟨response, hanswers, -⟩
      cases hanswers
    · exact fun h => absurd h.1 haccepted

/-- A page that is forced over HTTP/1.1. -/
def pageRequest : Request := { url := str "https://a/page", protocolPolicy := .forceH1 }

/-- Its transport answers with the given response. -/
def pageEnv (response : Response) : Routing.Env := { h1 := { sent := true, response } }

/-- The policy sends its raw requests to that transport. -/
def pageExternals (response : Response) : Externals Unit Unit where
  raw sent around := ((Routing.rawRequest [pageEnv response] sent {}).1, around, ())
  pause _ around := around
  zlibDecode _ body := .ok body
  getenv _ := none

def noneTried : PolicyState Unit Unit := { around := { rest := () } }

theorem submit_eq_policy_iff_page :
    AnsweredAsPolicy {} (pageExternals { status := 200, finalUrl := str "https://a/page" })
      (fun _ => 0) (pageEnv { status := 200, finalUrl := str "https://a/page" }) pageRequest
      noneTried := by
  have hroute : submitRoute {} (pageEnv { status := 200, finalUrl := str "https://a/page" })
      pageRequest = .ok .h1 := by decide +kernel
  refine (submit_eq_policy_iff hroute (by decide) (fun _ => rfl)
    fun _ _ => ⟨[], {}, rfl⟩).mpr ⟨(fun h => nomatch h), .inr (by decide +kernel), ?_⟩
  rw [if_neg (by decide)]
  exact ⟨by decide +kernel, by decide +kernel⟩

/-- The clients leave the final URL empty. Then the fast path delivers it empty, and the
policy fills it in. -/
theorem submit_ne_policy_page :
    submitRoute {} (pageEnv { status := 200 }) pageRequest = .ok .h1 ∧
      SameTransports (pageEnv { status := 200 }) (pageExternals { status := 200 }) ∧
      ¬ AnsweredAsPolicy {} (pageExternals { status := 200 }) (fun _ => 0)
        (pageEnv { status := 200 }) pageRequest noneTried := by
  refine ⟨by decide +kernel, fun _ _ => ⟨[], {}, rfl⟩, ?_⟩
  have hfast : (submit {} (pageExternals { status := 200 }) (fun _ => 0)
      (pageEnv { status := 200 }) pageRequest noneTried).answers = [{ status := 200 }] := by
    decide +kernel
  have hpolicy : ((requestWithHttpxPolicy {} (pageExternals { status := 200 })
      pageRequest).outcome noneTried).1 =
        .ok (some { status := 200, finalUrl := str "https://a/page" }) := by
    decide +kernel
  rintro ⟨response, hanswers, hreturned⟩
  rw [hfast] at hanswers
  rw [hpolicy] at hreturned
  cases hanswers
  cases hreturned

end HttpClient.Policy
