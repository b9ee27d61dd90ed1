import HttpClient.Policy.Hops

/-!
# Credentials across redirects

Credentials that the caller puts into a request, in an `Authorization` or a `Cookie` header,
are meant for the origin of its URL. A redirect may lead to any other origin. The loop makes
the next request from the one before and removes none of these headers.

## Main definitions

* `origin`, `SameOrigin` — scheme, host and port of a URL
* `IsCredential` — a header line with credentials
* `StaysHome` — no hop to another origin carries the line

## Main results

* `credential_everywhere` — a credential of the completed request is carried by every hop
* `mem_headers_applyDefaults` — without hooks, the completed request has the caller's lines
* `staysHome_iff` — the runs in which credentials stay with their origin
* `token_sent_to_other_host` — a token that is sent to another host
-/

set_option autoImplicit false

namespace HttpClient.Policy

open Text

variable {ω τ : Type} {options : PolicyOptions} {externals : Externals ω τ} {line : Bytes}

/-- Scheme, host and port, as the client reads them. -/
def origin (url : Bytes) : Except Bytes (Bytes × Bytes × Bytes) :=
  (parseUrl url).map fun parsed => (parsed.scheme, parsed.host, parsed.port)

def SameOrigin (a b : Bytes) : Prop := origin a = origin b

instance (a b : Bytes) : Decidable (SameOrigin a b) :=
  inferInstanceAs (Decidable (origin a = origin b))

/-- A line of an `Authorization` or a `Cookie` header. -/
def IsCredential (line : Bytes) : Prop :=
  lineNamed (str "Authorization") line = true ∨ lineNamed (str "Cookie") line = true

/-- No hop to another origin than that of `url` carries the line. -/
def StaysHome (url line : Bytes) (tries : List (List (Hop τ))) : Prop :=
  ∀ hops ∈ tries, ∀ hop ∈ hops, ¬ SameOrigin url hop.request.url → line ∉ hop.request.headers

/-! ### What keeps a header line -/

/-- A line has one name. -/
theorem lineNamed_unique {name other : Bytes} (h : lineNamed name line = true)
    (hother : lineNamed other line = true) : lowerCopy name = lowerCopy other := by
  rw [lineNamed, headerNameEqual, beq_iff_eq] at h hother
  exact h.symm.trans hother

/-- Removing another header leaves the line. -/
theorem mem_headers_removeHeader {request : Request} {name other : Bytes}
    (hname : lineNamed name line = true) (hother : lowerCopy name ≠ lowerCopy other)
    (h : line ∈ request.headers) : line ∈ (request.removeHeader other).headers := by
  refine Request.mem_removeHeader.mpr ⟨h, Bool.eq_false_iff.mpr fun heq => ?_⟩
  exact hother (lineNamed_unique hname heq)

theorem mem_headers_setHeader {request : Request} {name other : Bytes} (value : Bytes)
    (hname : lineNamed name line = true) (hother : lowerCopy name ≠ lowerCopy other)
    (h : line ∈ request.headers) : line ∈ (request.setHeader other value).headers :=
  List.mem_append_left _ (mem_headers_removeHeader hname hother h)

/-- Cookies of the jar leave the line: they come to requests without cookies only. -/
theorem mem_headers_cookies (hline : IsCredential line) {current : Request} (cookie : Bytes)
    (hnone : current.header (str "Cookie") = none) (h : line ∈ current.headers) :
    line ∈ (current.setHeader (str "Cookie") cookie).headers := by
  rcases hline with hname | hname
  · exact mem_headers_setHeader cookie hname (by decide) h
  · rw [header_eq_none_iff] at hnone
    have hcookie : line ∈ linesNamed (str "Cookie") current := List.mem_filter.mpr ⟨h, hname⟩
    rw [hnone] at hcookie
    exact absurd hcookie List.not_mem_nil

/-- A redirect removes the headers of the body at most. -/
theorem mem_headers_redirected (hline : IsCredential line) {sent next : Request} {status : Nat}
    {location : Bytes} (hnext : redirected sent status location = .ok next)
    (h : line ∈ sent.headers) : line ∈ next.headers := by
  have hkept : ∀ name, lineNamed name line = true → lowerCopy name ≠ str "content-type" →
      lowerCopy name ≠ str "content-length" → line ∈ next.headers := by
    intro name hname htype hlength
    have hmem : line ∈ linesNamed name sent := List.mem_filter.mpr ⟨h, hname⟩
    rw [← (redirected_linesNamed htype hlength hnext).1] at hmem
    exact (List.mem_filter.mp hmem).1
  rcases hline with hname | hname
  · exact hkept _ hname (by decide) (by decide)
  · exact hkept _ hname (by decide) (by decide)

theorem hopInvariant_credential (options : PolicyOptions) (externals : Externals ω τ)
    (hline : IsCredential line) :
    HopInvariant options externals (fun _ => True) (fun sent => line ∈ sent.headers)
      (fun _ => True) :=
  HopInvariant.ofRequests (fun _ cookie hnone h => mem_headers_cookies hline cookie hnone h)
    fun _ _ _ _ h hnext => mem_headers_redirected hline hnext h

/-! ### The caller's lines -/

/-- Settings other than hooks leave the caller's credentials in the request. -/
theorem mem_headers_applySettings (hline : IsCredential line) {request : Request} (url : Bytes)
    (hmem : line ∈ request.headers) : line ∈ (applySettings options request url).headers := by
  have hadded : ∀ (lines : List Bytes) (sent : Request), line ∈ sent.headers →
      line ∈ (lines.foldl applyDefaultHeader sent).headers := by
    intro lines
    induction lines with
    | nil => exact fun _ h => h
    | cons header lines ih =>
      refine fun sent h => ih _ ?_
      rw [applyDefaultHeader]
      split
      · exact List.mem_append_left _ h
      · split
        · exact List.mem_append_left _ h
        · exact h
  have hfirst : line ∈
      (applyAutoDecompress options (applyTimeout options { request with url })).headers := by
    obtain ⟨timeout, timeoutMs, htimeout⟩ := applyTimeout_eq options { request with url }
    rw [applyAutoDecompress, htimeout]
    split
    · exact hmem
    · exact hmem
  rw [applySettings, applyAcceptEncoding]
  split
  · rcases hline with hname | hname
    · exact mem_headers_setHeader _ hname (by decide) (hadded _ _ hfirst)
    · exact mem_headers_setHeader _ hname (by decide) (hadded _ _ hfirst)
  · exact hadded _ _ hfirst

theorem mem_headers_applyDefaults (hhooks : options.requestHooks = []) (hline : IsCredential line)
    {getenv : Bytes → Option Bytes} {request prepared : Request}
    (hprepared : applyDefaults options getenv request = .ok prepared)
    (hmem : line ∈ request.headers) : line ∈ prepared.headers := by
  rw [applyDefaults_eq, hhooks] at hprepared
  cases hurl : resolveBaseUrl options.baseUrl request.url with
  | error what =>
    rw [hurl] at hprepared
    cases hprepared
  | ok url =>
    rw [hurl, Except.bind] at hprepared
    cases hproxy : applyProxy options getenv (applySettings options request url) with
    | error what =>
      rw [hproxy] at hprepared
      cases hprepared
    | ok proxied =>
      rw [hproxy] at hprepared
      obtain rfl := Except.ok.inj hprepared
      obtain ⟨proxy, proxyOverride, rfl⟩ := applyProxy_ok hproxy
      exact mem_headers_applySettings hline url hmem

/-! ### Whole runs -/

/-- A credential of the completed request is carried by every hop. -/
theorem credential_everywhere (hline : IsCredential line) {request prepared : Request}
    (hprepared : applyDefaults options externals.getenv request = .ok prepared)
    (hmem : line ∈ prepared.headers) (around : Around ω) :
    EveryHop (fun sent => line ∈ sent.headers)
      ((requestWithHttpxPolicy options externals request).outcome { around }).2.tries := by
  refine (hopInvariant_credential options externals hline).hops trivial (everyHop_nil _) ?_
  intro completed hcompleted
  rw [hprepared] at hcompleted
  obtain rfl := Except.ok.inj hcompleted
  exact hmem

/-- Credentials stay with their origin in exactly the runs that do not leave it. -/
theorem staysHome_iff (options : PolicyOptions) (externals : Externals ω τ) (request : Request)
    (around : Around ω) {prepared : Request}
    (hprepared : applyDefaults options externals.getenv request = .ok prepared)
    (hline : IsCredential line) (hmem : line ∈ prepared.headers) :
    StaysHome prepared.url line
        ((requestWithHttpxPolicy options externals request).outcome { around }).2.tries ↔
      ∀ hops ∈ ((requestWithHttpxPolicy options externals request).outcome { around }).2.tries,
        ∀ hop ∈ hops, SameOrigin prepared.url hop.request.url := by
  have hcarried := credential_everywhere hline hprepared hmem around
  constructor
  · intro hstays hops hhops hop hhop
    by_contra hforeign
    exact hstays hops hhops hop hhop hforeign (hcarried hops hhops hop hhop)
  · intro hsame hops hhops hop hhop hforeign
    exact absurd (hsame hops hhops hop hhop) hforeign

/-- A server at `a.example` that redirects to the URL given, and any other server. -/
def redirectsTo (location : Bytes) : Externals Unit Unit where
  raw request around :=
    (some (if request.url = str "https://a.example/" then
      { status := 302, headers := [str "Location: " ++ location] }
      else { status := 200 }), around, ())
  pause _ around := around
  zlibDecode _ body := .ok body
  getenv _ := none

/-- The token of a caller. -/
def token : Bytes := str "Authorization: Bearer t"

def withToken : Request := { url := str "https://a.example/", headers := [token] }

/-- The default port is the same origin. -/
theorem staysHome_iff_defaultPort :
    StaysHome (str "https://a.example/") token
      ((requestWithHttpxPolicy { followRedirects := true }
        (redirectsTo (str "https://a.example:443/b")) withToken).outcome
          { around := { rest := () } }).2.tries := by
  have hprepared : applyDefaults { followRedirects := true }
      (redirectsTo (str "https://a.example:443/b")).getenv withToken = .ok withToken := by
    decide +kernel
  have hline : IsCredential token := Or.inl (by decide)
  apply (staysHome_iff { followRedirects := true } (redirectsTo (str "https://a.example:443/b"))
    withToken { rest := () } hprepared hline List.mem_cons_self).mpr
  decide +kernel

/-- The token is sent to another host. -/
theorem token_sent_to_other_host :
    ∃ hops ∈ ((requestWithHttpxPolicy { followRedirects := true }
        (redirectsTo (str "https://b.example/")) withToken).outcome
          { around := { rest := () } }).2.tries,
      ∃ hop ∈ hops, ¬ SameOrigin (str "https://a.example/") hop.request.url ∧
        hop.request.header (str "Authorization") = some (str "Bearer t") := by
  decide +kernel

end HttpClient.Policy
