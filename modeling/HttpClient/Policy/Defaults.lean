import HttpClient.Policy.CookieJar

/-!
# What the client adds to a request

Before a request is sent, the client completes it from its options: the base URL, timeouts,
default headers and query parameters, a proxy. Hooks of the user come last. A redirect
makes a new request of the one that was answered.

Hooks may change anything, and may throw. Environment variables are given by a function.

## Main definitions

* `PolicyOptions` — the options of the client that its policy reads
* `resolveRedirectUrl`, `redirected` — where a redirect leads, and with which request
* `applyDefaults` — the completed request
* `isReplayable` — whether a request may be sent again

## Main results

* `applyDefaults_eq` — the stages of completing a request
* `redirected_linesNamed` — what a redirect leaves of a header
-/

set_option autoImplicit false

namespace HttpClient.Policy

open Text

structure QueryParam where
  name : Bytes
  value : Bytes

structure PolicyOptions extends JarOptions where
  followRedirects : Bool := false
  maxRedirects : Int := 20
  maxRetries : Int := 0
  /-- In milliseconds. -/
  retryBackoff : Int := 0
  retryStatuses : List Int := [429, 502, 503, 504]
  enableCookieJar : Bool := false
  autoDecompress : Bool := false
  timeout : Timeout := {}
  proxy : Option ProxyConfig := none
  trustEnvProxy : Bool := false
  noProxy : List Bytes := []
  defaultHeaders : List Bytes := []
  defaultQueryParams : List QueryParam := []
  baseUrl : Bytes := []
  requestHooks : List (Request → Except Bytes Request) := []
  responseHooks : List (Response → Except Bytes Response) := []

/-! ### URLs -/

def hasUrlScheme (url : Bytes) : Bool := (find (str "://") url).isSome

/-- The origin of a URL, without the port if it is the scheme's own. -/
def originOf (url : ParsedUrl) : Bytes :=
  url.scheme ++ str "://" ++ url.host ++
    (if url.scheme = str "https" ∧ url.port = str "443" ∨
        url.scheme = str "http" ∧ url.port = str "80" then []
      else str ":" ++ url.port)

/-- The path of a target up to its last slash, without a query. -/
def directoryOf (target : Bytes) : Bytes :=
  let path :=
    match findByte 63 target with
    | none => target
    | some query => target.take query
  match rfindByte 47 path with
  | none => str "/"
  | some slash => path.take (slash + 1)

theorem directoryOf_eq_elim {target path : Bytes}
    (hpath : (findByte 63 target).elim target target.take = path) :
    directoryOf target =
      (rfindByte 47 path).elim (str "/") fun slash => path.take (slash + 1) := by
  subst hpath
  rw [directoryOf]
  cases findByte 63 target with
  | none =>
    simp only [Option.elim_none]
    cases rfindByte 47 target with
    | none => rfl
    | some slash => rfl
  | some query =>
    simp only [Option.elim_some]
    cases rfindByte 47 (target.take query) with
    | none => rfl
    | some slash => rfl

/-- Where a location leads from a URL. -/
def resolveRedirectUrl (base location : Bytes) : Except Bytes Bytes := do
  let target := trim location
  if hasUrlScheme target then return target
  let parsed ← parseUrl base
  if (str "//").isPrefixOf target then return parsed.scheme ++ str ":" ++ target
  if target.head? = some 47 then return originOf parsed ++ target
  return originOf parsed ++ directoryOf parsed.target ++ target

def resolveBaseUrl (base url : Bytes) : Except Bytes Bytes :=
  if base = [] ∨ hasUrlScheme url then return url
  else if url = [] then return base
  else resolveRedirectUrl base url

/-! ### Query parameters -/

def isUnreserved (c : UInt8) : Bool :=
  isDigit c || (65 ≤ c && c ≤ 90) || (97 ≤ c && c ≤ 122) || c == 45 || c == 95 || c == 46 ||
    c == 126

def hexDigit (n : UInt8) : UInt8 := if n < 10 then n + 48 else n + 55

def urlencodeByte (c : UInt8) : Bytes :=
  if isUnreserved c then [c]
  else if c = 32 then [43]
  else [37, hexDigit (c >>> 4), hexDigit (c &&& 15)]

def urlencoded (value : Bytes) : Bytes := value.flatMap urlencodeByte

/-! The two digits of an encoded byte. -/

theorem toNat_highDigit (c : UInt8) : (c >>> 4).toNat = c.toNat / 16 := by
  rw [UInt8.toNat_shiftRight, Nat.shiftRight_eq_div_pow]
  rfl

theorem toNat_lowDigit (c : UInt8) : (c &&& 15).toNat = c.toNat % 16 := by
  rw [UInt8.toNat_and]
  exact Nat.and_two_pow_sub_one_eq_mod c.toNat 4

/-- What holds of the numbers below 16 holds of both digits. -/
theorem forall_digit (P : UInt8 → Prop) (h : ∀ i < 16, P (.ofNat i)) (c : UInt8) :
    P (c >>> 4) ∧ P (c &&& 15) := by
  have hc := c.toNat_lt
  have hhigh : (c >>> 4).toNat < 16 := by
    rw [toNat_highDigit]
    omega
  have hlow : (c &&& 15).toNat < 16 := by
    rw [toNat_lowDigit]
    omega
  have hP := And.intro (h _ hhigh) (h _ hlow)
  rwa [UInt8.ofNat_toNat, UInt8.ofNat_toNat] at hP

theorem isUnreserved_hexDigit (c : UInt8) :
    isUnreserved (hexDigit (c >>> 4)) = true ∧ isUnreserved (hexDigit (c &&& 15)) = true :=
  forall_digit (fun n => isUnreserved (hexDigit n) = true) (by decide) c

theorem urlencodeByte_alphabet (c : UInt8) :
    ∀ d ∈ urlencodeByte c, isUnreserved d = true ∨ d ∈ str "+%" := by
  obtain ⟨hhigh, hlow⟩ := isUnreserved_hexDigit c
  intro d hd
  rw [urlencodeByte] at hd
  split at hd
  · rename_i hplain
    rw [List.mem_singleton.mp hd]
    exact .inl hplain
  · split at hd
    · rw [List.mem_singleton.mp hd]
      exact .inr (by decide)
    · simp only [List.mem_cons, List.not_mem_nil, or_false] at hd
      rcases hd with rfl | rfl | rfl
      · exact .inr (by decide)
      · exact .inl hhigh
      · exact .inl hlow

/-- A byte is encoded without the bytes that separate the parts of a URL, of a query or of a head.
-/
theorem urlencodeByte_plain (c : UInt8) : ∀ d ∈ urlencodeByte c, d ∉ str "#&/=?\r\n" := by
  have hreserved : ∀ d ∈ str "#&/=?\r\n", isUnreserved d = false ∧ d ∉ str "+%" := by
    decide +kernel
  intro d hd hmem
  obtain ⟨hnot, hescape⟩ := hreserved d hmem
  rcases urlencodeByte_alphabet c d hd with hplain | hwritten
  · rw [hplain] at hnot
    cases hnot
  · exact hescape hwritten

theorem urlencoded_plain {c : UInt8} (hc : c ∈ str "#&/=?\r\n") (value : Bytes) :
    c ∉ urlencoded value := by
  intro hmem
  obtain ⟨byte, -, hbyte⟩ := List.mem_flatMap.mp hmem
  exact urlencodeByte_plain byte c hbyte hc

/-- Append parameters to a URL, before its fragment. -/
def appendQueryParams (url : Bytes) (params : List QueryParam) : Bytes :=
  if params.isEmpty then url
  else
    let (url, suffix) :=
      match findByte 35 url with
      | none => (url, [])
      | some fragment => (url.take fragment, url.drop fragment)
    url ++ (if (findByte 63 url).isNone then str "?" else str "&") ++
      (str "&").intercalate
        (params.map fun field => urlencoded field.name ++ str "=" ++ urlencoded field.value) ++
      suffix

/-! ### Proxies -/

/-- Whether a host is among those that are reached without a proxy. -/
def hostMatchesNoProxy (host : Bytes) (noProxy : List Bytes) : Bool :=
  noProxy.any fun item =>
    let n := lowerCopy (trim item)
    n != [] && (n == str "*" || hostWithin (lowerCopy host) (dropDot n))

/-- The items of a comma-separated variable. -/
def noProxyItems (value : Option Bytes) : List Bytes :=
  ((splitParts 44 (value.getD [])).map trim).filter (· ≠ [])

def effectiveNoProxy (getenv : Bytes → Option Bytes) (configured : List Bytes) : List Bytes :=
  configured ++ noProxyItems (getenv (str "NO_PROXY")) ++ noProxyItems (getenv (str "no_proxy"))

/-- The proxy that the environment names for a URL; empty variables count as unset. -/
def envProxyFor (getenv : Bytes → Option Bytes) (url : Bytes) :
    Except Bytes (Option ProxyConfig) := do
  let parsed ← parseUrl url
  let names :=
    (if parsed.scheme = str "https" then [str "HTTPS_PROXY", str "https_proxy"]
      else [str "HTTP_PROXY", str "http_proxy"]) ++ [str "ALL_PROXY", str "all_proxy"]
  return ((names.filterMap getenv).find? (· ≠ [])).map fun url => { url }

/-! ### Completing a request -/

def applyTimeout (options : PolicyOptions) (request : Request) : Request :=
  if request.timeout.totalMs < 0 ∧ 0 ≤ options.timeout.totalMs then
    { request with timeout := options.timeout, timeoutMs := options.timeout.totalMs }
  else if 0 ≤ request.timeout.totalMs then
    { request with timeoutMs := request.timeout.totalMs }
  else request

/-- A default header is added unless the request has one of its name. -/
def applyDefaultHeader (request : Request) (line : Bytes) : Request :=
  match findByte 58 line with
  | none => request.addHeaderLine line
  | some colon =>
    if (request.header (trim (line.take colon))).isNone then request.addHeaderLine line
    else request

def applyProxy (options : PolicyOptions) (getenv : Bytes → Option Bytes) (request : Request) :
    Except Bytes Request := do
  if request.disableProxy ∨ request.proxy.isSome then return request
  let parsed ← parseUrl request.url
  let noProxy :=
    if options.trustEnvProxy then effectiveNoProxy getenv options.noProxy else options.noProxy
  if hostMatchesNoProxy parsed.host noProxy then return request
  if options.proxy.isSome then
    return { request with proxy := options.proxy, proxyOverride := false }
  if options.trustEnvProxy then
    return { request with proxy := ← envProxyFor getenv request.url, proxyOverride := false }
  return request

def applyDefaults (options : PolicyOptions) (getenv : Bytes → Option Bytes) (request : Request) :
    Except Bytes Request := do
  let url ← resolveBaseUrl options.baseUrl request.url
  let request := applyTimeout options { request with url }
  let request :=
    if options.autoDecompress then { request with autoDecompress := true } else request
  let request := options.defaultHeaders.foldl applyDefaultHeader request
  let request := { request with url := appendQueryParams request.url options.defaultQueryParams }
  let request :=
    if request.autoDecompress ∧ (request.header (str "Accept-Encoding")).isNone then
      request.setHeader (str "Accept-Encoding") (str "gzip, deflate")
    else request
  let request ← applyProxy options getenv request
  options.requestHooks.foldlM (fun request hook => hook request) request

/-- The request asks for decompression if the client does. -/
def applyAutoDecompress (options : PolicyOptions) (request : Request) : Request :=
  if options.autoDecompress then { request with autoDecompress := true } else request

/-- A request that is to be decompressed names the encodings, unless it does so itself. -/
def applyAcceptEncoding (request : Request) : Request :=
  if request.autoDecompress ∧ (request.header (str "Accept-Encoding")).isNone then
    request.setHeader (str "Accept-Encoding") (str "gzip, deflate")
  else request

/-- The request with all settings but the proxy. -/
def applySettings (options : PolicyOptions) (request : Request) (url : Bytes) : Request :=
  let request := applyAutoDecompress options (applyTimeout options { request with url })
  let request := options.defaultHeaders.foldl applyDefaultHeader request
  applyAcceptEncoding
    { request with url := appendQueryParams request.url options.defaultQueryParams }

/-- Completing a request: its URL, its settings, its proxy, and the hooks. -/
theorem applyDefaults_eq (options : PolicyOptions) (getenv : Bytes → Option Bytes)
    (request : Request) :
    applyDefaults options getenv request =
      (resolveBaseUrl options.baseUrl request.url).bind fun url =>
        (applyProxy options getenv (applySettings options request url)).bind fun request =>
          options.requestHooks.foldlM (fun request hook => hook request) request := rfl

theorem applyTimeout_eq (options : PolicyOptions) (request : Request) :
    ∃ timeout timeoutMs, applyTimeout options request = { request with timeout, timeoutMs } := by
  rw [applyTimeout]
  split
  · exact ⟨_, _, rfl⟩
  · split
    · exact ⟨_, _, rfl⟩
    · exact ⟨_, _, rfl⟩

/-- Default headers change the headers alone. -/
theorem defaultHeaders_eq (lines : List Bytes) (request : Request) :
    ∃ headers, lines.foldl applyDefaultHeader request = { request with headers } := by
  induction lines generalizing request with
  | nil => exact ⟨_, rfl⟩
  | cons line lines ih =>
    have hline : ∃ headers, applyDefaultHeader request line = { request with headers } := by
      rw [applyDefaultHeader]
      split
      · exact ⟨_, rfl⟩
      · split
        · exact ⟨_, rfl⟩
        · exact ⟨_, rfl⟩
    obtain ⟨headers, hline⟩ := hline
    rw [List.foldl_cons, hline]
    exact ih _

/-- The settings change neither the proxy nor what is said of it. -/
theorem applySettings_proxy (options : PolicyOptions) (request : Request) (url : Bytes) :
    (applySettings options request url).disableProxy = request.disableProxy ∧
      (applySettings options request url).proxy = request.proxy ∧
      (applySettings options request url).url =
        appendQueryParams url options.defaultQueryParams := by
  obtain ⟨timeout, timeoutMs, htimeout⟩ := applyTimeout_eq options { request with url }
  have hauto : ∃ autoDecompress, applyAutoDecompress options (applyTimeout options
      { request with url }) = { request with url, timeout, timeoutMs, autoDecompress } := by
    rw [applyAutoDecompress, htimeout]
    split
    · exact ⟨_, rfl⟩
    · exact ⟨_, rfl⟩
  obtain ⟨autoDecompress, hauto⟩ := hauto
  obtain ⟨headers, hheaders⟩ := defaultHeaders_eq options.defaultHeaders
    { request with url, timeout, timeoutMs, autoDecompress }
  rw [applySettings, hauto]
  simp only [hheaders]
  rw [applyAcceptEncoding]
  split
  · exact ⟨rfl, rfl, rfl⟩
  · exact ⟨rfl, rfl, rfl⟩

/-- Choosing a proxy changes nothing else. -/
theorem applyProxy_ok {options : PolicyOptions} {getenv : Bytes → Option Bytes}
    {request completed : Request} (h : applyProxy options getenv request = .ok completed) :
    ∃ proxy proxyOverride, completed = { request with proxy, proxyOverride } := by
  rw [applyProxy] at h
  split at h
  · exact ⟨_, _, (Except.ok.inj h).symm⟩
  · cases hparsed : parseUrl request.url with
    | error what =>
      rw [hparsed] at h
      cases h
    | ok parsed =>
      rw [hparsed] at h
      dsimp only [bind, Except.bind] at h
      repeat' split at h
      all_goals first
        | exact ⟨_, _, (Except.ok.inj h).symm⟩
        | cases h

/-! ### Redirects and retries -/

def redirectChangesToGet (status : Nat) (method : Bytes) : Bool :=
  (status == 301 || status == 302 || status == 303) && lowerCopy method != str "get" &&
    lowerCopy method != str "head"

/-- A shared body is not removed. -/
def changeToGet (request : Request) : Request :=
  ({ request with method := str "GET", body := [] }.removeHeader (str "Content-Type")).removeHeader
    (str "Content-Length")

/-- The request that follows a redirect. -/
def redirected (request : Request) (status : Nat) (location : Bytes) : Except Bytes Request := do
  let url ← resolveRedirectUrl request.url location
  let next := { request with url }
  return if redirectChangesToGet status request.method then changeToGet next else next

def isReplayable (request : Request) : Bool :=
  [str "get", str "head", str "options", str "trace"].contains (lowerCopy request.method) ||
    (request.header (str "Idempotency-Key")).isSome ||
    (request.header (str "X-Idempotency-Key")).isSome

def isRetriableTransportError (error : Bytes) : Bool :=
  [str "h1_read_headers", str "h1_read_body", str "h1_write", str "End of file",
    str "timeout"].any fun text => (find text error).isSome

/-- The lines of a request with the given name. -/
def linesNamed (name : Bytes) (request : Request) : List Bytes :=
  request.headers.filter (lineNamed name)

theorem header_eq_none_iff {name : Bytes} {request : Request} :
    request.header name = none ↔ linesNamed name request = [] := by
  unfold Request.header headerValue linesNamed
  simp [List.filter_eq_nil_iff]

theorem linesNamed_removeHeader_self (name : Bytes) (request : Request) :
    linesNamed name (request.removeHeader name) = [] := by
  unfold linesNamed Request.removeHeader
  simp [List.filter_filter]

/-- Removing one header leaves the lines of another. -/
theorem linesNamed_removeHeader {name other : Bytes} (h : lowerCopy name ≠ lowerCopy other)
    (request : Request) :
    linesNamed name (request.removeHeader other) = linesNamed name request := by
  unfold linesNamed Request.removeHeader
  rw [List.filter_filter]
  refine List.filter_congr fun line _ => ?_
  cases hname : lineNamed name line with
  | false => rfl
  | true =>
    have hline : lowerCopy (splitHeaderView line).1 = lowerCopy name := by
      simpa [lineNamed, headerNameEqual] using hname
    simpa [lineNamed, headerNameEqual, hline] using h

/-- A redirect leaves every header but those of the body. -/
theorem redirected_linesNamed {name location : Bytes} {request next : Request} {status : Nat}
    (htype : lowerCopy name ≠ str "content-type") (hlength : lowerCopy name ≠ str "content-length")
    (h : redirected request status location = .ok next) :
    linesNamed name next = linesNamed name request ∧ next.useCookieJar = request.useCookieJar := by
  unfold redirected at h
  cases hurl : resolveRedirectUrl request.url location with
  | error what =>
    rw [hurl] at h
    cases h
  | ok url =>
    rw [hurl] at h
    obtain rfl := Except.ok.inj h
    split
    · refine ⟨?_, rfl⟩
      unfold changeToGet
      rw [linesNamed_removeHeader hlength, linesNamed_removeHeader htype]
      rfl
    · exact ⟨rfl, rfl⟩

end HttpClient.Policy
