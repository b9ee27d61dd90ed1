import HttpClient.Request
import HttpClient.Text.Encodings
import HttpClient.Url

/-!
# Proxies

A request names its proxy by a URL, which is cut like any other: the scheme ends
at the first `://`, the authority at the next slash. The authority's last `@` ends
the credentials.

The credentials are taken as a view of the authority, and are then erased from it
together with the `@`. What is left moves to the front of the string's buffer, so
the view, which is read only now, shows the address of the proxy where the
credentials were. What it shows is percent-decoded and may then hold any byte.

## Main definitions

* `ProxySupport.parseProxyUrl` — the parts of a proxy URL
* `ProxySupport.overwritten` — what is read in place of the credentials
* `ProxySupport.basicAuthValue` — the value of a `Proxy-Authorization` header
* `ProxySupport.proxyForRequest` — the proxy that a request is sent through

## Main results

* `ProxySupport.splitCredentials_eq` — which credentials are read
* `ProxySupport.wellFormed_of_proxyForRequest` — what the accepted proxies have in common
-/

set_option autoImplicit false

namespace HttpClient.ProxySupport

open Text

inductive Scheme where
  | http
  | https
  | socks5
  deriving DecidableEq, Repr

structure Url where
  scheme : Bytes := []
  host : Bytes := []
  port : Bytes := []
  username : Bytes := []
  password : Bytes := []
  deriving DecidableEq, Repr

structure EffectiveProxy where
  enabled : Bool := false
  url : Url := {}
  authorization : Bytes := []
  scheme : Scheme := .http
  deriving DecidableEq, Repr

def basicAuthValue (username password : Bytes) : Bytes :=
  str "Basic " ++ base64Encode (username ++ str ":" ++ password)

/-- The port of a proxy URL that names none. -/
def proxyPort (scheme : Bytes) : Bytes :=
  if scheme = str "http" then str "80"
  else if scheme = str "https" then str "443"
  else str "1080"

/-- Split credentials at their first colon. -/
def splitUserinfo (userinfo : Bytes) : Bytes × Bytes :=
  match findByte 58 userinfo with
  | none => (percentDecode userinfo, [])
  | some colon =>
    (percentDecode (userinfo.take colon), percentDecode (userinfo.drop (colon + 1)))

/-- The buffer of a string after its first `n` bytes have been erased: what is left has moved to
the front, with a zero behind it, and the bytes after that are the old ones. -/
def erasedBuffer (text : Bytes) (n : Nat) : Bytes :=
  text.drop n ++ 0 :: text.drop ((text.drop n).length + 1)

/-- Cut an authority at its last `@` into user name, password and address. -/
def splitCredentials (authority : Bytes) : (Bytes × Bytes) × Bytes :=
  match rfindByte 64 authority with
  | none => (([], []), authority)
  | some atSign =>
    -- the view of the credentials was taken before they were erased, and is read now
    let buffer := erasedBuffer authority (atSign + 1)
    (splitUserinfo (buffer.take atSign), authority.drop (atSign + 1))

/-- The text before the first slash. -/
def beforeSlash (rest : Bytes) : Bytes :=
  match findByte 47 rest with
  | none => rest
  | some pathStart => rest.take pathStart

def parseProxyUrl (value : Bytes) : Except Bytes Url :=
  match find (str "://") value with
  | none => .error (str "proxy url must include scheme")
  | some schemeEnd =>
    let scheme := value.take schemeEnd
    let authority := beforeSlash (value.drop (schemeEnd + 3))
    let ((username, password), address) := splitCredentials authority
    let (host, port) := splitAuthority address (proxyPort scheme)
    if host = [] then .error (str "proxy host is empty")
    else .ok { scheme, host, port, username, password }

/-- The scheme that a proxy URL stands for. -/
def schemeOf (scheme : Bytes) : Option Scheme :=
  if scheme = str "https" then some .https
  else if scheme = str "socks5" ∨ scheme = str "socks5h" then some .socks5
  else if scheme = str "http" then some .http
  else none

/-- The authorization that an HTTP proxy is given; SOCKS has its own exchange. -/
def authorizationFor (scheme : Scheme) (url : Url) : Bytes :=
  if scheme ≠ .socks5 ∧ (url.username ≠ [] ∨ url.password ≠ []) then
    basicAuthValue url.username url.password
  else []

def proxyForRequest (request : Request) : Except Bytes EffectiveProxy :=
  if request.disableProxy then .ok {}
  else
    match request.proxy with
    | none => .ok {}
    | some proxy =>
      if proxy.url = [] then .ok {}
      else
        match parseProxyUrl proxy.url with
        | .error what => .error what
        | .ok url =>
          match schemeOf url.scheme with
          | none => .error (str "unsupported proxy scheme")
          | some scheme =>
            .ok { enabled := true, url, authorization := authorizationFor scheme url, scheme }

/-- A request that names the URL of a proxy is sent through that proxy. -/
theorem proxyForRequest_of_parse {request : Request} {config : ProxyConfig} {url : Url}
    {scheme : Scheme} (hdisabled : request.disableProxy = false)
    (hconfig : request.proxy = some config) (hne : config.url ≠ [])
    (hparse : parseProxyUrl config.url = .ok url) (hscheme : schemeOf url.scheme = some scheme) :
    proxyForRequest request =
      .ok { enabled := true, url, authorization := authorizationFor scheme url, scheme } := by
  rw [proxyForRequest, hdisabled, if_neg Bool.false_ne_true, hconfig]
  dsimp only
  rw [if_neg hne, hparse]
  dsimp only
  rw [hscheme]

/-! ### The credentials that are read -/

/-- What an authority holds before its last `@`. -/
def userinfoOf (authority : Bytes) : Bytes :=
  match rfindByte 64 authority with
  | none => []
  | some atSign => authority.take atSign

/-- What an authority holds after its last `@`. -/
def addressOf (authority : Bytes) : Bytes :=
  match rfindByte 64 authority with
  | none => authority
  | some atSign => authority.drop (atSign + 1)

/-- What stands in place of the credentials when they are read: the address, a zero, and what is
longer of the credentials than that. -/
def overwritten (userinfo address : Bytes) : Bytes :=
  (address ++ 0 :: userinfo.drop (address.length + 1)).take userinfo.length

theorem take_erasedBuffer (userinfo address : Bytes) :
    (erasedBuffer (userinfo ++ 64 :: address) (userinfo.length + 1)).take userinfo.length =
      overwritten userinfo address := by
  have hleft : (userinfo ++ 64 :: address).drop (userinfo.length + 1) = address := by
    rw [List.drop_length_add_append]
    rfl
  -- behind the zero, the buffer holds what it has held, of which the view shows the credentials
  have hold : ((userinfo ++ 64 :: address).drop (address.length + 1)).take
      (userinfo.length - (address.length + 1)) = userinfo.drop (address.length + 1) := by
    rw [← List.drop_take, List.take_left]
  have hall : (userinfo.drop (address.length + 1)).take
      (userinfo.length - (address.length + 1)) = userinfo.drop (address.length + 1) :=
    List.take_of_length_le (by rw [List.length_drop])
  have hcut : ∀ tail : Bytes, (address ++ 0 :: tail).take userinfo.length =
      (address ++ [0]).take userinfo.length ++
        tail.take (userinfo.length - (address.length + 1)) := by
    intro tail
    rw [← List.singleton_append, ← List.append_assoc, List.take_append, List.length_append,
      List.length_singleton]
  rw [erasedBuffer, hleft, overwritten, hcut ((userinfo ++ 64 :: address).drop _),
    hcut (userinfo.drop _), hold, hall]

/-- The credentials of an authority are read after its address has been moved over them. -/
theorem splitCredentials_eq (authority : Bytes) :
    splitCredentials authority =
      (splitUserinfo (overwritten (userinfoOf authority) (addressOf authority)),
        addressOf authority) := by
  rw [splitCredentials, userinfoOf, addressOf]
  cases hat : rfindByte 64 authority with
  | none => rfl
  | some atSign =>
    have hsplit := (rfindByte_eq_some hat).1
    have hlength : (authority.take atSign).length = atSign := by
      have hlt := congrArg List.length hsplit
      rw [List.length_append, List.length_cons, List.length_take, List.length_drop] at hlt
      rw [List.length_take]
      omega
    have hread := take_erasedBuffer (authority.take atSign) (authority.drop (atSign + 1))
    rw [← hsplit, hlength] at hread
    dsimp only
    rw [hread]

/-! ### Accepted proxies -/

/-- What holds of every proxy that a request is sent through. -/
structure EffectiveProxy.WellFormed (proxy : EffectiveProxy) : Prop where
  scheme_eq : schemeOf proxy.url.scheme = some proxy.scheme
  host_no_at : 64 ∉ proxy.url.host
  authorization_eq : proxy.authorization = authorizationFor proxy.scheme proxy.url

/-- The credentials end at the last `@`. -/
theorem not_mem_splitCredentials (authority : Bytes) : 64 ∉ (splitCredentials authority).2 := by
  rw [splitCredentials]
  cases hat : rfindByte 64 authority with
  | none => exact rfindByte_eq_none hat
  | some atSign => exact (rfindByte_eq_some hat).2

/-- A host consists of bytes of its authority. -/
theorem mem_of_mem_splitAuthority {c : UInt8} {authority defaultPort : Bytes}
    (h : c ∈ (splitAuthority authority defaultPort).1) : c ∈ authority := by
  rw [splitAuthority] at h
  cases hcolon : rfindByte 58 authority with
  | none => simpa [hcolon] using h
  | some colon =>
    simp only [hcolon] at h
    exact List.mem_of_mem_take h

theorem host_no_at_of_parseProxyUrl {value : Bytes} {url : Url}
    (h : parseProxyUrl value = .ok url) : 64 ∉ url.host := by
  rw [parseProxyUrl] at h
  cases hscheme : find (str "://") value with
  | none => simp [hscheme] at h
  | some schemeEnd =>
    simp only [hscheme] at h
    split at h
    · cases h
    · obtain rfl := Except.ok.inj h
      exact fun hmem => not_mem_splitCredentials _ (mem_of_mem_splitAuthority hmem)

/-- A request has no proxy, or one whose URL was accepted. -/
theorem proxyForRequest_cases {request : Request} {proxy : EffectiveProxy}
    (h : proxyForRequest request = .ok proxy) :
    proxy = {} ∨ ∃ config url scheme, request.proxy = some config ∧
      parseProxyUrl config.url = .ok url ∧ schemeOf url.scheme = some scheme ∧
      proxy = { enabled := true, url, authorization := authorizationFor scheme url, scheme } := by
  rw [proxyForRequest] at h
  split at h
  · exact .inl (Except.ok.inj h).symm
  · split at h
    · exact .inl (Except.ok.inj h).symm
    · rename_i config hconfig
      split at h
      · exact .inl (Except.ok.inj h).symm
      · split at h
        · cases h
        · rename_i url hparse
          split at h
          · cases h
          · rename_i scheme hscheme
            exact .inr ⟨config, url, scheme, hconfig, hparse, hscheme, (Except.ok.inj h).symm⟩

theorem wellFormed_of_proxyForRequest {request : Request} {proxy : EffectiveProxy}
    (h : proxyForRequest request = .ok proxy) (henabled : proxy.enabled = true) :
    proxy.WellFormed := by
  rcases proxyForRequest_cases h with rfl | ⟨config, url, scheme, -, hparse, hscheme, rfl⟩
  · exact Bool.noConfusion henabled
  · exact ⟨hscheme, host_no_at_of_parseProxyUrl hparse, rfl⟩

/-- An authorization is written in the alphabet of base64. -/
theorem mem_authorization {request : Request} {proxy : EffectiveProxy}
    (h : proxyForRequest request = .ok proxy) :
    ∀ c ∈ proxy.authorization, c ∈ str "Basic =" ∨ c ∈ alphabet := by
  rcases proxyForRequest_cases h with rfl | ⟨config, url, scheme, -, -, -, rfl⟩
  · exact fun c hc => absurd hc List.not_mem_nil
  · intro c hc
    dsimp only [authorizationFor] at hc
    split at hc
    · rcases List.mem_append.mp hc with hname | htext
      · exact .inl (List.mem_append_left (str "=") hname)
      · rcases mem_base64Encode htext with hletter | rfl
        · exact .inr hletter
        · exact .inl (by decide)
    · exact absurd hc List.not_mem_nil

end HttpClient.ProxySupport
