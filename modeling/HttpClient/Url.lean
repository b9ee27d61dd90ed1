import HttpClient.Text.Bytes

/-!
# URLs

Each of the three clients parses URLs with a function of its own. They cut the
text at the same places: the scheme ends at the first `://`, the authority at the
next slash, and the port starts after the authority's last colon. They differ in
the schemes they accept and in the checks that follow.

## Main definitions

* `ParsedUrl` — scheme, host, port and request target
* `splitUrl`, `splitAuthority` — the common cuts
* `hostWithin` — whether a host belongs to a domain
* `H1.parseUrl`, `H2.parseUrl`, `Policy.parseUrl` — the functions of the three clients
* `H1.absoluteUri` — the absolute form sent to a proxy
-/

set_option autoImplicit false

namespace HttpClient

open Text

structure ParsedUrl where
  scheme : Bytes
  host : Bytes
  port : Bytes
  target : Bytes
  deriving DecidableEq, Repr

/-- Whether connections to the URL use TLS. -/
def ParsedUrl.tls (url : ParsedUrl) : Bool := url.scheme == str "https"

/-- Cut a URL into scheme, authority and target; the target of a URL without a
path is `/`. -/
def splitUrl (url : Bytes) : Except Bytes (Bytes × Bytes × Bytes) :=
  match find (str "://") url with
  | none => .error (str "url must include scheme")
  | some schemeEnd =>
    let rest := url.drop (schemeEnd + 3)
    match findByte 47 rest with
    | none => .ok (url.take schemeEnd, rest, str "/")
    | some pathStart => .ok (url.take schemeEnd, rest.take pathStart, rest.drop pathStart)

theorem splitUrl_error {url what : Bytes} (h : splitUrl url = .error what) :
    what = str "url must include scheme" := by
  rw [splitUrl] at h
  split at h
  · cases h
    rfl
  · dsimp only at h
    split at h
    · cases h
    · cases h

/-- Cut an authority at its last colon into host and port. -/
def splitAuthority (authority defaultPort : Bytes) : Bytes × Bytes :=
  match rfindByte 58 authority with
  | none => (authority, defaultPort)
  | some colon => (authority.take colon, authority.drop (colon + 1))

/-- The port of a URL that names none. -/
def schemePort (scheme : Bytes) : Bytes := if scheme = str "https" then str "443" else str "80"

/-! ### Hosts and domains -/

/-- Remove one leading dot. -/
def dropDot : Bytes → Bytes
  | 46 :: rest => rest
  | domain => domain

/-- The host is the domain, or ends with a dot and the domain. -/
def hostWithin (host domain : Bytes) : Bool :=
  host == domain || (domain.length < host.length &&
    host.drop (host.length - domain.length) == domain &&
    host[host.length - domain.length - 1]? == some 46)

/-! ### The functions of the three clients -/

namespace H1

def parseUrl (url : Bytes) : Except Bytes ParsedUrl := do
  let (scheme, authority, target) ← splitUrl url
  if scheme ≠ str "https" ∧ scheme ≠ str "http" then
    throw (str "only http and https are supported")
  let (host, port) := splitAuthority authority (schemePort scheme)
  if host = [] then throw (str "url host is empty")
  return { scheme, host, port, target }

def absoluteUri (url : ParsedUrl) : Bytes :=
  url.scheme ++ str "://" ++ url.host ++
    (if url.port = schemePort url.scheme then [] else str ":" ++ url.port) ++ url.target

end H1

namespace H2

def parseUrl (url : Bytes) : Except Bytes ParsedUrl := do
  let (scheme, authority, target) ← splitUrl url
  if scheme ≠ str "https" then throw (str "h2 client currently supports https only")
  let (host, port) := splitAuthority authority (str "443")
  return { scheme, host, port, target }

end H2

namespace Policy

def parseUrl (url : Bytes) : Except Bytes ParsedUrl := do
  let (scheme, authority, target) ← splitUrl url
  let (host, port) := splitAuthority authority (schemePort scheme)
  return { scheme, host, port, target }

def originKey (url : Bytes) : Except Bytes Bytes := do
  let parsed ← parseUrl url
  return parsed.scheme ++ str "://" ++ parsed.host ++ str ":" ++ parsed.port

end Policy

end HttpClient
