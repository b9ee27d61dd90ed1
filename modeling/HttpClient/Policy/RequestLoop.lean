import HttpClient.Policy.Defaults
import HttpClient.Semantics.Call

/-!
# The policy loop

A request is completed once and then tried, again and again as long as it may be retried.
Each try follows redirects from hop to hop. A hop sends one raw request; cookies of the
jar are added before it, and taken from its response after it.

The raw request, the pause before a retry and the decompression are given. While a raw
request or a pause is under way, time passes and other requests use the jar; so both may
change what surrounds the loop in any way. A raw request may never finish; then neither
does the loop.

Every hop is recorded before its raw request, together with the jar and the time it finds,
and with what the raw request does. The hops of one try are in one list, and both lists
have the last element first.

## Main definitions

* `Around`, `Externals` — what surrounds the loop
* `Hop`, `PolicyState` — what is recorded
* `oneHop`, `followHops`, `tryRequest` — the loops
* `requestWithHttpxPolicy` — the whole request
-/

set_option autoImplicit false

namespace HttpClient.Policy

open Text Semantics

variable {ω τ : Type}

/-- What surrounds the loop: the jar, the clock, and the rest. -/
structure Around (ω : Type) where
  jar : CookieJar := []
  now : Int := 0
  rest : ω

/-- What the loop calls. -/
structure Externals (ω τ : Type) where
  /-- A raw request: its response if it finishes, what it leaves, and what it has done. -/
  raw : Request → Around ω → Option Response × Around ω × τ
  /-- The pause before a retry, in milliseconds. -/
  pause : Int → Around ω → Around ω
  /-- `zlib_decode` with the given window bits. -/
  zlibDecode : Int → Bytes → Except Bytes Bytes
  getenv : Bytes → Option Bytes

/-- One hop, as it is when its raw request begins. -/
structure Hop (τ : Type) where
  /-- How many redirects have led to it. -/
  redirects : Nat
  request : Request
  jar : CookieJar
  now : Int
  /-- What the raw request does. -/
  did : τ

/-- The tries of a request, the last one first; of each its hops, the last one first. -/
structure PolicyState (ω τ : Type) where
  around : Around ω
  tries : List (List (Hop τ)) := []

abbrev PolicyCall (ω τ α : Type) := Call Bytes (PolicyState ω τ) α

/-- Another hop of the latest try. -/
def pushHop (hop : Hop τ) : List (List (Hop τ)) → List (List (Hop τ))
  | [] => [[hop]]
  | hops :: tries => (hop :: hops) :: tries

variable (options : PolicyOptions) (externals : Externals ω τ)

/-! ### One hop -/

def usesJar (request : Request) : Bool := options.enableCookieJar && request.useCookieJar

/-- The request with the cookies of the jar, unless it has cookies already. -/
def withCookies (current : Request) : PolicyCall ω τ Request := do
  let state ← get
  if usesJar options current ∧ (current.header (str "Cookie")).isNone then do
    let (cookie, jar) ← ofExcept (state.around.jar.cookieHeader current.url state.around.now)
    set { state with around := { state.around with jar } }
    return if cookie ≠ [] then current.setHeader (str "Cookie") cookie else current
  else return current

/-- Send the raw request. The jar and the time recorded are those the hop has found. -/
def rawHop (redirects : Nat) (jar : CookieJar) (now : Int) (current : Request) :
    PolicyCall ω τ (Option Response) := do
  let state ← get
  let (response, around, did) := externals.raw current state.around
  let hop := { redirects, request := current, jar, now, did }
  set { around, tries := pushHop hop state.tries : PolicyState ω τ }
  return response

/-- Remove the headers of the given name from a response. -/
def removeResponseHeader (name : Bytes) (response : Response) : Response :=
  { response with headers := response.headers.filter fun line => !lineNamed name line }

/-- `MAX_WBITS`. -/
def maxWbits : Int := 15

/-- The decoded body, or `none` for an encoding that is not decoded. -/
def decodedBody (encoding body : Bytes) : Option (Except Bytes Bytes) :=
  let enc := lowerCopy (trim encoding)
  if enc = str "gzip" ∨ enc = str "x-gzip" then
    some (externals.zlibDecode (16 + maxWbits) body)
  else if enc = str "deflate" then
    -- Some servers send deflate data without the zlib wrapper.
    match externals.zlibDecode maxWbits body with
    | .ok decoded => some (.ok decoded)
    | .error _ => some (externals.zlibDecode (-maxWbits) body)
  else none

def decodeResponseBody (response : Response) : Response :=
  match response.header (str "Content-Encoding") with
  | none => response
  | some encoding =>
    match decodedBody externals encoding response.body with
    | none => response
    | some (.error what) => { response with error := what }
    | some (.ok body) =>
      removeResponseHeader (str "Content-Length")
        (removeResponseHeader (str "Content-Encoding") { response with body })

/-- The response of a hop as the hop completes it. -/
def completeResponse (redirects : Nat) (current : Request) (response : Response) : Response :=
  let response := { response with finalUrl := current.url, redirectCount := redirects }
  if current.autoDecompress ∧ current.storeResponseBody ∧ response.error = [] ∧
      response.body ≠ [] then decodeResponseBody externals response
  else response

/-- Store the cookies of a response. -/
def takeCookies (current : Request) (response : Response) : PolicyCall ω τ Unit := do
  let state ← get
  if usesJar options current then do
    let jar ← ofExcept (state.around.jar.addFromResponse options.toJarOptions current.url response
      state.around.now)
    set { state with around := { state.around with jar } }
  else return ()

/-- What is done with the response of a hop. -/
def finishHop (redirects : Nat) (current : Request) (response : Response) :
    PolicyCall ω τ (Option (Request × Response)) := do
  let response := completeResponse externals redirects current response
  takeCookies options current response
  let response ← ofExcept
    (options.responseHooks.foldlM (fun response hook => hook response) response)
  return some (current, response)

/-- One hop: the request as it was sent, and its response, if there is one. -/
def oneHop (redirects : Nat) (current : Request) :
    PolicyCall ω τ (Option (Request × Response)) := do
  let state ← get
  let current ← withCookies options current
  let response ← rawHop externals redirects state.around.jar state.around.now current
  match response with
  | none => return none
  | some response => finishHop options externals redirects current response

/-! ### The loops -/

/-- Whether redirects are followed; the request decides before the client. -/
def followsRedirects (request : Request) : Bool :=
  request.followRedirects.getD options.followRedirects

def maxRedirects (request : Request) : Int :=
  if 0 ≤ request.maxRedirects then request.maxRedirects else options.maxRedirects

def maxRetries (request : Request) : Int :=
  if 0 ≤ request.maxRetries then request.maxRetries else options.maxRetries

def retryBackoff (request : Request) : Int :=
  if 0 ≤ request.retryBackoffMs then request.retryBackoffMs else options.retryBackoff

/-- Where a response leads, if it is a redirect that is followed. -/
def nextLocation (follows : Bool) (response : Response) : Option Bytes :=
  if follows ∧ response.error = [] ∧ response.isRedirect then
    response.header (str "Location")
  else none

/-- What follows a hop: its response, unless that is a redirect that is followed. -/
def afterHop (follows : Bool) (ended : Option (Request × Response))
    (go : Request → Response → Bytes → PolicyCall ω τ (Option Response)) :
    PolicyCall ω τ (Option Response) :=
  match ended with
  | none => return none
  | some (current, response) =>
    match nextLocation follows response with
    | none => return some response
    | some location => go current response location

/-- Follow redirects, as many as are allowed. -/
def followHops (follows : Bool) : Nat → Nat → Request → PolicyCall ω τ (Option Response)
  | 0, redirects, current => do
    let ended ← oneHop options externals redirects current
    afterHop follows ended fun _ response _ =>
      return some { response with error := str "too many redirects" }
  | remaining + 1, redirects, current => do
    let ended ← oneHop options externals redirects current
    afterHop follows ended fun current response location => do
      let next ← ofExcept (redirected current response.status location)
      followHops follows remaining (redirects + 1) next

/-- Whether a response asks for a retry that is allowed. -/
def retries (request : Request) (last : Response) : Bool :=
  isReplayable request &&
    if last.error = [] then options.retryStatuses.contains (last.status : Int)
    else last.reusedConnection && isRetriableTransportError last.error

/-- One try. -/
def tryOnce (request : Request) : PolicyCall ω τ (Option Response) := do
  modify fun state => { state with tries := [] :: state.tries }
  followHops options externals (followsRedirects options request)
    (maxRedirects options request).toNat 0 request

def pauseBeforeRetry (request : Request) : PolicyCall ω τ Unit :=
  modify fun state =>
    if 0 < retryBackoff options request then
      { state with around := externals.pause (retryBackoff options request) state.around }
    else state

/-- Try the request, and try it again, as often as is allowed. -/
def tryRequest (request : Request) : Nat → PolicyCall ω τ (Option Response)
  | 0 => tryOnce options externals request
  | remaining + 1 => do
    let last ← tryOnce options externals request
    match last with
    | none => return none
    | some last =>
      if retries options request last then do
        pauseBeforeRetry options externals request
        tryRequest request remaining
      else return some last

/-- A whole request. With a negative number of retries nothing is tried. -/
def requestWithHttpxPolicy (request : Request) : PolicyCall ω τ (Option Response) := do
  let request ← ofExcept (applyDefaults options externals.getenv request)
  if maxRetries options request < 0 then return some {}
  else tryRequest options externals request (maxRetries options request).toNat

end HttpClient.Policy
