import HttpClient.Text.Delimiters

/-!
# Requests and responses

The value types of the client and the header operations on them. A header is one
line of bytes, `name: value`; names are compared without regard to ASCII case and
a value is read without its leading white space.

Handlers are functions in the source. Only whether a body chunk handler is set is
kept here; the chunks it is given are recorded by the exchange that calls it.

## Main definitions

* `Request`, `Response`, `ProtocolPolicy`, `ProxyConfig`
* `splitHeaderView`, `headerNameEqual`, `headerLine` — reading and writing one line
* `Request.header`, `Request.setHeader`, `Request.removeHeader`, `Request.bodyView`
* `Request.effectiveTimeout` — the timeout of a phase
* `Response.header`, `Response.isRedirect`
-/

set_option autoImplicit false

namespace HttpClient

open Text

/-- How a request chooses between HTTP/1.1 and HTTP/2. -/
inductive ProtocolPolicy where
  | auto
  | forceH1
  | forceH2
  | preferH1
  | preferH2
  deriving DecidableEq, Repr

/-- A proxy given by its URL. -/
structure ProxyConfig where
  url : Bytes
  deriving DecidableEq, Repr

/-- The phase timeouts of a request in milliseconds, `-1` for unset. -/
structure Timeout where
  totalMs : Int := -1
  connectMs : Int := -1
  readMs : Int := -1
  writeMs : Int := -1
  poolMs : Int := -1
  deriving DecidableEq, Repr

structure Request where
  method : Bytes := str "GET"
  url : Bytes := []
  headers : List Bytes := []
  body : Bytes := []
  sharedBody : Option Bytes := none
  timeoutMs : Int := 5000
  timeout : Timeout := {}
  verifyPeer : Bool := true
  verifyHost : Bool := true
  disableProxy : Bool := false
  proxy : Option ProxyConfig := none
  proxyOverride : Bool := false
  storeResponseBody : Bool := true
  storeResponseHeaders : Bool := true
  /-- Whether a body chunk handler is set. -/
  onBodyChunk : Bool := false
  protocolPolicy : ProtocolPolicy := .auto
  followRedirects : Option Bool := none
  maxRedirects : Int := -1
  maxRetries : Int := -1
  retryBackoffMs : Int := -1
  useCookieJar : Bool := true
  autoDecompress : Bool := false
  deriving DecidableEq, Repr

structure Response where
  status : Nat := 0
  body : Bytes := []
  headers : List Bytes := []
  error : Bytes := []
  finalUrl : Bytes := []
  redirectCount : Nat := 0
  httpVersion : Nat := 0
  reusedConnection : Bool := false
  deriving DecidableEq, Repr

/-! ### Header lines -/

/-- Whether two header names are equal up to ASCII case. -/
def headerNameEqual (a b : Bytes) : Bool := lowerCopy a == lowerCopy b

/-- Split a header line at its first colon; the value loses its leading white space.
A line without a colon is a name with an empty value. -/
def splitHeaderView (header : Bytes) : Bytes × Bytes :=
  match findByte 58 header with
  | none => (header, [])
  | some pos => (header.take pos, trimLeft (header.drop (pos + 1)))

/-- The line `name: value`. -/
def headerLine (name value : Bytes) : Bytes := name ++ str ": " ++ value

/-- Whether a header line carries the given name. -/
def lineNamed (name line : Bytes) : Bool := headerNameEqual (splitHeaderView line).1 name

/-- The value of the first line with the given name. -/
def headerValue (name : Bytes) (headers : List Bytes) : Option Bytes :=
  (headers.find? (lineNamed name)).map fun line => (splitHeaderView line).2

namespace Request

def bodyView (request : Request) : Bytes :=
  if request.body ≠ [] then request.body else request.sharedBody.getD []

/-- Either body replaces the other. -/
def setBody (request : Request) (value : Bytes) : Request :=
  { request with body := value, sharedBody := none }

def setSharedBody (request : Request) (value : Option Bytes) : Request :=
  { request with sharedBody := value, body := [] }

def header (request : Request) (name : Bytes) : Option Bytes :=
  headerValue name request.headers

def removeHeader (request : Request) (name : Bytes) : Request :=
  { request with headers := request.headers.filter fun line => !lineNamed name line }

def addHeader (request : Request) (name value : Bytes) : Request :=
  { request with headers := request.headers ++ [headerLine name value] }

def addHeaderLine (request : Request) (line : Bytes) : Request :=
  { request with headers := request.headers ++ [line] }

def setHeader (request : Request) (name value : Bytes) : Request :=
  (request.removeHeader name).addHeader name value

/-- The timeout of a phase: its own value, else the total, else `timeoutMs`. -/
def effectiveTimeout (request : Request) (field : Timeout → Int) : Int :=
  let value := field request.timeout
  let value :=
    if value < 0 then
      if 0 ≤ request.timeout.totalMs then request.timeout.totalMs else request.timeoutMs
    else value
  if value < 0 then request.timeoutMs else value

end Request

namespace Response

def header (response : Response) (name : Bytes) : Option Bytes :=
  headerValue name response.headers

def isRedirect (response : Response) : Bool :=
  response.status == 301 || response.status == 302 || response.status == 303 ||
    response.status == 307 || response.status == 308

end Response

/-! ### Lines that are put together -/

/-- A line is split where its name ends. -/
theorem splitHeaderView_append {name : Bytes} (h : 58 ∉ name) (rest : Bytes) :
    splitHeaderView (name ++ 58 :: rest) = (name, trimLeft rest) := by
  have hdrop : (name ++ 58 :: rest).drop (name.length + 1) = rest := by
    rw [List.append_cons]
    exact List.drop_left' (by simp)
  rw [splitHeaderView, findByte_append_cons h]
  dsimp only
  rw [List.take_left, hdrop]

theorem noColon_splitHeaderView (line : Bytes) : 58 ∉ (splitHeaderView line).1 := by
  rw [splitHeaderView]
  rcases findByte_cases 58 line with ⟨hmem, hnone⟩ | ⟨pos, hsome, -, htake, -⟩
  · rwa [hnone]
  · rw [hsome]
    dsimp only
    rw [htake]
    exact not_mem_upTo 58 line

theorem lineNamed_append {name : Bytes} (h : 58 ∉ name) (rest other : Bytes) :
    lineNamed other (name ++ 58 :: rest) = headerNameEqual name other := by
  rw [lineNamed, splitHeaderView_append h]

/-! ### Lookup after an update -/

/-- Removing a header leaves the lines of every other name. -/
theorem Request.mem_removeHeader {request : Request} {name line : Bytes} :
    line ∈ (request.removeHeader name).headers ↔
      line ∈ request.headers ∧ lineNamed name line = false := by
  simp [Request.removeHeader]

namespace Request

@[simp] theorem bodyView_setBody (request : Request) (value : Bytes) :
    (request.setBody value).bodyView = value := by
  rw [bodyView, setBody]
  split
  · rfl
  · simp_all

@[simp] theorem bodyView_setSharedBody (request : Request) (value : Option Bytes) :
    (request.setSharedBody value).bodyView = value.getD [] := rfl

/-- Without a body of its own a request has the shared one. -/
theorem bodyView_of_body_nil {request : Request} (h : request.body = []) :
    request.bodyView = request.sharedBody.getD [] := by
  rw [bodyView, if_neg (not_not_intro h)]

end Request

end HttpClient
