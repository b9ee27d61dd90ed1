import Mathlib.Algebra.Group.Nat.Defs
import HttpClient.Request
import HttpClient.Url

/-!
# The lightweight HTTP/1.1 exchange

`runLightH1Exchange` writes one request on a connection and reads one response
from it. The response head is accumulated in the connection's read buffer until
the empty line arrives; the body is read until as many bytes have arrived as the
head's `Content-Length` announces.

The network is a byte stream `rest` still to be delivered and a list of events,
one for each `async_read_some` that completes: `data n` delivers up to `n` bytes,
never more than the caller's buffer holds and at least one, and `error what` fails
the read. A read that no event completes leaves the exchange suspended.

The read buffer is a `std::string`. Appending beyond its capacity moves its bytes
to new storage, whose size the growth policy chooses. `headers` is a view into the
storage the buffer had after the header loop. If the body loop moves the buffer,
reading that view yields whatever the freed storage holds, which the model takes
as a parameter.

## Main definitions

* `parseStatusCode`, `parseContentLength`, `headLines` — reading a response head
* `ReadBuffer`, `GrowthPolicy`, `View` — the growable buffer and views into it
* `serializeHead` — the request head
* `readHeaders`, `readBody` — the two read loops
* `runLightH1Exchange` — one exchange
-/

set_option autoImplicit false

namespace HttpClient.H1

open Text

/-! ### Reading a response head -/

/-- The value of a digit. -/
def digitValue (c : UInt8) : Nat := c.toNat - 48

/-- The three digits after the first space; `0` if they are not there. -/
def parseStatusCode (headers : Bytes) : Nat :=
  match findByte 32 headers with
  | none => 0
  | some firstSpace =>
    if headers.length < firstSpace + 4 then 0
    else
      let digits := (headers.drop (firstSpace + 1)).take 3
      if digits.all isDigit then digits.foldl (fun status c => status * 10 + digitValue c) 0
      else 0

/-- Accumulate leading digits in a `std::size_t`. -/
def digitsSize (len : Nat) : Bytes → Nat
  | [] => len
  | c :: cs => if isDigit c then digitsSize ((len * 10 + digitValue c) % 2 ^ 64) cs else len

def contentLengthName : Bytes := str "content-length:"

/-- Visit the text after each line break: the number after the first line that
starts with the field name, in any case. The scan gives up where the text left is
shorter than the name. -/
def contentLengthScan : Bytes → Nat
  | a :: b :: line =>
    if a = 13 ∧ b = 10 then
      if line.length < contentLengthName.length then 0
      else if lowerCopy (line.take contentLengthName.length) = contentLengthName then
        digitsSize 0 ((line.drop contentLengthName.length).dropWhile isSpace)
      else contentLengthScan line
    else contentLengthScan (b :: line)
  | _ => 0

def parseContentLength (headers : Bytes) : Nat := contentLengthScan headers

/-- Cut a text into lines; what follows the last line break is not a line. -/
def linesAux (current : Bytes) : Bytes → List Bytes
  | [] => []
  | [_] => []
  | a :: b :: text =>
    if a = 13 ∧ b = 10 then current.reverse :: linesAux [] text
    else linesAux (a :: current) (b :: text)

/-- The lines of a head after the first, up to the empty one. -/
def headLines (headers : Bytes) : List Bytes :=
  ((linesAux [] headers).drop 1).takeWhile (· ≠ [])

/-! ### The read buffer -/

/-- How a string grows: the capacity of the new storage holds what is needed. -/
structure GrowthPolicy where
  grow : Nat → Nat → Nat
  needed_le_grow : ∀ capacity needed, needed ≤ grow capacity needed

/-- A growable buffer. `storage` counts the allocations it has moved through. -/
structure ReadBuffer where
  data : Bytes
  capacity : Nat
  storage : Nat
  fits : data.length ≤ capacity
  deriving DecidableEq

namespace ReadBuffer

/-- Forget the contents and keep the storage. -/
def clear (buf : ReadBuffer) : ReadBuffer where
  data := []
  capacity := buf.capacity
  storage := buf.storage
  fits := Nat.zero_le _

/-- Append bytes, moving to new storage if they do not fit. -/
def append (policy : GrowthPolicy) (buf : ReadBuffer) (bytes : Bytes) : ReadBuffer :=
  if h : (buf.data ++ bytes).length ≤ buf.capacity then
    { data := buf.data ++ bytes, capacity := buf.capacity, storage := buf.storage, fits := h }
  else
    { data := buf.data ++ bytes
      capacity := policy.grow buf.capacity (buf.data ++ bytes).length
      storage := buf.storage + 1
      fits := policy.needed_le_grow _ _ }

variable {policy : GrowthPolicy} {buf : ReadBuffer} {bytes : Bytes}

@[simp] theorem clear_data : buf.clear.data = [] := rfl

@[simp] theorem clear_capacity : buf.clear.capacity = buf.capacity := rfl

@[simp] theorem clear_storage : buf.clear.storage = buf.storage := rfl

@[simp] theorem append_data : (buf.append policy bytes).data = buf.data ++ bytes := by
  rw [append]
  split <;> rfl

/-- Bytes that fit leave the buffer where it is. -/
theorem append_of_le (policy : GrowthPolicy)
    (h : (buf.data ++ bytes).length ≤ buf.capacity) :
    (buf.append policy bytes).capacity = buf.capacity ∧
      (buf.append policy bytes).storage = buf.storage := by
  rw [append, dif_pos h]
  exact ⟨rfl, rfl⟩

/-- Bytes that do not fit move the buffer. -/
theorem append_of_lt (policy : GrowthPolicy)
    (h : buf.capacity < (buf.data ++ bytes).length) :
    (buf.append policy bytes).capacity =
        policy.grow buf.capacity (buf.data ++ bytes).length ∧
      (buf.append policy bytes).storage = buf.storage + 1 := by
  rw [append, dif_neg (Nat.not_le.mpr h)]
  exact ⟨rfl, rfl⟩

theorem capacity_le_append : buf.capacity ≤ (buf.append policy bytes).capacity := by
  rcases Nat.lt_or_ge buf.capacity (buf.data ++ bytes).length with hlt | hle
  · rw [(append_of_lt policy hlt).1]
    exact hlt.le.trans (policy.needed_le_grow _ _)
  · exact (append_of_le policy hle).1.ge

theorem storage_le_append : buf.storage ≤ (buf.append policy bytes).storage := by
  rcases Nat.lt_or_ge buf.capacity (buf.data ++ bytes).length with hlt | hle
  · rw [(append_of_lt policy hlt).2]
    exact Nat.le_succ _
  · exact (append_of_le policy hle).2.ge

end ReadBuffer

/-- A view of the first `length` bytes of the storage it was taken from. -/
structure View where
  storage : Nat
  length : Nat
  deriving DecidableEq, Repr

/-- What reading a view yields: the buffer's bytes while they are where the view
was taken, the contents of freed memory afterwards. -/
def View.read (view : View) (freed : Nat → UInt8) (buf : ReadBuffer) : Bytes :=
  if view.storage = buf.storage then buf.data.take view.length
  else (List.range view.length).map freed

/-! ### The request head -/

/-- Whether a header line is left out of the head: the exchange writes these
fields itself. -/
def skipHeader (name : Bytes) : Bool :=
  name == [] || headerNameEqual name (str "host") ||
    headerNameEqual name (str "content-length") || headerNameEqual name (str "connection")

def headerField (line : Bytes) : Bytes :=
  let (name, value) := splitHeaderView line
  if skipHeader name then [] else name ++ str ": " ++ value ++ str "\r\n"

/-- The method a request is sent with. -/
def sentMethod (request : Request) : Bytes :=
  if request.method = [] then str "GET" else request.method

def hasHeader (request : Request) (name : Bytes) : Bool :=
  request.headers.any (lineNamed name)

/-- The head of the request as written to the connection. -/
def serializeHead (url : ParsedUrl) (request : Request) (absoluteTarget : Bool) : Bytes :=
  (if request.method = [] then str "GET" else request.method) ++ str " " ++
    (if absoluteTarget then absoluteUri url else url.target) ++
    str " HTTP/1.1\r\nHost: " ++ url.host ++ str "\r\n" ++
    (if hasHeader request (str "user-agent") then []
      else str "User-Agent: httpclient-asio-light\r\n") ++
    (if hasHeader request (str "accept") then [] else str "Accept: */*\r\n") ++
    request.headers.flatMap headerField ++
    (if request.bodyView = [] then []
      else str "Content-Length: " ++ decimal request.bodyView.length ++ str "\r\n") ++
    str "Connection: keep-alive\r\n\r\n"

/-- Bodies above this size are written from where they are, after the head. -/
def gatherWriteBodyThreshold : Nat := 4096

/-- The buffers handed to the write. -/
def writeBuffers (url : ParsedUrl) (request : Request) (absoluteTarget : Bool) : List Bytes :=
  if gatherWriteBodyThreshold < request.bodyView.length then
    [serializeHead url request absoluteTarget, request.bodyView]
  else [serializeHead url request absoluteTarget ++ request.bodyView]

/-! ### The read loops -/

/-- How one `async_read_some` completes. -/
inductive ReadEvent where
  | data (n : Nat)
  | error (what : Bytes)
  deriving DecidableEq, Repr

/-- The size of the array that reads are made into. -/
def chunkSize : Nat := 32768

/-- A header block that is still incomplete beyond this size is refused. -/
def headerLimit : Nat := 65536

def headerTerminator : Bytes := str "\r\n\r\n"

/-- The number of bytes a read delivers into a buffer of `room` bytes. -/
def delivered (room n : Nat) : Nat := min room (max 1 n)

def stageError (stage what : Bytes) : Bytes := stage ++ str ": " ++ what

/-- What has been read so far, and what the network still holds. -/
structure Reading where
  buf : ReadBuffer
  /-- The chunks given to the body chunk handler. -/
  chunks : List Bytes
  rest : Bytes
  events : List ReadEvent
  deriving DecidableEq

/-- A loop ends with what has been read, throws, or waits for more events. -/
inductive LoopResult (α : Type) where
  | done (value : α)
  | threw (what : Bytes)
  | waiting
  deriving DecidableEq

/-- The header loop: read until the buffer holds the empty line. The result is the
position of the empty line and what has been read. -/
def readHeaders (policy : GrowthPolicy) (buf : ReadBuffer) (rest : Bytes) :
    List ReadEvent → LoopResult (Nat × Reading)
  | [] => .waiting
  | .error what :: _ => .threw (stageError (str "h1_read_headers") what)
  | .data n :: events =>
    if rest = [] then .waiting
    else
      let buf := buf.append policy (rest.take (delivered chunkSize n))
      let rest := rest.drop (delivered chunkSize n)
      match find headerTerminator buf.data with
      | some headerEnd => .done (headerEnd, { buf, chunks := [], rest, events })
      | none =>
        if headerLimit < buf.data.length then
          .threw (str "h1 response headers too large")
        else readHeaders policy buf rest events

/-- The body loop: read until `contentLength` bytes of body have arrived, of which
`have` are there already. -/
def readBody (policy : GrowthPolicy) (request : Request) (contentLength haveBody : Nat)
    (buf : ReadBuffer) (chunks : List Bytes) (rest : Bytes) :
    List ReadEvent → LoopResult Reading
  | [] => if haveBody < contentLength then .waiting else .done { buf, chunks, rest, events := [] }
  | event :: events =>
    if haveBody < contentLength then
      match event with
      | .error what => .threw (stageError (str "h1_read_body") what)
      | .data n =>
        if rest = [] then .waiting
        else
          let bytes := rest.take (delivered (min chunkSize (contentLength - haveBody)) n)
          readBody policy request contentLength (haveBody + bytes.length)
            (if request.storeResponseBody then buf.append policy bytes else buf)
            (if request.onBodyChunk then chunks ++ [bytes] else chunks)
            (rest.drop bytes.length) events
    else .done { buf, chunks, rest, events := event :: events }

/-! ### One exchange -/

/-- What an exchange leaves behind when it returns. -/
structure Exchanged where
  /-- The buffers handed to the write. -/
  written : List Bytes
  response : Response
  buf : ReadBuffer
  chunks : List Bytes
  /-- The bytes the network still holds. -/
  rest : Bytes
  deriving DecidableEq

/-- The environment of an exchange: how strings grow, what freed memory holds,
whether the write fails, and how the reads complete. -/
structure Network where
  policy : GrowthPolicy
  freed : Nat → UInt8
  writeError : Option Bytes
  events : List ReadEvent

/-- The part after the header loop: read the body and build the response. -/
def finishExchange (net : Network) (request : Request) (written : List Bytes)
    (headerEnd : Nat) (head : Reading) : LoopResult Exchanged :=
  let headers : View := { storage := head.buf.storage, length := headerEnd + 4 }
  let contentLength := parseContentLength (headers.read net.freed head.buf)
  let bodyStart := headerEnd + 4
  let haveBody := head.buf.data.length - bodyStart
  let chunks :=
    if request.onBodyChunk ∧ 0 < haveBody then
      [(head.buf.data.drop bodyStart).take (min haveBody contentLength)]
    else []
  match readBody net.policy request contentLength haveBody head.buf chunks head.rest
      head.events with
  | .threw what => .threw what
  | .waiting => .waiting
  | .done body =>
    -- The view was taken before the body loop; the buffer may have moved since.
    let view := headers.read net.freed body.buf
    .done {
      written
      response :=
        { status := parseStatusCode view
          httpVersion := 1
          headers := if request.storeResponseHeaders then headLines view else []
          body :=
            if request.storeResponseBody ∧ 0 < contentLength then
              (body.buf.data.drop bodyStart).take contentLength
            else [] }
      buf := body.buf
      chunks := body.chunks
      rest := body.rest }

/-- One exchange on a connection whose read buffer is `buf` and whose peer sends
`stream`. -/
def runLightH1Exchange (net : Network) (url : ParsedUrl) (request : Request)
    (absoluteTarget : Bool) (buf : ReadBuffer) (stream : Bytes) : LoopResult Exchanged :=
  match net.writeError with
  | some what => .threw (stageError (str "h1_write") what)
  | none =>
    match readHeaders net.policy buf.clear stream net.events with
    | .threw what => .threw what
    | .waiting => .waiting
    | .done (headerEnd, head) =>
      finishExchange net request (writeBuffers url request absoluteTarget) headerEnd head

end HttpClient.H1
