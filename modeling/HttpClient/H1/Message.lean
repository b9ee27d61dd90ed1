import HttpClient.Text.Lines

/-!
# HTTP/1.1 messages

Well-formed HTTP/1.1 responses and the bytes they are sent as. A head is a status
line, field lines and an empty line. What follows a final response's head is
decided by the request method and the head: nothing for `HEAD`, 204 and 304,
otherwise chunks if the transfer coding is `chunked`, otherwise as many bytes as
`Content-Length` says. Interim responses, those with status 1xx, are heads only.

Every type carries the conditions of the grammar, so its values are the messages
a conforming server sends. Nothing here says how a client reads them.

## Main definitions

* `FieldLine`, `Head` — the parts of a head
* `Chunk`, `Framing` — the ways a body is delimited
* `Interim`, `FinalResponse` — complete messages
* `responseStream` — interim responses followed by a final one

## Main results

* `Head.find_blankLine_render` — a head ends at the first blank line of the stream
-/

set_option autoImplicit false

namespace HttpClient.H1

open Text

/-! ### Fields -/

/-- A byte that neither ends a line nor starts its end. -/
def IsText (s : Bytes) : Prop := ∀ c ∈ s, c ≠ 13 ∧ c ≠ 10

/-- Optional white space: blanks and tabs. -/
def IsOws (s : Bytes) : Prop := ∀ c ∈ s, c = 32 ∨ c = 9

/-- A field name contains neither a colon nor white space nor line ends. -/
def IsFieldName (s : Bytes) : Prop := s ≠ [] ∧ ∀ c ∈ s, c ≠ 58 ∧ isSpace c = false

-- The quantifiers are decided by going through the bytes of the list.
instance (s : Bytes) : Decidable (IsText s) :=
  List.decidableBAll (fun c => c ≠ 13 ∧ c ≠ 10) s

instance (s : Bytes) : Decidable (IsOws s) :=
  List.decidableBAll (fun c => c = 32 ∨ c = 9) s

instance (s : Bytes) : Decidable (IsFieldName s) :=
  haveI := List.decidableBAll (fun c : UInt8 => c ≠ 58 ∧ isSpace c = false) s
  inferInstanceAs (Decidable (s ≠ [] ∧ ∀ c ∈ s, c ≠ 58 ∧ isSpace c = false))

structure FieldLine where
  name : Bytes
  leading : Bytes := []
  value : Bytes
  trailing : Bytes := []
  name_isFieldName : IsFieldName name
  leading_isOws : IsOws leading
  value_isText : IsText value
  trailing_isOws : IsOws trailing

/-- Field names are compared without regard to case. -/
def FieldLine.Named (field : FieldLine) (name : Bytes) : Prop :=
  lowerCopy field.name = lowerCopy name

instance (field : FieldLine) (name : Bytes) : Decidable (field.Named name) :=
  inferInstanceAs (Decidable (_ = _))

/-- A field line without its line end. -/
def FieldLine.line (field : FieldLine) : Bytes :=
  field.name ++ 58 :: (field.leading ++ field.value ++ field.trailing)

/-! ### Heads -/

/-- The three digits of a status code. -/
def statusDigits (status : Nat) : Bytes :=
  [(48 + status / 100).toUInt8, (48 + status / 10 % 10).toUInt8, (48 + status % 10).toUInt8]

structure Head where
  status : Nat
  reason : Bytes
  fields : List FieldLine
  status_lt : status < 1000
  reason_isText : IsText reason

namespace Head

def statusLine (head : Head) : Bytes :=
  str "HTTP/1.1 " ++ statusDigits head.status ++ 32 :: head.reason

def lines (head : Head) : List Bytes := head.statusLine :: head.fields.map FieldLine.line

/-- The bytes of a head, its empty line included. -/
def render (head : Head) : Bytes := renderLines head.lines ++ crlf

/-- The fields with the given name. -/
def named (head : Head) (name : Bytes) : List FieldLine :=
  head.fields.filter fun field => field.Named name

end Head

/-! ### Bodies -/

/-- The value of a hexadecimal digit, in either case. -/
def hexDigitValue (c : UInt8) : Option Nat :=
  if 48 ≤ c ∧ c ≤ 57 then some (c.toNat - 48)
  else if 97 ≤ lower c ∧ lower c ≤ 102 then some ((lower c).toNat - 87)
  else none

/-- The number a hexadecimal numeral denotes. -/
def hexNumeral (digits : Bytes) : Option Nat :=
  if digits = [] then none
  else digits.foldl (fun n c => n.bind fun n => (hexDigitValue c).map (n * 16 + ·)) (some 0)

/-- The number a decimal numeral denotes. -/
def decimalNumeral (digits : Bytes) : Nat :=
  digits.foldl (fun n c => n * 10 + (c.toNat - 48)) 0

/-- A chunk: its size in hexadecimal, an extension and its data. -/
structure Chunk where
  size : Bytes
  extension : Bytes := []
  data : Bytes
  size_eq : hexNumeral size = some data.length
  data_ne : data ≠ []
  extension_isText : IsText extension

/-- A chunk with its line ends. -/
def Chunk.render (chunk : Chunk) : Bytes :=
  endLine (chunk.size ++ chunk.extension) ++ endLine chunk.data

/-- How the body of a final response is delimited, with the body. -/
inductive Framing where
  /-- There is no body. -/
  | bodiless
  /-- Chunks, a last chunk of size zero and trailer fields. -/
  | chunked (chunks : List Chunk) (trailers : List FieldLine)
  /-- As many bytes as `Content-Length` announces. -/
  | contentLength (body : Bytes)

namespace Framing

/-- The decoded body. -/
def content : Framing → Bytes
  | bodiless => []
  | chunked chunks _ => chunks.flatMap Chunk.data
  | contentLength body => body

/-- The bytes after the head. -/
def render : Framing → Bytes
  | bodiless => []
  | chunked chunks trailers =>
    chunks.flatMap Chunk.render ++ endLine (str "0") ++
      renderLines (trailers.map FieldLine.line) ++ crlf
  | contentLength body => body

end Framing

def transferEncoding : Bytes := str "transfer-encoding"

def contentLengthField : Bytes := str "content-length"

/-- Whether responses to this method with this status never have a body. -/
def NeverBody (method : Bytes) (head : Head) : Prop :=
  method = str "HEAD" ∨ head.status = 204 ∨ head.status = 304

/-- The framing that the request method and the head determine. -/
def Framing.Determined (method : Bytes) (head : Head) : Framing → Prop
  | bodiless => NeverBody method head
  | chunked _ _ =>
    ¬ NeverBody method head ∧ head.named contentLengthField = [] ∧
      ∃ field, head.named transferEncoding = [field] ∧ lowerCopy field.value = str "chunked"
  | contentLength body =>
    ¬ NeverBody method head ∧ head.named transferEncoding = [] ∧
      ∃ field, head.named contentLengthField = [field] ∧ field.value ≠ [] ∧
        field.value.all isDigit ∧ decimalNumeral field.value = body.length

/-! ### Messages -/

/-- An interim response: a head with status 1xx that announces no body. -/
structure Interim where
  head : Head
  informational : 100 ≤ head.status ∧ head.status < 200
  no_transferEncoding : head.named transferEncoding = []
  no_contentLength : head.named contentLengthField = []

/-- A final response to a request with the given method. -/
structure FinalResponse (method : Bytes) where
  head : Head
  framing : Framing
  final : 200 ≤ head.status
  determined : framing.Determined method head

def FinalResponse.render {method : Bytes} (response : FinalResponse method) : Bytes :=
  response.head.render ++ response.framing.render

/-- What a server sends in answer to one request. -/
def responseStream {method : Bytes} (interims : List Interim)
    (final : FinalResponse method) : Bytes :=
  (interims.flatMap fun interim => interim.head.render) ++ final.render

/-- The head that a response stream starts with. -/
def firstHead {method : Bytes} : List Interim → FinalResponse method → Head
  | [], final => final.head
  | interim :: _, _ => interim.head

/-! ### Where a head ends -/

theorem IsText.isLine {s : Bytes} (h : IsText s) : IsLine s := fun hmem => (h 13 hmem).1 rfl

theorem IsText.append {s t : Bytes} (hs : IsText s) (ht : IsText t) : IsText (s ++ t) := by
  intro c hc
  rcases List.mem_append.mp hc with hc | hc
  · exact hs c hc
  · exact ht c hc

theorem IsText.cons {c : UInt8} {s : Bytes} (hc : c ≠ 13 ∧ c ≠ 10) (hs : IsText s) :
    IsText (c :: s) := by
  intro d hd
  rcases List.mem_cons.mp hd with rfl | hd
  · exact hc
  · exact hs d hd

theorem IsOws.isText {s : Bytes} (h : IsOws s) : IsText s := by
  intro c hc
  rcases h c hc with rfl | rfl <;> decide

theorem IsFieldName.isText {s : Bytes} (h : IsFieldName s) : IsText s := by
  intro c hc
  have hspace := (h.2 c hc).2
  constructor <;> rintro rfl <;> simp [isSpace] at hspace

theorem FieldLine.line_isText (field : FieldLine) : IsText field.line :=
  field.name_isFieldName.isText.append <| .cons (by decide) <|
    (field.leading_isOws.isText.append field.value_isText).append field.trailing_isOws.isText

theorem FieldLine.line_ne (field : FieldLine) : field.line ≠ [] := by
  simp [FieldLine.line]

theorem statusDigits_isText {status : Nat} (h : status < 1000) : IsText (statusDigits status) := by
  have hdigit : ∀ d < 10, (48 + d).toUInt8 ≠ 13 ∧ (48 + d).toUInt8 ≠ 10 := by decide
  intro c hc
  simp only [statusDigits, List.mem_cons, List.not_mem_nil, or_false] at hc
  rcases hc with rfl | rfl | rfl
  · exact hdigit _ (by omega)
  · exact hdigit _ (by omega)
  · exact hdigit _ (by omega)

theorem Head.statusLine_isText (head : Head) : IsText head.statusLine := by
  have hversion : IsText (str "HTTP/1.1 ") := by decide
  exact (hversion.append (statusDigits_isText head.status_lt)).append
    (.cons (by decide) head.reason_isText)

/-- The first blank line of a text that starts with a head is the head's end. -/
theorem Head.find_blankLine_render (head : Head) (text : Bytes) :
    find blankLine (head.render ++ text) = some (head.render.length - 4) := by
  have hfields : ∀ l ∈ head.fields.map FieldLine.line, IsLine l ∧ l ≠ [] := by
    intro l hl
    obtain ⟨field, -, rfl⟩ := List.mem_map.mp hl
    exact ⟨field.line_isText.isLine, field.line_ne⟩
  have hfound := find_blankLine text head.statusLine_isText.isLine hfields
  have hlen : head.render.length - 4 = (renderLines head.lines).length - 2 := by
    simp only [Head.render, crlf, List.length_append, List.length_cons, List.length_nil]
    omega
  rw [hlen, ← Head.lines] at *
  simpa [Head.render, crlf] using hfound

/-- A head holds at least its status line and the empty line. -/
theorem Head.length_render_ge (head : Head) : 17 ≤ head.render.length := by
  simp only [Head.render, Head.lines, Head.statusLine, renderLines_cons, statusDigits, crlf,
    List.length_append, List.length_cons, List.length_nil]
  have hversion : (str "HTTP/1.1 ").length = 9 := by decide
  omega

end HttpClient.H1
