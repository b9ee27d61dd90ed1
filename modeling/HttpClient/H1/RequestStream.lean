import HttpClient.H1.WrittenRequest

/-!
# Requests on one connection

A connection that is kept carries one request after another. The server finds where a request ends
by the fields of its head: a body has the length that the `Content-Length` field says, and without
the field there is none. That does not hold of a request with a `Transfer-Encoding` field, whose
body ends where its last chunk does, whatever else the head says.

The exchange writes the length of every body itself and leaves out what the caller says about it.
A `Transfer-Encoding` line of the caller it sends like any other.

## Main definitions

* `bodyLength` — the length of a body by the fields of its request
* `RequestStream` — the texts that are sequences of requests
* `SentRequest` — a request as it is written

## Main results

* `RequestStream.unique` — a text is a sequence of requests in at most one way
* `requests_delimited` — when the server finds the requests that have been written
-/

set_option autoImplicit false

namespace HttpClient.H1

open Text

/-! ### Sequences of requests -/

/-- The number that a numeral denotes. -/
def numeral (text : Bytes) : Option Nat :=
  if text ≠ [] ∧ text.all isDigit then some (readDecimal 0 text) else none

/-- The length of a body, if the fields say it by a length. -/
def bodyLength (fields : List RequestField) : Option Nat :=
  if fieldsNamed (str "Transfer-Encoding") fields = [] then
    match fieldsNamed (str "Content-Length") fields with
    | [] => some 0
    | [field] => numeral (trim field.text)
    | _ => none
  else none

/-- A text is a sequence of requests, each with a body of the length that its fields say. -/
inductive RequestStream : Bytes → List RequestMessage → Prop
  | nil : RequestStream [] []
  | cons {t : Bytes} {m : RequestMessage} {n : Nat} {ms : List RequestMessage}
      (hrequest : IsRequest t m) (hlength : bodyLength m.fields = some n)
      (hle : n ≤ m.body.length) (hrest : RequestStream (m.body.drop n) ms) :
      RequestStream t ({ m with body := m.body.take n } :: ms)

theorem IsRequest.ne_nil {t : Bytes} {m : RequestMessage} (h : IsRequest t m) : t ≠ [] := by
  obtain ⟨hmethod, -, -⟩ := h
  exact List.append_ne_nil_of_left_ne_nil hmethod.1 _

/-- A text is a sequence of requests in at most one way. -/
theorem RequestStream.unique {t : Bytes} {ms ms' : List RequestMessage} (h : RequestStream t ms)
    (h' : RequestStream t ms') : ms = ms' := by
  induction h generalizing ms' with
  | nil =>
    generalize ht : ([] : Bytes) = t at h'
    cases h' with
    | nil => rfl
    | cons hrequest => exact absurd ht.symm hrequest.ne_nil
  | cons hrequest hlength hle hrest ih =>
    cases h' with
    | nil => exact absurd rfl hrequest.ne_nil
    | cons hrequest' hlength' hle' hrest' =>
      -- the first request is the same, and so are its length and what follows
      obtain rfl := hrequest.unique hrequest'
      obtain rfl := Option.some.inj (hlength.symm.trans hlength')
      rw [ih hrest']

/-! ### What follows a request -/

theorem FieldLines.append {t body : Bytes} {fields : List RequestField}
    (h : FieldLines t fields body) (rest : Bytes) :
    FieldLines (t ++ rest) fields (body ++ rest) := by
  induction h with
  | empty body => exact .empty (body ++ rest)
  | line hname htext hrest ih => simpa using FieldLines.line hname htext ih

/-- Whatever follows a request is taken for its body. -/
theorem IsRequest.append {t : Bytes} {m : RequestMessage} (h : IsRequest t m) (rest : Bytes) :
    IsRequest (t ++ rest) { m with body := m.body ++ rest } := by
  obtain ⟨hmethod, htarget, hlines⟩ := h
  simpa using IsRequest.intro hmethod htarget (hlines.append rest)

/-! ### The length that is written -/

theorem trim_eq_self {text : Bytes} (h : ∀ c ∈ text, isSpace c = false) : trim text = text := by
  have hleft : ∀ s : Bytes, (∀ c ∈ s, isSpace c = false) → trimLeft s = s := by
    intro s hs
    cases s with
    | nil => rfl
    | cons c s => exact List.dropWhile_cons_of_neg (by simp [hs c List.mem_cons_self])
  rw [trim, hleft text h, hleft text.reverse fun c hc => h c (List.mem_reverse.mp hc),
    List.reverse_reverse]

theorem decimal_ne_nil (n : Nat) : decimal n ≠ [] := by
  intro hnil
  have hzero := readDecimal_decimal n
  rw [hnil] at hzero
  obtain rfl : 0 = n := hzero
  exact absurd hnil (by decide)

theorem numeral_decimal (n : Nat) : numeral (trim (32 :: decimal n)) = some n := by
  have hspace : ∀ c ∈ decimal n, isSpace c = false := fun c hc =>
    isSpace_eq_false_of_isDigit (isDigit_of_mem_decimal c hc)
  have htrim : trim (32 :: decimal n) = trim (decimal n) := rfl
  have hdigits : (decimal n).all isDigit = true := List.all_eq_true.mpr isDigit_of_mem_decimal
  rw [htrim, trim_eq_self hspace, numeral, if_pos ⟨decimal_ne_nil n, hdigits⟩,
    readDecimal_decimal]

/-- A header line of the request with the name of a transfer coding. -/
def NamesCoding (request : Request) : Prop :=
  ∃ header ∈ request.headers, lineNamed (str "Transfer-Encoding") header

instance (request : Request) : Decidable (NamesCoding request) :=
  inferInstanceAs (Decidable (∃ _ ∈ _, _))

theorem skipHeader_of_coding {name : Bytes}
    (h : headerNameEqual name (str "Transfer-Encoding") = true) : skipHeader name = false := by
  have hlower : lowerCopy name = lowerCopy (str "Transfer-Encoding") := by
    simpa [headerNameEqual] using h
  have hne : name ≠ [] := by
    rintro rfl
    exact absurd hlower (by decide)
  rw [skipHeader, headerNameEqual, headerNameEqual, headerNameEqual, hlower, beq_false_of_ne hne]
  decide

/-- The field is written if and only if a header line has its name. -/
theorem fieldsNamed_coding (url : ParsedUrl) (request : Request) :
    fieldsNamed (str "Transfer-Encoding") (sentFields url request) = [] ↔
      ¬ NamesCoding request := by
  rw [fieldsNamed, List.filter_eq_nil_iff]
  constructor
  · rintro hnone ⟨header, hheader, hnamed⟩
    have hkept : keptField header =
        some (sentField (splitHeaderView header).1 (splitHeaderView header).2) := by
      rw [keptField]
      exact if_neg (Bool.eq_false_iff.mp (skipHeader_of_coding hnamed))
    refine hnone (sentField (splitHeaderView header).1 (splitHeaderView header).2) ?_ hnamed
    have hmem := List.mem_filterMap.mpr ⟨header, hheader, hkept⟩
    simp [sentFields, hmem]
  · intro hnone field hfield hnamed
    -- a field is one of the client's own or comes from a header line
    rcases name_of_mem_sentFields hfield with hown | ⟨header, hheader, hname⟩
    · have hother : ∀ name ∈ [str "Host", str "User-Agent", str "Accept", str "Content-Length",
          str "Connection"], headerNameEqual name (str "Transfer-Encoding") = false := by
        decide
      rw [hother _ hown] at hnamed
      cases hnamed
    · rw [hname] at hnamed
      exact hnone ⟨header, hheader, hnamed⟩

theorem bodyLength_sentFields (url : ParsedUrl) (request : Request) :
    bodyLength (sentFields url request) =
      if NamesCoding request then none else some request.bodyView.length := by
  rw [bodyLength]
  by_cases hcoding : NamesCoding request
  · rw [if_pos hcoding, if_neg (by rw [fieldsNamed_coding, not_not]; exact hcoding)]
  · rw [if_neg hcoding, if_pos ((fieldsNamed_coding url request).mpr hcoding),
      (named_sentFields url request).2.1]
    by_cases hbody : request.bodyView = []
    · simp [hbody]
    · rw [if_neg hbody]
      exact numeral_decimal request.bodyView.length

/-! ### The requests that are written -/

/-- A request as it is written. -/
structure SentRequest where
  url : ParsedUrl
  request : Request
  absoluteTarget : Bool

namespace SentRequest

def bytes (sent : SentRequest) : Bytes :=
  (writeBuffers sent.url sent.request sent.absoluteTarget).flatten

def message (sent : SentRequest) : RequestMessage :=
  sentMessage sent.url sent.request sent.absoluteTarget

/-- No piece of the request contains a byte that delimits it. -/
def Plain (sent : SentRequest) : Prop :=
  (∃ text, parseUrl text = .ok sent.url) ∧
    PlainRequest sent.url sent.request sent.absoluteTarget

end SentRequest

/-- What follows the bytes of a request is behind its body. -/
theorem isRequest_bytes_append {sent : SentRequest} (h : sent.Plain) (rest : Bytes) :
    IsRequest (sent.bytes ++ rest)
      { sent.message with body := sent.request.bodyView ++ rest } := by
  obtain ⟨⟨text, hurl⟩, hplain⟩ := h
  exact (isRequest_written hurl hplain).append rest

theorem requestStream_cons_iff {sent : SentRequest} (h : sent.Plain) (rest : Bytes)
    (ms : List RequestMessage) :
    RequestStream (sent.bytes ++ rest) ms ↔
      ¬ NamesCoding sent.request ∧ ∃ ms', RequestStream rest ms' ∧ ms = sent.message :: ms' := by
  have hrequest := isRequest_bytes_append h rest
  have hlength := bodyLength_sentFields sent.url sent.request
  constructor
  · intro hstream
    generalize ht : sent.bytes ++ rest = t at hstream hrequest
    cases hstream with
    | nil => exact absurd rfl hrequest.ne_nil
    | @cons _ m n ms hread hread_length hle hrest =>
      -- what is read is the request that was written, with everything behind it as its body
      obtain rfl := hread.unique hrequest
      have hn : bodyLength (sentFields sent.url sent.request) = some n := hread_length
      rw [hlength] at hn
      split at hn
      · cases hn
      · rename_i hcoding
        obtain rfl := Option.some.inj hn
        refine ⟨hcoding, ms, ?_, ?_⟩
        · simpa using hrest
        · simp [SentRequest.message, sentMessage]
  · rintro ⟨hcoding, ms', hrest, rfl⟩
    rw [if_neg hcoding] at hlength
    have hstream := RequestStream.cons hrequest hlength (by simp)
      (show RequestStream _ ms' by simpa using hrest)
    simpa [SentRequest.message, sentMessage] using hstream

/-- A server that goes by the lengths of the bodies finds the requests that have been written, and
no others, if and only if no request has a header line with a transfer coding. -/
theorem requests_delimited {sent : List SentRequest} (h : ∀ r ∈ sent, r.Plain)
    (ms : List RequestMessage) :
    RequestStream (sent.flatMap SentRequest.bytes) ms ↔
      (∀ r ∈ sent, ¬ NamesCoding r.request) ∧ ms = sent.map SentRequest.message := by
  induction sent generalizing ms with
  | nil =>
    constructor
    · intro hstream
      exact ⟨fun r hr => absurd hr List.not_mem_nil, hstream.unique .nil⟩
    · rintro ⟨-, rfl⟩
      exact .nil
  | cons first sent ih =>
    rw [List.forall_mem_cons] at h
    rw [List.flatMap_cons, requestStream_cons_iff h.1, List.forall_mem_cons, List.map_cons]
    constructor
    · rintro ⟨hcoding, ms', hrest, rfl⟩
      obtain ⟨hothers, rfl⟩ := (ih h.2 ms').mp hrest
      exact ⟨⟨hcoding, hothers⟩, rfl⟩
    · rintro ⟨⟨hcoding, hothers⟩, rfl⟩
      exact ⟨hcoding, _, (ih h.2 _).mpr ⟨hothers, rfl⟩, rfl⟩

def notesUrl : ParsedUrl := ⟨str "http", str "a.example", str "80", str "/notes"⟩

/-- A note with a coding of its own, before another request. -/
def codedNote : Request where
  method := str "PUT"
  headers := [str "transfer-encoding: chunked"]
  body := str "4\r\nnote\r\n0\r\n\r\n"

theorem requests_delimited_codedNote :
    (∀ ms, ¬ RequestStream
        ([⟨notesUrl, codedNote, false⟩, ⟨notesUrl, note, false⟩].flatMap SentRequest.bytes) ms) ∧
      ∀ ms, RequestStream
        ([⟨notesUrl, note, false⟩, ⟨notesUrl, {}, false⟩].flatMap SentRequest.bytes) ms ↔
          ms = [sentMessage notesUrl note false, sentMessage notesUrl {} false] := by
  have hurl : parseUrl (str "http://a.example/notes") = .ok notesUrl := by decide +kernel
  have hplain : ∀ request ∈ [codedNote, note, {}],
      SentRequest.Plain ⟨notesUrl, request, false⟩ := by
    intro request hrequest
    simp only [List.mem_cons, List.not_mem_nil, or_false] at hrequest
    rcases hrequest with rfl | rfl | rfl
    · exact ⟨⟨_, hurl⟩, ⟨by decide, by decide +kernel, by decide, by decide⟩⟩
    · exact ⟨⟨_, hurl⟩, ⟨by decide, by decide +kernel, by decide, by decide⟩⟩
    · exact ⟨⟨_, hurl⟩, ⟨by decide, by decide +kernel, by decide, by decide⟩⟩
  constructor
  · intro ms hms
    rw [requests_delimited (by simpa using ⟨hplain _ (by simp), hplain _ (by simp)⟩)] at hms
    exact hms.1 _ List.mem_cons_self (by decide)
  · intro ms
    rw [requests_delimited (by simpa using ⟨hplain _ (by simp), hplain _ (by simp)⟩)]
    exact ⟨fun h => h.2, fun h => ⟨by decide, h⟩⟩

end HttpClient.H1
