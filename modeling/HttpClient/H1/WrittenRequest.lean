import HttpClient.H1.HeadBreaks
import HttpClient.H1.RequestGrammar
import HttpClient.UrlComposition

/-!
# What is written is the request

The lightweight exchange puts the head of a request together from the method, the URL and the
header lines, and appends the body or writes it from where it is. If none of the pieces
contains a byte that delimits it, what is written is a request by the grammar, and the parts
that the grammar finds are the pieces.

The request target is a piece of its own. In the absolute form it contains the host and the
port of the URL, so a blank there, which does no harm in a field line, must not be in them.

## Main definitions

* `sentMessage` — the request that is meant
* `PlainRequest` — no piece contains a byte that delimits it

## Main results

* `named_sentFields` — the fields that the exchange writes itself stand there once
* `isRequest_written_iff` — a plain request is written as it is meant
* `blank_in_absoluteUri` — a host with a blank
-/

set_option autoImplicit false

namespace HttpClient.H1

open Text

/-! ### The request that is meant -/

/-- A field as it is written, with one blank before its value. -/
def sentField (name value : Bytes) : RequestField := ⟨name, 32 :: value⟩

/-- The field of a header line, unless the exchange writes that field itself. -/
def keptField (header : Bytes) : Option RequestField :=
  let (name, value) := splitHeaderView header
  if skipHeader name then none else some (sentField name value)

def sentFields (url : ParsedUrl) (request : Request) : List RequestField :=
  [sentField (str "Host") url.host] ++
  (if hasHeader request (str "user-agent") then []
    else [sentField (str "User-Agent") (str "httpclient-asio-light")]) ++
  (if hasHeader request (str "accept") then [] else [sentField (str "Accept") (str "*/*")]) ++
  request.headers.filterMap keptField ++
  (if request.bodyView = [] then []
    else [sentField (str "Content-Length") (decimal request.bodyView.length)]) ++
  [sentField (str "Connection") (str "keep-alive")]

/-- The target of the request line, in origin form or in absolute form. -/
def sentTarget (url : ParsedUrl) (absoluteTarget : Bool) : Bytes :=
  if absoluteTarget then absoluteUri url else url.target

def sentMessage (url : ParsedUrl) (request : Request) (absoluteTarget : Bool) : RequestMessage where
  method := sentMethod request
  target := sentTarget url absoluteTarget
  fields := sentFields url request
  body := request.bodyView

/-- The fields of a name. -/
def fieldsNamed (name : Bytes) (fields : List RequestField) : List RequestField :=
  fields.filter fun field => headerNameEqual field.name name

theorem fieldsNamed_append (name : Bytes) (x y : List RequestField) :
    fieldsNamed name (x ++ y) = fieldsNamed name x ++ fieldsNamed name y :=
  List.filter_append x y

theorem fieldsNamed_ite (name : Bytes) (p : Prop) [Decidable p] (x y : List RequestField) :
    fieldsNamed name (if p then x else y) =
      if p then fieldsNamed name x else fieldsNamed name y :=
  apply_ite (fieldsNamed name) p x y

theorem fieldsNamed_sentField (name other value : Bytes) :
    fieldsNamed name [sentField other value] =
      if headerNameEqual other name then [sentField other value] else [] := by
  rw [fieldsNamed, List.filter_cons, List.filter_nil, sentField]

/-- The names of the fields that the exchange writes for every request. -/
def OwnName (name : Bytes) : Prop :=
  name = str "Host" ∨ name = str "Content-Length" ∨ name = str "Connection"

/-- Header lines with such a name, in any case, are left out. -/
theorem skipHeader_of_ownName {name other : Bytes} (hown : OwnName name)
    (h : headerNameEqual other name = true) : skipHeader other = true := by
  rw [headerNameEqual] at h
  rcases hown with rfl | rfl | rfl
  · have hsmall : lowerCopy (str "Host") = lowerCopy (str "host") := by decide
    rw [hsmall] at h
    rw [skipHeader, headerNameEqual, h, Bool.or_true, Bool.true_or, Bool.true_or]
  · have hsmall : lowerCopy (str "Content-Length") = lowerCopy (str "content-length") := by decide
    rw [hsmall] at h
    rw [skipHeader, headerNameEqual, headerNameEqual, h, Bool.or_true, Bool.true_or]
  · have hsmall : lowerCopy (str "Connection") = lowerCopy (str "connection") := by decide
    rw [hsmall] at h
    rw [skipHeader, headerNameEqual, headerNameEqual, headerNameEqual, h, Bool.or_true]

theorem keptField_cases {header : Bytes} {field : RequestField}
    (h : keptField header = some field) :
    skipHeader (splitHeaderView header).1 = false ∧
      field = sentField (splitHeaderView header).1 (splitHeaderView header).2 := by
  rw [keptField] at h
  dsimp only at h
  split at h
  · cases h
  · rename_i hkept
    exact ⟨Bool.eq_false_iff.mpr hkept, (Option.some.inj h).symm⟩

theorem fieldsNamed_keptField {name : Bytes} (hown : OwnName name) (headers : List Bytes) :
    fieldsNamed name (headers.filterMap keptField) = [] := by
  rw [fieldsNamed, List.filter_eq_nil_iff]
  intro field hfield hnamed
  obtain ⟨header, -, hkept⟩ := List.mem_filterMap.mp hfield
  obtain ⟨hnot, rfl⟩ := keptField_cases hkept
  exact Bool.eq_false_iff.mp hnot (skipHeader_of_ownName hown hnamed)

/-- The fields of such a name: those of the header lines are not among them. -/
theorem fieldsNamed_sentFields {name : Bytes} (hown : OwnName name) (url : ParsedUrl)
    (request : Request) :
    fieldsNamed name (sentFields url request) =
      (if headerNameEqual (str "Host") name then [sentField (str "Host") url.host] else []) ++
      (if request.bodyView = [] then []
        else if headerNameEqual (str "Content-Length") name then
          [sentField (str "Content-Length") (decimal request.bodyView.length)] else []) ++
      (if headerNameEqual (str "Connection") name then
        [sentField (str "Connection") (str "keep-alive")] else []) := by
  have hagent : headerNameEqual (str "User-Agent") name = false := by
    rcases hown with rfl | rfl | rfl <;> decide
  have haccept : headerNameEqual (str "Accept") name = false := by
    rcases hown with rfl | rfl | rfl <;> decide
  have hnil : fieldsNamed name [] = [] := rfl
  rw [sentFields, fieldsNamed_append, fieldsNamed_append, fieldsNamed_append, fieldsNamed_append,
    fieldsNamed_append, fieldsNamed_keptField hown]
  simp only [fieldsNamed_ite, fieldsNamed_sentField, hagent, haccept, hnil, Bool.false_eq_true,
    if_false, ite_self, List.append_nil]

/-- There is one `Host` field, and one `Content-Length` field if there is a body. -/
theorem named_sentFields (url : ParsedUrl) (request : Request) :
    fieldsNamed (str "Host") (sentFields url request) = [sentField (str "Host") url.host] ∧
    fieldsNamed (str "Content-Length") (sentFields url request) =
      (if request.bodyView = [] then []
        else [sentField (str "Content-Length") (decimal request.bodyView.length)]) ∧
    fieldsNamed (str "Connection") (sentFields url request) =
      [sentField (str "Connection") (str "keep-alive")] := by
  have hsame : ∀ name, headerNameEqual name name = true := fun name => beq_self_eq_true _
  have hhl : headerNameEqual (str "Host") (str "Content-Length") = false := by decide
  have hhc : headerNameEqual (str "Host") (str "Connection") = false := by decide
  have hlh : headerNameEqual (str "Content-Length") (str "Host") = false := by decide
  have hlc : headerNameEqual (str "Content-Length") (str "Connection") = false := by decide
  have hch : headerNameEqual (str "Connection") (str "Host") = false := by decide
  have hcl : headerNameEqual (str "Connection") (str "Content-Length") = false := by decide
  rw [fieldsNamed_sentFields (.inl rfl), fieldsNamed_sentFields (.inr (.inl rfl)),
    fieldsNamed_sentFields (.inr (.inr rfl))]
  simp only [hsame, hhl, hhc, hlh, hlc, hch, hcl, Bool.false_eq_true, if_true, if_false, ite_self,
    List.append_nil, List.nil_append, and_self]

/-! ### Pieces without delimiters -/

/-- The pieces of a request contain no bytes that delimit them. -/
structure PlainRequest (url : ParsedUrl) (request : Request) (absoluteTarget : Bool) : Prop where
  method : 32 ∉ request.method ∧ IsText request.method
  target : 32 ∉ sentTarget url absoluteTarget ∧ IsText (sentTarget url absoluteTarget)
  host : IsText url.host
  headers : ∀ header ∈ request.headers, IsText header

theorem IsText.of_subset {s t : Bytes} (h : IsText t) (hsub : s ⊆ t) : IsText s :=
  fun c hc => h c (hsub hc)

theorem isText_splitHeaderView {header : Bytes} (h : IsText header) :
    IsText (splitHeaderView header).1 ∧ IsText (splitHeaderView header).2 := by
  rw [splitHeaderView]
  cases findByte 58 header with
  | none => exact ⟨h, fun c hc => absurd hc List.not_mem_nil⟩
  | some pos =>
    refine ⟨h.of_subset (List.take_subset pos header), h.of_subset ?_⟩
    exact List.Subset.trans (List.dropWhile_suffix _).subset (List.drop_subset (pos + 1) header)

theorem isText_decimal (n : Nat) : IsText (decimal n) := by
  intro c hc
  have hdigit := isDigit_of_mem_decimal c hc
  constructor
  · rintro rfl
    exact absurd hdigit (by decide)
  · rintro rfl
    exact absurd hdigit (by decide)

/-- The fields that are written: those that the exchange adds have names and, but for the host,
values of its own, the others come from header lines. -/
theorem forall_sentFields {url : ParsedUrl} {request : Request} {P : RequestField → Prop}
    (hhost : P (sentField (str "Host") url.host))
    (hadded : ∀ name value, IsLineName name → IsText value → P (sentField name value))
    (hkept : ∀ header ∈ request.headers, ∀ field, keptField header = some field → P field) :
    ∀ field ∈ sentFields url request, P field := by
  intro field hfield
  simp only [sentFields, List.mem_append, List.mem_singleton] at hfield
  rcases hfield with ((((rfl | hagent) | haccept) | hheader) | hlength) | rfl
  · exact hhost
  · split at hagent
    · exact absurd hagent List.not_mem_nil
    · obtain rfl := List.mem_singleton.mp hagent
      exact hadded _ _ (by decide) (by decide)
  · split at haccept
    · exact absurd haccept List.not_mem_nil
    · obtain rfl := List.mem_singleton.mp haccept
      exact hadded _ _ (by decide) (by decide)
  · obtain ⟨header, hmem, hread⟩ := List.mem_filterMap.mp hheader
    exact hkept header hmem field hread
  · split at hlength
    · exact absurd hlength List.not_mem_nil
    · obtain rfl := List.mem_singleton.mp hlength
      exact hadded _ _ (by decide) (isText_decimal _)
  · exact hadded _ _ (by decide) (by decide)

/-- The name of a field that is written is one of the exchange, or that of a header line. -/
theorem name_of_mem_sentFields {url : ParsedUrl} {request : Request} {field : RequestField}
    (h : field ∈ sentFields url request) :
    field.name ∈ [str "Host", str "User-Agent", str "Accept", str "Content-Length",
        str "Connection"] ∨
      ∃ header ∈ request.headers, field.name = (splitHeaderView header).1 := by
  simp only [sentFields, List.mem_append, List.mem_singleton] at h
  rcases h with ((((rfl | hagent) | haccept) | hheader) | hlength) | rfl
  · exact .inl (by simp [sentField])
  · split at hagent
    · exact absurd hagent List.not_mem_nil
    · obtain rfl := List.mem_singleton.mp hagent
      exact .inl (by simp [sentField])
  · split at haccept
    · exact absurd haccept List.not_mem_nil
    · obtain rfl := List.mem_singleton.mp haccept
      exact .inl (by simp [sentField])
  · obtain ⟨header, hmem, hread⟩ := List.mem_filterMap.mp hheader
    obtain ⟨-, rfl⟩ := keptField_cases hread
    exact .inr ⟨header, hmem, rfl⟩
  · split at hlength
    · exact absurd hlength List.not_mem_nil
    · obtain rfl := List.mem_singleton.mp hlength
      exact .inl (by simp [sentField])
  · exact .inl (by simp [sentField])

theorem noColon_of_mem_sentFields {url : ParsedUrl} {request : Request} :
    ∀ field ∈ sentFields url request, 58 ∉ field.name := by
  apply forall_sentFields
  · show 58 ∉ str "Host"
    decide
  · intro name value hname _
    exact hname.2.1
  · intro header _ field hfield
    obtain ⟨-, rfl⟩ := keptField_cases hfield
    exact noColon_splitHeaderView header

/-- Each field that is written is one by the grammar. -/
theorem isField_of_mem_sentFields {url : ParsedUrl} {request : Request} (hhost : IsText url.host)
    (hheaders : ∀ header ∈ request.headers, IsText header) :
    ∀ field ∈ sentFields url request, IsLineName field.name ∧ IsText field.text := by
  have hblank : ∀ {value : Bytes}, IsText value → IsText (32 :: value) :=
    fun hvalue => hvalue.cons (by decide)
  apply forall_sentFields
  · have hname : IsLineName (str "Host") := by decide
    exact ⟨hname, hblank hhost⟩
  · intro name value hname hvalue
    exact ⟨hname, hblank hvalue⟩
  · intro header hheader field hfield
    obtain ⟨hnot, rfl⟩ := keptField_cases hfield
    obtain ⟨hname, hvalue⟩ := isText_splitHeaderView (hheaders header hheader)
    refine ⟨⟨?_, noColon_splitHeaderView header, hname⟩, hblank hvalue⟩
    -- empty names are left out
    intro hempty
    rw [skipHeader, show (splitHeaderView header).1 = [] from hempty] at hnot
    cases hnot

/-! ### The bytes that are written -/

theorem fieldLine_eq (header : Bytes) :
    fieldLine header = (keptField header).map RequestField.line := by
  rw [fieldLine, keptField]
  dsimp only
  split
  · rfl
  · rw [Option.map_some, RequestField.line, sentField, List.append_assoc]
    rfl

theorem requestLines_eq (url : ParsedUrl) (request : Request) (absoluteTarget : Bool) :
    requestLines url request absoluteTarget =
      (sentMethod request ++ 32 :: (sentTarget url absoluteTarget ++ 32 :: str "HTTP/1.1")) ::
        (sentFields url request).map RequestField.line := by
  have hkept : request.headers.filterMap fieldLine =
      (request.headers.filterMap keptField).map RequestField.line := by
    rw [List.map_filterMap]
    apply List.filterMap_congr
    intro header _
    exact fieldLine_eq header
  have hone : ∀ (p : Prop) [Decidable p] (line : Bytes) (field : RequestField),
      line = field.line → (if p then [] else [line]) =
        (if p then [] else [field]).map RequestField.line := by
    intro p _ line field hline
    split
    · rfl
    · rw [List.map_singleton, hline]
  rw [requestLines, sentFields, List.map_append, List.map_append, List.map_append,
    List.map_append, List.map_append, ← hkept, ← hone _ _ _ rfl, ← hone _ _ _ rfl,
    ← hone _ _ _ rfl]
  rfl

/-- However the body is written, it follows the head. -/
theorem flatten_writeBuffers (url : ParsedUrl) (request : Request) (absoluteTarget : Bool) :
    (writeBuffers url request absoluteTarget).flatten =
      serializeHead url request absoluteTarget ++ request.bodyView := by
  rw [writeBuffers]
  split
  · rw [List.flatten_cons, List.flatten_singleton]
  · rw [List.flatten_singleton]

/-- A target always has a first character. -/
theorem sentTarget_ne_nil {text : Bytes} {url : ParsedUrl} (hurl : parseUrl text = .ok url)
    (absoluteTarget : Bool) : sentTarget url absoluteTarget ≠ [] := by
  obtain ⟨scheme, rest, -, -, rfl, -⟩ := exists_compose_of_parseUrl hurl
  rw [sentTarget]
  split
  · simp [absoluteUri, str]
  · exact targetOf_ne_nil rest

/-- No piece that is written contains what delimits it, so the grammar finds the pieces. -/
theorem isRequest_written {text : Bytes} {url : ParsedUrl} {request : Request}
    {absoluteTarget : Bool} (hurl : parseUrl text = .ok url)
    (h : PlainRequest url request absoluteTarget) :
    IsRequest (writeBuffers url request absoluteTarget).flatten
      (sentMessage url request absoluteTarget) := by
  have hmethod : IsWord (sentMethod request) := by
    rw [sentMethod]
    split
    · decide
    · rename_i hne
      exact ⟨hne, h.method⟩
  have htarget : IsWord (sentTarget url absoluteTarget) := ⟨sentTarget_ne_nil hurl _, h.target⟩
  have hfields := fieldLines_renderLines request.bodyView
    (isField_of_mem_sentFields h.host h.headers)
  have hbytes : (writeBuffers url request absoluteTarget).flatten =
      sentMethod request ++ 32 :: (sentTarget url absoluteTarget ++ 32 :: (str "HTTP/1.1" ++ 13 ::
        10 :: (renderLines ((sentFields url request).map RequestField.line) ++
          13 :: 10 :: request.bodyView))) := by
    rw [flatten_writeBuffers, serializeHead_eq, requestLines_eq, renderLines_cons, crlf]
    simp only [List.append_assoc, List.cons_append, List.nil_append]
  rw [hbytes, sentMessage]
  exact .intro hmethod htarget hfields

/-- A plain request is written as it is meant, in one buffer or in two, and can be read in no
other way. -/
theorem isRequest_written_iff {text : Bytes} {url : ParsedUrl} {request : Request}
    {absoluteTarget : Bool} (hurl : parseUrl text = .ok url)
    (h : PlainRequest url request absoluteTarget) :
    (writeBuffers url request absoluteTarget).length =
        (if gatherWriteBodyThreshold < request.bodyView.length then 2 else 1) ∧
      ∀ m, IsRequest (writeBuffers url request absoluteTarget).flatten m ↔
        m = sentMessage url request absoluteTarget := by
  constructor
  · rw [writeBuffers]
    split
    · rfl
    · rfl
  · intro m
    have hwritten := isRequest_written hurl h
    constructor
    · intro hm
      exact hm.unique hwritten
    · rintro rfl
      exact hwritten

/-- A request to `a.example` with two header lines and a body. -/
def note : Request where
  method := str "PUT"
  headers := [str "accept: text/plain", str "HOST:b.example"]
  body := str "note"

theorem isRequest_written_iff_note :
    (writeBuffers ⟨str "http", str "a.example", str "80", str "/notes"⟩ note true).length = 1 ∧
      ∀ m, IsRequest
          (writeBuffers ⟨str "http", str "a.example", str "80", str "/notes"⟩ note true).flatten m ↔
        m = { method := str "PUT"
              target := str "http://a.example/notes"
              fields :=
                [sentField (str "Host") (str "a.example"),
                  sentField (str "User-Agent") (str "httpclient-asio-light"),
                  sentField (str "accept") (str "text/plain"),
                  sentField (str "Content-Length") (str "4"),
                  sentField (str "Connection") (str "keep-alive")]
              body := str "note" } := by
  have hurl : parseUrl (str "http://a.example/notes") =
      .ok ⟨str "http", str "a.example", str "80", str "/notes"⟩ := by
    decide +kernel
  have hplain : PlainRequest ⟨str "http", str "a.example", str "80", str "/notes"⟩ note true :=
    ⟨by decide, by decide +kernel, by decide, by decide⟩
  have hsent : sentMessage ⟨str "http", str "a.example", str "80", str "/notes"⟩ note true =
      { method := str "PUT"
        target := str "http://a.example/notes"
        fields :=
          [sentField (str "Host") (str "a.example"),
            sentField (str "User-Agent") (str "httpclient-asio-light"),
            sentField (str "accept") (str "text/plain"),
            sentField (str "Content-Length") (str "4"),
            sentField (str "Connection") (str "keep-alive")]
        body := str "note" } := by
    decide +kernel
  rw [← hsent]
  exact isRequest_written_iff hurl hplain

/-- In the absolute form, a blank in the host ends the target. -/
theorem blank_in_absoluteUri :
    parseUrl (str "http://a b/") = .ok ⟨str "http", str "a b", str "80", str "/"⟩ ∧
      (32 ∉ str "GET" ∧ IsText (str "GET")) ∧ (32 ∉ str "/" ∧ IsText (str "/")) ∧
      IsText (str "a b") ∧
      ∀ m, ¬ IsRequest
        (writeBuffers ⟨str "http", str "a b", str "80", str "/"⟩ {} true).flatten m := by
  refine ⟨by decide +kernel, by decide, by decide, by decide, fun m hm => ?_⟩
  have hbytes : (writeBuffers ⟨str "http", str "a b", str "80", str "/"⟩ {} true).flatten =
      str "GET" ++ 32 :: (str "http://a" ++ 32 :: (str "b/ HTTP/1.1\r\nHost: a b\r\n" ++
        str "User-Agent: httpclient-asio-light\r\nAccept: */*\r\n" ++
          str "Connection: keep-alive\r\n\r\n")) := by
    decide +kernel
  rw [hbytes] at hm
  exact absurd (hm.version (by decide) (by decide)) (by decide +kernel)

end HttpClient.H1
