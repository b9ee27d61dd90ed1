import HttpClient.Text.FormData

/-!
# Multipart bodies

A part is written behind a boundary line as its headers, a blank line and its value. Names and
file names stand between quotes as they are: nothing is escaped. A quote in a name ends the
name early, and what follows it is read as further parameters or headers.

## Main definitions

* `multipartFormDataBody` — the body for a list of parts
* `MultipartPart.Readable` — what a part must not contain

## Main results

* `formParts_cons_iff` — when one part is read back
* `multipart_roundTrips_iff` — when all parts are read back
* `quoted_name_forged` — a name that becomes a file name
-/

set_option autoImplicit false

namespace HttpClient.Builder

open Text

structure MultipartPart where
  name : Bytes := []
  value : Bytes := []
  filename : Bytes := []
  contentType : Bytes := []
  deriving DecidableEq, Repr

/-- Write one part behind `out`. -/
def appendPart (boundary out : Bytes) (part : MultipartPart) : Bytes :=
  let out := out ++ str "--" ++ boundary ++ crlf ++
    str "Content-Disposition: form-data; name=\"" ++ part.name ++ str "\""
  let out :=
    if part.filename ≠ [] then out ++ str "; filename=\"" ++ part.filename ++ str "\"" else out
  let out := out ++ crlf
  let out :=
    if part.contentType ≠ [] then out ++ str "Content-Type: " ++ part.contentType ++ crlf else out
  out ++ crlf ++ part.value ++ crlf

def multipartFormDataBody (parts : List MultipartPart) (boundary : Bytes) : Bytes :=
  parts.foldl (appendPart boundary) [] ++ str "--" ++ boundary ++ str "--" ++ crlf

/-! ### The text as lines -/

def filenameParameter (part : MultipartPart) : Bytes :=
  if part.filename = [] then [] else str "; filename=\"" ++ (part.filename ++ [34])

def disposition (part : MultipartPart) : Bytes :=
  str "; name=\"" ++ (part.name ++ 34 :: filenameParameter part)

def typeLines (part : MultipartPart) : List Bytes :=
  if part.contentType = [] then [] else [str "Content-Type: " ++ part.contentType]

def headerLines (part : MultipartPart) : List Bytes :=
  (dispositionHead ++ disposition part) :: typeLines part

/-- A part without the boundary line before it. -/
def partText (part : MultipartPart) (value : Bytes) : Bytes :=
  renderLines (headerLines part) ++ 13 :: 10 :: value

/-- What stands behind a delimiter. -/
def behindDelimiter (boundary : Bytes) : List MultipartPart → Bytes
  | [] => str "--" ++ crlf
  | part :: parts =>
    crlf ++ (partText part part.value ++ (delimiter boundary ++ behindDelimiter boundary parts))

theorem appendPart_eq (boundary out : Bytes) (part : MultipartPart) :
    appendPart boundary out part =
      out ++ (str "--" ++ (boundary ++ (crlf ++ (partText part part.value ++ crlf)))) := by
  have hhead : str "Content-Disposition: form-data; name=\"" =
      dispositionHead ++ str "; name=\"" := rfl
  have hquote : str "\"" = [34] := rfl
  have hbreak (text : Bytes) : 13 :: 10 :: text = crlf ++ text := rfl
  rw [appendPart, partText, headerLines, disposition, filenameParameter, typeLines, hhead, hquote]
  by_cases hfilename : part.filename = []
  · by_cases htype : part.contentType = []
    · simp [hfilename, htype, hbreak]
    · simp [hfilename, htype, hbreak]
  · by_cases htype : part.contentType = []
    · simp [hfilename, htype, hbreak]
    · simp [hfilename, htype, hbreak]

theorem foldl_appendPart_eq (boundary out : Bytes) (parts : List MultipartPart) :
    parts.foldl (appendPart boundary) out ++ str "--" ++ boundary ++ str "--" ++ crlf =
      out ++ (str "--" ++ (boundary ++ behindDelimiter boundary parts)) := by
  induction parts generalizing out with
  | nil => simp [behindDelimiter]
  | cons part parts ih =>
    rw [List.foldl_cons, ih, appendPart_eq, behindDelimiter, delimiter]
    simp only [List.append_assoc]

/-- With a line break in front, the body is a sequence of delimiters and parts. -/
theorem multipartFormDataBody_eq (parts : List MultipartPart) (boundary : Bytes) :
    crlf ++ multipartFormDataBody parts boundary =
      delimiter boundary ++ behindDelimiter boundary parts := by
  rw [multipartFormDataBody, foldl_appendPart_eq, delimiter]
  simp only [List.nil_append, List.append_assoc]

/-! ### What is read back -/

def MultipartPart.formPart (part : MultipartPart) : FormPart where
  name := part.name
  filename := part.filename
  contentType := part.contentType
  value := part.value

/-- What a part must not contain to be read back. -/
structure MultipartPart.Readable (boundary : Bytes) (part : MultipartPart) : Prop where
  name : Quotable part.name
  filename : Quotable part.filename
  value : Delimited boundary part.value

section Parts

variable {boundary rest : Bytes} {part : MultipartPart}

theorem isLine_dispositionHead : IsLine dispositionHead := show (13 : UInt8) ∉ _ by decide

theorem isLine_disposition (hname : Quotable part.name) (hfilename : Quotable part.filename) :
    IsLine (disposition part) := by
  have hparameter : IsLine (filenameParameter part) := by
    rw [filenameParameter]
    split
    · exact List.not_mem_nil
    · exact IsLine.append (show (13 : UInt8) ∉ _ by decide)
        (hfilename.isLine.append (show (13 : UInt8) ∉ [34] by decide))
  refine IsLine.append (show (13 : UInt8) ∉ _ by decide) (hname.isLine.append ?_)
  exact fun hmem => (List.mem_cons.mp hmem).elim (by decide) hparameter

theorem isLine_typeLines (htype : IsLine part.contentType) :
    ∀ l ∈ typeLines part, IsLine l ∧ l ≠ [] ∧ l.head? ≠ some 45 := by
  intro l hl
  rw [typeLines] at hl
  split at hl
  · cases hl
  · obtain rfl := List.mem_singleton.mp hl
    exact ⟨IsLine.append (show (13 : UInt8) ∉ _ by decide) htype, List.cons_ne_nil _ _,
      by simp [str]⟩

theorem pieceHeader_typeLines (part : MultipartPart) :
    (pieceHeader (str "content-type") (typeLines part)).getD [] = part.contentType := by
  rw [typeLines]
  split
  · rename_i hnone
    rw [hnone]
    rfl
  · have hfield := pieceHeader_cons (str "Content-Type") (by decide) (str "content-type")
      part.contentType []
    rw [if_pos (by decide)] at hfield
    rw [show str "Content-Type: " ++ part.contentType =
      str "Content-Type" ++ (str ": " ++ part.contentType) from rfl, hfield, Option.getD_some]

/-- The parameters of a part are its name and file name. -/
theorem parameters_disposition (hname : Quotable part.name) (hfilename : Quotable part.filename)
    (fuel : Nat) :
    parameters (fuel + 3) (disposition part) = some ((str "name", part.name) ::
      if part.filename = [] then [] else [(str "filename", part.filename)]) := by
  have hrest : parameters (fuel + 2) (filenameParameter part) =
      some (if part.filename = [] then [] else [(str "filename", part.filename)]) := by
    rw [filenameParameter]
    split
    · exact parameters_nil (fuel + 1)
    · rw [parameters_filename, hfilename.quoted.quotedString]
      rfl
  rw [disposition, parameters_name, hname.quoted.quotedString]
  simp only [Option.bind_some, hrest, Option.map_some]

/-- With a name and a file name that need no escape, the value is all that can go wrong. -/
theorem formPart_partText (hname : Quotable part.name) (hfilename : Quotable part.filename)
    (htype : IsLine part.contentType) (value : Bytes) :
    formPart (partText part value) = some { part.formPart with value } := by
  have hlines : ∀ l ∈ typeLines part, IsLine l ∧ l ≠ [] := fun l hl =>
    ⟨(isLine_typeLines htype l hl).1, (isLine_typeLines htype l hl).2.1⟩
  have hline := isLine_dispositionHead.append (isLine_disposition hname hfilename)
  obtain ⟨fuel, hfuel⟩ : ∃ fuel, 9 + (disposition part).length = fuel + 3 :=
    ⟨6 + (disposition part).length, by omega⟩
  rw [partText, headerLines, formPart_lines hline hlines, hfuel,
    parameters_disposition hname hfilename, pieceHeader_typeLines]
  have hother : (str "filename" == str "name") = false := by decide
  by_cases hnone : part.filename = []
  · rw [if_pos hnone]
    simp only [Option.bind_some, List.lookup_cons, List.lookup_nil, hother, beq_self_eq_true,
      Option.map_some, Option.getD_none]
    rw [MultipartPart.formPart, hnone]
  · rw [if_neg hnone]
    simp only [Option.bind_some, List.lookup_cons, hother, beq_self_eq_true, Option.map_some,
      Option.getD_some]
    rfl

theorem formPart_headerLines (hname : Quotable part.name) (hfilename : Quotable part.filename)
    (htype : IsLine part.contentType) : formPart (renderLines (headerLines part)) = none :=
  formPart_block (isLine_dispositionHead.append (isLine_disposition hname hfilename))
    fun l hl => ⟨(isLine_typeLines htype l hl).1, (isLine_typeLines htype l hl).2.1⟩

/-! ### Necessity -/

/-- A piece that is read as the part begins like the part up to the closing quote of its name. -/
theorem quotable_name {text : Bytes}
    (h : formPart (dispositionHead ++ (str "; name=\"" ++ text)) = some part.formPart)
    (htext : text <+: part.name ++ 34 :: rest) : Quotable part.name := by
  obtain ⟨read, found, hread, hfound, hname, -⟩ :=
    formPart_first (show (13 : UInt8) ∉ _ by decide) h
  have hkey : 9 + (str "; name=\"" ++ read).length = (16 + read.length) + 1 := by
    simp [str]
    omega
  rw [hkey, parameters_name] at hfound
  obtain ⟨⟨value, after⟩, hvalue, hmore⟩ := Option.bind_eq_some_iff.mp hfound
  obtain ⟨more, -, rfl⟩ := Option.map_eq_some_iff.mp hmore
  obtain rfl : value = part.name := by simpa [MultipartPart.formPart] using hname
  obtain ⟨raw, hraw, rfl⟩ := quotedString_eq_some_iff.mp hvalue
  exact hraw.quotable_of_prefix (hread.trans htext)

theorem quotable_filename {text : Bytes} (hname : Quotable part.name)
    (h : formPart (dispositionHead ++ ((str "; name=\"" ++
      (part.name ++ 34 :: str "; filename=\"")) ++ text)) = some part.formPart)
    (htext : text <+: part.filename ++ 34 :: rest) : Quotable part.filename := by
  have hline : IsLine (str "; name=\"" ++ (part.name ++ 34 :: str "; filename=\"")) :=
    IsLine.append (show (13 : UInt8) ∉ _ by decide)
      (hname.isLine.append (show (13 : UInt8) ∉ _ by decide))
  obtain ⟨read, found, hread, hfound, -, hfilename⟩ := formPart_first hline h
  obtain ⟨fuel, hfuel⟩ : ∃ fuel, 9 + (str "; name=\"" ++
      (part.name ++ 34 :: str "; filename=\"") ++ read).length = fuel + 2 :=
    ⟨7 + (str "; name=\"" ++ (part.name ++ 34 :: str "; filename=\"") ++ read).length, by omega⟩
  rw [hfuel, List.append_assoc, List.append_assoc, parameters_name, List.cons_append,
    hname.quoted.quotedString, Option.bind_some] at hfound
  obtain ⟨more, hmore, rfl⟩ := Option.map_eq_some_iff.mp hfound
  rw [parameters_filename] at hmore
  obtain ⟨⟨value, after⟩, hvalue, hlast⟩ := Option.bind_eq_some_iff.mp hmore
  obtain ⟨last, -, rfl⟩ := Option.map_eq_some_iff.mp hlast
  obtain rfl : value = part.filename := by
    have hother : (str "filename" == str "name") = false := by decide
    rw [List.lookup_cons, hother, List.lookup_cons, beq_self_eq_true] at hfilename
    exact hfilename.symm
  obtain ⟨raw, hraw, rfl⟩ := quotedString_eq_some_iff.mp hvalue
  exact hraw.quotable_of_prefix (hread.trans htext)

/-- The piece that is cut off a part, up to a delimiter in its value or behind it. -/
theorem cutAt_partText (hname : Quotable part.name) (hfilename : Quotable part.filename)
    (htype : IsLine part.contentType) (rest : Bytes) :
    ∃ i ≤ part.value.length + 2,
      find (delimiter boundary) (crlf ++ (part.value ++ (delimiter boundary ++ rest))) = some i ∧
      cutAt (delimiter boundary) (partText part part.value ++ (delimiter boundary ++ rest)) =
        some (renderLines (headerLines part) ++ (crlf ++ part.value).take i,
          (crlf ++ (part.value ++ (delimiter boundary ++ rest))).drop
            (i + (delimiter boundary).length)) := by
  obtain ⟨i, hle, hfind⟩ := exists_find_delimiter boundary part.value rest
  refine ⟨i, hle, hfind, ?_⟩
  have hlines : ∀ l ∈ headerLines part, IsLine l ∧ l.head? ≠ some 45 := by
    intro l hl
    rcases List.mem_cons.mp hl with rfl | hl
    · exact ⟨isLine_dispositionHead.append (isLine_disposition hname hfilename),
        by simp [dispositionHead, str]⟩
    · exact ⟨(isLine_typeLines htype l hl).1, (isLine_typeLines htype l hl).2.2⟩
  have hsplit : partText part part.value ++ (delimiter boundary ++ rest) =
      renderLines (headerLines part) ++
        (crlf ++ (part.value ++ (delimiter boundary ++ rest))) := by
    rw [partText, List.append_assoc]
    rfl
  have hwhole : find (delimiter boundary) (renderLines (headerLines part) ++
      (crlf ++ (part.value ++ (delimiter boundary ++ rest)))) =
        some (i + (renderLines (headerLines part)).length) := by
    rw [find_delimiter_lines hlines (by simp [crlf]), hfind, Option.map_some]
  have htake : (crlf ++ (part.value ++ (delimiter boundary ++ rest))).take i =
      (crlf ++ part.value).take i := by
    rw [← List.append_assoc]
    exact List.take_append_of_le_length (by simpa [crlf] using hle)
  rw [hsplit, cutAt_of_find hwhole, Nat.add_comm i, List.take_length_add_append,
    Nat.add_assoc, List.drop_length_add_append, htake]

theorem drop_behindDelimiter (boundary value rest : Bytes) :
    (crlf ++ (value ++ (delimiter boundary ++ rest))).drop
      (value.length + 2 + (delimiter boundary).length) = rest := by
  have hlength : value.length + 2 + (delimiter boundary).length =
      (crlf ++ (value ++ delimiter boundary)).length := by
    simp [crlf]
    omega
  rw [hlength, show crlf ++ (value ++ (delimiter boundary ++ rest)) =
    crlf ++ (value ++ delimiter boundary) ++ rest by simp, List.drop_left]

theorem partText_name (part : MultipartPart) (value y : Bytes) :
    ∃ tail, partText part value ++ y =
      dispositionHead ++ str "; name=\"" ++ (part.name ++ 34 :: tail) := by
  rw [partText, headerLines, renderLines_cons, disposition]
  simp only [List.append_assoc, List.cons_append]
  exact ⟨_, rfl⟩

theorem partText_filename (hsome : part.filename ≠ []) (value y : Bytes) :
    ∃ tail, partText part value ++ y =
      dispositionHead ++ (str "; name=\"" ++ (part.name ++ 34 :: str "; filename=\"")) ++
        (part.filename ++ 34 :: tail) := by
  rw [partText, headerLines, renderLines_cons, disposition, filenameParameter, if_neg hsome]
  simp only [List.append_assoc, List.cons_append, List.nil_append]
  exact ⟨_, rfl⟩

/-- The first piece behind a delimiter is read as the part exactly if the part is readable. -/
theorem formParts_cons_iff (htype : IsLine part.contentType) (fuel : Nat)
    (parts : List MultipartPart) (found : List FormPart) :
    formParts boundary (fuel + 1) (behindDelimiter boundary (part :: parts)) =
        some (part.formPart :: found) ↔
      part.Readable boundary ∧
        formParts boundary fuel (behindDelimiter boundary parts) = some found := by
  rw [behindDelimiter, formParts_piece]
  constructor
  · intro hread
    obtain ⟨⟨piece, rest⟩, hcut, hread⟩ := Option.bind_eq_some_iff.mp hread
    obtain ⟨first, hfirst, hread⟩ := Option.bind_eq_some_iff.mp hread
    obtain ⟨more, hmore, heq⟩ := Option.map_eq_some_iff.mp hread
    obtain ⟨rfl, rfl⟩ := List.cons.inj heq
    have hname : Quotable part.name := by
      obtain ⟨tail, htext⟩ :=
        partText_name part part.value (delimiter boundary ++ behindDelimiter boundary parts)
      rw [htext] at hcut
      obtain ⟨text, hprefix, rfl⟩ := cutAt_delimiter_line
        (isLine_dispositionHead.append (show (13 : UInt8) ∉ _ by decide)) hcut
      rw [List.append_assoc] at hfirst
      exact quotable_name hfirst hprefix
    have hfilename : Quotable part.filename := by
      by_cases hnone : part.filename = []
      · rw [hnone]
        exact fun c hc => absurd hc List.not_mem_nil
      · obtain ⟨tail, htext⟩ := partText_filename hnone part.value
          (delimiter boundary ++ behindDelimiter boundary parts)
        rw [htext] at hcut
        have hline : IsLine (part.name ++ 34 :: str "; filename=\"") :=
          hname.isLine.append (show (13 : UInt8) ∉ _ by decide)
        obtain ⟨text, hprefix, rfl⟩ := cutAt_delimiter_line (isLine_dispositionHead.append
          (IsLine.append (show (13 : UInt8) ∉ _ by decide) hline)) hcut
        rw [List.append_assoc] at hfirst
        exact quotable_filename hname hfirst hprefix
    obtain ⟨i, hle, hfind, hcut'⟩ := cutAt_partText hname hfilename htype
      (behindDelimiter boundary parts)
    obtain ⟨rfl, rfl⟩ := Prod.mk.inj (Option.some.inj (hcut.symm.trans hcut'))
    -- the delimiter is the one behind the value, as the value that is read is whole
    have hlast : i = part.value.length + 2 := by
      rcases i with _ | _ | i
      · rw [List.take_zero, List.append_nil, formPart_headerLines hname hfilename htype] at hfirst
        cases hfirst
      · exact absurd (List.cons_prefix_cons.mp (find_eq_some_iff.mp hfind).2.1).1 (by decide)
      · have hpiece : renderLines (headerLines part) ++ (crlf ++ part.value).take (i + 2) =
            partText part (part.value.take i) := rfl
        rw [hpiece, formPart_partText hname hfilename htype, Option.some.injEq] at hfirst
        have hvalue : part.value.take i = part.value := congrArg FormPart.value hfirst
        have hlength := congrArg List.length hvalue
        rw [List.length_take] at hlength
        omega
    rw [hlast] at hfind hmore
    refine ⟨⟨hname, hfilename, (find_delimiter_iff _ _ _).mp hfind⟩, ?_⟩
    rwa [drop_behindDelimiter] at hmore
  · rintro ⟨⟨hname, hfilename, hvalue⟩, hrest⟩
    obtain ⟨i, hle, hfind, hcut⟩ := cutAt_partText hname hfilename htype
      (behindDelimiter boundary parts)
    obtain rfl : i = part.value.length + 2 :=
      Option.some.inj (hfind.symm.trans ((find_delimiter_iff _ _ _).mpr hvalue))
    have hpiece : renderLines (headerLines part) ++
        (crlf ++ part.value).take (part.value.length + 2) = partText part part.value := by
      rw [List.take_of_length_le (by simp [crlf])]
      rfl
    rw [hcut, hpiece, drop_behindDelimiter]
    simp only [Option.bind_some, formPart_partText hname hfilename htype, hrest, Option.map_some]
    rfl

end Parts

/-- Parts are read back behind a delimiter exactly if each one is readable. -/
theorem formParts_iff (boundary : Bytes) {parts : List MultipartPart}
    (htypes : ∀ part ∈ parts, IsLine part.contentType) {fuel : Nat} (hfuel : parts.length < fuel) :
    formParts boundary fuel (behindDelimiter boundary parts) =
        some (parts.map MultipartPart.formPart) ↔
      ∀ part ∈ parts, part.Readable boundary := by
  induction parts generalizing fuel with
  | nil =>
    obtain ⟨fuel, rfl⟩ := Nat.exists_eq_add_one_of_ne_zero (Nat.ne_of_gt hfuel)
    simp [behindDelimiter, formParts_close]
  | cons part parts ih =>
    obtain ⟨fuel, rfl⟩ := Nat.exists_eq_add_one_of_ne_zero (Nat.ne_of_gt (Nat.zero_lt_of_lt hfuel))
    have hrest := ih (fun p hp => htypes p (List.mem_cons_of_mem part hp))
      (Nat.lt_of_succ_lt_succ hfuel)
    rw [List.map_cons, formParts_cons_iff (htypes part List.mem_cons_self), hrest,
      List.forall_mem_cons]

/-- Each part takes room in the body, and so does the last delimiter. -/
theorem length_lt_multipartFormDataBody (parts : List MultipartPart) (boundary : Bytes) :
    parts.length < (multipartFormDataBody parts boundary).length := by
  have hbreak : crlf.length = 2 := rfl
  have hbehind : ∀ parts, parts.length + 4 ≤ (behindDelimiter boundary parts).length := by
    intro parts
    induction parts with
    | nil => exact Nat.le_refl 4
    | cons part parts ih =>
      rw [behindDelimiter]
      simp only [List.length_append, List.length_cons, hbreak]
      omega
  have hbody := congrArg List.length (multipartFormDataBody_eq parts boundary)
  have hparts := hbehind parts
  simp only [List.length_append] at hbody
  have hdelimiter : 2 ≤ (delimiter boundary).length := by
    simp [delimiter, crlf]
  omega

/-- A body is read back part by part exactly if no name and no file name needs an escape, and no
value goes on to a delimiter. -/
theorem multipart_roundTrips_iff (boundary : Bytes) (parts : List MultipartPart)
    (htypes : ∀ part ∈ parts, 13 ∉ part.contentType ∧ 10 ∉ part.contentType) :
    parseFormData boundary (multipartFormDataBody parts boundary) =
        some (parts.map MultipartPart.formPart) ↔
      ∀ part ∈ parts, part.Readable boundary := by
  rw [parseFormData, multipartFormDataBody_eq, cutAt_prefix]
  exact formParts_iff boundary (fun part hpart => (htypes part hpart).1)
    (length_lt_multipartFormDataBody parts boundary)

/-- Blank and separators in a name, and a value of two lines. -/
def plainParts : List MultipartPart :=
  [{ name := str "first name; x=1", value := str "a" ++ crlf ++ str "--b" },
    { name := str "file", value := [0, 255], filename := str "a b.txt",
      contentType := str "text/plain" }]

theorem multipart_roundTrips_plain :
    parseFormData (str "boundary-test") (multipartFormDataBody plainParts (str "boundary-test")) =
      some (plainParts.map MultipartPart.formPart) := by
  refine (multipart_roundTrips_iff _ _ (by decide)).mpr fun part hpart => ?_
  rcases List.mem_pair.mp hpart with rfl | rfl
  · exact ⟨by decide, by decide, by decide +kernel⟩
  · exact ⟨by decide, by decide, by decide +kernel⟩

/-- A quote in a name ends it, and what follows makes a file of the field. -/
theorem quoted_name_forged :
    let parts : List MultipartPart :=
      [{ name := str "user\"; filename=\"x", value := str "v" }]
    (∀ part ∈ parts, ¬ delimiter (str "B") <:+: part.value) ∧
      parseFormData (str "B") (multipartFormDataBody parts (str "B")) ≠
        some (parts.map MultipartPart.formPart) := by
  exact ⟨by decide +kernel, by decide +kernel⟩

end HttpClient.Builder
