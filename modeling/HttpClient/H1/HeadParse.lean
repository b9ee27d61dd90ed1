import HttpClient.H1.Exchange
import HttpClient.H1.Message

/-!
# Reading a well-formed head

What the client's head parsers yield on the bytes of a well-formed head: the
status code, and the number in the first `Content-Length` field reduced to the
range of `std::size_t`, or zero if there is no such field.

## Main results

* `parseStatusCode_render` — the status code is read back
* `parseContentLength_render` — the first `Content-Length` field decides
* `digitsSize_numeral` — a numeral is read modulo `2 ^ 64`
-/

set_option autoImplicit false

namespace HttpClient.H1

open Text

/-! ### The status code -/

theorem digitValue_toUInt8 {d : Nat} (h : d < 10) : digitValue (48 + d).toUInt8 = d := by
  revert d
  decide

theorem isDigit_toUInt8 {d : Nat} (h : d < 10) : isDigit (48 + d).toUInt8 = true := by
  revert d
  decide

theorem findByte_version (text : Bytes) : findByte 32 (str "HTTP/1.1 " ++ text) = some 8 := by
  have hversion : str "HTTP/1.1 " = [72, 84, 84, 80, 47, 49, 46, 49, 32] := by decide
  simp [hversion, findByte]

theorem foldl_statusDigits {status : Nat} (h : status < 1000) :
    (statusDigits status).foldl (fun status c => status * 10 + digitValue c) 0 = status := by
  have hhundreds : status / 100 < 10 := by omega
  have htens : status / 10 % 10 < 10 := by omega
  have hones : status % 10 < 10 := by omega
  simp only [statusDigits, List.foldl_cons, List.foldl_nil, digitValue_toUInt8 hhundreds,
    digitValue_toUInt8 htens, digitValue_toUInt8 hones]
  omega

theorem all_isDigit_statusDigits {status : Nat} (h : status < 1000) :
    (statusDigits status).all isDigit = true := by
  have hhundreds : status / 100 < 10 := by omega
  have htens : status / 10 % 10 < 10 := by omega
  have hones : status % 10 < 10 := by omega
  simp only [statusDigits, List.all_cons, List.all_nil, isDigit_toUInt8 hhundreds,
    isDigit_toUInt8 htens, isDigit_toUInt8 hones, Bool.and_self]

theorem parseStatusCode_render (head : Head) : parseStatusCode head.render = head.status := by
  have hshape : head.render = str "HTTP/1.1 " ++ (statusDigits head.status ++
      (32 :: head.reason ++ 13 :: 10 :: (renderLines (head.fields.map FieldLine.line) ++
        crlf))) := by
    simp [Head.render, Head.lines, Head.statusLine]
  have hdigits : ((head.render).drop (8 + 1)).take 3 = statusDigits head.status := by
    have hversion : (str "HTTP/1.1 ").length = 8 + 1 := by decide
    rw [hshape, ← hversion, List.drop_left]
    rfl
  have hlen := head.length_render_ge
  have hspace : findByte 32 head.render = some 8 := by
    rw [hshape]
    exact findByte_version _
  simp only [parseStatusCode, hspace, hdigits, all_isDigit_statusDigits head.status_lt,
    foldl_statusDigits head.status_lt, if_true]
  rw [if_neg (by omega)]

/-! ### The content length -/

/-- Digits are read up to the first other byte. -/
theorem digitsSize_append {digits rest : Bytes} (len : Nat) (hdigits : digits.all isDigit)
    (hrest : ∀ c cs, rest = c :: cs → isDigit c = false) :
    digitsSize len (digits ++ rest) = digitsSize len digits := by
  induction digits generalizing len with
  | nil =>
    cases rest with
    | nil => rfl
    | cons c cs => simp [digitsSize, hrest c cs rfl]
  | cons c cs ih =>
    simp only [List.all_cons, Bool.and_eq_true] at hdigits
    simp only [List.cons_append, digitsSize, hdigits.1, if_true]
    exact ih _ hdigits.2

/-- Reducing the start of a decimal fold does not change its residue. -/
theorem foldl_digits_mod (n : Nat) (digits : Bytes) :
    digits.foldl (fun n c => n * 10 + digitValue c) (n % 2 ^ 64) % 2 ^ 64 =
      digits.foldl (fun n c => n * 10 + digitValue c) n % 2 ^ 64 := by
  induction digits generalizing n with
  | nil => simp
  | cons c cs ih =>
    -- the next digit does not tell `n` from its residue
    have hstep : (n % 2 ^ 64 * 10 + digitValue c) % 2 ^ 64 =
        (n * 10 + digitValue c) % 2 ^ 64 := by omega
    rw [List.foldl_cons, List.foldl_cons, ← ih, hstep, ih]

theorem digitsSize_mod (len : Nat) {digits : Bytes} (hdigits : digits.all isDigit)
    (hne : digits ≠ []) :
    digitsSize len digits = digits.foldl (fun n c => n * 10 + digitValue c) len % 2 ^ 64 := by
  induction digits generalizing len with
  | nil => exact absurd rfl hne
  | cons c cs ih =>
    simp only [List.all_cons, Bool.and_eq_true] at hdigits
    simp only [digitsSize, hdigits.1, if_true, List.foldl_cons]
    cases cs with
    | nil => rfl
    | cons d ds =>
      rw [ih _ hdigits.2 (List.cons_ne_nil d ds)]
      exact foldl_digits_mod _ _

/-- A numeral is read modulo the range of `std::size_t`. -/
theorem digitsSize_numeral {digits : Bytes} (hdigits : digits.all isDigit) :
    digitsSize 0 digits = decimalNumeral digits % 2 ^ 64 := by
  rcases eq_or_ne digits [] with rfl | hne
  · rfl
  · exact digitsSize_mod 0 hdigits hne

/-! ### The scan for the field -/

/-- The scan skips the characters of a line. -/
theorem contentLengthScan_append {line : Bytes} (h : IsLine line) (text : Bytes) :
    contentLengthScan (line ++ 13 :: 10 :: text) = contentLengthScan (13 :: 10 :: text) := by
  induction line with
  | nil => rfl
  | cons c cs ih =>
    obtain ⟨d, ds, hcons⟩ : ∃ d ds, cs ++ 13 :: 10 :: text = d :: ds := by
      cases cs with
      | nil => exact ⟨13, 10 :: text, rfl⟩
      | cons d ds => exact ⟨d, ds ++ 13 :: 10 :: text, rfl⟩
    have hc : ¬ (c = 13 ∧ d = 10) := fun hbreak => h.head_ne hbreak.1
    rw [List.cons_append, hcons, contentLengthScan, if_neg hc, ← hcons, ih h.tail]

/-- What the scan does with the text after a line break. -/
theorem contentLengthScan_break (text : Bytes) :
    contentLengthScan (13 :: 10 :: text) =
      if text.length < contentLengthName.length then 0
      else if lowerCopy (text.take contentLengthName.length) = contentLengthName then
        digitsSize 0 ((text.drop contentLengthName.length).dropWhile isSpace)
      else contentLengthScan text := by
  rw [contentLengthScan, if_pos ⟨rfl, rfl⟩]

theorem IsFieldName.colon_notMem {name : Bytes} (h : IsFieldName name) :
    (58 : UInt8) ∉ lowerCopy name :=
  not_mem_lowerCopy (by decide) fun hmem => (h.2 58 hmem).1 rfl

theorem contentLengthName_eq : contentLengthName = contentLengthField ++ [58] := by decide

/-- A line starts with the field name exactly if the line's field has that name. -/
theorem lower_take_line (field : FieldLine) (text : Bytes) :
    lowerCopy ((field.line ++ text).take contentLengthName.length) = contentLengthName ↔
      field.Named contentLengthField := by
  have hlower : lowerCopy contentLengthField = contentLengthField := by decide
  have hcolon : (58 : UInt8) ∉ contentLengthField := by decide
  have hsplit : lowerCopy (field.line ++ text) = lowerCopy field.name ++
      58 :: lowerCopy (field.leading ++ field.value ++ field.trailing ++ text) := by
    simp [FieldLine.line, lowerCopy, show lower 58 = 58 from rfl]
  rw [FieldLine.Named, hlower]
  constructor
  · intro h
    have hpre : contentLengthName <+: lowerCopy (field.line ++ text) := by
      rw [← h, lowerCopy, lowerCopy]
      exact (List.take_prefix _ _).map lower
    obtain ⟨rest, hrest⟩ := hpre
    rw [hsplit, contentLengthName_eq, List.append_assoc] at hrest
    exact (append_cons_inj hcolon field.name_isFieldName.colon_notMem hrest).1.symm
  · intro h
    have hlen : contentLengthName.length = (field.name ++ [58]).length := by
      rw [contentLengthName_eq, List.length_append, List.length_append, ← h, lowerCopy_length]
    have hline : field.line ++ text = (field.name ++ [58]) ++
        (field.leading ++ field.value ++ field.trailing ++ text) := by
      simp [FieldLine.line]
    rw [hline, List.take_left' hlen.symm, contentLengthName_eq, ← h, lowerCopy,
      List.map_append]
    rfl

theorem FieldLine.length_of_named {field : FieldLine} (h : field.Named contentLengthField) :
    contentLengthName.length ≤ field.line.length := by
  have hname : field.name.length = (lowerCopy contentLengthField).length := by
    rw [← lowerCopy_length field.name, h]
  have hlower : (lowerCopy contentLengthField).length = 14 := by decide
  have htotal : contentLengthName.length = 15 := by decide
  simp only [FieldLine.line, List.length_append, List.length_cons]
  omega

theorem length_le_renderLines {line : Bytes} {lines : List Bytes} (h : line ∈ lines) :
    line.length ≤ (renderLines lines).length := by
  induction lines with
  | nil => exact absurd h List.not_mem_nil
  | cons l lines ih =>
    simp only [renderLines_cons, List.length_append, List.length_cons]
    rcases List.mem_cons.mp h with rfl | h
    · omega
    · have := ih h
      omega

/-- The number read from the rest of a `Content-Length` line. -/
theorem digitsSize_fieldValue {field : FieldLine} (hne : field.value ≠ [])
    (hdigits : field.value.all isDigit) (text : Bytes) :
    digitsSize 0 ((field.leading ++ field.value ++ field.trailing ++
      13 :: 10 :: text).dropWhile isSpace) = decimalNumeral field.value % 2 ^ 64 := by
  obtain ⟨c, cs, hvalue⟩ := List.exists_cons_of_ne_nil hne
  have hskip : (field.leading ++ field.value ++ field.trailing ++
      13 :: 10 :: text).dropWhile isSpace = field.value ++ (field.trailing ++
        13 :: 10 :: text) := by
    have hleading : ∀ d ∈ field.leading, isSpace d = true := by
      intro d hd
      rcases field.leading_isOws d hd with rfl | rfl <;> rfl
    have hc : isSpace c = false := by
      rw [hvalue, List.all_cons, Bool.and_eq_true] at hdigits
      exact isSpace_eq_false_of_isDigit hdigits.1
    rw [List.append_assoc, List.append_assoc, List.dropWhile_append_of_pos hleading,
      hvalue, List.cons_append, List.dropWhile_cons_of_neg (by simp [hc])]
  have hrest : ∀ d ds, field.trailing ++ 13 :: 10 :: text = d :: ds → isDigit d = false := by
    intro d ds hcons
    cases htrailing : field.trailing with
    | nil =>
      rw [htrailing, List.nil_append, List.cons.injEq] at hcons
      rw [← hcons.1]
      rfl
    | cons e es =>
      rw [htrailing, List.cons_append, List.cons.injEq] at hcons
      have he := field.trailing_isOws e (htrailing ▸ List.mem_cons_self)
      rw [← hcons.1]
      rcases he with rfl | rfl <;> rfl
  rw [hskip, digitsSize_append 0 hdigits hrest, digitsSize_numeral hdigits]

/-- The first `Content-Length` field decides what is read from the fields of a head. -/
theorem contentLengthScan_fields {fields : List FieldLine}
    (hvalues : ∀ field ∈ fields, field.Named contentLengthField →
      field.value ≠ [] ∧ field.value.all isDigit) :
    contentLengthScan (13 :: 10 :: (renderLines (fields.map FieldLine.line) ++ crlf)) =
      match fields.find? fun field => field.Named contentLengthField with
      | none => 0
      | some field => decimalNumeral field.value % 2 ^ 64 := by
  induction fields with
  | nil => rfl
  | cons field fields ih =>
    have hrest := ih fun f hf => hvalues f (List.mem_cons_of_mem field hf)
    rw [contentLengthScan_break]
    have htext : renderLines ((field :: fields).map FieldLine.line) ++ crlf =
        field.line ++ 13 :: 10 :: (renderLines (fields.map FieldLine.line) ++ crlf) := by
      simp
    split_ifs with hshort hnamed
    · -- Too short for the name: no field below can have it either.
      have hnone : (field :: fields).find? (fun f => f.Named contentLengthField) = none := by
        rw [List.find?_eq_none]
        intro f hf hname
        have hline := FieldLine.length_of_named (of_decide_eq_true hname)
        have hall := length_le_renderLines (List.mem_map_of_mem (f := FieldLine.line) hf)
        rw [List.length_append] at hshort
        omega
      rw [hnone]
    · rw [htext, lower_take_line] at hnamed
      have hlen : contentLengthName.length = (field.name ++ [58]).length := by
        rw [contentLengthName_eq, List.length_append, List.length_append,
          ← lowerCopy_length field.name, hnamed, lowerCopy_length]
      have hline : field.line ++ 13 :: 10 :: (renderLines (fields.map FieldLine.line) ++ crlf) =
          (field.name ++ [58]) ++ (field.leading ++ field.value ++ field.trailing ++
            13 :: 10 :: (renderLines (fields.map FieldLine.line) ++ crlf)) := by
        simp [FieldLine.line]
      obtain ⟨hne, hdigits⟩ := hvalues field List.mem_cons_self hnamed
      rw [htext, hline, List.drop_left' hlen.symm, digitsSize_fieldValue hne hdigits,
        List.find?_cons_of_pos (by simpa using hnamed)]
    · rw [htext, lower_take_line] at hnamed
      rw [htext, contentLengthScan_append field.line_isText.isLine, hrest,
        List.find?_cons_of_neg (by simpa using hnamed)]

/-- The content length read from a head whose `Content-Length` fields are numerals. -/
theorem parseContentLength_render {head : Head}
    (hvalues : ∀ field ∈ head.named contentLengthField,
      field.value ≠ [] ∧ field.value.all isDigit) :
    parseContentLength head.render =
      match head.named contentLengthField with
      | [] => 0
      | field :: _ => decimalNumeral field.value % 2 ^ 64 := by
  have hscan : contentLengthScan (13 :: 10 :: (renderLines (head.fields.map FieldLine.line) ++
      crlf)) = _ := contentLengthScan_fields fun field hfield hnamed =>
    hvalues field (List.mem_filter.mpr ⟨hfield, decide_eq_true hnamed⟩)
  have hshape : head.render = head.statusLine ++ 13 :: 10 ::
      (renderLines (head.fields.map FieldLine.line) ++ crlf) := by
    simp [Head.render, Head.lines]
  rw [parseContentLength, hshape, contentLengthScan_append head.statusLine_isText.isLine, hscan,
    Head.named, ← List.head?_filter]
  cases head.fields.filter fun field => field.Named contentLengthField with
  | nil => rfl
  | cons field fields => rfl

end HttpClient.H1
