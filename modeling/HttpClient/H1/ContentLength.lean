import HttpClient.H1.HeadParse
import Mathlib.Data.List.TakeWhile

/-!
# The number in a `Content-Length` line

The length of a body is read off the head by a scan over its lines. The scan ends on every text.
What it yields need not be what stands in the line: white space is skipped across line breaks, and
the digits are read modulo the range of `std::size_t`.

## Main definitions

* `lineLoop` — the scan with its positions, as the loops of `parse_content_length`
* `cutLines`, `firstField` — the lines of a text, and the first one with the field
* `ReadsExactly` — a number that is read stands in the line

## Main results

* `lineLoop_eq` — the scan ends, with what `contentLengthScan` yields
* `contentLengthScan_eq` — the scan, line by line
* `readsExactly_iff` — the heads whose lengths are read exactly
-/

set_option autoImplicit false

namespace HttpClient.H1

open Text

/-! ### The loops -/

/-- The position after the white space. -/
def skipSpaces (headers : Bytes) : Nat → Nat → Option Nat
  | 0, _ => none
  | fuel + 1, pos =>
    match headers[pos]? with
    | some c => if isSpace c then skipSpaces headers fuel (pos + 1) else some pos
    | none => some pos

def readDigits (headers : Bytes) : Nat → Nat → Nat → Option Nat
  | 0, _, _ => none
  | fuel + 1, len, pos =>
    match headers[pos]? with
    | some c =>
      if isDigit c then readDigits headers fuel ((len * 10 + digitValue c) % 2 ^ 64) (pos + 1)
      else some len
    | none => some len

/-- The loop over the lines; `none` if the fuel does not last. -/
def lineLoop (headers : Bytes) : Nat → Nat → Option Nat
  | 0, _ => none
  | fuel + 1, pos =>
    match find crlf (headers.drop pos) with
    | none => some 0
    | some skipped =>
      let line := pos + skipped + 2
      if headers.length < line + contentLengthName.length then some 0
      else if lowerCopy ((headers.drop line).take contentLengthName.length) =
          contentLengthName then do
        let start ← skipSpaces headers fuel (line + contentLengthName.length)
        readDigits headers fuel 0 start
      else lineLoop headers fuel line

variable {headers : Bytes} {fuel pos : Nat}

theorem drop_of_getElem? {c : UInt8} (h : headers[pos]? = some c) :
    headers.drop pos = c :: headers.drop (pos + 1) ∧ pos < headers.length := by
  obtain ⟨hlt, hc⟩ := List.getElem?_eq_some_iff.mp h
  rw [List.drop_eq_getElem_cons hlt, hc]
  exact ⟨rfl, hlt⟩

theorem skipSpaces_eq (h : headers.length - pos < fuel) :
    ∃ start, pos ≤ start ∧ skipSpaces headers fuel pos = some start ∧
      headers.drop start = (headers.drop pos).dropWhile isSpace := by
  induction fuel generalizing pos with
  | zero => exact absurd h (Nat.not_lt_zero _)
  | succ fuel ih =>
    rw [skipSpaces]
    cases hc : headers[pos]? with
    | none =>
      have hend : headers.drop pos = [] :=
        List.drop_eq_nil_iff.mpr (List.getElem?_eq_none_iff.mp hc)
      exact ⟨pos, Nat.le_refl pos, rfl, by rw [hend, List.dropWhile_nil]⟩
    | some c =>
      obtain ⟨hdrop, hlt⟩ := drop_of_getElem? hc
      dsimp only
      by_cases hspace : isSpace c = true
      · rw [if_pos hspace, hdrop, List.dropWhile_cons_of_pos hspace]
        have hleft : headers.length - (pos + 1) < fuel := by omega
        obtain ⟨start, hle, hstart, hrest⟩ := ih hleft
        exact ⟨start, by omega, hstart, hrest⟩
      · rw [if_neg hspace, hdrop, List.dropWhile_cons_of_neg hspace]
        exact ⟨pos, Nat.le_refl pos, rfl, hdrop⟩

theorem readDigits_eq (len : Nat) (h : headers.length - pos < fuel) :
    readDigits headers fuel len pos = some (digitsSize len (headers.drop pos)) := by
  induction fuel generalizing pos len with
  | zero => exact absurd h (Nat.not_lt_zero _)
  | succ fuel ih =>
    rw [readDigits]
    cases hc : headers[pos]? with
    | none =>
      have hend : headers.drop pos = [] :=
        List.drop_eq_nil_iff.mpr (List.getElem?_eq_none_iff.mp hc)
      rw [hend, digitsSize]
    | some c =>
      obtain ⟨hdrop, hlt⟩ := drop_of_getElem? hc
      dsimp only
      rw [hdrop, digitsSize]
      split
      · exact ih _ (by omega)
      · rfl

/-! ### Lines -/

/-- Put a byte before the first line. -/
def consFirst (c : UInt8) : List Bytes → List Bytes
  | [] => [[c]]
  | line :: lines => (c :: line) :: lines

/-- Cut a text at its line breaks. -/
def cutLines : List UInt8 → List Bytes
  | a :: b :: text =>
    if a = 13 ∧ b = 10 then [] :: cutLines text else consFirst a (cutLines (b :: text))
  | text => [text]

/-- Lines that follow another one, each after a line break. -/
def joinLines (lines : List Bytes) : Bytes := lines.flatMap fun line => crlf ++ line

/-- The text after the field name, if a line starts with it, in any case. -/
def fieldText (line : Bytes) : Option Bytes :=
  if lowerCopy (line.take contentLengthName.length) = contentLengthName then
    some (line.drop contentLengthName.length)
  else none

/-- The first line with the field: the text after the name, and the lines below. -/
def firstField : List Bytes → Option (Bytes × List Bytes)
  | [] => none
  | line :: lines =>
    match fieldText line with
    | some value => some (value, lines)
    | none => firstField lines

example : firstField (cutLines (str "A: b\r\nCONTENT-length: 5\r\n\r\n")) =
    some (str " 5", [[], []]) := by decide +kernel

theorem cutLines_break (text : Bytes) : cutLines (13 :: 10 :: text) = [] :: cutLines text := by
  rw [cutLines, if_pos ⟨rfl, rfl⟩]

theorem cutLines_cons {a b : UInt8} (h : ¬ (a = 13 ∧ b = 10)) (text : Bytes) :
    cutLines (a :: b :: text) = consFirst a (cutLines (b :: text)) := by
  rw [cutLines, if_neg h]

theorem exists_cutLines (text : Bytes) : ∃ line lines, cutLines text = line :: lines ∧
    text = line ++ joinLines lines := by
  induction text using cutLines.induct with
  | case1 a b text hbreak ih =>
    obtain ⟨line, lines, hcut, htext⟩ := ih
    obtain ⟨rfl, rfl⟩ := hbreak
    refine ⟨[], line :: lines, by rw [cutLines_break, hcut], ?_⟩
    rw [joinLines, List.flatMap_cons, ← joinLines, List.append_assoc, ← htext]
    rfl
  | case2 a b text hbreak ih =>
    obtain ⟨line, lines, hcut, htext⟩ := ih
    refine ⟨a :: line, lines, by rw [cutLines_cons hbreak, hcut, consFirst], ?_⟩
    rw [htext, List.cons_append]
  | case3 text hshort => exact ⟨text, [], by rw [cutLines.eq_2 text hshort], by simp [joinLines]⟩

theorem length_le_joinLines {line : Bytes} {lines : List Bytes} (h : line ∈ lines) :
    line.length ≤ (joinLines lines).length := by
  obtain ⟨before, after, rfl⟩ := List.append_of_mem h
  rw [joinLines, List.flatMap_append, List.flatMap_cons, List.length_append, List.length_append,
    List.length_append]
  omega

theorem length_le_of_mem_cutLines {text line : Bytes} (h : line ∈ cutLines text) :
    line.length ≤ text.length := by
  obtain ⟨first, lines, hcut, htext⟩ := exists_cutLines text
  rw [hcut] at h
  rw [htext, List.length_append]
  rcases List.mem_cons.mp h with rfl | hmem
  · exact Nat.le_add_right _ _
  · exact (length_le_joinLines hmem).trans (Nat.le_add_left _ _)

theorem firstField_eq_none {lines : List Bytes} (h : ∀ line ∈ lines, fieldText line = none) :
    firstField lines = none := by
  induction lines with
  | nil => rfl
  | cons line lines ih =>
    rw [firstField, h line List.mem_cons_self]
    exact ih fun other hother => h other (List.mem_cons_of_mem line hother)

/-! ### The scan, line by line -/

/-- A field name that is found lies in one line. -/
theorem length_le_of_named {line : Bytes} {lines : List Bytes}
    (h : lowerCopy ((line ++ joinLines lines).take contentLengthName.length) =
      contentLengthName) : contentLengthName.length ≤ line.length := by
  by_contra hshort
  have hlt : line.length < contentLengthName.length := Nat.lt_of_not_le hshort
  have htake : (line ++ joinLines lines).take contentLengthName.length =
      line ++ (joinLines lines).take (contentLengthName.length - line.length) := by
    rw [List.take_append, List.take_of_length_le hlt.le]
  cases lines with
  | nil =>
    have hlength := congrArg List.length h
    rw [lowerCopy_length, htake, joinLines, List.flatMap_nil, List.take_nil, List.append_nil]
      at hlength
    omega
  | cons next lines =>
    -- the byte after the line is a CR
    obtain ⟨k, hk⟩ : ∃ k, contentLengthName.length - line.length = k + 1 :=
      ⟨contentLengthName.length - line.length - 1, by omega⟩
    have hcr :
        (13 : UInt8) ∈ (line ++ joinLines (next :: lines)).take contentLengthName.length := by
      rw [htake, hk]
      exact List.mem_append_right _ List.mem_cons_self
    have hnone : (13 : UInt8) ∉ contentLengthName := by decide
    exact hnone (h ▸ List.mem_map_of_mem hcr)

theorem fieldText_append {line : Bytes} {lines : List Bytes} :
    fieldText line =
      if lowerCopy ((line ++ joinLines lines).take contentLengthName.length) =
          contentLengthName then
        some (line.drop contentLengthName.length)
      else none := by
  by_cases hlong : contentLengthName.length ≤ line.length
  · rw [fieldText, List.take_append_of_le_length hlong]
  · rw [if_neg fun h => hlong (length_le_of_named h), fieldText, if_neg]
    intro h
    have hlength := congrArg List.length h
    rw [lowerCopy_length, List.length_take] at hlength
    omega

/-- What is read from the rest of a line, and from the lines below it. -/
def numberAfter (field : Bytes × List Bytes) : Nat :=
  digitsSize 0 ((field.1 ++ joinLines field.2).dropWhile isSpace)

/-- The first line with the field decides, the first line of all apart. -/
theorem contentLengthScan_eq (text : Bytes) :
    contentLengthScan text = ((firstField (cutLines text).tail).map numberAfter).getD 0 := by
  induction text using cutLines.induct with
  | case1 a b text hbreak ih =>
    obtain ⟨rfl, rfl⟩ := hbreak
    obtain ⟨line, lines, hcut, htext⟩ := exists_cutLines text
    rw [contentLengthScan_break, cutLines_break, List.tail_cons]
    split
    · rename_i hshort
      -- no line below is long enough for the name
      have hnone : firstField (cutLines text) = none := by
        apply firstField_eq_none
        intro other hother
        rw [fieldText, if_neg]
        intro hnamed
        have hlength := congrArg List.length hnamed
        have hle := length_le_of_mem_cutLines hother
        rw [lowerCopy_length, List.length_take] at hlength
        omega
      rw [hnone]
      rfl
    · rw [ih, hcut, List.tail_cons, firstField, fieldText_append, ← htext]
      split
      · rename_i hnamed
        have hlong : contentLengthName.length ≤ line.length :=
          length_le_of_named (htext ▸ hnamed)
        rw [Option.map_some, Option.getD_some, numberAfter,
          ← List.drop_append_of_le_length hlong, ← htext]
      · rfl
  | case2 a b text hbreak ih =>
    obtain ⟨line, lines, hcut, -⟩ := exists_cutLines (b :: text)
    rw [contentLengthScan, if_neg hbreak, ih, cutLines_cons hbreak, hcut, consFirst,
      List.tail_cons, List.tail_cons]
  | case3 text hshort =>
    rw [cutLines.eq_2 text hshort, contentLengthScan.eq_2 text hshort]
    rfl

/-- The scan goes on after the first line break. -/
theorem contentLengthScan_find (text : Bytes) :
    contentLengthScan text =
      match find crlf text with
      | none => 0
      | some skipped => contentLengthScan (13 :: 10 :: text.drop (skipped + 2)) := by
  induction text using cutLines.induct with
  | case1 a b text hbreak _ =>
    obtain ⟨rfl, rfl⟩ := hbreak
    rw [find_cons_here ⟨text, rfl⟩]
    rfl
  | case2 a b text hbreak ih =>
    have hnot : ¬ crlf <+: a :: b :: text := by
      intro hpre
      obtain ⟨ha, hrest⟩ := List.cons_prefix_cons.mp hpre
      exact hbreak ⟨ha.symm, (List.cons_prefix_cons.mp hrest).1.symm⟩
    rw [contentLengthScan, if_neg hbreak, ih, find_cons_there hnot]
    cases find crlf (b :: text) with
    | none => rfl
    | some skipped => rfl
  | case3 text hshort =>
    cases text with
    | nil => rfl
    | cons a rest =>
      cases rest with
      | nil =>
        have hnot : ¬ crlf <+: [a] := fun hpre => Nat.not_succ_le_self 1 hpre.length_le
        rw [find_cons_there hnot]
        rfl
      | cons b text => exact absurd rfl (hshort a b text)

/-- The loops end, with what the scan yields. -/
theorem lineLoop_eq (h : headers.length - pos < fuel) :
    lineLoop headers fuel pos = some (contentLengthScan (headers.drop pos)) := by
  induction fuel generalizing pos with
  | zero => exact absurd h (Nat.not_lt_zero _)
  | succ fuel ih =>
    rw [lineLoop, contentLengthScan_find]
    cases hfind : find crlf (headers.drop pos) with
    | none => rfl
    | some skipped =>
      obtain ⟨-, hat, -⟩ := find_eq_some_iff.mp hfind
      have hfit : 2 ≤ ((headers.drop pos).drop skipped).length := hat.length_le
      rw [List.drop_drop, List.length_drop] at hfit
      have hdrop : (headers.drop pos).drop (skipped + 2) = headers.drop (pos + skipped + 2) := by
        rw [List.drop_drop, Nat.add_assoc]
      dsimp only
      rw [hdrop, contentLengthScan_break]
      -- the lookahead of the loop is a bound on what is left of the text
      by_cases hshort : headers.length < pos + skipped + 2 + contentLengthName.length
      · have htext : (headers.drop (pos + skipped + 2)).length < contentLengthName.length := by
          rw [List.length_drop]
          omega
        rw [if_pos hshort, if_pos htext]
      · have htext : ¬ (headers.drop (pos + skipped + 2)).length < contentLengthName.length := by
          rw [List.length_drop]
          omega
        rw [if_neg hshort, if_neg htext]
        split
        · -- the inner loops have as much fuel as the outer one
          have hleft : headers.length - (pos + skipped + 2 + contentLengthName.length) < fuel := by
            omega
          obtain ⟨start, hle, hstart, hrest⟩ := skipSpaces_eq hleft
          rw [hstart, Option.bind_eq_bind, Option.bind_some, readDigits_eq 0 (by omega), hrest,
            List.drop_drop]
        · exact ih (by omega)

/-! ### What is read -/

/-- The digits that follow the white space. -/
def leadingDigits (text : Bytes) : Bytes := (text.dropWhile isSpace).takeWhile isDigit

/-- A number that is read is the one that stands in the line. -/
def ReadsExactly (headers : Bytes) : Prop :=
  parseContentLength headers ≠ 0 →
    ∃ field, firstField (cutLines headers).tail = some field ∧
      parseContentLength headers = decimalNumeral (leadingDigits field.1)

instance (headers : Bytes) : Decidable (ReadsExactly headers) :=
  decidable_of_iff (parseContentLength headers ≠ 0 →
      (firstField (cutLines headers).tail).any fun field =>
        decide (parseContentLength headers = decimalNumeral (leadingDigits field.1)))
    (by simp only [ReadsExactly, Option.any_eq_true, decide_eq_true_eq])

/-- The number of a line fits, or is read as zero. Where the line is blank, the number below it is
read as zero. -/
def FieldFits (field : Bytes × List Bytes) : Prop :=
  if field.1.all isSpace then 2 ^ 64 ∣ decimalNumeral (leadingDigits (joinLines field.2))
  else decimalNumeral (leadingDigits field.1) < 2 ^ 64 ∨
    2 ^ 64 ∣ decimalNumeral (leadingDigits field.1)

/-- The first field, if there is one, fits. -/
def FitsSize (headers : Bytes) : Prop :=
  ∀ field, firstField (cutLines headers).tail = some field → FieldFits field

theorem digitsSize_eq (text : Bytes) :
    digitsSize 0 text = decimalNumeral (text.takeWhile isDigit) % 2 ^ 64 := by
  have hdigits : (text.takeWhile isDigit).all isDigit := List.all_takeWhile
  have hrest : ∀ c cs, text.dropWhile isDigit = c :: cs → isDigit c = false := by
    intro c cs hcons
    have hhead := List.head?_dropWhile_not isDigit text
    rw [hcons] at hhead
    simpa using hhead
  conv_lhs => rw [← List.takeWhile_append_dropWhile (p := isDigit) (l := text)]
  rw [digitsSize_append 0 hdigits hrest, digitsSize_numeral hdigits]

theorem numberAfter_eq (field : Bytes × List Bytes) :
    numberAfter field =
      decimalNumeral (leadingDigits (field.1 ++ joinLines field.2)) % 2 ^ 64 :=
  digitsSize_eq _

/-- A blank line does not end the white space. -/
theorem leadingDigits_of_blank {value : Bytes} (h : value.all isSpace = true) (text : Bytes) :
    leadingDigits (value ++ text) = leadingDigits text := by
  rw [leadingDigits, List.dropWhile_append_of_pos (List.all_eq_true.mp h), leadingDigits]

theorem takeWhile_joinLines (lines : List Bytes) : (joinLines lines).takeWhile isDigit = [] := by
  cases lines with
  | nil => rfl
  | cons line lines => rfl

/-- Digits in the line are not continued below it. -/
theorem leadingDigits_of_not_blank {value : Bytes} (h : ¬ value.all isSpace = true)
    (lines : List Bytes) : leadingDigits (value ++ joinLines lines) = leadingDigits value := by
  have hne : (value.dropWhile isSpace).isEmpty = false := by
    rw [List.isEmpty_eq_false_iff]
    intro hempty
    exact h (List.all_eq_true.mpr (List.dropWhile_eq_nil_iff.mp hempty))
  rw [leadingDigits, leadingDigits, List.dropWhile_append, hne, if_neg Bool.false_ne_true,
    List.takeWhile_append, takeWhile_joinLines, List.append_nil]
  split
  · rename_i hall
    exact (List.takeWhile_prefix isDigit |>.eq_of_length hall).symm
  · rfl

/-- A blank line has no number. -/
theorem leadingDigits_eq_nil {value : Bytes} (h : value.all isSpace = true) :
    leadingDigits value = [] := by
  have hnone := leadingDigits_of_blank h []
  rw [List.append_nil] at hnone
  exact hnone

/-- What is read modulo `size` is exact if the number fits or is read as zero. -/
theorem mod_exact_iff {number size : Nat} (hsize : 0 < size) :
    (number % size ≠ 0 → number % size = number) ↔ number < size ∨ size ∣ number := by
  constructor
  · intro h
    by_cases hzero : number % size = 0
    · exact Or.inr (Nat.dvd_of_mod_eq_zero hzero)
    · exact Or.inl (h hzero ▸ Nat.mod_lt number hsize)
  · rintro (hfits | hdvd) hread
    · exact Nat.mod_eq_of_lt hfits
    · exact absurd (Nat.mod_eq_zero_of_dvd hdvd) hread

theorem fieldFits_iff (field : Bytes × List Bytes) :
    (numberAfter field ≠ 0 → numberAfter field = decimalNumeral (leadingDigits field.1)) ↔
      FieldFits field := by
  rw [numberAfter_eq, FieldFits]
  by_cases hblank : field.1.all isSpace = true
  · -- what is read is not in the line, which has no number
    rw [if_pos hblank, leadingDigits_of_blank hblank, leadingDigits_eq_nil hblank,
      Nat.dvd_iff_mod_eq_zero]
    exact Decidable.not_imp_self
  · rw [if_neg hblank, leadingDigits_of_not_blank hblank]
    exact mod_exact_iff (Nat.two_pow_pos 64)

/-- The scan ends on every text. What it reads stands in the line if and only if the line has a
number that fits, or one that is read as zero. -/
theorem readsExactly_iff (headers : Bytes) :
    (∃ fuel, lineLoop headers fuel 0 = some (parseContentLength headers)) ∧
      (ReadsExactly headers ↔ FitsSize headers) := by
  constructor
  · exact ⟨headers.length + 1, lineLoop_eq (Nat.lt_succ_self _)⟩
  · rw [ReadsExactly, FitsSize, parseContentLength, contentLengthScan_eq]
    cases firstField (cutLines headers).tail with
    | none => exact iff_of_true (fun h => absurd rfl h) fun field h => by cases h
    | some field =>
      simp only [Option.map_some, Option.getD_some, Option.some.injEq, exists_eq_left', forall_eq']
      exact fieldFits_iff field

/-- The response of a server with a body of `2 ^ 64 + 5` bytes. -/
def overlongHead : Bytes :=
  str "HTTP/1.1 200 OK\r\nContent-Length: 18446744073709551621\r\n\r\n"

/-- A response without a length, and with a number in the line below. -/
def blankHead : Bytes := str "HTTP/1.1 200 OK\r\nContent-Length:\r\n200: x\r\n\r\n"

/-- The length of the one is read as 5, and that of the other as 200. -/
theorem contentLength_misread :
    (parseContentLength overlongHead = 5 ∧ ¬ ReadsExactly overlongHead) ∧
      parseContentLength blankHead = 200 ∧ ¬ ReadsExactly blankHead := by
  rw [overlongHead, blankHead, str_ofList, str_ofList]
  decide +kernel

end HttpClient.H1
