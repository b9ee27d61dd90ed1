import HttpClient.Text.Delimiters
import HttpClient.Text.Lines

/-!
# Reading multipart form data

A multipart text is cut at its delimiters, the line break and `--` before the boundary; the
first one may open the text. Each piece is a block of header lines, a blank line and a value.
The name of a field is a parameter of the header `Content-Disposition`, in quotes: inside them
a backslash takes away the meaning of the next byte, and no CR may stand there.

A piece is not looked at before it is cut off. So a delimiter ends a piece wherever it stands,
also where its line break is the one of the blank line.

## Main definitions

* `cutAt` — a text around the first occurrence of another one
* `quotedString`, `parameters`, `formPart` — the parts of a piece
* `parseFormData` — the pieces of a text

## Main results

* `quotedString_eq_some_iff`, `Quoted.quotable_of_prefix` — what is read from between quotes
* `formPart_lines`, `formPart_first` — what is read of a piece
* `find_delimiter_iff`, `delimited_iff` — where a delimiter behind a value is found
-/

set_option autoImplicit false

namespace HttpClient.Text

/-- The text before the first occurrence of `pat`, and the text behind it. -/
def cutAt (pat text : Bytes) : Option (Bytes × Bytes) :=
  (find pat text).map fun i => (text.take i, text.drop (i + pat.length))

/-- The text up to the closing quote, and the text behind that; `escaped` if a backslash went
before. -/
def quotedText : Bool → Bytes → Option (Bytes × Bytes)
  | _, [] => none
  | escaped, c :: rest =>
    if escaped then (quotedText false rest).map fun (text, after) => (c :: text, after)
    else if c = 34 then some ([], rest)
    else if c = 92 then quotedText true rest
    else if c = 13 then none
    else (quotedText false rest).map fun (text, after) => (c :: text, after)

def quotedString (text : Bytes) : Option (Bytes × Bytes) := quotedText false text

/-- Put a byte in front of the first line; a CR in front of a LF ends a line. -/
def consLine (c : UInt8) : List Bytes → List Bytes
  | [] => [[c]]
  | line :: lines =>
    if c = 13 ∧ line.head? = some 10 then [] :: line.tail :: lines else (c :: line) :: lines

/-- The lines of a text. -/
def crlfLines (text : Bytes) : List Bytes := text.foldr consLine [[]]

/-- One blank after the colon is not part of a value. -/
def dropBlank (value : Bytes) : Bytes := if value.head? = some 32 then value.tail else value

/-- The value of the first header with this name, given in lower case. -/
def pieceHeader (name : Bytes) (lines : List Bytes) : Option Bytes :=
  lines.findSome? fun line =>
    (cutAt (str ":") line).bind fun (field, value) =>
      if lowerCopy field = name then some (dropBlank value) else none

def skipBlanks (text : Bytes) : Bytes := text.dropWhile fun c => c == 32 || c == 9

/-- Parameters, each after a semicolon: a key and a quoted value. -/
def parameters : Nat → Bytes → Option (List (Bytes × Bytes))
  | 0, _ => none
  | fuel + 1, text =>
    match skipBlanks text with
    | [] => some []
    | c :: rest =>
      if c = 59 then do
        let (key, quoted) ← cutAt (str "=\"") (skipBlanks rest)
        let (value, rest) ← quotedString quoted
        let more ← parameters fuel rest
        return (lowerCopy key, value) :: more
      else none

def dispositionParameters (disposition : Bytes) : Option (List (Bytes × Bytes)) :=
  if lowerCopy (disposition.take 9) = str "form-data" then
    parameters disposition.length (disposition.drop 9)
  else none

structure FormPart where
  name : Bytes
  filename : Bytes := []
  contentType : Bytes := []
  value : Bytes
  deriving DecidableEq, Repr

/-- A piece: headers, a blank line and the value. -/
def formPart (piece : Bytes) : Option FormPart := do
  let (block, value) ← cutAt blankLine piece
  let disposition ← pieceHeader (str "content-disposition") (crlfLines block)
  let found ← dispositionParameters disposition
  let name ← found.lookup (str "name")
  return {
    name
    filename := (found.lookup (str "filename")).getD []
    contentType := (pieceHeader (str "content-type") (crlfLines block)).getD []
    value }

def delimiter (boundary : Bytes) : Bytes := crlf ++ str "--" ++ boundary

/-- The pieces behind a delimiter, up to the one that closes the text. -/
def formParts (boundary : Bytes) : Nat → Bytes → Option (List FormPart)
  | 0, _ => none
  | fuel + 1, text =>
    if str "--" <+: text then
      let epilogue := skipBlanks (text.drop 2)
      if epilogue = [] ∨ crlf <+: epilogue then some [] else none
    else if crlf <+: skipBlanks text then do
      let (piece, rest) ← cutAt (delimiter boundary) ((skipBlanks text).drop 2)
      let part ← formPart piece
      let parts ← formParts boundary fuel rest
      return part :: parts
    else none

/-- The parts of a text; what stands before the first delimiter is not one. -/
def parseFormData (boundary text : Bytes) : Option (List FormPart) := do
  let (_, rest) ← cutAt (delimiter boundary) (crlf ++ text)
  formParts boundary text.length rest

/-! ### Cutting -/

section Cutting

variable {pat x y text : Bytes}

theorem cutAt_of_find {i : Nat} (h : find pat text = some i) :
    cutAt pat text = some (text.take i, text.drop (i + pat.length)) := by
  rw [cutAt, h, Option.map_some]

theorem cutAt_eq_some {before after : Bytes} (h : cutAt pat text = some (before, after)) :
    ∃ i, find pat text = some i ∧ before = text.take i := by
  obtain ⟨i, hfind, hcut⟩ := Option.map_eq_some_iff.mp h
  exact ⟨i, hfind, (Prod.mk.inj hcut).1.symm⟩

/-- A part without the first byte of the pattern is passed over. -/
theorem cutAt_append {c : UInt8} (h : c ∉ x) (y : Bytes) :
    cutAt (c :: pat) (x ++ y) = (cutAt (c :: pat) y).map fun (before, after) =>
      (x ++ before, after) := by
  rw [cutAt, cutAt, find_append h]
  cases find (c :: pat) y with
  | none => rfl
  | some i =>
    simp only [Option.map_some, Option.some.injEq, Prod.mk.injEq]
    constructor
    · rw [Nat.add_comm, List.take_length_add_append]
    · rw [show i + x.length + (c :: pat).length = x.length + (i + (c :: pat).length) by omega,
        List.drop_length_add_append]

theorem cutAt_prefix (pat y : Bytes) : cutAt pat (pat ++ y) = some ([], y) := by
  have hhere : find pat (pat ++ y) = some 0 := by
    rw [find_eq_some_iff]
    simp
  rw [cutAt_of_find hhere, List.take_zero, Nat.zero_add, List.drop_left]

end Cutting

/-! ### Quotes -/

/-- What stands between quotes as it is: no quote, no backslash and no CR. -/
def Quotable (text : Bytes) : Prop := ∀ c ∈ text, c ≠ 34 ∧ c ≠ 92 ∧ c ≠ 13

instance (text : Bytes) : Decidable (Quotable text) :=
  List.decidableBAll (fun c : UInt8 => c ≠ 34 ∧ c ≠ 92 ∧ c ≠ 13) text

section Quotes

variable {text after y : Bytes}

theorem Quotable.head {c : UInt8} (h : Quotable (c :: text)) : c ≠ 34 ∧ c ≠ 92 ∧ c ≠ 13 :=
  h c List.mem_cons_self

theorem Quotable.tail {c : UInt8} (h : Quotable (c :: text)) : Quotable text :=
  fun d hd => h d (List.mem_cons_of_mem c hd)

theorem Quotable.isLine (h : Quotable text) : IsLine text := fun hmem => (h 13 hmem).2.2 rfl

/-- What stands between quotes, and the text it is read as. -/
inductive Quoted : Bytes → Bytes → Prop where
  | nil : Quoted [] []
  | plain {c : UInt8} {raw text : Bytes} (hc : c ≠ 34 ∧ c ≠ 92 ∧ c ≠ 13) (h : Quoted raw text) :
      Quoted (c :: raw) (c :: text)
  | escape {c : UInt8} {raw text : Bytes} (h : Quoted raw text) :
      Quoted (92 :: c :: raw) (c :: text)

theorem quotedString_quote (y : Bytes) : quotedString (34 :: y) = some ([], y) := by
  rw [quotedString, quotedText, if_neg (by decide), if_pos rfl]

theorem quotedString_escape (c : UInt8) (y : Bytes) :
    quotedString (92 :: c :: y) =
      (quotedString y).map fun (text, after) => (c :: text, after) := by
  rw [quotedString, quotedText, if_neg (by decide), if_neg (by decide), if_pos rfl, quotedText,
    if_pos rfl, quotedString]

theorem quotedString_cons {c : UInt8} (hc : c ≠ 34 ∧ c ≠ 92 ∧ c ≠ 13) (y : Bytes) :
    quotedString (c :: y) = (quotedString y).map fun (text, after) => (c :: text, after) := by
  rw [quotedString, quotedText, if_neg (by decide), if_neg hc.1, if_neg hc.2.1, if_neg hc.2.2,
    quotedString]

theorem Quoted.quotedString {raw : Bytes} (h : Quoted raw text) (y : Bytes) :
    quotedString (raw ++ 34 :: y) = some (text, y) := by
  induction h with
  | nil => exact quotedString_quote y
  | plain hc _ ih => rw [List.cons_append, quotedString_cons hc, ih, Option.map_some]
  | escape _ ih =>
    rw [List.cons_append, List.cons_append, quotedString_escape, ih, Option.map_some]

theorem exists_quoted {t : Bytes} (h : quotedText false t = some (text, after)) :
    ∃ raw, Quoted raw text ∧ t = raw ++ 34 :: after := by
  induction hlength : t.length using Nat.strong_induction_on generalizing t text with
  | _ n ih =>
    cases t with
    | nil => cases h
    | cons c rest =>
      rw [quotedText, if_neg (by decide)] at h
      split at h
      · rename_i hc
        cases h
        exact ⟨[], .nil, by rw [hc, List.nil_append]⟩
      split at h
      · rename_i hc
        cases rest with
        | nil => cases h
        | cons d rest =>
          rw [quotedText, if_pos rfl] at h
          obtain ⟨⟨read, left⟩, hread, heq⟩ := Option.map_eq_some_iff.mp h
          cases heq
          obtain ⟨raw, hraw, rfl⟩ := ih rest.length (by simp at hlength; omega) hread rfl
          exact ⟨92 :: d :: raw, .escape hraw, by rw [hc, List.cons_append, List.cons_append]⟩
      split at h
      · cases h
      · rename_i hquote hslash hbreak
        obtain ⟨⟨read, left⟩, hread, heq⟩ := Option.map_eq_some_iff.mp h
        cases heq
        obtain ⟨raw, hraw, rfl⟩ := ih rest.length (by simp at hlength; omega) hread rfl
        exact ⟨c :: raw, .plain ⟨hquote, hslash, hbreak⟩ hraw, by rw [List.cons_append]⟩

theorem quotedString_eq_some_iff {t : Bytes} :
    quotedString t = some (text, after) ↔ ∃ raw, Quoted raw text ∧ t = raw ++ 34 :: after := by
  constructor
  · exact exists_quoted
  · rintro ⟨raw, hraw, rfl⟩
    exact hraw.quotedString after

theorem Quotable.quoted (h : Quotable text) : Quoted text text := by
  induction text with
  | nil => exact .nil
  | cons c text ih => exact .plain h.head (ih h.tail)

theorem replicate_append_cons (j : Nat) (a : UInt8) (t : Bytes) :
    List.replicate j a ++ a :: t = List.replicate (j + 1) a ++ t := by
  rw [List.replicate_succ', List.append_assoc, List.singleton_append]

/-- If a text and its quoted form go on alike, with `j` backslashes in front of the text, then
there are none, and the text is plain: an escape is one backslash more to be made up for. -/
theorem Quoted.quotable {raw : Bytes} (j : Nat) (h : Quoted raw (List.replicate j 92 ++ text))
    (heq : text ++ 34 :: y = raw ++ 34 :: after) : j = 0 ∧ Quotable text := by
  generalize hread : List.replicate j 92 ++ text = read at h
  induction h generalizing j text with
  | nil =>
    obtain ⟨hnone, rfl⟩ := List.append_eq_nil_iff.mp hread
    exact ⟨(List.replicate_eq_nil_iff _).mp hnone, fun c hc => absurd hc List.not_mem_nil⟩
  | @plain c raw read hc _ ih =>
    cases j with
    | zero =>
      obtain rfl : text = c :: read := hread
      obtain ⟨-, hplain⟩ := ih 0 (List.cons.inj heq).2 rfl
      refine ⟨rfl, fun d hd => ?_⟩
      rcases List.mem_cons.mp hd with rfl | hd
      · exact hc
      · exact hplain d hd
    | succ j => exact absurd (List.cons.inj hread).1.symm hc.2.1
  | @escape c raw read _ ih =>
    cases text with
    | nil => exact absurd (List.cons.inj heq).1 (by decide)
    | cons d text =>
      obtain ⟨rfl, hrest⟩ := List.cons.inj heq
      rw [replicate_append_cons, List.replicate_succ, List.cons_append] at hread
      obtain ⟨rfl, rfl⟩ := List.cons.inj hread
      cases text with
      | nil => exact absurd (List.cons.inj hrest).1 (by decide)
      | cons d text =>
        obtain ⟨rfl, hmore⟩ := List.cons.inj hrest
        obtain ⟨hnone, -⟩ := ih (j + 1) hmore (replicate_append_cons j 92 text).symm
        exact absurd hnone (Nat.succ_ne_zero j)

/-- A text that is read from between quotes as itself is plain. -/
theorem Quoted.quotable_of_prefix {raw : Bytes} (h : Quoted raw text)
    (hpre : raw ++ 34 :: after <+: text ++ 34 :: y) : Quotable text := by
  obtain ⟨tail, htail⟩ := hpre
  rw [List.append_assoc, List.cons_append] at htail
  exact (Quoted.quotable 0 h htail.symm).2

end Quotes

/-! ### Lines -/

section Lines

variable {line text : Bytes}

theorem crlfLines_ne_nil (text : Bytes) : crlfLines text ≠ [] := by
  cases text with
  | nil => exact List.cons_ne_nil _ _
  | cons c text =>
    rw [crlfLines, List.foldr_cons, consLine.eq_def]
    split
    · exact List.cons_ne_nil _ _
    · split
      · exact List.cons_ne_nil _ _
      · exact List.cons_ne_nil _ _

/-- The first line is a part of the text, and a text without CR goes in front of it. -/
theorem crlfLines_append (h : IsLine line) (text : Bytes) :
    ∃ first lines, crlfLines text = first :: lines ∧
      crlfLines (line ++ text) = (line ++ first) :: lines := by
  obtain ⟨first, lines, htext⟩ := List.exists_cons_of_ne_nil (crlfLines_ne_nil text)
  refine ⟨first, lines, htext, ?_⟩
  induction line with
  | nil => exact htext
  | cons c line ih =>
    have hrest := ih h.tail
    rw [crlfLines] at hrest ⊢
    rw [List.cons_append, List.foldr_cons, hrest, consLine, if_neg fun hc => h.head_ne hc.1]
    rfl

/-- The first line is a part of the text. -/
theorem first_isPrefix {first : Bytes} {lines : List Bytes} (h : crlfLines text = first :: lines) :
    first <+: text := by
  induction text generalizing first lines with
  | nil =>
    cases h
    exact List.nil_prefix
  | cons c text ih =>
    obtain ⟨next, more, htext⟩ := List.exists_cons_of_ne_nil (crlfLines_ne_nil text)
    have hnext := ih htext
    rw [crlfLines] at htext h
    rw [List.foldr_cons, htext, consLine] at h
    split at h
    · cases h
      exact List.nil_prefix
    · cases h
      exact List.cons_prefix_cons.mpr ⟨rfl, hnext⟩

theorem crlfLines_break (text : Bytes) : crlfLines (13 :: 10 :: text) = [] :: crlfLines text := by
  obtain ⟨first, lines, htext⟩ := List.exists_cons_of_ne_nil (crlfLines_ne_nil text)
  rw [htext]
  rw [crlfLines] at htext ⊢
  rw [List.foldr_cons, List.foldr_cons, htext, consLine, if_neg (by simp), consLine,
    if_pos ⟨rfl, rfl⟩, List.tail_cons]

/-- The lines of a block without its last line break. -/
theorem crlfLines_render {lines : List Bytes} (hline : IsLine line)
    (hlines : ∀ l ∈ lines, IsLine l) (h : renderLines (line :: lines) = text ++ crlf) :
    crlfLines text = line :: lines := by
  induction lines generalizing line text with
  | nil =>
    obtain rfl : line = text :=
      List.append_cancel_right ((renderLines_cons line []).symm.trans h : line ++ crlf = _)
    obtain ⟨first, rest, hnil, hfirst⟩ := crlfLines_append hline []
    cases hnil
    rwa [List.append_nil] at hfirst
  | cons next lines ih =>
    obtain ⟨before, hbefore⟩ := exists_renderLines_eq next lines
    rw [renderLines_cons, hbefore] at h
    obtain rfl : line ++ 13 :: 10 :: before = text :=
      List.append_cancel_right (by simpa using h)
    obtain ⟨first, rest, hbreak, hfirst⟩ := crlfLines_append hline (13 :: 10 :: before)
    rw [crlfLines_break, ih (hlines next List.mem_cons_self)
      (fun l hl => hlines l (List.mem_cons_of_mem next hl)) hbefore] at hbreak
    cases hbreak
    rwa [List.append_nil] at hfirst

/-- A block of lines is cut off at the blank line. -/
theorem cutAt_blankLine {lines : List Bytes} (hline : IsLine line)
    (hlines : ∀ l ∈ lines, IsLine l ∧ l ≠ []) (value : Bytes) :
    ∃ block, cutAt blankLine (renderLines (line :: lines) ++ 13 :: 10 :: value) =
      some (block, value) ∧ crlfLines block = line :: lines := by
  obtain ⟨block, hblock⟩ := exists_renderLines_eq line lines
  refine ⟨block, ?_, crlfLines_render hline (fun l hl => (hlines l hl).1) hblock⟩
  have hlength : (renderLines (line :: lines)).length - 2 = block.length := by
    rw [hblock, List.length_append]
    exact Nat.add_sub_cancel _ _
  have hsplit : renderLines (line :: lines) ++ 13 :: 10 :: value =
      block ++ (blankLine ++ value) := by
    rw [hblock, List.append_assoc]
    rfl
  rw [cutAt_of_find (find_blankLine value hline hlines), hlength, hsplit, List.take_left,
    ← List.append_assoc, ← List.length_append, List.drop_left]

/-- Inside a block there is no blank line. -/
theorem cutAt_blankLine_block {lines : List Bytes} (hline : IsLine line)
    (hlines : ∀ l ∈ lines, IsLine l ∧ l ≠ []) :
    cutAt blankLine (renderLines (line :: lines)) = none := by
  cases hcut : cutAt blankLine (renderLines (line :: lines)) with
  | none => rfl
  | some cut =>
    obtain ⟨i, hfind, -⟩ := cutAt_eq_some hcut
    obtain ⟨-, hat, -⟩ := find_eq_some_iff.mp hfind
    have hlonger := find_of_prefix (List.prefix_append _ (13 :: 10 :: [])) hfind
    rw [find_blankLine [] hline hlines, Option.some.injEq] at hlonger
    have hroom := hat.length_le
    rw [List.length_drop] at hroom
    simp only [blankLine, List.length_cons, List.length_nil] at hroom
    omega

end Lines

/-! ### Parameters -/

section Parameters

variable {text : Bytes}

/-- A key with its value in quotes. -/
theorem parameters_key (c : UInt8) (key : Bytes) (hblank : (c == 32 || c == 9) = false)
    (hkey : 61 ∉ c :: key) (fuel : Nat) (text : Bytes) :
    parameters (fuel + 1) (str "; " ++ (c :: key ++ (str "=\"" ++ text))) =
      (quotedString text).bind fun (value, rest) =>
        (parameters fuel rest).map ((lowerCopy (c :: key), value) :: ·) := by
  have hcut : cutAt (str "=\"") (c :: key ++ (str "=\"" ++ text)) = some (c :: key, text) := by
    rw [show str "=\"" = 61 :: [34] from rfl, cutAt_append hkey, cutAt_prefix, Option.map_some]
    simp only [List.append_nil]
  have hskip : skipBlanks (str " " ++ (c :: key ++ (str "=\"" ++ text))) =
      c :: key ++ (str "=\"" ++ text) := by
    show (32 :: c :: (key ++ (str "=\"" ++ text))).dropWhile _ = _
    rw [List.dropWhile_cons_of_pos (by decide), List.dropWhile_cons_of_neg (by simpa using hblank)]
    rfl
  have hsemicolon : skipBlanks (str "; " ++ (c :: key ++ (str "=\"" ++ text))) =
      59 :: (str " " ++ (c :: key ++ (str "=\"" ++ text))) :=
    List.dropWhile_cons_of_neg (by decide)
  rw [parameters, hsemicolon]
  simp only [if_true, hskip, hcut, Option.bind_eq_bind, Option.bind_some, Option.pure_def]
  cases quotedString text with
  | none => rfl
  | some found =>
    simp only [Option.bind_some]
    cases parameters fuel found.2 with
    | none => rfl
    | some more => rfl

theorem parameters_nil (fuel : Nat) : parameters (fuel + 1) [] = some [] := rfl

theorem parameters_name (fuel : Nat) (text : Bytes) :
    parameters (fuel + 1) (str "; name=\"" ++ text) =
      (quotedString text).bind fun (value, rest) =>
        (parameters fuel rest).map ((str "name", value) :: ·) :=
  parameters_key 110 (str "ame") (by decide) (by decide) fuel text

theorem parameters_filename (fuel : Nat) (text : Bytes) :
    parameters (fuel + 1) (str "; filename=\"" ++ text) =
      (quotedString text).bind fun (value, rest) =>
        (parameters fuel rest).map ((str "filename", value) :: ·) :=
  parameters_key 102 (str "ilename") (by decide) (by decide) fuel text

end Parameters

/-! ### Pieces -/

/-- What a piece of form data begins with. -/
def dispositionHead : Bytes := str "Content-Disposition: form-data"

section Pieces

variable {name value text : Bytes} {lines : List Bytes}

/-- The first header decides, unless it has another name. -/
theorem pieceHeader_cons (field : Bytes) (hfield : 58 ∉ field) (name value : Bytes)
    (lines : List Bytes) :
    pieceHeader name ((field ++ (str ": " ++ value)) :: lines) =
      if lowerCopy field = name then some value else pieceHeader name lines := by
  have hcut : cutAt (str ":") (field ++ (str ": " ++ value)) = some (field, 32 :: value) := by
    rw [show str ":" = 58 :: [] from rfl, cutAt_append hfield,
      show str ": " ++ value = [58] ++ (32 :: value) from rfl, cutAt_prefix, Option.map_some]
    simp only [List.append_nil]
  have hblank : dropBlank (32 :: value) = value := by
    rw [dropBlank.eq_def, List.head?_cons, if_pos rfl, List.tail_cons]
  rw [pieceHeader, List.findSome?_cons, hcut, Option.bind_some]
  simp only [hblank]
  split
  · rename_i found heq
    split at heq
    · rename_i hname
      rw [if_pos hname, ← heq]
    · cases heq
  · rename_i heq
    split at heq
    · cases heq
    · rename_i hname
      rw [if_neg hname, pieceHeader]

theorem pieceHeader_disposition (text : Bytes) (lines : List Bytes) :
    pieceHeader (str "content-disposition") ((dispositionHead ++ text) :: lines) =
      some (str "form-data" ++ text) := by
  have hhead := pieceHeader_cons (str "Content-Disposition") (by decide)
    (str "content-disposition") (str "form-data" ++ text) lines
  rwa [if_pos (by decide)] at hhead

theorem dispositionParameters_append (text : Bytes) :
    dispositionParameters (str "form-data" ++ text) = parameters (9 + text.length) text := by
  rw [dispositionParameters, List.length_append]
  exact if_pos rfl

/-- What is read of a piece is read from its first line. -/
theorem formPart_first {line : Bytes} {part : FormPart} (hline : IsLine line)
    (h : formPart (dispositionHead ++ (line ++ text)) = some part) :
    ∃ rest found, rest <+: text ∧
      parameters (9 + (line ++ rest).length) (line ++ rest) = some found ∧
      found.lookup (str "name") = some part.name ∧
      part.filename = (found.lookup (str "filename")).getD [] := by
  have hhead : IsLine (dispositionHead ++ line) :=
    IsLine.append (show (13 : UInt8) ∉ _ by decide) hline
  simp only [formPart, Option.bind_eq_bind, Option.bind_eq_some_iff, Option.pure_def,
    Option.some.injEq] at h
  obtain ⟨⟨block, value⟩, hcut, disposition, hfield, found, hfound, name, hname, rfl⟩ := h
  rw [← List.append_assoc, show blankLine = 13 :: [10, 13, 10] from rfl,
    cutAt_append hhead] at hcut
  obtain ⟨⟨before, after⟩, hbefore, heq⟩ := Option.map_eq_some_iff.mp hcut
  cases heq
  obtain ⟨i, -, rfl⟩ := cutAt_eq_some hbefore
  obtain ⟨rest, lines, hrest, hlines⟩ := crlfLines_append hhead (text.take i)
  rw [hlines, List.append_assoc, pieceHeader_disposition] at hfield
  cases hfield
  rw [dispositionParameters_append] at hfound
  exact ⟨rest, found, (first_isPrefix hrest).trans (List.take_prefix i text), hfound, hname, rfl⟩

/-- A block of headers, a blank line and a value. -/
theorem formPart_lines {first : Bytes} (hline : IsLine (dispositionHead ++ first))
    (hlines : ∀ l ∈ lines, IsLine l ∧ l ≠ []) (value : Bytes) :
    formPart (renderLines ((dispositionHead ++ first) :: lines) ++ 13 :: 10 :: value) =
      (parameters (9 + first.length) first).bind fun found =>
        (found.lookup (str "name")).map fun name => {
          name
          filename := (found.lookup (str "filename")).getD []
          contentType := (pieceHeader (str "content-type") lines).getD []
          value } := by
  obtain ⟨block, hcut, hblock⟩ := cutAt_blankLine hline hlines value
  have htype : pieceHeader (str "content-type") ((dispositionHead ++ first) :: lines) =
      pieceHeader (str "content-type") lines := by
    have hhead := pieceHeader_cons (str "Content-Disposition") (by decide) (str "content-type")
      (str "form-data" ++ first) lines
    rwa [if_neg (by decide)] at hhead
  rw [formPart, hcut]
  simp only [Option.bind_eq_bind, Option.bind_some, hblock, pieceHeader_disposition,
    dispositionParameters_append, htype, Option.pure_def]
  cases parameters (9 + first.length) first with
  | none => rfl
  | some found =>
    simp only [Option.bind_some]
    cases found.lookup (str "name") with
    | none => rfl
    | some name => rfl

/-- A block that no blank line ends is no part. -/
theorem formPart_block {line : Bytes} (hline : IsLine line)
    (hlines : ∀ l ∈ lines, IsLine l ∧ l ≠ []) : formPart (renderLines (line :: lines)) = none := by
  rw [formPart, cutAt_blankLine_block hline hlines]
  rfl

end Pieces

/-! ### Delimiters -/

section Delimiters

variable {boundary text : Bytes}

theorem not_delimiter_cons {c : UInt8} (hc : c ≠ 13) (text : Bytes) :
    ¬ delimiter boundary <+: c :: text :=
  fun hpre => hc (List.cons_prefix_cons.mp hpre).1.symm

/-- A delimiter does not begin in a line, nor at a line break that no `-` follows. -/
theorem find_delimiter_line {line : Bytes} (hline : IsLine line) (htext : text.head? ≠ some 45) :
    find (delimiter boundary) (line ++ 13 :: 10 :: text) =
      (find (delimiter boundary) text).map (· + (line.length + 2)) := by
  have hbreak : ¬ delimiter boundary <+: 13 :: 10 :: text := by
    intro hpre
    obtain ⟨-, hpre⟩ := List.cons_prefix_cons.mp hpre
    obtain ⟨-, rest, hrest⟩ := List.cons_prefix_cons.mp hpre
    exact htext (by rw [← hrest]; rfl)
  have hskip : find (delimiter boundary) (line ++ 13 :: 10 :: text) =
      (find (delimiter boundary) (13 :: 10 :: text)).map (· + line.length) :=
    find_append hline _
  rw [hskip, find_cons_there hbreak, find_cons_there (not_delimiter_cons (by decide) text)]
  cases find (delimiter boundary) text with
  | none => rfl
  | some i =>
    simp only [Option.map_some, Option.some.injEq]
    omega

/-- A piece that is cut off a text goes on from a line as the text does. -/
theorem cutAt_delimiter_line {line piece rest : Bytes} (hline : IsLine line)
    (h : cutAt (delimiter boundary) (line ++ text) = some (piece, rest)) :
    ∃ more, more <+: text ∧ piece = line ++ more := by
  rw [show delimiter boundary = 13 :: 10 :: (str "--" ++ boundary) from rfl,
    cutAt_append hline] at h
  obtain ⟨⟨more, after⟩, hcut, heq⟩ := Option.map_eq_some_iff.mp h
  cases heq
  obtain ⟨i, -, rfl⟩ := cutAt_eq_some hcut
  exact ⟨_, List.take_prefix i text, rfl⟩

theorem find_delimiter_lines {lines : List Bytes}
    (hlines : ∀ l ∈ lines, IsLine l ∧ l.head? ≠ some 45) (htext : text.head? ≠ some 45) :
    find (delimiter boundary) (renderLines lines ++ text) =
      (find (delimiter boundary) text).map (· + (renderLines lines).length) := by
  induction lines with
  | nil => simp
  | cons line lines ih =>
    obtain ⟨hline, -⟩ := hlines line List.mem_cons_self
    have hrest := fun l hl => hlines l (List.mem_cons_of_mem line hl)
    have hhead : (renderLines lines ++ text).head? ≠ some 45 := by
      cases lines with
      | nil => exact htext
      | cons next more =>
        obtain ⟨-, hnext⟩ := hrest next List.mem_cons_self
        rw [renderLines_cons, List.append_assoc, List.head?_append]
        cases hhead : next.head? with
        | none => simp
        | some c => rwa [← hhead, Option.or_of_isSome (by rw [hhead]; rfl)]
    rw [renderLines_cons, List.append_assoc, List.cons_append, List.cons_append,
      find_delimiter_line hline hhead, ih hrest]
    cases find (delimiter boundary) text with
    | none => rfl
    | some i =>
      simp only [Option.map_some, Option.some.injEq, List.length_append, List.length_cons]
      omega

/-- Behind a line break, the value contains no delimiter that begins before the one after it. -/
def Delimited (boundary value : Bytes) : Prop :=
  ∀ i < value.length + 2, ¬ delimiter boundary <+: (crlf ++ (value ++ delimiter boundary)).drop i

instance (boundary value : Bytes) : Decidable (Delimited boundary value) :=
  Nat.decidableBallLT (value.length + 2) fun i _ =>
    ¬ delimiter boundary <+: (crlf ++ (value ++ delimiter boundary)).drop i

/-- A delimiter is found behind the value, or before. -/
theorem exists_find_delimiter (boundary value rest : Bytes) :
    ∃ i ≤ value.length + 2,
      find (delimiter boundary) (crlf ++ (value ++ (delimiter boundary ++ rest))) = some i := by
  have hhere : delimiter boundary <+:
      (crlf ++ (value ++ (delimiter boundary ++ rest))).drop (value.length + 2) := by
    rw [← List.append_assoc, show value.length + 2 = (crlf ++ value).length by simp [crlf],
      List.drop_left]
    exact List.prefix_append _ _
  cases hfind : find (delimiter boundary) (crlf ++ (value ++ (delimiter boundary ++ rest))) with
  | none =>
    refine absurd hhere (find_eq_none_iff.mp hfind _ ?_)
    simp [crlf]
  | some i =>
    refine ⟨i, ?_, rfl⟩
    by_contra hlate
    exact (find_eq_some_iff.mp hfind).2.2 _ (Nat.lt_of_not_le hlate) hhere

theorem find_delimiter_iff (boundary value rest : Bytes) :
    find (delimiter boundary) (crlf ++ (value ++ (delimiter boundary ++ rest))) =
      some (value.length + 2) ↔ Delimited boundary value := by
  have hsplit : crlf ++ (value ++ (delimiter boundary ++ rest)) =
      crlf ++ (value ++ delimiter boundary) ++ rest := by simp
  have hlength : (crlf ++ (value ++ delimiter boundary)).length =
      value.length + 2 + (delimiter boundary).length := by
    simp [crlf]
    omega
  -- a delimiter that begins no later than behind the value ends no later than the last one
  have hstarts : ∀ i < value.length + 2,
      (delimiter boundary <+: (crlf ++ (value ++ (delimiter boundary ++ rest))).drop i ↔
        delimiter boundary <+: (crlf ++ (value ++ delimiter boundary)).drop i) := by
    intro i hi
    rw [hsplit, List.drop_append_of_le_length (by omega)]
    constructor
    · intro hpre
      refine List.prefix_of_prefix_length_le hpre (List.prefix_append _ rest) ?_
      rw [List.length_drop]
      omega
    · exact fun hpre => hpre.trans (List.prefix_append _ rest)
  obtain ⟨i, hle, hfind⟩ := exists_find_delimiter boundary value rest
  constructor
  · intro hfound j hj hpre
    exact (find_eq_some_iff.mp hfound).2.2 j hj ((hstarts j hj).mpr hpre)
  · intro hdelimited
    rw [hfind, Option.some.injEq]
    by_contra hne
    have hearly : i < value.length + 2 := Nat.lt_of_le_of_ne hle hne
    exact hdelimited i hearly ((hstarts i hearly).mp (find_eq_some_iff.mp hfind).2.1)

/-- A text without CR does not reach beyond one. -/
theorem prefix_of_prefix_break {x y line : Bytes} (hline : IsLine line)
    (h : line <+: x ++ 13 :: y) : line <+: x := by
  rcases Nat.lt_or_ge x.length line.length with hlong | hshort
  · have hreach : x ++ [13] <+: line := by
      refine List.prefix_of_prefix_length_le (List.prefix_append_right_inj x |>.mpr ?_) h ?_
      · exact ⟨y, rfl⟩
      · rw [List.length_append]
        exact hlong
    exact absurd (hreach.subset (List.mem_append_right x List.mem_cons_self)) hline
  · exact List.prefix_of_prefix_length_le h (List.prefix_append x _) hshort

/-- With a boundary without CR, a delimiter begins before the one behind the value only in the
value, or at the line break before it. -/
theorem delimited_iff {value : Bytes} (hboundary : IsLine boundary) :
    Delimited boundary value ↔
      ¬ str "--" ++ boundary <+: value ∧ ¬ delimiter boundary <:+: value := by
  have hdashes : IsLine (str "--" ++ boundary) :=
    IsLine.append (show (13 : UInt8) ∉ _ by decide) hboundary
  have htail : IsLine (10 :: (str "--" ++ boundary)) :=
    IsLine.append (show (13 : UInt8) ∉ [10] by decide) hdashes
  constructor
  · intro hdelimited
    refine ⟨fun hpre => ?_, fun hpiece => ?_⟩
    · refine hdelimited 0 (by omega) ?_
      obtain ⟨after, rfl⟩ := hpre
      exact ⟨after ++ delimiter boundary, by simp [delimiter]⟩
    · obtain ⟨before, after, rfl⟩ := hpiece
      refine hdelimited (before.length + 2) ?_ ?_
      · simp [delimiter, crlf]
      · rw [show before.length + 2 = (crlf ++ before).length by simp [crlf],
          show crlf ++ (before ++ delimiter boundary ++ after ++ delimiter boundary) =
            crlf ++ before ++ (delimiter boundary ++ (after ++ delimiter boundary)) by simp,
          List.drop_left]
        exact List.prefix_append _ _
  · rintro ⟨hstart, hinside⟩ i hi hpre
    rcases i with _ | _ | j
    · obtain ⟨-, hpre⟩ := List.cons_prefix_cons.mp hpre
      obtain ⟨-, hpre⟩ := List.cons_prefix_cons.mp hpre
      exact hstart (prefix_of_prefix_break hdashes hpre)
    · exact absurd (List.cons_prefix_cons.mp hpre).1 (by decide)
    · have hdrop : (value ++ delimiter boundary).drop j = value.drop j ++ delimiter boundary :=
        List.drop_append_of_le_length (by omega)
      replace hpre : delimiter boundary <+: (value ++ delimiter boundary).drop j := hpre
      rw [hdrop] at hpre
      cases hrest : value.drop j with
      | nil => exact absurd (List.drop_eq_nil_iff.mp hrest) (by omega)
      | cons c more =>
        rw [hrest] at hpre
        obtain ⟨hc, hpre⟩ := List.cons_prefix_cons.mp hpre
        have hmore := prefix_of_prefix_break htail hpre
        refine hinside (List.IsInfix.trans ?_ (List.drop_suffix j value).isInfix)
        rw [hrest]
        exact (List.cons_prefix_cons.mpr ⟨hc, hmore⟩).isInfix

end Delimiters

/-! ### Texts -/

theorem formParts_piece (boundary : Bytes) (fuel : Nat) (text : Bytes) :
    formParts boundary (fuel + 1) (crlf ++ text) =
      (cutAt (delimiter boundary) text).bind fun (piece, rest) =>
        (formPart piece).bind fun part => (formParts boundary fuel rest).map (part :: ·) := by
  have hskip : skipBlanks (crlf ++ text) = crlf ++ text :=
    List.dropWhile_cons_of_neg (by decide)
  have hopen : ¬ str "--" <+: crlf ++ text :=
    fun hpre => absurd (List.cons_prefix_cons.mp hpre).1 (by decide)
  rw [formParts, if_neg hopen, hskip, if_pos (List.prefix_append _ _),
    show (crlf ++ text).drop 2 = text from rfl]
  cases cutAt (delimiter boundary) text with
  | none => rfl
  | some cut =>
    simp only [Option.bind_eq_bind, Option.bind_some, Option.pure_def]
    cases formPart cut.1 with
    | none => rfl
    | some part =>
      simp only [Option.bind_some]
      cases formParts boundary fuel cut.2 with
      | none => rfl
      | some parts => rfl

theorem formParts_close (boundary : Bytes) (fuel : Nat) :
    formParts boundary (fuel + 1) (str "--" ++ crlf) = some [] := by
  rw [formParts, if_pos (List.prefix_append _ _)]
  exact if_pos (Or.inr (by decide))

end HttpClient.Text
