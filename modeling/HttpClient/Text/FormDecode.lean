import HttpClient.Text.Delimiters

/-!
# Reading form data

A query holds pairs of a name and a value, separated by `&`, with a `=` between the two.
Blanks are written as `+`, and bytes that mean something as `%` and two digits.

## Main definitions

* `formText` — the text that a name or a value stands for
* `formDecode` — the pairs of a query; empty pieces are passed over
* `formFields` — the pairs of a form, one for each piece

## Main results

* `formDecode_append` — a query that goes on has the pairs of both parts
* `formDecode_intercalate`, `formFields_intercalate` — pieces that are joined are read back
* `formText_cons`, `formText_escape` — one byte of a text
-/

set_option autoImplicit false

namespace HttpClient.Text

/-- A `+` stands for a blank; blanks are put back before the percent signs are read. -/
def formText (text : Bytes) : Bytes :=
  percentDecode (text.map fun c => if c = 43 then 32 else c)

/-- The name is what stands before the first `=`. -/
def formPair (piece : Bytes) : Bytes × Bytes :=
  (formText (upTo 61 piece), formText ((onward 61 piece).drop 1))

def formDecode (query : Bytes) : List (Bytes × Bytes) :=
  ((query.splitOn 38).filter (· ≠ [])).map formPair

example : formDecode (str "a=1&&b=x%2By+z") = [(str "a", str "1"), (str "b", str "x+y z")] := by
  decide +kernel

/-- The fields of a form body. Every piece is a field, also an empty one. -/
def formFields (text : Bytes) : List (Bytes × Bytes) := (text.splitOn 38).map formPair

/-! ### Pieces -/

@[simp] theorem formDecode_nil : formDecode [] = [] := rfl

theorem formDecode_append (x y : Bytes) :
    formDecode (x ++ 38 :: y) = formDecode x ++ formDecode y := by
  rw [formDecode, List.splitOn_append_cons_self, List.filter_append, List.map_append]
  rfl

/-- Pieces that are not empty are read back from a query. -/
theorem formDecode_intercalate {pieces : List Bytes} (hplain : ∀ piece ∈ pieces, 38 ∉ piece)
    (hne : ∀ piece ∈ pieces, piece ≠ []) :
    formDecode ([38].intercalate pieces) = pieces.map formPair := by
  cases pieces with
  | nil => rfl
  | cons piece more =>
    rw [formDecode, List.splitOn_intercalate 38 hplain (List.cons_ne_nil piece more)]
    congr 1
    apply List.filter_eq_self.mpr
    intro other hother
    simpa using hne other hother

/-- Pieces are read back from a form if there is any. -/
theorem formFields_intercalate {pieces : List Bytes} (hplain : ∀ piece ∈ pieces, 38 ∉ piece)
    (hne : pieces ≠ []) : formFields ([38].intercalate pieces) = pieces.map formPair := by
  rw [formFields, List.splitOn_intercalate 38 hplain hne]

/-- Pieces are joined by the separator and nothing else. -/
theorem not_mem_intercalate {c sep : UInt8} {pieces : List Bytes} (hsep : c ≠ sep)
    (h : ∀ piece ∈ pieces, c ∉ piece) : c ∉ [sep].intercalate pieces := by
  induction pieces with
  | nil => exact List.not_mem_nil
  | cons piece more ih =>
    have hpiece : c ∉ piece := h piece List.mem_cons_self
    have hmore := ih fun other hother => h other (List.mem_cons_of_mem _ hother)
    by_cases hlast : more = []
    · rw [hlast]
      simpa [List.intercalate] using hpiece
    · rw [List.intercalate_cons_of_ne_nil hlast, List.mem_append, List.mem_append, not_or, not_or]
      exact ⟨⟨hpiece, by simpa using hsep⟩, hmore⟩

theorem formPair_append {name : Bytes} (h : 61 ∉ name) (value : Bytes) :
    formPair (name ++ 61 :: value) = (formText name, formText value) := by
  rw [formPair, upTo_append_cons h, onward_append_cons h]
  rfl

/-! ### Bytes -/

@[simp] theorem formText_nil : formText [] = [] := rfl

/-- A byte that is neither `+` nor `%` stands for itself. -/
theorem formText_cons {c : UInt8} (hplus : c ≠ 43) (hpercent : c ≠ 37) (rest : Bytes) :
    formText (c :: rest) = c :: formText rest := by
  rw [formText, List.map_cons, if_neg hplus, percentDecode_cons hpercent, formText]

theorem formText_plus (rest : Bytes) : formText (43 :: rest) = 32 :: formText rest := by
  rw [formText, List.map_cons, if_pos rfl, percentDecode_cons (by decide), formText]

theorem formText_escape {hi lo byte : UInt8} (hhi : hi ≠ 43) (hlo : lo ≠ 43)
    (h : escapedByte 37 hi lo = some byte) (rest : Bytes) :
    formText (37 :: hi :: lo :: rest) = byte :: formText rest := by
  have hpercent : (37 : UInt8) ≠ 43 := by decide
  rw [formText, List.map_cons, List.map_cons, List.map_cons, if_neg hpercent, if_neg hhi,
    if_neg hlo, percentDecode, h, formText]

end HttpClient.Text
