import HttpClient.Policy.QueryParams

/-!
# Form bodies

A form is written as its fields joined by `&`, each a name and a value around a `=`. Names and
values are encoded byte by byte, so that neither separator occurs in them. There are two
overloads, one for pairs of texts and one for fields; both run the same loop.

## Main definitions

* `formUrlencodeLoop` — the loop of both overloads
* `formUrlencodePairs`, `formUrlencode` — the overloads

## Main results

* `formUrlencode_eq` — the loop joins the encoded fields
* `formUrlencode_roundTrips` — the fields are read back, and the overloads agree
-/

set_option autoImplicit false

namespace HttpClient.Builder

open Text Policy

/-- The parameters of a query are form fields. -/
abbrev FormField := QueryParam

def FormField.pair (field : FormField) : Bytes × Bytes := (field.name, field.value)

/-- Write the fields behind `out`. -/
def formUrlencodeLoop {α : Type} (name value : α → Bytes) :
    Bool → Bytes → List α → Bytes
  | _, out, [] => out
  | first, out, field :: fields =>
    let out := if first then out else out ++ str "&"
    formUrlencodeLoop name value false
      (out ++ urlencoded (name field) ++ str "=" ++ urlencoded (value field)) fields

def formUrlencodePairs (fields : List (Bytes × Bytes)) : Bytes :=
  formUrlencodeLoop Prod.fst Prod.snd true [] fields

def formUrlencode (fields : List FormField) : Bytes :=
  formUrlencodeLoop QueryParam.name QueryParam.value true [] fields

/-! ### The loop -/

theorem formUrlencodeLoop_cons {α : Type} (name value : α → Bytes) (first : Bool) (out : Bytes)
    (field : α) (fields : List α) :
    formUrlencodeLoop name value first out (field :: fields) =
      formUrlencodeLoop name value false
        ((if first then out else out ++ str "&") ++ urlencoded (name field) ++ str "=" ++
          urlencoded (value field)) fields := rfl

/-- What is written already stays in front. -/
theorem formUrlencodeLoop_append (before out : Bytes) (fields : List FormField) :
    formUrlencodeLoop QueryParam.name QueryParam.value false (before ++ out) fields =
      before ++ formUrlencodeLoop QueryParam.name QueryParam.value false out fields := by
  induction fields generalizing out with
  | nil => rfl
  | cons field fields ih =>
    rw [formUrlencodeLoop_cons, formUrlencodeLoop_cons, ← ih]
    simp only [Bool.false_eq_true, if_false, List.append_assoc]

/-- After the first field, each one is written behind a `&`. -/
theorem formUrlencodeLoop_eq (field : FormField) (fields : List FormField) :
    formUrlencodeLoop QueryParam.name QueryParam.value false (encodedParam field) fields =
      encodedParams (field :: fields) := by
  induction fields generalizing field with
  | nil => simp [formUrlencodeLoop, encodedParams, List.intercalate]
  | cons next fields ih =>
    have hjoin : encodedParams (field :: next :: fields) =
        encodedParam field ++ str "&" ++ encodedParams (next :: fields) := by
      rw [encodedParams, List.map_cons, List.intercalate_cons_of_ne_nil]
      · rfl
      · exact List.cons_ne_nil _ _
    have hnext : encodedParam field ++ str "&" ++ urlencoded next.name ++ str "=" ++
        urlencoded next.value = encodedParam field ++ str "&" ++ encodedParam next := by
      simp only [encodedParam, List.append_assoc]
    rw [hjoin, ← ih, ← formUrlencodeLoop_append, ← hnext, formUrlencodeLoop_cons]
    rfl

theorem formUrlencode_eq (fields : List FormField) :
    formUrlencode fields = encodedParams fields := by
  cases fields with
  | nil => rfl
  | cons field fields => exact formUrlencodeLoop_eq field fields

/-- The loop reads names and values only. -/
theorem formUrlencodeLoop_map (first : Bool) (out : Bytes) (fields : List FormField) :
    formUrlencodeLoop Prod.fst Prod.snd first out (fields.map FormField.pair) =
      formUrlencodeLoop QueryParam.name QueryParam.value first out fields := by
  induction fields generalizing first out with
  | nil => rfl
  | cons field fields ih =>
    rw [List.map_cons, formUrlencodeLoop_cons, formUrlencodeLoop_cons, ih]
    rfl

/-! ### What is written -/

theorem urlencoded_alphabet (value : Bytes) :
    ∀ d ∈ urlencoded value, isUnreserved d = true ∨ d ∈ str "+%" := by
  intro d hd
  obtain ⟨c, -, hc⟩ := List.mem_flatMap.mp hd
  exact urlencodeByte_alphabet c d hc

/-- Unreserved bytes, and those that mean something in a form. -/
theorem encodedParams_alphabet (fields : List FormField) :
    ∀ d ∈ encodedParams fields, isUnreserved d = true ∨ d ∈ str "+%=&" := by
  have hwider : ∀ d ∈ str "+%", d ∈ str "+%=&" := List.all_iff_forall_prop.mp (by decide)
  have hpair : ∀ field : FormField, ∀ d ∈ encodedParam field,
      isUnreserved d = true ∨ d ∈ str "+%=&" := by
    intro field d hd
    rw [encodedParam_eq, List.mem_append, List.mem_cons] at hd
    rcases hd with hname | rfl | hvalue
    · exact (urlencoded_alphabet _ d hname).imp_right (hwider d)
    · exact .inr (by decide)
    · exact (urlencoded_alphabet _ d hvalue).imp_right (hwider d)
  intro d hd
  by_contra hplain
  rw [not_or] at hplain
  -- a byte of neither kind is in no piece, and so not in what they are joined to
  refine not_mem_intercalate ?_ ?_ hd
  · rintro rfl
    exact hplain.2 (by decide)
  · intro piece hpiece hmem
    obtain ⟨field, -, rfl⟩ := List.mem_map.mp hpiece
    exact (hpair field d hmem).elim hplain.1 hplain.2

/-- A form is read back field by field. -/
theorem formFields_formUrlencode {fields : List FormField} (hne : fields ≠ []) :
    formFields (formUrlencode fields) = fields.map FormField.pair := by
  have hplain : ∀ piece ∈ fields.map encodedParam, 38 ∉ piece := by
    intro piece hpiece
    obtain ⟨field, -, rfl⟩ := List.mem_map.mp hpiece
    exact encodedParam_plain (by decide) field
  have hread : formFields (encodedParams fields) = (fields.map encodedParam).map formPair :=
    formFields_intercalate hplain fun hnil => hne (List.map_eq_nil_iff.mp hnil)
  rw [formUrlencode_eq, hread, List.map_map]
  exact List.map_congr_left fun field _ => formPair_encodedParam field

/-- A form with fields is read back, both overloads write the same text, and that text is plain. -/
theorem formUrlencode_roundTrips (fields : List FormField) :
    (fields ≠ [] → formFields (formUrlencode fields) = fields.map FormField.pair) ∧
      formUrlencodePairs (fields.map FormField.pair) = formUrlencode fields ∧
      ∀ c ∈ formUrlencode fields, isUnreserved c = true ∨ c ∈ str "+%=&" := by
  refine ⟨formFields_formUrlencode, formUrlencodeLoop_map true [] fields, ?_⟩
  rw [formUrlencode_eq]
  exact encodedParams_alphabet fields

/-- Separators in a name and a value, and a byte that is not a character. -/
def awkwardFields : List FormField :=
  [{ name := str "a&=+", value := str "%2B b" }, { name := [], value := [255] }]

theorem formUrlencode_roundTrips_awkward :
    formUrlencode awkwardFields = str "a%26%3D%2B=%252B+b&=%FF" ∧
      formFields (str "a%26%3D%2B=%252B+b&=%FF") = [(str "a&=+", str "%2B b"), ([], [255])] := by
  have hread := (formUrlencode_roundTrips awkwardFields).1 (List.cons_ne_nil _ _)
  have htext : formUrlencode awkwardFields = str "a%26%3D%2B=%252B+b&=%FF" := by decide +kernel
  rw [htext] at hread
  exact ⟨htext, hread⟩

end HttpClient.Builder
