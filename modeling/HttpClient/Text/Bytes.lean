import Mathlib.Data.Bool.AllAny
import Mathlib.Data.List.Infix
import Mathlib.Data.List.Basic

/-!
# Byte strings

The fragment of `std::string` and `std::string_view` that text protocols are
written with: literals, first and last occurrences, ASCII case and white space,
trimming, decimal numerals. Strings are lists of bytes, positions are natural
numbers, and `npos` is `none`.

## Main definitions

* `str` — the bytes of a literal
* `find` / `findByte` / `rfindByte` — first and last occurrences
* `lower`, `isSpace`, `isDigit` — the character classes of the C locale
* `trimLeft`, `trim`, `splitParts`, `decimal`

## Main results

* `find_eq_some_iff`, `find_eq_none_iff` — `find` reports the first occurrence
* `find_prefix_eq` — searching a prefix of a text finds the same occurrence or none
-/

set_option autoImplicit false

namespace HttpClient.Text

/-- A byte string. -/
abbrev Bytes := List UInt8

/-- The bytes of a literal. -/
def str (s : String) : Bytes := s.toList.map fun c => c.toNat.toUInt8

/-- A literal rewritten with it is evaluated character by character: its UTF-8 form is not encoded
and decoded again. -/
theorem str_ofList (cs : List Char) : str (.ofList cs) = cs.map fun c => c.toNat.toUInt8 := by
  rw [str, String.toList_ofList]

/-! ### Searching -/

/-- The position of the first occurrence of `pat` in a text. -/
def find (pat : Bytes) : Bytes → Option Nat
  | [] => if pat = [] then some 0 else none
  | c :: cs => if pat.isPrefixOf (c :: cs) then some 0 else (find pat cs).map (· + 1)

/-- The position of the first occurrence of the byte `b`. -/
def findByte (b : UInt8) : Bytes → Option Nat
  | [] => none
  | c :: cs => if c = b then some 0 else (findByte b cs).map (· + 1)

/-- The position of the last occurrence of the byte `b`. -/
def rfindByte (b : UInt8) : Bytes → Option Nat
  | [] => none
  | c :: cs =>
    match rfindByte b cs with
    | some i => some (i + 1)
    | none => if c = b then some 0 else none

theorem find_cons (pat : Bytes) (c : UInt8) (cs : Bytes) : find pat (c :: cs) =
    if pat.isPrefixOf (c :: cs) then some 0 else (find pat cs).map (· + 1) := rfl

theorem find_cons_here {pat : Bytes} {c : UInt8} {cs : Bytes} (h : pat <+: c :: cs) :
    find pat (c :: cs) = some 0 := by
  rw [find_cons, if_pos (List.isPrefixOf_iff_prefix.mpr h)]

theorem find_cons_there {pat : Bytes} {c : UInt8} {cs : Bytes}
    (h : ¬ pat <+: c :: cs) : find pat (c :: cs) = (find pat cs).map (· + 1) := by
  rw [find_cons, if_neg (fun h' => h (List.isPrefixOf_iff_prefix.mp h'))]

/-- `find` reports an occurrence, inside the text, before which there is none. -/
theorem find_eq_some_iff {pat t : Bytes} {i : Nat} :
    find pat t = some i ↔
      i ≤ t.length ∧ pat <+: t.drop i ∧ ∀ j < i, ¬ pat <+: t.drop j := by
  induction t generalizing i with
  | nil =>
    by_cases hp : pat = []
    · simp only [find, hp, if_pos, Option.some_inj, List.length_nil, Nat.le_zero,
        List.nil_prefix, true_and, not_true_eq_false]
      constructor
      · rintro rfl
        exact ⟨rfl, fun j hj => Nat.not_lt_zero j hj⟩
      · exact fun h => h.1.symm
    · simp [find, hp]
  | cons c cs ih =>
    by_cases hp : pat <+: c :: cs
    · rw [find_cons_here hp]
      constructor
      · rintro ⟨⟩
        exact ⟨Nat.zero_le _, hp, fun j hj => absurd hj (Nat.not_lt_zero j)⟩
      · rintro ⟨-, -, hmin⟩
        cases i with
        | zero => rfl
        | succ i => exact absurd hp (hmin 0 (Nat.succ_pos i))
    · rw [find_cons_there hp]
      cases i with
      | zero => simp [hp]
      | succ i =>
        have hmap : (find pat cs).map (· + 1) = some (i + 1) ↔ find pat cs = some i := by
          simp
        rw [hmap, ih]
        constructor
        · rintro ⟨hle, hat, hmin⟩
          refine ⟨Nat.succ_le_succ hle, hat, fun j hj => ?_⟩
          cases j with
          | zero => exact hp
          | succ j => exact hmin j (Nat.lt_of_succ_lt_succ hj)
        · rintro ⟨hle, hat, hmin⟩
          exact ⟨Nat.le_of_succ_le_succ hle, hat,
            fun j hj => hmin (j + 1) (Nat.succ_lt_succ hj)⟩

theorem find_eq_none_iff {pat t : Bytes} :
    find pat t = none ↔ ∀ i ≤ t.length, ¬ pat <+: t.drop i := by
  constructor
  · intro hnone i
    -- a first occurrence at `i` would have been found
    induction i using Nat.strong_induction_on with
    | _ i ih =>
      intro hle hat
      have := find_eq_some_iff.mpr ⟨hle, hat, fun j hj => ih j hj (hj.le.trans hle)⟩
      simp [hnone] at this
  · intro hno
    cases hf : find pat t with
    | none => rfl
    | some i =>
      obtain ⟨hle, hat, -⟩ := find_eq_some_iff.mp hf
      exact absurd hat (hno i hle)

/-- Searching a prefix of a text finds the text's first occurrence as soon as the
prefix contains it, and nothing before. -/
theorem find_prefix_eq {pat p t : Bytes} {i : Nat} (hp : p <+: t)
    (ht : find pat t = some i) :
    find pat p = if i + pat.length ≤ p.length then some i else none := by
  obtain ⟨rest, rfl⟩ := hp
  obtain ⟨-, hat, hmin⟩ := find_eq_some_iff.mp ht
  have occurs : ∀ j ≤ p.length, pat <+: p.drop j → pat <+: (p ++ rest).drop j := by
    intro j hj hpre
    rw [List.drop_append_of_le_length hj]
    exact hpre.trans (List.prefix_append _ _)
  split_ifs with hfit
  · refine find_eq_some_iff.mpr ⟨by omega, ?_, fun j hj hpre => ?_⟩
    · rw [List.drop_append_of_le_length (by omega)] at hat
      refine List.prefix_of_prefix_length_le hat (List.prefix_append _ _) ?_
      rw [List.length_drop]
      omega
    · exact hmin j hj (occurs j (by omega) hpre)
  · refine find_eq_none_iff.mpr fun j hj hpre => ?_
    have hlen := hpre.length_le
    rw [List.length_drop] at hlen
    have hji : ¬ j < i := fun hlt => hmin j hlt (occurs j hj hpre)
    omega

/-- What follows an occurrence does not matter. -/
theorem find_of_prefix {pat p t : Bytes} {i : Nat} (hp : p <+: t) (h : find pat p = some i) :
    find pat t = some i := by
  obtain ⟨rest, rfl⟩ := hp
  obtain ⟨hle, hat, hmin⟩ := find_eq_some_iff.mp h
  have hfit := hat.length_le
  rw [List.length_drop] at hfit
  apply find_eq_some_iff.mpr
  refine ⟨?_, ?_, fun j hj hpre => hmin j hj ?_⟩
  · rw [List.length_append]
    omega
  · rw [List.drop_append_of_le_length hle]
    exact hat.trans (List.prefix_append _ _)
  · -- an earlier occurrence would end in the prefix as well
    rw [List.drop_append_of_le_length (by omega)] at hpre
    refine List.prefix_of_prefix_length_le hpre (List.prefix_append _ _) ?_
    rw [List.length_drop]
    omega

theorem findByte_eq_none {b : UInt8} {t : Bytes} (h : b ∉ t) : findByte b t = none := by
  induction t with
  | nil => rfl
  | cons c cs ih =>
    have hne : c ≠ b := fun heq => h (heq ▸ List.mem_cons_self)
    rw [findByte, if_neg hne, ih fun hmem => h (List.mem_cons_of_mem c hmem)]
    rfl

/-! ### Character classes of the C locale -/

/-- `std::tolower`. -/
def lower (c : UInt8) : UInt8 := if 65 ≤ c ∧ c ≤ 90 then c + 32 else c

/-- `std::isspace`: tab, line feed, vertical tab, form feed, carriage return, space. -/
def isSpace (c : UInt8) : Bool := (9 ≤ c && c ≤ 13) || c == 32

/-- A decimal digit. -/
def isDigit (c : UInt8) : Bool := 48 ≤ c && c ≤ 57

theorem isSpace_eq_false_of_isDigit {c : UInt8} (h : isDigit c) : isSpace c = false := by
  simp only [isDigit, Bool.and_eq_true, decide_eq_true_eq, UInt8.le_iff_toNat_le] at h
  have hlow : 48 ≤ c.toNat := h.1
  have hblank : c ≠ 32 := by
    rintro rfl
    exact absurd hlow (by decide)
  have hcontrol : ¬ c ≤ 13 := by
    rw [UInt8.le_iff_toNat_le]
    exact fun hle => absurd (hlow.trans hle) (by decide)
  simp [isSpace, hblank, hcontrol]

/-- Lower-case copy of a byte string. -/
def lowerCopy (s : Bytes) : Bytes := s.map lower

/-- Only letters are changed, and only into letters. -/
theorem lower_eq_iff {b c : UInt8} (hb : b < 65) : lower c = b ↔ c = b := by
  rw [lower]
  split
  · rename_i hupper
    simp only [UInt8.le_iff_toNat_le, UInt8.lt_iff_toNat_lt, ← UInt8.toNat_inj,
      UInt8.toNat_add] at hupper hb ⊢
    simp at hupper hb ⊢
    omega
  · rfl

theorem not_mem_lowerCopy {b : UInt8} (hb : b < 65) {s : Bytes} (h : b ∉ s) : b ∉ lowerCopy s := by
  intro hmem
  obtain ⟨c, hc, hlower⟩ := List.mem_map.mp hmem
  exact h ((lower_eq_iff hb).mp hlower ▸ hc)

theorem lower_lower (c : UInt8) : lower (lower c) = lower c := by
  by_cases h : 65 ≤ c ∧ c ≤ 90
  · have hl : lower c = c + 32 := if_pos h
    have hn : ¬ (65 ≤ c + 32 ∧ c + 32 ≤ 90) := by
      simp only [UInt8.le_iff_toNat_le, UInt8.toNat_add] at h ⊢
      simp at h ⊢
      omega
    rw [hl, lower, if_neg hn]
  · have hl : lower c = c := if_neg h
    rw [hl, hl]

theorem lowerCopy_lowerCopy (s : Bytes) : lowerCopy (lowerCopy s) = lowerCopy s := by
  simp [lowerCopy, lower_lower]

@[simp] theorem lowerCopy_length (s : Bytes) : (lowerCopy s).length = s.length := by
  simp [lowerCopy]

/-- Remove leading white space. -/
def trimLeft (s : Bytes) : Bytes := s.dropWhile isSpace

/-- Remove leading and trailing white space. -/
def trim (s : Bytes) : Bytes := (trimLeft (trimLeft s).reverse).reverse

theorem trim_isInfix (s : Bytes) : trim s <:+: s := by
  have hright : trimLeft (trimLeft s).reverse <:+ (trimLeft s).reverse := List.dropWhile_suffix _
  have hprefix := List.reverse_prefix.mpr hright
  rw [List.reverse_reverse] at hprefix
  exact hprefix.isInfix.trans (List.dropWhile_suffix _).isInfix

/-! ### Splitting -/

/-- The parts between the bytes `sep`; there is none after a last `sep`. -/
def splitParts (sep : UInt8) : Bytes → List Bytes
  | [] => []
  | c :: cs =>
    if c = sep then [] :: splitParts sep cs
    else
      match splitParts sep cs with
      | [] => [[c]]
      | part :: parts => (c :: part) :: parts

example : splitParts 59 (str "a=b;;Path=/;") = [str "a=b", [], str "Path=/"] := by decide

/-! ### Decimal numerals -/

/-- The digits of `n`, most significant first, produced with `fuel` divisions. -/
def decimalAux : Nat → Nat → Bytes → Bytes
  | 0, _, acc => acc
  | fuel + 1, n, acc =>
    let acc := (n % 10 + 48).toUInt8 :: acc
    if n / 10 = 0 then acc else decimalAux fuel (n / 10) acc

/-- `std::to_string` of an unsigned number. -/
def decimal (n : Nat) : Bytes := decimalAux (n + 1) n []

example : decimal 1024 = str "1024" := by decide

end HttpClient.Text
