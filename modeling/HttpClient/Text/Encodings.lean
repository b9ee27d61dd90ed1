import HttpClient.Text.Bytes
import Mathlib.Data.List.Nodup

/-!
# Delimited texts and encodings

When a text is put together from parts and separators, the parts can be read back
as long as a separator does not occur on one of its sides. Numerals and base64
texts can always be read back.

## Main definitions

* `percentDecode` — replace `%` and two hexadecimal digits by the byte they denote
* `base64Encode` — base64 with padding

## Main results

* `cut_first`, `cut_last` — the parts around a separator that one side cannot contain
* `findByte_eq_some`, `rfindByte_eq_some` — the text around an occurrence of a byte
* `decimal_injective`, `base64Encode_injective` — encodings that can be read back
-/

set_option autoImplicit false

namespace HttpClient.Text

/-! ### Cutting at a separator -/

section Cut

variable {α : Type} {sep : α} {x y u v : List α}

/-- Around the first separator the parts are determined. -/
theorem cut_first (hx : sep ∉ x) (hy : sep ∉ y) (h : x ++ sep :: u = y ++ sep :: v) :
    x = y ∧ u = v := by
  induction x generalizing y with
  | nil =>
    cases y with
    | nil => exact ⟨rfl, (List.cons.inj h).2⟩
    | cons c y => exact absurd ((List.cons.inj h).1 ▸ List.mem_cons_self) hy
  | cons a x ih =>
    cases y with
    | nil => exact absurd ((List.cons.inj h).1 ▸ List.mem_cons_self) hx
    | cons c y =>
      obtain ⟨rfl, htail⟩ := List.cons.inj h
      have hx' : sep ∉ x := fun hmem => hx (List.mem_cons_of_mem _ hmem)
      have hy' : sep ∉ y := fun hmem => hy (List.mem_cons_of_mem _ hmem)
      obtain ⟨rfl, rfl⟩ := ih hx' hy' htail
      exact ⟨rfl, rfl⟩

/-- Around the last separator the parts are determined. -/
theorem cut_last (hu : sep ∉ u) (hv : sep ∉ v) (h : x ++ sep :: u = y ++ sep :: v) :
    x = y ∧ u = v := by
  -- the last separator of a text is the first one of its reversal
  have hrev : u.reverse ++ sep :: x.reverse = v.reverse ++ sep :: y.reverse := by
    have := congrArg List.reverse h
    simpa using this
  obtain ⟨hu', hx'⟩ := cut_first (by simpa using hu) (by simpa using hv) hrev
  exact ⟨List.reverse_injective hx', List.reverse_injective hu'⟩

/-- A text without the separator is not one that has it. -/
theorem cut_absurd (hx : sep ∉ x) (h : x = y ++ sep :: v) : False := by
  apply hx
  rw [h]
  exact List.mem_append_right _ List.mem_cons_self

end Cut

/-! ### Occurrences of a byte -/

/-- The first occurrence of a byte. -/
theorem findByte_eq_some {b : UInt8} {t : Bytes} {i : Nat} (h : findByte b t = some i) :
    t.drop i = b :: t.drop (i + 1) := by
  induction t generalizing i with
  | nil => simp [findByte] at h
  | cons c cs ih =>
    rw [findByte] at h
    by_cases hcb : c = b
    · obtain rfl : 0 = i := by simpa [hcb] using h
      rw [hcb]
      rfl
    · rw [if_neg hcb] at h
      obtain ⟨j, hj, rfl⟩ := Option.map_eq_some_iff.mp h
      rw [List.drop_succ_cons, List.drop_succ_cons, ih hj]

theorem rfindByte_eq_none {b : UInt8} {t : Bytes} (h : rfindByte b t = none) : b ∉ t := by
  induction t with
  | nil => exact List.not_mem_nil
  | cons c cs ih =>
    rw [rfindByte] at h
    cases hcs : rfindByte b cs with
    | some i => simp [hcs] at h
    | none =>
      have hne : c ≠ b := by
        intro heq
        simp [hcs, heq] at h
      intro hmem
      rcases List.mem_cons.mp hmem with heq | htail
      · exact hne heq.symm
      · exact ih hcs htail

/-- The text around the last occurrence of a byte; the byte does not occur after it. -/
theorem rfindByte_eq_some {b : UInt8} {t : Bytes} {i : Nat} (h : rfindByte b t = some i) :
    t = t.take i ++ b :: t.drop (i + 1) ∧ b ∉ t.drop (i + 1) := by
  induction t generalizing i with
  | nil => simp [rfindByte] at h
  | cons c cs ih =>
    rw [rfindByte] at h
    cases hcs : rfindByte b cs with
    | some j =>
      obtain rfl : j + 1 = i := by simpa [hcs] using h
      obtain ⟨htext, hlast⟩ := ih hcs
      refine ⟨?_, by simpa using hlast⟩
      rw [List.take_succ_cons, List.drop_succ_cons, List.cons_append, ← htext]
    | none =>
      by_cases hcb : c = b
      · obtain rfl : 0 = i := by simpa [hcs, hcb] using h
        exact ⟨by simp [hcb], by simpa using rfindByte_eq_none hcs⟩
      · simp [hcs, hcb] at h

/-! ### Decimal numerals -/

/-- The number that a numeral denotes after the digits of `start`. -/
def readDecimal (start : Nat) (digits : Bytes) : Nat :=
  digits.foldl (fun n c => n * 10 + (c.toNat - 48)) start

theorem toNat_digit {d : Nat} (h : d < 10) : (d + 48).toUInt8.toNat = d + 48 := by
  rw [Nat.toUInt8_eq, UInt8.toNat_ofNat']
  omega

theorem readDecimal_decimalAux {fuel n : Nat} {acc : Bytes} (h : n < fuel) :
    readDecimal 0 (decimalAux fuel n acc) = readDecimal n acc := by
  induction fuel generalizing n acc with
  | zero => exact absurd h (Nat.not_lt_zero n)
  | succ fuel ih =>
    have hdigit : ((n % 10 + 48).toUInt8.toNat - 48) = n % 10 := by
      rw [toNat_digit (Nat.mod_lt n (by decide))]
      omega
    rw [decimalAux]
    split
    · -- the last digit written is the first one of the numeral
      rename_i hlast
      have hn : 0 * 10 + n % 10 = n := by omega
      simp only [readDecimal, List.foldl_cons, hdigit, hn]
    · rename_i hmore
      have hn : n / 10 * 10 + n % 10 = n := by omega
      rw [ih (by omega)]
      simp only [readDecimal, List.foldl_cons, hdigit, hn]

/-- A number is read back from its numeral. -/
theorem readDecimal_decimal (n : Nat) : readDecimal 0 (decimal n) = n :=
  readDecimal_decimalAux (Nat.lt_succ_self n)

theorem decimal_injective {m n : Nat} (h : decimal m = decimal n) : m = n := by
  rw [← readDecimal_decimal m, h, readDecimal_decimal]

theorem isDigit_digit {d : Nat} (h : d < 10) : isDigit (d + 48).toUInt8 := by
  simp only [isDigit, Bool.and_eq_true, decide_eq_true_eq, UInt8.le_iff_toNat_le, toNat_digit h]
  exact ⟨Nat.le_add_left 48 d, by
    show d + 48 ≤ 57
    omega⟩

theorem isDigit_of_mem_decimalAux {fuel n : Nat} {acc : Bytes}
    (hacc : ∀ c ∈ acc, isDigit c) : ∀ c ∈ decimalAux fuel n acc, isDigit c := by
  induction fuel generalizing n acc with
  | zero => exact hacc
  | succ fuel ih =>
    have hacc' : ∀ c ∈ (n % 10 + 48).toUInt8 :: acc, isDigit c := by
      intro c hc
      rcases List.mem_cons.mp hc with rfl | hc
      · exact isDigit_digit (Nat.mod_lt n (by decide))
      · exact hacc c hc
    rw [decimalAux]
    split
    · exact hacc'
    · exact ih hacc'

theorem isDigit_of_mem_decimal {n : Nat} : ∀ c ∈ decimal n, isDigit c :=
  isDigit_of_mem_decimalAux (fun _ hc => absurd hc List.not_mem_nil)

/-- A byte that is no digit does not occur among digits. -/
theorem not_mem_of_digits {c : UInt8} {digits : Bytes} (hdigits : ∀ d ∈ digits, isDigit d)
    (hc : isDigit c = false) : c ∉ digits := by
  intro hmem
  rw [hdigits c hmem] at hc
  exact Bool.noConfusion hc

/-! ### Percent encoding -/

def hexValue (ch : UInt8) : Option Nat :=
  if 48 ≤ ch ∧ ch ≤ 57 then some (ch.toNat - 48)
  else if 97 ≤ ch ∧ ch ≤ 102 then some (10 + ch.toNat - 97)
  else if 65 ≤ ch ∧ ch ≤ 70 then some (10 + ch.toNat - 65)
  else none

/-- The byte that `%` and two hexadecimal digits denote. -/
def escapedByte (c hi lo : UInt8) : Option UInt8 :=
  if c = 37 then
    match hexValue hi, hexValue lo with
    | some hi, some lo => some (hi * 16 + lo).toUInt8
    | _, _ => none
  else none

/-- Replace each `%` that two hexadecimal digits follow. -/
def percentDecode : Bytes → Bytes
  | c :: hi :: lo :: rest =>
    match escapedByte c hi lo with
    | some byte => byte :: percentDecode rest
    | none => c :: percentDecode (hi :: lo :: rest)
  | rest => rest

example : percentDecode (str "p%40ss%7C%zz%4") = str "p@ss|%zz%4" := by decide

theorem percentDecode_cons {c : UInt8} (h : c ≠ 37) (rest : Bytes) :
    percentDecode (c :: rest) = c :: percentDecode rest := by
  match rest with
  | [] => rfl
  | [hi] => rfl
  | hi :: lo :: rest =>
    have hplain : escapedByte c hi lo = none := if_neg h
    rw [percentDecode, hplain]

/-! ### Base64 -/

def alphabet : Bytes := str "ABCDEFGHIJKLMNOPQRSTUVWXYZabcdefghijklmnopqrstuvwxyz0123456789+/"

/-- The character of a six-bit value. -/
def sextet (i : Nat) : UInt8 := alphabet.getD i 0

/-- Three bytes become four characters; a rest of one or two bytes is padded with `=`. -/
def base64Encode : Bytes → Bytes
  | a :: b :: c :: rest =>
    sextet (a.toNat / 4) :: sextet (a.toNat % 4 * 16 + b.toNat / 16) ::
      sextet (b.toNat % 16 * 4 + c.toNat / 64) :: sextet (c.toNat % 64) :: base64Encode rest
  | [a, b] =>
    [sextet (a.toNat / 4), sextet (a.toNat % 4 * 16 + b.toNat / 16),
      sextet (b.toNat % 16 * 4), 61]
  | [a] => [sextet (a.toNat / 4), sextet (a.toNat % 4 * 16), 61, 61]
  | [] => []

example : base64Encode (str "pw") = str "cHc=" := by decide

theorem alphabet_length : alphabet.length = 64 := by
  rw [alphabet, str_ofList]
  rfl

theorem alphabet_nodup : alphabet.Nodup := by
  -- the signs, the digits and the letters ascend, taken in this order
  have hascending : (alphabet.drop 62 ++ (alphabet.drop 52).take 10 ++ alphabet.take 52).Pairwise
      (· < ·) := by
    rw [alphabet, str_ofList]
    exact List.isChain_iff_pairwise.mp (by decide +kernel)
  have hrest : alphabet.drop 52 = (alphabet.drop 52).take 10 ++ alphabet.drop 62 := by
    rw [← List.drop_drop (j := 52) (i := 10), List.take_append_drop]
  have hperm : (alphabet.drop 62 ++ (alphabet.drop 52).take 10 ++ alphabet.take 52).Perm
      alphabet := by
    refine (List.perm_append_comm.append_right _).trans ?_
    rw [← hrest]
    refine List.perm_append_comm.trans ?_
    rw [List.take_append_drop]
  exact hperm.nodup_iff.mp (hascending.imp UInt8.ne_of_lt)

theorem sextet_eq {i : Nat} (h : i < alphabet.length) : sextet i = alphabet[i] := by
  rw [sextet, List.getD_eq_getElem?_getD, List.getElem?_eq_getElem h, Option.getD_some]

theorem sextet_injective {i j : Nat} (hi : i < 64) (hj : j < 64)
    (h : sextet i = sextet j) : i = j := by
  rw [sextet_eq (alphabet_length ▸ hi), sextet_eq (alphabet_length ▸ hj)] at h
  exact (List.Nodup.getElem_inj_iff alphabet_nodup).mp h

theorem sextet_mem {i : Nat} (hi : i < 64) : sextet i ∈ alphabet := by
  rw [sextet_eq (alphabet_length ▸ hi)]
  exact List.getElem_mem _

theorem sextet_ne_pad {i : Nat} (hi : i < 64) : sextet i ≠ 61 := by
  have hpad : (61 : UInt8) ∉ alphabet := by
    rw [alphabet, str_ofList]
    decide
  exact fun heq => hpad (heq ▸ sextet_mem hi)

/-! The four sextets of three bytes. A missing byte counts as zero. -/

theorem first_lt (a : UInt8) : a.toNat / 4 < 64 := by
  have ha := a.toNat_lt
  omega

theorem second_lt (a b : UInt8) : a.toNat % 4 * 16 + b.toNat / 16 < 64 := by
  have hb := b.toNat_lt
  omega

theorem third_lt (b c : UInt8) : b.toNat % 16 * 4 + c.toNat / 64 < 64 := by
  have hc := c.toNat_lt
  omega

theorem fourth_lt (c : UInt8) : c.toNat % 64 < 64 := Nat.mod_lt _ (by decide)

theorem mem_base64Encode {s : Bytes} {c : UInt8} (h : c ∈ base64Encode s) :
    c ∈ alphabet ∨ c = 61 := by
  induction s using base64Encode.induct with
  | case1 a b d rest ih =>
    simp only [base64Encode, List.mem_cons] at h
    rcases h with rfl | rfl | rfl | rfl | hrest
    · exact .inl (sextet_mem (first_lt a))
    · exact .inl (sextet_mem (second_lt a b))
    · exact .inl (sextet_mem (third_lt b d))
    · exact .inl (sextet_mem (fourth_lt d))
    · exact ih hrest
  | case2 a b =>
    simp only [base64Encode, List.mem_cons, List.not_mem_nil, or_false] at h
    rcases h with rfl | rfl | rfl | rfl
    · exact .inl (sextet_mem (first_lt a))
    · exact .inl (sextet_mem (second_lt a b))
    · exact .inl (sextet_mem (third_lt b 0))
    · exact .inr rfl
  | case3 a =>
    simp only [base64Encode, List.mem_cons, List.not_mem_nil, or_false] at h
    rcases h with rfl | rfl | rfl | rfl
    · exact .inl (sextet_mem (first_lt a))
    · exact .inl (sextet_mem (second_lt a 0))
    · exact .inr rfl
    · exact .inr rfl
  | case4 => exact absurd h List.not_mem_nil

/-- Three bytes are determined by their sextets. -/
theorem sextets_injective {a b c a' b' c' : UInt8}
    (hfirst : sextet (a.toNat / 4) = sextet (a'.toNat / 4))
    (hsecond : sextet (a.toNat % 4 * 16 + b.toNat / 16) =
      sextet (a'.toNat % 4 * 16 + b'.toNat / 16))
    (hthird : sextet (b.toNat % 16 * 4 + c.toNat / 64) =
      sextet (b'.toNat % 16 * 4 + c'.toNat / 64))
    (hfourth : sextet (c.toNat % 64) = sextet (c'.toNat % 64)) : a = a' ∧ b = b' ∧ c = c' := by
  have hb := b.toNat_lt
  have hb' := b'.toNat_lt
  have hc := c.toNat_lt
  have hc' := c'.toNat_lt
  have e₁ := sextet_injective (first_lt a) (first_lt a') hfirst
  have e₂ := sextet_injective (second_lt a b) (second_lt a' b') hsecond
  have e₃ := sextet_injective (third_lt b c) (third_lt b' c') hthird
  have e₄ := sextet_injective (fourth_lt c) (fourth_lt c') hfourth
  refine ⟨UInt8.toNat_inj.mp ?_, UInt8.toNat_inj.mp ?_, UInt8.toNat_inj.mp ?_⟩
  · omega
  · omega
  · omega

/-- A byte string is determined by its base64 text. -/
theorem base64Encode_injective {s t : Bytes} (h : base64Encode s = base64Encode t) : s = t := by
  induction s using base64Encode.induct generalizing t with
  | case1 a b c rest ih =>
    match t with
    | a' :: b' :: c' :: rest' =>
      simp only [base64Encode, List.cons.injEq] at h
      obtain ⟨hfirst, hsecond, hthird, hfourth, hrest⟩ := h
      obtain ⟨rfl, rfl, rfl⟩ := sextets_injective hfirst hsecond hthird hfourth
      rw [ih hrest]
    | [a', b'] =>
      simp only [base64Encode, List.cons.injEq] at h
      exact absurd h.2.2.2.1 (sextet_ne_pad (fourth_lt c))
    | [a'] =>
      simp only [base64Encode, List.cons.injEq] at h
      exact absurd h.2.2.1 (sextet_ne_pad (third_lt b c))
    | [] => cases h
  | case2 a b =>
    match t with
    | a' :: b' :: c' :: rest' =>
      simp only [base64Encode, List.cons.injEq] at h
      exact absurd h.2.2.2.1.symm (sextet_ne_pad (fourth_lt c'))
    | [a', b'] =>
      simp only [base64Encode, List.cons.injEq] at h
      obtain ⟨hfirst, hsecond, hthird, -⟩ := h
      -- two bytes have the sextets of three of which the last one is zero
      have hthird' : sextet (b.toNat % 16 * 4 + (0 : UInt8).toNat / 64) =
          sextet (b'.toNat % 16 * 4 + (0 : UInt8).toNat / 64) := hthird
      obtain ⟨rfl, rfl, -⟩ := sextets_injective hfirst hsecond hthird' rfl
      rfl
    | [a'] =>
      simp only [base64Encode, List.cons.injEq] at h
      exact absurd h.2.2.1 (sextet_ne_pad (third_lt b 0))
    | [] => cases h
  | case3 a =>
    match t with
    | a' :: b' :: c' :: rest' =>
      simp only [base64Encode, List.cons.injEq] at h
      exact absurd h.2.2.1.symm (sextet_ne_pad (third_lt b' c'))
    | [a', b'] =>
      simp only [base64Encode, List.cons.injEq] at h
      exact absurd h.2.2.1.symm (sextet_ne_pad (third_lt b' 0))
    | [a'] =>
      simp only [base64Encode, List.cons.injEq] at h
      have hsecond : sextet (a.toNat % 4 * 16 + (0 : UInt8).toNat / 16) =
          sextet (a'.toNat % 4 * 16 + (0 : UInt8).toNat / 16) := h.2.1
      have hthird : sextet ((0 : UInt8).toNat % 16 * 4 + (0 : UInt8).toNat / 64) =
          sextet ((0 : UInt8).toNat % 16 * 4 + (0 : UInt8).toNat / 64) := rfl
      obtain ⟨rfl, -, -⟩ := sextets_injective h.1 hsecond hthird rfl
      rfl
    | [] => cases h
  | case4 =>
    match t with
    | _ :: _ :: _ :: _ => cases h
    | [_, _] => cases h
    | [_] => cases h
    | [] => rfl

end HttpClient.Text
