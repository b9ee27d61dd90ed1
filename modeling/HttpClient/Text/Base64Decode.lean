import HttpClient.Text.Encodings

/-!
# Reading encoded texts

Base64 texts are read four characters at a time; only the last four may be padded. In a
percent-encoded text any byte may be written as `%` and two hexadecimal digits, and some bytes
have to be.

## Main definitions

* `sextetValue`, `base64Decode` — reading base64
* `PercentEncoded` — the texts that stand for a byte string

## Main results

* `base64Decode_base64Encode` — a byte string is read back from its base64 text
* `PercentEncoded.decode` — a byte string is read back from each text that stands for it
-/

set_option autoImplicit false

namespace HttpClient.Text

/-! ### Base64 -/

/-- The six-bit value of a character. -/
def sextetValue (c : UInt8) : Option Nat :=
  if c ∈ alphabet then some (alphabet.idxOf c) else none

theorem sextetValue_sextet {i : Nat} (h : i < 64) : sextetValue (sextet i) = some i := by
  rw [sextetValue, if_pos (sextet_mem h), sextet_eq (alphabet_length ▸ h),
    alphabet_nodup.idxOf_getElem]

/-- The three bytes of four sextets. -/
def firstByte (i j : Nat) : UInt8 := (i * 4 + j / 16).toUInt8

def secondByte (j k : Nat) : UInt8 := (j % 16 * 16 + k / 4).toUInt8

def thirdByte (k l : Nat) : UInt8 := (k % 4 * 64 + l).toUInt8

/-- Read base64. The last four characters may stand for one byte or two. -/
def base64Decode : Bytes → Option Bytes
  | a :: b :: c :: d :: rest =>
    if rest = [] ∧ d = 61 then
      if c = 61 then do
        let i ← sextetValue a
        let j ← sextetValue b
        return [firstByte i j]
      else do
        let i ← sextetValue a
        let j ← sextetValue b
        let k ← sextetValue c
        return [firstByte i j, secondByte j k]
    else do
      let i ← sextetValue a
      let j ← sextetValue b
      let k ← sextetValue c
      let l ← sextetValue d
      let more ← base64Decode rest
      return firstByte i j :: secondByte j k :: thirdByte k l :: more
  | [] => some []
  | _ => none

example : base64Decode (str "cHc=") = some (str "pw") := by decide +kernel

theorem toUInt8_eq {n : Nat} {c : UInt8} (h : n = c.toNat) : n.toUInt8 = c := by
  rw [h, Nat.toUInt8_eq, UInt8.ofNat_toNat]

theorem firstByte_eq (a b : UInt8) :
    firstByte (a.toNat / 4) (a.toNat % 4 * 16 + b.toNat / 16) = a := by
  have hb := b.toNat_lt
  apply toUInt8_eq
  omega

theorem secondByte_eq (a b c : UInt8) :
    secondByte (a.toNat % 4 * 16 + b.toNat / 16) (b.toNat % 16 * 4 + c.toNat / 64) = b := by
  have hb := b.toNat_lt
  have hc := c.toNat_lt
  apply toUInt8_eq
  omega

theorem thirdByte_eq (b c : UInt8) :
    thirdByte (b.toNat % 16 * 4 + c.toNat / 64) (c.toNat % 64) = c := by
  have hc := c.toNat_lt
  apply toUInt8_eq
  omega

/-- A byte string is read back from its base64 text. -/
theorem base64Decode_base64Encode (s : Bytes) : base64Decode (base64Encode s) = some s := by
  induction s using base64Encode.induct with
  | case1 a b c rest ih =>
    have hlast : sextet (c.toNat % 64) ≠ 61 := sextet_ne_pad (fourth_lt c)
    rw [base64Encode, base64Decode, if_neg fun h => hlast h.2, sextetValue_sextet (first_lt a),
      sextetValue_sextet (second_lt a b), sextetValue_sextet (third_lt b c),
      sextetValue_sextet (fourth_lt c), ih]
    simp only [Option.bind_eq_bind, Option.bind_some, firstByte_eq, secondByte_eq, thirdByte_eq]
    rfl
  | case2 a b =>
    -- the byte that is missing counts as zero
    have hthird : b.toNat % 16 * 4 = b.toNat % 16 * 4 + (0 : UInt8).toNat / 64 := rfl
    have hpad : sextet (b.toNat % 16 * 4) ≠ 61 := sextet_ne_pad (third_lt b 0)
    rw [base64Encode, base64Decode, if_pos ⟨rfl, rfl⟩, if_neg hpad,
      sextetValue_sextet (first_lt a), sextetValue_sextet (second_lt a b), hthird,
      sextetValue_sextet (third_lt b 0)]
    simp only [Option.bind_eq_bind, Option.bind_some, firstByte_eq, secondByte_eq]
    rfl
  | case3 a =>
    have hsecond : a.toNat % 4 * 16 = a.toNat % 4 * 16 + (0 : UInt8).toNat / 16 := rfl
    rw [base64Encode, base64Decode, if_pos ⟨rfl, rfl⟩, if_pos rfl, sextetValue_sextet (first_lt a),
      hsecond, sextetValue_sextet (second_lt a 0)]
    simp only [Option.bind_eq_bind, Option.bind_some, firstByte_eq]
    rfl
  | case4 => rfl

/-! ### Percent encoding -/

/-- The digits of a four-bit value, in either case. -/
def hexDigitsOf (n : Nat) : Bytes :=
  [(str "0123456789ABCDEF").getD n 0, (str "0123456789abcdef").getD n 0]

/-- The text stands for the bytes, and the bytes of `reserved` are written with digits. -/
inductive PercentEncoded (reserved : Bytes) : Bytes → Bytes → Prop where
  | nil : PercentEncoded reserved [] []
  | plain {c : UInt8} {text bytes : Bytes} (hc : c ∉ reserved)
      (h : PercentEncoded reserved text bytes) : PercentEncoded reserved (c :: text) (c :: bytes)
  | escaped {c hi lo : UInt8} {text bytes : Bytes} (hhi : hi ∈ hexDigitsOf (c.toNat / 16))
      (hlo : lo ∈ hexDigitsOf (c.toNat % 16)) (h : PercentEncoded reserved text bytes) :
      PercentEncoded reserved (37 :: hi :: lo :: text) (c :: bytes)

theorem hexValue_of_mem {n : Nat} (hn : n < 16) {d : UInt8} (hd : d ∈ hexDigitsOf n) :
    hexValue d = some n := by
  have hall : ∀ n < 16, ∀ d ∈ hexDigitsOf n, hexValue d = some n := by decide +kernel
  exact hall n hn d hd

theorem escapedByte_of_mem {c hi lo : UInt8} (hhi : hi ∈ hexDigitsOf (c.toNat / 16))
    (hlo : lo ∈ hexDigitsOf (c.toNat % 16)) : escapedByte 37 hi lo = some c := by
  have hc := c.toNat_lt
  rw [escapedByte, if_pos rfl, hexValue_of_mem (by omega) hhi, hexValue_of_mem (by omega) hlo]
  apply congrArg some
  apply toUInt8_eq
  omega

namespace PercentEncoded

variable {reserved text bytes : Bytes}

/-- A byte string is read back from each text that stands for it. -/
theorem decode (hpercent : 37 ∈ reserved) (h : PercentEncoded reserved text bytes) :
    percentDecode text = bytes := by
  induction h with
  | nil => rfl
  | @plain c text bytes hc _ ih =>
    have hne : c ≠ 37 := fun heq => hc (heq ▸ hpercent)
    rw [percentDecode_cons hne, ih]
  | escaped hhi hlo _ ih => rw [percentDecode, escapedByte_of_mem hhi hlo, ih]

/-- A reserved byte that is neither `%` nor a digit does not occur. -/
theorem not_mem {c : UInt8} (h : PercentEncoded reserved text bytes) (hc : c ∈ reserved)
    (hpercent : c ≠ 37) (hdigit : hexValue c = none) : c ∉ text := by
  induction h with
  | nil => exact List.not_mem_nil
  | plain hplain _ ih =>
    rw [List.mem_cons, not_or]
    exact ⟨fun heq => hplain (heq ▸ hc), ih⟩
  | @escaped byte hi lo text bytes hhi hlo _ ih =>
    have hbyte := byte.toNat_lt
    have hne : ∀ n < 16, ∀ d ∈ hexDigitsOf n, c ≠ d := by
      rintro n hn d hd rfl
      rw [hexValue_of_mem hn hd] at hdigit
      cases hdigit
    simp only [List.mem_cons, not_or]
    exact ⟨hpercent, hne _ (by omega) hi hhi, hne _ (by omega) lo hlo, ih⟩

end PercentEncoded

end HttpClient.Text
