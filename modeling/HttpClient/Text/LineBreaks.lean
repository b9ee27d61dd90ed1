import HttpClient.Text.Lines

/-!
# Counting line breaks

Parts of a text can form a line break where they meet: one ends with CR and the next
begins with LF. Otherwise the line breaks of a text are those of its parts. A text
without line breaks has none in any piece that is cut out of it.

## Main definitions

* `breaks` — the number of line breaks, CR LF, in a text
* `Unbroken` — there is none

## Main results

* `breaks_append` — a seam that forms no line break
* `Unbroken.of_piece` — pieces of an unbroken text
* `breaks_renderLines` — a block of unbroken lines has one line break for each
-/

set_option autoImplicit false

namespace HttpClient.Text

/-- The number of line breaks. -/
def breaks : Bytes → Nat
  | a :: b :: text => (if a = 13 ∧ b = 10 then 1 else 0) + breaks (b :: text)
  | _ => 0

/-- There is no line break. -/
def Unbroken (text : Bytes) : Prop := breaks text = 0

instance (text : Bytes) : Decidable (Unbroken text) := inferInstanceAs (Decidable (_ = 0))

@[simp] theorem breaks_nil : breaks [] = 0 := rfl

@[simp] theorem breaks_singleton (a : UInt8) : breaks [a] = 0 := rfl

theorem breaks_cons_cons (a b : UInt8) (text : Bytes) :
    breaks (a :: b :: text) = (if a = 13 ∧ b = 10 then 1 else 0) + breaks (b :: text) := rfl

theorem unbroken_nil : Unbroken [] := rfl

/-- A byte other than CR forms no line break. -/
theorem breaks_cons_of_ne {a : UInt8} (h : a ≠ 13) (text : Bytes) :
    breaks (a :: text) = breaks text := by
  cases text with
  | nil => rfl
  | cons b text => rw [breaks_cons_cons, if_neg (fun hab => h hab.1), Nat.zero_add]

/-! ### Seams -/

/-- Two texts that form no line break where they meet. -/
def Apart (x y : Bytes) : Prop := x.getLast? ≠ some 13 ∨ y.head? ≠ some 10

theorem Apart.left {x y : Bytes} (h : x.getLast? ≠ some 13) : Apart x y := .inl h

theorem Apart.right {x y : Bytes} (h : y.head? ≠ some 10) : Apart x y := .inr h

theorem Apart.tail {a b : UInt8} {x y : Bytes} (h : Apart (a :: b :: x) y) :
    Apart (b :: x) y := by
  rcases h with hlast | hhead
  · exact .inl (by rwa [List.getLast?_cons_cons] at hlast)
  · exact .inr hhead

/-- The line breaks of a text are those of its parts, and one where they meet or none. -/
theorem breaks_append {x y : Bytes} (h : Apart x y) : breaks (x ++ y) = breaks x + breaks y := by
  induction x with
  | nil => simp
  | cons a x ih =>
    cases x with
    | nil =>
      rw [List.singleton_append, breaks_singleton, Nat.zero_add]
      cases y with
      | nil => rfl
      | cons b y =>
        have hseam : ¬ (a = 13 ∧ b = 10) := by
          rintro ⟨rfl, rfl⟩
          rcases h with hlast | hhead
          · exact hlast rfl
          · exact hhead rfl
        rw [breaks_cons_cons, if_neg hseam, Nat.zero_add]
    | cons b x =>
      rw [List.cons_append, List.cons_append, breaks_cons_cons, breaks_cons_cons,
        ← List.cons_append, ih h.tail, Nat.add_assoc]

theorem breaks_append_le (x y : Bytes) : breaks x + breaks y ≤ breaks (x ++ y) := by
  induction x with
  | nil => simp
  | cons a x ih =>
    cases x with
    | nil =>
      rw [List.singleton_append, breaks_singleton, Nat.zero_add]
      cases y with
      | nil => exact Nat.le_refl _
      | cons b y =>
        rw [breaks_cons_cons]
        exact Nat.le_add_left _ _
    | cons b x =>
      rw [List.cons_append, List.cons_append, breaks_cons_cons, breaks_cons_cons,
        ← List.cons_append, Nat.add_assoc]
      exact Nat.add_le_add_left ih _

theorem breaks_le_of_piece {s t : Bytes} (h : s <:+: t) : breaks s ≤ breaks t := by
  obtain ⟨before, rest, rfl⟩ := h
  have hleft := breaks_append_le (before ++ s) rest
  have hright := breaks_append_le before s
  omega

/-! ### Unbroken texts -/

namespace Unbroken

variable {s t x y : Bytes}

/-- A piece of an unbroken text is unbroken. -/
theorem of_piece (h : Unbroken t) (hpiece : s <:+: t) : Unbroken s :=
  Nat.eq_zero_of_le_zero (h ▸ breaks_le_of_piece hpiece)

theorem append (hx : Unbroken x) (hy : Unbroken y) (h : Apart x y) : Unbroken (x ++ y) := by
  rw [Unbroken, breaks_append h, hx, hy]

theorem take (h : Unbroken t) (n : Nat) : Unbroken (t.take n) :=
  h.of_piece (List.take_prefix n t).isInfix

theorem drop (h : Unbroken t) (n : Nat) : Unbroken (t.drop n) :=
  h.of_piece (List.drop_suffix n t).isInfix

theorem trimLeft (h : Unbroken t) : Unbroken (Text.trimLeft t) :=
  h.of_piece (List.dropWhile_suffix _).isInfix

theorem trim (h : Unbroken t) : Unbroken (Text.trim t) := h.of_piece (trim_isInfix t)

/-- Texts put together with a separator that holds neither CR nor LF at its ends. -/
theorem intercalate {sep : Bytes} {parts : List Bytes} (hsep : Unbroken sep)
    (hne : sep ≠ []) (hhead : sep.head? ≠ some 10) (hlast : sep.getLast? ≠ some 13)
    (h : ∀ part ∈ parts, Unbroken part) : Unbroken (sep.intercalate parts) := by
  induction parts with
  | nil => exact unbroken_nil
  | cons part parts ih =>
    have hpart := h part List.mem_cons_self
    have hrest := ih fun p hp => h p (List.mem_cons_of_mem _ hp)
    cases parts with
    | nil => simpa [List.intercalate] using hpart
    | cons next parts =>
      have hcut : sep.intercalate (part :: next :: parts) =
          part ++ (sep ++ sep.intercalate (next :: parts)) := by
        simp [List.intercalate]
      rw [hcut]
      refine hpart.append (hsep.append hrest (.left hlast)) (.right ?_)
      obtain ⟨c, rest, rfl⟩ := List.exists_cons_of_ne_nil hne
      exact hhead

end Unbroken

/-- A text without CR has no line break. -/
theorem IsLine.unbroken {line : Bytes} (h : IsLine line) : Unbroken line := by
  induction line with
  | nil => exact unbroken_nil
  | cons a line ih => exact (breaks_cons_of_ne h.head_ne line).trans (ih h.tail)

/-- Parts of a text are pieces of it. -/
theorem infix_of_mem_splitParts {sep : UInt8} {t part : Bytes} (h : part ∈ splitParts sep t) :
    part <:+: t := by
  -- the first part is a prefix, the others lie in what follows
  suffices hboth : (∀ first rest, splitParts sep t = first :: rest → first <+: t ∧
      ∀ p ∈ rest, p <:+: t) by
    cases hparts : splitParts sep t with
    | nil => simp [hparts] at h
    | cons first rest =>
      obtain ⟨hfirst, hrest⟩ := hboth first rest hparts
      rw [hparts] at h
      rcases List.mem_cons.mp h with rfl | hmem
      · exact hfirst.isInfix
      · exact hrest part hmem
  clear h
  induction t with
  | nil =>
    intro first rest h
    simp [splitParts] at h
  | cons c cs ih =>
    intro first rest h
    rw [splitParts] at h
    by_cases hsep : c = sep
    · rw [if_pos hsep] at h
      obtain ⟨rfl, rfl⟩ := List.cons.inj h
      refine ⟨List.nil_prefix, fun p hp => ?_⟩
      cases hparts : splitParts sep cs with
      | nil => simp [hparts] at hp
      | cons first rest =>
        obtain ⟨hfirst, hrest⟩ := ih first rest hparts
        rw [hparts] at hp
        rcases List.mem_cons.mp hp with rfl | hmem
        · exact List.infix_cons hfirst.isInfix
        · exact List.infix_cons (hrest p hmem)
    · rw [if_neg hsep] at h
      cases hparts : splitParts sep cs with
      | nil =>
        rw [hparts] at h
        obtain ⟨rfl, rfl⟩ := List.cons.inj h
        exact ⟨List.cons_prefix_cons.mpr ⟨rfl, List.nil_prefix⟩, fun p hp =>
          absurd hp List.not_mem_nil⟩
      | cons part parts =>
        obtain ⟨hfirst, hrest⟩ := ih part parts hparts
        rw [hparts] at h
        obtain ⟨rfl, rfl⟩ := List.cons.inj h
        exact ⟨List.cons_prefix_cons.mpr ⟨rfl, hfirst⟩, fun p hp => List.infix_cons (hrest p hp)⟩

/-! ### Blocks of lines -/

/-- Ending a line forms one line break, wherever the line ends. -/
theorem breaks_endLine {line : Bytes} (h : Unbroken line) : breaks (endLine line) = 1 := by
  rw [endLine, breaks_append (.right (by decide)), h]
  rfl

theorem breaks_renderLines {lines : List Bytes} (h : ∀ line ∈ lines, Unbroken line) :
    breaks (renderLines lines) = lines.length := by
  induction lines with
  | nil => rfl
  | cons line lines ih =>
    have hline := h line List.mem_cons_self
    have hrest := ih fun l hl => h l (List.mem_cons_of_mem _ hl)
    have hlast : (endLine line).getLast? ≠ some 13 := by
      simp [endLine, crlf]
    have hcut : renderLines (line :: lines) = endLine line ++ renderLines lines := by
      simp [renderLines]
    rw [hcut, breaks_append (.left hlast), breaks_endLine hline, hrest, List.length_cons,
      Nat.add_comm]

end HttpClient.Text
