import Mathlib.Data.List.Perm.Basic
import Mathlib.Order.Lattice

/-!
# Dropping the least first

A cache without an order of its own finds the element with the least key when it has one too
many, and drops it; of several it drops the first. What is left are the elements with the
greatest keys, and in a list that is sorted by its keys they are the last ones.

## Main definitions

* `least` — the position of the first element with the least key
* `dropLeast` — drop as many elements, the least first

## Main results

* `le_of_not_mem_dropLeast` — what is dropped has no greater key than what is left
* `dropLeast_of_sorted` — a sorted list loses its first elements
* `mem_dropLeast_of_many_below` — below enough others, an element is left
-/

set_option autoImplicit false

namespace HttpClient.Semantics

variable {α β : Type*} [LinearOrder β] {f : α → β} {l : List α} {a b : α} {n : Nat}

def least (f : α → β) (l : List α) : Nat :=
  l.findIdx fun a => l.all fun b => decide (f a ≤ f b)

def dropLeast (f : α → β) : Nat → List α → List α
  | 0, l => l
  | n + 1, l => dropLeast f n (l.eraseIdx (least f l))

/-- A list that is not empty has an element with the least key. -/
theorem exists_least (h : l ≠ []) : ∃ a ∈ l, ∀ b ∈ l, f a ≤ f b := by
  induction l with
  | nil => exact absurd rfl h
  | cons a l ih =>
    by_cases hl : l = []
    · subst hl
      exact ⟨a, List.mem_cons_self, fun b hb => (congrArg f (List.mem_singleton.mp hb)).ge⟩
    · obtain ⟨c, hc, hleast⟩ := ih hl
      rcases le_total (f a) (f c) with hle | hle
      · refine ⟨a, List.mem_cons_self, fun b hb => ?_⟩
        rcases List.mem_cons.mp hb with rfl | hrest
        · exact le_refl _
        · exact hle.trans (hleast b hrest)
      · refine ⟨c, List.mem_cons_of_mem _ hc, fun b hb => ?_⟩
        rcases List.mem_cons.mp hb with rfl | hrest
        · exact hle
        · exact hleast b hrest

theorem least_lt_length (h : l ≠ []) : least f l < l.length := by
  obtain ⟨a, ha, hleast⟩ := exists_least (f := f) h
  exact List.findIdx_lt_length_of_exists
    ⟨a, ha, List.all_eq_true.mpr fun b hb => decide_eq_true (hleast b hb)⟩

theorem le_of_least (h : least f l < l.length) (hb : b ∈ l) : f l[least f l] ≤ f b := by
  have hfound := List.findIdx_getElem (w := h)
  exact of_decide_eq_true (List.all_eq_true.mp hfound b hb)

theorem dropLeast_sublist (n : Nat) (l : List α) : (dropLeast f n l).Sublist l := by
  induction n generalizing l with
  | zero => exact List.Sublist.refl l
  | succ n ih => exact (ih _).trans (List.eraseIdx_sublist _ _)

theorem length_dropLeast (n : Nat) (l : List α) : (dropLeast f n l).length = l.length - n := by
  induction n generalizing l with
  | zero => rfl
  | succ n ih =>
    rw [dropLeast, ih]
    by_cases hl : l = []
    · subst hl
      simp
    · rw [List.length_eraseIdx_of_lt (least_lt_length hl)]
      omega

/-- What is dropped has no greater key than what is left. -/
theorem le_of_not_mem_dropLeast (ha : a ∈ l) (hdropped : a ∉ dropLeast f n l)
    (hb : b ∈ dropLeast f n l) : f a ≤ f b := by
  induction n generalizing l with
  | zero => exact absurd ha hdropped
  | succ n ih =>
    have hlt : least f l < l.length := least_lt_length (List.ne_nil_of_mem ha)
    by_cases hrest : a ∈ l.eraseIdx (least f l)
    · exact ih hrest hdropped hb
    · -- it is the one that is dropped first
      have hmem : b ∈ l := ((dropLeast_sublist (f := f) (n + 1) l).subset hb)
      obtain ⟨i, hi, rfl⟩ := List.getElem_of_mem ha
      have hindex : i = least f l := by
        by_contra hne
        exact hrest (List.mem_eraseIdx_iff_getElem.mpr ⟨i, hi, hne, rfl⟩)
      subst hindex
      exact le_of_least hlt hmem

/-- In a sorted list the first element is the least. -/
theorem least_of_sorted (h : l.Pairwise fun a b => f a ≤ f b) : least f l = 0 := by
  cases l with
  | nil => rfl
  | cons a l =>
    have hfirst : ((a :: l).all fun b => decide (f a ≤ f b)) = true := by
      refine List.all_eq_true.mpr fun b hb => decide_eq_true ?_
      rcases List.mem_cons.mp hb with rfl | hrest
      · exact le_refl _
      · exact (List.pairwise_cons.mp h).1 b hrest
    rw [least, List.findIdx_cons, hfirst]
    rfl

/-- A sorted list loses its first elements. -/
theorem dropLeast_of_sorted (h : l.Pairwise fun a b => f a ≤ f b) (n : Nat) :
    dropLeast f n l = l.drop n := by
  induction n generalizing l with
  | zero => rfl
  | succ n ih =>
    rw [dropLeast, least_of_sorted h]
    cases l with
    | nil =>
      rw [List.eraseIdx_nil, ih h, List.drop_nil, List.drop_nil]
    | cons a l =>
      rw [List.eraseIdx_cons_zero, List.drop_succ_cons]
      exact ih (List.pairwise_cons.mp h).2

/-- If at least as many elements as are dropped have smaller keys, an element is left. -/
theorem mem_dropLeast_of_many_below {below : α → Bool} (ha : a ∈ l)
    (hbelow : ∀ b ∈ l, below b = true → f b < f a) (hmany : n ≤ l.countP below) :
    a ∈ dropLeast f n l := by
  induction n generalizing l with
  | zero => exact ha
  | succ n ih =>
    have hlt : least f l < l.length := least_lt_length (List.ne_nil_of_mem ha)
    obtain ⟨b, hb, hsmaller⟩ := List.countP_pos_iff.mp (Nat.lt_of_lt_of_le (Nat.succ_pos n) hmany)
    have hfirst : f l[least f l] < f a :=
      (le_of_least hlt hb).trans_lt (hbelow b hb hsmaller)
    have hrest : a ∈ l.eraseIdx (least f l) := by
      obtain ⟨i, hi, rfl⟩ := List.getElem_of_mem ha
      refine List.mem_eraseIdx_iff_getElem.mpr ⟨i, hi, fun hindex => ?_, rfl⟩
      subst hindex
      exact lt_irrefl _ hfirst
    refine ih hrest (fun c hc => hbelow c (List.mem_of_mem_eraseIdx hc)) ?_
    have hsplit := (List.getElem_cons_eraseIdx_perm hlt).countP_eq below
    rw [List.countP_cons] at hsplit
    split at hsplit
    · omega
    · omega

end HttpClient.Semantics
