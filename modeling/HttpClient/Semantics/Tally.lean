import Mathlib.Algebra.GroupWithZero.Nat
import Mathlib.Data.List.Count
import Mathlib.Data.List.Perm.Basic
import Mathlib.Tactic.SplitIfs

/-!
# Counting parties

Parties that act one at a time are kept in a list, and a step of one of them replaces or removes
its entry. How many of them have a property, or the sum of what they have, then changes by what
the step does to that one. If one of them at most has a property, it is known which.

## Main definitions

* `advanceAt` — the list after a step of one party

## Main results

* `countP_set_add`, `countP_eraseIdx_add` — what a step of one party does to a count
* `sum_map_advanceAt` — what it does to a sum
* `eq_of_countP_le_one` — there is one party only
-/

set_option autoImplicit false

namespace HttpClient.Semantics

variable {α : Type*} {p : α → Bool} {l : List α} {a b : α} {i : Nat}

theorem countP_eraseIdx_add (p : α → Bool) (hget : l[i]? = some a) :
    (l.eraseIdx i).countP p + (if p a then 1 else 0) = l.countP p := by
  obtain ⟨hi, rfl⟩ := List.getElem?_eq_some_iff.mp hget
  have hold := (List.getElem_cons_eraseIdx_perm hi).countP_eq p
  rw [List.countP_cons] at hold
  exact hold

theorem countP_set_add (p : α → Bool) (b : α) (hget : l[i]? = some a) :
    (l.set i b).countP p + (if p a then 1 else 0) = l.countP p + if p b then 1 else 0 := by
  have hrest := countP_eraseIdx_add p hget
  obtain ⟨hi, rfl⟩ := List.getElem?_eq_some_iff.mp hget
  rw [List.countP_set hi]
  omega

/-- If one at most has a property, two that have it are the same. -/
theorem eq_of_countP_le_one (h : l.countP p ≤ 1) (ha : a ∈ l) (hb : b ∈ l) (hpa : p a = true)
    (hpb : p b = true) : a = b := by
  rw [List.countP_eq_length_filter] at h
  have ha' : a ∈ l.filter p := List.mem_filter.mpr ⟨ha, hpa⟩
  have hb' : b ∈ l.filter p := List.mem_filter.mpr ⟨hb, hpb⟩
  match hfilter : l.filter p with
  | [] => rw [hfilter] at ha'; cases ha'
  | [c] =>
    rw [hfilter, List.mem_singleton] at ha' hb'
    rw [ha', hb']
  | _ :: _ :: _ => simp [hfilter] at h

theorem countP_pos_of_getElem? (hget : l[i]? = some a) (hpa : p a = true) : 0 < l.countP p :=
  List.countP_pos_iff.mpr ⟨a, List.mem_of_getElem? hget, hpa⟩

/-! ### A step of one party -/

/-- The list after a step of one party, which goes on or is over. -/
def advanceAt (l : List α) (i : Nat) : Option α → List α
  | some b => l.set i b
  | none => l.eraseIdx i

/-- The party that takes a step, and the others. -/
theorem perm_cons_eraseIdx (hget : l[i]? = some a) : (a :: l.eraseIdx i).Perm l := by
  obtain ⟨hi, rfl⟩ := List.getElem?_eq_some_iff.mp hget
  exact List.getElem_cons_eraseIdx_perm hi

theorem advanceAt_perm (hget : l[i]? = some a) (next : Option α) :
    (advanceAt l i next).Perm (next.toList ++ l.eraseIdx i) := by
  cases next with
  | none => exact .refl _
  | some b =>
    have hi : i < l.length := (List.getElem?_eq_some_iff.mp hget).1
    have hset : (l.set i b)[i]? = some b := List.getElem?_set_self hi
    have hperm := (perm_cons_eraseIdx hset).symm
    rw [List.eraseIdx_set_eq] at hperm
    exact hperm

theorem sum_map_advanceAt (f : α → Nat) (hget : l[i]? = some a) (next : Option α) :
    ((advanceAt l i next).map f).sum + f a = (l.map f).sum + (next.map f).getD 0 := by
  have hold := ((perm_cons_eraseIdx hget).map f).sum_nat
  have hnew := ((advanceAt_perm hget next).map f).sum_nat
  rw [List.map_cons, List.sum_cons] at hold
  cases next with
  | none =>
    rw [Option.toList_none, List.nil_append] at hnew
    rw [Option.map_none, Option.getD_none]
    omega
  | some b =>
    rw [Option.toList_some, List.singleton_append, List.map_cons, List.sum_cons] at hnew
    rw [Option.map_some, Option.getD_some]
    omega

theorem mem_advanceAt {next : Option α} (h : b ∈ advanceAt l i next) : next = some b ∨ b ∈ l := by
  cases next with
  | none => exact .inr (List.mem_of_mem_eraseIdx h)
  | some c => exact (List.mem_or_eq_of_mem_set h).symm.imp_left fun hc => by rw [hc]

/-- Nobody leaves the list but the party that takes a step. -/
theorem mem_advanceAt_of_mem (hget : l[i]? = some a) (next : Option α) (h : b ∈ l) :
    b = a ∨ b ∈ advanceAt l i next := by
  rcases List.mem_cons.mp ((perm_cons_eraseIdx hget).mem_iff.mpr h) with hfirst | hrest
  · exact .inl hfirst
  · exact .inr ((advanceAt_perm hget next).mem_iff.mpr (List.mem_append_right _ hrest))

end HttpClient.Semantics
