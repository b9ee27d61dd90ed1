import Mathlib.Data.List.Basic

/-!
# Lists of bounded length in an array

A list that is built entry by entry is stored in an array of fixed size if a bound on its
length, known beforehand, says that it fits, and in growing storage otherwise. A write beyond
the array is an error.

## Main definitions

* `SpillList` — the array, the growing storage and the bound
* `SpillList.push` — another entry; `none` is a write beyond the array
* `SpillList.contents` — the entries that are read back

## Main results

* `SpillList.Holds.pushAll` — as many entries as the bound allows are stored in their order
-/

set_option autoImplicit false

namespace HttpClient.Semantics

/-- The storage of a list with at most `bound` entries. -/
structure SpillList (α : Type) (size : Nat) where
  bound : Nat
  array : Vector α size
  count : Nat
  spilled : List α

namespace SpillList

variable {α : Type} {size : Nat} {list : SpillList α size} {entries : List α}

/-- Nothing is stored yet; the array is blank. -/
def empty (size bound : Nat) (blank : α) : SpillList α size where
  bound := bound
  array := Vector.replicate size blank
  count := 0
  spilled := []

def push (list : SpillList α size) (a : α) : Option (SpillList α size) :=
  if list.bound ≤ size then
    if h : list.count < size then
      some { list with array := list.array.set list.count a h, count := list.count + 1 }
    else none
  else some { list with spilled := list.spilled ++ [a] }

def contents (list : SpillList α size) : List α :=
  if list.bound ≤ size then list.array.toList.take list.count else list.spilled

/-- The entries are stored; in the array they are counted. -/
structure Holds (list : SpillList α size) (entries : List α) : Prop where
  contents_eq : list.contents = entries
  count_eq : list.bound ≤ size → list.count = entries.length

theorem holds_empty (size bound : Nat) (blank : α) : Holds (empty size bound blank) [] where
  contents_eq := by
    rw [contents, empty]
    split
    · exact List.take_zero
    · rfl
  count_eq _ := rfl

/-- The entries of an array up to the one that has been written last. -/
theorem take_set (array : Vector α size) {n : Nat} (h : n < size) (a : α) :
    (array.set n a h).toList.take (n + 1) = array.toList.take n ++ [a] := by
  have hlength : n < (array.toList.set n a).length := by
    rw [List.length_set, Vector.length_toList]
    exact h
  rw [Vector.toList_set, List.take_succ_eq_append_getElem hlength, List.getElem_set_self,
    List.take_set_of_le (Nat.le_refl n)]

/-- While the bound is not reached, an entry is stored behind the others. -/
theorem Holds.push (h : list.Holds entries) (a : α) (hroom : entries.length < list.bound) :
    ∃ next, list.push a = some next ∧ next.Holds (entries ++ [a]) ∧ next.bound = list.bound := by
  rw [SpillList.push]
  by_cases hfits : list.bound ≤ size
  · have hcount := h.count_eq hfits
    have hlt : list.count < size := by omega
    rw [if_pos hfits, dif_pos hlt]
    refine ⟨_, rfl, ⟨?_, fun _ => ?_⟩, rfl⟩
    · have hold := h.contents_eq
      rw [contents, if_pos hfits] at hold
      rw [contents, if_pos hfits, ← hold]
      exact take_set list.array hlt a
    · rw [List.length_append, List.length_singleton, ← hcount]
  · rw [if_neg hfits]
    refine ⟨_, rfl, ⟨?_, fun h => absurd h hfits⟩, rfl⟩
    have hold := h.contents_eq
    rw [contents, if_neg hfits] at hold
    rw [contents, if_neg hfits, hold]

/-- As many entries as the bound allows are stored in their order. -/
theorem Holds.pushAll {more : List α} (h : list.Holds entries)
    (hroom : entries.length + more.length ≤ list.bound) :
    ∃ next, more.foldlM SpillList.push list = some next ∧ next.Holds (entries ++ more) := by
  induction more generalizing list entries with
  | nil => exact ⟨list, rfl, by rwa [List.append_nil]⟩
  | cons a more ih =>
    rw [List.length_cons] at hroom
    obtain ⟨next, hpush, hnext, hbound⟩ := h.push a (by omega)
    have hmore : (entries ++ [a]).length + more.length ≤ next.bound := by
      rw [List.length_append, List.length_singleton, hbound]
      omega
    obtain ⟨last, hlast, hholds⟩ := ih hnext hmore
    refine ⟨last, ?_, ?_⟩
    · rw [List.foldlM_cons, hpush]
      exact hlast
    · rwa [List.append_assoc, List.singleton_append] at hholds

end SpillList

end HttpClient.Semantics
