import Mathlib.Data.List.Basic
import Mathlib.Logic.Function.Basic

/-!
# Tables with several values for a key

Some programs keep a table as a plain list of records, where several records may have the same
key, and search it from the front. What the list stands for is the table that gives every key the
values of its records, in their order. An insertion at the end adds a value, and dropping all
records of a key empties it.

## Main definitions

* `Multimap` — a list of values for every key
* `Multimap.ofRecords` — what a list of records stands for

## Main results

* `Multimap.ofRecords_concat`, `Multimap.ofRecords_filter` — the two operations on the list
* `Multimap.head?_ofRecords` — the search from the front
-/

set_option autoImplicit false

namespace HttpClient.Semantics

/-- A table that gives every key a list of values. -/
abbrev Multimap (κ υ : Type*) := κ → List υ

namespace Multimap

variable {κ υ ρ : Type*} [DecidableEq κ]

/-- One more value for a key. -/
def add (k : κ) (v : υ) (m : Multimap κ υ) : Multimap κ υ := Function.update m k (m k ++ [v])

/-- No value for a key. -/
def remove (k : κ) (m : Multimap κ υ) : Multimap κ υ := Function.update m k []

/-- This value and no other for a key. -/
def put (k : κ) (v : υ) (m : Multimap κ υ) : Multimap κ υ := Function.update m k [v]

theorem put_eq (k : κ) (v : υ) (m : Multimap κ υ) : put k v m = add k v (remove k m) := by
  rw [put, add, remove, Function.update_self, Function.update_idem]
  rfl

variable {k key : κ} {m : Multimap κ υ}

/-- Adding a value leaves no key without values that has some. -/
theorem add_ne_nil (k : κ) (v : υ) (h : m key ≠ []) : add k v m key ≠ [] := by
  rw [add]
  by_cases hkey : key = k
  · subst hkey
    rw [Function.update_self]
    exact List.append_ne_nil_of_right_ne_nil _ (List.cons_ne_nil _ _)
  · rwa [Function.update_of_ne hkey]

theorem put_ne_nil (k : κ) (v : υ) (h : m key ≠ []) : put k v m key ≠ [] := by
  rw [put]
  by_cases hkey : key = k
  · subst hkey
    rw [Function.update_self]
    exact List.cons_ne_nil _ _
  · rwa [Function.update_of_ne hkey]

/-! ### Lists of records -/

/-- The table of a list of records. -/
def ofRecords (key : ρ → κ) (value : ρ → υ) (records : List ρ) : Multimap κ υ := fun k =>
  (records.filter fun r => decide (key r = k)).map value

variable (key : ρ → κ) (value : ρ → υ) (records : List ρ)

theorem ofRecords_concat (r : ρ) :
    ofRecords key value (records ++ [r]) = add (key r) (value r) (ofRecords key value records) := by
  funext k
  rw [ofRecords, add, List.filter_append, List.map_append]
  by_cases h : key r = k
  · subst h
    rw [Function.update_self]
    simp [ofRecords]
  · rw [Function.update_of_ne (Ne.symm h)]
    simp [ofRecords, h]

theorem ofRecords_filter (k : κ) :
    ofRecords key value (records.filter fun r => !decide (key r = k)) =
      remove k (ofRecords key value records) := by
  funext other
  rw [ofRecords, remove, List.filter_filter]
  by_cases h : other = k
  · subst h
    rw [Function.update_self, List.map_eq_nil_iff, List.filter_eq_nil_iff]
    simp
  · rw [Function.update_of_ne h]
    congr 1
    apply List.filter_congr
    intro r _
    by_cases hr : key r = other
    · simp [hr, h]
    · simp [hr]

theorem head?_ofRecords (k : κ) :
    (ofRecords key value records k).head? =
      (records.find? fun r => decide (key r = k)).map value := by
  rw [ofRecords, List.head?_map, List.head?_filter]

/-- A key that no record has has no values. -/
theorem ofRecords_eq_nil {k : κ} (h : ∀ r ∈ records, key r ≠ k) :
    ofRecords key value records k = [] := by
  rw [ofRecords, List.map_eq_nil_iff, List.filter_eq_nil_iff]
  intro r hr
  simp [h r hr]

end Multimap

end HttpClient.Semantics
