import Mathlib.Data.List.Basic
import Mathlib.Data.Nat.ModEq

/-!
# Rings of slots

A ring has a fixed number of slots and a cursor that only moves forward. What is put into it
replaces the slot at the cursor, whatever that slot holds; a slot may also be changed or blanked
where it is.

Beside the ring stands the log of all that has been put into it, the latest first. The age of
an item is its position in the log, that is the number of items put after it. A slot that has
not been blanked holds the latest item that came to it, and its age is known from the cursor.

## Main definitions

* `SlotRing.put` — replace the slot at the cursor
* `SlotRing.ageOf` — the age of the item that came to a slot last
* `SlotRing.Records` — every slot is blank or holds what the log has at its age
* `SlotRing.Keeps` — what the ring has room for is in a slot, unless it is gone

## Main results

* `SlotRing.Records.put`, `SlotRing.Records.setBlank`, `SlotRing.Records.modify` — the operations
  keep the log
* `SlotRing.Keeps.put`, `SlotRing.Keeps.remove`, `SlotRing.Keeps.modify` — the same of what is kept
* `SlotRing.ageOf_injective` — two slots have items of different ages
-/

set_option autoImplicit false

namespace HttpClient.Semantics

structure SlotRing (α : Type*) where
  slots : List α
  cursor : Nat := 0

namespace SlotRing

variable {α : Type*} {ring : SlotRing α} {log : List α} {j j' : Nat} {x : α}

/-- Replace the slot at the cursor, and move on. -/
def put (x : α) (ring : SlotRing α) : SlotRing α where
  slots := ring.slots.set (ring.cursor % ring.slots.length) x
  cursor := ring.cursor + 1

/-- Replace a slot where it is. -/
def setSlot (j : Nat) (x : α) (ring : SlotRing α) : SlotRing α :=
  { ring with slots := ring.slots.set j x }

/-- How many items have been put into the ring since the last one that came to the slot. -/
def ageOf (ring : SlotRing α) (j : Nat) : Nat :=
  (ring.cursor + ring.slots.length - 1 - j) % ring.slots.length

@[simp] theorem length_put : (ring.put x).slots.length = ring.slots.length := List.length_set

@[simp] theorem length_setSlot : (ring.setSlot j x).slots.length = ring.slots.length :=
  List.length_set

@[simp] theorem ageOf_setSlot (k : Nat) : (ring.setSlot j x).ageOf k = ring.ageOf k := by
  unfold ageOf
  rw [length_setSlot]
  rfl

theorem setSlot_setSlot (y : α) : (ring.setSlot j x).setSlot j y = ring.setSlot j y := by
  simp only [setSlot, List.set_set]

theorem ageOf_lt (hj : j < ring.slots.length) : ring.ageOf j < ring.slots.length :=
  Nat.mod_lt _ (Nat.zero_lt_of_lt hj)

/-- The slot of an age, in terms of the cursor. -/
theorem add_ageOf_mod (hj : j < ring.slots.length) :
    (j + ring.ageOf j + 1) % ring.slots.length = ring.cursor % ring.slots.length := by
  have hsum : j + (ring.cursor + ring.slots.length - 1 - j) + 1 =
      ring.cursor + ring.slots.length := by omega
  calc (j + ring.ageOf j + 1) % ring.slots.length
      = (j + (ring.cursor + ring.slots.length - 1 - j) + 1) % ring.slots.length := by
        unfold ageOf
        rw [Nat.add_right_comm, Nat.add_mod_mod, Nat.add_right_comm]
    _ = ring.cursor % ring.slots.length := by rw [hsum, Nat.add_mod_right]

/-- Two slots have items of different ages. -/
theorem ageOf_injective (hj : j < ring.slots.length) (hj' : j' < ring.slots.length)
    (h : ring.ageOf j = ring.ageOf j') : j = j' := by
  have hmod : j + ring.ageOf j + 1 ≡ j' + ring.ageOf j + 1 [MOD ring.slots.length] := by
    rw [Nat.ModEq, add_ageOf_mod hj, h, add_ageOf_mod hj']
  have hslots : j ≡ j' [MOD ring.slots.length] := by
    rw [Nat.add_assoc, Nat.add_assoc] at hmod
    exact hmod.add_right_cancel'
  rwa [Nat.ModEq, Nat.mod_eq_of_lt hj, Nat.mod_eq_of_lt hj'] at hslots

/-- What has just been put into the ring has nothing after it. -/
theorem ageOf_put_cursor (hpos : 0 < ring.slots.length) :
    (ring.put x).ageOf (ring.cursor % ring.slots.length) = 0 := by
  have hlt : ring.cursor % ring.slots.length < ring.slots.length := Nat.mod_lt _ hpos
  have hdiff : ring.cursor + 1 + ring.slots.length - 1 - ring.cursor % ring.slots.length =
      ring.slots.length * (ring.cursor / ring.slots.length + 1) := by
    have hdiv := Nat.div_add_mod ring.cursor ring.slots.length
    rw [Nat.mul_add, Nat.mul_one]
    omega
  unfold ageOf
  rw [length_put, show (ring.put x).cursor = ring.cursor + 1 from rfl, hdiff]
  exact Nat.mul_mod_right _ _

/-- What the other slots have becomes older by one. -/
theorem ageOf_put_other (hj : j < ring.slots.length) (hne : j ≠ ring.cursor % ring.slots.length) :
    (ring.put x).ageOf j = ring.ageOf j + 1 := by
  have hsucc : (ring.put x).ageOf j = (ring.ageOf j + 1) % ring.slots.length := by
    unfold ageOf
    rw [length_put, Nat.mod_add_mod, show (ring.put x).cursor = ring.cursor + 1 from rfl]
    congr 1
    omega
  have hlt : ring.ageOf j + 1 < ring.slots.length := by
    refine Nat.lt_of_le_of_ne (ageOf_lt hj) fun hwrap => hne ?_
    -- An item as old as the ring is long would be in the slot at the cursor.
    rw [← add_ageOf_mod hj, Nat.add_assoc, hwrap, Nat.add_mod_right, Nat.mod_eq_of_lt hj]
  rw [hsucc, Nat.mod_eq_of_lt hlt]

/-- Every slot is blank or holds the item that came to it last, as the log has it. -/
def Records (blank : α → Prop) (ring : SlotRing α) (log : List α) : Prop :=
  ∀ j x, ring.slots[j]? = some x → blank x ∨ log[ring.ageOf j]? = some x

namespace Records

variable {blank : α → Prop}

theorem put (h : Records blank ring log) (x : α) : Records blank (ring.put x) (x :: log) := by
  intro j y hy
  obtain ⟨hlt, -⟩ := List.getElem?_eq_some_iff.mp hy
  rw [length_put] at hlt
  by_cases hj : j = ring.cursor % ring.slots.length
  · subst hj
    have hnew : y = x := by
      rw [SlotRing.put, List.getElem?_set_self hlt] at hy
      exact (Option.some.inj hy).symm
    right
    rw [ageOf_put_cursor (Nat.zero_lt_of_lt hlt), hnew]
    rfl
  · rw [SlotRing.put, List.getElem?_set_ne (Ne.symm hj)] at hy
    refine (h j y hy).imp_right fun hlog => ?_
    rw [ageOf_put_other hlt hj, List.getElem?_cons_succ]
    exact hlog

theorem setBlank (h : Records blank ring log) (hx : blank x) (j : Nat) :
    Records blank (ring.setSlot j x) log := by
  intro k y hy
  rw [ageOf_setSlot]
  by_cases hk : j = k
  · subst hk
    obtain ⟨hlt, -⟩ := List.getElem?_eq_some_iff.mp hy
    rw [length_setSlot] at hlt
    rw [setSlot, List.getElem?_set_self hlt] at hy
    obtain rfl := Option.some.inj hy
    exact .inl hx
  · rw [setSlot, List.getElem?_set_ne hk] at hy
    exact h k y hy

/-- An item may be changed in its slot and in the log. -/
theorem modify (h : Records blank ring log) {f : α → α} (hslot : ring.slots[j]? = some x)
    (hlog : log[ring.ageOf j]? = some x) :
    Records blank (ring.setSlot j (f x)) (log.modify (ring.ageOf j) f) := by
  obtain ⟨hlt, -⟩ := List.getElem?_eq_some_iff.mp hslot
  intro k y hy
  rw [ageOf_setSlot]
  by_cases hk : j = k
  · subst hk
    rw [setSlot, List.getElem?_set_self hlt] at hy
    right
    rw [List.getElem?_modify_eq, hlog]
    exact hy
  · rw [setSlot, List.getElem?_set_ne hk] at hy
    refine (h k y hy).imp_right fun hold => ?_
    obtain ⟨hlt', -⟩ := List.getElem?_eq_some_iff.mp hy
    have hage : ring.ageOf j ≠ ring.ageOf k := fun heq => hk (ageOf_injective hlt hlt' heq)
    rw [List.getElem?_modify_ne _ _ hage]
    exact hold

end Records

/-- Of the items in the log, those that the ring has room for are in their slots or gone. -/
def Keeps (gone : α → Prop) (ring : SlotRing α) (log : List α) : Prop :=
  ∀ age x, age < ring.slots.length → log[age]? = some x →
    (∃ j, ring.slots[j]? = some x ∧ ring.ageOf j = age) ∨ gone x

namespace Keeps

variable {gone gone' : α → Prop}

theorem mono (h : Keeps gone ring log) (himp : ∀ x, gone x → gone' x) : Keeps gone' ring log :=
  fun age x hage hlog => (h age x hage hlog).imp_right (himp x)

theorem put (h : Keeps gone ring log) (x : α) : Keeps gone (ring.put x) (x :: log) := by
  intro age y hage hlog
  rw [length_put] at hage
  have hlt : ring.cursor % ring.slots.length < ring.slots.length :=
    Nat.mod_lt _ (Nat.zero_lt_of_lt hage)
  cases age with
  | zero =>
    obtain rfl := Option.some.inj hlog
    refine .inl ⟨_, ?_, ageOf_put_cursor (Nat.zero_lt_of_lt hage)⟩
    exact List.getElem?_set_self hlt
  | succ age =>
    refine (h age y (Nat.lt_of_succ_lt hage) hlog).imp_left ?_
    rintro ⟨j, hslot, rfl⟩
    obtain ⟨hj, -⟩ := List.getElem?_eq_some_iff.mp hslot
    -- The slot at the cursor has an item that the ring has no room for any more.
    have hne : j ≠ ring.cursor % ring.slots.length := by
      intro hcursor
      have hround : j + (ring.ageOf j + 1) ≡ j + 0 [MOD ring.slots.length] := by
        rw [Nat.ModEq, ← Nat.add_assoc, add_ageOf_mod hj, Nat.add_zero, Nat.mod_eq_of_lt hj,
          hcursor]
      have hzero := hround.add_left_cancel'
      rw [Nat.ModEq, Nat.mod_eq_of_lt hage, Nat.zero_mod] at hzero
      exact Nat.succ_ne_zero _ hzero
    refine ⟨j, ?_, ageOf_put_other hj hne⟩
    rw [SlotRing.put, List.getElem?_set_ne (Ne.symm hne)]
    exact hslot

/-- An item may be taken out of its slot if it is gone then. -/
theorem remove (h : Keeps gone ring log) (hslot : ring.slots[j]? = some x) (hgone : gone x)
    (y : α) : Keeps gone (ring.setSlot j y) log := by
  intro age z hage hlog
  rw [length_setSlot] at hage
  rcases h age z hage hlog with ⟨k, hk, hold⟩ | hz
  · by_cases hjk : j = k
    · subst hjk
      exact .inr (Option.some.inj (hslot.symm.trans hk) ▸ hgone)
    · refine .inl ⟨k, ?_, by rw [ageOf_setSlot, hold]⟩
      rw [setSlot, List.getElem?_set_ne hjk]
      exact hk
  · exact .inr hz

theorem modify (h : Keeps gone ring log) {f : α → α} (hslot : ring.slots[j]? = some x)
    (hlog : log[ring.ageOf j]? = some x) :
    Keeps gone (ring.setSlot j (f x)) (log.modify (ring.ageOf j) f) := by
  obtain ⟨hlt, -⟩ := List.getElem?_eq_some_iff.mp hslot
  intro age z hage hz
  rw [length_setSlot] at hage
  by_cases hj : ring.ageOf j = age
  · subst hj
    rw [List.getElem?_modify_eq, hlog] at hz
    exact .inl ⟨j, (List.getElem?_set_self hlt).trans hz, ageOf_setSlot j⟩
  · rw [List.getElem?_modify_ne _ _ hj] at hz
    refine (h age z hage hz).imp_left ?_
    rintro ⟨k, hk, rfl⟩
    have hjk : j ≠ k := fun heq => hj (by rw [heq])
    refine ⟨k, ?_, ageOf_setSlot k⟩
    rw [setSlot, List.getElem?_set_ne hjk]
    exact hk

end Keeps

end SlotRing

end HttpClient.Semantics
