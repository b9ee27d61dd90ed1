import Mathlib.Logic.Function.Basic

/-!
# Cells that are filled once

A cell is filled once, and those who want to know of it leave a continuation. A continuation
that is left in an empty cell is kept until the cell is filled; one that is left in a cell that
is full is to be run at once. The operations return the continuations that are to be run, in
their order.

## Main definitions

* `OneShot` — a cell, with its history
* `OneShot.add`, `OneShot.fill` — the operations

## Main results

* `OneShot.Exact.add`, `OneShot.Exact.fill` — in every history the continuations of a full cell
  have been run, each once and in the order in which they were added, and those of an empty
  cell have not
-/

set_option autoImplicit false

namespace HttpClient.Semantics

/-- A cell. The lists `added` and `ran` are its history. -/
structure OneShot (ρ κ : Type*) where
  outcome : Option ρ := none
  continuations : List κ := []
  added : List κ := []
  ran : List κ := []

namespace OneShot

variable {ρ κ : Type*}

/-- Leave a continuation. -/
def add (k : κ) (cell : OneShot ρ κ) : OneShot ρ κ × List κ :=
  if cell.outcome.isSome then
    ({ cell with added := cell.added ++ [k], ran := cell.ran ++ [k] }, [k])
  else
    ({ cell with added := cell.added ++ [k], continuations := cell.continuations ++ [k] }, [])

/-- Fill the cell, unless it is full. -/
def fill (r : ρ) (cell : OneShot ρ κ) : OneShot ρ κ × List κ :=
  if cell.outcome.isSome then (cell, [])
  else
    ({ cell with
        outcome := some r
        continuations := []
        ran := cell.ran ++ cell.continuations },
      cell.continuations)

/-- The continuations of a full cell have been run, each once and in order, and those of an
empty cell have not. -/
structure Exact (cell : OneShot ρ κ) : Prop where
  full : cell.outcome.isSome = true → cell.ran = cell.added ∧ cell.continuations = []
  empty : cell.outcome.isSome = false → cell.ran = [] ∧ cell.continuations = cell.added

variable {cell : OneShot ρ κ} {k : κ} {r : ρ}

theorem exact_fresh : ({} : OneShot ρ κ).Exact :=
  ⟨fun h => absurd h Bool.false_ne_true, fun _ => ⟨rfl, rfl⟩⟩

@[simp] theorem outcome_add (k : κ) (cell : OneShot ρ κ) :
    (cell.add k).1.outcome = cell.outcome := by
  unfold add
  split <;> rfl

@[simp] theorem added_add (k : κ) (cell : OneShot ρ κ) :
    (cell.add k).1.added = cell.added ++ [k] := by
  unfold add
  split <;> rfl

/-- A continuation is to be run at once exactly if the cell is full. -/
theorem add_snd (k : κ) (cell : OneShot ρ κ) :
    (cell.add k).2 = if cell.outcome.isSome then [k] else [] := by
  unfold add
  split <;> rfl

theorem fill_of_empty (h : cell.outcome = none) (r : ρ) :
    cell.fill r =
      ({ cell with
          outcome := some r
          continuations := []
          ran := cell.ran ++ cell.continuations },
        cell.continuations) := by
  unfold fill
  rw [h]
  exact if_neg Bool.false_ne_true

theorem Exact.add (h : cell.Exact) (k : κ) : (cell.add k).1.Exact := by
  unfold OneShot.add
  split
  · rename_i hfull
    constructor
    · intro _
      exact ⟨congrArg (· ++ [k]) (h.full hfull).1, (h.full hfull).2⟩
    · intro hempty
      exact absurd (hfull.symm.trans hempty) Bool.noConfusion
  · rename_i hnot
    have hempty : cell.outcome.isSome = false := Bool.eq_false_iff.mpr hnot
    constructor
    · intro hfull
      exact absurd hfull hnot
    · intro _
      exact ⟨(h.empty hempty).1, congrArg (· ++ [k]) (h.empty hempty).2⟩

theorem Exact.fill (h : cell.Exact) (r : ρ) : (cell.fill r).1.Exact := by
  unfold OneShot.fill
  split
  · exact h
  · rename_i hnot
    obtain ⟨hran, hkept⟩ := h.empty (Bool.eq_false_iff.mpr hnot)
    constructor
    · intro _
      refine ⟨?_, rfl⟩
      change cell.ran ++ cell.continuations = cell.added
      rw [hran, List.nil_append, hkept]
    · intro hempty
      exact absurd hempty Bool.noConfusion

end OneShot

end HttpClient.Semantics
