import HttpClient.Semantics.Ring

/-!
# Choosing a session

A request goes to one of the sessions of its group that are in use. `choose_impl_index` goes round
them from a start that moves on by one with every request, and looks for free stream slots. It
takes the first session with free slots for half of the streams that the options allow, else the
one that has the most. If there are none anywhere, it takes a session that is connecting, else one
that is connected, else the one at the start.

What a session says of itself is read from its snapshots without a lock, and the rounds come one
after another. So each round has its own reading.

## Main definitions

* `ImplSnapshot` — what is read of a session
* `chooseImplIndex` — the choice

## Main results

* `chooseImplIndex_spec` — what is chosen, whatever is read
-/

set_option autoImplicit false

namespace HttpClient.H2

open Semantics

/-! ### The snapshots -/

structure ImplSnapshot where
  connected : Bool := false
  connecting : Bool := false
  stopping : Bool := false
  activeStreams : Nat := 0
  streamLimit : Nat := 100
  deriving DecidableEq, Repr

namespace ImplSnapshot

def availableStreamSlots (s : ImplSnapshot) : Nat :=
  if !s.connected || s.stopping then 0 else s.streamLimit - s.activeStreams

def isConnected (s : ImplSnapshot) : Bool := s.connected && !s.stopping

end ImplSnapshot

/-! ### The choice -/

/-- How many sessions of a group take part, where `active` of them are said to be in use. -/
def choiceWindow (active impls : Nat) : Nat := max 1 (min active impls)

/-- Choose a session of a group of `impls`; `next` is what the counter of the group says. -/
def chooseImplIndex (maxConcurrentStreams impls active next : Nat)
    (slotsRead connectingRead connectedRead : Nat → ImplSnapshot) : Nat :=
  let active := choiceWindow active impls
  let start := next % active
  let order := ring start active
  match scanMost (fun i => (slotsRead i).availableStreamSlots) (maxConcurrentStreams / 2) none
      order with
  | some best => best
  | none =>
    match order.find? fun i => (connectingRead i).connecting with
    | some i => i
    | none => (order.find? fun i => (connectedRead i).isConnected).getD start

theorem choiceWindow_pos (active impls : Nat) : 0 < choiceWindow active impls :=
  Nat.lt_of_lt_of_le Nat.zero_lt_one (Nat.le_max_left ..)

theorem choiceWindow_le {impls : Nat} (himpls : 0 < impls) (active : Nat) :
    choiceWindow active impls ≤ impls :=
  Nat.max_le.mpr ⟨himpls, Nat.min_le_right ..⟩

section Spec

variable {maxConcurrentStreams impls active next : Nat}
  {slotsRead connectingRead connectedRead : Nat → ImplSnapshot}

/-- What is found on the ring is the index of a session that is in use. -/
theorem lt_of_find {start n i : Nat} {p : Nat → Bool} (h : (ring start n).find? p = some i) :
    i < n :=
  mem_ring (List.mem_of_find?_eq_some h)

theorem chooseImplIndex_lt :
    chooseImplIndex maxConcurrentStreams impls active next slotsRead connectingRead connectedRead <
      choiceWindow active impls := by
  unfold chooseImplIndex
  dsimp only
  split
  case h_1 best hbest => exact mem_ring (mem_of_scanMost hbest).1
  case h_2 =>
    split
    case h_1 i hi => exact lt_of_find hi
    case h_2 =>
      cases hfind : (ring (next % choiceWindow active impls) (choiceWindow active impls)).find?
          fun i => (connectedRead i).isConnected with
      | some i => exact lt_of_find hfind
      | none => exact Nat.mod_lt _ (choiceWindow_pos active impls)

theorem chooseImplIndex_of_some {best : Nat}
    (h : scanMost (fun i => (slotsRead i).availableStreamSlots) (maxConcurrentStreams / 2) none
      (ring (next % choiceWindow active impls) (choiceWindow active impls)) = some best) :
    chooseImplIndex maxConcurrentStreams impls active next slotsRead connectingRead connectedRead =
      best := by
  unfold chooseImplIndex
  dsimp only
  rw [h]

/-- Without free slots the other two rounds decide. -/
theorem chooseImplIndex_of_none
    (h : scanMost (fun i => (slotsRead i).availableStreamSlots) (maxConcurrentStreams / 2) none
      (ring (next % choiceWindow active impls) (choiceWindow active impls)) = none) :
    chooseImplIndex maxConcurrentStreams impls active next slotsRead connectingRead connectedRead =
      (((ring (next % choiceWindow active impls) (choiceWindow active impls)).find?
          fun i => (connectingRead i).connecting).or
        ((ring (next % choiceWindow active impls) (choiceWindow active impls)).find?
          fun i => (connectedRead i).isConnected)).getD (next % choiceWindow active impls) := by
  unfold chooseImplIndex
  dsimp only
  rw [h]
  dsimp only
  split
  case h_1 i hi => rw [hi, Option.some_or, Option.getD_some]
  case h_2 hnone => rw [hnone, Option.none_or]

/-- The choice among the sessions in use. With `order` the sessions from the start on: the first
with free slots for half of the streams that the options allow; else one that has free slots, and
none has more; else the first that is connecting; else the first that is connected; else the one at
the start. -/
theorem chooseImplIndex_spec (maxConcurrentStreams impls active next : Nat)
    (slotsRead connectingRead connectedRead : Nat → ImplSnapshot) :
    let window := choiceWindow active impls
    let order := ring (next % window) window
    let slots i := (slotsRead i).availableStreamSlots
    let chosen := chooseImplIndex maxConcurrentStreams impls active next slotsRead connectingRead
      connectedRead
    chosen < window ∧
      ((∃ i < window, 0 < slots i ∧ maxConcurrentStreams / 2 ≤ slots i) →
        order.find? (fun i => decide (0 < slots i ∧ maxConcurrentStreams / 2 ≤ slots i)) =
          some chosen) ∧
      ((∃ i < window, 0 < slots i) → (∀ i < window, slots i < maxConcurrentStreams / 2) →
        0 < slots chosen ∧ ∀ i < window, slots i ≤ slots chosen) ∧
      ((∀ i < window, slots i = 0) →
        chosen = ((order.find? fun i => (connectingRead i).connecting).or
          (order.find? fun i => (connectedRead i).isConnected)).getD (next % window)) := by
  intro window order slots chosen
  have hmem : ∀ {i}, i ∈ order ↔ i < window := mem_ring_iff
  refine ⟨chooseImplIndex_lt, ?_, ?_, ?_⟩
  · rintro ⟨i, hi, hroomy⟩
    have hscan : scanMost slots (maxConcurrentStreams / 2) none order = _ :=
      scanMost_eq_find (fun _ h => nomatch h) ⟨i, hmem.mpr hi, hroomy⟩
    cases hfind : order.find?
      fun i => decide (0 < slots i ∧ maxConcurrentStreams / 2 ≤ slots i) with
    | none =>
      -- the session that is there would have been found
      have hnot := List.find?_eq_none.mp hfind i (hmem.mpr hi)
      exact absurd (by simpa using hroomy) hnot
    | some best => rw [hfind] at hscan; rw [← chooseImplIndex_of_some hscan]
  · rintro ⟨i, hi, hpos⟩ hfew
    cases hscan : scanMost slots (maxConcurrentStreams / 2) none order with
    | none => exact absurd (scanMost_eq_none_iff.mp hscan i (hmem.mpr hi)) hpos.ne'
    | some best =>
      have hchosen : chosen = best := chooseImplIndex_of_some hscan
      obtain ⟨hbest, hslots⟩ := mem_of_scanMost hscan
      have hmost := (most_of_scanMost hscan).resolve_left (hfew best (hmem.mp hbest)).not_ge
      rw [hchosen]
      exact ⟨hslots, fun j hj => hmost j (hmem.mpr hj)⟩
  · intro hnone
    exact chooseImplIndex_of_none (scanMost_eq_none_iff.mpr fun i hi => hnone i (hmem.mp hi))

end Spec

end HttpClient.H2
