import Mathlib.Data.List.MinMax
import Mathlib.Data.Nat.ModEq
import Mathlib.Order.Nat
import HttpClient.Semantics.CompareExchange
import HttpClient.Semantics.Machine
import HttpClient.Semantics.Tally

/-!
# The timing statistics

How long something takes is recorded in three atomics: how often it has happened, how long it has
taken in total, and how long at most. A recording adds to the first two and raises the third in a
loop of compare-and-exchange. There is no lock: the recordings of several threads go on at the
same time, and a reset stores a zero into one atomic after the other.

The first two wrap at the size of their type. Times are in microseconds and fit into it.

## Main definitions

* `AtomicTimingStats` — the three atomics
* `Recording`, `Timings`, `Timings.step` — the recordings and resets that are under way
* `ResetsAlone` — nothing is recorded during a reset

## Main results

* `timings_exact` — what the atomics say when nobody records
-/

set_option autoImplicit false

namespace HttpClient.H1

open Semantics

structure AtomicTimingStats where
  count : Nat := 0
  totalUs : Nat := 0
  maxUs : Nat := 0
  deriving DecidableEq, Repr

/-- Where `record_timing` is. -/
inductive Recording where
  | counting (us : Nat)
  | adding (us : Nat)
  | loading (us : Nat)
  /-- In the loop, with what has been loaded. -/
  | raising (us current : Nat)
  deriving DecidableEq, Repr

structure Timings where
  stats : AtomicTimingStats := {}
  recordings : List Recording := []
  /-- How many of its stores `reset_timing` has done. -/
  resetting : Nat := 0
  /-- The recordings since the last reset has begun. -/
  since : List Nat := []
  deriving DecidableEq, Repr

inductive TimingAction where
  | record (us : Nat)
  /-- The next access of a recording; an exchange may fail for no reason. -/
  | advance (i : Nat) (fails : Bool)
  /-- The next store of a reset. -/
  | reset
  deriving DecidableEq, Repr

namespace Recording

def us : Recording → Nat
  | .counting us | .adding us | .loading us | .raising us _ => us

/-- What a recording still adds to the number. -/
def countLeft : Recording → Nat
  | .counting _ => 1
  | _ => 0

/-- What a recording still adds to the total. -/
def totalLeft : Recording → Nat
  | .counting us | .adding us => us
  | _ => 0

/-- One access, and where the recording goes on; `none` if it is over. -/
def advance (stats : AtomicTimingStats) (fails : Bool) :
    Recording → AtomicTimingStats × Option Recording
  | .counting us => ({ stats with count := (stats.count + 1) % 2 ^ 64 }, some (.adding us))
  | .adding us => ({ stats with totalUs := (stats.totalUs + us) % 2 ^ 64 }, some (.loading us))
  | .loading us => (stats, (raiseAgain us (some stats.maxUs)).map (.raising us))
  | .raising us current =>
    let result := compareExchange stats.maxUs us current fails
    ({ stats with maxUs := result.1 }, (raiseAgain us result.2).map (.raising us))

end Recording

namespace Timings

def step (timings : Timings) : TimingAction → Option Timings
  | .record us =>
    some
      { timings with
        recordings := timings.recordings ++ [.counting us]
        since := timings.since ++ [us] }
  | .advance i fails =>
    match timings.recordings[i]? with
    | some recording =>
      let result := recording.advance timings.stats fails
      some
        { timings with
          stats := result.1, recordings := advanceAt timings.recordings i result.2 }
    | none => none
  | .reset =>
    match timings.resetting with
    | 0 =>
      some
        { timings with
          stats := { timings.stats with count := 0 }, resetting := 1, since := [] }
    | 1 => some { timings with stats := { timings.stats with totalUs := 0 }, resetting := 2 }
    | _ => some { timings with stats := { timings.stats with maxUs := 0 }, resetting := 0 }

end Timings

/-- Nothing is recorded during a reset. -/
def ResetsAlone (timings : Timings) : TimingAction → Prop
  | .record _ => timings.resetting = 0
  | .advance _ _ => True
  | .reset => timings.recordings = []

instance (timings : Timings) : ∀ action, Decidable (ResetsAlone timings action)
  | .record _ | .reset => inferInstanceAs (Decidable (_ = _))
  | .advance _ _ => isTrue trivial

/-! ### One access -/

namespace Recording

variable {stats : AtomicTimingStats} {fails : Bool} {recording next : Recording}

/-- In the loop there is something to be raised. -/
def Honest : Recording → Prop
  | .raising us current => current < us
  | _ => True

/-- In the loop nothing is left to be added. -/
theorem left_raising (us : Nat) (found : Option Nat) :
    ((found.map (raising us)).map countLeft).getD 0 = 0 ∧
      ((found.map (raising us)).map totalLeft).getD 0 = 0 := by
  cases found <;> exact ⟨rfl, rfl⟩

/-- What a recording adds to the number and to the total, it has no longer left to add. -/
theorem advance_sums (stats : AtomicTimingStats) (fails : Bool) (recording : Recording) :
    (recording.advance stats fails).1.count +
          ((recording.advance stats fails).2.map countLeft).getD 0 ≡
        stats.count + recording.countLeft [MOD 2 ^ 64] ∧
      (recording.advance stats fails).1.totalUs +
          ((recording.advance stats fails).2.map totalLeft).getD 0 ≡
        stats.totalUs + recording.totalLeft [MOD 2 ^ 64] := by
  cases recording with
  | counting us =>
    refine ⟨?_, .rfl⟩
    change (stats.count + 1) % 2 ^ 64 + 0 ≡ stats.count + 1 [MOD 2 ^ 64]
    rw [Nat.add_zero]
    exact Nat.mod_modEq _ _
  | adding us =>
    refine ⟨.rfl, ?_⟩
    change (stats.totalUs + us) % 2 ^ 64 + 0 ≡ stats.totalUs + us [MOD 2 ^ 64]
    rw [Nat.add_zero]
    exact Nat.mod_modEq _ _
  | loading us =>
    dsimp only [advance]
    rw [(left_raising us _).1, (left_raising us _).2]
    exact ⟨.rfl, .rfl⟩
  | raising us current =>
    dsimp only [advance]
    rw [(left_raising us _).1, (left_raising us _).2]
    exact ⟨.rfl, .rfl⟩

theorem advance_size (hsize : stats.count < 2 ^ 64 ∧ stats.totalUs < 2 ^ 64) :
    (recording.advance stats fails).1.count < 2 ^ 64 ∧
      (recording.advance stats fails).1.totalUs < 2 ^ 64 := by
  cases recording with
  | counting us => exact ⟨Nat.mod_lt _ (by decide), hsize.2⟩
  | adding us => exact ⟨hsize.1, Nat.mod_lt _ (by decide)⟩
  | loading us => exact hsize
  | raising us current => exact hsize

/-- The maximum rises, to the time that is recorded if at all. -/
theorem advance_max (stats : AtomicTimingStats) (fails : Bool) (hhonest : recording.Honest) :
    stats.maxUs ≤ (recording.advance stats fails).1.maxUs ∧
      ((recording.advance stats fails).1.maxUs = stats.maxUs ∨
        (recording.advance stats fails).1.maxUs = recording.us) := by
  cases recording with
  | counting us => exact ⟨le_rfl, .inl rfl⟩
  | adding us => exact ⟨le_rfl, .inl rfl⟩
  | loading us => exact ⟨le_rfl, .inl rfl⟩
  | raising us current =>
    refine ⟨le_compareExchange hhonest fails, ?_⟩
    dsimp only [advance]
    -- the exchange has stored the time, or has left the maximum as it was
    rcases compareExchange_cases stats.maxUs us current fails with ⟨heq, -⟩ | heq
    · rw [heq]
      exact .inr rfl
    · rw [heq]
      exact .inl rfl

/-- A recording goes on with its time, and is over when the maximum is no less. -/
theorem advance_next (stats : AtomicTimingStats) (fails : Bool) (recording : Recording) :
    (∃ next, (recording.advance stats fails).2 = some next ∧ next.us = recording.us ∧
        next.Honest) ∨
      (recording.advance stats fails).2 = none ∧
        recording.us ≤ (recording.advance stats fails).1.maxUs := by
  cases recording with
  | counting us => exact .inl ⟨.adding us, rfl, rfl, trivial⟩
  | adding us => exact .inl ⟨.loading us, rfl, rfl, trivial⟩
  | loading us =>
    dsimp only [advance]
    cases hfound : raiseAgain us (some stats.maxUs) with
    | none => exact .inr ⟨rfl, le_of_raiseAgain_some_eq_none hfound⟩
    | some current => exact .inl ⟨.raising us current, rfl, rfl, (raiseAgain_eq_some hfound).2⟩
  | raising us current =>
    dsimp only [advance]
    cases hfound : raiseAgain us (compareExchange stats.maxUs us current fails).2 with
    | none => exact .inr ⟨rfl, le_of_raiseAgain_eq_none hfound⟩
    | some found => exact .inl ⟨.raising us found, rfl, rfl, (raiseAgain_eq_some hfound).2⟩

end Recording

/-! ### Runs -/

namespace Timings

variable {s t : Timings} {action : TimingAction}

/-- What the atomics say, with what is still to be added, is what has been recorded. -/
structure Sound (s : Timings) : Prop where
  alone : s.resetting ≠ 0 → s.recordings = [] ∧ s.since = []
  honest : ∀ recording ∈ s.recordings, recording.Honest ∧ recording.us ∈ s.since
  size : s.stats.count < 2 ^ 64 ∧ s.stats.totalUs < 2 ^ 64
  count : s.stats.count + (s.recordings.map Recording.countLeft).sum ≡ s.since.length [MOD 2 ^ 64]
  total : s.resetting ≠ 1 →
    s.stats.totalUs + (s.recordings.map Recording.totalLeft).sum ≡ s.since.sum [MOD 2 ^ 64]
  least : ∀ us ∈ s.since, us ≤ s.stats.maxUs ∨ ∃ recording ∈ s.recordings, recording.us = us
  most : s.resetting = 0 → s.stats.maxUs = 0 ∨ s.stats.maxUs ∈ s.since

theorem sound_start : Sound {} where
  alone h := absurd rfl h
  honest _ h := nomatch h
  size := by decide
  count := .rfl
  total _ := .rfl
  least _ h := nomatch h
  most _ := .inl rfl

theorem Sound.record (h : s.Sound) (us : Nat) (hquiet : s.resetting = 0) :
    Sound { s with recordings := s.recordings ++ [.counting us], since := s.since ++ [us] } where
  alone hreset := absurd hquiet hreset
  honest recording hrecording := by
    rcases List.mem_append.mp hrecording with hold | hnew
    · obtain ⟨hhonest, hmem⟩ := h.honest recording hold
      exact ⟨hhonest, List.mem_append_left _ hmem⟩
    · rw [List.mem_singleton.mp hnew]
      exact ⟨trivial, List.mem_append_right _ (List.mem_singleton_self us)⟩
  size := h.size
  count := by
    rw [List.map_append, List.sum_append_nat, List.length_append, ← Nat.add_assoc]
    exact h.count.add_right 1
  total hreset := by
    rw [List.map_append, List.sum_append_nat, List.sum_append_nat, ← Nat.add_assoc]
    exact (h.total hreset).add_right us
  least v hv := by
    rcases List.mem_append.mp hv with hold | hnew
    · refine (h.least v hold).imp_right fun ⟨recording, hrecording, hus⟩ => ?_
      exact ⟨recording, List.mem_append_left _ hrecording, hus⟩
    · refine .inr ⟨.counting us, List.mem_append_right _ (List.mem_singleton_self _), ?_⟩
      exact (List.mem_singleton.mp hnew).symm
  most hreset := (h.most hreset).imp_right (List.mem_append_left _)

theorem Sound.advance (h : s.Sound) {i : Nat} {recording : Recording} (fails : Bool)
    (hget : s.recordings[i]? = some recording) :
    Sound
      { s with
        stats := (recording.advance s.stats fails).1
        recordings := advanceAt s.recordings i (recording.advance s.stats fails).2 } := by
  have hmem : recording ∈ s.recordings := List.mem_of_getElem? hget
  obtain ⟨hhonest, hus⟩ := h.honest recording hmem
  obtain ⟨hcount, htotal⟩ := recording.advance_sums s.stats fails
  obtain ⟨hrises, hmax⟩ := Recording.advance_max s.stats fails hhonest
  have hnext := recording.advance_next s.stats fails
  -- what is added now is no longer left
  have hbalance : ∀ {m m' left left' sum sum' n : Nat}, m' + left' ≡ m + left [MOD 2 ^ 64] →
      sum' + left = sum + left' → m + sum ≡ n [MOD 2 ^ 64] → m' + sum' ≡ n [MOD 2 ^ 64] := by
    intro m m' left left' sum sum' n hstep hsum hold
    refine Nat.ModEq.add_right_cancel' left ?_
    calc m' + sum' + left = m' + left' + sum := by omega
      _ ≡ m + left + sum [MOD 2 ^ 64] := hstep.add_right sum
      _ = m + sum + left := by omega
      _ ≡ n + left [MOD 2 ^ 64] := hold.add_right left
  exact {
    alone := fun hreset => by
      rw [(h.alone hreset).1] at hmem
      cases hmem
    honest := fun other hother => by
      rcases mem_advanceAt hother with hnew | hold
      · rcases hnext with ⟨next, hsome, husnext, hnexthonest⟩ | ⟨hnone, -⟩
        · obtain rfl := Option.some.inj (hsome.symm.trans hnew)
          exact ⟨hnexthonest, husnext ▸ hus⟩
        · cases hnone.symm.trans hnew
      · exact h.honest other hold
    size := Recording.advance_size h.size
    count := hbalance hcount (sum_map_advanceAt _ hget _) h.count
    total := fun hreset => hbalance htotal (sum_map_advanceAt _ hget _) (h.total hreset)
    least := fun us hmemus => by
      rcases h.least us hmemus with hle | ⟨other, hother, rfl⟩
      · exact .inl (hle.trans hrises)
      · -- the recording of this time goes on, or it is over and the maximum is no less
        rcases mem_advanceAt_of_mem hget (recording.advance s.stats fails).2 hother with
          rfl | hstays
        · rcases hnext with ⟨next, hsome, husnext, -⟩ | ⟨-, hover⟩
          · refine .inr ⟨next, ?_, husnext⟩
            refine (advanceAt_perm hget _).mem_iff.mpr (List.mem_append_left _ ?_)
            rw [hsome]
            exact List.mem_singleton_self next
          · exact .inl hover
        · exact .inr ⟨other, hstays, rfl⟩
    most := fun hreset => by
      rcases hmax with hsame | hraised
      · dsimp only
        rw [hsame]
        exact h.most hreset
      · dsimp only
        rw [hraised]
        exact .inr hus }

theorem Sound.reset (h : s.Sound) (hquiet : s.recordings = [])
    (hstep : s.step .reset = some t) : t.Sound := by
  unfold Timings.step at hstep
  dsimp only at hstep
  have hnobody : ∀ {P : Recording → Prop}, ∀ recording ∈ s.recordings, P recording := by
    rw [hquiet]
    exact fun _ h => nomatch h
  split at hstep
  case h_1 =>
    obtain rfl := Option.some.inj hstep
    exact {
      alone := fun _ => ⟨hquiet, rfl⟩
      honest := hnobody
      size := ⟨Nat.two_pow_pos 64, h.size.2⟩
      count := by dsimp only; rw [hquiet]; exact .rfl
      total := fun hreset => absurd rfl hreset
      least := fun _ hus => nomatch hus
      most := fun hreset => nomatch hreset }
  case h_2 hone =>
    obtain rfl := Option.some.inj hstep
    have hsince := (h.alone (by rw [hone]; decide)).2
    exact {
      alone := fun _ => ⟨hquiet, hsince⟩
      honest := hnobody
      size := ⟨h.size.1, Nat.two_pow_pos 64⟩
      count := h.count
      total := fun _ => by dsimp only; rw [hquiet, hsince]; exact .rfl
      least := h.least
      most := fun hreset => nomatch hreset }
  case h_3 hzero hone =>
    obtain rfl := Option.some.inj hstep
    have hsince := (h.alone hzero).2
    exact {
      alone := fun hreset => absurd rfl hreset
      honest := hnobody
      size := h.size
      count := h.count
      total := fun _ => h.total hone
      least := fun us hus => by
        rw [hsince] at hus
        cases hus
      most := fun _ => .inl rfl }

theorem Sound.step (h : s.Sound) (hok : ResetsAlone s action) (hstep : s.step action = some t) :
    t.Sound := by
  cases action with
  | record us =>
    obtain rfl := Option.some.inj hstep
    exact h.record us hok
  | advance i fails =>
    unfold Timings.step at hstep
    dsimp only at hstep
    split at hstep
    case h_1 recording hget =>
      obtain rfl := Option.some.inj hstep
      exact h.advance fails hget
    case h_2 => cases hstep
  | reset => exact h.reset hok hstep

end Timings

/-- In every run in which nothing is recorded during a reset: when nobody records, the atomics say
how many recordings there have been since the last reset, their total and their maximum. -/
theorem timings_exact {actions : List TimingAction} {s : Timings}
    (hrun : exec Timings.step {} actions = some s)
    (hquiet : Along Timings.step ResetsAlone {} actions) (hover : s.recordings = [])
    (hreset : s.resetting = 0) :
    s.stats =
      { count := s.since.length % 2 ^ 64
        totalUs := s.since.sum % 2 ^ 64
        maxUs := s.since.foldr max 0 } := by
  have hsound : s.Sound :=
    invariant_of_along (fun _ _ _ h hok hstep => Timings.Sound.step h hok hstep)
      Timings.sound_start hquiet hrun
  have hcount := hsound.count
  have htotal := hsound.total (by rw [hreset]; decide)
  rw [hover] at hcount htotal
  have hcount' : s.stats.count = s.since.length % 2 ^ 64 := by
    rw [← Nat.mod_eq_of_lt hsound.size.1]
    exact hcount
  have htotal' : s.stats.totalUs = s.since.sum % 2 ^ 64 := by
    rw [← Nat.mod_eq_of_lt hsound.size.2]
    exact htotal
  have hmax : s.stats.maxUs = s.since.foldr max 0 := by
    apply le_antisymm
    · rcases hsound.most hreset with hzero | hmem
      · exact hzero.le.trans (Nat.zero_le _)
      · exact List.le_max_of_le hmem le_rfl
    · -- no recording is left that could still raise the maximum
      refine List.max_le_of_forall_le _ _ fun us hus => (hsound.least us hus).resolve_right ?_
      rintro ⟨recording, hrecording, -⟩
      rw [hover] at hrecording
      cases hrecording
  rw [← hcount', ← htotal', ← hmax]

/-- Two recordings at the same time; the second one loses an exchange. -/
def twoRecordings : List TimingAction :=
  [.record 5, .record 7, .advance 0 false, .advance 1 false, .advance 1 false, .advance 0 false,
    .advance 0 false, .advance 1 false, .advance 0 false, .advance 0 false, .advance 0 false]

def twoRecorded : Timings where
  stats := { count := 2, totalUs := 12, maxUs := 7 }
  since := [5, 7]

theorem exec_twoRecordings : exec Timings.step {} twoRecordings = some twoRecorded := by decide

theorem timings_exact_twoRecordings :
    twoRecorded.stats =
      { count := [5, 7].length % 2 ^ 64
        totalUs := [5, 7].sum % 2 ^ 64
        maxUs := [5, 7].foldr max 0 } :=
  timings_exact exec_twoRecordings (by decide) rfl rfl

/-- A recording that goes on after a reset leaves a time that no recording has taken. -/
example : (exec Timings.step {} [.record 5, .advance 0 false, .reset, .advance 0 false]).map
    Timings.stats = some { count := 0, totalUs := 5, maxUs := 0 } := by
  decide

end HttpClient.H1
