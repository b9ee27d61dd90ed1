import Mathlib.Tactic.SplitIfs
import HttpClient.Semantics.Machine
import HttpClient.Semantics.WaitQueue

/-!
# Semaphores and locks

`acquire` takes a permit, or leaves a timer that never expires in the queue of the semaphore and
waits on it; `release` adds permits and cancels as many timers. A coroutine whose timer has been
cancelled looks for a permit again, whoever has cancelled it. If it has been cancelled itself
it takes a permit nevertheless, if there is one; only its next wait throws.

The executor has one thread, so that a coroutine is not interrupted between two waits. Permits
are counted in a `size_t`.

## Main definitions

* `Semaphore`, `Semaphore.step` — a semaphore with those who use it
* `Lock`, `Lock.step` — a lock with the guards that have been made for it
* `Semaphore.Fits` — no permit is lost to the width of the counter

## Main results

* `permits_conserved` — how the permits add up, that a lock has one holder, and that no permit
  stays free while somebody sleeps
* `permits_overflow` — permits that are lost
-/

set_option autoImplicit false

namespace HttpClient.Asyncx

open Semantics

variable {β : Type}

/-! ### Semaphores -/

/-- A semaphore. Besides, it is counted how often a permit has been acquired, and how many have
been released. -/
structure Semaphore (β : Type) where
  permits : UInt64
  waiters : WaitQueue β := {}
  acquisitions : Nat := 0
  released : Nat := 0

inductive SemaphoreAction (β : Type) where
  /-- A coroutine calls `acquire`. -/
  | acquire (task : β)
  | tryAcquire
  | release (n : UInt64)
  /-- A coroutine that waits is cancelled. -/
  | cancel (place : WaitPlace)
  /-- A coroutine that has been woken or cancelled resumes. -/
  | resume (place : WaitPlace)

namespace Semaphore

def start (permits : UInt64) : Semaphore β := { permits }

def take (s : Semaphore β) : Semaphore β :=
  { s with permits := s.permits - 1, acquisitions := s.acquisitions + 1 }

/-- The body of the loop of `acquire`, up to the next wait; and whether `acquire` has returned. -/
def attempt (w : Waiter β) (s : Semaphore β) : Bool × Semaphore β :=
  if 0 < s.permits then (true, s.take) else (false, { s with waiters := s.waiters.park w })

/-- `try_acquire` -/
def tryAcquire (s : Semaphore β) : Bool × Semaphore β :=
  if s.permits = 0 then (false, s) else (true, s.take)

/-- The loop calls `cancel_one_waiter` as often as there are new permits. -/
def release (n : UInt64) (s : Semaphore β) : Semaphore β :=
  { s with
    permits := s.permits + n
    waiters := s.waiters.wakeMany n.toNat
    released := s.released + n.toNat }

/-- One step; `none` if it is not enabled. -/
def step (s : Semaphore β) : SemaphoreAction β → Option (Semaphore β)
  | .acquire task => some (s.attempt { task }).2
  | .tryAcquire => some s.tryAcquire.2
  | .release n => some (s.release n)
  | .cancel place => (s.waiters.cancel place).map fun waiters => { s with waiters }
  | .resume place =>
    (s.waiters.leave place).map fun (w, waiters) => ({ s with waiters }.attempt w).2

/-- A release does not carry the counter past its width. -/
def Fits (s : Semaphore β) : SemaphoreAction β → Prop
  | .release n => s.permits.toNat + n.toNat < UInt64.size
  | _ => True

instance (s : Semaphore β) : ∀ action, Decidable (s.Fits action)
  | .release _ => inferInstanceAs (Decidable (_ < _))
  | .acquire _ | .tryAcquire | .cancel _ | .resume _ => isTrue trivial

end Semaphore

/-! ### Locks -/

/-- A lock and the variables of type `LockGuard`: whether they hold this lock. Others hold
nothing, or another lock. -/
structure Lock (β : Type) where
  semaphore : Semaphore β := .start 1
  guards : List Bool := []

inductive LockAction (β : Type) where
  /-- A coroutine calls `acquire`. -/
  | acquire (task : β)
  | cancel (place : WaitPlace)
  | resume (place : WaitPlace)
  /-- A guard is made for another lock. -/
  | foreign
  /-- A guard is made from guard `i`. -/
  | moveConstruct (i : Nat)
  /-- Guard `j` is assigned to guard `i`. -/
  | moveAssign (i j : Nat)
  /-- `release`, or the end of its life. -/
  | drop (i : Nat)

namespace Lock

/-- `acquire` returns a guard. -/
def acquired (l : Lock β) : Bool × Semaphore β → Lock β
  | (true, semaphore) => { l with semaphore, guards := l.guards ++ [true] }
  | (false, semaphore) => { l with semaphore }

/-- `LockGuard::release` -/
def drop (i : Nat) (l : Lock β) : Lock β :=
  if l.guards[i]? = some true then
    { semaphore := l.semaphore.release 1, guards := l.guards.set i false }
  else l

/-- Guard `j` holds nothing any more. -/
def moved (j : Nat) (guards : List Bool) : Bool × List Bool :=
  (guards[j]?.getD false, guards.set j false)

/-- One step; `none` if it is not enabled. -/
def step (l : Lock β) : LockAction β → Option (Lock β)
  | .acquire task => some (l.acquired (l.semaphore.attempt { task }))
  | .cancel place =>
    (l.semaphore.step (.cancel place)).map fun semaphore => { l with semaphore }
  | .resume place =>
    (l.semaphore.waiters.leave place).map fun (w, waiters) =>
      l.acquired ({ l.semaphore with waiters }.attempt w)
  | .foreign => some { l with guards := l.guards ++ [false] }
  | .moveConstruct i =>
    let (held, guards) := moved i l.guards
    some { l with guards := guards ++ [held] }
  | .moveAssign i j =>
    if i < l.guards.length then
      if i = j then some l
      else
        let l := l.drop i
        let (held, guards) := moved j l.guards
        some { l with guards := guards.set i held }
    else none
  | .drop i => some (l.drop i)

/-- How many variables hold the lock. -/
def holders (l : Lock β) : Nat := l.guards.count true

end Lock

/-! ### How the permits add up -/

namespace Semaphore

variable {s s' : Semaphore β} {initial : UInt64}

/-- The invariant of all runs. -/
structure Inv (initial : UInt64) (s : Semaphore β) : Prop where
  /-- The counter is right but for its width. -/
  conserved : (s.permits.toNat + s.acquisitions) % UInt64.size =
    (initial.toNat + s.released) % UInt64.size
  covered : s.waiters.Covers s.permits.toNat

/-- The counter is right. -/
def Balanced (initial : UInt64) (s : Semaphore β) : Prop :=
  s.permits.toNat + s.acquisitions = initial.toNat + s.released

theorem inv_start (initial : UInt64) : (start initial : Semaphore β).Inv initial :=
  ⟨rfl, fun ⟨_, hmem⟩ => absurd hmem List.not_mem_nil⟩

theorem balanced_start (initial : UInt64) : (start initial : Semaphore β).Balanced initial := rfl

theorem pos_iff : 0 < s.permits ↔ 0 < s.permits.toNat := UInt64.lt_iff_toNat_lt

/-- Taking a permit moves it from the counter to the acquisitions. -/
theorem permits_take (h : 0 < s.permits) :
    s.take.permits.toNat = s.permits.toNat - 1 ∧
      s.take.permits.toNat + s.take.acquisitions = s.permits.toNat + s.acquisitions ∧
      s.take.released = s.released ∧ s.take.waiters = s.waiters := by
  have hpos : 0 < s.permits.toNat := pos_iff.mp h
  have hle : (1 : UInt64) ≤ s.permits := UInt64.le_iff_toNat_le.mpr hpos
  have hsub : s.take.permits.toNat = s.permits.toNat - 1 := UInt64.toNat_sub_of_le _ _ hle
  refine ⟨hsub, ?_, rfl, rfl⟩
  rw [hsub]
  change s.permits.toNat - 1 + (s.acquisitions + 1) = _
  omega

/-- A coroutine takes a permit, or there is none and it waits or leaves. -/
theorem attempt_cases (w : Waiter β) (s : Semaphore β) :
    0 < s.permits ∧ s.attempt w = (true, s.take) ∨
      s.permits.toNat = 0 ∧ s.attempt w = (false, { s with waiters := s.waiters.park w }) := by
  unfold attempt
  split_ifs with hpos
  · exact Or.inl ⟨hpos, rfl⟩
  · exact Or.inr ⟨Nat.eq_zero_of_not_pos fun h => hpos (pos_iff.mpr h), rfl⟩

theorem tryAcquire_cases (s : Semaphore β) :
    0 < s.permits ∧ s.tryAcquire = (true, s.take) ∨ s.tryAcquire = (false, s) := by
  unfold tryAcquire
  split_ifs with hzero
  · exact Or.inr rfl
  · refine Or.inl ⟨pos_iff.mpr (Nat.pos_of_ne_zero fun h => hzero ?_), rfl⟩
    exact UInt64.toNat_inj.mp h

theorem Inv.of_attempt {w : Waiter β}
    (hconserved : (s.permits.toNat + s.acquisitions) % UInt64.size =
      (initial.toNat + s.released) % UInt64.size)
    (hcovered : s.waiters.Covers (s.permits.toNat - 1)) : (s.attempt w).2.Inv initial := by
  rcases attempt_cases w s with ⟨hpos, heq⟩ | ⟨hzero, heq⟩
  · obtain ⟨hpermits, hsum, hreleased, hwaiters⟩ := permits_take hpos
    rw [heq]
    constructor
    · rw [hsum, hreleased]
      exact hconserved
    · rw [hpermits, hwaiters]
      exact hcovered
  · rw [heq]
    refine ⟨hconserved, ?_⟩
    change (s.waiters.park w).Covers s.permits.toNat
    rw [hzero]
    exact WaitQueue.covers_zero _

theorem step_cancel {place : WaitPlace} (h : s.step (.cancel place) = some s') :
    ∃ waiters, s.waiters.cancel place = some waiters ∧ s' = { s with waiters } := by
  obtain ⟨waiters, hcancel, heq⟩ := Option.map_eq_some_iff.mp h
  exact ⟨waiters, hcancel, heq.symm⟩

theorem step_resume {place : WaitPlace} (h : s.step (.resume place) = some s') :
    ∃ w waiters, s.waiters.leave place = some (w, waiters) ∧
      s' = ({ s with waiters }.attempt w).2 := by
  obtain ⟨⟨w, waiters⟩, hleave, heq⟩ := Option.map_eq_some_iff.mp h
  exact ⟨w, waiters, hleave, heq.symm⟩

theorem Inv.release (h : s.Inv initial) (n : UInt64) : (s.release n).Inv initial := by
  have hpermits : (s.release n).permits.toNat = (s.permits.toNat + n.toNat) % UInt64.size :=
    UInt64.toNat_add _ _
  constructor
  · change ((s.release n).permits.toNat + s.acquisitions) % UInt64.size =
      (initial.toNat + (s.released + n.toNat)) % UInt64.size
    rw [hpermits, Nat.mod_add_mod, Nat.add_right_comm, Nat.add_mod, h.conserved, ← Nat.add_mod,
      Nat.add_assoc]
  · rw [hpermits]
    exact (h.covered.wakeMany n.toNat).mono (Nat.mod_le _ _)

theorem Inv.step {action : SemaphoreAction β} (h : s.Inv initial)
    (hstep : s.step action = some s') : s'.Inv initial := by
  cases action with
  | acquire task =>
    obtain rfl := Option.some.inj hstep
    exact Inv.of_attempt h.conserved (h.covered.mono (Nat.sub_le _ 1))
  | tryAcquire =>
    obtain rfl := Option.some.inj hstep
    rcases tryAcquire_cases s with ⟨hpos, heq⟩ | heq
    · obtain ⟨hpermits, hsum, hreleased, hwaiters⟩ := permits_take hpos
      rw [heq]
      constructor
      · rw [hsum, hreleased]
        exact h.conserved
      · rw [hpermits, hwaiters]
        exact h.covered.mono (Nat.sub_le _ 1)
    · rw [heq]
      exact h
  | release n =>
    obtain rfl := Option.some.inj hstep
    exact h.release n
  | cancel place =>
    obtain ⟨waiters, hcancel, rfl⟩ := step_cancel hstep
    exact ⟨h.conserved, h.covered.cancel hcancel⟩
  | resume place =>
    obtain ⟨w, waiters, hleave, rfl⟩ := step_resume hstep
    exact Inv.of_attempt h.conserved (h.covered.leave hleave)

/-- An attempt keeps the sum of permits and acquisitions. -/
theorem balanced_attempt (w : Waiter β) (s : Semaphore β) :
    (s.attempt w).2.Balanced initial ↔ s.Balanced initial := by
  unfold Balanced
  rcases attempt_cases w s with ⟨hpos, heq⟩ | ⟨-, heq⟩
  · obtain ⟨-, hsum, hreleased, -⟩ := permits_take hpos
    rw [heq, hsum, hreleased]
  · rw [heq]

/-- Of all steps those of `Fits` keep the counter right. -/
theorem fits_iff_balanced {action : SemaphoreAction β} (h : s.Balanced initial)
    (hstep : s.step action = some s') : s.Fits action ↔ s'.Balanced initial := by
  cases action with
  | acquire task =>
    obtain rfl := Option.some.inj hstep
    exact iff_of_true trivial ((balanced_attempt _ s).mpr h)
  | tryAcquire =>
    obtain rfl := Option.some.inj hstep
    apply iff_of_true trivial
    rcases tryAcquire_cases s with ⟨hpos, heq⟩ | heq
    · obtain ⟨-, hsum, hreleased, -⟩ := permits_take hpos
      rw [heq]
      unfold Balanced
      rw [hsum, hreleased]
      exact h
    · rw [heq]
      exact h
  | release n =>
    obtain rfl := Option.some.inj hstep
    have hpermits : (s.release n).permits.toNat = (s.permits.toNat + n.toNat) % UInt64.size :=
      UInt64.toNat_add _ _
    have hbalanced : s.permits.toNat + s.acquisitions = initial.toNat + s.released := h
    change s.permits.toNat + n.toNat < UInt64.size ↔
      (s.release n).permits.toNat + s.acquisitions = initial.toNat + (s.released + n.toNat)
    rw [hpermits]
    constructor
    · intro hfits
      rw [Nat.mod_eq_of_lt hfits]
      omega
    · intro hsum
      have hkept : (s.permits.toNat + n.toNat) % UInt64.size = s.permits.toNat + n.toNat := by omega
      rw [← hkept]
      exact Nat.mod_lt _ (by decide)
  | cancel place =>
    obtain ⟨waiters, -, rfl⟩ := step_cancel hstep
    exact iff_of_true trivial h
  | resume place =>
    obtain ⟨w, waiters, -, rfl⟩ := step_resume hstep
    exact iff_of_true trivial ((balanced_attempt w { s with waiters }).mpr h)

end Semaphore

/-! ### Who holds a lock -/

namespace Lock

variable {l l' : Lock β} {i j : Nat}

/-- The invariant of all runs: the permit is free, or held by one variable. -/
structure Inv (l : Lock β) : Prop where
  one : l.semaphore.permits.toNat + l.holders = 1
  covered : l.semaphore.waiters.Covers l.semaphore.permits.toNat

theorem inv_start : ({} : Lock β).Inv :=
  ⟨rfl, fun ⟨_, hmem⟩ => absurd hmem List.not_mem_nil⟩

theorem Inv.acquired {w : Waiter β} {waiters : WaitQueue β} (h : l.Inv)
    (hcovered : waiters.Covers (l.semaphore.permits.toNat - 1)) :
    (l.acquired ({ l.semaphore with waiters }.attempt w)).Inv := by
  rcases Semaphore.attempt_cases w { l.semaphore with waiters } with ⟨hpos, heq⟩ | ⟨hzero, heq⟩
  · obtain ⟨hpermits, -, -, hwaiters⟩ := Semaphore.permits_take hpos
    rw [heq]
    refine ⟨?_, ?_⟩
    · change (Semaphore.take _).permits.toNat + (l.guards ++ [true]).count true = 1
      have hone : l.semaphore.permits.toNat + l.guards.count true = 1 := h.one
      have hfree : 0 < l.semaphore.permits.toNat := Semaphore.pos_iff.mp hpos
      rw [hpermits, List.count_append, List.count_singleton_self]
      dsimp only
      omega
    · change (Semaphore.take _).waiters.Covers (Semaphore.take _).permits.toNat
      rw [hpermits, hwaiters]
      exact hcovered
  · rw [heq]
    refine ⟨h.one, ?_⟩
    change (waiters.park w).Covers l.semaphore.permits.toNat
    rw [show l.semaphore.permits.toNat = 0 from hzero]
    exact WaitQueue.covers_zero _

/-- A guard that holds the lock gives the permit back, once. -/
theorem Inv.drop (h : l.Inv) (i : Nat) : (l.drop i).Inv := by
  unfold Lock.drop
  split_ifs with hheld
  · obtain ⟨hi, hget⟩ := List.getElem?_eq_some_iff.mp hheld
    have hone : l.semaphore.permits.toNat + l.guards.count true = 1 := h.one
    have hcount : (l.guards.set i false).count true + 1 = l.guards.count true := by
      have hpos : 0 < l.guards.count true := List.count_pos_iff.mpr (hget ▸ List.getElem_mem hi)
      rw [List.count_set hi, hget]
      simp
      omega
    have hpermits : (l.semaphore.release 1).permits.toNat = l.semaphore.permits.toNat + 1 := by
      have hadd : (l.semaphore.release 1).permits.toNat =
          (l.semaphore.permits.toNat + 1) % UInt64.size := UInt64.toNat_add _ _
      rw [hadd, Nat.mod_eq_of_lt]
      have hsize : UInt64.size = 18446744073709551616 := rfl
      omega
    refine ⟨?_, ?_⟩
    · change (l.semaphore.release 1).permits.toNat + (l.guards.set i false).count true = 1
      omega
    · change (l.semaphore.waiters.wakeMany 1).Covers (l.semaphore.release 1).permits.toNat
      rw [hpermits]
      exact h.covered.wakeMany 1
  · exact h

theorem guards_drop_length (l : Lock β) (i : Nat) :
    (l.drop i).guards.length = l.guards.length := by
  unfold Lock.drop
  split_ifs
  · exact List.length_set
  · rfl

/-- A guard that has been released holds nothing. -/
theorem guards_drop (l : Lock β) (i : Nat) : (l.drop i).guards[i]? ≠ some true := by
  unfold Lock.drop
  split_ifs with hheld
  · intro hstill
    rw [List.getElem?_set_self'] at hstill
    cases hget : l.guards[i]? <;> simp [hget] at hstill
  · exact hheld

/-- Moving from a guard moves what it holds. -/
theorem count_moved (j : Nat) (guards : List Bool) :
    (moved j guards).2.count true + (if (moved j guards).1 then 1 else 0) = guards.count true := by
  unfold moved
  by_cases hj : j < guards.length
  · have hget : guards[j]? = some guards[j] := List.getElem?_eq_getElem hj
    dsimp only
    rw [List.count_set hj, hget, Option.getD_some]
    cases hheld : guards[j] with
    | false => simp
    | true =>
      have hpos : 0 < guards.count true := List.count_pos_iff.mpr (hheld ▸ List.getElem_mem hj)
      simp
      omega
  · have hnone : guards[j]? = none := List.getElem?_eq_none (Nat.le_of_not_lt hj)
    dsimp only
    rw [hnone, List.set_eq_of_length_le (Nat.le_of_not_lt hj)]
    rfl

theorem Inv.withGuards (h : l.Inv) {guards : List Bool}
    (hcount : guards.count true = l.guards.count true) : ({ l with guards } : Lock β).Inv := by
  refine ⟨?_, h.covered⟩
  change l.semaphore.permits.toNat + guards.count true = 1
  rw [hcount]
  exact h.one

theorem Inv.step {action : LockAction β} (h : l.Inv) (hstep : l.step action = some l') :
    l'.Inv := by
  cases action with
  | acquire task =>
    obtain rfl := Option.some.inj hstep
    exact h.acquired (h.covered.mono (Nat.sub_le _ 1))
  | cancel place =>
    obtain ⟨semaphore, hsemaphore, rfl⟩ := Option.map_eq_some_iff.mp hstep
    obtain ⟨waiters, hwaiters, rfl⟩ := Semaphore.step_cancel hsemaphore
    exact ⟨h.one, h.covered.cancel hwaiters⟩
  | resume place =>
    obtain ⟨⟨w, waiters⟩, hleave, rfl⟩ := Option.map_eq_some_iff.mp hstep
    exact h.acquired (h.covered.leave hleave)
  | foreign =>
    obtain rfl := Option.some.inj hstep
    apply h.withGuards
    rw [List.count_append]
    rfl
  | moveConstruct i =>
    obtain rfl := Option.some.inj hstep
    apply h.withGuards
    have hmoved := count_moved i l.guards
    change ((moved i l.guards).2 ++ [(moved i l.guards).1]).count true = l.guards.count true
    rw [List.count_append, ← hmoved]
    cases (moved i l.guards).1 <;> rfl
  | moveAssign i j =>
    simp only [Lock.step] at hstep
    split_ifs at hstep with hi hsame
    · obtain rfl := Option.some.inj hstep
      exact h
    · obtain rfl := Option.some.inj hstep
      apply (h.drop i).withGuards
      have hmoved := count_moved j (l.drop i).guards
      have hlength : i < (moved j (l.drop i).guards).2.length := by
        change i < ((l.drop i).guards.set j false).length
        rw [List.length_set, guards_drop_length]
        exact hi
      -- what is overwritten has been released before
      have hfree : (moved j (l.drop i).guards).2[i] = false := by
        have hother : (moved j (l.drop i).guards).2[i]? = (l.drop i).guards[i]? :=
          List.getElem?_set_ne (Ne.symm hsame)
        have hdropped := guards_drop l i
        rw [← hother, List.getElem?_eq_getElem hlength] at hdropped
        simpa using hdropped
      rw [List.count_set hlength, hfree]
      rw [← hmoved]
      cases (moved j (l.drop i).guards).1 <;> simp
  | drop i =>
    obtain rfl := Option.some.inj hstep
    exact h.drop i

end Lock

/-! ### Results -/

open Semaphore in
/-- In all runs the permits add up but for the width of the counter, and altogether as long as no
release carries it past its width; a lock is held by at most one guard; and while anybody waits
in the queue, at least as many waiters are about to run as there are permits. -/
theorem permits_conserved :
    (∀ (initial : UInt64) (actions : List (SemaphoreAction β)) (s : Semaphore β),
      exec Semaphore.step (start initial) actions = some s →
        (s.permits.toNat + s.acquisitions) % UInt64.size =
            (initial.toNat + s.released) % UInt64.size ∧
          (Along Semaphore.step Fits (start initial) actions ↔
            ∀ before after s', actions = before ++ after →
              exec Semaphore.step (start initial) before = some s' →
                s'.permits.toNat + s'.acquisitions = initial.toNat + s'.released) ∧
          ((∃ w, some w ∈ s.waiters.entries) → s.permits.toNat ≤ s.waiters.woken.length)) ∧
    (∀ (actions : List (LockAction β)) (l : Lock β),
      exec Lock.step {} actions = some l →
        l.holders ≤ 1 ∧ l.semaphore.permits.toNat + l.holders = 1 ∧
          ((∃ w, some w ∈ l.semaphore.waiters.entries) →
            l.semaphore.permits.toNat ≤ l.semaphore.waiters.woken.length)) := by
  constructor
  · intro initial actions s hrun
    have hinv : s.Inv initial :=
      invariant_of_reaches (fun _ _ _ hs hstep => hs.step hstep) (inv_start initial) ⟨actions, hrun⟩
    refine ⟨hinv.conserved, ?_, hinv.covered⟩
    exact along_iff_throughout (fun _ _ _ hs hstep => fits_iff_balanced hs hstep)
      (balanced_start initial) hrun
  · intro actions l hrun
    have hinv : l.Inv :=
      invariant_of_reaches (fun _ _ _ hs hstep => hs.step hstep) Lock.inv_start ⟨actions, hrun⟩
    exact ⟨by have hone := hinv.one; omega, hinv.one, hinv.covered⟩

/-- A permit is released, while one coroutine waits that has been cancelled and another one
that has not. -/
theorem permits_conserved_cancelled :
    ∃ (actions : List (SemaphoreAction Nat)) (s : Semaphore Nat),
      exec Semaphore.step (.start 0) actions = some s ∧
        s.permits.toNat + s.acquisitions = (0 : UInt64).toNat + s.released ∧
        s.permits.toNat ≤ s.waiters.woken.length := by
  let actions : List (SemaphoreAction Nat) :=
    [.acquire 1, .acquire 2, .cancel (.queued 0), .release 1]
  obtain ⟨-, hbalanced, hwoken⟩ := permits_conserved.1 0 actions _ rfl
  refine ⟨actions, _, rfl, ?_, hwoken ⟨{ task := 2 }, List.mem_cons_self⟩⟩
  exact hbalanced.mp (by decide) actions [] _ (List.append_nil _).symm rfl

/-- One permit more than the counter can hold, and none is left. -/
theorem permits_overflow :
    ¬ ∀ (initial : UInt64) (actions : List (SemaphoreAction Nat)) (s : Semaphore Nat),
      exec Semaphore.step (.start initial) actions = some s →
        s.permits.toNat + s.acquisitions = initial.toNat + s.released := by
  intro h
  have hsum := h 18446744073709551615 [.release 1] _ rfl
  exact absurd hsum (by decide)

end HttpClient.Asyncx
