import Mathlib.Data.List.Nodup
import HttpClient.Semantics.Machine

/-!
# Awaiting a task of another executor

A task completes on its own executor while coroutines of other executors await it. A
coroutine that finds the task not done registers a timer that never expires, releases the
lock, and then starts to wait on the timer. The completion takes all registered timers from
the task and cancels them one after the other, without the lock. Cancelling a timer on which
nobody waits yet has no effect.

The coroutines are numbered, and each registers its own timer. A registered timer lives as
long as its coroutine waits, so the completion finds all of them alive.

## Main definitions

* `Awaiter`, `Completer`, `CrossAwait` — the coroutines, the completion, and the task
* `CrossAwait.step` — the atomic steps
* `CrossAwait.Blocked` — a coroutine waits on its timer
* `CancelsStarted` — the steps that cancel only timers on which somebody waits

## Main results

* `CrossAwait.Inv.step` — what every step keeps
* `unblocked_iff_cancelsStarted` — the runs after which nobody blocks
* `blocked_after_completion` — a run after which somebody does
-/

set_option autoImplicit false

namespace HttpClient.Asyncx

open Semantics

variable {α ε : Type}

/-- A coroutine that awaits the task. -/
inductive Awaiter (α ε : Type) where
  | created
  /-- The timer is registered and the lock released. -/
  | registered
  | waiting
  /-- The timer has been cancelled, and the coroutine is about to resume. -/
  | woken
  /-- The coroutine has taken the outcome. -/
  | returned (outcome : Except ε α)
  deriving DecidableEq, Repr

/-- `complete_task` -/
inductive Completer where
  | running
  /-- The outcome is set, and these timers are still to be cancelled. -/
  | cancelling (timers : List Nat)
  | finished
  deriving DecidableEq, Repr

structure CrossAwait (α ε : Type) where
  /-- The value or the exception of the task, once it is done. -/
  outcome : Option (Except ε α) := none
  /-- The timers that are registered with the task. -/
  waiters : List Nat := []
  completer : Completer := .running
  awaiters : List (Awaiter α ε)
  deriving DecidableEq, Repr

inductive AwaitAction (α ε : Type) where
  /-- A coroutine looks at the task under its lock. -/
  | lookUp (i : Nat)
  | startWait (i : Nat)
  /-- A coroutine that has been woken looks at the task again. -/
  | resume (i : Nat)
  /-- The locked section of the completion. -/
  | complete (outcome : Except ε α)
  /-- The completion cancels the next timer. -/
  | cancelNext
  /-- The completion has cancelled all timers. -/
  | finish

namespace CrossAwait

/-- `n` coroutines are to await the task. -/
def start (n : Nat) : CrossAwait α ε := { awaiters := List.replicate n .created }

def setAwaiter (s : CrossAwait α ε) (i : Nat) (awaiter : Awaiter α ε) : CrossAwait α ε :=
  { s with awaiters := s.awaiters.set i awaiter }

/-- Cancel the timer of a coroutine. -/
def cancelTimer (s : CrossAwait α ε) (i : Nat) : CrossAwait α ε :=
  match s.awaiters[i]? with
  | some .waiting => s.setAwaiter i .woken
  | _ => s

/-- One step; `none` if it is not enabled. -/
def step (s : CrossAwait α ε) : AwaitAction α ε → Option (CrossAwait α ε)
  | .lookUp i =>
    match s.awaiters[i]?, s.outcome with
    | some .created, some outcome => some (s.setAwaiter i (.returned outcome))
    | some .created, none => some { s.setAwaiter i .registered with waiters := s.waiters ++ [i] }
    | _, _ => none
  | .startWait i =>
    match s.awaiters[i]? with
    | some .registered => some (s.setAwaiter i .waiting)
    | _ => none
  | .resume i =>
    match s.awaiters[i]?, s.outcome with
    | some .woken, some outcome => some (s.setAwaiter i (.returned outcome))
    | _, _ => none
  | .complete outcome =>
    match s.completer with
    | .running =>
      some
        { s with
          outcome := some outcome
          waiters := []
          completer := .cancelling s.waiters }
    | _ => none
  | .cancelNext =>
    match s.completer with
    | .cancelling (i :: timers) => some { s.cancelTimer i with completer := .cancelling timers }
    | _ => none
  | .finish =>
    match s.completer with
    | .cancelling [] => some { s with completer := .finished }
    | _ => none

/-- A coroutine waits on its timer. -/
def Blocked (s : CrossAwait α ε) : Prop := ∃ i : Nat, s.awaiters[i]? = some .waiting

end CrossAwait

/-- The timer that is cancelled next. -/
def Completer.next : Completer → Option Nat
  | .cancelling (i :: _) => some i
  | _ => none

/-- Every timer that is cancelled is one on which its coroutine has started to wait. -/
def CancelsStarted (s : CrossAwait α ε) : AwaitAction α ε → Prop
  | .cancelNext => ∀ i ∈ s.completer.next, s.awaiters[i]? ≠ some .registered
  | _ => True

instance [DecidableEq α] [DecidableEq ε] (s : CrossAwait α ε) :
    ∀ action, Decidable (CancelsStarted s action)
  | .cancelNext => inferInstanceAs (Decidable (∀ i ∈ _, _))
  | .lookUp _ | .startWait _ | .resume _ | .complete _ | .finish => isTrue trivial

/-! ### The steps -/

namespace CrossAwait

variable {s s' : CrossAwait α ε} {i : Nat}

theorem step_lookUp (h : s.step (.lookUp i) = some s') :
    s.awaiters[i]? = some .created ∧
      ((∃ outcome, s.outcome = some outcome ∧ s' = s.setAwaiter i (.returned outcome)) ∨
        s.outcome = none ∧
          s' = { s.setAwaiter i .registered with waiters := s.waiters ++ [i] }) := by
  unfold step at h
  dsimp only at h
  split at h
  · rename_i outcome hcreated hdone
    exact ⟨hcreated, Or.inl ⟨outcome, hdone, (Option.some.inj h).symm⟩⟩
  · rename_i hcreated hopen
    exact ⟨hcreated, Or.inr ⟨hopen, (Option.some.inj h).symm⟩⟩
  · cases h

theorem step_startWait (h : s.step (.startWait i) = some s') :
    s.awaiters[i]? = some .registered ∧ s' = s.setAwaiter i .waiting := by
  unfold step at h
  dsimp only at h
  split at h
  · rename_i hregistered
    exact ⟨hregistered, (Option.some.inj h).symm⟩
  · cases h

theorem step_resume (h : s.step (.resume i) = some s') :
    s.awaiters[i]? = some .woken ∧ ∃ outcome, s' = s.setAwaiter i (.returned outcome) := by
  unfold step at h
  dsimp only at h
  split at h
  · rename_i outcome hwoken _
    exact ⟨hwoken, outcome, (Option.some.inj h).symm⟩
  · cases h

theorem step_complete {outcome : Except ε α} (h : s.step (.complete outcome) = some s') :
    s.completer = .running ∧
      s' =
        { s with
          outcome := some outcome
          waiters := []
          completer := .cancelling s.waiters } := by
  unfold step at h
  dsimp only at h
  split at h
  · rename_i hrunning
    exact ⟨hrunning, (Option.some.inj h).symm⟩
  · cases h

theorem step_cancelNext (h : s.step .cancelNext = some s') :
    ∃ i timers, s.completer = .cancelling (i :: timers) ∧
      s' = { s.cancelTimer i with completer := .cancelling timers } := by
  unfold step at h
  dsimp only at h
  split at h
  · rename_i i timers hcancelling
    exact ⟨i, timers, hcancelling, (Option.some.inj h).symm⟩
  · cases h

theorem step_finish (h : s.step .finish = some s') :
    s.completer = .cancelling [] ∧ s' = { s with completer := .finished } := by
  unfold step at h
  dsimp only at h
  split at h
  · rename_i hcancelling
    exact ⟨hcancelling, (Option.some.inj h).symm⟩
  · cases h

/-- What the other coroutines do is not touched. -/
theorem setAwaiter_of_ne {j : Nat} (awaiter : Awaiter α ε) (hij : i ≠ j) :
    (s.setAwaiter i awaiter).awaiters[j]? = s.awaiters[j]? := List.getElem?_set_ne hij

theorem setAwaiter_self {before : Awaiter α ε} (awaiter : Awaiter α ε)
    (hget : s.awaiters[i]? = some before) :
    (s.setAwaiter i awaiter).awaiters[i]? = some awaiter :=
  List.getElem?_set_self (List.getElem?_eq_some_iff.mp hget).1

/-! ### Who is going to be woken -/

/-- A coroutine has registered its timer and has not been woken. -/
def Sleeps (s : CrossAwait α ε) (i : Nat) : Prop :=
  s.awaiters[i]? = some .registered ∨ s.awaiters[i]? = some .waiting

/-- The timers that the completion is still to cancel. -/
def pending (s : CrossAwait α ε) : List Nat :=
  match s.completer with
  | .running => s.waiters
  | .cancelling timers => timers
  | .finished => []

/-- A coroutine sleeps whose timer nobody is going to cancel. -/
def Missed (s : CrossAwait α ε) : Prop := ∃ i, s.Sleeps i ∧ i ∉ s.pending

/-- The invariant of all runs. -/
structure Inv (s : CrossAwait α ε) : Prop where
  /-- The task is done once its completion has begun. -/
  done : s.outcome = none ↔ s.completer = .running
  nodup : s.pending.Nodup
  sleeps : ∀ i ∈ s.pending, s.Sleeps i

theorem inv_start (n : Nat) : (start n : CrossAwait α ε).Inv :=
  ⟨iff_of_true rfl rfl, List.nodup_nil, fun _ hmem => absurd hmem List.not_mem_nil⟩

theorem not_missed_start (n : Nat) : ¬ (start n : CrossAwait α ε).Missed := by
  rintro ⟨i, hregistered | hwaiting, -⟩
  · have hcreated := List.eq_of_mem_replicate (List.mem_of_getElem? hregistered)
    cases hcreated
  · have hcreated := List.eq_of_mem_replicate (List.mem_of_getElem? hwaiting)
    cases hcreated

/-- Setting a coroutine that does not sleep changes nothing for those that do. -/
theorem sleeps_setAwaiter {j : Nat} {awaiter : Awaiter α ε} (hij : i ≠ j) :
    (s.setAwaiter i awaiter).Sleeps j ↔ s.Sleeps j := by
  unfold Sleeps
  rw [setAwaiter_of_ne awaiter hij]

theorem not_sleeps_of {before : Awaiter α ε} (hget : s.awaiters[i]? = some before)
    (hregistered : before ≠ .registered) (hwaiting : before ≠ .waiting) : ¬ s.Sleeps i := by
  rintro (h | h)
  · exact hregistered (Option.some.inj (hget.symm.trans h))
  · exact hwaiting (Option.some.inj (hget.symm.trans h))

/-- A timer that is cancelled wakes the coroutine that waits on it, and no other. -/
theorem cancelTimer_cases (s : CrossAwait α ε) (i : Nat) :
    s.awaiters[i]? = some .waiting ∧ s.cancelTimer i = s.setAwaiter i .woken ∨
      s.awaiters[i]? ≠ some .waiting ∧ s.cancelTimer i = s := by
  unfold cancelTimer
  split
  · rename_i hwaiting
    exact Or.inl ⟨hwaiting, rfl⟩
  · rename_i hother
    exact Or.inr ⟨fun hwaiting => hother hwaiting, rfl⟩

/-- What a coroutine does that has not slept, and does not sleep after it. -/
theorem Inv.setAwaiter {awaiter : Awaiter α ε} (h : s.Inv) (hbefore : ¬ s.Sleeps i) :
    (s.setAwaiter i awaiter).Inv := by
  refine ⟨h.done, h.nodup, fun j hmem => ?_⟩
  have hij : i ≠ j := by
    rintro rfl
    exact hbefore (h.sleeps i hmem)
  exact (sleeps_setAwaiter hij).mpr (h.sleeps j hmem)

theorem Inv.lookUp (h : s.Inv) (hstep : s.step (.lookUp i) = some s') : s'.Inv := by
  obtain ⟨hcreated, ⟨outcome, -, rfl⟩ | ⟨hopen, rfl⟩⟩ := step_lookUp hstep
  · exact h.setAwaiter (not_sleeps_of hcreated (by simp) (by simp))
  · have hawake : ¬ s.Sleeps i := not_sleeps_of hcreated (by simp) (by simp)
    have hrunning : s.completer = .running := h.done.mp hopen
    have hold : s.pending = s.waiters := by simp [pending, hrunning]
    have hnew : pending { s.setAwaiter i .registered with waiters := s.waiters ++ [i] } =
        s.waiters ++ [i] := by
      have hkept : (s.setAwaiter i .registered).completer = .running := hrunning
      simp [pending, hkept]
    refine ⟨h.done, ?_, fun j hmem => ?_⟩
    · rw [hnew, List.nodup_append_comm]
      rw [← hold]
      exact List.nodup_cons.mpr ⟨fun hmem => hawake (h.sleeps i hmem), h.nodup⟩
    · rw [hnew] at hmem
      by_cases hij : i = j
      · rw [← hij]
        exact Or.inl (setAwaiter_self .registered hcreated)
      · have hmem : j ∈ s.waiters := by simpa [Ne.symm hij] using hmem
        rw [← hold] at hmem
        exact (sleeps_setAwaiter hij).mpr (h.sleeps j hmem)

theorem Inv.step {action : AwaitAction α ε} (h : s.Inv) (hstep : s.step action = some s') :
    s'.Inv := by
  cases action with
  | lookUp i => exact h.lookUp hstep
  | startWait i =>
    obtain ⟨hregistered, rfl⟩ := step_startWait hstep
    refine ⟨h.done, h.nodup, fun j hmem => ?_⟩
    by_cases hij : i = j
    · rw [← hij]
      exact Or.inr (setAwaiter_self .waiting hregistered)
    · exact (sleeps_setAwaiter hij).mpr (h.sleeps j hmem)
  | resume i =>
    obtain ⟨hwoken, outcome, rfl⟩ := step_resume hstep
    exact h.setAwaiter (not_sleeps_of hwoken (by simp) (by simp))
  | complete outcome =>
    obtain ⟨hrunning, rfl⟩ := step_complete hstep
    have hpending : s.pending = s.waiters := by simp [pending, hrunning]
    have hnodup := h.nodup
    have hsleeps := h.sleeps
    rw [hpending] at hnodup hsleeps
    exact ⟨iff_of_false (by simp) (by simp), hnodup, hsleeps⟩
  | cancelNext =>
    obtain ⟨i, timers, hcancelling, rfl⟩ := step_cancelNext hstep
    have hpending : s.pending = i :: timers := by simp [pending, hcancelling]
    have hnodup := h.nodup
    rw [hpending, List.nodup_cons] at hnodup
    have hdone : s.outcome ≠ none := fun hopen => by
      rw [h.done.mp hopen] at hcancelling
      cases hcancelling
    have hothers : ∀ j ∈ timers, i ≠ j ∧ s.Sleeps j := by
      intro j hmem
      refine ⟨?_, h.sleeps j (hpending ▸ List.mem_cons_of_mem i hmem)⟩
      rintro rfl
      exact hnodup.1 hmem
    rcases cancelTimer_cases s i with ⟨-, hcancel⟩ | ⟨-, hcancel⟩
    · rw [hcancel]
      refine ⟨iff_of_false hdone (by simp), hnodup.2, fun j hmem => ?_⟩
      obtain ⟨hij, hsleeps⟩ := hothers j hmem
      exact (sleeps_setAwaiter hij).mpr hsleeps
    · rw [hcancel]
      exact ⟨iff_of_false hdone (by simp), hnodup.2, fun j hmem => (hothers j hmem).2⟩
  | finish =>
    obtain ⟨hcancelling, rfl⟩ := step_finish hstep
    have hdone : s.outcome ≠ none := fun hopen => by
      rw [h.done.mp hopen] at hcancelling
      cases hcancelling
    exact ⟨iff_of_false hdone (by simp), List.nodup_nil,
      fun i hmem => absurd hmem List.not_mem_nil⟩

theorem mem_pending_lookUp {j : Nat} (hrunning : s.completer = .running) :
    j ∈ pending { s.setAwaiter i .registered with waiters := s.waiters ++ [i] } ↔
      j ∈ s.pending ∨ j = i := by
  have hkept : (s.setAwaiter i .registered).completer = .running := hrunning
  simp [pending, hkept, hrunning]

/-- Nobody can make up for a timer that has been cancelled too early. -/
theorem Missed.step {action : AwaitAction α ε} (h : s.Missed) (hinv : s.Inv)
    (hstep : s.step action = some s') : s'.Missed := by
  obtain ⟨i, hsleeps, hmissed⟩ := h
  cases action with
  | lookUp j =>
    obtain ⟨hcreated, hcases⟩ := step_lookUp hstep
    have hji : j ≠ i := by
      rintro rfl
      exact not_sleeps_of hcreated (by simp) (by simp) hsleeps
    rcases hcases with ⟨outcome, -, rfl⟩ | ⟨hopen, rfl⟩
    · exact ⟨i, (sleeps_setAwaiter hji).mpr hsleeps, hmissed⟩
    · refine ⟨i, (sleeps_setAwaiter hji).mpr hsleeps, fun hmem => ?_⟩
      rcases (mem_pending_lookUp (hinv.done.mp hopen)).mp hmem with hold | hnew
      · exact hmissed hold
      · exact hji hnew.symm
  | startWait j =>
    obtain ⟨hregistered, rfl⟩ := step_startWait hstep
    by_cases hji : j = i
    · subst hji
      exact ⟨j, Or.inr (setAwaiter_self .waiting hregistered), hmissed⟩
    · exact ⟨i, (sleeps_setAwaiter hji).mpr hsleeps, hmissed⟩
  | resume j =>
    obtain ⟨hwoken, outcome, rfl⟩ := step_resume hstep
    have hji : j ≠ i := by
      rintro rfl
      exact not_sleeps_of hwoken (by simp) (by simp) hsleeps
    exact ⟨i, (sleeps_setAwaiter hji).mpr hsleeps, hmissed⟩
  | complete outcome =>
    obtain ⟨hrunning, rfl⟩ := step_complete hstep
    refine ⟨i, hsleeps, ?_⟩
    simpa [pending, hrunning] using hmissed
  | cancelNext =>
    obtain ⟨j, timers, hcancelling, rfl⟩ := step_cancelNext hstep
    have hboth : i ≠ j ∧ i ∉ timers := by simpa [pending, hcancelling] using hmissed
    rcases cancelTimer_cases s j with ⟨-, hcancel⟩ | ⟨-, hcancel⟩
    · rw [hcancel]
      exact ⟨i, (sleeps_setAwaiter hboth.1.symm).mpr hsleeps, hboth.2⟩
    · rw [hcancel]
      exact ⟨i, hsleeps, hboth.2⟩
  | finish =>
    obtain ⟨-, rfl⟩ := step_finish hstep
    exact ⟨i, hsleeps, List.not_mem_nil⟩

theorem not_missed : ¬ s.Missed ↔ ∀ i, s.Sleeps i → i ∈ s.pending := by
  unfold Missed
  push Not
  exact Iff.rfl

/-- A step that changes one coroutine, which does not sleep after it, misses nobody. -/
theorem not_missed_setAwaiter {before awaiter : Awaiter α ε} (hgood : ¬ s.Missed)
    (hget : s.awaiters[i]? = some before) (hregistered : awaiter ≠ .registered)
    (hwaiting : awaiter ≠ .waiting) : ¬ (s.setAwaiter i awaiter).Missed := by
  rw [not_missed] at hgood ⊢
  intro j hsleeps
  by_cases hij : i = j
  · subst hij
    exact absurd hsleeps (not_sleeps_of (setAwaiter_self awaiter hget) hregistered hwaiting)
  · exact hgood j ((sleeps_setAwaiter hij).mp hsleeps)

/-- The completion misses a coroutine exactly if it cancels its timer before the wait. -/
theorem Inv.cancelsStarted_iff {action : AwaitAction α ε} (h : s.Inv) (hgood : ¬ s.Missed)
    (hstep : s.step action = some s') : CancelsStarted s action ↔ ¬ s'.Missed := by
  cases action with
  | lookUp i =>
    refine iff_of_true trivial ?_
    obtain ⟨hcreated, ⟨outcome, -, rfl⟩ | ⟨hopen, rfl⟩⟩ := step_lookUp hstep
    · exact not_missed_setAwaiter hgood hcreated (by simp) (by simp)
    · rw [not_missed] at hgood ⊢
      intro j hsleeps
      apply (mem_pending_lookUp (h.done.mp hopen)).mpr
      by_cases hij : i = j
      · exact Or.inr hij.symm
      · exact Or.inl (hgood j ((sleeps_setAwaiter hij).mp hsleeps))
  | startWait i =>
    refine iff_of_true trivial ?_
    obtain ⟨hregistered, rfl⟩ := step_startWait hstep
    rw [not_missed] at hgood ⊢
    intro j hsleeps
    by_cases hij : i = j
    · subst hij
      exact hgood i (Or.inl hregistered)
    · exact hgood j ((sleeps_setAwaiter hij).mp hsleeps)
  | resume i =>
    refine iff_of_true trivial ?_
    obtain ⟨hwoken, outcome, rfl⟩ := step_resume hstep
    exact not_missed_setAwaiter hgood hwoken (by simp) (by simp)
  | complete outcome =>
    refine iff_of_true trivial ?_
    obtain ⟨hrunning, rfl⟩ := step_complete hstep
    rw [not_missed] at hgood ⊢
    intro i hsleeps
    simpa [pending, hrunning] using hgood i hsleeps
  | cancelNext =>
    obtain ⟨i, timers, hcancelling, rfl⟩ := step_cancelNext hstep
    have hpending : s.pending = i :: timers := by simp [pending, hcancelling]
    have hok : CancelsStarted s .cancelNext ↔ s.awaiters[i]? ≠ some .registered := by
      simp [CancelsStarted, hcancelling, Completer.next]
    rw [hok]
    have hasleep : s.Sleeps i := h.sleeps i (hpending ▸ List.mem_cons_self)
    have hfresh : i ∉ timers := (List.nodup_cons.mp (hpending ▸ h.nodup)).1
    rcases cancelTimer_cases s i with ⟨hwaiting, hcancel⟩ | ⟨hnot, hcancel⟩
    · -- the coroutine has started to wait and is woken
      rw [hcancel]
      refine iff_of_true (by simp [hwaiting]) ?_
      rw [not_missed] at hgood ⊢
      intro j hsleeps
      by_cases hij : i = j
      · subst hij
        exact absurd hsleeps (not_sleeps_of (setAwaiter_self .woken hwaiting) (by simp) (by simp))
      · have hmem := hgood j ((sleeps_setAwaiter hij).mp hsleeps)
        rw [hpending] at hmem
        exact (List.mem_cons.mp hmem).resolve_left (Ne.symm hij)
    · -- its timer is cancelled in vain
      have hregistered : s.awaiters[i]? = some .registered := hasleep.resolve_right hnot
      rw [hcancel]
      exact iff_of_false (fun hstarted => hstarted hregistered)
        fun hnone => hnone ⟨i, Or.inl hregistered, hfresh⟩
  | finish =>
    refine iff_of_true trivial ?_
    obtain ⟨hcancelling, rfl⟩ := step_finish hstep
    rw [not_missed] at hgood ⊢
    intro i hsleeps
    have hmem := hgood i hsleeps
    simp [pending, hcancelling] at hmem

/-! ### After the completion -/

/-- The completion has finished and nobody sleeps. -/
structure Released (s : CrossAwait α ε) : Prop where
  inv : s.Inv
  finished : s.completer = .finished
  awake : ∀ i, ¬ s.Sleeps i

/-- Whoever awaits the task later finds it done. -/
theorem Released.step {action : AwaitAction α ε} (h : s.Released)
    (hstep : s.step action = some s') : s'.Released := by
  have hinv := h.inv.step hstep
  have hdone : s.outcome ≠ none := fun hopen => by
    have hrunning := h.inv.done.mp hopen
    rw [h.finished] at hrunning
    cases hrunning
  have hset : ∀ {i : Nat} {before awaiter : Awaiter α ε}, s.awaiters[i]? = some before →
      awaiter ≠ .registered → awaiter ≠ .waiting → ∀ j, ¬ (s.setAwaiter i awaiter).Sleeps j := by
    intro i before awaiter hget hregistered hwaiting j
    by_cases hij : i = j
    · subst hij
      exact not_sleeps_of (setAwaiter_self awaiter hget) hregistered hwaiting
    · exact fun hsleeps => h.awake j ((sleeps_setAwaiter hij).mp hsleeps)
  cases action with
  | lookUp i =>
    obtain ⟨hcreated, ⟨outcome, -, rfl⟩ | ⟨hopen, -⟩⟩ := step_lookUp hstep
    · exact ⟨hinv, h.finished, hset hcreated (by simp) (by simp)⟩
    · exact absurd hopen hdone
  | startWait i =>
    obtain ⟨hregistered, -⟩ := step_startWait hstep
    exact absurd (Or.inl hregistered) (h.awake i)
  | resume i =>
    obtain ⟨hwoken, outcome, rfl⟩ := step_resume hstep
    exact ⟨hinv, h.finished, hset hwoken (by simp) (by simp)⟩
  | complete outcome =>
    obtain ⟨hrunning, -⟩ := step_complete hstep
    rw [h.finished] at hrunning
    cases hrunning
  | cancelNext =>
    obtain ⟨i, timers, hcancelling, -⟩ := step_cancelNext hstep
    rw [h.finished] at hcancelling
    cases hcancelling
  | finish =>
    obtain ⟨hcancelling, -⟩ := step_finish hstep
    rw [h.finished] at hcancelling
    cases hcancelling

theorem Released.not_blocked (h : s.Released) : ¬ s.Blocked :=
  fun ⟨i, hwaiting⟩ => h.awake i (Or.inr hwaiting)

/-- A coroutine that has been missed can block. -/
theorem Missed.blocks (h : s.Missed) : ∃ t, Reaches CrossAwait.step s t ∧ t.Blocked := by
  obtain ⟨i, hregistered | hwaiting, -⟩ := h
  · have hstep : s.step (.startWait i) = some (s.setAwaiter i .waiting) := by
      simp [CrossAwait.step, hregistered]
    exact ⟨_, ⟨[.startWait i], by simp [exec, hstep]⟩, i, setAwaiter_self .waiting hregistered⟩
  · exact ⟨s, ⟨[], rfl⟩, i, hwaiting⟩

end CrossAwait

/-- After a run in which the completion has finished, nobody blocks on a timer, then or ever,
exactly if every timer was cancelled after its coroutine had started to wait on it. -/
theorem unblocked_iff_cancelsStarted (n : Nat) (actions : List (AwaitAction α ε))
    {s : CrossAwait α ε} (hrun : exec CrossAwait.step (CrossAwait.start n) actions = some s)
    (hfinished : s.completer = .finished) :
    (∀ t, Reaches CrossAwait.step s t → ¬ t.Blocked) ↔
      Along CrossAwait.step CancelsStarted (CrossAwait.start n) actions := by
  have hinv : s.Inv := invariant_of_reaches (fun _ _ _ (h : CrossAwait.Inv _) hstep =>
    h.step hstep) (CrossAwait.inv_start n) ⟨actions, hrun⟩
  -- whoever is missed stays missed, and only an early cancellation misses somebody
  have hstays : ∀ (u : CrossAwait α ε) a t, u.Inv ∧ u.Missed → u.step a = some t →
      t.Inv ∧ t.Missed :=
    fun _ _ _ h hstep => ⟨h.1.step hstep, h.2.step h.1 hstep⟩
  have hearly : ∀ (u : CrossAwait α ε) a t, u.Inv → ¬ (u.Inv ∧ u.Missed) → u.step a = some t →
      (CancelsStarted u a ↔ ¬ (t.Inv ∧ t.Missed)) := by
    intro u a t h hgood hstep
    rw [h.cancelsStarted_iff (fun hmissed => hgood ⟨h, hmissed⟩) hstep,
      and_iff_right (h.step hstep)]
  have hmissed : Along CrossAwait.step CancelsStarted (CrossAwait.start n) actions ↔
      ¬ (s.Inv ∧ s.Missed) :=
    along_iff_of_absorbing (fun _ _ _ h hstep => h.step hstep) hstays hearly
      (CrossAwait.inv_start n) (fun h => CrossAwait.not_missed_start n h.2) hrun
  rw [hmissed, and_iff_right hinv]
  constructor
  · intro hfree (hmissed : s.Missed)
    obtain ⟨t, hreach, hblocked⟩ := hmissed.blocks
    exact hfree t hreach hblocked
  · intro hgood t hreach
    have hreleased : s.Released := by
      refine ⟨hinv, hfinished, fun i hsleeps => ?_⟩
      have hmem := CrossAwait.not_missed.mp hgood i hsleeps
      simp [CrossAwait.pending, hfinished] at hmem
    have hafter : t.Released := invariant_of_reaches
      (fun _ _ _ (h : CrossAwait.Released _) hstep => h.step hstep) hreleased hreach
    exact hafter.not_blocked

/-- Both coroutines wait before the task completes. -/
def waitFirst : List (AwaitAction Nat String) :=
  [.lookUp 0, .startWait 0, .lookUp 1, .startWait 1, .complete (.ok 10), .cancelNext,
    .cancelNext, .finish, .resume 0, .resume 1]

theorem unblocked_iff_cancelsStarted_waitFirst :
    ∃ s, exec CrossAwait.step (CrossAwait.start 2) waitFirst = some s ∧
      s.completer = .finished ∧ ∀ t, Reaches CrossAwait.step s t → ¬ t.Blocked := by
  have hok : Along CrossAwait.step CancelsStarted (CrossAwait.start 2) waitFirst := by
    decide +kernel
  exact ⟨_, rfl, rfl, (unblocked_iff_cancelsStarted 2 waitFirst rfl rfl).mpr hok⟩

/-- The task completes between the registration of the timer and the start of the wait. -/
theorem blocked_after_completion :
    ∃ s : CrossAwait Nat String,
      exec CrossAwait.step (CrossAwait.start 1)
          [.lookUp 0, .complete (.ok 10), .cancelNext, .finish, .startWait 0] = some s ∧
        s.completer = .finished ∧ s.Blocked :=
  ⟨_, rfl, rfl, 0, rfl⟩

end HttpClient.Asyncx
