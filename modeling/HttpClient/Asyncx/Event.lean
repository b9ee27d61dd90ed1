import HttpClient.Semantics.Machine
import HttpClient.Semantics.WaitQueue

/-!
# Events

`wait` returns if the flag is set; otherwise it leaves a timer that never expires and waits on
it. `set` sets the flag and cancels the timers of all who wait, and these look at the flag again
when they resume. In the meantime the flag may have been cleared. An event of `asyncio` lets
everybody go who was waiting when it was set, whatever happens then.

The executor has one thread, so that a coroutine is not interrupted between two waits.

## Main definitions

* `Event`, `EventRun.step` — an event with those who wait for it
* `EventRun.Honest` — no `wait` returns without a reason
* `EventRun.Undisturbed` — the flag is set when a coroutine resumes

## Main results

* `event_wakes_iff` — those who were waiting return exactly in the runs of `Undisturbed`
* `event_cleared` — a run in which somebody does not
-/

set_option autoImplicit false

namespace HttpClient.Asyncx

open Semantics

variable {κ : Type}

/-- A call of `wait` that has not returned, and what there is to remember of it. -/
structure EventCall (κ : Type) where
  task : κ
  /-- `set` has been called since the call. -/
  signalled : Bool := false
  deriving DecidableEq

structure Event (κ : Type) where
  flag : Bool
  waiters : WaitQueue (EventCall κ) := {}

/-- `cancel_all_waiters` -/
def cancelAllWaiters {β : Type} (waiters : WaitQueue β) : WaitQueue β := waiters.wakeAll

/-- A call of `wait` that has returned. -/
structure EventReturn (κ : Type) where
  task : κ
  /-- The flag was set at the call. -/
  atStart : Bool
  /-- `set` was called after it. -/
  since : Bool
  deriving DecidableEq

/-- An event with a record of the calls. -/
structure EventRun (κ : Type) where
  event : Event κ
  returned : List (EventReturn κ) := []
  /-- The coroutines that were waiting when `set` was called, and that have resumed without
  returning. -/
  missed : List κ := []

inductive EventAction (κ : Type) where
  | wait (task : κ)
  | set
  | clear
  /-- A coroutine whose timer has been cancelled resumes. -/
  | resume (i : Nat)

namespace Event

/-- `set` is called while that call waits. -/
def signal (w : Waiter (EventCall κ)) : Waiter (EventCall κ) :=
  { w with task := { w.task with signalled := true } }

def set (e : Event κ) : Event κ :=
  let waiters := cancelAllWaiters e.waiters
  { flag := true, waiters := { waiters with woken := waiters.woken.map signal } }

def clear (e : Event κ) : Event κ := { e with flag := false }

/-- The body of the loop of `wait`, up to the next wait; and whether `wait` has returned. -/
def attempt (w : Waiter (EventCall κ)) (e : Event κ) : Bool × Event κ :=
  if e.flag then (true, e) else (false, { e with waiters := e.waiters.park w })

end Event

namespace EventRun

def start (flag : Bool) : EventRun κ := { event := { flag } }

/-- One step; `none` if it is not enabled. -/
def step (s : EventRun κ) : EventAction κ → Option (EventRun κ)
  | .wait task =>
    match s.event.attempt { task := { task } } with
    | (true, event) =>
      let entry := { task, atStart := s.event.flag, since := false }
      some { s with event, returned := s.returned ++ [entry] }
    | (false, event) => some { s with event }
  | .set => some { s with event := s.event.set }
  | .clear => some { s with event := s.event.clear }
  | .resume i =>
    (s.event.waiters.leave (.woken i)).map fun (w, waiters) =>
      match { s.event with waiters }.attempt w with
      | (true, event) =>
        let entry := { task := w.task.task, atStart := false, since := w.task.signalled }
        { s with event, returned := s.returned ++ [entry] }
      | (false, event) =>
        { s with
          event
          missed := if w.task.signalled then s.missed ++ [w.task.task] else s.missed }

/-- Every `wait` that has returned had found the flag set, or `set` was called since. -/
def Honest (s : EventRun κ) : Prop := ∀ r ∈ s.returned, r.atStart = true ∨ r.since = true

/-- The flag is set whenever a coroutine resumes. -/
def Undisturbed (s : EventRun κ) : EventAction κ → Prop
  | .resume _ => s.event.flag = true
  | _ => True

instance (s : EventRun κ) : ∀ action, Decidable (s.Undisturbed action)
  | .resume _ => inferInstanceAs (Decidable (_ = _))
  | .wait _ | .set | .clear => isTrue trivial

/-! ### The steps -/

variable {s s' : EventRun κ}

/-- Only those are woken for whom `set` has been called. -/
structure Inv (s : EventRun κ) : Prop where
  woken : ∀ w ∈ s.event.waiters.woken, w.task.signalled = true
  honest : s.Honest

theorem inv_start (flag : Bool) : (start flag : EventRun κ).Inv :=
  ⟨fun _ hmem => absurd hmem List.not_mem_nil, fun _ hmem => absurd hmem List.not_mem_nil⟩

theorem honest_append (h : s.Honest) {r : EventReturn κ} (hr : r.atStart = true ∨ r.since = true) :
    ∀ r' ∈ s.returned ++ [r], r'.atStart = true ∨ r'.since = true := by
  intro r' hmem
  rcases List.mem_append.mp hmem with hold | hnew
  · exact h r' hold
  · rw [List.mem_singleton.mp hnew]
    exact hr

/-- A coroutine that resumes has been woken. It returns if the flag is set, and waits again
otherwise. -/
theorem step_resume {i : Nat} (hinv : s.Inv) (h : s.step (.resume i) = some s') :
    ∃ w ∈ s.event.waiters.woken, w.task.signalled = true ∧
      ((s.event.flag = true ∧ s'.missed = s.missed ∧
          s'.returned = s.returned ++ [{ task := w.task.task, atStart := false, since := true }]) ∨
        (s.event.flag = false ∧ s'.missed = s.missed ++ [w.task.task] ∧
          s'.returned = s.returned)) ∧
      ∀ w' ∈ s'.event.waiters.woken, w' ∈ s.event.waiters.woken := by
  obtain ⟨⟨w, waiters⟩, hleave, heq⟩ := Option.map_eq_some_iff.mp h
  simp only [WaitQueue.leave] at hleave
  split at hleave
  · rename_i w' hget
    obtain ⟨rfl, rfl⟩ := Prod.mk.inj (Option.some.inj hleave)
    have hmem : w' ∈ s.event.waiters.woken := List.mem_of_getElem? hget
    have hsignalled := hinv.woken w' hmem
    refine ⟨w', hmem, hsignalled, ?_⟩
    subst heq
    cases hflag : s.event.flag with
    | true =>
      -- he returns
      simp only [Event.attempt, hflag, if_true, hsignalled]
      exact ⟨Or.inl ⟨trivial, trivial, trivial⟩, fun _ => List.mem_of_mem_eraseIdx⟩
    | false =>
      -- the flag has been cleared meanwhile, and he waits again
      simp only [Event.attempt, hflag, Bool.false_eq_true, if_false, hsignalled, if_true]
      exact ⟨Or.inr ⟨trivial, trivial, trivial⟩, fun _ => List.mem_of_mem_eraseIdx⟩
  · cases hleave

theorem step_wait {task : κ} (h : s.step (.wait task) = some s') :
    s'.missed = s.missed ∧ s'.event.waiters.woken = s.event.waiters.woken ∧
      (s'.returned = s.returned ∨
        s'.returned = s.returned ++ [{ task, atStart := true, since := false }]) := by
  simp only [step, Event.attempt] at h
  cases hflag : s.event.flag with
  | true =>
    simp only [hflag, if_true] at h
    obtain rfl := Option.some.inj h
    exact ⟨rfl, rfl, Or.inr rfl⟩
  | false =>
    simp only [hflag, Bool.false_eq_true, if_false] at h
    obtain rfl := Option.some.inj h
    exact ⟨rfl, rfl, Or.inl rfl⟩

theorem Inv.step {action : EventAction κ} (h : s.Inv) (hstep : s.step action = some s') :
    s'.Inv := by
  cases action with
  | wait task =>
    obtain ⟨-, hwoken, hreturned⟩ := step_wait hstep
    constructor
    · rw [hwoken]
      exact h.woken
    · unfold Honest
      rcases hreturned with hreturned | hreturned
      · rw [hreturned]
        exact h.honest
      · rw [hreturned]
        exact honest_append h.honest (Or.inl rfl)
  | set =>
    -- all are woken, and for all of them `set` has been called
    obtain rfl := Option.some.inj hstep
    refine ⟨fun w hmem => ?_, h.honest⟩
    obtain ⟨w', -, rfl⟩ := List.mem_map.mp hmem
    rfl
  | clear =>
    obtain rfl := Option.some.inj hstep
    exact ⟨h.woken, h.honest⟩
  | resume i =>
    obtain ⟨w, -, hsignalled, hcase, hrest⟩ := step_resume h hstep
    refine ⟨fun w' hmem => h.woken w' (hrest w' hmem), ?_⟩
    unfold Honest
    rcases hcase with ⟨-, -, hreturned⟩ | ⟨-, -, hreturned⟩
    · rw [hreturned]
      exact honest_append h.honest (Or.inr rfl)
    · rw [hreturned]
      exact h.honest

/-- Of all steps those of `Undisturbed` are the ones in which nobody resumes in vain. -/
theorem undisturbed_iff {action : EventAction κ} (hinv : s.Inv) (h : s.missed = [])
    (hstep : s.step action = some s') : s.Undisturbed action ↔ s'.missed = [] := by
  cases action with
  | wait task =>
    obtain ⟨hmissed, -⟩ := step_wait hstep
    exact iff_of_true trivial (hmissed.trans h)
  | set =>
    obtain rfl := Option.some.inj hstep
    exact iff_of_true trivial h
  | clear =>
    obtain rfl := Option.some.inj hstep
    exact iff_of_true trivial h
  | resume i =>
    obtain ⟨w, -, -, hcase, -⟩ := step_resume hinv hstep
    change s.event.flag = true ↔ _
    rcases hcase with ⟨hflag, hmissed, -⟩ | ⟨hflag, hmissed, -⟩
    · exact iff_of_true hflag (hmissed.trans h)
    · rw [hflag, hmissed]
      exact iff_of_false Bool.false_ne_true (by simp)

end EventRun

open EventRun in
/-- In all runs no `wait` returns without a reason; and everybody who was waiting when `set` was
called returns when he resumes, exactly in the runs of `Undisturbed`. -/
theorem event_wakes_iff (flag : Bool) (actions : List (EventAction κ)) (s : EventRun κ)
    (hrun : exec step (start flag) actions = some s) :
    s.Honest ∧
      (Along step Undisturbed (start flag) actions ↔
        ∀ before after s', actions = before ++ after →
          exec step (start flag) before = some s' → s'.missed = []) := by
  have hinv : ∀ {actions : List (EventAction κ)} {s : EventRun κ},
      exec step (start flag) actions = some s → s.Inv := fun {actions} {s} hexec =>
    invariant_of_reaches (fun _ _ _ hs hstep => hs.step hstep) (inv_start flag) ⟨actions, hexec⟩
  refine ⟨(hinv hrun).honest, ?_⟩
  refine along_iff_throughout_of_invariant (fun _ _ _ hs hstep => Inv.step hs hstep) ?_
    (inv_start flag) rfl hrun
  intro s action t hs hmissed hstep
  exact undisturbed_iff hs hmissed hstep

/-- The flag is cleared after both have resumed. -/
theorem event_wakes_two :
    ∃ (actions : List (EventAction Nat)) (s : EventRun Nat),
      exec EventRun.step (.start false) actions = some s ∧ s.returned.length = 2 ∧
        s.missed = [] := by
  let actions : List (EventAction Nat) :=
    [.wait 1, .wait 2, .set, .resume 0, .resume 0, .clear]
  refine ⟨actions, _, rfl, rfl, ?_⟩
  exact (event_wakes_iff false actions _ rfl).2.mp (by decide) actions [] _
    (List.append_nil _).symm rfl

/-- The flag is cleared before the coroutine resumes. -/
theorem event_cleared :
    ¬ ∀ (flag : Bool) (actions : List (EventAction Nat)) (s : EventRun Nat),
      exec EventRun.step (.start flag) actions = some s → s.missed = [] := by
  intro h
  exact absurd (h false [.wait 1, .set, .clear, .resume 0] _ rfl) (by decide)

end HttpClient.Asyncx
