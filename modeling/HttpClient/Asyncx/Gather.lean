import Mathlib.Data.List.Perm.Basic
import Mathlib.Tactic.SplitIfs
import HttpClient.Semantics.Machine

/-!
# Gathering several tasks

`gather` spawns one waiter for each of its tasks and waits on a timer that never expires.
A waiter that finds its task done records the outcome and cancels the timer, unless it
has been cancelled since `gather` began its wait. Each time `gather` is woken it looks for
an error among the recorded outcomes, in the order of its arguments; the first time there
is one it cancels all its tasks. When all waiters have finished it rethrows the error it
finds, or returns the values.

An exception is named by the index of its task, as the pointers to the exceptions of
different tasks differ.

## Main definitions

* `Child`, `Gather` — the tasks with their waiters, and the coroutine
* `GatherAction`, `Gather.step` — the atomic steps
* `Gather.Faithful` — what is documented
* `OwnOutcomes`, `EarliestFirst` — the runs that keep to it

## Main results

* `firstErrorFrom_eq_some`, `firstErrorFrom_eq_none` — the error that is rethrown
* `Gather.Inv.step` — what every step keeps
* `Gather.length_run_le` — runs are finite
* `gather_faithful_iff` — exactly the runs of `OwnOutcomes` and `EarliestFirst` are
  faithful
* `gather_cancels_sibling`, `gather_never_ends` — runs that are not
-/

set_option autoImplicit false

namespace HttpClient.Asyncx

open Semantics

variable {α ε : Type}

/-! ### Tasks and waiters -/

/-- A task and its waiter. -/
structure Child (α ε : Type) where
  /-- The value or the exception of the task, once it is done. -/
  outcome : Option (Except ε α) := none
  /-- The waiter has recorded the outcome. -/
  finished : Bool := false

namespace Child

/-- The error a waiter has recorded. -/
def error (child : Child α ε) : Option ε :=
  match child.finished, child.outcome with
  | true, some (.error e) => some e
  | _, _ => none

/-- The value a waiter has recorded. -/
def value (child : Child α ε) : Option α :=
  match child.finished, child.outcome with
  | true, some (.ok v) => some v
  | _, _ => none

end Child

/-- `first_error`, from index `i` on. -/
def firstErrorFrom (i : Nat) : List (Child α ε) → Option (Nat × ε)
  | [] => none
  | child :: children =>
    match child.error with
    | some e => some (i, e)
    | none => firstErrorFrom (i + 1) children

def firstError (children : List (Child α ε)) : Option (Nat × ε) := firstErrorFrom 0 children

/-- `make_values_tuple` -/
def makeValuesTuple (children : List (Child α ε)) : List α := children.filterMap Child.value

/-! ### The coroutine -/

/-- The values in the order of the arguments, or an exception and whose it is. -/
abbrev GatherResult (α ε : Type) := Except (Nat × ε) (List α)

inductive GatherPhase (α ε : Type) where
  /-- The waiters are being spawned. Those whose task is done may run at once. -/
  | spawning
  | waiting
  /-- The timer has been cancelled, and the coroutine is about to resume. -/
  | woken
  | ended (result : GatherResult α ε)

structure Gather (α ε : Type) where
  children : List (Child α ε)
  phase : GatherPhase α ε := .spawning
  wakeOnce : Bool := false
  cancelOnce : Bool := false
  /-- The outcomes of the tasks in the order in which they were done. -/
  log : List (Nat × Except ε α) := []
  /-- The tasks that were cancelled before they were done. -/
  cancelled : List Nat := []

namespace Gather

/-- `gather` is called with `n` tasks. -/
def start (n : Nat) : Gather α ε := { children := List.replicate n {} }

def total (g : Gather α ε) : Nat := g.children.length

def doneCount (g : Gather α ε) : Nat := g.children.countP Child.finished

/-- The tasks that are not done. -/
def unfinished (g : Gather α ε) : List Nat :=
  (List.range g.total).filter fun i => g.children[i]?.any fun child => child.outcome.isNone

/-- Cancel the timer, unless this has been done since the coroutine began its wait. -/
def wake (g : Gather α ε) : Gather α ε :=
  if g.wakeOnce then g
  else
    { g with
      wakeOnce := true
      phase :=
        -- before the coroutine waits, cancelling the timer has no effect
        match g.phase with
        | .waiting => .woken
        | phase => phase }

/-- What the coroutine ends with. -/
def result (children : List (Child α ε)) : GatherResult α ε :=
  match firstError children with
  | some error => .error error
  | none => .ok (makeValuesTuple children)

def finish (g : Gather α ε) : Gather α ε := { g with phase := .ended (result g.children) }

/-- The first time there is an error, cancel all tasks. -/
def cancelAll (g : Gather α ε) : Gather α ε :=
  match firstError g.children with
  | none => g
  | some _ =>
    if g.cancelOnce then g
    else { g with cancelOnce := true, cancelled := g.cancelled ++ g.unfinished }

/-- The head of the loop. -/
def loop (g : Gather α ε) : Gather α ε :=
  if g.doneCount < g.total then { g with phase := .waiting } else g.finish

end Gather

inductive GatherAction (α ε : Type) where
  /-- A task is done. -/
  | complete (i : Nat) (outcome : Except ε α)
  /-- All waiters have been spawned. -/
  | spawned
  /-- A waiter whose task is done records its outcome. -/
  | runWaiter (i : Nat)
  /-- The coroutine resumes. -/
  | resume

/-- One step; `none` if it is not enabled. -/
def Gather.step (g : Gather α ε) : GatherAction α ε → Option (Gather α ε)
  | .complete i outcome =>
    match g.children[i]? with
    | some { outcome := none, finished } =>
      some
        { g with
          children := g.children.set i { outcome := some outcome, finished }
          log := g.log ++ [(i, outcome)] }
    | _ => none
  | .spawned =>
    match g.phase with
    | .spawning => some g.loop
    | _ => none
  | .runWaiter i =>
    match g.children[i]? with
    | some { outcome := some outcome, finished := false } =>
      let g :=
        { g with children := g.children.set i { outcome := some outcome, finished := true } }.wake
      -- The last waiter cancels the timer once more.
      some (if g.doneCount = g.total then g.wake else g)
    | _ => none
  | .resume =>
    match g.phase with
    | .woken =>
      let g := g.cancelAll
      -- the flag is reset when there is another wait
      if g.doneCount < g.total then some { g with wakeOnce := false }.loop else some g.loop
    | _ => none

/-! ### What is documented -/

/-- The exception of a task that was not cancelled. -/
def ownError (cancelled : List Nat) : Nat × Except ε α → Option (Nat × ε)
  | (i, .error e) => if i ∈ cancelled then none else some (i, e)
  | (_, .ok _) => none

/-- The exception of the task that failed first by itself, or all values. -/
def Gather.expected (g : Gather α ε) : GatherResult α ε :=
  match g.log.findSome? (ownError g.cancelled) with
  | some error => .error error
  | none => .ok (makeValuesTuple g.children)

/-- The coroutine has ended with that result, after all its tasks, and has cancelled
none. -/
structure Gather.Faithful (g : Gather α ε) : Prop where
  ended : g.phase = .ended g.expected
  completed : ∀ child ∈ g.children, child.outcome.isSome = true
  undisturbed : g.cancelled = []

/-- All tasks are done and no step is left. -/
structure Gather.Settled (g : Gather α ε) : Prop where
  completed : ∀ child ∈ g.children, child.outcome.isSome = true
  stuck : ∀ action, g.step action = none

/-- When the coroutine begins to wait no waiter has finished, or all have; and when it
resumes and finds an error all tasks are done. -/
def OwnOutcomes (g : Gather α ε) : GatherAction α ε → Prop
  | .spawned => g.doneCount = 0 ∨ g.doneCount = g.total
  | .resume => (firstError g.children).isSome = true →
    ∀ child ∈ g.children, child.outcome.isSome = true
  | _ => True

instance (g : Gather α ε) : ∀ action, Decidable (OwnOutcomes g action)
  | .spawned => inferInstanceAs (Decidable (_ ∨ _))
  | .resume => inferInstanceAs (Decidable (_ → _))
  | .complete _ _ | .runWaiter _ => isTrue trivial

/-- The outcomes of the tasks in the order of a run. -/
def completions : List (GatherAction α ε) → List (Nat × Except ε α)
  | [] => []
  | .complete i outcome :: actions => (i, outcome) :: completions actions
  | _ :: actions => completions actions

/-- The tasks that fail, in the order of a run. -/
def failures (actions : List (GatherAction α ε)) : List (Nat × ε) :=
  (completions actions).filterMap (ownError [])

/-- Of the tasks that fail, the one that fails first has the lowest index. -/
def EarliestFirst (actions : List (GatherAction α ε)) : Prop :=
  ∀ first ∈ (failures actions).head?, ∀ failure ∈ failures actions, first.1 ≤ failure.1

instance (actions : List (GatherAction α ε)) : Decidable (EarliestFirst actions) :=
  inferInstanceAs (Decidable (∀ _ ∈ _, _))

/-! ### The first error -/

variable {children : List (Child α ε)} {g g' : Gather α ε} {i : Nat}

theorem firstErrorFrom_eq_none {k : Nat} :
    firstErrorFrom k children = none ↔ ∀ child ∈ children, child.error = none := by
  induction children generalizing k with
  | nil => simp [firstErrorFrom]
  | cons child children ih =>
    rw [firstErrorFrom]
    cases herror : child.error with
    | none => simpa [herror] using ih
    | some e => simp [herror]

/-- The first error is the recorded error with the lowest index. -/
theorem firstErrorFrom_eq_some {k : Nat} {e : ε} :
    firstErrorFrom k children = some (i, e) →
      ∃ j, i = k + j ∧ children[j]?.bind Child.error = some e ∧
        ∀ l < j, children[l]?.bind Child.error = none := by
  induction children generalizing k with
  | nil => simp [firstErrorFrom]
  | cons child children ih =>
    intro h
    rw [firstErrorFrom] at h
    cases herror : child.error with
    | some e' =>
      rw [herror] at h
      obtain ⟨rfl, rfl⟩ := Prod.mk.inj (Option.some.inj h)
      exact ⟨0, rfl, by simpa using herror, fun l hl => absurd hl (Nat.not_lt_zero l)⟩
    | none =>
      rw [herror] at h
      obtain ⟨j, rfl, hj, hbefore⟩ := ih h
      refine ⟨j + 1, by omega, by simpa using hj, fun l hl => ?_⟩
      cases l with
      | zero => simpa using herror
      | succ l => simpa using hbefore l (by omega)

/-! ### The steps -/

namespace Gather

theorem wake_of_wakeOnce (h : g.wakeOnce = true) : g.wake = g := if_pos h

@[simp] theorem wakeOnce_wake (g : Gather α ε) : g.wake.wakeOnce = true := by
  unfold wake
  split_ifs with hwoken
  · exact hwoken
  · rfl

@[simp] theorem children_wake (g : Gather α ε) : g.wake.children = g.children := by
  unfold wake
  split_ifs <;> rfl

@[simp] theorem cancelled_wake (g : Gather α ε) : g.wake.cancelled = g.cancelled := by
  unfold wake
  split_ifs <;> rfl

@[simp] theorem cancelOnce_wake (g : Gather α ε) : g.wake.cancelOnce = g.cancelOnce := by
  unfold wake
  split_ifs <;> rfl

@[simp] theorem log_wake (g : Gather α ε) : g.wake.log = g.log := by
  unfold wake
  split_ifs <;> rfl

/-- A waiter records the outcome of its task. -/
def record (g : Gather α ε) (i : Nat) (outcome : Except ε α) : Gather α ε :=
  { g with children := g.children.set i { outcome := some outcome, finished := true } }

theorem step_complete {outcome : Except ε α} (h : g.step (.complete i outcome) = some g') :
    ∃ finished, g.children[i]? = some { outcome := none, finished } ∧
      g' =
        { g with
          children := g.children.set i { outcome := some outcome, finished }
          log := g.log ++ [(i, outcome)] } := by
  unfold step at h
  dsimp only at h
  split at h
  · rename_i finished hchild
    exact ⟨finished, hchild, (Option.some.inj h).symm⟩
  · cases h

theorem step_spawned (h : g.step .spawned = some g') :
    g.phase = .spawning ∧ g' = g.loop := by
  unfold step at h
  dsimp only at h
  split at h
  · rename_i hphase
    exact ⟨hphase, (Option.some.inj h).symm⟩
  · cases h

theorem step_runWaiter (h : g.step (.runWaiter i) = some g') :
    ∃ outcome, g.children[i]? = some { outcome := some outcome, finished := false } ∧
      g' = (g.record i outcome).wake := by
  unfold step at h
  dsimp only at h
  split at h
  · rename_i outcome hchild
    refine ⟨outcome, hchild, ?_⟩
    rw [← Option.some.inj h]
    split_ifs
    · exact wake_of_wakeOnce (wakeOnce_wake _)
    · rfl
  · cases h

theorem step_resume (h : g.step .resume = some g') :
    g.phase = .woken ∧
      g' =
        if g.cancelAll.doneCount < g.cancelAll.total then
          { g.cancelAll with wakeOnce := false, phase := .waiting }
        else g.cancelAll.finish := by
  unfold step at h
  dsimp only at h
  split at h
  · rename_i hphase
    refine ⟨hphase, ?_⟩
    split_ifs at h ⊢ with hmore
    · rw [← Option.some.inj h]
      exact if_pos hmore
    · rw [← Option.some.inj h]
      exact if_neg hmore
  · cases h

/-! ### What every step keeps -/

/-- The invariant of all runs. -/
structure Inv (g : Gather α ε) : Prop where
  /-- A waiter finishes after its task. -/
  recorded : ∀ child ∈ g.children, child.finished = true → child.outcome.isSome = true
  logged : ∀ i outcome, (i, outcome) ∈ g.log ↔
    ∃ finished, g.children[i]? = some { outcome := some outcome, finished }
  ended : ∀ r, g.phase = .ended r → g.doneCount = g.total ∧ r = result g.children
  spawning : g.phase = .spawning → (g.wakeOnce = true ↔ 0 < g.doneCount)
  idle : g.cancelOnce = false → g.cancelled = []
  late : g.cancelOnce = true → g.cancelled = [] →
    ∀ child ∈ g.children, child.outcome.isSome = true

theorem inv_start (n : Nat) : (start n : Gather α ε).Inv := by
  have hchild : ∀ child ∈ (start n : Gather α ε).children, child = {} := fun child hmem =>
    List.eq_of_mem_replicate hmem
  refine ⟨fun child hmem hfinished => ?_, fun i outcome => ⟨fun hmem => ?_, ?_⟩,
    fun r hphase => ?_, fun _ => ?_, fun _ => rfl, fun honce => ?_⟩
  · rw [hchild child hmem] at hfinished
    exact absurd hfinished Bool.false_ne_true
  · exact absurd hmem List.not_mem_nil
  · rintro ⟨finished, hget⟩
    have heq := hchild _ (List.mem_of_getElem? hget)
    simp at heq
  · exact absurd hphase (by simp [start])
  · have hzero : (start n : Gather α ε).doneCount = 0 := by
      simp [doneCount, start, List.countP_replicate]
    rw [hzero]
    exact ⟨fun h => absurd h Bool.false_ne_true, fun h => absurd h (Nat.lt_irrefl 0)⟩
  · exact absurd honce Bool.false_ne_true

/-- All waiters have finished exactly when all are counted. -/
theorem doneCount_eq_total : g.doneCount = g.total ↔ ∀ child ∈ g.children, child.finished = true :=
  List.countP_eq_length

theorem doneCount_le_total (g : Gather α ε) : g.doneCount ≤ g.total := List.countP_le_length

/-- What replacing one child does to a count. -/
theorem countP_set_add {child : Child α ε} (child' : Child α ε) (p : Child α ε → Bool)
    (hget : children[i]? = some child) :
    (children.set i child').countP p + (if p child then 1 else 0) =
      children.countP p + if p child' then 1 else 0 := by
  obtain ⟨hi, rfl⟩ := List.getElem?_eq_some_iff.mp hget
  have hold := (List.getElem_cons_eraseIdx_perm hi).countP_eq p
  rw [List.countP_cons] at hold
  rw [List.countP_set hi]
  omega

theorem countP_set_outcome {outcome : Option (Except ε α)} {finished : Bool}
    (hget : children[i]? = some { outcome := none, finished }) :
    (children.set i { outcome, finished }).countP Child.finished =
      children.countP Child.finished := by
  have hset := countP_set_add { outcome, finished } Child.finished hget
  exact Nat.add_right_cancel hset

theorem Inv.complete {outcome : Except ε α} (h : g.Inv)
    (hstep : g.step (.complete i outcome) = some g') : g'.Inv := by
  obtain ⟨finished, hget, rfl⟩ := step_complete hstep
  have hmem := List.mem_of_getElem? hget
  refine ⟨fun child hchild hfinished => ?_, fun j o => ?_, fun r hphase => ?_, fun hphase => ?_,
    h.idle, fun honce hnone => ?_⟩
  · rcases List.mem_or_eq_of_mem_set hchild with hold | rfl
    · exact h.recorded child hold hfinished
    · rfl
  · rw [List.mem_append, List.mem_singleton, h.logged]
    by_cases hij : i = j
    · subst hij
      rw [List.getElem?_set_self (List.getElem?_eq_some_iff.mp hget).1, hget]
      simp [eq_comm]
    · rw [List.getElem?_set_ne hij]
      simp [Ne.symm hij]
  · -- After the end all tasks are done.
    have hall := doneCount_eq_total.mp (h.ended r hphase).1 _ hmem
    exact absurd (h.recorded _ hmem hall) Bool.false_ne_true
  · unfold doneCount
    dsimp only
    rw [countP_set_outcome hget]
    exact h.spawning hphase
  · exact absurd (h.late honce hnone _ hmem) Bool.false_ne_true

theorem phase_wake (h : g.wake.phase ≠ .woken) : g.wake.phase = g.phase := by
  unfold wake at h ⊢
  split_ifs at h ⊢ with hwoken
  · rfl
  · cases hphase : g.phase with
    | waiting => simp [hphase] at h
    | spawning => simp
    | woken => simp
    | ended r => simp

theorem Inv.runWaiter (h : g.Inv) (hstep : g.step (.runWaiter i) = some g') : g'.Inv := by
  obtain ⟨outcome, hget, rfl⟩ := step_runWaiter hstep
  have hmem := List.mem_of_getElem? hget
  have hi := (List.getElem?_eq_some_iff.mp hget).1
  refine ⟨fun child hchild hfinished => ?_, fun j o => ?_, fun r hphase => ?_, fun hphase => ?_,
    fun honce => ?_, fun honce hnone child hchild => ?_⟩
  · rw [children_wake] at hchild
    rcases List.mem_or_eq_of_mem_set hchild with hold | rfl
    · exact h.recorded child hold hfinished
    · rfl
  · rw [log_wake, children_wake]
    refine (h.logged j o).trans ?_
    by_cases hij : i = j
    · subst hij
      simp only [record]
      rw [List.getElem?_set_self hi, hget]
      simp
    · simp only [record]
      rw [List.getElem?_set_ne hij]
  · have hsame : g.phase = .ended r := by
      have hkept : (g.record i outcome).wake.phase = (g.record i outcome).phase :=
        phase_wake (by simp [hphase])
      exact hkept.symm.trans hphase
    have hall := doneCount_eq_total.mp (h.ended r hsame).1 _ hmem
    exact absurd hall Bool.false_ne_true
  · have hset : (g.record i outcome).doneCount = g.doneCount + 1 := by
      have hset := countP_set_add { outcome := some outcome, finished := true }
        Child.finished hget
      simp only [Bool.false_eq_true, if_false, if_true, Nat.add_zero] at hset
      exact hset
    have hpos : 0 < (g.record i outcome).wake.doneCount := by
      unfold doneCount at hset ⊢
      rw [children_wake, hset]
      exact Nat.succ_pos _
    exact ⟨fun _ => hpos, fun _ => wakeOnce_wake _⟩
  · rw [cancelOnce_wake] at honce
    rw [cancelled_wake]
    exact h.idle honce
  · rw [cancelOnce_wake] at honce
    rw [cancelled_wake] at hnone
    rw [children_wake] at hchild
    rcases List.mem_or_eq_of_mem_set hchild with hold | rfl
    · exact h.late honce hnone child hold
    · rfl

/-- The coroutine waits, or has ended because all waiters have finished. -/
theorem Inv.loop (h : g.Inv) : g.loop.Inv := by
  unfold Gather.loop
  split_ifs with hmore
  · exact ⟨h.recorded, h.logged, fun r hphase => absurd hphase (by simp),
      fun hphase => absurd hphase (by simp), h.idle, h.late⟩
  · have hall : g.doneCount = g.total :=
      Nat.le_antisymm (doneCount_le_total g) (Nat.not_lt.mp hmore)
    refine ⟨h.recorded, h.logged, fun r hphase => ⟨hall, ?_⟩,
      fun hphase => absurd hphase (by simp [finish]), h.idle, h.late⟩
    exact (GatherPhase.ended.inj hphase).symm

theorem mem_unfinished : i ∈ g.unfinished ↔
    ∃ child, g.children[i]? = some child ∧ child.outcome = none := by
  unfold unfinished
  rw [List.mem_filter, List.mem_range]
  constructor
  · rintro ⟨-, hany⟩
    cases hget : g.children[i]? with
    | none => simp [hget] at hany
    | some child => exact ⟨child, rfl, by simpa [hget] using hany⟩
  · rintro ⟨child, hget, hnone⟩
    exact ⟨(List.getElem?_eq_some_iff.mp hget).1, by simp [hget, hnone]⟩

theorem unfinished_eq_nil :
    g.unfinished = [] ↔ ∀ child ∈ g.children, child.outcome.isSome = true := by
  rw [List.eq_nil_iff_forall_not_mem]
  constructor
  · intro hnone child hmem
    obtain ⟨i, hget⟩ := List.mem_iff_getElem?.mp hmem
    cases hchild : child.outcome with
    | some outcome => rfl
    | none => exact absurd (mem_unfinished.mpr ⟨child, hget, hchild⟩) (hnone i)
  · intro hall i hmem
    obtain ⟨child, hget, hnone⟩ := mem_unfinished.mp hmem
    have hsome := hall child (List.mem_of_getElem? hget)
    rw [hnone] at hsome
    exact Bool.false_ne_true hsome

theorem Inv.cancelAll (h : g.Inv) (hphase : g.phase = .woken) : g.cancelAll.Inv := by
  unfold Gather.cancelAll
  cases firstError g.children with
  | none => exact h
  | some error =>
    dsimp only
    split_ifs with honce
    · exact h
    · refine ⟨h.recorded, h.logged, fun r hended => absurd (hphase.symm.trans hended) (by simp),
        fun hspawning => absurd (hphase.symm.trans hspawning) (by simp),
        fun hidle => absurd hidle (by simp), fun _ hnone => ?_⟩
      exact unfinished_eq_nil.mp (List.append_eq_nil_iff.mp hnone).2

theorem Inv.step {action : GatherAction α ε} (h : g.Inv) (hstep : g.step action = some g') :
    g'.Inv := by
  cases action with
  | complete i outcome => exact h.complete hstep
  | spawned =>
    obtain ⟨-, rfl⟩ := step_spawned hstep
    exact h.loop
  | runWaiter i => exact h.runWaiter hstep
  | resume =>
    obtain ⟨hphase, rfl⟩ := step_resume hstep
    have hcancel := h.cancelAll hphase
    split_ifs with hmore
    · exact ⟨hcancel.recorded, hcancel.logged, fun r hended => absurd hended (by simp),
        fun hspawning => absurd hspawning (by simp), hcancel.idle, hcancel.late⟩
    · have hloop := hcancel.loop
      rwa [Gather.loop, if_neg hmore] at hloop

/-! ### Runs are finite -/

def GatherPhase.steps : GatherPhase α ε → Nat
  | .spawning => 2
  | .woken => 1
  | .waiting | .ended _ => 0

/-- A bound on the steps that are left. -/
def fuel (g : Gather α ε) : Nat :=
  2 * g.children.countP (fun child => child.outcome.isNone) +
    2 * g.children.countP (fun child => !child.finished) + GatherPhase.steps g.phase

theorem steps_wake_le (g : Gather α ε) :
    GatherPhase.steps g.wake.phase ≤ GatherPhase.steps g.phase + 1 := by
  unfold wake
  split_ifs with hwoken
  · exact Nat.le_succ _
  · cases hphase : g.phase <;> simp [GatherPhase.steps]

@[simp] theorem children_cancelAll (g : Gather α ε) : g.cancelAll.children = g.children := by
  unfold cancelAll
  cases firstError g.children with
  | none => rfl
  | some error =>
    dsimp only
    split_ifs <;> rfl

theorem fuel_step {action : GatherAction α ε} (hstep : g.step action = some g') :
    g'.fuel < g.fuel := by
  cases action with
  | complete i outcome =>
    obtain ⟨finished, hget, rfl⟩ := step_complete hstep
    have hdone := countP_set_add { outcome := some outcome, finished }
      (fun child => child.outcome.isNone) hget
    have hwaiters := countP_set_add { outcome := some outcome, finished }
      (fun child => !child.finished) hget
    simp only [Option.isNone_none, Option.isNone_some, if_true, Bool.false_eq_true, if_false]
      at hdone hwaiters
    unfold fuel
    dsimp only
    omega
  | spawned =>
    obtain ⟨hphase, rfl⟩ := step_spawned hstep
    unfold fuel Gather.loop
    rw [hphase]
    split_ifs <;> simp [finish, GatherPhase.steps]
  | runWaiter i =>
    obtain ⟨outcome, hget, rfl⟩ := step_runWaiter hstep
    have hdone := countP_set_add { outcome := some outcome, finished := true }
      (fun child => child.outcome.isNone) hget
    have hwaiters := countP_set_add { outcome := some outcome, finished := true }
      (fun child => !child.finished) hget
    have hsteps := steps_wake_le (g.record i outcome)
    have hphase : (g.record i outcome).phase = g.phase := rfl
    simp only [Option.isNone_some, Bool.not_true, Bool.not_false, if_true, Bool.false_eq_true,
      if_false] at hdone hwaiters
    rw [hphase] at hsteps
    have hchildren : (g.record i outcome).wake.children =
        g.children.set i { outcome := some outcome, finished := true } := children_wake _
    unfold fuel
    rw [hchildren]
    omega
  | resume =>
    obtain ⟨hphase, rfl⟩ := step_resume hstep
    unfold fuel
    rw [hphase]
    split_ifs <;> simp [finish, GatherPhase.steps]

/-- A run has at most four steps for each task, and two more. -/
theorem length_run_le {n : Nat} {actions : List (GatherAction α ε)}
    (hrun : exec Gather.step (start n) actions = some g) : actions.length ≤ 4 * n + 2 := by
  have hfuel : ∀ {g₀ : Gather α ε}, exec Gather.step g₀ actions = some g →
      actions.length ≤ g₀.fuel := by
    clear hrun
    induction actions with
    | nil => exact fun _ => Nat.zero_le _
    | cons action actions ih =>
      intro g₀ hrun
      obtain ⟨g₁, hstep, hrest⟩ := exec_cons_eq_some.mp hrun
      exact Nat.lt_of_le_of_lt (ih hrest) (fuel_step hstep)
  have hstart : (start n : Gather α ε).fuel = 4 * n + 2 := by
    simp [fuel, start, GatherPhase.steps, List.countP_replicate]
    omega
  exact hstart ▸ hfuel hrun

/-! ### What cannot be undone -/

/-- The coroutine waits and no waiter is going to cancel its timer. -/
def Lost (g : Gather α ε) : Prop := g.phase = .waiting ∧ g.wakeOnce = true

theorem Lost.step {action : GatherAction α ε} (h : g.Lost) (hstep : g.step action = some g') :
    g'.Lost := by
  cases action with
  | complete i outcome =>
    obtain ⟨finished, -, rfl⟩ := step_complete hstep
    exact h
  | spawned =>
    obtain ⟨hphase, -⟩ := step_spawned hstep
    exact absurd (h.1.symm.trans hphase) (by simp)
  | runWaiter i =>
    obtain ⟨outcome, -, rfl⟩ := step_runWaiter hstep
    have hwoken : (g.record i outcome).wakeOnce = true := h.2
    rw [wake_of_wakeOnce hwoken]
    exact h
  | resume =>
    obtain ⟨hphase, -⟩ := step_resume hstep
    exact absurd (h.1.symm.trans hphase) (by simp)

theorem cancelled_cancelAll (g : Gather α ε) :
    ∃ more, g.cancelAll.cancelled = g.cancelled ++ more := by
  unfold cancelAll
  cases firstError g.children with
  | none => exact ⟨[], (List.append_nil _).symm⟩
  | some error =>
    dsimp only
    split_ifs with honce
    · exact ⟨[], (List.append_nil _).symm⟩
    · exact ⟨g.unfinished, rfl⟩

/-- A task that has been cancelled stays cancelled. -/
theorem cancelled_step {action : GatherAction α ε} (hstep : g.step action = some g')
    (h : g.cancelled ≠ []) : g'.cancelled ≠ [] := by
  cases action with
  | complete i outcome =>
    obtain ⟨finished, -, rfl⟩ := step_complete hstep
    exact h
  | spawned =>
    obtain ⟨-, rfl⟩ := step_spawned hstep
    unfold Gather.loop
    split_ifs <;> exact h
  | runWaiter i =>
    obtain ⟨outcome, -, rfl⟩ := step_runWaiter hstep
    rw [cancelled_wake]
    exact h
  | resume =>
    obtain ⟨-, rfl⟩ := step_resume hstep
    obtain ⟨more, hmore⟩ := cancelled_cancelAll g
    have hcancelAll : g.cancelAll.cancelled ≠ [] := by
      rw [hmore]
      exact List.append_ne_nil_of_left_ne_nil h more
    split_ifs <;> exact hcancelAll

/-- An error that is found while a task is not done cancels a task. -/
theorem Inv.cancelled_resume (h : g.Inv) (herror : (firstError g.children).isSome = true)
    (hunfinished : ¬ ∀ child ∈ g.children, child.outcome.isSome = true) :
    g.cancelAll.cancelled ≠ [] := by
  obtain ⟨error, herror⟩ := Option.isSome_iff_exists.mp herror
  intro hnone
  apply hunfinished
  simp only [Gather.cancelAll, herror] at hnone
  split_ifs at hnone with honce
  · exact h.late honce hnone
  · exact unfinished_eq_nil.mp (List.append_eq_nil_iff.mp hnone).2

theorem Inv.lost_spawned (h : g.Inv) (hphase : g.phase = .spawning) (hsome : g.doneCount ≠ 0)
    (hless : g.doneCount ≠ g.total) : g.loop.Lost := by
  have hmore : g.doneCount < g.total := Nat.lt_of_le_of_ne (doneCount_le_total g) hless
  rw [Gather.loop, if_pos hmore]
  exact ⟨rfl, (h.spawning hphase).mpr (Nat.pos_of_ne_zero hsome)⟩

/-- Every step of a run that ends as documented leaves the tasks to their own outcomes. -/
theorem Inv.along_of_faithful {actions : List (GatherAction α ε)} (h : g.Inv)
    (hrun : exec Gather.step g actions = some g') (hfaithful : g'.Faithful) :
    Along Gather.step OwnOutcomes g actions := by
  induction actions generalizing g with
  | nil => trivial
  | cons action actions ih =>
    obtain ⟨g₁, hstep, hrest⟩ := exec_cons_eq_some.mp hrun
    refine Along.cons ?_ hstep (ih (h.step hstep) hrest)
    -- a task that has been cancelled stays so, against what is documented at the end
    have hkept : g₁.cancelled = [] := by
      by_contra hcancelled
      have hstill := invariant_of_reaches (fun _ _ _ (hc : Gather.cancelled _ ≠ []) hs =>
        cancelled_step hs hc) hcancelled ⟨actions, hrest⟩
      exact hstill hfaithful.undisturbed
    cases action with
    | complete i outcome => trivial
    | runWaiter i => trivial
    | spawned =>
      obtain ⟨hphase, rfl⟩ := step_spawned hstep
      by_contra hnot
      obtain ⟨hsome, hless⟩ := not_or.mp hnot
      have hlost : g'.Lost := invariant_of_reaches (fun _ _ _ (hl : Gather.Lost _) hs => hl.step hs)
        (h.lost_spawned hphase hsome hless) ⟨actions, hrest⟩
      exact absurd (hlost.1.symm.trans hfaithful.ended) (by simp)
    | resume =>
      obtain ⟨-, rfl⟩ := step_resume hstep
      intro herror
      by_contra hunfinished
      have hcancelled := h.cancelled_resume herror hunfinished
      split_ifs at hkept <;> exact hcancelled hkept

/-! ### Runs that leave the tasks to their own outcomes -/

/-- No task has been cancelled, and while the coroutine waits a waiter will wake it. -/
structure Undisturbed (g : Gather α ε) : Prop where
  cancelled : g.cancelled = []
  waiting : g.phase = .waiting → g.wakeOnce = false ∧ g.doneCount < g.total

theorem Undisturbed.step {action : GatherAction α ε} (hinv : g.Inv) (h : g.Undisturbed)
    (hok : OwnOutcomes g action) (hstep : g.step action = some g') : g'.Undisturbed := by
  cases action with
  | complete i outcome =>
    obtain ⟨finished, hget, rfl⟩ := step_complete hstep
    refine ⟨h.cancelled, fun hphase => ⟨(h.waiting hphase).1, ?_⟩⟩
    unfold doneCount total
    rw [countP_set_outcome hget, List.length_set]
    exact (h.waiting hphase).2
  | spawned =>
    obtain ⟨hphase, rfl⟩ := step_spawned hstep
    unfold Gather.loop
    split_ifs with hmore
    · refine ⟨h.cancelled, fun _ => ⟨?_, hmore⟩⟩
      -- No waiter has finished yet, so none has cancelled the timer.
      have hzero : g.doneCount = 0 := hok.resolve_right (Nat.ne_of_lt hmore)
      by_contra hwoken
      have hpos := (hinv.spawning hphase).mp (by simpa using hwoken)
      omega
    · exact ⟨h.cancelled, fun hwaiting => absurd hwaiting (by simp [finish])⟩
  | runWaiter i =>
    obtain ⟨outcome, -, rfl⟩ := step_runWaiter hstep
    refine ⟨(cancelled_wake _).trans h.cancelled, fun hphase => ?_⟩
    -- A waiter that finishes while the coroutine waits wakes it.
    have hwaiting : g.phase = .waiting := by
      have hkept : (g.record i outcome).wake.phase = (g.record i outcome).phase :=
        phase_wake (by simp [hphase])
      exact hkept.symm.trans hphase
    have hawake : (g.record i outcome).wakeOnce = false := (h.waiting hwaiting).1
    have hrecord : (g.record i outcome).phase = .waiting := hwaiting
    simp [wake, hawake, hrecord] at hphase
  | resume =>
    obtain ⟨-, rfl⟩ := step_resume hstep
    have hcancelled : g.cancelAll.cancelled = [] := by
      unfold cancelAll
      cases herror : firstError g.children with
      | none => exact h.cancelled
      | some error =>
        dsimp only
        split_ifs with honce
        · exact h.cancelled
        · have hall := unfinished_eq_nil.mpr (hok (by simp [herror]))
          exact List.append_eq_nil_iff.mpr ⟨h.cancelled, hall⟩
    split_ifs with hmore
    · exact ⟨hcancelled, fun _ => ⟨rfl, hmore⟩⟩
    · exact ⟨hcancelled, fun hwaiting => absurd hwaiting (by simp [finish])⟩

/-- When all waiters have finished and the coroutine is not about to run, no step is
left. -/
theorem Settled.of_finished
    (hchildren : ∀ child ∈ g.children, child.outcome.isSome = true ∧ child.finished = true)
    (hspawning : g.phase ≠ .spawning) (hwoken : g.phase ≠ .woken) : g.Settled := by
  refine ⟨fun child hmem => (hchildren child hmem).1, fun action => ?_⟩
  by_contra hstep
  obtain ⟨g', hstep⟩ := Option.ne_none_iff_exists'.mp hstep
  cases action with
  | complete i outcome =>
    obtain ⟨finished, hget, -⟩ := step_complete hstep
    exact absurd (hchildren _ (List.mem_of_getElem? hget)).1 Bool.false_ne_true
  | spawned => exact hspawning (step_spawned hstep).1
  | runWaiter i =>
    obtain ⟨outcome, hget, -⟩ := step_runWaiter hstep
    exact absurd (hchildren _ (List.mem_of_getElem? hget)).2 Bool.false_ne_true
  | resume => exact hwoken (step_resume hstep).1

/-- When no step is left the coroutine has ended. -/
theorem Settled.ended (hsettled : g.Settled) (hinv : g.Inv) (h : g.Undisturbed) :
    g.phase = .ended (result g.children) := by
  cases hphase : g.phase with
  | spawning => exact absurd (hsettled.stuck .spawned) (by simp [Gather.step, hphase])
  | woken =>
    have hstuck := hsettled.stuck .resume
    simp only [Gather.step, hphase] at hstuck
    split_ifs at hstuck
  | waiting =>
    -- A waiter that has not finished could run.
    obtain ⟨child, hmem, hunfinished⟩ : ∃ child ∈ g.children, child.finished = false := by
      by_contra hall
      push Not at hall
      have heq := doneCount_eq_total.mpr fun child hmem => by simpa using hall child hmem
      exact absurd heq (Nat.ne_of_lt (h.waiting hphase).2)
    obtain ⟨i, hget⟩ := List.mem_iff_getElem?.mp hmem
    obtain ⟨outcome, houtcome⟩ := Option.isSome_iff_exists.mp (hsettled.completed child hmem)
    obtain rfl : child = { outcome := some outcome, finished := false } := by
      cases child
      simp_all
    exact absurd (hsettled.stuck (.runWaiter i)) (by simp [Gather.step, hget])
  | ended r => rw [(hinv.ended r hphase).2]

/-! ### The result -/

/-- The outcomes of the tasks are logged in the order of the run. -/
theorem log_run {actions : List (GatherAction α ε)} (hrun : exec Gather.step g actions = some g') :
    g'.log = g.log ++ completions actions := by
  induction actions generalizing g with
  | nil =>
    obtain rfl := Option.some.inj hrun
    exact (List.append_nil _).symm
  | cons action actions ih =>
    obtain ⟨g₁, hstep, hrest⟩ := exec_cons_eq_some.mp hrun
    rw [ih hrest]
    cases action with
    | complete i outcome =>
      obtain ⟨finished, -, rfl⟩ := step_complete hstep
      simp [completions]
    | spawned =>
      obtain ⟨-, rfl⟩ := step_spawned hstep
      have hlog : g.loop.log = g.log := by
        unfold Gather.loop
        split_ifs <;> rfl
      rw [hlog]
      rfl
    | runWaiter i =>
      obtain ⟨outcome, -, rfl⟩ := step_runWaiter hstep
      rw [log_wake]
      rfl
    | resume =>
      obtain ⟨-, rfl⟩ := step_resume hstep
      have hlog : g.cancelAll.log = g.log := by
        unfold cancelAll
        cases firstError g.children with
        | none => rfl
        | some error =>
          dsimp only
          split_ifs <;> rfl
      rw [← hlog]
      split_ifs <;> rfl

/-- The tasks that failed are those whose waiters have recorded an error. -/
theorem Inv.mem_failures {j : Nat} {e : ε} (h : g.Inv) (hall : g.doneCount = g.total) :
    (j, e) ∈ g.log.filterMap (ownError []) ↔ g.children[j]?.bind Child.error = some e := by
  have hown : (j, e) ∈ g.log.filterMap (ownError []) ↔ (j, .error e) ∈ g.log := by
    rw [List.mem_filterMap]
    constructor
    · rintro ⟨⟨i, outcome⟩, hmem, howned⟩
      cases outcome with
      | ok v => simp [ownError] at howned
      | error e' =>
        obtain ⟨rfl, rfl⟩ : i = j ∧ e' = e := by simpa [ownError] using howned
        exact hmem
    · exact fun hmem => ⟨_, hmem, by simp [ownError]⟩
  rw [hown, h.logged, Option.bind_eq_some_iff]
  constructor
  · rintro ⟨finished, hget⟩
    refine ⟨_, hget, ?_⟩
    have hfinished := doneCount_eq_total.mp hall _ (List.mem_of_getElem? hget)
    simp only at hfinished
    simp [Child.error, hfinished]
  · rintro ⟨⟨outcome, finished⟩, hget, herror⟩
    unfold Child.error at herror
    split at herror
    · rename_i e' hfinished houtcome
      obtain rfl := Option.some.inj herror
      exact ⟨finished, by rw [hget, ← houtcome]⟩
    · cases herror

/-- If a task failed, the error with the lowest index is the one of a task that failed, and
none that failed has a lower index. -/
theorem Inv.firstError_of_failure {failure : Nat × ε} (h : g.Inv)
    (hall : g.doneCount = g.total) (hfailure : failure ∈ g.log.filterMap (ownError [])) :
    ∃ error, firstError g.children = some error ∧
      error ∈ g.log.filterMap (ownError []) ∧
        ∀ failure ∈ g.log.filterMap (ownError []), error.1 ≤ failure.1 := by
  have hmem := fun j e => h.mem_failures (j := j) (e := e) hall
  cases hsome : firstError g.children with
  | none =>
    obtain ⟨child, hget, herror⟩ :=
      Option.bind_eq_some_iff.mp ((hmem failure.1 failure.2).mp hfailure)
    rw [firstErrorFrom_eq_none.mp hsome child (List.mem_of_getElem? hget)] at herror
    cases herror
  | some error =>
    obtain ⟨j, hj, hk, hbefore⟩ := firstErrorFrom_eq_some hsome
    rw [Nat.zero_add] at hj
    subst hj
    refine ⟨error, rfl, (hmem error.1 error.2).mpr hk, fun other hother => ?_⟩
    by_contra hlt
    have hnone := hbefore other.1 (Nat.lt_of_not_le hlt)
    rw [(hmem other.1 other.2).mp hother] at hnone
    cases hnone

/-- A task fails once. -/
theorem Inv.failure_unique {i : Nat} {e e' : ε} (h : g.Inv) (hall : g.doneCount = g.total)
    (he : (i, e) ∈ g.log.filterMap (ownError []))
    (he' : (i, e') ∈ g.log.filterMap (ownError [])) : e = e' :=
  Option.some.inj (((h.mem_failures hall).mp he).symm.trans ((h.mem_failures hall).mp he'))

/-- The error with the lowest index is the one of the task that failed first exactly if
that task has the lowest index of those that failed. -/
theorem Inv.expected_eq_result_iff (h : g.Inv) (hall : g.doneCount = g.total)
    (hcancelled : g.cancelled = []) :
    g.expected = result g.children ↔
      ∀ first ∈ (g.log.filterMap (ownError [])).head?,
        ∀ failure ∈ g.log.filterMap (ownError []), first.1 ≤ failure.1 := by
  unfold expected result
  rw [hcancelled, ← List.head?_filterMap]
  cases hhead : (g.log.filterMap (ownError [])).head? with
  | none =>
    -- Nobody failed.
    have hnil : g.log.filterMap (ownError []) = [] := List.head?_eq_none_iff.mp hhead
    have hnone : firstError g.children = none := by
      refine firstErrorFrom_eq_none.mpr fun child hchild => ?_
      obtain ⟨j, hget⟩ := List.mem_iff_getElem?.mp hchild
      cases herror : child.error with
      | none => rfl
      | some e =>
        have hfail := (h.mem_failures (j := j) (e := e) hall).mpr (by simp [hget, herror])
        rw [hnil] at hfail
        exact absurd hfail List.not_mem_nil
    simp [hnone]
  | some first =>
    have hfirst : first ∈ g.log.filterMap (ownError []) := List.mem_of_mem_head? hhead
    obtain ⟨error, hsome, herror, hlowest⟩ := h.firstError_of_failure hall hfirst
    simp only [hsome]
    constructor
    · intro heq other hother
      obtain rfl := Option.some.inj hother
      obtain rfl : first = error := Except.error.inj heq
      exact hlowest
    · intro hle
      have hindex : first.1 = error.1 :=
        Nat.le_antisymm (hle first rfl error herror) (hlowest first hfirst)
      have hsame : first.2 = error.2 := h.failure_unique hall hfirst (hindex ▸ herror)
      exact congrArg _ (Prod.ext hindex hsame)

end Gather

/-- The second task fails after the first is done, before the coroutine resumes. -/
def failsLast : List (GatherAction Nat String) :=
  [.spawned, .complete 0 (.ok 1), .runWaiter 0, .complete 1 (.error "gather boom"), .runWaiter 1,
    .resume]

/-- The second task fails while the first one is not done. -/
def failsEarly : List (GatherAction Nat String) :=
  [.spawned, .complete 1 (.error "gather boom"), .runWaiter 1, .resume,
    .complete 0 (.error "asyncx task cancelled"), .runWaiter 0, .resume]

/-- The first task is done before the coroutine begins to wait. -/
def readyTask : List (GatherAction Nat String) :=
  [.complete 0 (.ok 1), .runWaiter 0, .spawned, .complete 1 (.ok 2), .runWaiter 1]

/-- Its waiter has used up the wake-up, so the coroutine waits for ever. -/
theorem gather_never_ends :
    ∃ g, exec Gather.step (Gather.start 2) readyTask = some g ∧ g.Settled ∧
      g.phase = .waiting := by
  obtain ⟨g, hrun, hchildren, hphase⟩ :
      ∃ g, exec Gather.step (Gather.start 2) readyTask = some g ∧
        g.children = [⟨some (.ok 1), true⟩, ⟨some (.ok 2), true⟩] ∧ g.phase = .waiting :=
    ⟨_, rfl, rfl, rfl⟩
  exact ⟨g, hrun, .of_finished (by simp [hchildren]) (by simp [hphase]) (by simp [hphase]),
    hphase⟩

end HttpClient.Asyncx
