import Mathlib.Data.List.Perm.Basic
import HttpClient.Asyncx.Combinators
import HttpClient.Semantics.OneShot

/-!
# Waiting for completions

`wait` and `as_completed` add a continuation to each of their tasks and wait on a timer that
never expires; the continuations count the tasks that are done and cancel the timer. `wait`
returns when all tasks are done, or the first one, or the first one that has failed, and says
which are done by then. `as_completed` returns the order in which they were done.

The executor has one thread. So nothing else runs from the call of the coroutine to its first
suspension, but the continuation of a task that is done by then runs at once, while those of
the next tasks are still to be added. The same task may be given more than once.

## Main definitions

* `WaitGroup`, `Observer` — what the continuations share, and what they do
* `Observation`, `Observer.step` — the tasks with the coroutine, and the atomic steps
* `Observer.Due` — what the coroutine waits for

## Main results

* `completions_observed_once` — continuations run once, the coroutine returns as soon as it is
  due and not before, and what it returns
-/

set_option autoImplicit false

namespace HttpClient.Asyncx

open Semantics

variable {τ α ε ω : Type}

/-! ### The group -/

inductive ReturnWhen where
  | allCompleted
  | firstCompleted
  | firstException
  deriving DecidableEq, Repr

/-- `GroupState`, with the order in which `as_completed` has been told of its tasks. The bell is
the timer `wake` with `wake_once`. -/
structure WaitGroup (ε : Type) where
  total : Nat
  doneCount : Nat := 0
  firstError : Option ε := none
  order : List Nat := []
  bell : Bell := {}

namespace WaitGroup

def wake (group : WaitGroup ε) : WaitGroup ε := { group with bell := group.bell.ring }

/-- Keep the first error. Only this one cancels the timer. -/
def recordError (e : ε) (group : WaitGroup ε) : WaitGroup ε :=
  match group.firstError with
  | none => { group with firstError := some e }.wake
  | some _ => group

end WaitGroup

/-- The continuation that `wait` adds. -/
def waitContinuation (returnWhen : ReturnWhen) (outcome : Except ε α) (group : WaitGroup ε) :
    WaitGroup ε :=
  let group :=
    match returnWhen, outcome with
    | .firstException, .error e => group.recordError e
    | _, _ => group
  let group := { group with doneCount := group.doneCount + 1 }
  if returnWhen = .firstCompleted ∨ group.doneCount = group.total then group.wake else group

/-- The continuation that `as_completed` adds to the task at index `i`. -/
def asCompletedContinuation (i : Nat) (group : WaitGroup ε) : WaitGroup ε :=
  let group := { group with order := group.order ++ [i], doneCount := group.doneCount + 1 }
  if group.doneCount = group.total then group.wake else group

/-- The two coroutines. -/
inductive Observer where
  | wait (returnWhen : ReturnWhen)
  | asCompleted
  deriving DecidableEq, Repr

namespace Observer

def continuation (o : Observer) (i : Nat) (outcome : Except ε α) (group : WaitGroup ε) :
    WaitGroup ε :=
  match o with
  | .wait returnWhen => waitContinuation returnWhen outcome group
  | .asCompleted => asCompletedContinuation i group

/-- The condition at the head of the loop. -/
def ShouldReturn (o : Observer) (group : WaitGroup ε) : Prop :=
  match o with
  | .wait returnWhen =>
    group.total ≤ group.doneCount ∨ (returnWhen = .firstCompleted ∧ 0 < group.doneCount) ∨
      (returnWhen = .firstException ∧ group.firstError.isSome = true)
  | .asCompleted => group.total ≤ group.doneCount

instance (o : Observer) (group : WaitGroup ε) : Decidable (o.ShouldReturn group) :=
  match o with
  | .wait _ => inferInstanceAs (Decidable (_ ∨ _))
  | .asCompleted => inferInstanceAs (Decidable (_ ≤ _))

end Observer

/-! ### Tasks and coroutine -/

/-- Whoever has added a continuation to a task. -/
inductive Continuation (ω : Type) where
  /-- This coroutine, for the task at index `i`. -/
  | own (i : Nat)
  | other (k : ω)

def Continuation.own? : Continuation ω → Option Nat
  | .own i => some i
  | .other _ => none

/-- `TaskState` -/
abbrev TaskState (α ε ω : Type) := OneShot (Except ε α) (Continuation ω)

/-- What the coroutine returns. -/
inductive Observed (τ : Type) where
  /-- `WaitResult` -/
  | partitioned (done pending : List τ)
  | ordered (order : List Nat)
  deriving DecidableEq

structure Observation (τ α ε ω : Type) where
  tasks : List τ
  store : τ → TaskState α ε ω := fun _ => {}
  group : WaitGroup ε
  result : Option (Observed τ) := none

inductive ObserverAction (τ α ε ω : Type) where
  /-- A task is done. -/
  | complete (t : τ) (outcome : Except ε α)
  /-- Somebody else adds a continuation to a task. -/
  | add (t : τ) (k : ω)
  /-- The coroutine is called. -/
  | call
  /-- The coroutine resumes. -/
  | resume

namespace Observation

def start (tasks : List τ) : Observation τ α ε ω := { tasks, group := { total := tasks.length } }

/-- `done()` -/
def isDone (s : Observation τ α ε ω) (t : τ) : Bool := (s.store t).outcome.isSome

/-- Whether `task_error` is not null. -/
def failed (s : Observation τ α ε ω) (t : τ) : Bool :=
  match (s.store t).outcome with
  | some (.error _) => true
  | _ => false

end Observation

namespace Observer

variable (o : Observer)

/-- Run continuations of a task, in order. Those of others do nothing to this coroutine. -/
def runAll (outcome : Except ε α) (continuations : List (Continuation ω)) (group : WaitGroup ε) :
    WaitGroup ε :=
  continuations.foldl
    (fun group continuation =>
      match continuation with
      | .own i => o.continuation i outcome group
      | .other _ => group)
    group

/-- What the coroutine returns, in the state in which it does. -/
def observed (s : Observation τ α ε ω) : Observed τ :=
  match o with
  | .wait _ =>
    let (done, pending) :=
      s.tasks.foldl
        (fun (done, pending) t =>
          if s.isDone t then (done ++ [t], pending) else (done, pending ++ [t]))
        ([], [])
    .partitioned done pending
  | .asCompleted => .ordered s.group.order

def finish (s : Observation τ α ε ω) : Observation τ α ε ω :=
  { s with
    group := { s.group with bell := { s.group.bell with sleeper := .over } }
    result := some (observed o s) }

/-- The head of the loop. -/
def loop (s : Observation τ α ε ω) : Observation τ α ε ω :=
  if o.ShouldReturn s.group then finish o s
  else { s with group := { s.group with bell := { s.group.bell with sleeper := .waiting } } }

variable [DecidableEq τ]

/-- `add_completion` -/
def addCompletion (t : τ) (continuation : Continuation ω) (s : Observation τ α ε ω) :
    Observation τ α ε ω :=
  let (task, ready) := (s.store t).add continuation
  { s with
    store := Function.update s.store t task
    group :=
      match task.outcome with
      | some outcome => o.runAll outcome ready s.group
      | none => s.group }

/-- `complete_task` -/
def completeTask (t : τ) (outcome : Except ε α) (s : Observation τ α ε ω) : Observation τ α ε ω :=
  let (task, continuations) := (s.store t).fill outcome
  { s with
    store := Function.update s.store t task
    group := o.runAll outcome continuations s.group }

/-- The loop that adds the continuations, from index `i` on. -/
def addAll (i : Nat) : List τ → Observation τ α ε ω → Observation τ α ε ω
  | [], s => s
  | t :: tasks, s => addAll (i + 1) tasks (o.addCompletion t (.own i) s)

/-- The coroutine is called. It runs up to its first suspension. -/
def call (s : Observation τ α ε ω) : Observation τ α ε ω :=
  if s.tasks.isEmpty then finish o s else loop o (o.addAll 0 s.tasks s)

/-- The coroutine has been woken. -/
def resumed (s : Observation τ α ε ω) : Observation τ α ε ω :=
  loop o
    (if s.group.doneCount < s.group.total then
      { s with group := { s.group with bell := { s.group.bell with rung := false } } }
    else s)

/-- One step; `none` if it is not enabled. -/
def step (s : Observation τ α ε ω) : ObserverAction τ α ε ω → Option (Observation τ α ε ω)
  | .complete t outcome => if s.isDone t then none else some (o.completeTask t outcome s)
  | .add t k => some (o.addCompletion t (.other k) s)
  | .call => if s.group.bell.sleeper = .before then some (call o s) else none
  | .resume => if s.group.bell.sleeper = .woken then some (resumed o s) else none

/-- What the coroutine waits for. There is nothing to wait for in an empty list. -/
def Due (s : Observation τ α ε ω) : Prop :=
  (∀ t ∈ s.tasks, s.isDone t = true) ∨
    match o with
    | .wait .firstCompleted => ∃ t ∈ s.tasks, s.isDone t = true
    | .wait .firstException => ∃ t ∈ s.tasks, s.failed t = true
    | _ => False

/-- The tasks in the order in which they are done in a run. -/
def completed : List (ObserverAction τ α ε ω) → List τ
  | [] => []
  | .complete t _ :: actions => t :: completed actions
  | _ :: actions => completed actions

/-! ### What a continuation does -/

variable {o} {group group' : WaitGroup ε} {outcome : Except ε α} {i : Nat}

/-- The coroutine waits only for what has not come about, and is woken only by what has. -/
structure Alert (o : Observer) (group : WaitGroup ε) : Prop where
  rung : group.bell.rung = true → o.ShouldReturn group
  waiting : group.bell.sleeper = .waiting → ¬ o.ShouldReturn group
  woken : group.bell.sleeper = .woken → o.ShouldReturn group

/-- The bell is rung when the coroutine should return, or this is as it was before. -/
theorem Alert.advance (h : Alert o group)
    (hmove : group'.bell = group.bell.ring ∧ o.ShouldReturn group' ∨
      group'.bell = group.bell ∧ (o.ShouldReturn group' ↔ o.ShouldReturn group)) :
    Alert o group' := by
  rcases hmove with ⟨hbell, hreturn⟩ | ⟨hbell, hsame⟩
  · refine ⟨fun _ => hreturn, fun hwaiting => ?_, fun _ => hreturn⟩
    -- the bell was not lost, so that ringing it wakes whoever waits
    have hheard : ¬ group.bell.Lost := fun hlost => h.waiting hlost.1 (h.rung hlost.2)
    rw [hbell] at hwaiting
    exact absurd ⟨hwaiting, Bell.rung_ring _⟩ (Bell.not_lost_ring hheard)
  · constructor
    · rw [hbell, hsame]
      exact h.rung
    · rw [hbell, hsame]
      exact h.waiting
    · rw [hbell, hsame]
      exact h.woken

/-- Whether an exception is what the coroutine waits for. -/
def Heeds (o : Observer) (outcome : Except ε α) : Prop :=
  o = .wait .firstException ∧ outcome.isOk = false

theorem recordError_cases (e : ε) (group : WaitGroup ε) :
    (group.recordError e).total = group.total ∧
      (group.recordError e).doneCount = group.doneCount ∧
      (group.recordError e).order = group.order ∧
      (group.recordError e).firstError.isSome = true ∧
      ((group.recordError e).bell = group.bell.ring ∨
        (group.recordError e).bell = group.bell ∧ group.firstError.isSome = true) := by
  unfold WaitGroup.recordError
  cases hfirst : group.firstError with
  | none => exact ⟨rfl, rfl, rfl, rfl, Or.inl rfl⟩
  | some first => exact ⟨rfl, rfl, rfl, by rw [hfirst]; rfl, Or.inr ⟨rfl, rfl⟩⟩

/-- What a continuation of this coroutine does to the group. -/
structure Told (o : Observer) (i : Nat) (outcome : Except ε α) (group group' : WaitGroup ε) :
    Prop where
  total : group'.total = group.total
  counted : group'.doneCount = group.doneCount + 1
  order : group'.order = if o = .asCompleted then group.order ++ [i] else group.order
  error : group'.firstError.isSome = true ↔ group.firstError.isSome = true ∨ Heeds o outcome
  bell : group'.bell = group.bell.ring ∧ o.ShouldReturn group' ∨
    group'.bell = group.bell ∧ (o.ShouldReturn group' ↔ o.ShouldReturn group)

/-- The group is counted up, and the bell is rung by the last task. -/
theorem told_asCompleted (i : Nat) (outcome : Except ε α) (group : WaitGroup ε) :
    Told .asCompleted i outcome group (asCompletedContinuation i group) := by
  have herror : group.firstError.isSome = true ↔
      group.firstError.isSome = true ∨ Heeds .asCompleted outcome := by simp [Heeds]
  unfold asCompletedContinuation
  dsimp only
  split_ifs with hlast
  · exact ⟨rfl, rfl, rfl, herror, Or.inl ⟨rfl, Nat.le_of_eq hlast.symm⟩⟩
  · refine ⟨rfl, rfl, rfl, herror, Or.inr ⟨rfl, ?_⟩⟩
    change group.total ≤ group.doneCount + 1 ↔ group.total ≤ group.doneCount
    omega

/-- The second half of the continuation of `wait`, after it has looked for an error. -/
theorem told_count {returnWhen : ReturnWhen} {group₁ : WaitGroup ε} (i : Nat)
    (htotal : group₁.total = group.total) (hcount : group₁.doneCount = group.doneCount)
    (horder : group₁.order = group.order)
    (herror : group₁.firstError.isSome = true ↔
      group.firstError.isSome = true ∨ Heeds (.wait returnWhen) outcome)
    (hbell : group₁.bell = group.bell.ring ∧ returnWhen = .firstException ∧
        group₁.firstError.isSome = true ∨
      group₁.bell = group.bell ∧
        (group₁.firstError.isSome = true ↔ group.firstError.isSome = true)) :
    Told (.wait returnWhen) i outcome group
      (if returnWhen = .firstCompleted ∨ group₁.doneCount + 1 = group₁.total then
        { group₁ with doneCount := group₁.doneCount + 1 }.wake
      else { group₁ with doneCount := group₁.doneCount + 1 }) := by
  have hcounted : group₁.doneCount + 1 = group.doneCount + 1 := congrArg (· + 1) hcount
  split_ifs with hring
  · refine ⟨htotal, hcounted, horder, herror, Or.inl ⟨?_, ?_⟩⟩
    · rcases hbell with ⟨hbell, -⟩ | ⟨hbell, -⟩
      · change group₁.bell.ring = group.bell.ring
        rw [hbell, Bell.ring_of_rung (Bell.rung_ring _)]
      · exact congrArg Bell.ring hbell
    · rcases hring with hfirst | hlast
      · exact Or.inr (Or.inl ⟨hfirst, Nat.succ_pos _⟩)
      · exact Or.inl (Nat.le_of_eq hlast.symm)
  · refine ⟨htotal, hcounted, horder, herror, ?_⟩
    obtain ⟨hnotFirst, hnotLast⟩ := not_or.mp hring
    rcases hbell with ⟨hbell, hexception, hsome⟩ | ⟨hbell, hsame⟩
    · exact Or.inl ⟨hbell, Or.inr (Or.inr ⟨hexception, hsome⟩)⟩
    · refine Or.inr ⟨hbell, ?_⟩
      simp only [ShouldReturn, hnotFirst, false_and, false_or, hsame]
      have hlast : group₁.total ≤ group₁.doneCount + 1 ↔ group.total ≤ group.doneCount := by omega
      rw [hlast]

/-- Without an error to look for, the continuation of `wait` only counts. -/
theorem waitContinuation_of_not_heeds {returnWhen : ReturnWhen}
    (h : ¬ Heeds (.wait returnWhen) outcome) :
    waitContinuation returnWhen outcome group =
      if returnWhen = .firstCompleted ∨ group.doneCount + 1 = group.total then
        { group with doneCount := group.doneCount + 1 }.wake
      else { group with doneCount := group.doneCount + 1 } := by
  cases returnWhen with
  | allCompleted => rfl
  | firstCompleted => rfl
  | firstException =>
    cases outcome with
    | ok v => rfl
    | error e => exact absurd ⟨rfl, rfl⟩ h

theorem told_continuation (o : Observer) (i : Nat) (outcome : Except ε α) (group : WaitGroup ε) :
    Told o i outcome group (o.continuation i outcome group) := by
  cases o with
  | asCompleted => exact told_asCompleted i outcome group
  | wait returnWhen =>
    -- only with `FirstException` the continuation looks for an error
    by_cases hheeds : Heeds (.wait returnWhen) outcome
    · obtain ⟨hwait, hfails⟩ := hheeds
      obtain rfl : returnWhen = .firstException := by injection hwait
      cases outcome with
      | ok v => exact absurd hfails (by simp [Except.isOk, Except.toBool])
      | error e =>
        obtain ⟨htotal, hcount, horder, hsome, hbell⟩ := recordError_cases e group
        refine told_count i htotal hcount horder ?_ ?_
        · exact iff_of_true hsome (Or.inr ⟨rfl, rfl⟩)
        · rcases hbell with hbell | ⟨hbell, hfirst⟩
          · exact Or.inl ⟨hbell, rfl, hsome⟩
          · exact Or.inr ⟨hbell, iff_of_true hsome hfirst⟩
    · have hcontinuation : Observer.continuation (.wait returnWhen) i outcome group = _ :=
        waitContinuation_of_not_heeds hheeds
      rw [hcontinuation]
      exact told_count i rfl rfl rfl (by simp [hheeds]) (Or.inr ⟨rfl, Iff.rfl⟩)

/-! ### What a task does to the coroutine -/

/-- What the continuations of a task do to the group. -/
structure ToldAll (o : Observer) (is : List Nat) (outcome : Except ε α)
    (group group' : WaitGroup ε) : Prop where
  total : group'.total = group.total
  counted : group'.doneCount = group.doneCount + is.length
  order : group'.order = if o = .asCompleted then group.order ++ is else group.order
  error : group'.firstError.isSome = true ↔
    group.firstError.isSome = true ∨ is ≠ [] ∧ Heeds o outcome
  alert : Alert o group → Alert o group'

theorem toldAll_runAll (o : Observer) (outcome : Except ε α)
    (continuations : List (Continuation ω)) (group : WaitGroup ε) :
    ToldAll o (continuations.filterMap Continuation.own?) outcome group
      (o.runAll outcome continuations group) := by
  induction continuations generalizing group with
  | nil => exact ⟨rfl, rfl, by simp [runAll], by simp [runAll], id⟩
  | cons continuation continuations ih =>
    cases continuation with
    | other k => exact ih group
    | own i =>
      have hfirst := told_continuation o i outcome group
      have hrest := ih (o.continuation i outcome group)
      have hrun : o.runAll outcome (.own i :: continuations) group =
          o.runAll outcome continuations (o.continuation i outcome group) := rfl
      have hown : (.own i :: continuations : List (Continuation ω)).filterMap Continuation.own? =
          i :: continuations.filterMap Continuation.own? := rfl
      rw [hrun, hown]
      constructor
      · exact hrest.total.trans hfirst.total
      · rw [hrest.counted, hfirst.counted, List.length_cons]
        omega
      · rw [hrest.order, hfirst.order]
        split_ifs
        · rw [List.append_assoc, List.singleton_append]
        · rfl
      · rw [hrest.error, hfirst.error]
        have hsome : i :: continuations.filterMap Continuation.own? ≠ [] := List.cons_ne_nil _ _
        tauto
      · intro halert
        exact hrest.alert (halert.advance hfirst.bell)

/-! ### Adding continuations and completing tasks -/

variable {s s' : Observation τ α ε ω} {t : τ} {k : Continuation ω} {pre : List τ}

@[simp] theorem tasks_addCompletion : (o.addCompletion t k s).tasks = s.tasks := rfl

@[simp] theorem result_addCompletion : (o.addCompletion t k s).result = s.result := rfl

theorem outcome_addCompletion (u : τ) :
    ((o.addCompletion t k s).store u).outcome = (s.store u).outcome := by
  change (Function.update s.store t _ u).outcome = _
  by_cases hu : u = t
  · subst hu
    rw [Function.update_self]
    exact OneShot.outcome_add k _
  · rw [Function.update_of_ne hu]

/-- Adding a continuation completes no task. -/
@[simp] theorem isDone_addCompletion : (o.addCompletion t k s).isDone = s.isDone := by
  funext u
  exact congrArg Option.isSome (outcome_addCompletion u)

@[simp] theorem failed_addCompletion : (o.addCompletion t k s).failed = s.failed := by
  funext u
  unfold Observation.failed
  rw [outcome_addCompletion]

theorem added_addCompletion (u : τ) :
    ((o.addCompletion t k s).store u).added =
      if u = t then (s.store u).added ++ [k] else (s.store u).added := by
  change (Function.update s.store t _ u).added = _
  split_ifs with hu
  · subst hu
    rw [Function.update_self]
    exact OneShot.added_add k _
  · rw [Function.update_of_ne hu]

theorem exact_addCompletion (h : ∀ u, (s.store u).Exact) (u : τ) :
    ((o.addCompletion t k s).store u).Exact := by
  change OneShot.Exact (Function.update s.store t _ u)
  by_cases hu : u = t
  · subst hu
    rw [Function.update_self]
    exact (h u).add k
  · rw [Function.update_of_ne hu]
    exact h u

/-- The continuation of a task that is done runs at once. -/
theorem group_addCompletion_of_done {outcome : Except ε α}
    (h : (s.store t).outcome = some outcome) :
    (o.addCompletion t k s).group = o.runAll outcome [k] s.group := by
  simp only [addCompletion, OneShot.outcome_add, OneShot.add_snd, h]
  rfl

theorem group_addCompletion_of_pending (h : (s.store t).outcome = none) :
    (o.addCompletion t k s).group = s.group := by
  simp only [addCompletion, OneShot.outcome_add, h]

theorem group_addCompletion_other (k : ω) : (o.addCompletion t (.other k) s).group = s.group := by
  cases houtcome : (s.store t).outcome with
  | none => exact group_addCompletion_of_pending houtcome
  | some outcome =>
    rw [group_addCompletion_of_done houtcome]
    rfl

theorem store_completeTask (outcome : Except ε α) :
    (o.completeTask t outcome s).store = Function.update s.store t ((s.store t).fill outcome).1 :=
  rfl

theorem isDone_completeTask (h : (s.store t).outcome = none) (outcome : Except ε α) (u : τ) :
    (o.completeTask t outcome s).isDone u = (s.isDone u || decide (u = t)) := by
  unfold Observation.isDone
  rw [store_completeTask]
  by_cases hu : u = t
  · subst hu
    rw [Function.update_self, OneShot.fill_of_empty h]
    simp
  · rw [Function.update_of_ne hu]
    simp [hu]

theorem failed_completeTask (h : (s.store t).outcome = none) (outcome : Except ε α) (u : τ) :
    (o.completeTask t outcome s).failed u = true ↔
      s.failed u = true ∨ u = t ∧ outcome.isOk = false := by
  unfold Observation.failed
  rw [store_completeTask]
  by_cases hu : u = t
  · subst hu
    rw [Function.update_self, OneShot.fill_of_empty h, h]
    cases outcome <;> simp [Except.isOk, Except.toBool]
  · rw [Function.update_of_ne hu]
    simp [hu]

theorem added_completeTask (h : (s.store t).outcome = none) (outcome : Except ε α) (u : τ) :
    ((o.completeTask t outcome s).store u).added = (s.store u).added := by
  rw [store_completeTask]
  by_cases hu : u = t
  · subst hu
    rw [Function.update_self, OneShot.fill_of_empty h]
  · rw [Function.update_of_ne hu]

theorem exact_completeTask (h : ∀ u, (s.store u).Exact) (outcome : Except ε α) (u : τ) :
    ((o.completeTask t outcome s).store u).Exact := by
  change OneShot.Exact (Function.update s.store t _ u)
  by_cases hu : u = t
  · subst hu
    rw [Function.update_self]
    exact (h u).fill outcome
  · rw [Function.update_of_ne hu]
    exact h u

theorem group_completeTask (h : (s.store t).outcome = none) (outcome : Except ε α) :
    (o.completeTask t outcome s).group = o.runAll outcome (s.store t).continuations s.group := by
  simp only [completeTask, OneShot.fill_of_empty h]

/-! ### The group and the tasks -/

/-- Doing one more task makes its indices those of tasks that are done. -/
theorem findIdxs_or_perm (p : τ → Bool) (t : τ) (h : p t = false) (tasks : List τ) (i : Nat) :
    (tasks.findIdxs p i ++ tasks.findIdxs (fun u => decide (u = t)) i).Perm
      (tasks.findIdxs (fun u => p u || decide (u = t)) i) := by
  induction tasks generalizing i with
  | nil => exact .refl _
  | cons u tasks ih =>
    simp only [List.findIdxs_cons]
    by_cases hu : u = t
    · subst hu
      simp only [h, decide_true, Bool.or_true, Bool.false_eq_true, if_false, if_true]
      exact List.perm_middle.trans ((ih (i + 1)).cons i)
    · simp only [hu, decide_false, Bool.or_false, Bool.false_eq_true, if_false]
      split_ifs
      · exact (ih (i + 1)).cons i
      · exact ih (i + 1)

theorem countP_or (p : τ → Bool) (t : τ) (h : p t = false) (tasks : List τ) :
    tasks.countP (fun u => p u || decide (u = t)) =
      tasks.countP p + tasks.countP fun u => decide (u = t) := by
  have hperm := (findIdxs_or_perm p t h tasks 0).length_eq
  simpa only [List.length_append, List.length_findIdxs] using hperm.symm

/-- The continuations of the tasks `pre` have been added, and the group has been told of those
that are done. -/
structure Registered (o : Observer) (pre : List τ) (s : Observation τ α ε ω) : Prop where
  exact : ∀ t, (s.store t).Exact
  total : s.group.total = s.tasks.length
  added : ∀ t, (s.store t).added.filterMap Continuation.own? =
    pre.findIdxs fun u => decide (u = t)
  counted : s.group.doneCount = pre.countP s.isDone
  ordered : o = .asCompleted → s.group.order.Perm (pre.findIdxs s.isDone)
  error : s.group.firstError.isSome = true ↔
    o = .wait .firstException ∧ ∃ t ∈ pre, s.failed t = true
  alert : Alert o s.group

omit [DecidableEq τ] in
theorem findIdxs_snoc (p : τ → Bool) (pre : List τ) (t : τ) :
    (pre ++ [t]).findIdxs p = pre.findIdxs p ++ if p t then [pre.length] else [] := by
  rw [List.findIdxs_append, List.findIdxs_singleton, Nat.zero_add]

/-- A continuation of somebody else changes nothing for the coroutine. -/
theorem Registered.addOther (h : Registered o pre s) (t : τ) (k : ω) :
    Registered o pre (o.addCompletion t (.other k) s) := by
  have hgroup : (o.addCompletion t (.other k) s).group = s.group := group_addCompletion_other k
  refine ⟨exact_addCompletion h.exact, ?_, fun u => ?_, ?_, ?_, ?_, ?_⟩
  · rw [hgroup]
    exact h.total
  · rw [added_addCompletion]
    split_ifs
    · rw [List.filterMap_append, h.added]
      exact List.append_nil _
    · exact h.added u
  · rw [hgroup, isDone_addCompletion]
    exact h.counted
  · rw [hgroup, isDone_addCompletion]
    exact h.ordered
  · rw [hgroup, failed_addCompletion]
    exact h.error
  · rw [hgroup]
    exact h.alert

/-- The continuation of the next task is added. If the task is done the group is told at
once. -/
theorem Registered.addOwn (h : Registered o pre s) (t : τ) :
    Registered o (pre ++ [t]) (o.addCompletion t (.own pre.length) s) := by
  have hadded : ∀ u, ((o.addCompletion t (.own pre.length) s).store u).added.filterMap
      Continuation.own? = (pre ++ [t]).findIdxs fun v => decide (v = u) := by
    intro u
    rw [added_addCompletion, findIdxs_snoc]
    by_cases hu : u = t
    · rw [if_pos hu, List.filterMap_append, h.added, decide_eq_true hu.symm]
      rfl
    · rw [if_neg hu, h.added, decide_eq_false (Ne.symm hu)]
      exact (List.append_nil _).symm
  have hdone : (o.addCompletion t (.own pre.length) s).isDone = s.isDone := isDone_addCompletion
  have hfailed : (o.addCompletion t (.own pre.length) s).failed = s.failed := failed_addCompletion
  cases houtcome : (s.store t).outcome with
  | none =>
    have hgroup := group_addCompletion_of_pending (o := o) (k := .own pre.length) houtcome
    have hpending : s.isDone t = false := congrArg Option.isSome houtcome
    have hunfailed : s.failed t = false := by simp [Observation.failed, houtcome]
    refine ⟨exact_addCompletion h.exact, ?_, hadded, ?_, ?_, ?_, ?_⟩
    · rw [hgroup]
      exact h.total
    · rw [hgroup, hdone, List.countP_append, h.counted]
      simp [hpending]
    · rw [hgroup, hdone, findIdxs_snoc, hpending]
      simpa using h.ordered
    · rw [hgroup, hfailed, h.error]
      simp [hunfailed]
    · rw [hgroup]
      exact h.alert
  | some outcome =>
    have htold := toldAll_runAll o outcome [(.own pre.length : Continuation ω)] s.group
    rw [← group_addCompletion_of_done houtcome] at htold
    have hfull : s.isDone t = true := congrArg Option.isSome houtcome
    have hheeds : Heeds o outcome ↔ o = .wait .firstException ∧ s.failed t = true := by
      unfold Heeds Observation.failed
      rw [houtcome]
      cases outcome <;> simp [Except.isOk, Except.toBool]
    refine ⟨exact_addCompletion h.exact, htold.total.trans h.total, hadded, ?_, fun ho => ?_, ?_,
      htold.alert h.alert⟩
    · rw [htold.counted, hdone, List.countP_append, h.counted, List.countP_singleton, if_pos hfull]
      rfl
    · rw [htold.order, if_pos ho, hdone, findIdxs_snoc, if_pos hfull]
      exact (h.ordered ho).append_right _
    · have hone : ([.own pre.length] : List (Continuation ω)).filterMap Continuation.own? ≠ [] :=
        List.cons_ne_nil _ _
      rw [htold.error, and_iff_right hone, h.error, hfailed, hheeds, ← and_or_left]
      simp only [List.mem_append, List.mem_singleton, or_and_right, exists_or, exists_eq_left]

/-- A task is done, and the group is told once for each time it was given. -/
theorem Registered.complete (h : Registered o pre s) (hpending : (s.store t).outcome = none)
    (outcome : Except ε α) : Registered o pre (o.completeTask t outcome s) := by
  have hunDone : s.isDone t = false := congrArg Option.isSome hpending
  have hown : (s.store t).continuations.filterMap Continuation.own? =
      pre.findIdxs fun u => decide (u = t) := by
    rw [((h.exact t).empty hunDone).2, h.added]
  have hisDone : (o.completeTask t outcome s).isDone = fun u => s.isDone u || decide (u = t) :=
    funext (isDone_completeTask hpending outcome)
  have htold := toldAll_runAll o outcome (s.store t).continuations s.group
  rw [← group_completeTask hpending, hown] at htold
  refine ⟨exact_completeTask h.exact outcome, htold.total.trans h.total, fun u => ?_, ?_,
    fun ho => ?_, ?_, htold.alert h.alert⟩
  · rw [added_completeTask hpending]
    exact h.added u
  · rw [htold.counted, List.length_findIdxs, h.counted, hisDone, countP_or _ t hunDone]
  · rw [htold.order, if_pos ho, hisDone]
    exact ((h.ordered ho).append_right _).trans (findIdxs_or_perm _ t hunDone pre 0)
  · rw [htold.error, h.error]
    have hgiven : (pre.findIdxs fun u => decide (u = t)) ≠ [] ↔ t ∈ pre := by
      rw [Ne, List.findIdxs_eq_nil_iff]
      simp
    rw [hgiven]
    simp only [failed_completeTask hpending, Heeds, and_or_left, exists_or]
    constructor
    · rintro (⟨ho, u, hmem, hfailed⟩ | ⟨hmem, ho, hfails⟩)
      · exact Or.inl ⟨ho, u, hmem, hfailed⟩
      · exact Or.inr ⟨ho, t, hmem, rfl, hfails⟩
    · rintro (⟨ho, u, hmem, hfailed⟩ | ⟨ho, u, hmem, rfl, hfails⟩)
      · exact Or.inl ⟨ho, u, hmem, hfailed⟩
      · exact Or.inr ⟨hmem, ho, hfails⟩

/-- A group that has been told of all tasks knows when to return. -/
theorem Registered.shouldReturn_iff (h : Registered o s.tasks s) :
    o.ShouldReturn s.group ↔ o.Due s := by
  have hall : s.group.total ≤ s.group.doneCount ↔ ∀ t ∈ s.tasks, s.isDone t = true := by
    rw [h.total, h.counted, ← List.countP_eq_length]
    have hle := List.countP_le_length (p := s.isDone) (l := s.tasks)
    omega
  cases o with
  | asCompleted =>
    unfold ShouldReturn Due
    rw [hall]
    exact (or_iff_left id).symm
  | wait returnWhen =>
    unfold ShouldReturn Due
    rw [hall]
    refine or_congr_right ?_
    cases returnWhen with
    | allCompleted => simp
    | firstCompleted => simp [h.counted, List.countP_pos_iff]
    | firstException => simp [h.error]

/-! ### What every step keeps -/

/-- The invariant of all runs. -/
structure Inv (o : Observer) (s : Observation τ α ε ω) : Prop where
  registered : Registered o (if s.group.bell.sleeper = .before then [] else s.tasks) s
  ended : s.result.isSome = true ↔ s.group.bell.sleeper = .over
  /-- The order is complete once it has been returned. -/
  ordered : ∀ order, s.result = some (.ordered order) →
    o = .asCompleted ∧ order = s.group.order ∧ ∀ t ∈ s.tasks, s.isDone t = true

theorem inv_start (o : Observer) (tasks : List τ) :
    Inv o (Observation.start tasks : Observation τ α ε ω) := by
  refine ⟨?_, iff_of_false (by simp [Observation.start]) (by simp [Observation.start]),
    fun order h => by cases h⟩
  have hbefore : (Observation.start tasks : Observation τ α ε ω).group.bell.sleeper = .before := rfl
  rw [if_pos hbefore]
  refine ⟨fun _ => OneShot.exact_fresh, rfl, fun _ => rfl, rfl, fun _ => .refl _, ?_, ?_⟩
  · simp [Observation.start]
  · exact ⟨fun h => absurd h Bool.false_ne_true, (fun h => nomatch h), (fun h => nomatch h)⟩

/-- Telling the bell something else changes nothing the group has been told. -/
theorem Registered.withBell (h : Registered o pre s) {bell : Bell}
    (halert : Alert o { s.group with bell }) :
    Registered o pre { s with group := { s.group with bell } } :=
  ⟨h.exact, h.total, h.added, h.counted, h.ordered, h.error, halert⟩

theorem Inv.finish (h : Registered o s.tasks s) (hreturn : o.ShouldReturn s.group) :
    Inv o (finish o s) := by
  have hover : Alert o { s.group with bell := { s.group.bell with sleeper := .over } } :=
    ⟨fun _ => hreturn, (fun hwaiting => nomatch hwaiting), (fun hwoken => nomatch hwoken)⟩
  have hregistered := h.withBell hover
  refine ⟨?_, iff_of_true rfl rfl, fun order hresult => ?_⟩
  · exact ⟨hregistered.exact, hregistered.total, hregistered.added, hregistered.counted,
      hregistered.ordered, hregistered.error, hregistered.alert⟩
  · have hdue := h.shouldReturn_iff.mp hreturn
    cases o with
    | wait returnWhen => cases hresult
    | asCompleted =>
      obtain rfl : s.group.order = order := Observed.ordered.inj (Option.some.inj hresult)
      exact ⟨rfl, rfl, hdue.resolve_right id⟩

/-- At the head of the loop the coroutine returns if it is due, and waits otherwise. -/
theorem loop_cases (h : Registered o s.tasks s) :
    o.Due s ∧ loop o s = finish o s ∨
      ¬ o.Due s ∧ loop o s =
        { s with group := { s.group with bell := { s.group.bell with sleeper := .waiting } } } := by
  unfold loop
  split_ifs with hreturn
  · exact Or.inl ⟨h.shouldReturn_iff.mp hreturn, rfl⟩
  · exact Or.inr ⟨fun hdue => hreturn (h.shouldReturn_iff.mpr hdue), rfl⟩

theorem Inv.loop (h : Registered o s.tasks s) (hresult : s.result = none) :
    Inv o (loop o s) := by
  rcases loop_cases h with ⟨hdue, heq⟩ | ⟨hnot, heq⟩
  · rw [heq]
    exact Inv.finish h (h.shouldReturn_iff.mpr hdue)
  · rw [heq]
    have hsleep : ¬ o.ShouldReturn s.group := fun hreturn => hnot (h.shouldReturn_iff.mp hreturn)
    have hwaiting : Alert o { s.group with bell := { s.group.bell with sleeper := .waiting } } :=
      ⟨h.alert.rung, fun _ => hsleep, (fun hwoken => nomatch hwoken)⟩
    refine ⟨h.withBell hwaiting, ?_, fun order hsome => ?_⟩
    · rw [hresult]
      exact iff_of_false Bool.false_ne_true Sleeper.noConfusion
    · exact absurd (hresult.symm.trans hsome) (Option.some_ne_none _).symm

/-- All continuations are added, in the order of the tasks. -/
theorem Registered.addAll (h : Registered o pre s) (tasks : List τ) :
    Registered o (pre ++ tasks) (o.addAll pre.length tasks s) := by
  induction tasks generalizing pre s with
  | nil =>
    rw [List.append_nil]
    exact h
  | cons t tasks ih =>
    have hrest := ih (h.addOwn t)
    rw [List.length_append, List.append_assoc] at hrest
    exact hrest

@[simp] theorem tasks_addAll (tasks : List τ) (i : Nat) :
    (o.addAll i tasks s).tasks = s.tasks := by
  induction tasks generalizing i s with
  | nil => rfl
  | cons t tasks ih => exact ih (i + 1)

@[simp] theorem result_addAll (tasks : List τ) (i : Nat) :
    (o.addAll i tasks s).result = s.result := by
  induction tasks generalizing i s with
  | nil => rfl
  | cons t tasks ih => exact ih (i + 1)

@[simp] theorem isDone_addAll (tasks : List τ) (i : Nat) :
    (o.addAll i tasks s).isDone = s.isDone := by
  induction tasks generalizing i s with
  | nil => rfl
  | cons t tasks ih => exact (ih (i + 1)).trans isDone_addCompletion

@[simp] theorem failed_addAll (tasks : List τ) (i : Nat) :
    (o.addAll i tasks s).failed = s.failed := by
  induction tasks generalizing i s with
  | nil => rfl
  | cons t tasks ih => exact (ih (i + 1)).trans failed_addCompletion

theorem due_addAll (tasks : List τ) (i : Nat) : o.Due (o.addAll i tasks s) ↔ o.Due s := by
  unfold Due
  simp only [tasks_addAll, isDone_addAll, failed_addAll]

/-- With nothing to wait for, the early return does what the loop would do. -/
theorem call_eq_loop (h : Registered o [] s) : call o s = loop o (o.addAll 0 s.tasks s) := by
  unfold call
  split_ifs with hempty
  · have htasks : s.tasks = [] := List.isEmpty_iff.mp hempty
    have hregistered : Registered o s.tasks s := by rwa [htasks]
    have hdue : o.Due s := Or.inl fun t hmem => by simp [htasks] at hmem
    rw [htasks]
    rcases loop_cases hregistered with ⟨-, heq⟩ | ⟨hnot, -⟩
    · exact heq.symm
    · exact absurd hdue hnot
  · rfl

/-- A coroutine that has been woken puts down its flag if a task is left, and returns. -/
theorem resumed_eq_finish (h : Registered o s.tasks s) (hdue : o.Due s) :
    ∃ bell : Bell, bell.sleeper = s.group.bell.sleeper ∧
      resumed o s = finish o { s with group := { s.group with bell } } ∧
      Registered o s.tasks { s with group := { s.group with bell } } := by
  have hreturn := h.shouldReturn_iff.mpr hdue
  unfold resumed loop
  split_ifs with hmore hshould
  · refine ⟨{ s.group.bell with rung := false }, rfl, rfl, h.withBell ?_⟩
    exact ⟨fun _ => hreturn, h.alert.waiting, fun _ => hreturn⟩
  · exact absurd hreturn hshould
  · exact ⟨s.group.bell, rfl, rfl, h⟩

theorem step_complete {t : τ} (h : step o s (.complete t outcome) = some s') :
    (s.store t).outcome = none ∧ s' = o.completeTask t outcome s := by
  unfold step at h
  dsimp only at h
  split_ifs at h with hdone
  refine ⟨?_, (Option.some.inj h).symm⟩
  simpa [Observation.isDone] using hdone

theorem step_call (h : step o s .call = some s') :
    s.group.bell.sleeper = .before ∧ s' = call o s := by
  unfold step at h
  dsimp only at h
  split_ifs at h with hbefore
  exact ⟨hbefore, (Option.some.inj h).symm⟩

theorem step_resume (h : step o s .resume = some s') :
    s.group.bell.sleeper = .woken ∧ s' = resumed o s := by
  unfold step at h
  dsimp only at h
  split_ifs at h with hwoken
  exact ⟨hwoken, (Option.some.inj h).symm⟩

/-- Completing a task wakes the coroutine at most. -/
theorem sleeper_runAll (outcome : Except ε α) (continuations : List (Continuation ω))
    (group : WaitGroup ε) :
    (o.runAll outcome continuations group).bell = group.bell ∨
      (o.runAll outcome continuations group).bell = group.bell.ring := by
  induction continuations generalizing group with
  | nil => exact Or.inl rfl
  | cons continuation continuations ih =>
    cases continuation with
    | other k => exact ih group
    | own i =>
      have hrest := ih (o.continuation i outcome group)
      have hrun : o.runAll outcome (.own i :: continuations) group =
          o.runAll outcome continuations (o.continuation i outcome group) := rfl
      rw [hrun]
      rcases (told_continuation o i outcome group).bell with ⟨hring, -⟩ | ⟨hsame, -⟩
      · rw [hring, Bell.ring_of_rung (Bell.rung_ring _), or_self] at hrest
        exact Or.inr hrest
      · rwa [hsame] at hrest

theorem Registered.of_inv (h : Inv o s) (hcalled : s.group.bell.sleeper ≠ .before) :
    Registered o s.tasks s := by
  have hregistered := h.registered
  rwa [if_neg hcalled] at hregistered

/-- When the coroutine is called all continuations are added. -/
theorem Inv.addAll (h : Inv o s) (hbefore : s.group.bell.sleeper = .before) :
    Registered o [] s ∧ Registered o s.tasks (o.addAll 0 s.tasks s) := by
  have hregistered := h.registered
  rw [if_pos hbefore] at hregistered
  exact ⟨hregistered, hregistered.addAll s.tasks⟩

theorem Inv.running (h : Inv o s) (hsleeper : s.group.bell.sleeper ≠ .over) : s.result = none := by
  cases hresult : s.result with
  | none => rfl
  | some r => exact absurd (h.ended.mp (by rw [hresult]; rfl)) hsleeper

theorem Inv.step {action : ObserverAction τ α ε ω} (h : Inv o s)
    (hstep : step o s action = some s') : Inv o s' := by
  cases action with
  | complete t outcome =>
    obtain ⟨hpending, rfl⟩ := step_complete hstep
    have hcompleted := h.registered.complete hpending outcome
    have hgroup := group_completeTask (o := o) hpending outcome
    have hbell := sleeper_runAll (o := o) outcome (s.store t).continuations s.group
    rw [← hgroup] at hbell
    have hbefore : (o.completeTask t outcome s).group.bell.sleeper = .before ↔
        s.group.bell.sleeper = .before := by
      rcases hbell with hbell | hbell
      · rw [hbell]
      · rw [hbell, Bell.sleeper_ring_eq_before_iff]
    have hover : (o.completeTask t outcome s).group.bell.sleeper = .over ↔
        s.group.bell.sleeper = .over := by
      rcases hbell with hbell | hbell
      · rw [hbell]
      · rw [hbell, Bell.sleeper_ring_eq_over]
    refine ⟨?_, h.ended.trans hover.symm, fun order hresult => ?_⟩
    · rw [if_congr hbefore rfl rfl]
      exact hcompleted
    · obtain ⟨ho, horder, hall⟩ := h.ordered order hresult
      refine ⟨ho, ?_, fun u hmem => ?_⟩
      · -- the task is not one of those that were given, as these are done
        have hnot : t ∉ s.tasks := by
          intro hmem
          have hdone := hall t hmem
          rw [Observation.isDone, hpending] at hdone
          cases hdone
        have hregistered : Registered o s.tasks s := by
          refine Registered.of_inv h fun hbefore => ?_
          have hsome : s.result = some (.ordered order) := hresult
          have hended := h.ended.mp (by rw [hsome]; rfl)
          exact absurd (hbefore.symm.trans hended) Sleeper.noConfusion
        have hnone : (s.store t).continuations.filterMap Continuation.own? = [] := by
          rw [((hregistered.exact t).empty (congrArg Option.isSome hpending)).2,
            hregistered.added, List.findIdxs_eq_nil_iff]
          intro u hmem
          exact decide_eq_false fun hu => hnot (hu ▸ hmem)
        have htold := toldAll_runAll o outcome (s.store t).continuations s.group
        rw [← hgroup, hnone] at htold
        rw [htold.order, if_pos ho, List.append_nil]
        exact horder
      · rw [isDone_completeTask hpending, hall u hmem]
        rfl
  | add t k =>
    obtain rfl := Option.some.inj hstep
    have hgroup : (o.addCompletion t (.other k) s).group = s.group := group_addCompletion_other k
    refine ⟨?_, ?_, fun order hresult => ?_⟩
    · rw [hgroup]
      exact h.registered.addOther t k
    · rw [hgroup]
      exact h.ended
    · rw [hgroup, isDone_addCompletion]
      exact h.ordered order hresult
  | call =>
    obtain ⟨hbefore, rfl⟩ := step_call hstep
    obtain ⟨hnone, hall⟩ := h.addAll hbefore
    rw [call_eq_loop hnone]
    refine Inv.loop ?_ ?_
    · rw [tasks_addAll]
      exact hall
    · rw [result_addAll]
      exact h.running (by rw [hbefore]; exact Sleeper.noConfusion)
  | resume =>
    obtain ⟨hwoken, rfl⟩ := step_resume hstep
    have hregistered := Registered.of_inv h (by rw [hwoken]; exact Sleeper.noConfusion)
    have hdue := hregistered.shouldReturn_iff.mp (h.registered.alert.woken hwoken)
    obtain ⟨bell, -, hfinish, hafter⟩ := resumed_eq_finish hregistered hdue
    rw [hfinish]
    exact Inv.finish hafter (hafter.shouldReturn_iff.mpr hdue)

/-! ### What the coroutine returns -/

omit [DecidableEq τ] in
/-- The loop that tells the tasks that are done from the others. -/
theorem foldl_partition (p : τ → Bool) (tasks done pending : List τ) :
    tasks.foldl
        (fun (done, pending) t => if p t then (done ++ [t], pending) else (done, pending ++ [t]))
        (done, pending) =
      (done ++ tasks.filter p, pending ++ tasks.filter fun t => !p t) := by
  induction tasks generalizing done pending with
  | nil => simp
  | cons t tasks ih =>
    rw [List.foldl_cons]
    cases hp : p t with
    | true => simp [hp, ih]
    | false => simp [hp, ih]

omit [DecidableEq τ] in
theorem observed_wait (returnWhen : ReturnWhen) (s : Observation τ α ε ω) :
    observed (.wait returnWhen) s =
      .partitioned (s.tasks.filter s.isDone) (s.tasks.filter fun t => !s.isDone t) := by
  unfold observed
  rw [foldl_partition]
  rfl

/-- The coroutine returns only if it is due, and tells what there is to tell by then. -/
theorem Inv.returns {action : ObserverAction τ α ε ω} {r : Observed τ} (h : Inv o s)
    (hstep : o.step s action = some s') (hrunning : s.result = none)
    (hreturned : s'.result = some r) : o.Due s' ∧ r = o.observed s' := by
  have hnone : s'.result ≠ none := by simp [hreturned]
  cases action with
  | complete t outcome =>
    obtain ⟨-, rfl⟩ := step_complete hstep
    exact absurd hrunning hnone
  | add t k =>
    obtain rfl := Option.some.inj hstep
    exact absurd hrunning hnone
  | call =>
    obtain ⟨hbefore, rfl⟩ := step_call hstep
    obtain ⟨hempty, hall⟩ := h.addAll hbefore
    rw [call_eq_loop hempty] at hreturned hnone ⊢
    have hregistered : Registered o (o.addAll 0 s.tasks s).tasks (o.addAll 0 s.tasks s) := by
      rwa [tasks_addAll]
    rcases loop_cases hregistered with ⟨hdue, heq⟩ | ⟨-, heq⟩
    · rw [heq] at hreturned ⊢
      exact ⟨hdue, (Option.some.inj hreturned).symm⟩
    · rw [heq] at hnone
      exact absurd ((result_addAll _ _).trans hrunning) hnone
  | resume =>
    obtain ⟨hwoken, rfl⟩ := step_resume hstep
    have hregistered := Registered.of_inv h (by rw [hwoken]; exact Sleeper.noConfusion)
    have hdue := hregistered.shouldReturn_iff.mp (h.registered.alert.woken hwoken)
    obtain ⟨bell, -, hfinish, -⟩ := resumed_eq_finish hregistered hdue
    rw [hfinish] at hreturned ⊢
    exact ⟨hdue, (Option.some.inj hreturned).symm⟩

/-- Once the coroutine is due its next step ends it. -/
theorem Inv.ends (h : Inv o s) (hdue : o.Due s) (hrunning : s.result = none) :
    ∃ action s', (action = .call ∨ action = .resume) ∧ o.step s action = some s' ∧
      s'.result.isSome = true := by
  cases hsleeper : s.group.bell.sleeper with
  | before =>
    refine ⟨.call, o.call s, Or.inl rfl, if_pos hsleeper, ?_⟩
    obtain ⟨hempty, hall⟩ := h.addAll hsleeper
    have hregistered : Registered o (o.addAll 0 s.tasks s).tasks (o.addAll 0 s.tasks s) := by
      rwa [tasks_addAll]
    rw [call_eq_loop hempty]
    rcases loop_cases hregistered with ⟨-, heq⟩ | ⟨hnot, -⟩
    · rw [heq]
      rfl
    · exact absurd ((due_addAll _ _).mpr hdue) hnot
  | waiting =>
    have hregistered := Registered.of_inv h (by rw [hsleeper]; exact Sleeper.noConfusion)
    exact absurd (hregistered.shouldReturn_iff.mpr hdue) (h.registered.alert.waiting hsleeper)
  | woken =>
    refine ⟨.resume, o.resumed s, Or.inr rfl, if_pos hsleeper, ?_⟩
    have hregistered := Registered.of_inv h (by rw [hsleeper]; exact Sleeper.noConfusion)
    obtain ⟨bell, -, hfinish, -⟩ := resumed_eq_finish hregistered hdue
    rw [hfinish]
    rfl
  | _ =>
    have hended := h.ended.mpr hsleeper
    rw [hrunning] at hended
    cases hended

/-! ### The order in which the tasks are done -/

/-- Of the tasks that are given to `as_completed`, those that are done come first. -/
theorem order_addAll (tasks : List τ) (i : Nat) (s : Observation τ α ε ω) :
    (Observer.addAll .asCompleted i tasks s).group.order =
      s.group.order ++ tasks.findIdxs s.isDone i := by
  induction tasks generalizing i s with
  | nil => exact (List.append_nil _).symm
  | cons t tasks ih =>
    refine (ih (i + 1) (addCompletion .asCompleted t (.own i) s)).trans ?_
    rw [isDone_addCompletion, List.findIdxs_cons]
    cases houtcome : (s.store t).outcome with
    | none =>
      rw [group_addCompletion_of_pending houtcome, if_neg (by simp [Observation.isDone, houtcome])]
    | some outcome =>
      rw [group_addCompletion_of_done houtcome, if_pos (by simp [Observation.isDone, houtcome])]
      rw [(toldAll_runAll .asCompleted outcome [.own i] s.group).order, if_pos rfl,
        List.append_assoc]
      rfl

omit [DecidableEq τ] in
@[simp] theorem tasks_loop : (loop o s).tasks = s.tasks := by
  unfold loop
  split_ifs <;> rfl

omit [DecidableEq τ] in
@[simp] theorem order_loop : (loop o s).group.order = s.group.order := by
  unfold loop
  split_ifs <;> rfl

omit [DecidableEq τ] in
@[simp] theorem isDone_loop : (loop o s).isDone = s.isDone := by
  unfold loop
  split_ifs <;> rfl

/-- The tasks are given once and for all. -/
theorem tasks_step {action : ObserverAction τ α ε ω} (hstep : o.step s action = some s') :
    s'.tasks = s.tasks := by
  cases action with
  | complete t outcome =>
    obtain ⟨-, rfl⟩ := step_complete hstep
    rfl
  | add t k =>
    obtain rfl := Option.some.inj hstep
    rfl
  | call =>
    obtain ⟨-, rfl⟩ := step_call hstep
    unfold call
    split_ifs
    · rfl
    · rw [tasks_loop, tasks_addAll]
  | resume =>
    obtain ⟨-, rfl⟩ := step_resume hstep
    unfold resumed
    rw [tasks_loop]
    split_ifs <;> rfl

/-- A task is done when it has been completed. -/
theorem isDone_step {action : ObserverAction τ α ε ω} (hstep : o.step s action = some s') (u : τ) :
    s'.isDone u = true ↔ s.isDone u = true ∨ u ∈ completed [action] := by
  cases action with
  | complete t outcome =>
    obtain ⟨hpending, rfl⟩ := step_complete hstep
    rw [isDone_completeTask hpending]
    simp [completed]
  | add t k =>
    obtain rfl := Option.some.inj hstep
    rw [isDone_addCompletion]
    simp [completed]
  | call =>
    obtain ⟨-, rfl⟩ := step_call hstep
    have hsame : (o.call s).isDone = s.isDone := by
      unfold call
      split_ifs
      · rfl
      · rw [isDone_loop, isDone_addAll]
    rw [hsame]
    simp [completed]
  | resume =>
    obtain ⟨-, rfl⟩ := step_resume hstep
    have hsame : (o.resumed s).isDone = s.isDone := by
      unfold resumed
      rw [isDone_loop]
      split_ifs <;> rfl
    rw [hsame]
    simp [completed]

/-- Later the indices of each task follow when it is completed. -/
theorem order_step {action : ObserverAction τ α ε ω} (h : Inv .asCompleted s)
    (hcalled : s.group.bell.sleeper ≠ .before)
    (hstep : Observer.step .asCompleted s action = some s') :
    s'.group.bell.sleeper ≠ .before ∧
      s'.group.order = s.group.order ++
        (completed [action]).flatMap fun t => s.tasks.findIdxs fun u => decide (u = t) := by
  have hregistered := Registered.of_inv h hcalled
  cases action with
  | complete t outcome =>
    obtain ⟨hpending, rfl⟩ := step_complete hstep
    have hown : (s.store t).continuations.filterMap Continuation.own? =
        s.tasks.findIdxs fun u => decide (u = t) := by
      rw [((hregistered.exact t).empty (congrArg Option.isSome hpending)).2, hregistered.added]
    rw [group_completeTask hpending]
    constructor
    · intro hbefore
      rcases sleeper_runAll (o := .asCompleted) outcome (s.store t).continuations s.group with
        hbell | hbell
      · exact hcalled (hbell ▸ hbefore)
      · rw [hbell] at hbefore
        exact hcalled (Bell.sleeper_ring_eq_before hbefore)
    · rw [(toldAll_runAll .asCompleted outcome (s.store t).continuations s.group).order, if_pos rfl,
        hown]
      simp [completed]
  | add t k =>
    obtain rfl := Option.some.inj hstep
    rw [group_addCompletion_other]
    exact ⟨hcalled, (List.append_nil _).symm⟩
  | call =>
    obtain ⟨hbefore, -⟩ := step_call hstep
    exact absurd hbefore hcalled
  | resume =>
    obtain ⟨hwoken, rfl⟩ := step_resume hstep
    have hdue := hregistered.shouldReturn_iff.mp (h.registered.alert.woken hwoken)
    obtain ⟨bell, -, hfinish, -⟩ := resumed_eq_finish hregistered hdue
    rw [hfinish]
    exact ⟨Sleeper.noConfusion, (List.append_nil _).symm⟩

omit [DecidableEq τ] in
theorem completed_cons (action : ObserverAction τ α ε ω) (actions : List (ObserverAction τ α ε ω)) :
    completed (action :: actions) = completed [action] ++ completed actions := by
  cases action <;> rfl

theorem isDone_run {actions : List (ObserverAction τ α ε ω)}
    (hrun : exec o.step s actions = some s') (u : τ) :
    s'.isDone u = true ↔ s.isDone u = true ∨ u ∈ completed actions := by
  induction actions generalizing s with
  | nil =>
    obtain rfl := Option.some.inj hrun
    simp [completed]
  | cons action actions ih =>
    obtain ⟨s₁, hstep, hrest⟩ := exec_cons_eq_some.mp hrun
    rw [ih hrest, isDone_step hstep, completed_cons action actions, List.mem_append, or_assoc]

theorem order_run {actions : List (ObserverAction τ α ε ω)} (h : Inv .asCompleted s)
    (hcalled : s.group.bell.sleeper ≠ .before)
    (hrun : exec (Observer.step .asCompleted) s actions = some s') :
    s'.group.order = s.group.order ++
      (completed actions).flatMap fun t => s.tasks.findIdxs fun u => decide (u = t) := by
  induction actions generalizing s with
  | nil =>
    obtain rfl := Option.some.inj hrun
    exact (List.append_nil _).symm
  | cons action actions ih =>
    obtain ⟨s₁, hstep, hrest⟩ := exec_cons_eq_some.mp hrun
    obtain ⟨hcalled₁, horder⟩ := order_step h hcalled hstep
    rw [ih (h.step hstep) hcalled₁ hrest, horder, tasks_step hstep, completed_cons action actions,
      List.flatMap_append, List.append_assoc]

theorem tasks_run {actions : List (ObserverAction τ α ε ω)}
    (hrun : exec o.step s actions = some s') : s'.tasks = s.tasks := by
  induction actions generalizing s with
  | nil =>
    obtain rfl := Option.some.inj hrun
    rfl
  | cons action actions ih =>
    obtain ⟨s₁, hstep, hrest⟩ := exec_cons_eq_some.mp hrun
    exact (ih hrest).trans (tasks_step hstep)

/-- The order right after the call: the tasks that are done by then, as they were given. -/
theorem order_call (h : Inv .asCompleted s)
    (hstep : Observer.step .asCompleted s .call = some s') :
    s'.group.bell.sleeper ≠ .before ∧ s'.group.order = s.tasks.findIdxs s.isDone := by
  obtain ⟨hbefore, rfl⟩ := step_call hstep
  obtain ⟨hempty, hall⟩ := h.addAll hbefore
  have hfresh : s.group.order = [] := (hempty.ordered rfl).eq_nil
  rw [call_eq_loop hempty, order_loop, order_addAll, hfresh]
  refine ⟨?_, rfl⟩
  unfold loop
  split_ifs
  · exact Sleeper.noConfusion
  · exact Sleeper.noConfusion

omit [DecidableEq τ] in
/-- All indices, if all tasks are done. -/
theorem findIdxs_of_forall {p : τ → Bool} {tasks : List τ} (h : ∀ t ∈ tasks, p t = true) (i : Nat) :
    tasks.findIdxs p i = List.range' i tasks.length := by
  induction tasks generalizing i with
  | nil => rfl
  | cons t tasks ih =>
    rw [List.findIdxs_cons, if_pos (h t List.mem_cons_self), List.length_cons, List.range'_succ]
    exact congrArg (i :: ·) (ih (fun u hu => h u (List.mem_cons_of_mem t hu)) (i + 1))

/-- What `as_completed` returns. -/
theorem ordered_run {tasks : List τ} {before after : List (ObserverAction τ α ε ω)}
    {order : List Nat}
    (hrun : exec (Observer.step .asCompleted) (.start tasks) (before ++ .call :: after) = some s)
    (hreturned : s.result = some (.ordered order)) :
    order.Perm (List.range tasks.length) ∧
      order = (tasks.findIdxs fun t => decide (t ∈ completed before)) ++
        (completed after).flatMap fun t => tasks.findIdxs fun u => decide (u = t) := by
  obtain ⟨s₀, hs₀, hcall⟩ := exec_append_eq_some.mp hrun
  obtain ⟨s₁, hstep, hafter⟩ := exec_cons_eq_some.mp hcall
  have hinv₀ : Inv .asCompleted s₀ :=
    invariant_of_reaches (fun _ _ _ hs hstep => hs.step hstep) (inv_start _ tasks) ⟨before, hs₀⟩
  have hinv₁ := hinv₀.step hstep
  have hinv : Inv .asCompleted s :=
    invariant_of_reaches (fun _ _ _ hs hstep => hs.step hstep) hinv₁ ⟨after, hafter⟩
  have htasks₀ : s₀.tasks = tasks := tasks_run hs₀
  have htasks₁ : s₁.tasks = tasks := (tasks_step hstep).trans htasks₀
  have htasks : s.tasks = tasks := (tasks_run hafter).trans htasks₁
  obtain ⟨-, rfl, hall⟩ := hinv.ordered order hreturned
  obtain ⟨hcalled, horder₁⟩ := order_call hinv₀ hstep
  have horder := order_run hinv₁ hcalled hafter
  -- the tasks that are done at the call are those that have been completed before
  have hdone : s₀.isDone = fun t => decide (t ∈ completed before) := by
    funext t
    have hiff := isDone_run hs₀ t
    rw [Bool.eq_iff_iff, hiff, decide_eq_true_iff]
    exact or_iff_right Bool.false_ne_true
  constructor
  · have hcalled' : s.group.bell.sleeper ≠ .before := by
      intro hbefore
      have hover := hinv.ended.mp (by rw [hreturned]; rfl)
      exact absurd (hbefore.symm.trans hover) Sleeper.noConfusion
    have hperm := (Registered.of_inv hinv hcalled').ordered rfl
    rw [findIdxs_of_forall hall, htasks] at hperm
    rwa [List.range_eq_range']
  · rw [horder, horder₁, htasks₀, htasks₁, hdone]

/-- For all tasks that are given to `wait` or to `as_completed`, and in all runs: a continuation
has run, once, exactly if its task is done, and one is added for each task that is given; the
coroutine does not sleep once it is due, and returns with its next step; it does not return
before, and tells which tasks are done, or in which order they were. -/
theorem completions_observed_once (o : Observer) (tasks : List τ)
    (actions : List (ObserverAction τ α ε ω)) (s : Observation τ α ε ω)
    (hrun : exec o.step (.start tasks) actions = some s) :
    (∀ t, (s.store t).Exact) ∧
    (s.group.bell.sleeper ≠ .before → ∀ t, (s.store t).added.filterMap Continuation.own? =
      tasks.findIdxs fun u => decide (u = t)) ∧
    (s.group.bell.sleeper = .waiting → ¬ o.Due s) ∧
    (o.Due s → s.result = none → ∃ action s', (action = .call ∨ action = .resume) ∧
      o.step s action = some s' ∧ s'.result.isSome = true) ∧
    (∀ action s' r, o.step s action = some s' → s.result = none → s'.result = some r →
      o.Due s' ∧ ∀ returnWhen, o = .wait returnWhen →
        r = .partitioned (tasks.filter s'.isDone) (tasks.filter fun t => !s'.isDone t)) ∧
    (∀ before after order, o = .asCompleted → actions = before ++ .call :: after →
      s.result = some (.ordered order) →
        order.Perm (List.range tasks.length) ∧
          order = (tasks.findIdxs fun t => decide (t ∈ completed before)) ++
            (completed after).flatMap fun t => tasks.findIdxs fun u => decide (u = t)) := by
  have hinv : Inv o s :=
    invariant_of_reaches (fun _ _ _ hs hstep => hs.step hstep) (inv_start o tasks) ⟨actions, hrun⟩
  have htasks : s.tasks = tasks := tasks_run hrun
  refine ⟨hinv.registered.exact, fun hcalled => ?_, fun hwaiting hdue => ?_, hinv.ends, ?_, ?_⟩
  · rw [← htasks]
    exact (Registered.of_inv hinv hcalled).added
  · have hregistered := Registered.of_inv hinv (by rw [hwaiting]; exact Sleeper.noConfusion)
    exact hinv.registered.alert.waiting hwaiting (hregistered.shouldReturn_iff.mpr hdue)
  · intro action s' r hstep hrunning hreturned
    obtain ⟨hdue, hr⟩ := hinv.returns hstep hrunning hreturned
    refine ⟨hdue, fun returnWhen ho => ?_⟩
    subst ho
    rw [hr, observed_wait, tasks_step hstep, htasks]
  · intro before after order ho hsplit hreturned
    subst ho hsplit
    exact ordered_run hrun hreturned

/-- Of the tasks 7, 8 and 7 the second one is done at the call. -/
theorem as_completed_repeated :
    ∃ (actions : List (ObserverAction Nat Nat Nat Unit)) (s : Observation Nat Nat Nat Unit),
      exec (Observer.step .asCompleted) (.start [7, 8, 7]) actions = some s ∧
        s.result = some (.ordered [1, 0, 2]) ∧ [1, 0, 2].Perm (List.range 3) := by
  let before : List (ObserverAction Nat Nat Nat Unit) := [.complete 8 (.ok 1)]
  let after : List (ObserverAction Nat Nat Nat Unit) :=
    [.add 7 (), .complete 7 (.error 2), .resume]
  refine ⟨before ++ .call :: after, _, rfl, rfl, ?_⟩
  exact ((completions_observed_once .asCompleted [7, 8, 7] _ _ rfl).2.2.2.2.2 before after _ rfl rfl
    rfl).1

end Observer

end HttpClient.Asyncx
