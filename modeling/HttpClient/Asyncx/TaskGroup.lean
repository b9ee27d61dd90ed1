import Mathlib.Data.List.Basic
import HttpClient.Semantics.Machine

/-!
# Groups of tasks

A `TaskGroup` starts tasks, can cancel them all, and `join` awaits them in the order in which
they were created. For every task there is a second one that awaits it and throws its value away;
`join` awaits these. It passes over a task that has been cancelled, and throws the exception of
any other that has failed. The destructor cancels all tasks, unless a `join` has returned.

`join` does not ask why one of its waits has thrown a `CancelledError`. If its own coroutine has
been cancelled it passes over the task that it has waited for, and throws at the next one. If
there is no next one it returns, and the last task may still run.

The tasks run on one executor, where a step is what happens up to the next suspension. A
cancellation of a task is a request that it may ignore.

## Main definitions

* `GroupTask`, `Joining`, `TaskGroup` — the tasks, the coroutine that joins them, and the group
* `joinFrom` — the loop of `join` up to its next suspension
* `TaskGroup.step` — the steps

## Main results

* `join_awaits` — what has become of the tasks when a join returns or throws
* `group_orphans` — which tasks run on after the destructor without being asked to stop
-/

set_option autoImplicit false

namespace HttpClient.Asyncx

open Semantics

variable {ε : Type}

/-! ### The group -/

/-- A task of the group, with the task that awaits it. -/
structure GroupTask (ε : Type) where
  /-- How the task has ended. -/
  outcome : Option (Except ε Unit) := none
  cancelRequested : Bool := false
  /-- How the task has ended that awaits it. -/
  discarded : Option (Except ε Unit) := none
  deriving DecidableEq, Repr

inductive Joining (ε : Type) where
  | idle
  /-- Suspended in the wait for a task. -/
  | waiting (i : Nat)
  /-- That wait is over, and the coroutine is about to resume. -/
  | woken (i : Nat)
  /-- The loop has ended after so many tasks. -/
  | returned (count : Nat)
  | threw (error : ε)
  /-- An `await` has thrown because the coroutine has been cancelled. -/
  | cancelled
  /-- The vector of the loop has grown while it was suspended, which is undefined behaviour. -/
  | undefined
  deriving DecidableEq, Repr

/-- The coroutine is not in the middle of the loop. -/
def Joining.over : Joining ε → Bool
  | .idle | .returned _ | .threw _ | .cancelled => true
  | .waiting _ | .woken _ | .undefined => false

/-- The vectors of the group have an entry for each task. -/
structure TaskGroup (ε : Type) where
  tasks : List (GroupTask ε) := []
  joining : Joining ε := .idle
  /-- `joined_`, with the number of tasks that the last join has gone through. -/
  joined : Option Nat := none
  /-- The cancellation of the coroutine that joins has been signalled. -/
  cancelled : Bool := false
  /-- A task has been created while the loop was suspended. -/
  invalidated : Bool := false
  destroyed : Bool := false
  deriving DecidableEq, Repr

inductive GroupAction (ε : Type) where
  | createTask
  /-- A task is done. -/
  | complete (i : Nat) (outcome : Except ε Unit)
  /-- The task that awaits it is done. -/
  | discard (i : Nat)
  | cancel
  | join
  /-- The coroutine that joins is cancelled. -/
  | cancelJoin
  | resume
  | destroy

/-- The loop of `join`, from the task with a number on. -/
def joinFrom (isCancel : ε → Bool) (cancelled : Bool) : Nat → List (GroupTask ε) → Joining ε
  | i, [] => .returned i
  | i, task :: tasks =>
    -- a coroutine that has been cancelled throws where it is to await something
    if cancelled then .cancelled
    else
      match task.discarded with
      | none => .waiting i
      | some (.ok ()) => joinFrom isCancel cancelled (i + 1) tasks
      | some (.error error) =>
        if isCancel error then joinFrom isCancel cancelled (i + 1) tasks else .threw error

namespace TaskGroup

variable (isCancel : ε → Bool)

/-- The wait for a task is over. -/
def wake (group : TaskGroup ε) (i : Nat) : TaskGroup ε :=
  match group.joining with
  | .waiting j => if j = i then { group with joining := .woken i } else group
  | _ => group

/-- `TaskGroup::cancel` -/
def cancel (group : TaskGroup ε) : TaskGroup ε :=
  { group with tasks := group.tasks.map fun task => { task with cancelRequested := true } }

/-- The loop of `join` goes on. -/
def goOn (group : TaskGroup ε) (i : Nat) : TaskGroup ε :=
  match joinFrom isCancel group.cancelled i (group.tasks.drop i) with
  | .returned count => { group with joining := .returned count, joined := some count }
  | joining => { group with joining }

/-- The end of a wait in the loop. -/
def afterWait (group : TaskGroup ε) (i : Nat) (task : GroupTask ε) : TaskGroup ε :=
  match task.discarded with
  | none => group.goOn isCancel (i + 1)
  | some (.ok ()) => group.goOn isCancel (i + 1)
  | some (.error error) =>
    if isCancel error then group.goOn isCancel (i + 1) else { group with joining := .threw error }

/-- One step; `none` if it is not enabled. -/
def step (group : TaskGroup ε) : GroupAction ε → Option (TaskGroup ε)
  | .createTask =>
    if group.destroyed then none
    else
      some
        { group with
          tasks := group.tasks ++ [{}]
          invalidated := group.invalidated || !group.joining.over }
  | .complete i outcome =>
    match group.tasks[i]? with
    | some task =>
      match task.outcome with
      | none => some { group with tasks := group.tasks.set i { task with outcome := some outcome } }
      | some _ => none
    | none => none
  | .discard i =>
    match group.tasks[i]? with
    | some task =>
      match task.outcome, task.discarded with
      | some outcome, none =>
        some
          (wake { group with tasks := group.tasks.set i { task with discarded := some outcome } }
            i)
      | _, _ => none
    | none => none
  | .cancel => if group.destroyed then none else some group.cancel
  | .join =>
    if group.destroyed || !group.joining.over then none
    else if group.cancelled then some { group with joining := .cancelled }
    else some (goOn isCancel { group with invalidated := false } 0)
  | .cancelJoin =>
    match group.joining with
    | .waiting i => some { group with cancelled := true, joining := .woken i }
    | _ => some { group with cancelled := true }
  | .resume =>
    match group.joining with
    | .woken i =>
      match group.tasks[i]? with
      | some task =>
        if group.invalidated then some { group with joining := .undefined }
        else some (group.afterWait isCancel i task)
      | none => none
    | _ => none
  | .destroy =>
    if group.destroyed || !group.joining.over then none
    else
      match group.joined with
      | none => some { group.cancel with destroyed := true }
      | some _ => some { group with destroyed := true }

/-! ### What is to hold -/

/-- The task with this number is done, and has not failed. -/
def Awaited (group : TaskGroup ε) (i : Nat) : Prop :=
  ∃ task outcome, group.tasks[i]? = some task ∧ task.outcome = some outcome ∧
    ∀ error, outcome = .error error → isCancel error = true

/-- All of the first tasks have been awaited, the last perhaps not by a coroutine that has been
cancelled. -/
def AllAwaited (group : TaskGroup ε) (count : Nat) : Prop :=
  ∀ i < count, group.Awaited isCancel i ∨ group.cancelled = true ∧ i + 1 = count

/-- The exception is that of a task, and the tasks before it have not failed. -/
def FirstFailure (group : TaskGroup ε) (error : ε) : Prop :=
  ∃ i task, group.tasks[i]? = some task ∧ task.outcome = some (.error error) ∧
    isCancel error = false ∧ ∀ j < i, group.Awaited isCancel j

/-- Where the coroutine is agrees with what the tasks have done. -/
def Fits (group : TaskGroup ε) : Joining ε → Prop
  | .waiting i => ∀ j < i, group.Awaited isCancel j
  | .woken i =>
    (∀ j < i, group.Awaited isCancel j) ∧
      (group.cancelled = true ∨ ∃ task, group.tasks[i]? = some task ∧ task.discarded ≠ none)
  | .returned count => group.AllAwaited isCancel count
  | .threw error => group.FirstFailure isCancel error
  | .idle | .cancelled | .undefined => True

structure Sound (group : TaskGroup ε) : Prop where
  discarded : ∀ task ∈ group.tasks, ∀ outcome, task.discarded = some outcome →
    task.outcome = some outcome
  place : group.Fits isCancel group.joining
  joined : ∀ count, group.joined = some count → group.AllAwaited isCancel count
  left : group.destroyed = true → group.joining.over = true
  asked : group.destroyed = true → group.joined = none → ∀ task ∈ group.tasks,
    task.cancelRequested = true

/-- The tasks go on: what is done stays done. -/
def Later (tasks tasks' : List (GroupTask ε)) : Prop :=
  ∀ (i : Nat) (task : GroupTask ε), tasks[i]? = some task →
    ∃ task' : GroupTask ε, tasks'[i]? = some task' ∧
      (∀ outcome, task.outcome = some outcome → task'.outcome = some outcome) ∧
      (task.discarded ≠ none → task'.discarded ≠ none)

section

variable {isCancel} {group group' : TaskGroup ε} {tasks : List (GroupTask ε)} {i : Nat}

/-! ### The tasks go on -/

theorem Later.refl (tasks : List (GroupTask ε)) : Later tasks tasks := fun _ task h =>
  ⟨task, h, fun _ ho => ho, fun hd => hd⟩

theorem later_append (tasks new : List (GroupTask ε)) : Later tasks (tasks ++ new) := by
  intro i task h
  refine ⟨task, ?_, fun _ ho => ho, fun hd => hd⟩
  rw [List.getElem?_append_left (List.getElem?_eq_some_iff.mp h).1, h]

theorem later_set {task task' : GroupTask ε} (htask : tasks[i]? = some task)
    (houtcome : ∀ outcome, task.outcome = some outcome → task'.outcome = some outcome)
    (hdiscarded : task.discarded ≠ none → task'.discarded ≠ none) :
    Later tasks (tasks.set i task') := by
  have hi : i < tasks.length := (List.getElem?_eq_some_iff.mp htask).1
  intro j other hother
  by_cases h : i = j
  · subst h
    obtain rfl := Option.some.inj (htask.symm.trans hother)
    exact ⟨task', by rw [List.getElem?_set_self hi], houtcome, hdiscarded⟩
  · exact ⟨other, by rw [List.getElem?_set_ne h, hother], fun _ ho => ho, fun hd => hd⟩

theorem later_cancel (group : TaskGroup ε) : Later group.tasks group.cancel.tasks := by
  intro i task h
  refine ⟨{ task with cancelRequested := true }, ?_, fun _ ho => ho, fun hd => hd⟩
  rw [cancel, List.getElem?_map, h, Option.map_some]

theorem Awaited.later (hlater : Later group.tasks group'.tasks) (h : group.Awaited isCancel i) :
    group'.Awaited isCancel i := by
  obtain ⟨task, outcome, htask, houtcome, hharmless⟩ := h
  obtain ⟨task', htask', hkept, -⟩ := hlater i task htask
  exact ⟨task', outcome, htask', hkept outcome houtcome, hharmless⟩

theorem AllAwaited.later {count : Nat} (hlater : Later group.tasks group'.tasks)
    (hcancelled : group.cancelled = true → group'.cancelled = true)
    (h : group.AllAwaited isCancel count) : group'.AllAwaited isCancel count :=
  fun i hi => (h i hi).imp (.later hlater) (.imp_left hcancelled)

/-- Where the coroutine is still agrees with what the tasks have done. -/
theorem Fits.later {joining : Joining ε} (hlater : Later group.tasks group'.tasks)
    (hcancelled : group.cancelled = true → group'.cancelled = true)
    (h : group.Fits isCancel joining) : group'.Fits isCancel joining := by
  cases joining with
  | idle | cancelled | undefined => trivial
  | waiting i => exact fun j hj => (h j hj).later hlater
  | woken i =>
    refine ⟨fun j hj => (h.1 j hj).later hlater, h.2.imp hcancelled ?_⟩
    rintro ⟨task, htask, hdiscarded⟩
    obtain ⟨task', htask', -, hkept⟩ := hlater i task htask
    exact ⟨task', htask', hkept hdiscarded⟩
  | returned count => exact AllAwaited.later hlater hcancelled h
  | threw error =>
    obtain ⟨i, task, htask, houtcome, hfails, hbefore⟩ := h
    obtain ⟨task', htask', hkept, -⟩ := hlater i task htask
    exact ⟨i, task', htask', hkept _ houtcome, hfails, fun j hj => (hbefore j hj).later hlater⟩

/-! ### The loop -/

/-- A task whose outcome has been thrown away without an exception of its own. -/
theorem Sound.awaited (h : group.Sound isCancel) {task : GroupTask ε} {outcome : Except ε Unit}
    (htask : group.tasks[i]? = some task) (hdiscarded : task.discarded = some outcome)
    (hharmless : ∀ error, outcome = .error error → isCancel error = true) :
    group.Awaited isCancel i :=
  ⟨task, outcome, htask, h.discarded task (List.mem_of_getElem? htask) outcome hdiscarded,
    hharmless⟩

theorem Sound.firstFailure (h : group.Sound isCancel) {task : GroupTask ε} {error : ε}
    (htask : group.tasks[i]? = some task) (hdiscarded : task.discarded = some (.error error))
    (hfails : isCancel error = false) (hbefore : ∀ j < i, group.Awaited isCancel j) :
    group.FirstFailure isCancel error :=
  ⟨i, task, htask, h.discarded task (List.mem_of_getElem? htask) _ hdiscarded, hfails, hbefore⟩

/-- The loop up to its next suspension. -/
theorem Sound.fits_joinFrom (h : group.Sound isCancel) (hawaited : group.AllAwaited isCancel i)
    (htasks : group.tasks.drop i = tasks) :
    group.Fits isCancel (joinFrom isCancel group.cancelled i tasks) := by
  induction tasks generalizing i with
  | nil => exact hawaited
  | cons task tasks ih =>
    have htask : group.tasks[i]? = some task := by
      rw [← List.head?_drop, htasks, List.head?_cons]
    have hdrop : group.tasks.drop (i + 1) = tasks := by
      rw [← List.tail_drop, htasks, List.tail_cons]
    rw [joinFrom]
    cases hcancelled : group.cancelled with
    | true => trivial
    | false =>
      -- the coroutine has not been cancelled, so nothing has been passed over
      have hbefore : ∀ j < i, group.Awaited isCancel j := fun j hj =>
        (hawaited j hj).resolve_right fun hlast => by simp [hcancelled] at hlast
      have hnext : group.Awaited isCancel i → group.AllAwaited isCancel (i + 1) :=
        fun hi j hj => .inl ((Nat.lt_succ_iff_lt_or_eq.mp hj).elim (hbefore j) (· ▸ hi))
      rw [if_neg Bool.false_ne_true]
      cases hdiscarded : task.discarded with
      | none => exact hbefore
      | some outcome =>
        cases outcome with
        | ok value =>
          have hi := h.awaited htask hdiscarded fun _ herror => nomatch herror
          rw [← hcancelled]
          exact ih (hnext hi) hdrop
        | error error =>
          dsimp only
          cases hfails : isCancel error with
          | true =>
            have hi := h.awaited htask hdiscarded fun _ herror => by
              rw [← Except.error.inj herror, hfails]
            rw [if_pos rfl, ← hcancelled]
            exact ih (hnext hi) hdrop
          | false =>
            rw [if_neg Bool.false_ne_true]
            exact h.firstFailure htask hdiscarded hfails hbefore

/-- A loop that ends has gone through all tasks. -/
theorem eq_of_joinFrom_returned {cancelled : Bool} {count : Nat}
    (h : joinFrom isCancel cancelled i tasks = .returned count) : count = i + tasks.length := by
  induction tasks generalizing i with
  | nil => exact (Joining.returned.inj h).symm
  | cons task tasks ih =>
    rw [joinFrom] at h
    have hlength : ∀ {n : Nat}, n = i + 1 + tasks.length → n = i + (task :: tasks).length :=
      fun hn => by rw [hn, List.length_cons]; omega
    split at h
    · cases h
    · split at h
      · cases h
      · exact hlength (ih h)
      · split_ifs at h
        exact hlength (ih h)

@[simp] theorem goOn_tasks (group : TaskGroup ε) (i : Nat) :
    (group.goOn isCancel i).tasks = group.tasks := by
  unfold goOn
  split <;> rfl

@[simp] theorem goOn_cancelled (group : TaskGroup ε) (i : Nat) :
    (group.goOn isCancel i).cancelled = group.cancelled := by
  unfold goOn
  split <;> rfl

@[simp] theorem goOn_destroyed (group : TaskGroup ε) (i : Nat) :
    (group.goOn isCancel i).destroyed = group.destroyed := by
  unfold goOn
  split <;> rfl

@[simp] theorem goOn_joining (group : TaskGroup ε) (i : Nat) :
    (group.goOn isCancel i).joining =
      joinFrom isCancel group.cancelled i (group.tasks.drop i) := by
  unfold goOn
  split
  case h_1 count hreturned => exact hreturned.symm
  case h_2 => rfl

theorem goOn_joined {count : Nat} (h : (group.goOn isCancel i).joined = some count) :
    (group.goOn isCancel i).joining = .returned count ∨ group.joined = some count := by
  unfold goOn at h ⊢
  split at h
  case h_1 n hreturned => exact .inl (congrArg Joining.returned (Option.some.inj h))
  case h_2 => exact .inr h

/-! ### Steps -/

/-- A step that leaves the tasks and the joins as they are. -/
theorem Sound.move (h : group.Sound isCancel) (htasks : group'.tasks = group.tasks)
    (hcancelled : group.cancelled = true → group'.cancelled = true)
    (hdestroyed : group'.destroyed = group.destroyed) (hjoined : group'.joined = group.joined)
    (hleft : group.destroyed = true → group'.joining.over = true)
    (hplace : group'.Fits isCancel group'.joining) : group'.Sound isCancel where
  discarded := by rw [htasks]; exact h.discarded
  place := hplace
  joined count hcount :=
    (h.joined count (hjoined ▸ hcount)).later (htasks ▸ .refl _) hcancelled
  left := by rw [hdestroyed]; exact hleft
  asked := by rw [htasks, hdestroyed, hjoined]; exact h.asked

theorem Sound.goOn (h : group.Sound isCancel) (hopen : group.destroyed = false)
    (hawaited : group.AllAwaited isCancel i) : (group.goOn isCancel i).Sound isCancel := by
  have hlater : Later group.tasks (group.goOn isCancel i).tasks := by
    rw [goOn_tasks]; exact .refl _
  have hplace : (group.goOn isCancel i).Fits isCancel (group.goOn isCancel i).joining := by
    rw [goOn_joining]
    exact (h.fits_joinFrom hawaited rfl).later hlater (by simp)
  refine ⟨by simpa using h.discarded, hplace, fun count hcount => ?_, by simp [hopen],
    by simp [hopen]⟩
  rcases goOn_joined hcount with hreturned | hold
  · rw [hreturned] at hplace
    exact hplace
  · exact (h.joined count hold).later hlater (by simp)

/-- The end of a wait, after which the loop goes on or throws. -/
theorem Sound.afterWait (h : group.Sound isCancel) (hopen : group.destroyed = false)
    {task : GroupTask ε} (hwoken : group.joining = .woken i) (htask : group.tasks[i]? = some task) :
    (group.afterWait isCancel i task).Sound isCancel := by
  obtain ⟨hbefore, hdone⟩ := (show group.Fits isCancel (.woken i) from hwoken ▸ h.place)
  have hnext : (group.Awaited isCancel i ∨ group.cancelled = true) →
      group.AllAwaited isCancel (i + 1) := by
    intro hi j hj
    rcases Nat.lt_succ_iff_lt_or_eq.mp hj with hlt | rfl
    · exact .inl (hbefore j hlt)
    · exact hi.imp_right fun hcancelled => ⟨hcancelled, rfl⟩
  unfold TaskGroup.afterWait
  split
  case h_1 hopenTask =>
    -- the wait has been cancelled, and the task is passed over
    refine h.goOn hopen (hnext (.inr (hdone.resolve_right ?_)))
    rintro ⟨other, hother, hdiscarded⟩
    obtain rfl := Option.some.inj (htask.symm.trans hother)
    exact hdiscarded hopenTask
  case h_2 hdiscarded =>
    exact h.goOn hopen (hnext (.inl (h.awaited htask hdiscarded fun _ herror => nomatch herror)))
  case h_3 error hdiscarded =>
    split
    case isTrue hcancel =>
      refine h.goOn hopen (hnext (.inl (h.awaited htask hdiscarded fun _ herror => ?_)))
      rw [← Except.error.inj herror, hcancel]
    case isFalse hfails =>
      have hthrew := h.firstFailure htask hdiscarded (eq_false_of_ne_true hfails) hbefore
      exact h.move rfl id rfl rfl (fun _ => rfl) hthrew

/-- A task goes on, and the coroutine perhaps with it. -/
theorem Sound.setTask (h : group.Sound isCancel) {task task' : GroupTask ε}
    {joining : Joining ε} (htask : group.tasks[i]? = some task)
    (houtcome : ∀ outcome, task.outcome = some outcome → task'.outcome = some outcome)
    (hdiscarded : ∀ outcome, task'.discarded = some outcome → task'.outcome = some outcome)
    (hkept : task.discarded ≠ none → task'.discarded ≠ none)
    (hasked : task'.cancelRequested = task.cancelRequested)
    (hleft : group.destroyed = true → joining.over = true)
    (hplace : ∀ group' : TaskGroup ε, group'.tasks = group.tasks.set i task' →
      group'.cancelled = group.cancelled → group'.Fits isCancel joining) :
    Sound isCancel { group with tasks := group.tasks.set i task', joining } where
  discarded other hother := by
    rcases List.mem_or_eq_of_mem_set hother with hold | rfl
    · exact h.discarded other hold
    · exact hdiscarded
  place := hplace _ rfl rfl
  joined count hcount :=
    (h.joined count hcount).later (later_set htask houtcome hkept) id
  left := hleft
  asked hdestroyed hnone other hother := by
    rcases List.mem_or_eq_of_mem_set hother with hold | rfl
    · exact h.asked hdestroyed hnone other hold
    · exact hasked.trans (h.asked hdestroyed hnone task (List.mem_of_getElem? htask))

theorem wake_cases (group : TaskGroup ε) (i : Nat) :
    ∃ joining, group.wake i = { group with joining } ∧
      (joining = group.joining ∨ group.joining = .waiting i ∧ joining = .woken i) := by
  unfold wake
  split
  case h_1 j hwaiting =>
    split
    case isTrue hj => exact ⟨_, rfl, .inr ⟨hj ▸ hwaiting, rfl⟩⟩
    case isFalse => exact ⟨_, rfl, .inl rfl⟩
  case h_2 => exact ⟨_, rfl, .inl rfl⟩

/-- The outcome of a task is thrown away, and the coroutine is woken if it has waited for it. -/
theorem Sound.discard (h : group.Sound isCancel) {task : GroupTask ε} {outcome : Except ε Unit}
    (htask : group.tasks[i]? = some task) (hdone : task.outcome = some outcome) :
    (wake { group with tasks := group.tasks.set i { task with discarded := some outcome } }
      i).Sound isCancel := by
  obtain ⟨joining, hwake, hjoining⟩ := wake_cases
    { group with tasks := group.tasks.set i { task with discarded := some outcome } } i
  have hlater : Later group.tasks (group.tasks.set i { task with discarded := some outcome }) :=
    later_set htask (fun _ ho => ho) fun _ => Option.some_ne_none outcome
  rw [hwake]
  refine h.setTask htask (fun _ ho => ho) (fun o ho => hdone.trans ho)
    (fun _ => Option.some_ne_none outcome) rfl (fun hdestroyed => ?_)
    fun group' htasks hcancelled => ?_
  · have hover := h.left hdestroyed
    rcases hjoining with rfl | ⟨hwaiting, rfl⟩
    · exact hover
    · -- nothing waits in a group that is destroyed
      rw [show group.joining = .waiting i from hwaiting] at hover
      cases hover
  · rcases hjoining with rfl | ⟨hwaiting, rfl⟩
    · exact h.place.later (htasks ▸ hlater) (hcancelled ▸ id)
    · -- the coroutine has waited for this task
      have hbefore : group.Fits isCancel (.waiting i) := hwaiting ▸ h.place
      refine ⟨fun j hj => (hbefore j hj).later (htasks ▸ hlater),
        .inr ⟨{ task with discarded := some outcome }, ?_, Option.some_ne_none outcome⟩⟩
      rw [htasks, List.getElem?_set_self (List.getElem?_eq_some_iff.mp htask).1]

/-- A group is destroyed that no join has gone through. -/
theorem Sound.destroyCancelling (h : group.Sound isCancel) (hover : group.joining.over = true)
    (hnone : group.joined = none) : Sound isCancel { group.cancel with destroyed := true } := by
  refine ⟨fun task htask outcome hdiscarded => ?_, h.place.later (later_cancel group) id,
    fun count hcount => (nomatch hnone.symm.trans hcount), fun _ => hover,
    fun _ _ task htask => ?_⟩
  · obtain ⟨old, hold, rfl⟩ := List.mem_map.mp htask
    exact h.discarded old hold outcome hdiscarded
  · obtain ⟨old, -, rfl⟩ := List.mem_map.mp htask
    rfl

theorem Sound.step {action : GroupAction ε} (h : group.Sound isCancel)
    (hstep : group.step isCancel action = some group') : group'.Sound isCancel := by
  unfold TaskGroup.step at hstep
  cases action with
  | createTask =>
    dsimp only at hstep
    split at hstep
    case isTrue => cases hstep
    case isFalse hopen =>
      obtain rfl := Option.some.inj hstep
      have hlater := later_append group.tasks [{}]
      refine ⟨fun task htask outcome hdiscarded => ?_, h.place.later hlater id,
        fun count hcount => (h.joined count hcount).later hlater id,
        fun hdestroyed => absurd hdestroyed hopen, fun hdestroyed => absurd hdestroyed hopen⟩
      rcases List.mem_append.mp htask with hold | hnew
      · exact h.discarded task hold outcome hdiscarded
      · rw [List.mem_singleton.mp hnew] at hdiscarded
        cases hdiscarded
  | complete i outcome =>
    dsimp only at hstep
    split at hstep
    case h_1 task htask =>
      split at hstep
      case h_1 hrunning =>
        obtain rfl := Option.some.inj hstep
        have hkept : ∀ o, task.outcome = some o → some outcome = some o :=
          fun o ho => nomatch hrunning.symm.trans ho
        refine h.setTask htask hkept (fun o ho => ?_) id rfl h.left
          fun group' htasks hcancelled => h.place.later ?_ (hcancelled ▸ id)
        · exact hkept o (h.discarded task (List.mem_of_getElem? htask) o ho)
        · rw [htasks]
          exact later_set htask hkept id
      case h_2 => cases hstep
    case h_2 => cases hstep
  | discard i =>
    dsimp only at hstep
    split at hstep
    case h_1 task htask =>
      split at hstep
      case h_1 outcome hdone hopen =>
        obtain rfl := Option.some.inj hstep
        exact h.discard htask hdone
      case h_2 => cases hstep
    case h_2 => cases hstep
  | cancel =>
    dsimp only at hstep
    split at hstep
    case isTrue => cases hstep
    case isFalse hopen =>
      obtain rfl := Option.some.inj hstep
      have hlater := later_cancel group
      refine ⟨fun task htask outcome hdiscarded => ?_, h.place.later hlater id,
        fun count hcount => (h.joined count hcount).later hlater id,
        fun hdestroyed => absurd hdestroyed hopen, fun hdestroyed => absurd hdestroyed hopen⟩
      obtain ⟨old, hold, rfl⟩ := List.mem_map.mp htask
      exact h.discarded old hold outcome hdiscarded
  | join =>
    dsimp only at hstep
    split at hstep
    case isTrue => cases hstep
    case isFalse hopen =>
      rw [Bool.not_eq_true, Bool.or_eq_false_iff] at hopen
      split at hstep
      case isTrue =>
        obtain rfl := Option.some.inj hstep
        exact h.move rfl id rfl rfl (fun _ => rfl) trivial
      case isFalse =>
        obtain rfl := Option.some.inj hstep
        have hsame : Sound isCancel { group with invalidated := false } :=
          h.move rfl id rfl rfl h.left (h.place.later (.refl _) id)
        exact hsame.goOn hopen.1 fun i hi => absurd hi (Nat.not_lt_zero i)
  | cancelJoin =>
    dsimp only at hstep
    split at hstep
    case h_1 i hwaiting =>
      obtain rfl := Option.some.inj hstep
      have hbefore : group.Fits isCancel (.waiting i) := hwaiting ▸ h.place
      exact h.move rfl (fun _ => rfl) rfl rfl
        (fun hdestroyed => nomatch hwaiting ▸ h.left hdestroyed)
        ⟨fun j hj => (hbefore j hj).later (.refl _), .inl rfl⟩
    case h_2 =>
      obtain rfl := Option.some.inj hstep
      have hsame : Later group.tasks ({ group with cancelled := true } : TaskGroup ε).tasks :=
        .refl _
      exact h.move rfl (fun _ => rfl) rfl rfl h.left (h.place.later hsame fun _ => rfl)
  | resume =>
    dsimp only at hstep
    split at hstep
    case h_1 i hwoken =>
      have hsuspended : group.joining.over = false := by rw [hwoken]; rfl
      split at hstep
      case h_1 task htask =>
        split at hstep
        case isTrue =>
          obtain rfl := Option.some.inj hstep
          exact h.move rfl id rfl rfl
            (fun hdestroyed => nomatch hsuspended.symm.trans (h.left hdestroyed)) trivial
        case isFalse =>
          obtain rfl := Option.some.inj hstep
          refine h.afterWait (eq_false_of_ne_true fun hdestroyed => ?_) hwoken htask
          exact nomatch hsuspended.symm.trans (h.left hdestroyed)
      case h_2 => cases hstep
    case h_2 => cases hstep
  | destroy =>
    dsimp only at hstep
    split at hstep
    case isTrue => cases hstep
    case isFalse hopen =>
      rw [Bool.not_eq_true, Bool.or_eq_false_iff, Bool.not_eq_false'] at hopen
      split at hstep
      case h_1 hnone =>
        obtain rfl := Option.some.inj hstep
        exact h.destroyCancelling hopen.2 hnone
      case h_2 count hcount =>
        obtain rfl := Option.some.inj hstep
        exact ⟨h.discarded, h.place.later (.refl _) id,
          fun n hn => (h.joined n hn).later (.refl _) id, fun _ => hopen.2,
          fun _ hnone => nomatch hcount.symm.trans hnone⟩

theorem sound_of_reaches (hreach : Reaches (step isCancel) {} group) : group.Sound isCancel := by
  refine invariant_of_reaches (fun _ _ _ h hstep => Sound.step h hstep) ?_ hreach
  exact ⟨fun _ h => (nomatch h), trivial, fun _ h => (nomatch h), fun h => (nomatch h),
    fun h => (nomatch h)⟩

/-! ### The end of a join -/

/-- A join that returns has gone through all tasks. -/
theorem returned_all {count : Nat} {action : GroupAction ε}
    (haction : action = .join ∨ action = .resume)
    (hstep : group.step isCancel action = some group')
    (hreturned : group'.joining = .returned count) : count = group'.tasks.length := by
  have hgoOn : ∀ {g : TaskGroup ε} {i : Nat}, i ≤ g.tasks.length →
      (g.goOn isCancel i).joining = .returned count →
        count = (g.goOn isCancel i).tasks.length := by
    intro g i hi hjoining
    rw [goOn_joining] at hjoining
    rw [goOn_tasks, eq_of_joinFrom_returned hjoining, List.length_drop]
    omega
  unfold TaskGroup.step at hstep
  rcases haction with rfl | rfl
  · dsimp only at hstep
    split at hstep
    case isTrue => cases hstep
    case isFalse =>
      split at hstep
      case isTrue =>
        obtain rfl := Option.some.inj hstep
        cases hreturned
      case isFalse =>
        obtain rfl := Option.some.inj hstep
        exact hgoOn (Nat.zero_le _) hreturned
  · dsimp only at hstep
    split at hstep
    case h_1 i hwoken =>
      split at hstep
      case h_1 task htask =>
        have hi : i + 1 ≤ group.tasks.length := (List.getElem?_eq_some_iff.mp htask).1
        split at hstep
        case isTrue =>
          obtain rfl := Option.some.inj hstep
          cases hreturned
        case isFalse =>
          obtain rfl := Option.some.inj hstep
          unfold TaskGroup.afterWait at hreturned ⊢
          split at hreturned
          case h_1 => exact hgoOn hi hreturned
          case h_2 => exact hgoOn hi hreturned
          case h_3 error _ =>
            split at hreturned
            case isTrue hcancel =>
              rw [if_pos hcancel]
              exact hgoOn hi hreturned
            case isFalse => cases hreturned
      case h_2 => cases hstep
    case h_2 => cases hstep

end

end TaskGroup

/-- The first of two tasks returns, and the second fails. An exception is `true` for a
cancellation. -/
def oneFails : List (GroupAction Bool) :=
  [.createTask, .createTask, .join, .complete 1 (.error false), .discard 1, .complete 0 (.ok ()),
    .discard 0]

def joinOfOneFailing : TaskGroup Bool where
  tasks :=
    [{ outcome := some (.ok ()), discarded := some (.ok ()) },
      { outcome := some (.error false), discarded := some (.error false) }]
  joining := .woken 0

theorem exec_oneFails : exec (TaskGroup.step id) {} oneFails = some joinOfOneFailing := by decide

theorem step_oneFails : joinOfOneFailing.step id .resume =
    some { joinOfOneFailing with joining := .threw false } := by
  decide

/-- A task that is not done after the destructor has been asked to stop, or a join has returned
and the task is a later one, or it is the last one and the coroutine has been cancelled. -/
theorem group_orphans {isCancel : ε → Bool} {group : TaskGroup ε} {i : Nat} {task : GroupTask ε}
    (hreach : Reaches (TaskGroup.step isCancel) {} group) (hdestroyed : group.destroyed = true)
    (htask : group.tasks[i]? = some task) (hrunning : task.outcome = none) :
    task.cancelRequested = true ∨
      ∃ count, group.joined = some count ∧
        (count ≤ i ∨ group.cancelled = true ∧ i + 1 = count) := by
  have hsound := TaskGroup.sound_of_reaches hreach
  cases hjoined : group.joined with
  | none => exact .inl (hsound.asked hdestroyed hjoined task (List.mem_of_getElem? htask))
  | some count =>
    refine .inr ⟨count, rfl, ?_⟩
    rcases Nat.lt_or_ge i count with hlt | hge
    · refine .inr ((hsound.joined count hjoined i hlt).resolve_left ?_)
      -- the task would be done
      rintro ⟨other, outcome, hother, houtcome, -⟩
      obtain rfl := Option.some.inj (htask.symm.trans hother)
      exact nomatch hrunning.symm.trans houtcome
    · exact .inl hge

/-- A coroutine is cancelled while it joins its only task. -/
def cancelledJoin : List (GroupAction Bool) :=
  [.createTask, .join, .cancelJoin, .resume, .destroy]

def leftRunning : TaskGroup Bool where
  tasks := [{}]
  joining := .returned 1
  joined := some 1
  cancelled := true
  destroyed := true

theorem exec_cancelledJoin : exec (TaskGroup.step id) {} cancelledJoin = some leftRunning := by
  decide

theorem group_orphans_cancelledJoin :
    ({} : GroupTask Bool).cancelRequested = true ∨
      ∃ count, leftRunning.joined = some count ∧
        (count ≤ 0 ∨ leftRunning.cancelled = true ∧ 0 + 1 = count) :=
  group_orphans ⟨cancelledJoin, exec_cancelledJoin⟩ rfl rfl rfl

end HttpClient.Asyncx
