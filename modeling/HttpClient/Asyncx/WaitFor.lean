import HttpClient.Asyncx.Combinators

/-!
# Waiting with a timeout

`wait_for` races a task against a sleep and reads the two slots that `race` returns: if the
sleep has filled its slot the time is over, otherwise it takes the value out of the slot of the
task, without looking whether there is one.

`race` fills no slot when the task has ended by a cancellation, which it passes over like those
it has caused itself. And it does not ask why its timer was cancelled. A cancellation of the
coroutine cancels it too, and then `race` returns what there is, perhaps nothing.

## Main definitions

* `Ending`, `endOf` — how a coroutine ends that takes a value out of a slot
* `WaitFor`, `WaitForAction`, `WaitFor.step` — the coroutine and the waiters of its race
* `WaitFor.Honest` — it ends as its task has ended, by the timeout, or cancelled
* `WaitFor.Reports` — when it resumes there is something to report

## Main results

* `WaitFor.honest_resume_iff` — one resumption
* `wait_for_honest_iff` — the runs in which `wait_for` is honest
* `wait_for_takes_nothing` — runs in which it takes a value out of an empty slot
-/

set_option autoImplicit false

namespace HttpClient.Asyncx

open Semantics

variable {α ε : Type}

/-! ### How a coroutine ends -/

inductive Ending (α ε : Type) where
  | returns (value : α)
  /-- It returns and has no value to return. -/
  | finishes
  | throws (error : ε)
  /-- It throws a `TimeoutError`. -/
  | timesOut
  /-- It throws because it has been cancelled. -/
  | cancelled
  /-- It takes a value out of an empty optional, which is undefined behaviour. -/
  | takesNothing
  deriving DecidableEq, Repr

/-- The end of a coroutine that returns the value in a slot, if its type is not `void`. -/
def endOf (isVoid : Bool) (slot : Option α) : Ending α ε :=
  if isVoid then .finishes
  else
    match slot with
    | some value => .returns value
    | none => .takesNothing

/-! ### The coroutine -/

/-- The slots of the race: the first is that of the task, the second that of the sleep. -/
abbrev Slot (α : Type) := α ⊕ Unit

structure WaitFor (α ε : Type) where
  group : Group (Slot α) ε (Except ε (List (Option (Slot α)))) := Group.start 2
  /-- The cancellation of the coroutine has been signalled. -/
  cancelled : Bool := false
  ending : Option (Ending α ε) := none

inductive WaitForAction (α ε : Type) where
  /-- The task is done, for whatever reason. -/
  | taskDone (outcome : Except ε α)
  /-- The time of the sleep is over. -/
  | elapsed
  /-- The sleep is done because the race has cancelled it. -/
  | sleepCancelled (error : ε)
  | runWaiter (i : Nat)
  /-- All waiters have been spawned, and the coroutine begins to wait. -/
  | spawned
  /-- The cancellation of the coroutine is signalled. -/
  | cancel
  | resume

/-- An end that is true of how the task and the sleep have ended and of whether the coroutine
has been cancelled. -/
def Ending.TrueOf (task sleep : Option (Except ε (Slot α)))
    (cancelled : Bool) : Ending α ε → Prop
  | .returns value => task = some (.ok (.inl value))
  | .finishes => ∃ value, task = some (.ok value)
  | .throws error => task = some (.error error)
  | .timesOut => ∃ value, sleep = some (.ok value)
  | .cancelled => cancelled = true
  | .takesNothing => False

namespace WaitFor

/-- What `wait_for` does with the result of the race. -/
def readSlots (isVoid : Bool) : Except ε (List (Option (Slot α))) → Ending α ε
  | .error error => .throws error
  | .ok slots =>
    -- the slot of the sleep is looked at first
    if (slots[1]?.join).isSome then .timesOut
    else endOf isVoid (slots[0]?.join.bind Sum.getLeft?)

/-- A cancellation aborts a wait that has begun. -/
def signal (s : WaitFor α ε) : WaitFor α ε :=
  let sleeper :=
    -- a wait that has not begun is not aborted here: it throws when it is to begin
    match s.group.bell.sleeper with
    | .waiting => .woken
    | sleeper => sleeper
  { s with
    cancelled := true
    group := { s.group with bell := { s.group.bell with sleeper } } }

/-- A step of the race. -/
def move (isCancel : ε → Bool) (s : WaitFor α ε) (action : GatherAction (Slot α) ε) :
    Option (WaitFor α ε) :=
  ((race isCancel).step s.group action).map fun group => { s with group }

def step (isCancel : ε → Bool) (isVoid : Bool) (s : WaitFor α ε) :
    WaitForAction α ε → Option (WaitFor α ε)
  | .taskDone outcome => s.move isCancel (.complete 0 (outcome.map Sum.inl))
  | .elapsed => s.move isCancel (.complete 1 (.ok (.inr ())))
  | .sleepCancelled error =>
    if 1 ∈ s.group.cancelled ∧ isCancel error = true then
      s.move isCancel (.complete 1 (.error error))
    else none
  | .runWaiter i => s.move isCancel (.runWaiter i)
  | .spawned =>
    -- the wait of a coroutine that has been cancelled throws at once
    if s.cancelled then
      match s.group.bell.sleeper with
      | .before =>
        some
          { s with
            group := { s.group with bell := { s.group.bell with sleeper := .over } }
            ending := some .cancelled }
      | _ => none
    else s.move isCancel .spawned
  | .cancel => some s.signal
  | .resume => do
    let s ← s.move isCancel .resume
    some { s with ending := s.group.result.map (readSlots isVoid) }

/-- How a task has ended, and what its waiter has recorded of it. -/
def outcome (s : WaitFor α ε) (i : Nat) : Option (Except ε (Slot α)) :=
  s.group.children[i]?.bind Child.outcome

def recorded (s : WaitFor α ε) (i : Nat) : Option (Except ε (Slot α)) :=
  s.group.children[i]?.bind Child.recorded

/-! ### What is to hold -/

/-- The coroutine has returned the value of its task, thrown the exception of its task, thrown
a timeout when the time was over, or thrown because it was cancelled. -/
def Honest (s : WaitFor α ε) : Prop :=
  ∀ ending ∈ s.ending, ending.TrueOf (s.outcome 0) (s.outcome 1) s.cancelled

/-- Whether a race reports an outcome. -/
def reported (isCancel : ε → Bool) : Except ε (Slot α) → Bool
  | .ok _ => true
  | .error error => !isCancel error

/-- When the coroutine resumes, the sleep has recorded that the time is over, or the task that
it has ended other than by a cancellation. If there is no value to return it will also do that
the task has ended with one. -/
def Reports (isCancel : ε → Bool) (isVoid : Bool) (s : WaitFor α ε) : WaitForAction α ε → Prop
  | .resume =>
    (∃ value, s.recorded 1 = some (.ok value)) ∨
      (∃ outcome, s.recorded 0 = some outcome ∧ reported isCancel outcome = true) ∨
        isVoid = true ∧ ∃ value, s.outcome 0 = some (.ok value)
  | _ => True

end WaitFor

/-! ### What a waiter has recorded -/

namespace Child

variable {child : Child α ε}

theorem value_eq_some {v : α} : child.value = some v ↔ child.recorded = some (.ok v) := by
  rcases child with ⟨_ | _ | _, _ | _⟩ <;> simp [value, recorded]

theorem error_eq_some {e : ε} : child.error = some e ↔ child.recorded = some (.error e) := by
  rcases child with ⟨_ | _ | _, _ | _⟩ <;> simp [error, recorded]

theorem outcome_of_recorded {outcome : Except ε α} (h : child.recorded = some outcome) :
    child.outcome = some outcome := by
  rw [recorded] at h
  split_ifs at h
  exact h

end Child

/-! ### What the race returns -/

namespace WaitFor

variable {isCancel : ε → Bool} {isVoid : Bool} {s s' : WaitFor α ε} {i : Nat}
  {task sleep : Child (Slot α) ε} {action : WaitForAction α ε}

/-- A race against a sleep that throws nothing but a cancellation. -/
theorem readSlots_race
    (hsleep : (sleep.error.filter fun error => !isCancel error) = none) :
    readSlots isVoid ((race isCancel).result [task, sleep]) =
      if sleep.value.isSome then .timesOut
      else
        match task.value, task.error.filter fun error => !isCancel error with
        | some slot, _ => endOf isVoid slot.getLeft?
        | none, some error => .throws error
        | none, none => endOf isVoid none := by
  have hfirst : ([task, sleep].findSome? fun child =>
      child.error.filter fun error => !isCancel error) =
        task.error.filter fun error => !isCancel error := by
    cases herror : task.error.filter fun error => !isCancel error with
    | none => simp [herror, hsleep]
    | some error => simp [herror]
  have hresult : (race isCancel).result [task, sleep] =
      optionalTuple (task.error.filter fun error => !isCancel error) [task, sleep] :=
    congrArg (optionalTuple · [task, sleep]) hfirst
  rw [hresult]
  -- a value in a slot is reported whatever the error
  cases herror : task.error.filter fun error => !isCancel error with
  | none => cases hvalue : task.value <;> simp [optionalTuple, readSlots, hvalue]
  | some error =>
    cases hvalue : task.value <;> cases htime : sleep.value <;>
      simp [optionalTuple, readSlots, hvalue, htime]

/-! ### Steps -/

theorem move_eq_some {move : GatherAction (Slot α) ε} (h : s.move isCancel move = some s') :
    ∃ group, (race isCancel).step s.group move = some group ∧ s' = { s with group } := by
  obtain ⟨group, hgroup, rfl⟩ := Option.map_eq_some_iff.mp h
  exact ⟨group, hgroup, rfl⟩

/-- What changes with one of the children. -/
theorem outcome_of_set {child child' : Child (Slot α) ε}
    (hchild : s.group.children[i]? = some child)
    (hset : s'.group.children = s.group.children.set i child') (j : Nat) :
    s'.outcome j = if i = j then child'.outcome else s.outcome j := by
  have hi : i < s.group.children.length := (List.getElem?_eq_some_iff.mp hchild).1
  rw [outcome, hset, List.getElem?_set]
  split_ifs
  · rfl
  · rfl

/-- A task or the sleep is done. -/
theorem move_complete {outcome : Except ε (Slot α)}
    (h : s.move isCancel (.complete i outcome) = some s') :
    s.outcome i = none ∧ (∀ j, s'.outcome j = if i = j then some outcome else s.outcome j) ∧
      s'.group.children.length = s.group.children.length ∧ s'.cancelled = s.cancelled ∧
        s'.ending = s.ending := by
  obtain ⟨group, hstep, rfl⟩ := move_eq_some h
  obtain ⟨finished, hchild, hgroup⟩ := Combinator.step_complete hstep
  have hset : group.children = s.group.children.set i { outcome := some outcome, finished } := by
    rw [hgroup]
  refine ⟨?_, fun j => by rw [outcome_of_set hchild hset j], ?_, rfl, rfl⟩
  · rw [WaitFor.outcome, hchild]
    rfl
  · rw [hset, List.length_set]

/-- Recording an outcome does not change it. -/
theorem move_runWaiter (h : s.move isCancel (.runWaiter i) = some s') :
    (∀ j, s'.outcome j = s.outcome j) ∧
      s'.group.children.length = s.group.children.length ∧ s'.cancelled = s.cancelled ∧
        s'.ending = s.ending := by
  obtain ⟨group, hstep, rfl⟩ := move_eq_some h
  obtain ⟨outcome, hchild, hset⟩ := Combinator.children_runWaiter hstep
  refine ⟨fun j => ?_, ?_, rfl, rfl⟩
  · rw [outcome_of_set hchild hset j]
    split_ifs with hj
    · subst hj
      rw [WaitFor.outcome, hchild]
      rfl
    · rfl
  · rw [hset, List.length_set]

theorem move_spawned (h : s.move isCancel .spawned = some s') :
    s'.group.children = s.group.children ∧ s'.cancelled = s.cancelled ∧ s'.ending = s.ending := by
  obtain ⟨group, hstep, rfl⟩ := move_eq_some h
  obtain ⟨-, rfl⟩ := Combinator.step_spawned hstep
  rcases Combinator.begin_cases (race isCancel) s.group with ⟨-, hbegin⟩ | ⟨-, hbegin⟩
  · rw [hbegin]
    exact ⟨rfl, rfl, rfl⟩
  · rw [hbegin]
    exact ⟨rfl, rfl, rfl⟩

/-- The coroutine reads what the race returns. -/
theorem step_resume (h : s.step isCancel isVoid .resume = some s') :
    s'.group.children = s.group.children ∧ s'.cancelled = s.cancelled ∧
      s'.ending = some (readSlots isVoid ((race isCancel).result s.group.children)) := by
  obtain ⟨t, hmove, hend⟩ := Option.bind_eq_some_iff.mp h
  obtain rfl := Option.some.inj hend
  obtain ⟨group, hstep, rfl⟩ := move_eq_some hmove
  obtain ⟨-, rfl⟩ := Combinator.step_resume hstep
  rcases Combinator.resumed_cases (race isCancel) s.group with ⟨hloops, -⟩ | hresumed
  · cases hloops
  · rw [hresumed]
    exact ⟨rfl, rfl, rfl⟩

theorem children_signal : s.signal.group.children = s.group.children := rfl

/-! ### The invariant -/

/-- There are a task, which has a value or an exception, and a sleep, which throws nothing but a
cancellation. -/
structure Sound (isCancel : ε → Bool) (s : WaitFor α ε) : Prop where
  two : s.group.children.length = 2
  task : ∀ value, s.outcome 0 = some (.ok value) → ∃ v, value = .inl v
  sleep : ∀ error, s.outcome 1 = some (.error error) → isCancel error = true

theorem sound_start : Sound isCancel ({} : WaitFor α ε) :=
  ⟨rfl, fun _ h => (by cases h), fun _ h => (by cases h)⟩

namespace Sound

/-- Nothing has happened to the tasks. -/
theorem of_outcome (h : Sound isCancel s) (houtcome : ∀ j, s'.outcome j = s.outcome j)
    (hlength : s'.group.children.length = s.group.children.length) : Sound isCancel s' :=
  ⟨hlength.trans h.two, fun value hvalue => h.task value ((houtcome 0).symm.trans hvalue),
    fun error herror => h.sleep error ((houtcome 1).symm.trans herror)⟩

theorem of_children (h : Sound isCancel s) (hchildren : s'.group.children = s.group.children) :
    Sound isCancel s' :=
  h.of_outcome (fun j => by rw [outcome, outcome, hchildren]) (congrArg List.length hchildren)

theorem step (h : Sound isCancel s) (hstep : s.step isCancel isVoid action = some s') :
    Sound isCancel s' := by
  cases action with
  | taskDone outcome =>
    obtain ⟨-, houtcome, hlength, -⟩ := move_complete hstep
    refine ⟨hlength.trans h.two, fun value hvalue => ?_, fun error herror => ?_⟩
    · rw [houtcome 0, if_pos rfl] at hvalue
      cases outcome with
      | ok v => exact ⟨v, (Except.ok.inj (Option.some.inj hvalue)).symm⟩
      | error e => cases hvalue
    · rw [houtcome 1, if_neg (by decide)] at herror
      exact h.sleep error herror
  | elapsed =>
    obtain ⟨-, houtcome, hlength, -⟩ := move_complete hstep
    refine ⟨hlength.trans h.two, fun value hvalue => ?_, fun error herror => ?_⟩
    · rw [houtcome 0, if_neg (by decide)] at hvalue
      exact h.task value hvalue
    · rw [houtcome 1, if_pos rfl] at herror
      cases herror
  | sleepCancelled error =>
    rw [WaitFor.step] at hstep
    split_ifs at hstep with hcancel
    obtain ⟨-, houtcome, hlength, -⟩ := move_complete hstep
    refine ⟨hlength.trans h.two, fun value hvalue => ?_, fun e he => ?_⟩
    · rw [houtcome 0, if_neg (by decide)] at hvalue
      exact h.task value hvalue
    · rw [houtcome 1, if_pos rfl] at he
      obtain rfl := Except.error.inj (Option.some.inj he)
      exact hcancel.2
  | runWaiter i =>
    obtain ⟨houtcome, hlength, -⟩ := move_runWaiter hstep
    exact h.of_outcome houtcome hlength
  | spawned =>
    rw [WaitFor.step] at hstep
    split_ifs at hstep
    · split at hstep
      · obtain rfl := Option.some.inj hstep
        exact h.of_children rfl
      · cases hstep
    · exact h.of_children (move_spawned hstep).1
  | cancel =>
    obtain rfl := Option.some.inj hstep
    exact h.of_children children_signal
  | resume => exact h.of_children (step_resume hstep).1

end Sound

/-! ### One step -/

/-- What a coroutine has ended with stays true. -/
theorem Honest.mono (h : s.Honest) (hending : s'.ending = s.ending)
    (houtcome : ∀ i o, s.outcome i = some o → s'.outcome i = some o)
    (hcancelled : s.cancelled = true → s'.cancelled = true) : s'.Honest := by
  intro ending hmem
  rw [hending] at hmem
  have hold := h ending hmem
  cases ending with
  | returns value => exact houtcome _ _ hold
  | finishes => exact hold.imp fun _ => houtcome _ _
  | throws error => exact houtcome _ _ hold
  | timesOut => exact hold.imp fun _ => houtcome _ _
  | cancelled => exact hcancelled hold
  | takesNothing => exact hold

theorem Honest.complete (h : s.Honest) {outcome : Except ε (Slot α)}
    (hstep : s.move isCancel (.complete i outcome) = some s') : s'.Honest := by
  obtain ⟨hnone, houtcome, -, hcancelled, hending⟩ := move_complete hstep
  refine h.mono hending (fun j o ho => ?_) fun hc => hcancelled.trans hc
  rw [houtcome j]
  split_ifs with hj
  · subst hj
    rw [hnone] at ho
    cases ho
  · exact ho

/-- What is read of a race is true if and only if there is something to report. -/
theorem trueOf_readSlots_iff {cancelled : Bool}
    (htask : ∀ slot, task.outcome = some (.ok slot) → ∃ v, slot = .inl v)
    (hsleep : (sleep.error.filter fun error => !isCancel error) = none) :
    (readSlots isVoid ((race isCancel).result [task, sleep])).TrueOf task.outcome sleep.outcome
        cancelled ↔
      (∃ value, sleep.recorded = some (.ok value)) ∨
        (∃ outcome, task.recorded = some outcome ∧ reported isCancel outcome = true) ∨
          isVoid = true ∧ ∃ value, task.outcome = some (.ok value) := by
  rw [readSlots_race hsleep]
  cases htime : sleep.value with
  | some value =>
    -- the time is over
    have hrecorded := Child.value_eq_some.mp htime
    exact iff_of_true ⟨value, Child.outcome_of_recorded hrecorded⟩ (.inl ⟨value, hrecorded⟩)
  | none =>
    rw [or_iff_right fun ⟨value, hrecorded⟩ => by
      rw [Child.value_eq_some.mpr hrecorded] at htime
      cases htime]
    cases hvalue : task.value with
    | some slot =>
      -- the task has a value, and only the task has one of this kind
      have hrecorded := Child.value_eq_some.mp hvalue
      have houtcome := Child.outcome_of_recorded hrecorded
      obtain ⟨v, rfl⟩ := htask slot houtcome
      refine iff_of_true ?_ (.inl ⟨_, hrecorded, rfl⟩)
      cases isVoid with
      | true => exact ⟨_, houtcome⟩
      | false => exact houtcome
    | none =>
      cases herror : task.error.filter fun error => !isCancel error with
      | some error =>
        -- the task has thrown
        obtain ⟨herror, hreported⟩ := Option.filter_eq_some_iff.mp herror
        have hrecorded := Child.error_eq_some.mp herror
        exact iff_of_true (Child.outcome_of_recorded hrecorded)
          (.inl ⟨_, hrecorded, hreported⟩)
      | none =>
        -- the task has ended by a cancellation, or nothing of it has been recorded
        have hpassed : ¬ ∃ outcome, task.recorded = some outcome ∧
            reported isCancel outcome = true := by
          rintro ⟨outcome, hrecorded, hreported⟩
          cases outcome with
          | ok v =>
            rw [Child.value_eq_some.mpr hrecorded] at hvalue
            cases hvalue
          | error e =>
            rw [Child.error_eq_some.mpr hrecorded] at herror
            exact Option.filter_eq_none_iff.mp herror e rfl hreported
        rw [or_iff_right hpassed]
        -- without a value to return, an end with nothing is one that claims success
        cases isVoid with
        | true => exact (and_iff_right rfl).symm
        | false => exact iff_of_false (fun hnothing => hnothing) fun hvoid => by cases hvoid.1

/-- A resumption is honest if and only if there is something to report. -/
theorem honest_resume_iff (h : Sound isCancel s)
    (hstep : s.step isCancel isVoid .resume = some s') :
    s'.Honest ↔ s.Reports isCancel isVoid .resume := by
  obtain ⟨hchildren, hcancelled, hending⟩ := step_resume hstep
  obtain ⟨task, sleep, hpair⟩ := List.length_eq_two.mp h.two
  have htask : s.outcome 0 = task.outcome := by rw [outcome, hpair]; rfl
  have hsleep : s.outcome 1 = sleep.outcome := by rw [outcome, hpair]; rfl
  have hsame : ∀ i, s'.outcome i = s.outcome i := fun i => by rw [outcome, outcome, hchildren]
  have hreports : s.Reports isCancel isVoid .resume ↔
      (∃ value, sleep.recorded = some (.ok value)) ∨
        (∃ outcome, task.recorded = some outcome ∧ reported isCancel outcome = true) ∨
          isVoid = true ∧ ∃ value, task.outcome = some (.ok value) := by
    rw [Reports, recorded, recorded, htask, hpair]
    exact Iff.rfl
  -- the sleep throws nothing that a race reports
  have hpassed : (sleep.error.filter fun error => !isCancel error) = none := by
    cases herror : sleep.error with
    | none => rfl
    | some error =>
      have hcancel : isCancel error = true :=
        h.sleep error (hsleep.trans (Child.outcome_of_recorded (Child.error_eq_some.mp herror)))
      rw [Option.filter_some, hcancel]
      rfl
  rw [hpair] at hending
  rw [hreports, Honest, hending, hsame, hsame, htask, hsleep]
  simp only [Option.mem_some_iff, forall_eq']
  exact trueOf_readSlots_iff (fun slot hslot => h.task slot (htask.trans hslot)) hpassed

/-- Every step but a resumption keeps the coroutine honest. -/
theorem reports_iff_honest (hsound : Sound isCancel s) (h : s.Honest)
    (hstep : s.step isCancel isVoid action = some s') :
    s.Reports isCancel isVoid action ↔ s'.Honest := by
  cases action with
  | taskDone outcome => exact iff_of_true trivial (h.complete hstep)
  | elapsed => exact iff_of_true trivial (h.complete hstep)
  | sleepCancelled error =>
    rw [WaitFor.step] at hstep
    split_ifs at hstep
    exact iff_of_true trivial (h.complete hstep)
  | runWaiter i =>
    obtain ⟨houtcome, -, hcancelled, hending⟩ := move_runWaiter hstep
    exact iff_of_true trivial (h.mono hending (fun j o ho => (houtcome j).trans ho)
      fun hc => hcancelled.trans hc)
  | spawned =>
    refine iff_of_true trivial ?_
    rw [WaitFor.step] at hstep
    split_ifs at hstep with hcancelled
    · -- the coroutine ends by its cancellation
      split at hstep
      · obtain rfl := Option.some.inj hstep
        intro ending hending
        obtain rfl := Option.some.inj hending
        exact hcancelled
      · cases hstep
    · obtain ⟨hchildren, hsame, hending⟩ := move_spawned hstep
      refine h.mono hending (fun i o ho => ?_) fun hc => hsame.trans hc
      rw [outcome, hchildren]
      exact ho
  | cancel =>
    obtain rfl := Option.some.inj hstep
    exact iff_of_true trivial (h.mono rfl (fun _ _ ho => ho) fun _ => rfl)
  | resume => exact (honest_resume_iff hsound hstep).symm

end WaitFor

/-- In every state of a run `wait_for` is honest, if and only if whenever it resumes the sleep
or the task has something to report. -/
theorem wait_for_honest_iff (isCancel : ε → Bool) (isVoid : Bool)
    (actions : List (WaitForAction α ε)) {s : WaitFor α ε}
    (hrun : exec (WaitFor.step isCancel isVoid) {} actions = some s) :
    Along (WaitFor.step isCancel isVoid) (WaitFor.Reports isCancel isVoid) {} actions ↔
      ∀ before after t, actions = before ++ after →
        exec (WaitFor.step isCancel isVoid) {} before = some t → t.Honest := by
  have hstart : WaitFor.Honest ({} : WaitFor α ε) := fun _ hending => by cases hending
  refine along_iff_throughout_of_invariant (fun _ _ _ h hstep => WaitFor.Sound.step h hstep)
    ?_ WaitFor.sound_start hstart hrun
  intro s action t hs h hstep
  exact WaitFor.reports_iff_honest hs h hstep

/-- The task is done before the time is over. -/
def inTime : List (WaitForAction Nat String) :=
  [.spawned, .taskDone (.ok 7), .runWaiter 0, .sleepCancelled "asyncx task cancelled",
    .runWaiter 1, .resume]

theorem wait_for_honest_inTime :
    ∃ s, exec (WaitFor.step (· == "asyncx task cancelled") false) {} inTime = some s ∧
      s.ending = some (.returns 7) ∧ s.Honest := by
  have hreports : Along (WaitFor.step (· == "asyncx task cancelled") false)
      (WaitFor.Reports (· == "asyncx task cancelled") false) {} inTime :=
    .cons trivial rfl <| .cons trivial rfl <| .cons trivial rfl <| .cons trivial rfl <|
      .cons trivial rfl <| .cons (.inr (.inl ⟨_, rfl, rfl⟩)) rfl trivial
  exact ⟨_, rfl, rfl,
    (wait_for_honest_iff (· == "asyncx task cancelled") false inTime rfl).mp hreports inTime [] _
      rfl rfl⟩

/-- Somebody else cancels the task, or the coroutine itself is cancelled. -/
theorem wait_for_takes_nothing :
    (∃ s, exec (WaitFor.step (· == "asyncx task cancelled") false) ({} : WaitFor Nat String)
        [.spawned, .taskDone (.error "asyncx task cancelled"), .runWaiter 0, .resume] = some s ∧
      s.ending = some .takesNothing) ∧
    ∃ s, exec (WaitFor.step (· == "asyncx task cancelled") false) ({} : WaitFor Nat String)
        [.spawned, .cancel, .resume] = some s ∧ s.ending = some .takesNothing :=
  ⟨⟨_, rfl, rfl⟩, _, rfl, rfl⟩

end HttpClient.Asyncx
