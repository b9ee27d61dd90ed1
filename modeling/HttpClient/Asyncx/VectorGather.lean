import HttpClient.Asyncx.Combinators

/-!
# Gathering a vector

`gather` over a vector of tasks adds a continuation to each of them, `gather` over a vector of
awaitables spawns a coroutine for each; then it waits on a timer that never expires. A child
that fails cancels the timer, and so does the last one. When the coroutine is woken it rethrows
the first error there is, whatever the other children are doing. The overloads over a tuple, on
the other hand, wait again until all their waiters are done.

## Main definitions

* `Element`, `VectorGather` — the children with their bookkeeping, and the coroutine
* `VectorGather.step` — the atomic steps
* `VectorGather.LeavesNothing` — when the coroutine has ended all children have finished
* `VectorGather.Unhurried` — no error is rethrown while a child is running

## Main results

* `gather_leaves_nothing_iff` — the overloads over a tuple leave nothing running, and those
  over a vector do exactly in the runs of `Unhurried`
* `gather_leaves_child_running` — runs in which they do
-/

set_option autoImplicit false

namespace HttpClient.Asyncx

open Semantics

variable {α ε ρ : Type}

/-! ### Children and coroutine -/

/-- A task or an awaitable. -/
structure Element (α ε : Type) where
  /-- A default-constructed task has no state, and nothing runs for it. Awaitables are valid. -/
  valid : Bool := true
  /-- The value or the exception, once it is done. -/
  outcome : Option (Except ε α) := none
  /-- The continuation has been added, or the coroutine has been spawned. -/
  attached : Bool := false
  counted : Bool := false

namespace Element

def error (element : Element α ε) : Option ε :=
  match element.outcome with
  | some (.error e) => some e
  | _ => none

def value (element : Element α ε) : Option α :=
  match element.outcome with
  | some (.ok v) => some v
  | _ => none

/-- Nothing runs for it any more. -/
def Finished (element : Element α ε) : Prop := element.valid = true → element.outcome.isSome = true

instance (element : Element α ε) : Decidable element.Finished :=
  inferInstanceAs (Decidable (_ → _))

end Element

/-- The two overloads over a vector. -/
inductive Overload where
  | tasks
  | awaitables
  deriving DecidableEq

/-- How the coroutine ends. -/
inductive VectorEnd (α ε : Type) where
  | returned (values : List α)
  | thrown (e : ε)
  /-- `using invalid asyncx::Task` -/
  | invalidTask
  /-- An empty slot of `values` is read. -/
  | emptyValue

structure VectorGather (α ε : Type) where
  elements : List (Element α ε)
  /-- How many children have been attached. -/
  next : Nat := 0
  firstError : Option ε := none
  bell : Bell := {}
  result : Option (VectorEnd α ε) := none

inductive VectorAction (α ε : Type) where
  /-- A child is done. -/
  | complete (i : Nat) (outcome : Except ε α)
  /-- The coroutine adds a continuation to the next task, or spawns the next awaitable. -/
  | attach
  /-- The coroutine begins to wait. -/
  | wait
  /-- A child that is done records its error and is counted. -/
  | count (i : Nat)
  /-- The coroutine resumes. -/
  | resume

namespace VectorGather

variable (overload : Overload)

def finishWith (result : VectorEnd α ε) (g : VectorGather α ε) : VectorGather α ε :=
  { g with bell := { g.bell with sleeper := .over }, result := some result }

/-- The coroutine is called with tasks or awaitables that are valid, or are not. -/
def start (valids : List Bool) : VectorGather α ε :=
  let g : VectorGather α ε := { elements := valids.map fun valid => { valid } }
  if valids.isEmpty then g.finishWith (.returned []) else g

def total (g : VectorGather α ε) : Nat := g.elements.length

def doneCount (g : VectorGather α ε) : Nat := g.elements.countP Element.counted

/-- The values in order. A task rethrows its error, while an awaitable that has failed has left
its slot empty. -/
def values (g : VectorGather α ε) : VectorEnd α ε :=
  match overload with
  | .tasks =>
    match g.elements.findSome? Element.error with
    | some e => .thrown e
    | none => .returned (g.elements.filterMap Element.value)
  | .awaitables =>
    if g.elements.all fun element => element.value.isSome then
      .returned (g.elements.filterMap Element.value)
    else .emptyValue

/-- Keep the first error. Every awaitable that fails cancels the timer, of the tasks only the
first one. -/
def recordError (e : ε) (g : VectorGather α ε) : VectorGather α ε :=
  match g.firstError with
  | none => { g with firstError := some e, bell := g.bell.ring }
  | some _ =>
    match overload with
    | .tasks => g
    | .awaitables => { g with bell := g.bell.ring }

/-- What a child does once it is done. -/
def settle (i : Nat) (element : Element α ε) (g : VectorGather α ε) : VectorGather α ε :=
  let g :=
    match element.error with
    | some e => g.recordError overload e
    | none => g
  let g :=
    { g with elements := g.elements.set i { element with attached := true, counted := true } }
  if g.doneCount = g.total then { g with bell := g.bell.ring } else g

/-- The body of the loop over the children, for child `i`. -/
def attachNext (i : Nat) (element : Element α ε) (g : VectorGather α ε) : VectorGather α ε :=
  match overload with
  | .tasks =>
    if element.valid then
      -- the continuation of a task that is done runs at once
      if element.outcome.isSome then { g with next := i + 1 }.settle overload i element
      else
        { g with next := i + 1, elements := g.elements.set i { element with attached := true } }
    else g.finishWith .invalidTask
  | .awaitables =>
    { g with next := i + 1, elements := g.elements.set i { element with attached := true } }

/-- The head of the loop, before the first wait. -/
def begin (g : VectorGather α ε) : VectorGather α ε :=
  if g.doneCount < g.total then { g with bell := { g.bell with sleeper := .waiting } }
  else g.finishWith (g.values overload)

/-- The coroutine has been woken. -/
def resumed (g : VectorGather α ε) : VectorGather α ε :=
  match g.firstError with
  | some e => g.finishWith (.thrown e)
  | none =>
    if g.doneCount < g.total then { g with bell := { sleeper := .waiting, rung := false } }
    else g.finishWith (g.values overload)

/-- A child may be done. An awaitable does not run before it is spawned. -/
def Runs (element : Element α ε) : Prop :=
  element.valid = true ∧ element.outcome = none ∧
    (overload = .awaitables → element.attached = true)

instance (element : Element α ε) : Decidable (Runs overload element) :=
  have : Decidable (element.outcome = none) := decidable_of_iff _ Option.isNone_iff_eq_none
  inferInstanceAs (Decidable (_ ∧ _ ∧ (_ → _)))

/-- One step; `none` if it is not enabled. -/
def step (g : VectorGather α ε) : VectorAction α ε → Option (VectorGather α ε)
  | .complete i outcome =>
    match g.elements[i]? with
    | some element =>
      if Runs overload element then
        some { g with elements := g.elements.set i { element with outcome := some outcome } }
      else none
    | none => none
  | .attach =>
    match g.bell.sleeper, g.elements[g.next]? with
    | .before, some element => some (g.attachNext overload g.next element)
    | _, _ => none
  | .wait =>
    if g.bell.sleeper = .before ∧ g.next = g.total then some (g.begin overload) else none
  | .count i =>
    match g.elements[i]? with
    | some element =>
      if element.attached = true ∧ element.outcome.isSome = true ∧ element.counted = false then
        some (g.settle overload i element)
      else none
    | none => none
  | .resume => if g.bell.sleeper = .woken then some (g.resumed overload) else none

/-! ### What is expected -/

/-- Nothing runs for any child any more. -/
def AllFinished (g : VectorGather α ε) : Prop := ∀ element ∈ g.elements, element.Finished

instance (g : VectorGather α ε) : Decidable g.AllFinished :=
  inferInstanceAs (Decidable (∀ _ ∈ _, _))

/-- When the coroutine has returned or thrown all children have finished. -/
def LeavesNothing (g : VectorGather α ε) : Prop := g.result.isSome = true → g.AllFinished

instance (g : VectorGather α ε) : Decidable g.LeavesNothing := inferInstanceAs (Decidable (_ → _))

/-- When the coroutine resumes and a child has failed, or when it comes to a task that is not
valid, all children have finished. -/
def Unhurried (g : VectorGather α ε) : VectorAction α ε → Prop
  | .resume => g.firstError.isSome = true → g.AllFinished
  | .attach =>
    overload = .tasks → (g.elements[g.next]?.any fun element => !element.valid) = true →
      g.AllFinished
  | _ => True

instance (g : VectorGather α ε) : ∀ action, Decidable (g.Unhurried overload action)
  | .resume => inferInstanceAs (Decidable (_ → _))
  | .attach => inferInstanceAs (Decidable (_ → _ → _))
  | .complete _ _ | .wait | .count _ => isTrue trivial

/-! ### The steps -/

variable {overload} {g g' : VectorGather α ε} {i : Nat} {element : Element α ε}

theorem step_complete {outcome : Except ε α} (h : g.step overload (.complete i outcome) = some g') :
    ∃ element, g.elements[i]? = some element ∧
      g' = { g with elements := g.elements.set i { element with outcome := some outcome } } := by
  unfold step at h
  dsimp only at h
  split at h
  · rename_i element hget
    split_ifs at h
    exact ⟨element, hget, (Option.some.inj h).symm⟩
  · cases h

theorem step_attach (h : g.step overload .attach = some g') :
    g.bell.sleeper = .before ∧ ∃ element, g.elements[g.next]? = some element ∧
      g' = g.attachNext overload g.next element := by
  unfold step at h
  dsimp only at h
  split at h
  · rename_i element hbefore hget
    exact ⟨hbefore, element, hget, (Option.some.inj h).symm⟩
  · cases h

theorem step_wait (h : g.step overload .wait = some g') :
    g.bell.sleeper = .before ∧ g' = g.begin overload := by
  unfold step at h
  dsimp only at h
  split_ifs at h with hready
  exact ⟨hready.1, (Option.some.inj h).symm⟩

theorem step_count (h : g.step overload (.count i) = some g') :
    ∃ element, g.elements[i]? = some element ∧ element.outcome.isSome = true ∧
      g' = g.settle overload i element := by
  unfold step at h
  dsimp only at h
  split at h
  · rename_i element hget
    split_ifs at h with hready
    exact ⟨element, hget, hready.2.1, (Option.some.inj h).symm⟩
  · cases h

theorem step_resume (h : g.step overload .resume = some g') :
    g.bell.sleeper = .woken ∧ g' = g.resumed overload := by
  unfold step at h
  dsimp only at h
  split_ifs at h with hwoken
  exact ⟨hwoken, (Option.some.inj h).symm⟩

/-- Recording an error rings the bell at most. -/
theorem recordError_frame (overload : Overload) (e : ε) (g : VectorGather α ε) :
    (g.recordError overload e).elements = g.elements ∧
      (g.recordError overload e).result = g.result ∧
      ((g.recordError overload e).bell = g.bell ∨
        (g.recordError overload e).bell = g.bell.ring) := by
  unfold recordError
  cases g.firstError with
  | none => exact ⟨rfl, rfl, Or.inr rfl⟩
  | some first =>
    cases overload with
    | tasks => exact ⟨rfl, rfl, Or.inl rfl⟩
    | awaitables => exact ⟨rfl, rfl, Or.inr rfl⟩

/-- A child that is done is counted, and rings the bell at most. -/
theorem settle_frame (overload : Overload) (i : Nat) (element : Element α ε)
    (g : VectorGather α ε) :
    (g.settle overload i element).elements =
        g.elements.set i { element with attached := true, counted := true } ∧
      (g.settle overload i element).result = g.result ∧
      ((g.settle overload i element).bell = g.bell ∨
        (g.settle overload i element).bell = g.bell.ring) := by
  unfold settle
  cases element.error with
  | none =>
    dsimp only
    split_ifs
    · exact ⟨rfl, rfl, Or.inr rfl⟩
    · exact ⟨rfl, rfl, Or.inl rfl⟩
  | some e =>
    obtain ⟨helements, hresult, hbell⟩ := recordError_frame overload e g
    dsimp only
    rw [helements]
    split_ifs
    · refine ⟨rfl, hresult, Or.inr ?_⟩
      rcases hbell with hbell | hbell
      · exact congrArg Bell.ring hbell
      -- the timer is cancelled once more, to no effect
      · rw [hbell, Bell.ring_of_rung (Bell.rung_ring _)]
    · exact ⟨rfl, hresult, hbell⟩

/-! ### What every step keeps -/

/-- The invariant of all runs. -/
structure Inv (g : VectorGather α ε) : Prop where
  /-- A child is counted after it is done. -/
  counted : ∀ element ∈ g.elements, element.counted = true → element.outcome.isSome = true
  ended : g.result.isSome = true ↔ g.bell.sleeper = .over

theorem inv_start (valids : List Bool) : (start valids : VectorGather α ε).Inv := by
  have hfresh : ∀ element ∈ (start valids : VectorGather α ε).elements,
      element.counted = false := by
    intro element hmem
    have helements : (start valids : VectorGather α ε).elements =
        valids.map fun valid => { valid } := by
      unfold start
      split_ifs <;> rfl
    rw [helements] at hmem
    obtain ⟨valid, -, rfl⟩ := List.mem_map.mp hmem
    rfl
  refine ⟨fun element hmem hcounted => ?_, ?_⟩
  · rw [hfresh element hmem] at hcounted
    cases hcounted
  · unfold start
    split_ifs <;> simp [finishWith]

/-- When all children are counted nothing runs any more. -/
theorem Inv.allFinished (h : g.Inv) (hall : ¬ g.doneCount < g.total) : g.AllFinished := by
  have heq : g.doneCount = g.total := Nat.le_antisymm List.countP_le_length (Nat.not_lt.mp hall)
  intro element hmem _
  exact h.counted element hmem (List.countP_eq_length.mp heq element hmem)

/-- Replacing a child by one that is done keeps what is known of the children. -/
theorem forall_mem_set {P : Element α ε → Prop} {elements : List (Element α ε)}
    (h : ∀ element ∈ elements, P element) (helement : P element) :
    ∀ other ∈ elements.set i element, P other := by
  intro other hmem
  rcases List.mem_or_eq_of_mem_set hmem with hold | rfl
  · exact h other hold
  · exact helement

theorem Inv.settle (h : g.Inv) (hdone : element.outcome.isSome = true) :
    (g.settle overload i element).Inv := by
  obtain ⟨helements, hresult, hbell⟩ := settle_frame overload i element g
  constructor
  · rw [helements]
    exact forall_mem_set h.counted fun _ => hdone
  · rw [hresult, h.ended]
    rcases hbell with hbell | hbell
    · rw [hbell]
    · rw [hbell, Bell.sleeper_ring_eq_over]

theorem Inv.finishWith (h : g.Inv) (result : VectorEnd α ε) : (g.finishWith result).Inv :=
  ⟨h.counted, iff_of_true rfl rfl⟩

/-- Attaching a task that is not valid ends the coroutine, and nothing else does. -/
theorem attachNext_cases (overload : Overload) (i : Nat) (element : Element α ε)
    (g : VectorGather α ε) :
    (overload = .tasks ∧ element.valid = false ∧
        g.attachNext overload i element = g.finishWith .invalidTask) ∨
      (¬ (overload = .tasks ∧ element.valid = false) ∧
        (element.outcome.isSome = true ∧
            g.attachNext overload i element =
              { g with next := i + 1 }.settle overload i element ∨
          g.attachNext overload i element =
            { g with
              next := i + 1
              elements := g.elements.set i { element with attached := true } })) := by
  cases overload with
  | awaitables => exact Or.inr ⟨by simp, Or.inr rfl⟩
  | tasks =>
    unfold attachNext
    dsimp only
    split_ifs with hvalid hdone
    · exact Or.inr ⟨by simp [hvalid], Or.inl ⟨hdone, rfl⟩⟩
    · exact Or.inr ⟨by simp [hvalid], Or.inr rfl⟩
    · exact Or.inl ⟨rfl, by simpa using hvalid, rfl⟩

theorem Inv.step {action : VectorAction α ε} (h : g.Inv)
    (hstep : g.step overload action = some g') : g'.Inv := by
  cases action with
  | complete i outcome =>
    obtain ⟨element, -, rfl⟩ := step_complete hstep
    exact ⟨forall_mem_set h.counted fun _ => rfl, h.ended⟩
  | attach =>
    obtain ⟨hbefore, element, hget, rfl⟩ := step_attach hstep
    have hmem : element ∈ g.elements := List.mem_of_getElem? hget
    rcases attachNext_cases overload g.next element g with ⟨-, -, hend⟩ | ⟨-, ⟨hdone, hend⟩ | hend⟩
    · rw [hend]
      exact h.finishWith _
    · rw [hend]
      have hnext : Inv { g with next := g.next + 1 } := ⟨h.counted, h.ended⟩
      exact hnext.settle hdone
    · rw [hend]
      exact ⟨forall_mem_set h.counted (h.counted element hmem), h.ended⟩
  | wait =>
    obtain ⟨hbefore, rfl⟩ := step_wait hstep
    unfold begin
    split_ifs
    · refine ⟨h.counted, ?_⟩
      rw [h.ended, hbefore]
      exact iff_of_false Sleeper.noConfusion Sleeper.noConfusion
    · exact h.finishWith _
  | count i =>
    obtain ⟨element, -, hdone, rfl⟩ := step_count hstep
    exact h.settle hdone
  | resume =>
    obtain ⟨hwoken, rfl⟩ := step_resume hstep
    unfold resumed
    cases g.firstError with
    | some e => exact h.finishWith _
    | none =>
      dsimp only
      split_ifs
      · refine ⟨h.counted, ?_⟩
        rw [h.ended, hwoken]
        exact iff_of_false Sleeper.noConfusion Sleeper.noConfusion
      · exact h.finishWith _

/-! ### What is left running -/

theorem leavesNothing_start (valids : List Bool) :
    (start valids : VectorGather α ε).LeavesNothing := by
  unfold start
  intro hended element hmem
  split_ifs at hended hmem with hempty
  · rw [List.isEmpty_iff.mp hempty] at hmem
    exact absurd hmem List.not_mem_nil
  · cases hended

/-- A coroutine that has not ended leaves nothing running once it ends exactly if all children
have finished by then. -/
theorem leavesNothing_finishWith (result : VectorEnd α ε) (g : VectorGather α ε) :
    (g.finishWith result).LeavesNothing ↔ g.AllFinished :=
  ⟨fun h => h rfl, fun h _ => h⟩

theorem LeavesNothing.settle (h : g.LeavesNothing) (hdone : element.outcome.isSome = true) :
    (g.settle overload i element).LeavesNothing := by
  obtain ⟨helements, hresult, -⟩ := settle_frame overload i element g
  intro hended
  rw [hresult] at hended
  unfold AllFinished
  rw [helements]
  exact forall_mem_set (h hended) fun _ => hdone

theorem leavesNothing_of_running (h : g.result.isSome ≠ true) : g.LeavesNothing :=
  fun hended => absurd hended h

/-- Of all steps those of `Unhurried` are the ones that leave nothing running. -/
theorem unhurried_iff_leavesNothing {action : VectorAction α ε} (hinv : g.Inv)
    (h : g.LeavesNothing) (hstep : g.step overload action = some g') :
    g.Unhurried overload action ↔ g'.LeavesNothing := by
  cases action with
  | complete i outcome =>
    obtain ⟨element, -, rfl⟩ := step_complete hstep
    exact iff_of_true trivial fun hended => forall_mem_set (h hended) fun _ => rfl
  | attach =>
    obtain ⟨hbefore, element, hget, rfl⟩ := step_attach hstep
    have hrunning : g.result.isSome ≠ true := by
      rw [Ne, hinv.ended, hbefore]
      decide
    have hinvalid : (g.elements[g.next]?.any fun element => !element.valid) = true ↔
        element.valid = false := by simp [hget]
    rcases attachNext_cases overload g.next element g with
      ⟨htasks, hvalid, hend⟩ | ⟨hnot, ⟨hdone, hend⟩ | hend⟩
    · rw [hend, leavesNothing_finishWith]
      exact ⟨fun hok => hok htasks (hinvalid.mpr hvalid), fun hall _ _ => hall⟩
    · rw [hend]
      have hnext : LeavesNothing { g with next := g.next + 1 } := h
      exact iff_of_true (fun ht hv => absurd ⟨ht, hinvalid.mp hv⟩ hnot) (hnext.settle hdone)
    · rw [hend]
      exact iff_of_true (fun ht hv => absurd ⟨ht, hinvalid.mp hv⟩ hnot)
        (leavesNothing_of_running hrunning)
  | wait =>
    obtain ⟨hbefore, rfl⟩ := step_wait hstep
    have hrunning : g.result.isSome ≠ true := by
      rw [Ne, hinv.ended, hbefore]
      decide
    apply iff_of_true trivial
    unfold begin
    split_ifs with hmore
    · exact leavesNothing_of_running hrunning
    · exact (leavesNothing_finishWith _ g).mpr (hinv.allFinished hmore)
  | count i =>
    obtain ⟨element, -, hdone, rfl⟩ := step_count hstep
    exact iff_of_true trivial (h.settle hdone)
  | resume =>
    obtain ⟨hwoken, rfl⟩ := step_resume hstep
    have hrunning : g.result.isSome ≠ true := by
      rw [Ne, hinv.ended, hwoken]
      decide
    change (g.firstError.isSome = true → g.AllFinished) ↔ _
    unfold resumed
    cases g.firstError with
    | some e =>
      -- the error is rethrown now, whatever the other children are doing
      rw [leavesNothing_finishWith]
      exact ⟨fun hok => hok rfl, fun hall _ => hall⟩
    | none =>
      apply iff_of_true (fun herror => absurd herror Bool.false_ne_true)
      dsimp only
      split_ifs with hmore
      · exact leavesNothing_of_running hrunning
      · exact (leavesNothing_finishWith _ g).mpr (hinv.allFinished hmore)

/-- The runs of `Unhurried` are those in which nothing is ever left running. -/
theorem along_unhurried_iff {valids : List Bool} {actions : List (VectorAction α ε)}
    (hrun : exec (step overload) (start valids) actions = some g) :
    Along (step overload) (fun g => g.Unhurried overload) (start valids) actions ↔
      ∀ before after g', actions = before ++ after →
        exec (step overload) (start valids) before = some g' → g'.LeavesNothing := by
  refine along_iff_throughout_of_invariant (fun _ _ _ hs hstep => Inv.step hs hstep) ?_
    (inv_start valids) (leavesNothing_start valids) hrun
  intro s action t hinv hs hstep
  exact unhurried_iff_leavesNothing hinv hs hstep

end VectorGather

/-! ### All overloads -/

/-- The overload over a tuple ends after all its tasks. -/
theorem Gather.completed_of_ended {n : Nat} {actions : List (GatherAction α ε)} {g : Gather α ε}
    (hrun : exec Gather.step (Gather.start n) actions = some g) {r : GatherResult α ε}
    (hended : g.phase = .ended r) : ∀ child ∈ g.children, child.outcome.isSome = true := by
  have hinv : g.Inv :=
    invariant_of_reaches (fun _ _ _ hs hstep => hs.step hstep) (Gather.inv_start n) ⟨actions, hrun⟩
  intro child hmem
  exact hinv.recorded child hmem
    (Gather.doneCount_eq_total.mp (hinv.ended r hended).1 child hmem)

namespace Combinator

variable {c : Combinator α ε ρ} {g g' : Group α ε ρ} {i : Nat}

/-- A waiter that runs has its own task done, and ends nothing. -/
theorem step_runWaiter_frame (h : c.step g (.runWaiter i) = some g') :
    ∃ outcome, g'.children = g.children.set i { outcome := some outcome, finished := true } ∧
      g'.result = g.result := by
  have hresult : ∀ g : Group α ε ρ, (c.onDone i g).result = g.result := by
    intro g
    unfold onDone
    split_ifs <;> rfl
  unfold step at h
  dsimp only at h
  split at h
  · rename_i outcome hget
    rw [← Option.some.inj h]
    refine ⟨outcome, ?_⟩
    split_ifs
    · exact ⟨children_onDone c i _, hresult _⟩
    · exact ⟨children_onDone c i _, hresult _⟩
  · cases h

/-- Waiters finish after their tasks, and the coroutine ends after all tasks. -/
structure Completed (g : Group α ε ρ) : Prop where
  recorded : ∀ child ∈ g.children, child.finished = true → child.outcome.isSome = true
  ended : g.result.isSome = true → ∀ child ∈ g.children, child.outcome.isSome = true

theorem completed_start (n : Nat) : Completed (Group.start n : Group α ε ρ) := by
  refine ⟨fun child hmem hfinished => ?_, fun hended => absurd hended Bool.false_ne_true⟩
  rw [List.eq_of_mem_replicate hmem] at hfinished
  cases hfinished

/-- Replacing a child by one whose task is done keeps what is known. -/
theorem Completed.set (h : Completed g) {outcome : Except ε α} {finished : Bool}
    (hchildren : g'.children = g.children.set i { outcome := some outcome, finished })
    (hresult : g'.result = g.result) : Completed g' := by
  constructor
  · rw [hchildren]
    intro child hmem hfinished
    rcases List.mem_or_eq_of_mem_set hmem with hold | rfl
    · exact h.recorded child hold hfinished
    · rfl
  · rw [hchildren, hresult]
    intro hended child hmem
    rcases List.mem_or_eq_of_mem_set hmem with hold | rfl
    · exact h.ended hended child hold
    · rfl

theorem Completed.finish (h : Completed g) (hall : ¬ g.doneCount < g.total) :
    Completed (c.finish g) := by
  have heq : g.doneCount = g.total := Nat.le_antisymm List.countP_le_length (Nat.not_lt.mp hall)
  refine ⟨h.recorded, fun _ child hmem => ?_⟩
  exact h.recorded child hmem (List.countP_eq_length.mp heq child hmem)

/-- A combinator that waits again until all waiters are done ends after all tasks. -/
theorem Completed.step {action : GatherAction α ε} (hloops : c.loops = true) (h : Completed g)
    (hstep : c.step g action = some g') : Completed g' := by
  cases action with
  | complete i outcome =>
    obtain ⟨finished, -, rfl⟩ := step_complete hstep
    exact h.set rfl rfl
  | spawned =>
    obtain ⟨-, rfl⟩ := step_spawned hstep
    unfold begin
    split_ifs with hdone
    · exact h.finish hdone.2
    · exact ⟨h.recorded, h.ended⟩
  | runWaiter i =>
    obtain ⟨outcome, hchildren, hresult⟩ := step_runWaiter_frame hstep
    exact h.set hchildren hresult
  | resume =>
    obtain ⟨-, rfl⟩ := step_resume hstep
    unfold resumed
    split_ifs with hmore
    · exact ⟨h.recorded, h.ended⟩
    · exact h.finish fun hless => hmore ⟨hloops, hless⟩

end Combinator

open VectorGather in
/-- When an overload over a tuple ends all its tasks have finished. The overloads over a vector
leave nothing running exactly in the runs of `Unhurried`. -/
theorem gather_leaves_nothing_iff :
    (∀ (n : Nat) (actions : List (GatherAction α ε)) (g : Gather α ε) (r : GatherResult α ε),
      exec Gather.step (Gather.start n) actions = some g → g.phase = .ended r →
        ∀ child ∈ g.children, child.outcome.isSome = true) ∧
    (∀ (n : Nat) (actions : List (GatherAction α ε)) (g : Group α ε (List (Except ε α))),
      exec gatherReturnExceptions.step (Group.start n) actions = some g →
        g.result.isSome = true → ∀ child ∈ g.children, child.outcome.isSome = true) ∧
    (∀ (overload : Overload) (valids : List Bool) (actions : List (VectorAction α ε))
        (g : VectorGather α ε),
      exec (step overload) (start valids) actions = some g →
        (Along (step overload) (fun g => g.Unhurried overload) (start valids) actions ↔
          ∀ before after g', actions = before ++ after →
            exec (step overload) (start valids) before = some g' → g'.LeavesNothing)) := by
  refine ⟨fun n actions g r hrun hended => Gather.completed_of_ended hrun hended, ?_, ?_⟩
  · intro n actions g hrun hended
    have hcompleted : Combinator.Completed g :=
      invariant_of_reaches (fun _ _ _ hs hstep => Combinator.Completed.step rfl hs hstep)
        (Combinator.completed_start n) ⟨actions, hrun⟩
    exact hcompleted.ended hended
  · intro overload valids actions g hrun
    exact along_unhurried_iff hrun

/-- Both children return a value, and the coroutine is woken by the second one. -/
theorem gather_leaves_nothing_two :
    ∃ (actions : List (VectorAction Nat Nat)) (g : VectorGather Nat Nat),
      exec (VectorGather.step .awaitables) (VectorGather.start [true, true]) actions = some g ∧
        g.result.isSome = true ∧ g.LeavesNothing := by
  let actions : List (VectorAction Nat Nat) :=
    [.attach, .attach, .wait, .complete 1 (.ok 5), .count 1, .complete 0 (.ok 4), .count 0, .resume]
  refine ⟨actions, _, rfl, rfl, ?_⟩
  exact (gather_leaves_nothing_iff.2.2 .awaitables [true, true] actions _ rfl).mp (by decide)
    actions [] _ (List.append_nil _).symm rfl

/-- Of two children the first fails. The coroutine rethrows its error while the second one is
running. -/
theorem gather_leaves_child_running :
    (¬ ∀ (valids : List Bool) (actions : List (VectorAction Nat Nat)) (g : VectorGather Nat Nat),
      exec (VectorGather.step .tasks) (VectorGather.start valids) actions = some g →
        g.LeavesNothing) ∧
    ¬ ∀ (valids : List Bool) (actions : List (VectorAction Nat Nat)) (g : VectorGather Nat Nat),
      exec (VectorGather.step .awaitables) (VectorGather.start valids) actions = some g →
        g.LeavesNothing := by
  let actions : List (VectorAction Nat Nat) :=
    [.attach, .attach, .wait, .complete 0 (.error 7), .count 0, .resume]
  constructor
  · intro h
    exact absurd (h [true, true] actions _ rfl) (by decide)
  · intro h
    exact absurd (h [true, true] actions _ rfl) (by decide)

end HttpClient.Asyncx
