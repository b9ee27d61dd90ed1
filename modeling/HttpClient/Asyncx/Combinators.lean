import HttpClient.Asyncx.Gather
import HttpClient.Semantics.Bell

/-!
# Combinators that wait

`gather`, `one_of` and `race` spawn a waiter for each of their tasks, `gather_limited` spawns
tasks one after the other; then the coroutine waits on a timer that its children cancel. A
child that is done before the coroutine waits has cancelled nothing, but the flag `wake_once`
is up.

`co_spawn` may run a child at once, up to its first suspension. So children may be done, and
be counted, while the coroutine is still spawning. A child of `gather_limited` launches the
next one between the recording of its own outcome and its being counted.

## Main definitions

* `Group`, `Combinator` — the combinators over a tuple of tasks
* `gatherReturnExceptions`, `oneOf`, `race` — its members, besides `Gather`
* `Limited` — the bounded gathering of many tasks
* `Due`, `Heard` — what a coroutine waits for, and the runs in which its bell is heard

## Main results

* `combinators_sleep_iff` — when a combinator sleeps through a completion
* `combinators_sleep_through` — runs in which each of them does
-/

set_option autoImplicit false

namespace HttpClient.Asyncx

open Semantics

variable {α ε ρ : Type}

/-! ### Combinators over a tuple of tasks -/

/-- The outcome a waiter has recorded. -/
def Child.recorded (child : Child α ε) : Option (Except ε α) :=
  if child.finished then child.outcome else none

/-- A coroutine with the waiters of its tasks. Its bell is the timer with `wake_once`. -/
structure Group (α ε ρ : Type) where
  children : List (Child α ε)
  bell : Bell := {}
  cancelOnce : Bool := false
  /-- The tasks that were cancelled before they were done. -/
  cancelled : List Nat := []
  result : Option ρ := none

/-- How the combinators differ. -/
structure Combinator (α ε ρ : Type) where
  /-- The coroutine waits again as long as a waiter is not done, and does not begin to wait
  if all are. Otherwise it waits once. -/
  loops : Bool
  /-- The first waiter that is done cancels all other tasks, and only that one cancels the
  timer. -/
  cancelsOthers : Bool
  result : List (Child α ε) → ρ

namespace Group

def start (n : Nat) : Group α ε ρ := { children := List.replicate n {} }

def total (g : Group α ε ρ) : Nat := g.children.length

def doneCount (g : Group α ε ρ) : Nat := g.children.countP Child.finished

def wake (g : Group α ε ρ) : Group α ε ρ := { g with bell := g.bell.ring }

/-- The tasks that are not done, but for one. -/
def othersUnfinished (g : Group α ε ρ) (keep : Nat) : List Nat :=
  (List.range g.total).filter fun i =>
    i != keep && g.children[i]?.any fun child => child.outcome.isNone

end Group

namespace Combinator

/-- `on_done` -/
def onDone (c : Combinator α ε ρ) (i : Nat) (g : Group α ε ρ) : Group α ε ρ :=
  if c.cancelsOthers then
    if g.cancelOnce then g
    else
      Group.wake
        { g with cancelOnce := true, cancelled := g.cancelled ++ g.othersUnfinished i }
  else g.wake

def finish (c : Combinator α ε ρ) (g : Group α ε ρ) : Group α ε ρ :=
  { g with bell := { g.bell with sleeper := .over }, result := some (c.result g.children) }

def wait (g : Group α ε ρ) : Group α ε ρ := { g with bell := { g.bell with sleeper := .waiting } }

/-- The coroutine has spawned all waiters. -/
def begin (c : Combinator α ε ρ) (g : Group α ε ρ) : Group α ε ρ :=
  if c.loops ∧ ¬ g.doneCount < g.total then c.finish g else wait g

/-- The coroutine has been woken. -/
def resumed (c : Combinator α ε ρ) (g : Group α ε ρ) : Group α ε ρ :=
  if c.loops ∧ g.doneCount < g.total then { g with bell := { sleeper := .waiting, rung := false } }
  else c.finish g

/-- One step; `none` if it is not enabled. -/
def step (c : Combinator α ε ρ) (g : Group α ε ρ) : GatherAction α ε → Option (Group α ε ρ)
  | .complete i outcome =>
    match g.children[i]? with
    | some { outcome := none, finished } =>
      some { g with children := g.children.set i { outcome := some outcome, finished } }
    | _ => none
  | .spawned =>
    match g.bell.sleeper with
    | .before => some (c.begin g)
    | _ => none
  | .runWaiter i =>
    match g.children[i]? with
    | some { outcome := some outcome, finished := false } =>
      let g :=
        c.onDone i
          { g with children := g.children.set i { outcome := some outcome, finished := true } }
      -- the last waiter cancels the timer once more
      some (if g.doneCount = g.total then g.wake else g)
    | _ => none
  | .resume =>
    match g.bell.sleeper with
    | .woken => some (c.resumed g)
    | _ => none

/-- What the coroutine waits for: all its waiters, or one of them. -/
def Due (c : Combinator α ε ρ) (g : Group α ε ρ) : Prop :=
  if c.loops then g.doneCount = g.total else 0 < g.doneCount

/-- When the coroutine begins to wait no waiter is done; or all are, and it does not. -/
def Heard (c : Combinator α ε ρ) (g : Group α ε ρ) : GatherAction α ε → Prop
  | .spawned => g.doneCount = 0 ∨ (c.loops = true ∧ g.doneCount = g.total)
  | _ => True

end Combinator

/-! ### The members -/

/-- `gather` with `return_exceptions`: the outcomes of all tasks. -/
def gatherReturnExceptions : Combinator α ε (List (Except ε α)) where
  loops := true
  cancelsOthers := false
  result := fun children => children.filterMap Child.recorded

/-- An error, unless a waiter has recorded a value. -/
def optionalTuple (error : Option ε) (children : List (Child α ε)) : Except ε (List (Option α)) :=
  match error with
  | some e => if children.any fun child => child.value.isSome then .ok (children.map Child.value)
    else .error e
  | none => .ok (children.map Child.value)

def oneOf : Combinator α ε (Except ε (List (Option α))) where
  loops := false
  cancelsOthers := false
  result := fun children => optionalTuple (children.findSome? Child.error) children

/-- `race`, with the exceptions that say that a task was cancelled. -/
def race (isCancel : ε → Bool) : Combinator α ε (Except ε (List (Option α))) where
  loops := false
  cancelsOthers := true
  result := fun children =>
    optionalTuple (children.findSome? fun child => child.error.filter fun e => !isCancel e) children

/-! ### Bounded gathering -/

/-- Where a task is: running, with its outcome recorded, or counted too. -/
inductive Item where
  | running
  | settled
  | counted
  deriving DecidableEq, Repr

/-- `gather_limited` -/
structure Limited (α ε : Type) where
  total : Nat
  /-- How many tasks the coroutine itself is still to launch. -/
  toLaunch : Nat
  next : Nat := 0
  /-- The tasks that have been launched, by index. -/
  items : List Item := []
  values : List (Option α)
  firstError : Option ε := none
  stop : Bool := false
  completed : Nat := 0
  bell : Bell := {}
  result : Option (Except ε (List α)) := none

inductive LimitedAction (α ε : Type) where
  /-- The coroutine launches a task. -/
  | launch
  /-- The coroutine begins to wait. -/
  | wait
  /-- A task records its outcome, and launches another one if that is a value. -/
  | settle (i : Nat) (outcome : Except ε α)
  /-- A task is counted. -/
  | count (i : Nat)
  /-- The coroutine resumes. -/
  | resume

namespace Limited

def start (total concurrency : Nat) : Limited α ε :=
  if total = 0 then
    { total, toLaunch := 0, values := [], bell := { sleeper := .over }, result := some (.ok []) }
  else
    { total, toLaunch := min (max 1 concurrency) total, values := List.replicate total none }

/-- `launch_one` -/
def launchOne (g : Limited α ε) : Limited α ε :=
  if g.stop then g
  else if g.total ≤ g.next then { g with next := g.next + 1 }
  else { g with next := g.next + 1, items := g.items ++ [.running] }

/-- A task has ended with an exception. Only the first one wakes the coroutine. -/
def fail (g : Limited α ε) (e : ε) : Limited α ε :=
  match g.firstError with
  | some _ => { g with stop := true }
  | none => { g with firstError := some e, stop := true, bell := g.bell.ring }

def record (g : Limited α ε) (i : Nat) (item : Item) : Limited α ε :=
  { g with items := g.items.set i item }

/-- A task has ended with a value. Once the coroutine has ended nothing is launched. -/
def succeed (g : Limited α ε) (i : Nat) (v : α) : Limited α ε :=
  let g := { g with values := g.values.set i (some v) }
  if g.bell.sleeper = .over then g else g.launchOne

def counted (g : Limited α ε) : Limited α ε :=
  if g.completed + 1 = g.total then
    { g with completed := g.completed + 1, bell := g.bell.ring }
  else { g with completed := g.completed + 1 }

def finish (g : Limited α ε) (result : Except ε (List α)) : Limited α ε :=
  { g with bell := { g.bell with sleeper := .over }, result := some result }

/-- The coroutine has been woken. -/
def resumed (g : Limited α ε) : Limited α ε :=
  match g.firstError with
  | some e => g.finish (.error e)
  | none =>
    if g.total ≤ g.completed then g.finish (.ok (g.values.filterMap id))
    else if g.stop then { g with bell := { g.bell with sleeper := .waiting } }
    else { g with bell := { sleeper := .waiting, rung := false } }

def step (g : Limited α ε) : LimitedAction α ε → Option (Limited α ε)
  | .launch =>
    if g.bell.sleeper = .before ∧ 0 < g.toLaunch then
      some ({ g with toLaunch := g.toLaunch - 1 }.launchOne)
    else none
  | .wait =>
    if g.bell.sleeper = .before ∧ g.toLaunch = 0 then
      some { g with bell := { g.bell with sleeper := .waiting } }
    else none
  | .settle i outcome =>
    match g.items[i]?, outcome with
    | some .running, .ok v => some ((g.record i .settled).succeed i v)
    | some .running, .error e => some ((g.record i .settled).fail e)
    | _, _ => none
  | .count i =>
    match g.items[i]? with
    | some .settled => some (g.record i .counted).counted
    | _ => none
  | .resume => if g.bell.sleeper = .woken then some g.resumed else none

/-- All tasks that have been launched are counted. -/
def Due (g : Limited α ε) : Prop := ∀ item ∈ g.items, item = .counted

/-- When the coroutine begins to wait no task has failed, and not all are counted. -/
def Heard (g : Limited α ε) : LimitedAction α ε → Prop
  | .wait => g.firstError = none ∧ g.completed < g.total
  | _ => True

end Limited

/-! ### The steps of a group -/

namespace Combinator

variable {c : Combinator α ε ρ} {g g' : Group α ε ρ} {i : Nat}

@[simp] theorem children_onDone (c : Combinator α ε ρ) (i : Nat) (g : Group α ε ρ) :
    (c.onDone i g).children = g.children := by
  unfold onDone
  split_ifs <;> rfl

/-- A waiter that is done rings the bell, or an earlier one has cancelled the others. -/
theorem onDone_cases (c : Combinator α ε ρ) (i : Nat) (g : Group α ε ρ) :
    c.onDone i g = g ∧ g.cancelOnce = true ∨
      (c.onDone i g).bell = g.bell.ring ∧
        ((c.onDone i g).cancelOnce = true → c.cancelsOthers = true ∨ g.cancelOnce = true) := by
  unfold onDone
  split_ifs with hothers honce
  · exact Or.inl ⟨rfl, honce⟩
  · exact Or.inr ⟨rfl, fun _ => Or.inl hothers⟩
  · exact Or.inr ⟨rfl, Or.inr⟩

theorem step_complete {outcome : Except ε α} (h : c.step g (.complete i outcome) = some g') :
    ∃ finished, g.children[i]? = some { outcome := none, finished } ∧
      g' = { g with children := g.children.set i { outcome := some outcome, finished } } := by
  unfold step at h
  dsimp only at h
  split at h
  · rename_i finished hchild
    exact ⟨finished, hchild, (Option.some.inj h).symm⟩
  · cases h

theorem step_spawned (h : c.step g .spawned = some g') :
    g.bell.sleeper = .before ∧ g' = c.begin g := by
  unfold step at h
  dsimp only at h
  split at h
  · rename_i hbefore
    exact ⟨hbefore, (Option.some.inj h).symm⟩
  · cases h

/-- A waiter that runs is counted, and rings the bell unless it has been rung before. -/
theorem step_runWaiter (h : c.step g (.runWaiter i) = some g') :
    g'.doneCount = g.doneCount + 1 ∧ g'.total = g.total ∧
      (g'.bell = g.bell.ring ∨ g'.bell = g.bell ∧ g.cancelOnce = true) ∧
      (g'.cancelOnce = true → c.cancelsOthers = true ∨ g.cancelOnce = true) := by
  unfold step at h
  dsimp only at h
  split at h
  · rename_i outcome hchild
    obtain rfl := Option.some.inj h
    set recorded : Group α ε ρ :=
      { g with children := g.children.set i { outcome := some outcome, finished := true } }
      with hrecorded
    have hcount : recorded.doneCount = g.doneCount + 1 := by
      have hset := Gather.countP_set_add { outcome := some outcome, finished := true }
        Child.finished hchild
      simp only [Bool.false_eq_true, if_false, if_true, Nat.add_zero] at hset
      exact hset
    have htotal : recorded.total = g.total := by simp [hrecorded, Group.total]
    have hcalled := onDone_cases c i recorded
    -- the second cancellation changes nothing once the bell has been rung
    split_ifs
    · refine ⟨by simpa [Group.wake, Group.doneCount] using hcount,
        by simpa [Group.wake, Group.total] using htotal, ?_, ?_⟩
      · rcases hcalled with ⟨hsame, -⟩ | ⟨hring, -⟩
        · exact Or.inl (by rw [hsame]; rfl)
        · exact Or.inl (by rw [Group.wake, hring, Bell.ring_of_rung (Bell.rung_ring _)])
      · rcases hcalled with ⟨hsame, honce⟩ | ⟨-, honce⟩
        · exact fun _ => Or.inr honce
        · exact honce
    · refine ⟨by simpa [Group.doneCount] using hcount, by simpa [Group.total] using htotal, ?_, ?_⟩
      · rcases hcalled with ⟨hsame, honce⟩ | ⟨hring, -⟩
        · exact Or.inr ⟨by rw [hsame], honce⟩
        · exact Or.inl hring
      · rcases hcalled with ⟨-, honce⟩ | ⟨-, honce⟩
        · exact fun _ => Or.inr honce
        · exact honce
  · cases h

theorem children_runWaiter (h : c.step g (.runWaiter i) = some g') :
    ∃ outcome, g.children[i]? = some { outcome := some outcome, finished := false } ∧
      g'.children = g.children.set i { outcome := some outcome, finished := true } := by
  unfold step at h
  dsimp only at h
  split at h
  · rename_i outcome hchild
    obtain rfl := Option.some.inj h
    refine ⟨outcome, hchild, ?_⟩
    split_ifs
    · rw [Group.wake, children_onDone]
    · rw [children_onDone]
  · cases h

theorem step_resume (h : c.step g .resume = some g') :
    g.bell.sleeper = .woken ∧ g' = c.resumed g := by
  unfold step at h
  dsimp only at h
  split at h
  · rename_i hwoken
    exact ⟨hwoken, (Option.some.inj h).symm⟩
  · cases h

theorem begin_cases (c : Combinator α ε ρ) (g : Group α ε ρ) :
    (c.loops = true ∧ g.total ≤ g.doneCount) ∧ c.begin g = c.finish g ∨
      ¬ (c.loops = true ∧ g.total ≤ g.doneCount) ∧ c.begin g = wait g := by
  unfold begin
  split_ifs with h
  · exact Or.inl ⟨⟨h.1, Nat.not_lt.mp h.2⟩, rfl⟩
  · exact Or.inr ⟨fun hdone => h ⟨hdone.1, Nat.not_lt.mpr hdone.2⟩, rfl⟩

theorem resumed_cases (c : Combinator α ε ρ) (g : Group α ε ρ) :
    (c.loops = true ∧ g.doneCount < g.total ∧
        c.resumed g = { g with bell := { sleeper := .waiting, rung := false } }) ∨
      c.resumed g = c.finish g := by
  unfold resumed
  split_ifs with h
  · exact Or.inl ⟨h.1, h.2, rfl⟩
  · exact Or.inr rfl

theorem rings (c : Combinator α ε ρ) : Rings c.step Group.bell := by
  intro g action g' hstep
  cases action with
  | complete i outcome =>
    obtain ⟨finished, -, rfl⟩ := step_complete hstep
    exact .stay _
  | spawned =>
    obtain ⟨hbefore, rfl⟩ := step_spawned hstep
    have hidle : g.bell.sleeper ≠ .waiting := by simp [hbefore]
    rcases begin_cases c g with ⟨-, hbegin⟩ | ⟨-, hbegin⟩
    · rw [hbegin]
      exact .stop _ hidle
    · rw [hbegin]
      exact .wait _ hidle
  | runWaiter i =>
    obtain ⟨-, -, hring | ⟨hsame, -⟩, -⟩ := step_runWaiter hstep
    · rw [hring]
      exact .ring _
    · rw [hsame]
      exact .stay _
  | resume =>
    obtain ⟨hwoken, rfl⟩ := step_resume hstep
    rcases resumed_cases c g with ⟨-, -, hresumed⟩ | hresumed
    · rw [hresumed]
      exact .rearm _ hwoken
    · rw [hresumed]
      exact .stop _ (by simp [hwoken])

/-! ### What every step of a group keeps -/

/-- The invariant of all runs. -/
structure Inv (c : Combinator α ε ρ) (g : Group α ε ρ) : Prop where
  once : g.cancelOnce = true → c.cancelsOthers = true
  cancelled : g.cancelOnce = true → g.bell.rung = true
  /-- Before the wait the bell is rung by waiters only. -/
  before : g.bell.sleeper = .before → g.bell.rung = true → 0 < g.doneCount
  /-- Until the bell is put down for the first time every waiter has rung it. -/
  silent : c.loops = false ∨ g.bell.sleeper = .before → g.bell.rung = false → g.doneCount = 0
  awake : g.bell.sleeper = .waiting → g.bell.rung = false → ¬ c.Due g

theorem inv_start (c : Combinator α ε ρ) (n : Nat) : c.Inv (Group.start n) := by
  have hnone : (Group.start n : Group α ε ρ).doneCount = 0 := by
    simp [Group.doneCount, Group.start, List.countP_replicate]
  exact ⟨fun h => absurd h Bool.false_ne_true, fun h => absurd h Bool.false_ne_true,
    fun _ h => absurd h Bool.false_ne_true, fun _ _ => hnone, fun h => by cases h⟩

theorem doneCount_le_total (g : Group α ε ρ) : g.doneCount ≤ g.total := List.countP_le_length

theorem Inv.finish (h : c.Inv g) (hsilent : c.loops = false → g.bell.rung = false →
    g.doneCount = 0) : c.Inv (c.finish g) := by
  refine ⟨h.once, h.cancelled, fun hbefore => (by cases hbefore), fun hfirst hdown => ?_,
    fun hwaiting => by cases hwaiting⟩
  rcases hfirst with honce | hbefore
  · exact hsilent honce hdown
  · cases hbefore

theorem Inv.begin (h : c.Inv g) (hbefore : g.bell.sleeper = .before) : c.Inv (c.begin g) := by
  rcases begin_cases c g with ⟨-, hbegin⟩ | ⟨hmore, hbegin⟩
  · rw [hbegin]
    exact h.finish fun _ => h.silent (Or.inr hbefore)
  · rw [hbegin]
    refine ⟨h.once, h.cancelled, fun hlater => (by cases hlater),
      fun _ => h.silent (Or.inr hbefore), fun _ hdown hdue => ?_⟩
    have hnone : g.doneCount = 0 := h.silent (Or.inr hbefore) hdown
    have hdue : c.Due g := hdue
    unfold Due at hdue
    split_ifs at hdue with hloops
    · exact hmore ⟨hloops, Nat.le_of_eq hdue.symm⟩
    · omega

/-- Only a combinator that waits once cancels the other tasks. -/
theorem Inv.resumed (hc : c.loops = true → c.cancelsOthers = false) (h : c.Inv g) :
    c.Inv (c.resumed g) := by
  rcases resumed_cases c g with ⟨hloops, hmore, hresumed⟩ | hresumed
  · rw [hresumed]
    refine ⟨h.once, fun honce => ?_, fun hbefore => (by cases hbefore), fun hfirst => ?_,
      fun _ _ hdue => ?_⟩
    · exact absurd (h.once honce) (by simp [hc hloops])
    · rcases hfirst with honce | hbefore
      · exact absurd hloops (by simp [honce])
      · cases hbefore
    · have hdue : c.Due g := hdue
      rw [Due, if_pos hloops] at hdue
      omega
  · rw [hresumed]
    exact h.finish fun honce => h.silent (Or.inl honce)

theorem Inv.step {action : GatherAction α ε} (hc : c.loops = true → c.cancelsOthers = false)
    (h : c.Inv g) (hstep : c.step g action = some g') : c.Inv g' := by
  cases action with
  | complete i outcome =>
    obtain ⟨finished, hget, rfl⟩ := step_complete hstep
    have hcount : (g.children.set i { outcome := some outcome, finished }).countP Child.finished =
        g.children.countP Child.finished := Gather.countP_set_outcome hget
    have htotal : (g.children.set i { outcome := some outcome, finished }).length =
        g.children.length := List.length_set
    refine ⟨h.once, h.cancelled, fun hbefore hup => ?_, fun hfirst hdown => ?_,
      fun hwaiting hdown => ?_⟩
    · simp only [Group.doneCount, hcount]
      exact h.before hbefore hup
    · simp only [Group.doneCount, hcount]
      exact h.silent hfirst hdown
    · simp only [Due, Group.doneCount, Group.total, hcount, htotal]
      exact h.awake hwaiting hdown
  | spawned =>
    obtain ⟨hbefore, rfl⟩ := step_spawned hstep
    exact h.begin hbefore
  | runWaiter i =>
    obtain ⟨hcount, -, hbell, honce⟩ := step_runWaiter hstep
    have hup : g'.bell.rung = true := by
      rcases hbell with hring | ⟨hsame, hcancelled⟩
      · rw [hring]
        exact Bell.rung_ring _
      · rw [hsame]
        exact h.cancelled hcancelled
    refine ⟨fun hcancelled => ?_, fun _ => hup, fun _ _ => by omega,
      fun _ hdown => absurd hup (by simp [hdown]), fun _ hdown => absurd hup (by simp [hdown])⟩
    rcases honce hcancelled with hothers | hbefore
    · exact hothers
    · exact h.once hbefore
  | resume =>
    obtain ⟨-, rfl⟩ := step_resume hstep
    exact h.resumed hc

/-- A step loses the bell exactly if the coroutine begins a wait that is not heard. -/
theorem Inv.heard_iff {action : GatherAction α ε} (h : c.Inv g) (hgood : ¬ g.bell.Lost)
    (hstep : c.step g action = some g') : c.Heard g action ↔ ¬ g'.bell.Lost := by
  cases action with
  | complete i outcome =>
    obtain ⟨finished, -, rfl⟩ := step_complete hstep
    exact iff_of_true trivial hgood
  | spawned =>
    obtain ⟨hbefore, rfl⟩ := step_spawned hstep
    have hle := doneCount_le_total g
    rcases begin_cases c g with ⟨⟨hloops, hall⟩, hbegin⟩ | ⟨hmore, hbegin⟩
    · rw [hbegin]
      exact iff_of_true (Or.inr ⟨hloops, by omega⟩) fun hlost => by cases hlost.1
    · rw [hbegin]
      constructor
      · rintro (hnone | ⟨hloops, hall⟩) hlost
        · have hpos := h.before hbefore hlost.2
          omega
        · exact hmore ⟨hloops, Nat.le_of_eq hall.symm⟩
      · intro hheard
        refine Or.inl (h.silent (Or.inr hbefore) ?_)
        by_contra hup
        have hrung : g.bell.rung = true := by simpa using hup
        exact hheard ⟨rfl, hrung⟩
  | runWaiter i =>
    refine iff_of_true trivial ?_
    obtain ⟨-, -, hring | ⟨hsame, -⟩, -⟩ := step_runWaiter hstep
    · rw [hring]
      exact Bell.not_lost_ring hgood
    · rw [hsame]
      exact hgood
  | resume =>
    obtain ⟨-, rfl⟩ := step_resume hstep
    refine iff_of_true trivial ?_
    rcases resumed_cases c g with ⟨-, -, hresumed⟩ | hresumed
    · rw [hresumed]
      exact fun hlost => absurd hlost.2 Bool.false_ne_true
    · rw [hresumed]
      exact fun hlost => by cases hlost.1

/-- When a group sleeps through a completion. -/
theorem sleeps_iff (c : Combinator α ε ρ) (hc : c.loops = true → c.cancelsOthers = false)
    (n : Nat) (actions : List (GatherAction α ε)) (hrun : exec c.step (Group.start n) actions =
      some g) :
    SleepsThrough c.step Group.bell c.Due g ↔
      c.Due g ∧ ¬ Along c.step c.Heard (Group.start n) actions :=
  sleepsThrough_iff_not_along (rings c) (fun _ _ _ h hstep => Inv.step hc h hstep)
    (fun _ _ _ h hgood hstep => h.heard_iff hgood hstep) (fun _ h => h.awake) (inv_start c n)
    (fun hlost => absurd hlost.2 Bool.false_ne_true) hrun

end Combinator

/-! ### `gather` -/

namespace Gather

variable {g g' : Gather α ε} {i : Nat}

/-- The timer with `wake_once`. -/
def bell (g : Gather α ε) : Bell where
  sleeper :=
    match g.phase with
    | .spawning => .before
    | .waiting => .waiting
    | .woken => .woken
    | .ended _ => .over
  rung := g.wakeOnce

def Due (g : Gather α ε) : Prop := g.doneCount = g.total

/-- When the coroutine begins to wait no waiter is done; or all are, and it does not. -/
def Heard (g : Gather α ε) : GatherAction α ε → Prop
  | .spawned => g.doneCount = 0 ∨ g.doneCount = g.total
  | _ => True

theorem bell_wake (g : Gather α ε) : g.wake.bell = g.bell.ring := by
  unfold wake Bell.ring bell
  by_cases hup : g.wakeOnce = true
  · simp [hup]
  · cases hphase : g.phase <;> simp [hup]

theorem bell_cancelAll (g : Gather α ε) : g.cancelAll.bell = g.bell := by
  unfold cancelAll
  cases firstError g.children with
  | none => rfl
  | some error =>
    dsimp only
    split_ifs <;> rfl

theorem rings : Rings (α := GatherAction α ε) Gather.step Gather.bell := by
  intro g action g' hstep
  cases action with
  | complete i outcome =>
    obtain ⟨finished, -, rfl⟩ := step_complete hstep
    exact .stay _
  | spawned =>
    obtain ⟨hphase, rfl⟩ := step_spawned hstep
    have hidle : g.bell.sleeper ≠ .waiting := by simp [bell, hphase]
    unfold loop
    split_ifs
    · exact .wait _ hidle
    · exact .stop _ hidle
  | runWaiter i =>
    obtain ⟨outcome, -, rfl⟩ := step_runWaiter hstep
    rw [bell_wake]
    exact .ring g.bell
  | resume =>
    obtain ⟨hphase, rfl⟩ := step_resume hstep
    have hwoken : g.bell.sleeper = .woken := by simp [bell, hphase]
    split_ifs
    · exact .rearm _ hwoken
    · rw [← bell_cancelAll g]
      exact .stop _ (by simp [bell_cancelAll, hwoken])

/-- The invariant of all runs, and that whoever waits with the flag down waits for a
waiter. -/
structure Awake (g : Gather α ε) : Prop extends g.Inv where
  awake : g.phase = .waiting → g.wakeOnce = false → g.doneCount < g.total

theorem Awake.step {action : GatherAction α ε} (h : g.Awake) (hstep : g.step action = some g') :
    g'.Awake := by
  refine ⟨h.toInv.step hstep, ?_⟩
  cases action with
  | complete i outcome =>
    obtain ⟨finished, hget, rfl⟩ := step_complete hstep
    have hcount : (g.children.set i { outcome := some outcome, finished }).countP Child.finished =
        g.children.countP Child.finished := countP_set_outcome hget
    simp only [doneCount, total, hcount, List.length_set]
    exact h.awake
  | spawned =>
    obtain ⟨-, rfl⟩ := step_spawned hstep
    unfold loop
    split_ifs with hmore
    · exact fun _ _ => hmore
    · exact fun hwaiting => absurd hwaiting (by simp [finish])
  | runWaiter i =>
    obtain ⟨outcome, -, rfl⟩ := step_runWaiter hstep
    exact fun _ hdown => absurd (hdown.symm.trans (wakeOnce_wake _)) Bool.false_ne_true
  | resume =>
    obtain ⟨-, rfl⟩ := step_resume hstep
    split_ifs with hmore
    · exact fun _ _ => hmore
    · exact fun hwaiting => absurd hwaiting (by simp [finish])

theorem Awake.heard_iff {action : GatherAction α ε} (h : g.Awake) (hgood : ¬ g.bell.Lost)
    (hstep : g.step action = some g') : g.Heard action ↔ ¬ g'.bell.Lost := by
  cases action with
  | complete i outcome =>
    obtain ⟨finished, -, rfl⟩ := step_complete hstep
    exact iff_of_true trivial hgood
  | spawned =>
    obtain ⟨hphase, rfl⟩ := step_spawned hstep
    have hle := doneCount_le_total g
    unfold loop
    split_ifs with hmore
    · have hlost : Bell.Lost (bell { g with phase := .waiting }) ↔ 0 < g.doneCount :=
        (and_iff_right rfl).trans (h.spawning hphase)
      rw [hlost]
      constructor
      · rintro (hnone | hall) <;> omega
      · exact fun hnone => Or.inl (by omega)
    · exact iff_of_true (Or.inr (by omega)) fun hlost => by cases hlost.1
  | runWaiter i =>
    obtain ⟨outcome, -, rfl⟩ := step_runWaiter hstep
    refine iff_of_true trivial ?_
    rw [bell_wake]
    exact Bell.not_lost_ring hgood
  | resume =>
    obtain ⟨-, rfl⟩ := step_resume hstep
    refine iff_of_true trivial ?_
    split_ifs
    · exact fun hlost => absurd hlost.2 Bool.false_ne_true
    · exact fun hlost => by cases hlost.1

theorem sleeps_iff (n : Nat) (actions : List (GatherAction α ε))
    (hrun : exec Gather.step (start n) actions = some g) :
    SleepsThrough Gather.step Gather.bell Due g ↔
      g.Due ∧ ¬ Along Gather.step Heard (start n) actions := by
  have hkept : ∀ (s : Gather α ε) a t, s.Awake → s.step a = some t → t.Awake :=
    fun _ _ _ h hstep => h.step hstep
  refine sleepsThrough_iff_not_along rings hkept
    (fun _ _ _ h hgood hstep => h.heard_iff hgood hstep) (fun g h hwaiting hdown hdue => ?_)
    ⟨inv_start n, fun hwaiting => absurd hwaiting (by simp [start])⟩
    (fun hlost => absurd hlost.2 Bool.false_ne_true) hrun
  have hphase : g.phase = .waiting := by
    unfold bell at hwaiting
    cases hphase : g.phase <;> simp [hphase] at hwaiting ⊢
  have hmore := h.awake hphase hdown
  exact absurd hdue (Nat.ne_of_lt hmore)

end Gather

/-! ### The steps of a bounded gathering -/

namespace Limited

variable {g g' : Limited α ε} {i : Nat}

theorem step_launch (h : g.step .launch = some g') :
    g.bell.sleeper = .before ∧ 0 < g.toLaunch ∧
      g' = { g with toLaunch := g.toLaunch - 1 }.launchOne := by
  unfold step at h
  dsimp only at h
  split_ifs at h with henabled
  exact ⟨henabled.1, henabled.2, (Option.some.inj h).symm⟩

theorem step_wait (h : g.step .wait = some g') :
    g.bell.sleeper = .before ∧ g.toLaunch = 0 ∧
      g' = { g with bell := { g.bell with sleeper := .waiting } } := by
  unfold step at h
  dsimp only at h
  split_ifs at h with henabled
  exact ⟨henabled.1, henabled.2, (Option.some.inj h).symm⟩

theorem step_settle {outcome : Except ε α} (h : g.step (.settle i outcome) = some g') :
    g.items[i]? = some .running ∧
      ((∃ v, outcome = .ok v ∧ g' = (g.record i .settled).succeed i v) ∨
        ∃ e, outcome = .error e ∧ g' = (g.record i .settled).fail e) := by
  unfold step at h
  dsimp only at h
  split at h
  · rename_i v hitem
    exact ⟨hitem, Or.inl ⟨v, rfl, (Option.some.inj h).symm⟩⟩
  · rename_i e hitem
    exact ⟨hitem, Or.inr ⟨e, rfl, (Option.some.inj h).symm⟩⟩
  · cases h

theorem step_count (h : g.step (.count i) = some g') :
    g.items[i]? = some .settled ∧ g' = (g.record i .counted).counted := by
  unfold step at h
  dsimp only at h
  split at h
  · rename_i hitem
    exact ⟨hitem, (Option.some.inj h).symm⟩
  · cases h

theorem step_resume (h : g.step .resume = some g') :
    g.bell.sleeper = .woken ∧ g' = g.resumed := by
  unfold step at h
  dsimp only at h
  split_ifs at h with hwoken
  exact ⟨hwoken, (Option.some.inj h).symm⟩

@[simp] theorem bell_launchOne (g : Limited α ε) : g.launchOne.bell = g.bell := by
  unfold launchOne
  split_ifs <;> rfl

@[simp] theorem bell_succeed (g : Limited α ε) (i : Nat) (v : α) :
    (g.succeed i v).bell = g.bell := by
  unfold succeed
  dsimp only
  split_ifs
  · rfl
  · exact bell_launchOne _

/-- How a task is recorded that has failed. -/
theorem fail_cases (g : Limited α ε) (e : ε) :
    (∃ first, g.firstError = some first) ∧ g.fail e = { g with stop := true } ∨
      g.firstError = none ∧
        g.fail e = { g with firstError := some e, stop := true, bell := g.bell.ring } := by
  unfold fail
  cases hfirst : g.firstError with
  | some first => exact Or.inl ⟨⟨first, rfl⟩, rfl⟩
  | none => exact Or.inr ⟨rfl, rfl⟩

theorem resumed_cases (g : Limited α ε) :
    (∃ result, g.resumed = g.finish result) ∨
      g.firstError = none ∧ g.completed < g.total ∧
        g.resumed = if g.stop then { g with bell := { g.bell with sleeper := .waiting } }
          else { g with bell := { sleeper := .waiting, rung := false } } := by
  unfold resumed
  cases hfirst : g.firstError with
  | some e => exact Or.inl ⟨_, rfl⟩
  | none =>
    dsimp only
    by_cases hall : g.total ≤ g.completed
    · exact Or.inl ⟨_, if_pos hall⟩
    · exact Or.inr ⟨rfl, by omega, if_neg hall⟩

theorem rings : Rings (α := LimitedAction α ε) Limited.step Limited.bell := by
  intro g action g' hstep
  cases action with
  | launch =>
    obtain ⟨-, -, rfl⟩ := step_launch hstep
    rw [bell_launchOne]
    exact .stay _
  | wait =>
    obtain ⟨hbefore, -, rfl⟩ := step_wait hstep
    exact .wait _ (by simp [hbefore])
  | settle i outcome =>
    obtain ⟨-, ⟨v, -, rfl⟩ | ⟨e, -, rfl⟩⟩ := step_settle hstep
    · rw [bell_succeed]
      exact .stay g.bell
    · rcases fail_cases (g.record i .settled) e with ⟨-, hfail⟩ | ⟨-, hfail⟩
      · rw [hfail]
        exact .stay g.bell
      · rw [hfail]
        exact .ring g.bell
  | count i =>
    obtain ⟨-, rfl⟩ := step_count hstep
    unfold counted
    split_ifs
    · exact .ring g.bell
    · exact .stay g.bell
  | resume =>
    obtain ⟨hwoken, rfl⟩ := step_resume hstep
    have hidle : g.bell.sleeper ≠ .waiting := by simp [hwoken]
    rcases resumed_cases g with ⟨result, hresumed⟩ | ⟨-, -, hresumed⟩
    · rw [hresumed]
      exact .stop _ hidle
    · rw [hresumed]
      split_ifs
      · exact .wait _ hidle
      · exact .rearm _ hwoken

/-! ### What every step of a bounded gathering keeps -/

/-- The invariant of all runs. -/
structure Inv (g : Limited α ε) : Prop where
  completed : g.completed = g.items.countP (· = .counted)
  launched : g.items.length = min g.next g.total
  stopped : g.stop = true → g.firstError.isSome = true
  waiting : g.bell.sleeper ≠ .before → g.toLaunch = 0
  /-- Whoever finds the flag down has neither an error nor all tasks. -/
  silent : g.bell.sleeper ≠ .over → g.bell.rung = false →
    g.firstError = none ∧ g.completed < g.total
  before : g.bell.sleeper = .before → g.bell.rung = true →
    g.firstError.isSome = true ∨ g.completed = g.total
  /-- As long as tasks are left to launch, the coroutine or a running task launches them. -/
  progress : g.bell.sleeper ≠ .over → g.stop = false →
    0 < g.toLaunch ∨ g.total ≤ g.next ∨ .running ∈ g.items

theorem inv_start (total concurrency : Nat) : (start total concurrency : Limited α ε).Inv := by
  unfold start
  split_ifs with htotal
  · exact ⟨rfl, by simp [htotal], fun h => absurd h Bool.false_ne_true, fun _ => rfl,
      fun h => absurd rfl h, fun h => (by cases h), fun h => absurd rfl h⟩
  · have hpos : 0 < min (max 1 concurrency) total := by omega
    exact ⟨rfl, by simp, fun h => absurd h Bool.false_ne_true, fun h => absurd rfl h,
      fun _ _ => ⟨rfl, Nat.pos_of_ne_zero htotal⟩, fun _ h => absurd h Bool.false_ne_true,
      fun _ _ => Or.inl hpos⟩

/-- What replacing one item does to the number of those that are counted. -/
theorem countP_set_item {items : List Item} {item : Item} (item' : Item)
    (hget : items[i]? = some item) :
    (items.set i item').countP (· = .counted) + (if item = .counted then 1 else 0) =
      items.countP (· = .counted) + if item' = .counted then 1 else 0 := by
  obtain ⟨hi, rfl⟩ := List.getElem?_eq_some_iff.mp hget
  have hold := (List.getElem_cons_eraseIdx_perm hi).countP_eq (· = Item.counted)
  rw [List.countP_cons] at hold
  rw [List.countP_set hi]
  simp only [decide_eq_true_eq] at hold ⊢
  omega

/-- Launching a task keeps the invariant, and makes sure that tasks go on being launched. -/
theorem launchOne_keeps (hcompleted : g.completed = g.items.countP (· = .counted))
    (hlaunched : g.items.length = min g.next g.total) :
    g.launchOne.completed = g.launchOne.items.countP (· = .counted) ∧
      g.launchOne.items.length = min g.launchOne.next g.launchOne.total ∧
      (g.stop = false → g.total ≤ g.launchOne.next ∨ .running ∈ g.launchOne.items) := by
  unfold launchOne
  split_ifs with hstop hall
  · exact ⟨hcompleted, hlaunched, fun h => absurd h (by simp [hstop])⟩
  · refine ⟨hcompleted, ?_, fun _ => Or.inl (Nat.le_succ_of_le hall)⟩
    dsimp only
    omega
  · refine ⟨?_, ?_, fun _ => Or.inr (by simp)⟩
    · simpa using hcompleted
    · simp only [List.length_append, List.length_singleton]
      omega

@[simp] theorem launchOne_firstError (g : Limited α ε) :
    g.launchOne.firstError = g.firstError := by
  unfold launchOne
  split_ifs <;> rfl

@[simp] theorem launchOne_total (g : Limited α ε) : g.launchOne.total = g.total := by
  unfold launchOne
  split_ifs <;> rfl

@[simp] theorem launchOne_toLaunch (g : Limited α ε) : g.launchOne.toLaunch = g.toLaunch := by
  unfold launchOne
  split_ifs <;> rfl

@[simp] theorem launchOne_completed (g : Limited α ε) : g.launchOne.completed = g.completed := by
  unfold launchOne
  split_ifs <;> rfl

@[simp] theorem launchOne_stop (g : Limited α ε) : g.launchOne.stop = g.stop := by
  unfold launchOne
  split_ifs <;> rfl

theorem Inv.launch (h : g.Inv) (hbefore : g.bell.sleeper = .before) :
    Inv { g with toLaunch := g.toLaunch - 1 }.launchOne := by
  obtain ⟨hcompleted, hlaunched, hprogress⟩ :=
    launchOne_keeps (g := { g with toLaunch := g.toLaunch - 1 }) h.completed h.launched
  refine ⟨hcompleted, hlaunched, ?_, ?_, ?_, ?_, ?_⟩
  · simpa using h.stopped
  · simp [hbefore]
  · simpa using h.silent
  · simpa using h.before
  · intro _ hstop
    rw [launchOne_stop] at hstop
    rw [launchOne_total]
    exact Or.inr (hprogress hstop)

/-- A task that has recorded a value launches another one, unless the coroutine has ended. -/
theorem Inv.succeed (h : g.Inv) (hitem : g.items[i]? = some .running) (v : α) :
    ((g.record i .settled).succeed i v).Inv := by
  have hcount := countP_set_item .settled hitem
  simp only [reduceCtorEq, if_false, Nat.add_zero] at hcount
  have hcompleted : g.completed = (g.items.set i .settled).countP (· = .counted) :=
    h.completed.trans hcount.symm
  have hlaunched : (g.items.set i .settled).length = min g.next g.total := by
    rw [List.length_set]
    exact h.launched
  unfold Limited.succeed
  dsimp only
  split_ifs with hover
  · exact ⟨hcompleted, hlaunched, h.stopped, h.waiting, h.silent, h.before,
      fun hnot => absurd hover hnot⟩
  · set settled : Limited α ε :=
      { g.record i .settled with values := (g.record i .settled).values.set i (some v) }
      with hsettled
    obtain ⟨hcompleted, hlaunched, hprogress⟩ :=
      launchOne_keeps (g := settled) hcompleted hlaunched
    refine ⟨hcompleted, hlaunched, ?_, ?_, ?_, ?_, ?_⟩
    · simpa [hsettled, record] using h.stopped
    · simpa [hsettled, record] using h.waiting
    · simpa [hsettled, record] using h.silent
    · simpa [hsettled, record] using h.before
    · intro _ hstop
      rw [launchOne_stop] at hstop
      rw [launchOne_total]
      exact Or.inr (hprogress hstop)

theorem Inv.fail (h : g.Inv) (hitem : g.items[i]? = some .running) (e : ε) :
    ((g.record i .settled).fail e).Inv := by
  have hcount := countP_set_item .settled hitem
  simp only [reduceCtorEq, if_false, Nat.add_zero] at hcount
  have hcompleted : g.completed = (g.items.set i .settled).countP (· = .counted) :=
    h.completed.trans hcount.symm
  have hlaunched : (g.items.set i .settled).length = min g.next g.total := by
    rw [List.length_set]
    exact h.launched
  rcases fail_cases (g.record i .settled) e with ⟨⟨first, hfirst⟩, hfail⟩ | ⟨-, hfail⟩
  · rw [hfail]
    exact ⟨hcompleted, hlaunched, fun _ => by simp [record] at hfirst; simp [record, hfirst],
      h.waiting, h.silent, h.before, fun _ hstop => absurd hstop (by simp)⟩
  · rw [hfail]
    refine ⟨hcompleted, hlaunched, fun _ => rfl, fun hnot => h.waiting fun hbefore => ?_,
      fun _ hdown => ?_, fun _ _ => Or.inl rfl, fun _ hstop => absurd hstop (by simp)⟩
    · exact hnot ((Bell.sleeper_ring (by simp [record, hbefore])).trans hbefore)
    · exact absurd hdown (by simp [record])

theorem mem_set_of_ne {items : List Item} {item item' other : Item} (hget : items[i]? = some item)
    (hmem : other ∈ items) (hne : other ≠ item) : other ∈ items.set i item' := by
  obtain ⟨j, hj⟩ := List.mem_iff_getElem?.mp hmem
  have hij : i ≠ j := by
    rintro rfl
    exact hne (Option.some.inj (hj.symm.trans hget))
  exact List.mem_of_getElem? ((List.getElem?_set_ne hij).trans hj)

/-- The last task that is counted rings the bell. -/
theorem Inv.counted (h : g.Inv) (hitem : g.items[i]? = some .settled) :
    (g.record i .counted).counted.Inv := by
  have hcount := countP_set_item .counted hitem
  simp only [reduceCtorEq, if_false, if_true, Nat.add_zero] at hcount
  have hcompleted : g.completed + 1 = (g.items.set i .counted).countP (· = .counted) := by
    rw [hcount, h.completed]
  have hlaunched : (g.items.set i .counted).length = min g.next g.total := by
    rw [List.length_set]
    exact h.launched
  have hle : g.completed + 1 ≤ g.total := by
    have hlength := List.countP_le_length (p := (· = Item.counted)) (l := g.items.set i .counted)
    omega
  have hprogress : g.bell.sleeper ≠ .over → g.stop = false →
      0 < g.toLaunch ∨ g.total ≤ g.next ∨ .running ∈ g.items.set i .counted := by
    intro hover hstop
    rcases h.progress hover hstop with hlaunch | hall | hrunning
    · exact Or.inl hlaunch
    · exact Or.inr (Or.inl hall)
    · exact Or.inr (Or.inr (mem_set_of_ne hitem hrunning (by decide)))
  unfold Limited.counted
  split_ifs with hlast
  · refine ⟨hcompleted, hlaunched, h.stopped, fun hnot => h.waiting fun hbefore => ?_,
      fun _ hdown => ?_, fun _ _ => Or.inr hlast, fun hover => hprogress fun hold => ?_⟩
    · exact hnot ((Bell.sleeper_ring (by simp [record, hbefore])).trans hbefore)
    · exact absurd hdown (by simp [record])
    · exact hover ((Bell.sleeper_ring (by simp [record, hold])).trans hold)
  · have hmore : g.completed + 1 < g.total := Nat.lt_of_le_of_ne hle hlast
    refine ⟨hcompleted, hlaunched, h.stopped, h.waiting,
      fun hover hdown => ⟨(h.silent hover hdown).1, hmore⟩, fun hbefore hup => Or.inl ?_,
      hprogress⟩
    rcases h.before hbefore hup with herror | hall
    · exact herror
    · exact absurd hall (by omega)

theorem Inv.not_stop (h : g.Inv) (hnone : g.firstError = none) : g.stop = false := by
  by_contra hstop
  have hsome := h.stopped (by simpa using hstop)
  rw [hnone] at hsome
  exact Bool.false_ne_true hsome

theorem Inv.resumed (h : g.Inv) (hwoken : g.bell.sleeper = .woken) : g.resumed.Inv := by
  have hlaunch : g.toLaunch = 0 := h.waiting (by simp [hwoken])
  rcases resumed_cases g with ⟨result, hresumed⟩ | ⟨hnone, hmore, hresumed⟩
  · rw [hresumed]
    exact ⟨h.completed, h.launched, h.stopped, fun _ => hlaunch, fun hover => absurd rfl hover,
      fun hbefore => (by cases hbefore), fun hover => absurd rfl hover⟩
  · rw [hresumed, if_neg (by simp [h.not_stop hnone])]
    exact ⟨h.completed, h.launched, h.stopped, fun _ => hlaunch, fun _ _ => ⟨hnone, hmore⟩,
      fun hbefore => (by cases hbefore), fun _ => h.progress (by simp [hwoken])⟩

theorem Inv.step {action : LimitedAction α ε} (h : g.Inv) (hstep : g.step action = some g') :
    g'.Inv := by
  cases action with
  | launch =>
    obtain ⟨hbefore, -, rfl⟩ := step_launch hstep
    exact h.launch hbefore
  | wait =>
    obtain ⟨hbefore, hlaunch, rfl⟩ := step_wait hstep
    have hidle : g.bell.sleeper ≠ .over := by simp [hbefore]
    exact ⟨h.completed, h.launched, h.stopped, fun _ => hlaunch, fun _ => h.silent hidle,
      fun hlater => (by cases hlater), fun _ => h.progress hidle⟩
  | settle i outcome =>
    obtain ⟨hitem, ⟨v, -, rfl⟩ | ⟨e, -, rfl⟩⟩ := step_settle hstep
    · exact h.succeed hitem v
    · exact h.fail hitem e
  | count i =>
    obtain ⟨hitem, rfl⟩ := step_count hstep
    exact h.counted hitem
  | resume =>
    obtain ⟨hwoken, rfl⟩ := step_resume hstep
    exact h.resumed hwoken

/-- Whoever waits with the flag down waits for a task that is not counted. -/
theorem Inv.awake (h : g.Inv) (hwaiting : g.bell.sleeper = .waiting)
    (hdown : g.bell.rung = false) : ¬ g.Due := by
  intro hdue
  obtain ⟨hnone, hmore⟩ := h.silent (by simp [hwaiting]) hdown
  have hlaunch : g.toLaunch = 0 := h.waiting (by simp [hwaiting])
  have hcounted : g.items.countP (· = .counted) = g.items.length :=
    List.countP_eq_length.mpr fun item hmem => by simpa using hdue item hmem
  rcases h.progress (by simp [hwaiting]) (h.not_stop hnone) with hpos | hall | hrunning
  · omega
  · have hlength := h.launched
    have hcompleted := h.completed
    omega
  · exact absurd (hdue _ hrunning) (by decide)

theorem Inv.heard_iff {action : LimitedAction α ε} (h : g.Inv) (hgood : ¬ g.bell.Lost)
    (hstep : g.step action = some g') : g.Heard action ↔ ¬ g'.bell.Lost := by
  cases action with
  | launch =>
    obtain ⟨-, -, rfl⟩ := step_launch hstep
    rw [bell_launchOne]
    exact iff_of_true trivial hgood
  | wait =>
    obtain ⟨hbefore, -, rfl⟩ := step_wait hstep
    constructor
    · rintro ⟨hnone, hmore⟩ hlost
      rcases h.before hbefore hlost.2 with herror | hall
      · rw [hnone] at herror
        exact Bool.false_ne_true herror
      · omega
    · intro hheard
      refine h.silent (by simp [hbefore]) ?_
      by_contra hup
      have hrung : g.bell.rung = true := by simpa using hup
      exact hheard ⟨rfl, hrung⟩
  | settle i outcome =>
    refine iff_of_true trivial ?_
    obtain ⟨-, ⟨v, -, rfl⟩ | ⟨e, -, rfl⟩⟩ := step_settle hstep
    · rw [bell_succeed]
      exact hgood
    · rcases fail_cases (g.record i .settled) e with ⟨-, hfail⟩ | ⟨-, hfail⟩
      · rw [hfail]
        exact hgood
      · rw [hfail]
        exact Bell.not_lost_ring hgood
  | count i =>
    refine iff_of_true trivial ?_
    obtain ⟨-, rfl⟩ := step_count hstep
    unfold Limited.counted
    split_ifs
    · exact Bell.not_lost_ring hgood
    · exact hgood
  | resume =>
    refine iff_of_true trivial ?_
    obtain ⟨hwoken, rfl⟩ := step_resume hstep
    rcases resumed_cases g with ⟨result, hresumed⟩ | ⟨hnone, -, hresumed⟩
    · rw [hresumed]
      exact fun hlost => by cases hlost.1
    · rw [hresumed, if_neg (by simp [h.not_stop hnone])]
      exact fun hlost => absurd hlost.2 Bool.false_ne_true

theorem sleeps_iff (total concurrency : Nat) (actions : List (LimitedAction α ε))
    (hrun : exec Limited.step (start total concurrency) actions = some g) :
    SleepsThrough Limited.step Limited.bell Due g ↔
      g.Due ∧ ¬ Along Limited.step Heard (start total concurrency) actions := by
  have hgood : ¬ (start total concurrency : Limited α ε).bell.Lost := by
    unfold start
    split_ifs <;> exact fun hlost => by cases hlost.1
  exact sleepsThrough_iff_not_along rings (fun _ _ _ h hstep => h.step hstep)
    (fun _ _ _ h hgood hstep => h.heard_iff hgood hstep) (fun _ h => h.awake)
    (inv_start total concurrency) hgood hrun

end Limited

/-! ### All combinators -/

/-- In every run from `start` the coroutine sleeps through what it waits for exactly if that
has come about and the wait was not `heard` when it began. -/
def SleepsIffUnheard {σ τ : Type} (step : σ → τ → Option σ) (bell : σ → Bell) (due : σ → Prop)
    (heard : σ → τ → Prop) (start : σ) : Prop :=
  ∀ actions s, exec step start actions = some s →
    (SleepsThrough step bell due s ↔ due s ∧ ¬ Along step heard start actions)

/-- The same of a combinator over `n` tasks. -/
def Combinator.SleepsIffUnheard (c : Combinator α ε ρ) (n : Nat) : Prop :=
  Asyncx.SleepsIffUnheard c.step Group.bell c.Due c.Heard (Group.start n)

/-- A combinator sleeps through a completion exactly in the runs in which a child has put up
the flag before the coroutine begins to wait. -/
theorem combinators_sleep_iff (n concurrency : Nat) (isCancel : ε → Bool) :
    SleepsIffUnheard Gather.step Gather.bell Gather.Due Gather.Heard
        (Gather.start n : Gather α ε) ∧
      (gatherReturnExceptions : Combinator α ε _).SleepsIffUnheard n ∧
      (oneOf : Combinator α ε _).SleepsIffUnheard n ∧
      (race isCancel : Combinator α ε _).SleepsIffUnheard n ∧
      SleepsIffUnheard Limited.step Limited.bell Limited.Due Limited.Heard
        (Limited.start n concurrency : Limited α ε) :=
  ⟨fun actions _ hrun => Gather.sleeps_iff n actions hrun,
    fun actions _ hrun => Combinator.sleeps_iff _ (fun _ => rfl) n actions hrun,
    fun actions _ hrun => Combinator.sleeps_iff _ (fun hloops => by cases hloops) n actions hrun,
    fun actions _ hrun => Combinator.sleeps_iff _ (fun hloops => by cases hloops) n actions hrun,
    fun actions _ hrun => Limited.sleeps_iff n concurrency actions hrun⟩

/-- The only task is done before its waiter is spawned. -/
def readyAtOnce : List (GatherAction Nat String) :=
  [.complete 0 (.ok 1), .runWaiter 0, .spawned]

/-- Each combinator sleeps through a completion: those that wait for all tasks if the first of
two is done when the wait begins, the others if their only task is. -/
theorem combinators_sleep_through :
    (∃ g, exec Gather.step (Gather.start 2) readyTask = some g ∧
        SleepsThrough Gather.step Gather.bell Gather.Due g) ∧
      (∃ g, exec gatherReturnExceptions.step (Group.start 2) readyTask = some g ∧
        SleepsThrough gatherReturnExceptions.step Group.bell gatherReturnExceptions.Due g) ∧
      (∃ g, exec oneOf.step (Group.start 1) readyAtOnce = some g ∧
        SleepsThrough oneOf.step Group.bell oneOf.Due g) ∧
      (∃ g, exec (race (· == "asyncx task cancelled")).step (Group.start 1) readyAtOnce = some g ∧
        SleepsThrough (race (· == "asyncx task cancelled")).step Group.bell
          (race (· == "asyncx task cancelled")).Due g) ∧
      ∃ g : Limited Nat String,
        exec Limited.step (Limited.start 1 1) [.launch, .settle 0 (.ok 1), .count 0, .wait] =
            some g ∧
          SleepsThrough Limited.step Limited.bell Limited.Due g := by
  refine ⟨⟨_, rfl, ?_⟩, ⟨_, rfl, ?_⟩, ⟨_, rfl, ?_⟩, ⟨_, rfl, ?_⟩, ⟨_, rfl, ?_⟩⟩
  · exact Gather.rings.sleepsThrough_of_lost ⟨rfl, rfl⟩ rfl
  · have hall : (2 : Nat) = 2 := rfl
    exact (Combinator.rings _).sleepsThrough_of_lost ⟨rfl, rfl⟩ hall
  · exact (Combinator.rings _).sleepsThrough_of_lost ⟨rfl, rfl⟩ Nat.one_pos
  · exact (Combinator.rings _).sleepsThrough_of_lost ⟨rfl, rfl⟩ Nat.one_pos
  · refine Limited.rings.sleepsThrough_of_lost ⟨rfl, rfl⟩ fun item hmem => ?_
    exact List.mem_singleton.mp hmem

end HttpClient.Asyncx
