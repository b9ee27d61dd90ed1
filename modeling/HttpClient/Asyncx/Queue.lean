import Mathlib.Tactic.SplitIfs
import HttpClient.Semantics.Machine
import HttpClient.Semantics.WaitQueue

/-!
# Bounded queues

`put` adds an item at the end, `get` takes the first one. A coroutine that finds the queue full,
or empty, leaves a timer that never expires in one of two queues of waiters and waits on it.
Whoever adds an item wakes a consumer, whoever takes one wakes a producer, and a coroutine that
has been woken looks again. So others may be faster than it. A coroutine that has been cancelled
looks once more; only its next wait throws.

The executor has one thread, so that a coroutine is not interrupted between two waits.

## Main definitions

* `Queue` — a queue, with `put`, `tryPut`, `get` and `tryGet`
* `QueueRun`, `QueueRun.step` — a queue with those who use it
* `QueueRun.Serves` — what every call owes its caller

## Main results

* `queue_fifo` — items come out in the order in which they were accepted, none is lost, the
  queue does not overflow, nobody sleeps while there is something for him, and who calls is
  served
-/

set_option autoImplicit false

namespace HttpClient.Asyncx

open Semantics

variable {α κ : Type}

/-- A queue. Producers wait with their items. A queue of size 0 is not bounded. -/
structure Queue (α κ : Type) where
  maxSize : Nat
  items : List α := []
  getWaiters : WaitQueue κ := {}
  putWaiters : WaitQueue α := {}

/-- `cancel_one_waiter` -/
def cancelOneWaiter {β : Type} (waiters : WaitQueue β) : WaitQueue β := waiters.wakeOne

namespace Queue

/-- An item is accepted. -/
def push (v : α) (q : Queue α κ) : Queue α κ :=
  { q with items := q.items ++ [v], getWaiters := cancelOneWaiter q.getWaiters }

/-- The body of the loop of `put`, up to the next wait; and whether `put` has returned. -/
def put (w : Waiter α) (q : Queue α κ) : Bool × Queue α κ :=
  if q.maxSize = 0 ∨ q.items.length < q.maxSize then (true, q.push w.task)
  else (false, { q with putWaiters := q.putWaiters.park w })

/-- `try_put` -/
def tryPut (v : α) (q : Queue α κ) : Bool × Queue α κ :=
  if q.maxSize ≠ 0 ∧ q.maxSize ≤ q.items.length then (false, q) else (true, q.push v)

/-- The body of the loop of `get`, up to the next wait; and what `get` returns if it does. -/
def get (w : Waiter κ) (q : Queue α κ) : Option α × Queue α κ :=
  match q.items with
  | v :: items => (some v, { q with items, putWaiters := cancelOneWaiter q.putWaiters })
  | [] => (none, { q with getWaiters := q.getWaiters.park w })

/-- `try_get` -/
def tryGet (q : Queue α κ) : Option α × Queue α κ :=
  match q.items with
  | v :: items => (some v, { q with items, putWaiters := cancelOneWaiter q.putWaiters })
  | [] => (none, q)

end Queue

/-- A queue with a record of the calls. -/
structure QueueRun (α κ : Type) where
  queue : Queue α κ
  /-- The items `put` and `try_put` have been called with. -/
  offered : List α := []
  /-- The items that have been accepted, in that order. -/
  accepted : List α := []
  /-- The items that were refused, or whose `put` has thrown. -/
  withdrawn : List α := []
  /-- The items that have been returned, in that order. -/
  delivered : List α := []

inductive QueueAction (α κ : Type) where
  | put (v : α)
  | tryPut (v : α)
  | get (task : κ)
  | tryGet
  | cancelPut (place : WaitPlace)
  | cancelGet (place : WaitPlace)
  /-- A producer that has been woken or cancelled resumes. -/
  | resumePut (place : WaitPlace)
  /-- A consumer that has been woken or cancelled resumes. -/
  | resumeGet (place : WaitPlace)

namespace QueueRun

def start (maxSize : Nat) : QueueRun α κ := { queue := { maxSize } }

/-- `put` has returned, or thrown, or waits. -/
def putDone (w : Waiter α) (result : Bool × Queue α κ) (s : QueueRun α κ) : QueueRun α κ :=
  match result with
  | (true, queue) => { s with queue, accepted := s.accepted ++ [w.task] }
  | (false, queue) =>
    if w.cancelled then { s with queue, withdrawn := s.withdrawn ++ [w.task] }
    else { s with queue }

/-- `get` has returned, or not. -/
def getDone (result : Option α × Queue α κ) (s : QueueRun α κ) : QueueRun α κ :=
  { s with queue := result.2, delivered := s.delivered ++ result.1.toList }

/-- One step; `none` if it is not enabled. -/
def step (s : QueueRun α κ) : QueueAction α κ → Option (QueueRun α κ)
  | .put v =>
    some ({ s with offered := s.offered ++ [v] }.putDone { task := v } (s.queue.put { task := v }))
  | .tryPut v =>
    -- what is refused is withdrawn
    some
      ({ s with offered := s.offered ++ [v] }.putDone { task := v, cancelled := true }
        (s.queue.tryPut v))
  | .get task => some (s.getDone (s.queue.get { task }))
  | .tryGet => some (s.getDone s.queue.tryGet)
  | .cancelPut place =>
    (s.queue.putWaiters.cancel place).map fun putWaiters =>
      { s with queue := { s.queue with putWaiters } }
  | .cancelGet place =>
    (s.queue.getWaiters.cancel place).map fun getWaiters =>
      { s with queue := { s.queue with getWaiters } }
  | .resumePut place =>
    (s.queue.putWaiters.leave place).map fun (w, putWaiters) =>
      s.putDone w ({ s.queue with putWaiters }.put w)
  | .resumeGet place =>
    (s.queue.getWaiters.leave place).map fun (w, getWaiters) =>
      s.getDone ({ s.queue with getWaiters }.get w)

end QueueRun

/-! ### What every call keeps of the queue -/

namespace Queue

variable {q q' : Queue α κ} {w : Waiter α}

/-- The queue does not overflow, and nobody sleeps while there is something for him. -/
structure Sound (q : Queue α κ) : Prop where
  bounded : 0 < q.maxSize → q.items.length ≤ q.maxSize
  consumers : q.getWaiters.Covers q.items.length
  producers : q.putWaiters.Covers (q.maxSize - q.items.length)
  /-- Nobody waits to add to a queue that is not bounded. -/
  unbounded : q.putWaiters.Occupied → 0 < q.maxSize

theorem sound_start (maxSize : Nat) : ({ maxSize } : Queue α κ).Sound :=
  ⟨fun _ => Nat.zero_le _, fun ⟨_, hmem⟩ => absurd hmem List.not_mem_nil,
    fun ⟨_, hmem⟩ => absurd hmem List.not_mem_nil, fun ⟨_, hmem⟩ => absurd hmem List.not_mem_nil⟩

/-- An item that finds room is one thing more for the consumers, and one less for the
producers. -/
theorem Sound.push (v : α) (hroom : q.maxSize = 0 ∨ q.items.length < q.maxSize)
    (hconsumers : q.getWaiters.Covers q.items.length)
    (hproducers : q.putWaiters.Covers (q.maxSize - q.items.length - 1))
    (hunbounded : q.putWaiters.Occupied → 0 < q.maxSize) : (q.push v).Sound := by
  have hlength : (q.push v).items.length = q.items.length + 1 := by
    simp [Queue.push]
  refine ⟨fun hpos => ?_, ?_, ?_, hunbounded⟩
  · rw [hlength]
    change 0 < q.maxSize at hpos
    change q.items.length + 1 ≤ q.maxSize
    omega
  · rw [hlength]
    exact hconsumers.wakeOne
  · rw [hlength]
    change q.putWaiters.Covers (q.maxSize - (q.items.length + 1))
    rwa [← Nat.sub_sub]

theorem put_cases (w : Waiter α) (q : Queue α κ) :
    (q.maxSize = 0 ∨ q.items.length < q.maxSize) ∧ q.put w = (true, q.push w.task) ∨
      (0 < q.maxSize ∧ q.maxSize ≤ q.items.length) ∧
        q.put w = (false, { q with putWaiters := q.putWaiters.park w }) := by
  unfold put
  split_ifs with hroom
  · exact Or.inl ⟨hroom, rfl⟩
  · obtain ⟨hbounded, hfull⟩ := not_or.mp hroom
    exact Or.inr ⟨⟨Nat.pos_of_ne_zero hbounded, Nat.le_of_not_lt hfull⟩, rfl⟩

theorem tryPut_cases (v : α) (q : Queue α κ) :
    (q.maxSize = 0 ∨ q.items.length < q.maxSize) ∧ q.tryPut v = (true, q.push v) ∨
      (0 < q.maxSize ∧ q.maxSize ≤ q.items.length) ∧ q.tryPut v = (false, q) := by
  unfold tryPut
  split_ifs with hfull
  · exact Or.inr ⟨⟨Nat.pos_of_ne_zero hfull.1, hfull.2⟩, rfl⟩
  · refine Or.inl ⟨?_, rfl⟩
    by_cases hzero : q.maxSize = 0
    · exact Or.inl hzero
    · exact Or.inr (Nat.lt_of_not_le fun hle => hfull ⟨hzero, hle⟩)

theorem Sound.put (w : Waiter α) (hbounded : 0 < q.maxSize → q.items.length ≤ q.maxSize)
    (hconsumers : q.getWaiters.Covers q.items.length)
    (hproducers : q.putWaiters.Covers (q.maxSize - q.items.length - 1))
    (hunbounded : q.putWaiters.Occupied → 0 < q.maxSize) : (q.put w).2.Sound := by
  rcases put_cases w q with ⟨hroom, heq⟩ | ⟨⟨hpos, hfull⟩, heq⟩
  · rw [heq]
    exact Sound.push w.task hroom hconsumers hproducers hunbounded
  · rw [heq]
    refine ⟨hbounded, hconsumers, ?_, fun _ => hpos⟩
    change (q.putWaiters.park w).Covers (q.maxSize - q.items.length)
    rw [Nat.sub_eq_zero_of_le hfull]
    exact WaitQueue.covers_zero _

/-- An item that is taken is one thing less for the consumers, and one more for the
producers. -/
theorem Sound.pop {v : α} {items : List α} (hitems : q.items = v :: items)
    (hbounded : 0 < q.maxSize → q.items.length ≤ q.maxSize)
    (hconsumers : q.getWaiters.Covers (q.items.length - 1))
    (hproducers : q.putWaiters.Covers (q.maxSize - q.items.length))
    (hunbounded : q.putWaiters.Occupied → 0 < q.maxSize) :
    ({ q with items, putWaiters := cancelOneWaiter q.putWaiters } : Queue α κ).Sound := by
  have hlength : q.items.length = items.length + 1 := congrArg List.length hitems
  rw [hlength] at hbounded hconsumers hproducers
  refine ⟨fun hpos => ?_, hconsumers, ?_, fun hoccupied => ?_⟩
  · exact Nat.le_of_succ_le (hbounded hpos)
  · refine hproducers.wakeOne.mono ?_
    change q.maxSize - items.length ≤ q.maxSize - (items.length + 1) + 1
    omega
  · exact hunbounded hoccupied.of_wakeOne

theorem get_cases (w : Waiter κ) (q : Queue α κ) :
    (∃ v items, q.items = v :: items ∧
        q.get w = (some v, { q with items, putWaiters := cancelOneWaiter q.putWaiters })) ∨
      q.items = [] ∧ q.get w = (none, { q with getWaiters := q.getWaiters.park w }) := by
  unfold Queue.get
  split
  · rename_i v items hitems
    exact Or.inl ⟨v, items, hitems, rfl⟩
  · rename_i hitems
    exact Or.inr ⟨hitems, rfl⟩

theorem tryGet_cases (q : Queue α κ) :
    (∃ v items, q.items = v :: items ∧
        q.tryGet = (some v, { q with items, putWaiters := cancelOneWaiter q.putWaiters })) ∨
      q.items = [] ∧ q.tryGet = (none, q) := by
  unfold Queue.tryGet
  split
  · rename_i v items hitems
    exact Or.inl ⟨v, items, hitems, rfl⟩
  · rename_i hitems
    exact Or.inr ⟨hitems, rfl⟩

theorem Sound.get (w : Waiter κ) (hbounded : 0 < q.maxSize → q.items.length ≤ q.maxSize)
    (hconsumers : q.getWaiters.Covers (q.items.length - 1))
    (hproducers : q.putWaiters.Covers (q.maxSize - q.items.length))
    (hunbounded : q.putWaiters.Occupied → 0 < q.maxSize) : (q.get w).2.Sound := by
  rcases get_cases w q with ⟨v, items, hitems, heq⟩ | ⟨hitems, heq⟩
  · rw [heq]
    exact Sound.pop hitems hbounded hconsumers hproducers hunbounded
  · rw [heq]
    refine ⟨hbounded, ?_, hproducers, hunbounded⟩
    change (q.getWaiters.park w).Covers q.items.length
    rw [hitems]
    exact WaitQueue.covers_zero _

theorem Sound.tryGet (h : q.Sound) : q.tryGet.2.Sound := by
  rcases tryGet_cases q with ⟨v, items, hitems, heq⟩ | ⟨-, heq⟩
  · rw [heq]
    exact Sound.pop hitems h.bounded (h.consumers.mono (Nat.sub_le _ 1)) h.producers h.unbounded
  · rw [heq]
    exact h

theorem Sound.tryPut (h : q.Sound) (v : α) : (q.tryPut v).2.Sound := by
  rcases tryPut_cases v q with ⟨hroom, heq⟩ | ⟨-, heq⟩
  · rw [heq]
    exact Sound.push v hroom h.consumers (h.producers.mono (Nat.sub_le _ 1)) h.unbounded
  · rw [heq]
    exact h

end Queue

/-! ### What every step keeps -/

namespace QueueRun

variable {s s' : QueueRun α κ} {maxSize : Nat}

theorem step_cancelPut {place : WaitPlace} (h : s.step (.cancelPut place) = some s') :
    ∃ putWaiters, s.queue.putWaiters.cancel place = some putWaiters ∧
      s' = { s with queue := { s.queue with putWaiters } } := by
  obtain ⟨putWaiters, hcancel, heq⟩ := Option.map_eq_some_iff.mp h
  exact ⟨putWaiters, hcancel, heq.symm⟩

theorem step_cancelGet {place : WaitPlace} (h : s.step (.cancelGet place) = some s') :
    ∃ getWaiters, s.queue.getWaiters.cancel place = some getWaiters ∧
      s' = { s with queue := { s.queue with getWaiters } } := by
  obtain ⟨getWaiters, hcancel, heq⟩ := Option.map_eq_some_iff.mp h
  exact ⟨getWaiters, hcancel, heq.symm⟩

theorem step_resumePut {place : WaitPlace} (h : s.step (.resumePut place) = some s') :
    ∃ w putWaiters, s.queue.putWaiters.leave place = some (w, putWaiters) ∧
      s' = s.putDone w ({ s.queue with putWaiters }.put w) := by
  obtain ⟨⟨w, putWaiters⟩, hleave, heq⟩ := Option.map_eq_some_iff.mp h
  exact ⟨w, putWaiters, hleave, heq.symm⟩

theorem step_resumeGet {place : WaitPlace} (h : s.step (.resumeGet place) = some s') :
    ∃ w getWaiters, s.queue.getWaiters.leave place = some (w, getWaiters) ∧
      s' = s.getDone ({ s.queue with getWaiters }.get w) := by
  obtain ⟨⟨w, getWaiters⟩, hleave, heq⟩ := Option.map_eq_some_iff.mp h
  exact ⟨w, getWaiters, hleave, heq.symm⟩

/-- What `put` has done is recorded, and the queue is as `put` has left it. -/
@[simp] theorem queue_putDone (w : Waiter α) (result : Bool × Queue α κ) (s : QueueRun α κ) :
    (s.putDone w result).queue = result.2 := by
  obtain ⟨accepted, queue⟩ := result
  unfold putDone
  cases accepted with
  | true => rfl
  | false =>
    dsimp only
    split_ifs <;> rfl

@[simp] theorem queue_getDone (result : Option α × Queue α κ) (s : QueueRun α κ) :
    (s.getDone result).queue = result.2 := rfl

theorem sound_step {action : QueueAction α κ} (h : s.queue.Sound)
    (hstep : s.step action = some s') : s'.queue.Sound := by
  cases action with
  | put v =>
    obtain rfl := Option.some.inj hstep
    rw [queue_putDone]
    exact Queue.Sound.put _ h.bounded h.consumers (h.producers.mono (Nat.sub_le _ 1)) h.unbounded
  | tryPut v =>
    obtain rfl := Option.some.inj hstep
    rw [queue_putDone]
    exact h.tryPut v
  | get task =>
    obtain rfl := Option.some.inj hstep
    exact Queue.Sound.get _ h.bounded (h.consumers.mono (Nat.sub_le _ 1)) h.producers h.unbounded
  | tryGet =>
    obtain rfl := Option.some.inj hstep
    exact h.tryGet
  | cancelPut place =>
    obtain ⟨putWaiters, hcancel, rfl⟩ := step_cancelPut hstep
    exact ⟨h.bounded, h.consumers, h.producers.cancel hcancel,
      fun hoccupied => h.unbounded (hoccupied.of_cancel hcancel)⟩
  | cancelGet place =>
    obtain ⟨getWaiters, hcancel, rfl⟩ := step_cancelGet hstep
    exact ⟨h.bounded, h.consumers.cancel hcancel, h.producers, h.unbounded⟩
  | resumePut place =>
    obtain ⟨w, putWaiters, hleave, rfl⟩ := step_resumePut hstep
    rw [queue_putDone]
    exact Queue.Sound.put w h.bounded h.consumers (h.producers.leave hleave)
      fun hoccupied => h.unbounded (hoccupied.of_leave hleave)
  | resumeGet place =>
    obtain ⟨w, getWaiters, hleave, rfl⟩ := step_resumeGet hstep
    exact Queue.Sound.get w h.bounded (h.consumers.leave hleave) h.producers h.unbounded

theorem sound_run {actions : List (QueueAction α κ)}
    (hrun : exec QueueRun.step (.start maxSize) actions = some s) : s.queue.Sound := by
  have hkept : ∀ (s : QueueRun α κ) action t, s.queue.Sound → s.step action = some t →
      t.queue.Sound := fun _ _ _ hs hstep => sound_step hs hstep
  exact invariant_of_reaches hkept (Queue.sound_start maxSize) ⟨actions, hrun⟩

/-- The record of the calls: what was accepted has been delivered or is in the queue, in order;
and what was offered has been accepted, or withdrawn, or waits. -/
structure Recorded (maxSize : Nat) (s : QueueRun α κ) : Prop where
  size : s.queue.maxSize = maxSize
  order : s.accepted = s.delivered ++ s.queue.items
  offered : s.offered.Perm (s.accepted ++ (s.queue.putWaiters.tasks ++ s.withdrawn))

/-- An item in the hand of `put` is accepted, or withdrawn, or goes to the waiters. -/
theorem Recorded.putDone (w : Waiter α) (q : Queue α κ) (hsize : q.maxSize = maxSize)
    (horder : s.accepted = s.delivered ++ q.items)
    (hoffered : s.offered.Perm (s.accepted ++ (w.task :: (q.putWaiters.tasks ++ s.withdrawn)))) :
    (s.putDone w (q.put w)).Recorded maxSize := by
  rcases Queue.put_cases w q with ⟨-, heq⟩ | ⟨-, heq⟩
  · rw [heq]
    refine ⟨hsize, ?_, ?_⟩
    · change s.accepted ++ [w.task] = s.delivered ++ (q.items ++ [w.task])
      rw [horder, List.append_assoc]
    · change s.offered.Perm ((s.accepted ++ [w.task]) ++ (q.putWaiters.tasks ++ s.withdrawn))
      rwa [List.append_assoc]
  · rw [heq]
    have hparked := WaitQueue.tasks_park w q.putWaiters
    unfold QueueRun.putDone
    cases hcancelled : w.cancelled with
    | true =>
      rw [hcancelled, if_pos rfl, List.append_nil] at hparked
      refine ⟨hsize, horder, hoffered.trans (List.Perm.append_left _ ?_)⟩
      change (w.task :: (q.putWaiters.tasks ++ s.withdrawn)).Perm
        ((q.putWaiters.park w).tasks ++ (s.withdrawn ++ [w.task]))
      rw [← List.append_assoc]
      exact (List.perm_append_singleton _ _).symm.trans
        ((hparked.symm.append_right s.withdrawn).append_right [w.task])
    | false =>
      rw [hcancelled, if_neg Bool.false_ne_true] at hparked
      refine ⟨hsize, horder, hoffered.trans (List.Perm.append_left _ ?_)⟩
      change ((w.task :: q.putWaiters.tasks) ++ s.withdrawn).Perm
        ((q.putWaiters.park w).tasks ++ s.withdrawn)
      exact ((List.perm_append_singleton _ _).symm.trans hparked.symm).append_right _

theorem Recorded.getDone (h : s.Recorded maxSize) {result : Option α × Queue α κ}
    (hsize : result.2.maxSize = s.queue.maxSize)
    (hitems : s.queue.items = result.1.toList ++ result.2.items)
    (hwaiting : result.2.putWaiters.tasks.Perm s.queue.putWaiters.tasks) :
    (s.getDone result).Recorded maxSize := by
  refine ⟨hsize.trans h.size, ?_, ?_⟩
  · change s.accepted = (s.delivered ++ result.1.toList) ++ result.2.items
    rw [h.order, hitems, List.append_assoc]
  · exact h.offered.trans (List.Perm.append_left _ (hwaiting.symm.append_right _))

/-- `get` returns the first item, if there is one. -/
theorem get_frame (w : Waiter κ) (q : Queue α κ) :
    (q.get w).2.maxSize = q.maxSize ∧ q.items = (q.get w).1.toList ++ (q.get w).2.items ∧
      (q.get w).2.putWaiters.tasks.Perm q.putWaiters.tasks := by
  rcases Queue.get_cases w q with ⟨v, items, hitems, heq⟩ | ⟨-, heq⟩
  · rw [heq]
    exact ⟨rfl, hitems, WaitQueue.tasks_wakeOne _⟩
  · rw [heq]
    exact ⟨rfl, rfl, .refl _⟩

theorem tryGet_frame (q : Queue α κ) :
    q.tryGet.2.maxSize = q.maxSize ∧ q.items = q.tryGet.1.toList ++ q.tryGet.2.items ∧
      q.tryGet.2.putWaiters.tasks.Perm q.putWaiters.tasks := by
  rcases Queue.tryGet_cases q with ⟨v, items, hitems, heq⟩ | ⟨-, heq⟩
  · rw [heq]
    exact ⟨rfl, hitems, WaitQueue.tasks_wakeOne _⟩
  · rw [heq]
    exact ⟨rfl, rfl, .refl _⟩

theorem Recorded.step {action : QueueAction α κ} (h : s.Recorded maxSize)
    (hstep : s.step action = some s') : s'.Recorded maxSize := by
  -- what is offered now is in the hand of the call
  have hoffer : ∀ v, (s.offered ++ [v]).Perm
      (s.accepted ++ (v :: (s.queue.putWaiters.tasks ++ s.withdrawn))) := fun v =>
    (List.perm_append_singleton v _).trans ((h.offered.cons v).trans List.perm_middle.symm)
  cases action with
  | put v =>
    obtain rfl := Option.some.inj hstep
    exact Recorded.putDone { task := v } s.queue h.size h.order (hoffer v)
  | tryPut v =>
    obtain rfl := Option.some.inj hstep
    rcases Queue.tryPut_cases v s.queue with ⟨-, heq⟩ | ⟨-, heq⟩
    · rw [heq]
      refine ⟨h.size, ?_, ?_⟩
      · change s.accepted ++ [v] = s.delivered ++ (s.queue.items ++ [v])
        rw [h.order, List.append_assoc]
      · change (s.offered ++ [v]).Perm
          ((s.accepted ++ [v]) ++ (s.queue.putWaiters.tasks ++ s.withdrawn))
        rw [List.append_assoc]
        exact hoffer v
    · rw [heq]
      refine ⟨h.size, h.order, (hoffer v).trans (List.Perm.append_left _ ?_)⟩
      change (v :: (s.queue.putWaiters.tasks ++ s.withdrawn)).Perm
        (s.queue.putWaiters.tasks ++ (s.withdrawn ++ [v]))
      rw [← List.append_assoc]
      exact (List.perm_append_singleton _ _).symm
  | get task =>
    obtain rfl := Option.some.inj hstep
    obtain ⟨hsize, hitems, hwaiting⟩ := get_frame { task } s.queue
    exact h.getDone hsize hitems hwaiting
  | tryGet =>
    obtain rfl := Option.some.inj hstep
    obtain ⟨hsize, hitems, hwaiting⟩ := tryGet_frame s.queue
    exact h.getDone hsize hitems hwaiting
  | cancelPut place =>
    obtain ⟨putWaiters, hcancel, rfl⟩ := step_cancelPut hstep
    refine ⟨h.size, h.order, ?_⟩
    rw [WaitQueue.tasks_cancel hcancel]
    exact h.offered
  | cancelGet place =>
    obtain ⟨getWaiters, -, rfl⟩ := step_cancelGet hstep
    exact ⟨h.size, h.order, h.offered⟩
  | resumePut place =>
    obtain ⟨w, putWaiters, hleave, rfl⟩ := step_resumePut hstep
    refine Recorded.putDone w { s.queue with putWaiters } h.size h.order ?_
    have hleft := (WaitQueue.tasks_leave hleave).symm.append_right s.withdrawn
    exact h.offered.trans (hleft.append_left s.accepted)
  | resumeGet place =>
    obtain ⟨w, getWaiters, -, rfl⟩ := step_resumeGet hstep
    obtain ⟨hsize, hitems, hwaiting⟩ := get_frame w { s.queue with getWaiters }
    exact h.getDone hsize hitems hwaiting

theorem recorded_start (maxSize : Nat) : (start maxSize : QueueRun α κ).Recorded maxSize :=
  ⟨rfl, rfl, .refl _⟩

/-! ### What a call owes its caller -/

/-- A consumer has looked. It has the first item; or there was none, and it is the last of those
who wait. If it has been cancelled, it leaves an entry without a waiter. -/
def Consumed (s : QueueRun α κ) (w : Waiter κ) (waiters : WaitQueue κ) (s' : QueueRun α κ) :
    Prop :=
  (∃ v, s.queue.items = v :: s'.queue.items ∧ s'.delivered = s.delivered ++ [v] ∧
      s'.queue.getWaiters = waiters) ∨
    s.queue.items = [] ∧ s'.queue.items = [] ∧ s'.delivered = s.delivered ∧
      s'.queue.getWaiters.woken = waiters.woken ∧
      s'.queue.getWaiters.entries =
        waiters.entries ++ [if w.cancelled then none else some w]

/-- A producer has looked. Its item is the last one; or there was no room, and it is the last of
those who wait. If it has been cancelled, it leaves an entry without a waiter. -/
def Produced (s : QueueRun α κ) (w : Waiter α) (waiters : WaitQueue α) (s' : QueueRun α κ) :
    Prop :=
  (s.queue.maxSize = 0 ∨ s.queue.items.length < s.queue.maxSize) ∧
      s'.queue.items = s.queue.items ++ [w.task] ∧ s'.accepted = s.accepted ++ [w.task] ∧
      s'.queue.putWaiters = waiters ∨
    (0 < s.queue.maxSize ∧ s.queue.maxSize ≤ s.queue.items.length) ∧
      s'.queue.items = s.queue.items ∧ s'.accepted = s.accepted ∧
      s'.queue.putWaiters.woken = waiters.woken ∧
      s'.queue.putWaiters.entries =
        waiters.entries ++ [if w.cancelled then none else some w]

/-- Every call, and every waiter that runs again, can take its next step and does in it what it
is for. Whoever has been woken can run. -/
structure Serves (s : QueueRun α κ) : Prop where
  get : ∀ task, ∃ s', s.step (.get task) = some s' ∧
    s.Consumed { task } s.queue.getWaiters s'
  resumeGet : ∀ place w waiters, s.queue.getWaiters.leave place = some (w, waiters) →
    ∃ s', s.step (.resumeGet place) = some s' ∧ s.Consumed w waiters s'
  tryGet : ∃ s', s.step .tryGet = some s' ∧
    ((∃ v, s.queue.items = v :: s'.queue.items ∧ s'.delivered = s.delivered ++ [v]) ∨
      s.queue.items = [] ∧ s' = s)
  put : ∀ v, ∃ s', s.step (.put v) = some s' ∧ s.Produced { task := v } s.queue.putWaiters s'
  resumePut : ∀ place w waiters, s.queue.putWaiters.leave place = some (w, waiters) →
    ∃ s', s.step (.resumePut place) = some s' ∧ s.Produced w waiters s'
  tryPut : ∀ v, ∃ s', s.step (.tryPut v) = some s' ∧
    ((s.queue.maxSize = 0 ∨ s.queue.items.length < s.queue.maxSize) ∧
        s'.queue.items = s.queue.items ++ [v] ∧ s'.accepted = s.accepted ++ [v] ∨
      (0 < s.queue.maxSize ∧ s.queue.maxSize ≤ s.queue.items.length) ∧ s'.queue = s.queue ∧
        s'.accepted = s.accepted)
  consumers : ∀ i, i < s.queue.getWaiters.woken.length →
    ∃ w waiters, s.queue.getWaiters.leave (.woken i) = some (w, waiters)
  producers : ∀ i, i < s.queue.putWaiters.woken.length →
    ∃ w waiters, s.queue.putWaiters.leave (.woken i) = some (w, waiters)

/-- `get` looks at the items of the run, whoever waits. -/
theorem consumed_getDone (s : QueueRun α κ) (w : Waiter κ) (waiters : WaitQueue κ) :
    s.Consumed w waiters (s.getDone ({ s.queue with getWaiters := waiters }.get w)) := by
  rcases Queue.get_cases w { s.queue with getWaiters := waiters } with
    ⟨v, items, hitems, heq⟩ | ⟨hitems, heq⟩
  · rw [heq]
    exact Or.inl ⟨v, hitems, rfl, rfl⟩
  · rw [heq]
    exact Or.inr ⟨hitems, hitems, List.append_nil _, rfl, rfl⟩

/-- `put` looks at the items of the run, whoever waits. -/
theorem produced_putDone (s t : QueueRun α κ) (w : Waiter α) (waiters : WaitQueue α)
    (haccepted : t.accepted = s.accepted) :
    s.Produced w waiters (t.putDone w ({ s.queue with putWaiters := waiters }.put w)) := by
  rcases Queue.put_cases w { s.queue with putWaiters := waiters } with
    ⟨hroom, heq⟩ | ⟨hfull, heq⟩
  · rw [heq]
    exact Or.inl ⟨hroom, rfl, congrArg (· ++ [w.task]) haccepted, rfl⟩
  · refine Or.inr ⟨hfull, ?_⟩
    rw [queue_putDone, heq]
    refine ⟨rfl, ?_, rfl, rfl⟩
    unfold QueueRun.putDone
    cases hcancelled : w.cancelled with
    | true => exact haccepted
    | false => exact haccepted

theorem serves (s : QueueRun α κ) : s.Serves where
  get task := ⟨_, rfl, consumed_getDone s { task } s.queue.getWaiters⟩
  resumeGet place w waiters hleave :=
    ⟨_, Option.map_eq_some_iff.mpr ⟨(w, waiters), hleave, rfl⟩, consumed_getDone s w waiters⟩
  tryGet := by
    refine ⟨_, rfl, ?_⟩
    rcases Queue.tryGet_cases s.queue with ⟨v, items, hitems, heq⟩ | ⟨hitems, heq⟩
    · rw [heq]
      exact Or.inl ⟨v, hitems, rfl⟩
    · rw [heq]
      refine Or.inr ⟨hitems, ?_⟩
      unfold QueueRun.getDone
      rw [Option.toList_none, List.append_nil]
  put v := ⟨_, rfl, produced_putDone s _ { task := v } s.queue.putWaiters rfl⟩
  resumePut place w waiters hleave :=
    ⟨_, Option.map_eq_some_iff.mpr ⟨(w, waiters), hleave, rfl⟩, produced_putDone s s w waiters rfl⟩
  tryPut v := by
    refine ⟨_, rfl, ?_⟩
    rcases Queue.tryPut_cases v s.queue with ⟨hroom, heq⟩ | ⟨hfull, heq⟩
    · rw [heq]
      exact Or.inl ⟨hroom, rfl, rfl⟩
    · rw [heq]
      exact Or.inr ⟨hfull, rfl, rfl⟩
  consumers _ hi := WaitQueue.exists_leave_woken hi
  producers _ hi := WaitQueue.exists_leave_woken hi

end QueueRun

/-- In all runs: what has been accepted has been delivered, in that order and once, or is in the
queue; every item that was offered is accepted, withdrawn or waiting, and only one of these; the
queue does not overflow; while anybody waits in the queue of the consumers, or of the producers,
at least as many of them are about to run as there are items, or is room; and whoever calls or
runs next gets the first item, or adds the last one, if there is an item, or room, and waits if
there is none. -/
theorem queue_fifo (maxSize : Nat) (actions : List (QueueAction α κ)) (s : QueueRun α κ)
    (hrun : exec QueueRun.step (.start maxSize) actions = some s) :
    s.accepted = s.delivered ++ s.queue.items ∧
    s.offered.Perm (s.accepted ++ (s.queue.putWaiters.tasks ++ s.withdrawn)) ∧
    (0 < maxSize → s.queue.items.length ≤ maxSize) ∧
    ((∃ w, some w ∈ s.queue.getWaiters.entries) →
      s.queue.items.length ≤ s.queue.getWaiters.woken.length) ∧
    ((∃ w, some w ∈ s.queue.putWaiters.entries) → 0 < maxSize ∧
      maxSize - s.queue.items.length ≤ s.queue.putWaiters.woken.length) ∧
    s.Serves := by
  have hsound : s.queue.Sound :=
    QueueRun.sound_run hrun
  have hrecorded : s.Recorded maxSize :=
    invariant_of_reaches (fun _ _ _ hs hstep => hs.step hstep) (QueueRun.recorded_start maxSize)
      ⟨actions, hrun⟩
  have hsize := hrecorded.size
  refine ⟨hrecorded.order, hrecorded.offered, ?_, hsound.consumers, fun hoccupied => ?_,
    s.serves⟩
  · rw [← hsize]
    exact hsound.bounded
  · rw [← hsize]
    exact ⟨hsound.unbounded hoccupied, hsound.producers hoccupied⟩

/-- A consumer waits for the first item. Later a producer waits for room, another one is faster
when there is some, and the next `get` returns what that one has put. -/
theorem queue_fifo_barging :
    ∃ (actions : List (QueueAction Nat Unit)) (s s' : QueueRun Nat Unit),
      exec QueueRun.step (.start 1) actions = some s ∧ s.accepted = [1, 2, 4] ∧
        s.accepted = s.delivered ++ s.queue.items ∧
        s.step (.get ()) = some s' ∧ s'.delivered = [1, 2, 4] := by
  let actions : List (QueueAction Nat Unit) :=
    [.get (), .put 1, .resumeGet (.woken 0), .put 2, .put 3, .get (), .tryPut 4,
      .resumePut (.woken 0)]
  obtain ⟨horder, -, -, -, -, hserves⟩ := queue_fifo 1 actions _ rfl
  obtain ⟨s', hstep, ⟨v, hitems, hdelivered, -⟩ | ⟨hnone, -⟩⟩ := hserves.get ()
  · obtain rfl : 4 = v := (List.cons.inj hitems).1
    exact ⟨actions, _, s', rfl, rfl, horder, hstep, hdelivered⟩
  · cases hnone

end HttpClient.Asyncx
