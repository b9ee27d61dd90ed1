import Mathlib.Data.List.Perm.Basic
import Mathlib.Data.List.Range
import HttpClient.Asyncx.Combinators
import HttpClient.Semantics.Log

/-!
# What a bounded gathering runs

`gather_limited` and `for_each_limited` hand out the indices of their items from a counter. What
they do with `fn` and `on_result` is written into a log: which items start, how each of them
ends, and which results are handed over. An exception in the log is the one that is rethrown,
after it has been normalized.

The log and the table of the items that have been launched say the same about them: the items
start in the order of their indices, and an item has ended once it is not running any more.

## Main definitions

* `FanEvent` — what is to be seen of an item
* `Bounded` — at most one start of each item, not too many at a time, none after a failure
* `FanOutExact` — how a bounded gathering ends
* `Tracks` — a log and a table of items agree

## Main results

* `Limited.exact` — `gather_limited` ends with all values, or with the first failure
* `Limited.unslept_iff` — when it sleeps though an item has failed
-/

set_option autoImplicit false

namespace HttpClient.Asyncx

open Semantics

variable {α ε ρ : Type}

/-! ### What is to be seen -/

inductive FanEvent (α ε : Type) where
  /-- `fn` is called. -/
  | start (i : Nat)
  /-- What `fn` returned has ended. -/
  | finish (i : Nat) (outcome : Except ε α)
  /-- `on_result` is called, and may throw. -/
  | result (i : Nat) (v : α) (thrown : Option ε)

namespace FanEvent

def started : FanEvent α ε → Option Nat
  | .start i => some i
  | _ => none

def finished : FanEvent α ε → Option Nat
  | .finish i _ => some i
  | _ => none

def handed : FanEvent α ε → Option Nat
  | .result i _ _ => some i
  | _ => none

/-- The exception that an item fails with. -/
def failure : FanEvent α ε → Option ε
  | .finish _ (.error e) => some e
  | .result _ _ thrown => thrown
  | _ => none

end FanEvent

/-- The items in the order of their starts. -/
def starts (log : List (FanEvent α ε)) : List Nat := log.filterMap FanEvent.started

/-- The items in the order of their ends. -/
def ends (log : List (FanEvent α ε)) : List Nat := log.filterMap FanEvent.finished

/-- The items whose results have been handed over. -/
def handed (log : List (FanEvent α ε)) : List Nat := log.filterMap FanEvent.handed

/-- The exceptions in the order of time. -/
def errors (log : List (FanEvent α ε)) : List ε := log.filterMap FanEvent.failure

/-- The items that have started and not ended. -/
def inProgress (log : List (FanEvent α ε)) : List Nat :=
  (starts log).filter fun i => i ∉ ends log

/-- No item starts after a failure. -/
def Quiet (log : List (FanEvent α ε)) : Prop :=
  ∀ before i later, log = before ++ FanEvent.start i :: later → errors before = []

/-- What holds of the items at any time. -/
structure Bounded (total concurrency : Nat) (log : List (FanEvent α ε)) : Prop where
  once : (starts log).Nodup
  bound : ∀ i ∈ starts log, i < total
  ended : (ends log).Nodup
  limited : (inProgress log).length ≤ max 1 (min concurrency total)
  quiet : Quiet log

/-- How a bounded gathering ends: with what belongs to a `complete` log, when all items have been
started, or with the first failure. -/
structure FanOutExact (total concurrency : Nat) (complete : ρ → List (FanEvent α ε) → Prop)
    (log : List (FanEvent α ε)) (result : Option (Except ε ρ)) : Prop where
  bounded : Bounded total concurrency log
  all : ∀ r, result = some (.ok r) → (starts log).Perm (List.range total) ∧ complete r log
  first : ∀ e, result = some (.error e) → (errors log).head? = some e
  noticed : errors log ≠ [] → ∀ r, result ≠ some (.ok r)

/-- The result of `gather_limited` has the value of each item at its index. -/
def Values (total : Nat) (values : List α) (log : List (FanEvent α ε)) : Prop :=
  values.length = total ∧ ∀ i v, values[i]? = some v → .finish i (.ok v) ∈ log

/-- `for_each_limited` has handed over each result, which is the value of its item, once. -/
def Handed (total : Nat) (_ : Unit) (log : List (FanEvent α ε)) : Prop :=
  (handed log).Perm (List.range total) ∧
    ∀ i v thrown, .result i v thrown ∈ log → .finish i (.ok v) ∈ log

/-- The coroutine does not sleep once an item has failed. -/
def Unslept (log : List (FanEvent α ε)) (bell : Bell) : Prop :=
  errors log ≠ [] → bell.sleeper ≠ .waiting

section Events

variable {log events : List (FanEvent α ε)} {i j : Nat} {v : α} {thrown : Option ε}
  {outcome : Except ε α}

@[simp] theorem starts_append : starts (log ++ events) = starts log ++ starts events :=
  List.filterMap_append

@[simp] theorem ends_append : ends (log ++ events) = ends log ++ ends events :=
  List.filterMap_append

@[simp] theorem handed_append : handed (log ++ events) = handed log ++ handed events :=
  List.filterMap_append

@[simp] theorem errors_append : errors (log ++ events) = errors log ++ errors events :=
  List.filterMap_append

theorem Quiet.append (h : Quiet log) (hstarts : ∀ before i later,
    events = before ++ FanEvent.start i :: later → errors (log ++ before) = []) :
    Quiet (log ++ events) := by
  intro before i later hsplit
  rcases List.append_eq_append_iff.mp hsplit with ⟨mid, rfl, hevents⟩ | ⟨mid, rfl, hlater⟩
  · exact hstarts mid i later hevents
  · cases mid with
    | nil =>
      have hfirst := hstarts [] i later hlater.symm
      rwa [List.append_nil, List.append_nil] at hfirst
    | cons event mid =>
      obtain ⟨rfl, rfl⟩ := List.cons.inj hlater
      exact h before i mid rfl

end Events

/-! ### The log and the table of the items -/

/-- The log and the table agree on which items have started, and which have ended. -/
structure Tracks (items : List Item) (log : List (FanEvent α ε)) : Prop where
  started : starts log = List.range items.length
  ended : ∀ i, i ∈ ends log ↔ ∃ item, items[i]? = some item ∧ item ≠ .running
  once : (ends log).Nodup

namespace Tracks

variable {items : List Item} {log : List (FanEvent α ε)} {i : Nat} {item item' : Item}

theorem nil : Tracks [] ([] : List (FanEvent α ε)) where
  started := rfl
  ended := fun i => by simp [ends]
  once := List.nodup_nil

/-- The next item starts. -/
theorem start (h : Tracks items log) :
    Tracks (items ++ [.running]) (log ++ [.start items.length]) where
  started := by
    rw [starts_append, h.started, List.length_append, List.length_singleton, List.range_succ]
    rfl
  ended := by
    intro i
    rw [ends_append, show ends [FanEvent.start (α := α) (ε := ε) items.length] = [] from rfl,
      List.append_nil, h.ended]
    constructor
    · rintro ⟨item, hitem, hdone⟩
      obtain ⟨hlt, -⟩ := List.getElem?_eq_some_iff.mp hitem
      exact ⟨item, (List.getElem?_append_left hlt).trans hitem, hdone⟩
    · rintro ⟨item, hitem, hdone⟩
      by_cases hlt : i < items.length
      · exact ⟨item, (List.getElem?_append_left hlt).symm.trans hitem, hdone⟩
      · -- The item that starts has not ended.
        rw [List.getElem?_append_right (Nat.not_lt.mp hlt), List.getElem?_singleton] at hitem
        split at hitem
        · exact absurd (Option.some.inj hitem).symm hdone
        · cases hitem
  once := by
    rw [ends_append, show ends [FanEvent.start (α := α) (ε := ε) items.length] = [] from rfl,
      List.append_nil]
    exact h.once

/-- A running item ends. -/
theorem finish (h : Tracks items log) (hitem : items[i]? = some .running)
    (hdone : item' ≠ .running) (outcome : Except ε α) :
    Tracks (items.set i item') (log ++ [.finish i outcome]) := by
  obtain ⟨hlt, -⟩ := List.getElem?_eq_some_iff.mp hitem
  have hfresh : i ∉ ends log := by
    intro hended
    obtain ⟨item, hget, hnot⟩ := (h.ended i).mp hended
    exact hnot (Option.some.inj (hget.symm.trans hitem))
  have hends : ends (log ++ [.finish i outcome]) = ends log ++ [i] := by
    rw [ends_append]
    rfl
  refine ⟨?_, fun j => ?_, ?_⟩
  · rw [starts_append, h.started, List.length_set]
    exact List.append_nil _
  · rw [hends, List.mem_append, List.mem_singleton, h.ended]
    by_cases hj : i = j
    · subst hj
      rw [List.getElem?_set_self hlt]
      exact iff_of_true (.inr rfl) ⟨item', rfl, hdone⟩
    · rw [List.getElem?_set_ne hj]
      exact or_iff_left fun heq => hj heq.symm
  · rw [hends]
    exact List.nodup_append.mpr ⟨h.once, List.pairwise_singleton _ i, fun a ha b hb => by
      rw [List.mem_singleton.mp hb]
      rintro rfl
      exact hfresh ha⟩

/-- What is not a start or an end changes nothing. -/
theorem of_eq {log' : List (FanEvent α ε)} (h : Tracks items log)
    (hstarts : starts log' = starts log) (hends : ends log' = ends log) : Tracks items log' :=
  ⟨hstarts.trans h.started, fun i => by rw [hends]; exact h.ended i, by rw [hends]; exact h.once⟩

/-- An item that has ended is counted. -/
theorem recount (h : Tracks items log) (hitem : items[i]? = some item) (hended : item ≠ .running)
    (hdone : item' ≠ .running) : Tracks (items.set i item') log := by
  obtain ⟨hlt, -⟩ := List.getElem?_eq_some_iff.mp hitem
  refine ⟨by rw [h.started, List.length_set], fun j => ?_, h.once⟩
  rw [h.ended]
  by_cases hj : i = j
  · subst hj
    rw [List.getElem?_set_self hlt]
    exact iff_of_true ⟨item, hitem, hended⟩ ⟨item', rfl, hdone⟩
  · rw [List.getElem?_set_ne hj]

/-- The items in progress are the ones that the table says are running. -/
theorem length_inProgress (h : Tracks items log) :
    (inProgress log).length = items.countP (· = .running) := by
  have hrunning : ∀ i ∈ List.range items.length,
      (decide (i ∉ ends log)) = decide (items[i]? = some .running) := by
    intro i hi
    obtain ⟨item, hitem⟩ : ∃ item, items[i]? = some item :=
      ⟨_, List.getElem?_eq_getElem (List.mem_range.mp hi)⟩
    rw [decide_eq_decide, h.ended, hitem, Option.some_inj]
    constructor
    · intro hnot
      by_contra hdone
      exact hnot ⟨item, rfl, hdone⟩
    · rintro rfl ⟨other, hother, hdone⟩
      exact hdone (Option.some.inj hother).symm
  have htable : items.map some = (List.range items.length).map fun i => items[i]? := by
    apply List.ext_getElem?
    intro i
    by_cases hi : i < items.length
    · simp [hi]
    · simp [hi]
  calc (inProgress log).length
      = (List.range items.length).countP fun i => decide (items[i]? = some .running) := by
        rw [inProgress, h.started, ← List.countP_eq_length_filter]
        exact List.countP_congr fun i hi => by rw [hrunning i hi]
    _ = (items.map some).countP fun item => decide (item = some .running) := by
        rw [htable, List.countP_map]
        rfl
    _ = items.countP (· = .running) := by
        rw [List.countP_map]
        exact List.countP_congr fun item _ => by simp

end Tracks

/-! ### What both keep -/

/-- What a table of items, the flag, the first exception and the log have to do with each other.
Besides the items that run, `more` may be started. -/
structure Ledger (limit : Nat) (items : List Item) (stop : Bool) (firstError : Option ε)
    (log : List (FanEvent α ε)) (more : Nat) : Prop where
  tracks : Tracks items log
  first : firstError = (errors log).head?
  stops : stop = true ↔ errors log ≠ []
  quiet : Quiet log
  room : items.countP (· = .running) + more ≤ limit

namespace Ledger

variable {limit more i : Nat} {items : List Item} {stop : Bool} {firstError : Option ε}
  {log : List (FanEvent α ε)} {item item' : Item} {v : α} {e : ε}

theorem nil (limit : Nat) :
    Ledger limit [] false (none : Option ε) ([] : List (FanEvent α ε)) limit where
  tracks := .nil
  first := rfl
  stops := by simp [errors]
  quiet := fun before i later h => by simp at h
  room := by simp

theorem more_le {less : Nat} (h : Ledger limit items stop firstError log more) (hle : less ≤ more) :
    Ledger limit items stop firstError log less :=
  ⟨h.tracks, h.first, h.stops, h.quiet, by have hroom := h.room; omega⟩

theorem drop (h : Ledger limit items stop firstError log (more + 1)) :
    Ledger limit items stop firstError log more := h.more_le (Nat.le_succ more)

theorem errors_eq_nil (h : Ledger limit items false firstError log more) : errors log = [] := by
  by_contra hfailed
  have hstop := h.stops.mpr hfailed
  cases hstop

/-- An item starts, in place of one that may be started. -/
theorem start (h : Ledger limit items false firstError log (more + 1)) :
    Ledger limit (items ++ [.running]) false firstError (log ++ [.start items.length]) more where
  tracks := h.tracks.start
  first := by
    rw [errors_append, h.first]
    exact congrArg List.head? (List.append_nil _).symm
  stops := by
    rw [errors_append, h.stops]
    exact not_congr (by rw [show errors [FanEvent.start (α := α) (ε := ε) items.length] = [] from
      rfl, List.append_nil])
  quiet := by
    refine h.quiet.append fun before i later hsplit => ?_
    cases before with
    | nil =>
      rw [List.append_nil]
      exact h.errors_eq_nil
    | cons event before => simp at hsplit
  room := by
    have hroom := h.room
    rw [List.countP_append, List.countP_singleton]
    simp only [decide_true, if_true]
    omega

/-- What replacing a running item does to the number of items that run. -/
theorem countP_running (hitem : items[i]? = some .running) (hdone : item' ≠ .running) :
    (items.set i item').countP (· = .running) + 1 = items.countP (· = .running) := by
  obtain ⟨hi, hrunning⟩ := List.getElem?_eq_some_iff.mp hitem
  have hpos : 0 < items.countP (· = .running) :=
    List.countP_pos_iff.mpr ⟨_, List.getElem_mem hi, by simp [hrunning]⟩
  rw [List.countP_set hi]
  simp only [hrunning, hdone, decide_true, decide_false, if_true, Bool.false_eq_true, if_false]
  omega

/-- A running item ends with a value, and another one may be started. -/
theorem finish (h : Ledger limit items stop firstError log more)
    (hitem : items[i]? = some .running) (hdone : item' ≠ .running) (v : α) :
    Ledger limit (items.set i item') stop firstError (log ++ [.finish i (.ok v)]) (more + 1) where
  tracks := h.tracks.finish hitem hdone _
  first := by
    rw [errors_append, h.first]
    exact congrArg List.head? (List.append_nil _).symm
  stops := by
    rw [errors_append, h.stops]
    exact not_congr (by rw [show errors [FanEvent.finish (ε := ε) i (.ok v)] = [] from rfl,
      List.append_nil])
  quiet := by
    refine h.quiet.append fun before j later hsplit => ?_
    cases before with
    | nil => cases hsplit
    | cons event before => simp at hsplit
  room := by
    have hroom := h.room
    have hcount := countP_running hitem hdone
    omega

/-- A running item fails. -/
theorem fail (h : Ledger limit items stop firstError log more)
    (hitem : items[i]? = some .running) (hdone : item' ≠ .running) (e : ε) :
    Ledger limit (items.set i item') true (firstError.or (some e))
      (log ++ [.finish i (.error e)]) (more + 1) where
  tracks := h.tracks.finish hitem hdone _
  first := by
    rw [errors_append, List.head?_append, h.first]
    rfl
  stops := by
    rw [errors_append]
    exact iff_of_true rfl (List.append_ne_nil_of_right_ne_nil _ (List.cons_ne_nil _ _))
  quiet := by
    refine h.quiet.append fun before j later hsplit => ?_
    cases before with
    | nil => cases hsplit
    | cons event before => simp at hsplit
  room := by
    have hroom := h.room
    have hcount := countP_running hitem hdone
    omega

/-- An item that has ended is counted. -/
theorem recount (h : Ledger limit items stop firstError log more) (hitem : items[i]? = some item)
    (hended : item ≠ .running) (hdone : item' ≠ .running) :
    Ledger limit (items.set i item') stop firstError log more where
  tracks := h.tracks.recount hitem hended hdone
  first := h.first
  stops := h.stops
  quiet := h.quiet
  room := by
    obtain ⟨hi, hold⟩ := List.getElem?_eq_some_iff.mp hitem
    have hroom := h.room
    rw [List.countP_set hi]
    simp only [hold, hended, hdone, decide_false, Bool.false_eq_true, if_false]
    omega

/-- A result is handed over, and `on_result` returns. -/
theorem hand (h : Ledger limit items stop firstError log more) (i : Nat) (v : α) :
    Ledger limit items stop firstError (log ++ [.result i v none]) more where
  tracks := by
    refine h.tracks.of_eq ?_ ?_
    · rw [starts_append]
      exact List.append_nil _
    · rw [ends_append]
      exact List.append_nil _
  first := by
    rw [errors_append, h.first]
    exact congrArg List.head? (List.append_nil _).symm
  stops := by
    rw [errors_append, h.stops]
    exact not_congr (by rw [show errors [FanEvent.result (ε := ε) i v none] = [] from rfl,
      List.append_nil])
  quiet := by
    refine h.quiet.append fun before j later hsplit => ?_
    cases before with
    | nil => cases hsplit
    | cons event before => simp at hsplit
  room := h.room

/-- A result is handed over, and `on_result` throws. -/
theorem throw (h : Ledger limit items stop firstError log more) (i : Nat) (v : α) (e : ε) :
    Ledger limit items true (firstError.or (some e)) (log ++ [.result i v (some e)]) more where
  tracks := by
    refine h.tracks.of_eq ?_ ?_
    · rw [starts_append]
      exact List.append_nil _
    · rw [ends_append]
      exact List.append_nil _
  first := by
    rw [errors_append, List.head?_append, h.first]
    rfl
  stops := by
    rw [errors_append]
    exact iff_of_true rfl (List.append_ne_nil_of_right_ne_nil _ (List.cons_ne_nil _ _))
  quiet := by
    refine h.quiet.append fun before j later hsplit => ?_
    cases before with
    | nil => cases hsplit
    | cons event before => simp at hsplit
  room := h.room

/-- The items are bounded at any time. -/
theorem bounded {total concurrency : Nat}
    (h : Ledger (max 1 (min concurrency total)) items stop firstError log more)
    (hlength : items.length ≤ total) : Bounded total concurrency log where
  once := by
    rw [h.tracks.started]
    exact List.nodup_range
  bound := by
    intro i hi
    rw [h.tracks.started, List.mem_range] at hi
    omega
  ended := h.tracks.once
  limited := by
    rw [h.tracks.length_inProgress]
    have hroom := h.room
    omega
  quiet := h.quiet

end Ledger

/-! ### The log of `gather_limited` -/

namespace Limited

/-- The item that `launch_one` starts. -/
def handsOut (g : Limited α ε) : List (FanEvent α ε) :=
  if g.stop ∨ g.total ≤ g.next then [] else [.start g.next]

/-- What there is to see of a step. -/
def emits (g : Limited α ε) : LimitedAction α ε → List (FanEvent α ε)
  | .launch => g.handsOut
  | .settle i (.ok v) =>
    .finish i (.ok v) :: if g.bell.sleeper = .over then [] else g.handsOut
  | .settle i (.error e) => [.finish i (.error e)]
  | _ => []

variable {g g' : Limited α ε} {log : List (FanEvent α ε)} {i limit : Nat}

/-- `launch_one` starts the item at the end of the table, or none. -/
theorem handsOut_cases (h : g.items.length = min g.next g.total) :
    (g.handsOut = [] ∧ g.launchOne.items = g.items) ∨
      (g.stop = false ∧ g.handsOut = [.start g.items.length] ∧
        g.launchOne.items = g.items ++ [.running]) := by
  unfold handsOut launchOne
  by_cases hstop : g.stop = true
  · exact .inl ⟨if_pos (.inl hstop), by rw [if_pos hstop]⟩
  · by_cases hall : g.total ≤ g.next
    · exact .inl ⟨if_pos (.inr hall), by rw [if_neg hstop, if_pos hall]⟩
    · have hnext : g.items.length = g.next := by omega
      refine .inr ⟨Bool.not_eq_true _ ▸ hstop, ?_, by rw [if_neg hstop, if_neg hall]⟩
      rw [if_neg (by tauto), hnext]

/-- The state of a bounded gathering and its log. -/
structure Told (limit total : Nat) (g : Limited α ε) (log : List (FanEvent α ε)) : Prop
    extends g.Inv where
  ledger : Ledger limit g.items g.stop g.firstError log g.toLaunch
  total_eq : g.total = total
  length : g.values.length = g.total
  values : ∀ i v, g.values[i]? = some (some v) → .finish i (.ok v) ∈ log
  valued : ∀ i ∈ ends log, errors log = [] → ∃ v, g.values[i]? = some (some v)
  succeeded : ∀ vs, g.result = some (.ok vs) →
    g.bell.sleeper = .over ∧ g.firstError = none ∧ g.total ≤ g.completed ∧
      vs = g.values.filterMap id
  failed : ∀ e, g.result = some (.error e) → g.bell.sleeper = .over ∧ g.firstError = some e

@[simp] theorem launchOne_values (g : Limited α ε) : g.launchOne.values = g.values := by
  unfold launchOne
  split_ifs <;> rfl

@[simp] theorem launchOne_result (g : Limited α ε) : g.launchOne.result = g.result := by
  unfold launchOne
  split_ifs <;> rfl

theorem silent_handsOut (g : Limited α ε) : ends g.handsOut = [] ∧ errors g.handsOut = [] := by
  unfold handsOut
  split_ifs <;> exact ⟨rfl, rfl⟩

theorem ledger_launchOne {more : Nat} (hlength : g.items.length = min g.next g.total)
    (h : Ledger limit g.items g.stop g.firstError log (more + 1)) :
    Ledger limit g.launchOne.items g.launchOne.stop g.launchOne.firstError (log ++ g.handsOut)
      more := by
  rw [launchOne_stop, launchOne_firstError]
  rcases handsOut_cases hlength with ⟨hnone, hitems⟩ | ⟨hstop, hone, hitems⟩
  · rw [hnone, hitems, List.append_nil]
    exact h.drop
  · rw [hone, hitems, hstop]
    rw [hstop] at h
    exact h.start

/-- How the coroutine goes on once it has been woken. -/
theorem resumed_ends (g : Limited α ε) :
    (∃ e, g.firstError = some e ∧ g.resumed = g.finish (.error e)) ∨
      (g.firstError = none ∧ g.total ≤ g.completed ∧
        g.resumed = g.finish (.ok (g.values.filterMap id))) ∨
      ∃ bell, g.resumed = { g with bell } := by
  unfold resumed
  cases g.firstError with
  | some e => exact .inl ⟨e, rfl, rfl⟩
  | none =>
    dsimp only
    split_ifs with hall
    · exact .inr (.inl ⟨rfl, hall, rfl⟩)
    · exact .inr (.inr ⟨_, rfl⟩)
    · exact .inr (.inr ⟨_, rfl⟩)

namespace Told

variable {total : Nat}

theorem start (total concurrency : Nat) :
    Told (max 1 (min concurrency total)) total (Limited.start total concurrency : Limited α ε)
      [] := by
  refine ⟨inv_start total concurrency, ?_, ?_, ?_, ?_, ?_, ?_, ?_⟩
  all_goals unfold Limited.start
  · split_ifs with htotal
    · exact (Ledger.nil _).more_le (Nat.zero_le _)
    · exact (Ledger.nil _).more_le (by dsimp only; omega)
  · split_ifs <;> rfl
  · split_ifs with htotal
    · exact htotal.symm
    · exact List.length_replicate
  · intro i v hv
    split_ifs at hv with htotal
    · cases hv
    · exact absurd (List.eq_of_mem_replicate (List.mem_of_getElem? hv)) (Option.some_ne_none v)
  · exact fun i hi => absurd hi List.not_mem_nil
  · intro vs hvs
    split_ifs at hvs ⊢ with htotal
    obtain rfl := Except.ok.inj (Option.some.inj hvs)
    exact ⟨rfl, rfl, htotal.le, rfl⟩
  · intro e he
    split_ifs at he ⊢ with htotal
    cases he

/-- If the gathering has succeeded, all items are counted. -/
theorem counted_of_ok (h : Told limit total g log) {vs : List α} (hok : g.result = some (.ok vs))
    {item : Item} (hitem : g.items[i]? = some item) : item = .counted := by
  obtain ⟨-, -, hall, -⟩ := h.succeeded vs hok
  have hlength := h.launched
  have hcompleted := h.completed
  have hle := List.countP_le_length (p := (· = Item.counted)) (l := g.items)
  have heq : g.items.countP (· = .counted) = g.items.length := by omega
  simpa using List.countP_eq_length.mp heq item (List.mem_of_getElem? hitem)

theorem wait (h : Told limit total g log) (hstep : g.step .wait = some g') :
    Told limit total g' log := by
  have hinv := h.toInv.step hstep
  obtain ⟨hbefore, -, rfl⟩ := step_wait hstep
  refine ⟨hinv, h.ledger, h.total_eq, h.length, h.values, h.valued, ?_, ?_⟩
  · intro vs hvs
    have hover := (h.succeeded vs hvs).1
    rw [hbefore] at hover
    cases hover
  · intro e he
    have hover := (h.failed e he).1
    rw [hbefore] at hover
    cases hover

theorem launch (h : Told limit total g log) (hstep : g.step .launch = some g') :
    Told limit total g' (log ++ g.handsOut) := by
  have hinv := h.toInv.step hstep
  obtain ⟨hbefore, hmore, rfl⟩ := step_launch hstep
  obtain ⟨hends, herrors⟩ := silent_handsOut g
  refine ⟨hinv, ?_, ?_, ?_, ?_, ?_, ?_, ?_⟩
  · have hledger : Ledger limit g.items g.stop g.firstError log (g.toLaunch - 1 + 1) := by
      rw [Nat.sub_add_cancel hmore]
      exact h.ledger
    rw [launchOne_toLaunch]
    exact ledger_launchOne (g := { g with toLaunch := g.toLaunch - 1 }) h.launched hledger
  · rw [launchOne_total]
    exact h.total_eq
  · rw [launchOne_total, launchOne_values]
    exact h.length
  · rw [launchOne_values]
    exact fun i v hv => List.mem_append_left _ (h.values i v hv)
  · rw [launchOne_values, ends_append, errors_append, hends, herrors, List.append_nil,
      List.append_nil]
    exact h.valued
  · rw [launchOne_result]
    intro vs hvs
    have hover := (h.succeeded vs hvs).1
    rw [hbefore] at hover
    cases hover
  · rw [launchOne_result]
    intro e he
    have hover := (h.failed e he).1
    rw [hbefore] at hover
    cases hover

theorem count (h : Told limit total g log) (hstep : g.step (.count i) = some g') :
    Told limit total g' log := by
  have hinv := h.toInv.step hstep
  obtain ⟨hitem, rfl⟩ := step_count hstep
  have hledger : Ledger limit (g.items.set i .counted) g.stop g.firstError log g.toLaunch :=
    h.ledger.recount hitem (by decide) (by decide)
  have hnot : ∀ vs, g.result ≠ some (.ok vs) := fun vs hok => by
    cases h.counted_of_ok hok hitem
  have hover : g.bell.sleeper = .over → (g.record i .counted).counted.bell.sleeper = .over := by
    intro hover
    unfold counted
    split_ifs
    · exact (Bell.sleeper_ring (by simp [record, hover])).trans hover
    · exact hover
  unfold Limited.counted at hinv hover ⊢
  split_ifs at hinv hover ⊢
  · exact ⟨hinv, hledger, h.total_eq, h.length, h.values, h.valued,
      fun vs hok => absurd hok (hnot vs), fun e he => ⟨hover (h.failed e he).1, (h.failed e he).2⟩⟩
  · exact ⟨hinv, hledger, h.total_eq, h.length, h.values, h.valued,
      fun vs hok => absurd hok (hnot vs), h.failed⟩

/-- The values after an item has ended with one. -/
theorem values_set (h : Told limit total g log) (hitem : g.items[i]? = some .running) (v : α)
    (events : List (FanEvent α ε)) :
    ∀ j w, (g.values.set i (some v))[j]? = some (some w) →
      .finish j (.ok w) ∈ log ++ .finish i (.ok v) :: events := by
  intro j w hw
  by_cases hj : i = j
  · subst hj
    have hlt : i < g.values.length := by
      rw [h.length]
      obtain ⟨hi, -⟩ := List.getElem?_eq_some_iff.mp hitem
      have hlength := h.launched
      omega
    rw [List.getElem?_set_self hlt] at hw
    obtain rfl := Option.some.inj (Option.some.inj hw)
    exact List.mem_append_right _ List.mem_cons_self
  · rw [List.getElem?_set_ne hj] at hw
    exact List.mem_append_left _ (h.values j w hw)

theorem valued_set (h : Told limit total g log) (hitem : g.items[i]? = some .running) (v : α) :
    ∀ j ∈ ends (log ++ [.finish i (.ok v)]), errors log = [] →
      ∃ w, (g.values.set i (some v))[j]? = some (some w) := by
  intro j hj hnone
  by_cases hij : i = j
  · subst hij
    have hlt : i < g.values.length := by
      rw [h.length]
      obtain ⟨hi, -⟩ := List.getElem?_eq_some_iff.mp hitem
      have hlength := h.launched
      omega
    exact ⟨v, List.getElem?_set_self hlt⟩
  · rw [ends_append, List.mem_append] at hj
    rcases hj with hj | hj
    · rw [List.getElem?_set_ne hij]
      exact h.valued j hj hnone
    · exact absurd (List.mem_singleton.mp hj).symm hij

theorem settle_ok (h : Told limit total g log) {v : α}
    (hstep : g.step (.settle i (.ok v)) = some g') :
    Told limit total g' (log ++ g.emits (.settle i (.ok v))) := by
  have hinv := h.toInv.step hstep
  obtain ⟨hitem, ⟨w, hw, rfl⟩ | ⟨e, he, -⟩⟩ := step_settle hstep
  · obtain rfl := Except.ok.inj hw
    have hledger : Ledger limit (g.items.set i .settled) g.stop g.firstError
        (log ++ [.finish i (.ok v)]) (g.toLaunch + 1) := h.ledger.finish hitem (by decide) v
    have hlength : (g.items.set i .settled).length = min g.next g.total := by
      rw [List.length_set]
      exact h.launched
    have hvalues := h.values_set hitem v
    have hvalued := h.valued_set hitem v
    have hnot : ∀ vs, g.result ≠ some (.ok vs) := fun vs hok => by
      cases h.counted_of_ok hok hitem
    unfold emits
    unfold Limited.succeed at hinv ⊢
    dsimp only at hinv ⊢
    by_cases hover : g.bell.sleeper = .over
    · rw [if_pos (show (g.record i .settled).bell.sleeper = .over from hover)] at hinv ⊢
      rw [if_pos hover]
      refine ⟨hinv, hledger.drop, h.total_eq, ?_, hvalues [], ?_,
        fun vs hok => absurd hok (hnot vs), h.failed⟩
      · exact List.length_set.trans h.length
      · intro j hj hnone
        rw [errors_append] at hnone
        exact hvalued j hj (List.append_eq_nil_iff.mp hnone).1
    · rw [if_neg (show (g.record i .settled).bell.sleeper ≠ .over from hover)] at hinv ⊢
      rw [if_neg hover]
      obtain ⟨hends, herrors⟩ := silent_handsOut g
      refine ⟨hinv, ?_, ?_, ?_, ?_, ?_, ?_, ?_⟩
      · rw [launchOne_toLaunch, ← List.singleton_append, ← List.append_assoc]
        exact ledger_launchOne (g := { g.record i .settled with
          values := (g.record i .settled).values.set i (some v) }) hlength hledger
      · rw [launchOne_total]
        exact h.total_eq
      · rw [launchOne_total, launchOne_values]
        exact List.length_set.trans h.length
      · rw [launchOne_values]
        exact hvalues g.handsOut
      · rw [launchOne_values]
        intro j hj hnone
        refine hvalued j ?_ ?_
        · rwa [← List.singleton_append, ← List.append_assoc, ends_append, hends,
            List.append_nil] at hj
        · rw [errors_append] at hnone
          exact (List.append_eq_nil_iff.mp hnone).1
      · rw [launchOne_result]
        exact fun vs hok => absurd hok (hnot vs)
      · rw [launchOne_result]
        intro e he
        exact absurd (h.failed e he).1 hover
  · cases he

theorem settle_error (h : Told limit total g log) {e : ε}
    (hstep : g.step (.settle i (.error e)) = some g') :
    Told limit total g' (log ++ g.emits (.settle i (.error e))) := by
  have hinv := h.toInv.step hstep
  obtain ⟨hitem, ⟨w, hw, -⟩ | ⟨e', he, rfl⟩⟩ := step_settle hstep
  · cases hw
  · obtain rfl := Except.error.inj he
    have hledger : Ledger limit (g.items.set i .settled) true (g.firstError.or (some e))
        (log ++ [.finish i (.error e)]) g.toLaunch := (h.ledger.fail hitem (by decide) e).drop
    have hnot : ∀ vs, g.result ≠ some (.ok vs) := fun vs hok => by
      cases h.counted_of_ok hok hitem
    have hvalues : ∀ j w, g.values[j]? = some (some w) →
        .finish j (.ok w) ∈ log ++ [.finish i (.error e)] :=
      fun j w hw => List.mem_append_left _ (h.values j w hw)
    have hvalued : ∀ j ∈ ends (log ++ [.finish i (.error e)]),
        errors (log ++ [FanEvent.finish i (Except.error (α := α) e)]) = [] →
          ∃ w, g.values[j]? = some (some w) := by
      intro j hj hnone
      rw [errors_append] at hnone
      exact absurd (List.append_eq_nil_iff.mp hnone).2 (List.cons_ne_nil _ _)
    rcases fail_cases (g.record i .settled) e with ⟨⟨first, hfirst⟩, hfail⟩ | ⟨hfirst, hfail⟩
    · rw [hfail] at hinv ⊢
      have hsame : g.firstError.or (some e) = g.firstError := by
        rw [show g.firstError = some first from hfirst]
        rfl
      rw [hsame] at hledger
      exact ⟨hinv, hledger, h.total_eq, h.length, hvalues, hvalued,
        fun vs hok => absurd hok (hnot vs), h.failed⟩
    · rw [hfail] at hinv ⊢
      have hnew : g.firstError.or (some e) = some e := by
        rw [show g.firstError = none from hfirst]
        rfl
      rw [hnew] at hledger
      refine ⟨hinv, hledger, h.total_eq, h.length, hvalues, hvalued,
        fun vs hok => absurd hok (hnot vs), fun e' he' => ?_⟩
      -- The gathering has not failed before its first exception.
      have hsome := (h.failed e' he').2
      rw [show g.firstError = none from hfirst] at hsome
      cases hsome

theorem resume (h : Told limit total g log) (hstep : g.step .resume = some g') :
    Told limit total g' log := by
  have hinv := h.toInv.step hstep
  obtain ⟨hwoken, rfl⟩ := step_resume hstep
  rcases resumed_ends g with ⟨e, hfirst, hresumed⟩ | ⟨hfirst, hall, hresumed⟩ | ⟨bell, hresumed⟩
  · rw [hresumed] at hinv ⊢
    refine ⟨hinv, h.ledger, h.total_eq, h.length, h.values, h.valued, fun vs hvs => ?_,
      fun e' he' => ?_⟩
    · cases hvs
    · obtain rfl := Except.error.inj (Option.some.inj he')
      exact ⟨rfl, hfirst⟩
  · rw [hresumed] at hinv ⊢
    refine ⟨hinv, h.ledger, h.total_eq, h.length, h.values, h.valued, fun vs hvs => ?_,
      fun e' he' => ?_⟩
    · obtain rfl := Except.ok.inj (Option.some.inj hvs)
      exact ⟨rfl, hfirst, hall, rfl⟩
    · cases he'
  · -- A coroutine that has ended is not woken.
    have hover : g.bell.sleeper ≠ .over := by simp [hwoken]
    rw [hresumed] at hinv ⊢
    exact ⟨hinv, h.ledger, h.total_eq, h.length, h.values, h.valued,
      fun vs hvs => absurd (h.succeeded vs hvs).1 hover,
      fun e he => absurd (h.failed e he).1 hover⟩

theorem step {action : LimitedAction α ε} (h : Told limit total g log)
    (hstep : g.step action = some g') : Told limit total g' (log ++ g.emits action) := by
  cases action with
  | launch => exact h.launch hstep
  | wait =>
    rw [show g.emits .wait = [] from rfl, List.append_nil]
    exact h.wait hstep
  | settle i outcome =>
    cases outcome with
    | ok v => exact h.settle_ok hstep
    | error e => exact h.settle_error hstep
  | count i =>
    rw [show g.emits (.count i) = [] from rfl, List.append_nil]
    exact h.count hstep
  | resume =>
    rw [show g.emits .resume = [] from rfl, List.append_nil]
    exact h.resume hstep

theorem eq_map_some {values : List (Option α)} (h : ∀ value ∈ values, ∃ v, value = some v) :
    values = (values.filterMap id).map some := by
  induction values with
  | nil => rfl
  | cons value values ih =>
    obtain ⟨v, rfl⟩ := h value List.mem_cons_self
    have hrest := ih fun value' hmem => h value' (List.mem_cons_of_mem _ hmem)
    have hid : id (some v) = some v := rfl
    rw [List.filterMap_cons_some hid, List.map_cons, ← hrest]

/-- If the gathering has succeeded, every item has a value. -/
theorem values_of_ok (h : Told limit total g log) {vs : List α} (hok : g.result = some (.ok vs)) :
    g.items.length = total ∧ errors log = [] ∧ g.values = vs.map some := by
  obtain ⟨-, hfirst, hall, rfl⟩ := h.succeeded vs hok
  have hnone : errors log = [] := by
    rw [h.ledger.first] at hfirst
    exact List.head?_eq_none_iff.mp hfirst
  have hlength : g.items.length = total := by
    have hlaunched := h.launched
    have hcompleted := h.completed
    have hle := List.countP_le_length (p := (· = Item.counted)) (l := g.items)
    have htotal := h.total_eq
    omega
  refine ⟨hlength, hnone, eq_map_some fun value hmem => ?_⟩
  · obtain ⟨i, hi⟩ := List.mem_iff_getElem?.mp hmem
    have hlt : i < g.items.length := by
      obtain ⟨hlt, -⟩ := List.getElem?_eq_some_iff.mp hi
      rwa [hlength, ← h.total_eq, ← h.length]
    have hitem : g.items[i]? = some g.items[i] := List.getElem?_eq_getElem hlt
    have hended : i ∈ ends log := by
      refine (h.ledger.tracks.ended i).mpr ⟨_, hitem, ?_⟩
      rw [h.counted_of_ok hok hitem]
      decide
    obtain ⟨v, hv⟩ := h.valued i hended hnone
    exact ⟨v, Option.some.inj (hi.symm.trans hv)⟩

end Told

theorem told_of_run {total concurrency : Nat} {actions : List (LimitedAction α ε)}
    (hrun : exec (logged Limited.step emits) (Limited.start total concurrency, []) actions =
      some (g, log)) : Told (max 1 (min concurrency total)) total g log := by
  have hstep : ∀ (g : Limited α ε) log action g', Told (max 1 (min concurrency total)) total g log →
      g.step action = some g' →
        Told (max 1 (min concurrency total)) total g' (log ++ g.emits action) :=
    fun _ _ _ _ h hstep => h.step hstep
  exact invariant_of_logged hstep (.start total concurrency) hrun

/-- In every run `gather_limited` does what it promises of its items and of its result. -/
theorem exact {total concurrency : Nat} {actions : List (LimitedAction α ε)}
    (hrun : exec (logged Limited.step emits) (Limited.start total concurrency, []) actions =
      some (g, log)) : FanOutExact total concurrency (Values total) log g.result := by
  have htold := told_of_run hrun
  have hlaunched := htold.launched
  have htotal := htold.total_eq
  refine ⟨htold.ledger.bounded (by omega), fun vs hok => ?_, fun e he => ?_,
    fun hfailed vs hok => ?_⟩
  · obtain ⟨hlength, -, hvalues⟩ := htold.values_of_ok hok
    refine ⟨?_, ?_, fun i v hv => ?_⟩
    · rw [htold.ledger.tracks.started, hlength]
    · rw [← htotal, ← htold.length, hvalues, List.length_map]
    · apply htold.values
      rw [hvalues, List.getElem?_map, hv]
      rfl
  · rw [← htold.ledger.first]
    exact (htold.failed e he).2
  · exact hfailed (htold.values_of_ok hok).2.1

/-! ### When a failure is slept through -/

/-- When the coroutine begins to wait no item has failed. -/
def Unfailed (g : Limited α ε) : LimitedAction α ε → Prop
  | .wait => g.firstError = none
  | _ => True

/-- Nobody will tell the coroutine that an item has failed. -/
def Unnoticed (g : Limited α ε) : Prop := g.firstError.isSome = true ∧ g.bell.Lost

/-- The bell is lost only if an item has failed, or all are counted. -/
structure Watched (g : Limited α ε) : Prop extends g.Inv where
  lost : g.bell.Lost → g.firstError.isSome = true ∨ g.completed = g.total

/-- If all items are counted, none is left to end. -/
theorem Inv.counted_of_completed (h : g.Inv) (hall : g.completed = g.total) {item : Item}
    (hitem : g.items[i]? = some item) : item = .counted := by
  have hlength := h.launched
  have hcompleted := h.completed
  have hle := List.countP_le_length (p := (· = Item.counted)) (l := g.items)
  have heq : g.items.countP (· = .counted) = g.items.length := by omega
  simpa using List.countP_eq_length.mp heq item (List.mem_of_getElem? hitem)

theorem Watched.step {action : LimitedAction α ε} (h : g.Watched)
    (hstep : g.step action = some g') : g'.Watched := by
  refine ⟨h.toInv.step hstep, ?_⟩
  cases action with
  | launch =>
    obtain ⟨hbefore, -, rfl⟩ := step_launch hstep
    rw [bell_launchOne]
    intro hlost
    rw [Bell.Lost, hbefore] at hlost
    cases hlost.1
  | wait =>
    obtain ⟨hbefore, -, rfl⟩ := step_wait hstep
    exact fun hlost => h.before hbefore hlost.2
  | settle i outcome =>
    obtain ⟨hitem, ⟨v, -, rfl⟩ | ⟨e, -, rfl⟩⟩ := step_settle hstep
    · rw [bell_succeed]
      intro hlost
      refine .inl ((h.lost hlost).elim (fun hsome => ?_) fun hall => ?_)
      · unfold succeed
        dsimp only
        split_ifs
        · exact hsome
        · rw [launchOne_firstError]
          exact hsome
      · cases h.counted_of_completed hall hitem
    · rcases fail_cases (g.record i .settled) e with ⟨⟨first, hfirst⟩, hfail⟩ | ⟨-, hfail⟩
      · rw [hfail]
        exact fun _ => .inl (by rw [hfirst]; rfl)
      · rw [hfail]
        exact fun _ => .inl rfl
  | count i =>
    obtain ⟨hitem, rfl⟩ := step_count hstep
    have hkept : g.bell.Lost → g.firstError.isSome = true := fun hlost =>
      (h.lost hlost).elim id fun hall => by cases h.counted_of_completed hall hitem
    unfold counted
    split_ifs with hlast
    · exact fun _ => .inr hlast
    · exact fun hlost => .inl (hkept hlost)
  | resume =>
    obtain ⟨hwoken, rfl⟩ := step_resume hstep
    rcases resumed_cases g with ⟨result, hresumed⟩ | ⟨hnone, -, hresumed⟩
    · rw [hresumed]
      exact fun hlost => by cases hlost.1
    · rw [hresumed, if_neg (by simp [h.not_stop hnone])]
      exact fun hlost => absurd hlost.2 Bool.false_ne_true

theorem watched_start (total concurrency : Nat) :
    (Limited.start total concurrency : Limited α ε).Watched := by
  refine ⟨inv_start total concurrency, ?_⟩
  unfold Limited.start
  split_ifs
  all_goals exact fun hlost => by cases hlost.1

/-- What has failed stays so. -/
theorem firstError_step {action : LimitedAction α ε} (hstep : g.step action = some g')
    (hsome : g.firstError.isSome = true) : g'.firstError.isSome = true := by
  cases action with
  | launch =>
    obtain ⟨-, -, rfl⟩ := step_launch hstep
    rwa [launchOne_firstError]
  | wait =>
    obtain ⟨-, -, rfl⟩ := step_wait hstep
    exact hsome
  | settle i outcome =>
    obtain ⟨-, ⟨v, -, rfl⟩ | ⟨e, -, rfl⟩⟩ := step_settle hstep
    · unfold succeed
      dsimp only
      split_ifs
      · exact hsome
      · rw [launchOne_firstError]
        exact hsome
    · rcases fail_cases (g.record i .settled) e with ⟨-, hfail⟩ | ⟨-, hfail⟩
      · rw [hfail]
        exact hsome
      · rw [hfail]
        rfl
  | count i =>
    obtain ⟨-, rfl⟩ := step_count hstep
    unfold counted
    split_ifs <;> exact hsome
  | resume =>
    obtain ⟨-, rfl⟩ := step_resume hstep
    rcases resumed_ends g with ⟨e, -, hresumed⟩ | ⟨-, -, hresumed⟩ | ⟨bell, hresumed⟩
    all_goals
      rw [hresumed]
      exact hsome

theorem Unnoticed.step {action : LimitedAction α ε} (h : g.Unnoticed)
    (hstep : g.step action = some g') : g'.Unnoticed := by
  refine ⟨firstError_step hstep h.1, ?_⟩
  rw [h.2.move (rings g action g' hstep)]
  exact h.2

/-- A step leads to a failure that nobody notices only if it begins to wait for nothing. -/
theorem Watched.unfailed_iff {action : LimitedAction α ε} (h : g.Watched) (hgood : ¬ g.Unnoticed)
    (hstep : g.step action = some g') : g.Unfailed action ↔ ¬ g'.Unnoticed := by
  cases action with
  | launch =>
    obtain ⟨hbefore, -, rfl⟩ := step_launch hstep
    refine iff_of_true trivial fun hbad => ?_
    rw [Unnoticed, bell_launchOne, Bell.Lost, hbefore] at hbad
    cases hbad.2.1
  | wait =>
    obtain ⟨hbefore, -, rfl⟩ := step_wait hstep
    constructor
    · rintro hnone ⟨hsome, -⟩
      rw [show g.firstError = none from hnone] at hsome
      cases hsome
    · intro hnot
      by_contra hfailed
      have hrung : g.bell.rung = true := by
        by_contra hdown
        exact hfailed (h.silent (by simp [hbefore]) (by simpa using hdown)).1
      exact hnot ⟨Option.isSome_iff_ne_none.mpr hfailed, rfl, hrung⟩
  | settle i outcome =>
    refine iff_of_true trivial ?_
    obtain ⟨hitem, ⟨v, -, rfl⟩ | ⟨e, -, rfl⟩⟩ := step_settle hstep
    · rintro ⟨hsome, hlost⟩
      rw [bell_succeed] at hlost
      rcases h.lost hlost with hfailed | hall
      · exact hgood ⟨hfailed, hlost⟩
      · cases h.counted_of_completed hall hitem
    · rcases fail_cases (g.record i .settled) e with ⟨⟨first, hfirst⟩, hfail⟩ | ⟨hfirst, hfail⟩
      · rw [hfail]
        exact hgood
      · rw [hfail]
        rintro ⟨-, hlost⟩
        refine Bell.not_lost_ring (fun hbell => ?_) hlost
        rcases h.lost hbell with hfailed | hall
        · rw [show g.firstError = none from hfirst] at hfailed
          cases hfailed
        · cases h.counted_of_completed hall hitem
  | count i =>
    refine iff_of_true trivial ?_
    obtain ⟨-, rfl⟩ := step_count hstep
    unfold counted
    split_ifs
    · rintro ⟨hsome, hlost⟩
      exact Bell.not_lost_ring (fun hbell => hgood ⟨hsome, hbell⟩) hlost
    · exact hgood
  | resume =>
    refine iff_of_true trivial ?_
    obtain ⟨hwoken, rfl⟩ := step_resume hstep
    rcases resumed_cases g with ⟨result, hresumed⟩ | ⟨hnone, -, hresumed⟩
    · rw [hresumed]
      rintro ⟨-, hlost⟩
      cases hlost.1
    · rw [hresumed, if_neg (by simp [h.not_stop hnone])]
      rintro ⟨-, hlost⟩
      exact Bool.false_ne_true hlost.2

/-- The coroutine of `gather_limited` sleeps through a failure just if it has begun to wait after
one. -/
theorem unslept_iff {total concurrency : Nat} {actions : List (LimitedAction α ε)}
    (hrun : exec (logged Limited.step emits) (Limited.start total concurrency, []) actions =
      some (g, log)) :
    Unslept log g.bell ↔ Along Limited.step Unfailed (Limited.start total concurrency) actions := by
  have htold := told_of_run hrun
  have hkept : ∀ (g : Limited α ε) action g', g.Watched → g.step action = some g' → g'.Watched :=
    fun _ _ _ h hstep => h.step hstep
  have habsorb : ∀ (g : Limited α ε) action g', g.Unnoticed → g.step action = some g' →
      g'.Unnoticed := fun _ _ _ h hstep => h.step hstep
  have hstart : ¬ (Limited.start total concurrency : Limited α ε).Unnoticed := by
    unfold Limited.start
    split_ifs <;> exact fun hbad => by cases hbad.1
  have hiff : Along Limited.step Unfailed (Limited.start total concurrency) actions ↔
      ¬ g.Unnoticed :=
    along_iff_of_absorbing hkept habsorb (fun _ _ _ h hgood hstep => h.unfailed_iff hgood hstep)
      (watched_start total concurrency) hstart (exec_of_logged hrun)
  rw [hiff, Unslept, ← not_imp_not, not_not]
  have hfailed : errors log ≠ [] ↔ g.firstError.isSome = true := by
    rw [htold.ledger.first]
    cases errors log <;> simp
  constructor
  · rintro hunslept ⟨hsome, hlost⟩
    exact hunslept hlost.1 (hfailed.mpr hsome)
  · intro hnot hwaiting hsome
    refine hnot ⟨hfailed.mp hsome, hwaiting, ?_⟩
    by_contra hdown
    have hnone := (htold.silent (by simp [hwaiting]) (by simpa using hdown)).1
    rw [hfailed, hnone] at hsome
    cases hsome

end Limited

end HttpClient.Asyncx
