import HttpClient.Asyncx.FanOut

/-!
# Handing over results as they come

`for_each_limited` spawns workers that take the next item from a counter until there is none
left or an item has failed. What an item returns is handed to `on_result` at once; an exception
of either is a failure of the item.

After it has spawned its workers the coroutine first looks whether all items are counted, and
waits only if they are not. It looks for an exception only when it has been woken.

## Main definitions

* `ForEach` — `for_each_limited`
* `ForEach.Noticed`, `ForEach.Unfailed` — what the coroutine meets when it first looks

## Main results

* `ForEach.exact_iff` — when it ends as it promises
* `ForEach.unslept_iff` — when it sleeps though an item has failed
* `fan_out_exact_iff` — the same of `gather_limited` and `for_each_limited`
-/

set_option autoImplicit false

namespace HttpClient.Asyncx

open Semantics

variable {α ε : Type}

/-- `for_each_limited`. A worker takes its next item in the step that ends the one before, so an
item is running until it is counted. -/
structure ForEach (ε : Type) where
  total : Nat
  /-- How many workers the coroutine is still to spawn. -/
  toSpawn : Nat
  next : Nat := 0
  /-- The items that have been taken, by index. -/
  items : List Item := []
  firstError : Option ε := none
  stop : Bool := false
  completed : Nat := 0
  bell : Bell := {}
  result : Option (Except ε Unit) := none

inductive ForEachAction (α ε : Type) where
  /-- The coroutine spawns a worker, which takes an item. -/
  | spawn
  /-- The coroutine compares for the first time how many items are counted. -/
  | look
  /-- An item ends; with a value, `on_result` is called, which may throw. -/
  | finish (i : Nat) (outcome : Except ε α) (thrown : Option ε)
  /-- The coroutine resumes. -/
  | resume

namespace ForEach

def start (total concurrency : Nat) : ForEach ε :=
  if total = 0 then { total, toSpawn := 0, bell := { sleeper := .over }, result := some (.ok ()) }
  else { total, toSpawn := min (max 1 concurrency) total }

/-- The head of a worker's loop. -/
def take (g : ForEach ε) : ForEach ε :=
  if g.stop then g
  else if g.total ≤ g.next then { g with next := g.next + 1 }
  else { g with next := g.next + 1, items := g.items ++ [.running] }

/-- The exception of an item, or of the call of `on_result`. -/
def itemError (outcome : Except ε α) (thrown : Option ε) : Option ε :=
  match outcome with
  | .ok _ => thrown
  | .error e => some e

/-- Only the first failure wakes the coroutine. -/
def fail (g : ForEach ε) (error : Option ε) : ForEach ε :=
  match error, g.firstError with
  | none, _ => g
  | some _, some _ => { g with stop := true }
  | some e, none => { g with firstError := some e, stop := true, bell := g.bell.ring }

def counted (g : ForEach ε) (i : Nat) : ForEach ε :=
  let g := { g with items := g.items.set i .counted, completed := g.completed + 1 }
  if g.completed = g.total then { g with bell := g.bell.ring } else g

def finish (g : ForEach ε) (result : Except ε Unit) : ForEach ε :=
  { g with bell := { g.bell with sleeper := .over }, result := some result }

/-- The coroutine has been woken. -/
def resumed (g : ForEach ε) : ForEach ε :=
  match g.firstError with
  | some e => g.finish (.error e)
  | none =>
    if g.completed < g.total then { g with bell := { sleeper := .waiting, rung := false } }
    else g.finish (.ok ())

def step (g : ForEach ε) : ForEachAction α ε → Option (ForEach ε)
  | .spawn =>
    if g.bell.sleeper = .before ∧ 0 < g.toSpawn then
      some { g with toSpawn := g.toSpawn - 1 }.take
    else none
  | .look =>
    if g.bell.sleeper = .before ∧ g.toSpawn = 0 then
      some (if g.completed < g.total then { g with bell := { g.bell with sleeper := .waiting } }
        else g.finish (.ok ()))
    else none
  | .finish i outcome thrown =>
    if g.items[i]? = some .running then
      some ((g.fail (itemError outcome thrown)).counted i).take
    else none
  | .resume =>
    if g.bell.sleeper = .woken then some g.resumed else none

/-- The item that a worker takes. -/
def takes (g : ForEach ε) : List (FanEvent α ε) :=
  if g.stop ∨ g.total ≤ g.next then [] else [.start g.next]

/-- What the end of an item hands over. -/
def hands (i : Nat) (outcome : Except ε α) (thrown : Option ε) : List (FanEvent α ε) :=
  match outcome with
  | .ok v => [.finish i (.ok v), .result i v thrown]
  | .error e => [.finish i (.error e)]

/-- What there is to see of a step. -/
def emits (g : ForEach ε) : ForEachAction α ε → List (FanEvent α ε)
  | .spawn => g.takes
  | .finish i outcome thrown =>
    hands i outcome thrown ++ ((g.fail (itemError outcome thrown)).counted i).takes
  | _ => []

/-- When the coroutine first looks, not all items are counted, or none has failed. -/
def Noticed (g : ForEach ε) : ForEachAction α ε → Prop
  | .look => g.completed < g.total ∨ g.firstError = none
  | _ => True

/-- When the coroutine first looks, no item has failed, or all are counted. -/
def Unfailed (g : ForEach ε) : ForEachAction α ε → Prop
  | .look => g.firstError = none ∨ g.total ≤ g.completed
  | _ => True

/-! ### The steps -/

variable {g g' : ForEach ε} {log : List (FanEvent α ε)} {i : Nat} {outcome : Except ε α}
  {thrown : Option ε}

theorem step_spawn (h : g.step (.spawn : ForEachAction α ε) = some g') :
    g.bell.sleeper = .before ∧ 0 < g.toSpawn ∧ g' = { g with toSpawn := g.toSpawn - 1 }.take := by
  simp only [step] at h
  split_ifs at h with henabled
  exact ⟨henabled.1, henabled.2, (Option.some.inj h).symm⟩

theorem step_look (h : g.step (.look : ForEachAction α ε) = some g') :
    g.bell.sleeper = .before ∧
      (g.completed < g.total ∧ g' = { g with bell := { g.bell with sleeper := .waiting } } ∨
        g.total ≤ g.completed ∧ g' = g.finish (.ok ())) := by
  simp only [step] at h
  split_ifs at h with henabled hmore
  · exact ⟨henabled.1, .inl ⟨hmore, (Option.some.inj h).symm⟩⟩
  · exact ⟨henabled.1, .inr ⟨Nat.not_lt.mp hmore, (Option.some.inj h).symm⟩⟩

theorem step_finish (h : g.step (.finish i outcome thrown) = some g') :
    g.items[i]? = some .running ∧
      g' = ((g.fail (itemError outcome thrown)).counted i).take := by
  simp only [step] at h
  split_ifs at h with hitem
  exact ⟨hitem, (Option.some.inj h).symm⟩

/-- The coroutine rethrows the first failure, waits again, or ends. -/
theorem step_resume (h : g.step (.resume : ForEachAction α ε) = some g') :
    g.bell.sleeper = .woken ∧
      ((∃ e, g.firstError = some e ∧ g' = g.finish (.error e)) ∨
        g.firstError = none ∧ g.completed < g.total ∧
          g' = { g with bell := { sleeper := .waiting, rung := false } } ∨
        g.firstError = none ∧ g.total ≤ g.completed ∧ g' = g.finish (.ok ())) := by
  simp only [step] at h
  split_ifs at h with hwoken
  refine ⟨hwoken, ?_⟩
  obtain rfl := Option.some.inj h
  unfold resumed
  cases g.firstError with
  | some e => exact .inl ⟨e, rfl, rfl⟩
  | none =>
    dsimp only
    split_ifs with hmore
    · exact .inr (.inl ⟨rfl, hmore, rfl⟩)
    · exact .inr (.inr ⟨rfl, Nat.not_lt.mp hmore, rfl⟩)

/-- A worker takes the item at the end of the table, or none. -/
theorem take_cases (g : ForEach ε) :
    (∃ next, g.take = { g with next } ∧ (g.stop = true ∧ next = g.next ∨
        g.stop = false ∧ g.total ≤ g.next ∧ next = g.next + 1) ∧
        (g.takes : List (FanEvent α ε)) = []) ∨
      (g.stop = false ∧ g.next < g.total ∧
        g.take = { g with next := g.next + 1, items := g.items ++ [.running] } ∧
        (g.takes : List (FanEvent α ε)) = [.start g.next]) := by
  unfold take takes
  by_cases hstop : g.stop = true
  · exact .inl ⟨g.next, by rw [if_pos hstop], .inl ⟨hstop, rfl⟩, if_pos (.inl hstop)⟩
  · have hgo : g.stop = false := Bool.not_eq_true _ ▸ hstop
    by_cases hall : g.total ≤ g.next
    · exact .inl ⟨g.next + 1, by rw [if_neg hstop, if_pos hall], .inr ⟨hgo, hall, rfl⟩,
        if_pos (.inr hall)⟩
    · exact .inr ⟨hgo, Nat.not_le.mp hall, by rw [if_neg hstop, if_neg hall], if_neg (by tauto)⟩

@[simp] theorem take_total (g : ForEach ε) : g.take.total = g.total := by
  unfold take
  split_ifs <;> rfl

@[simp] theorem take_toSpawn (g : ForEach ε) : g.take.toSpawn = g.toSpawn := by
  unfold take
  split_ifs <;> rfl

@[simp] theorem take_firstError (g : ForEach ε) : g.take.firstError = g.firstError := by
  unfold take
  split_ifs <;> rfl

@[simp] theorem take_stop (g : ForEach ε) : g.take.stop = g.stop := by
  unfold take
  split_ifs <;> rfl

@[simp] theorem take_completed (g : ForEach ε) : g.take.completed = g.completed := by
  unfold take
  split_ifs <;> rfl

@[simp] theorem take_bell (g : ForEach ε) : g.take.bell = g.bell := by
  unfold take
  split_ifs <;> rfl

@[simp] theorem take_result (g : ForEach ε) : g.take.result = g.result := by
  unfold take
  split_ifs <;> rfl

/-- What a failure changes: the flag, the first exception and the bell. -/
theorem fail_cases (g : ForEach ε) (error : Option ε) :
    error = none ∧ g.fail error = g ∨
      (∃ e first, error = some e ∧ g.firstError = some first ∧
        g.fail error = { g with stop := true }) ∨
      ∃ e, error = some e ∧ g.firstError = none ∧
        g.fail error = { g with firstError := some e, stop := true, bell := g.bell.ring } := by
  unfold fail
  cases error with
  | none => exact .inl ⟨rfl, rfl⟩
  | some e =>
    cases hfirst : g.firstError with
    | some first => exact .inr (.inl ⟨e, first, rfl, rfl, rfl⟩)
    | none => exact .inr (.inr ⟨e, rfl, rfl, rfl⟩)

/-- A failure leaves what is counted alone, and moves the bell at most by ringing it. -/
theorem fail_keeps (g : ForEach ε) (error : Option ε) :
    (g.fail error).total = g.total ∧ (g.fail error).toSpawn = g.toSpawn ∧
      (g.fail error).next = g.next ∧ (g.fail error).items = g.items ∧
      (g.fail error).completed = g.completed ∧ (g.fail error).result = g.result ∧
      (g.fail error).firstError = g.firstError.or error ∧
      (g.fail error).stop = (g.stop || error.isSome) := by
  rcases fail_cases g error with ⟨rfl, hfail⟩ | ⟨e, first, rfl, hfirst, hfail⟩ |
    ⟨e, rfl, hfirst, hfail⟩
  · rw [hfail]
    simp
  · rw [hfail]
    simp [hfirst]
  · rw [hfail]
    simp [hfirst]

/-- The state after an item has ended, before its worker takes another one. -/
theorem counted_keeps (g : ForEach ε) (i : Nat) :
    (g.counted i).total = g.total ∧ (g.counted i).toSpawn = g.toSpawn ∧
      (g.counted i).next = g.next ∧ (g.counted i).items = g.items.set i .counted ∧
      (g.counted i).completed = g.completed + 1 ∧ (g.counted i).result = g.result ∧
      (g.counted i).firstError = g.firstError ∧ (g.counted i).stop = g.stop := by
  unfold counted
  dsimp only
  split_ifs <;> exact ⟨rfl, rfl, rfl, rfl, rfl, rfl, rfl, rfl⟩

/-- The first failure and the last item ring the bell, and nothing else does. -/
theorem bell_counted_fail (g : ForEach ε) (i : Nat) (error : Option ε) :
    (((g.fail error).counted i).bell = g.bell ∧ g.completed + 1 ≠ g.total ∧
        (error = none ∨ g.firstError.isSome = true)) ∨
      (((g.fail error).counted i).bell = g.bell.ring ∧
        (error.isSome = true ∨ g.completed + 1 = g.total)) := by
  unfold counted
  dsimp only
  obtain ⟨htotal, -, -, -, hcompleted, -⟩ := fail_keeps g error
  rw [htotal, hcompleted]
  rcases fail_cases g error with ⟨rfl, hfail⟩ | ⟨e, first, rfl, hfirst, hfail⟩ |
    ⟨e, rfl, hfirst, hfail⟩
  · rw [hfail]
    split_ifs with hlast
    · exact .inr ⟨rfl, .inr hlast⟩
    · exact .inl ⟨rfl, hlast, .inl rfl⟩
  · rw [hfail]
    split_ifs with hlast
    · exact .inr ⟨rfl, .inr hlast⟩
    · exact .inl ⟨rfl, hlast, .inr (by rw [hfirst]; rfl)⟩
  · rw [hfail]
    split_ifs with hlast
    · exact .inr ⟨Bell.ring_of_rung (Bell.rung_ring _), .inr hlast⟩
    · exact .inr ⟨rfl, .inl rfl⟩

/-! ### What every step keeps -/

structure Inv (g : ForEach ε) : Prop where
  completed : g.completed = g.items.countP (· = .counted)
  launched : g.items.length = min g.next g.total
  stops : g.stop = g.firstError.isSome
  /-- Whoever finds the flag down has neither an error nor all items. -/
  silent : g.bell.sleeper ≠ .over → g.bell.rung = false →
    g.firstError = none ∧ g.completed < g.total
  before : g.bell.sleeper = .before → g.bell.rung = true →
    g.firstError.isSome = true ∨ g.completed = g.total
  lost : g.bell.Lost → g.firstError.isSome = true
  ended : g.result.isSome = true → g.bell.sleeper = .over
  succeeded : g.result = some (.ok ()) → g.total ≤ g.completed

theorem inv_start (total concurrency : Nat) : (start total concurrency : ForEach ε).Inv := by
  unfold start
  split_ifs with htotal
  · exact ⟨rfl, by simp [htotal], rfl, fun h => absurd rfl h, fun h => (by cases h),
      fun h => (by cases h.1), fun _ => rfl, fun _ => htotal.le⟩
  · exact ⟨rfl, by simp, rfl, fun _ _ => ⟨rfl, Nat.pos_of_ne_zero htotal⟩,
      fun _ h => absurd h Bool.false_ne_true, fun h => (by cases h.1), fun h => (by cases h),
      fun h => (by cases h)⟩

/-- As long as an item runs, not all are counted. -/
theorem Inv.completed_lt (h : g.Inv) (hitem : g.items[i]? = some .running) :
    g.completed < g.total := by
  have hlength := h.launched
  have hcompleted := h.completed
  have hle := List.countP_le_length (p := (· = Item.counted)) (l := g.items)
  by_contra hall
  have heq : g.items.countP (· = .counted) = g.items.length := by omega
  have hcounted := List.countP_eq_length.mp heq _ (List.mem_of_getElem? hitem)
  simp at hcounted

/-- While an item runs the coroutine has not ended with success. -/
theorem Inv.not_ok (h : g.Inv) (hitem : g.items[i]? = some .running) :
    g.result ≠ some (.ok ()) := fun hok =>
  absurd (h.succeeded hok) (Nat.not_le.mpr (h.completed_lt hitem))

/-- A worker takes an item. -/
theorem Inv.take (h : g.Inv) : g.take.Inv := by
  have hrest : g.take.items.countP (· = .counted) = g.items.countP (· = .counted) ∧
      g.take.items.length = min g.take.next g.take.total := by
    have hlength := h.launched
    rcases take_cases (α := Unit) g with ⟨next, htake, hnext, -⟩ | ⟨-, hmore, htake, -⟩
    · rw [htake]
      refine ⟨rfl, ?_⟩
      dsimp only
      omega
    · rw [htake]
      refine ⟨by simp, ?_⟩
      simp only [List.length_append, List.length_singleton]
      omega
  refine ⟨?_, hrest.2, ?_, ?_, ?_, ?_, ?_, ?_⟩
  · rw [take_completed, hrest.1]
    exact h.completed
  · rw [take_stop, take_firstError]
    exact h.stops
  · rw [take_bell, take_firstError, take_completed, take_total]
    exact h.silent
  · rw [take_bell, take_firstError, take_completed, take_total]
    exact h.before
  · rw [take_bell, take_firstError]
    exact h.lost
  · rw [take_result, take_bell]
    exact h.ended
  · rw [take_result, take_completed, take_total]
    exact h.succeeded

/-- An item ends, and its worker has not gone on yet. -/
theorem Inv.counted (h : g.Inv) (hitem : g.items[i]? = some .running) (error : Option ε) :
    ((g.fail error).counted i).Inv := by
  obtain ⟨ftotal, -, fnext, fitems, fcompleted, fresult, ffirst, fstop⟩ := fail_keeps g error
  obtain ⟨ctotal, -, cnext, citems, ccompleted, cresult, cfirst, cstop⟩ :=
    counted_keeps (g.fail error) i
  rw [ftotal] at ctotal
  rw [fnext] at cnext
  rw [fitems] at citems
  rw [fcompleted] at ccompleted
  rw [fresult] at cresult
  rw [ffirst] at cfirst
  rw [fstop] at cstop
  have hmore := h.completed_lt hitem
  have hcount := Limited.countP_set_item .counted hitem
  simp only [reduceCtorEq, if_false, if_true, Nat.add_zero] at hcount
  have hsome : g.firstError.isSome = true → (g.firstError.or error).isSome = true := fun h => by
    rw [Option.isSome_or, h, Bool.true_or]
  have herror : error.isSome = true → (g.firstError.or error).isSome = true := fun h => by
    rw [Option.isSome_or, h, Bool.or_true]
  refine ⟨?_, ?_, ?_, ?_, ?_, ?_, ?_, ?_⟩
  · rw [ccompleted, citems, hcount, h.completed]
  · rw [citems, cnext, ctotal, List.length_set]
    exact h.launched
  · rw [cstop, cfirst, Option.isSome_or, h.stops]
  · intro hover hdown
    rw [cfirst, ccompleted, ctotal]
    rcases bell_counted_fail g i error with ⟨hsame, hlast, hnone⟩ | ⟨hring, -⟩
    · rw [hsame] at hover hdown
      obtain ⟨hfirst, -⟩ := h.silent hover hdown
      rcases hnone with rfl | hfailed
      · exact ⟨by rw [hfirst]; rfl, by omega⟩
      · rw [hfirst] at hfailed
        cases hfailed
    · rw [hring, Bell.rung_ring] at hdown
      cases hdown
  · intro hbefore hup
    rw [cfirst, ccompleted, ctotal]
    rcases bell_counted_fail g i error with ⟨hsame, -, -⟩ | ⟨-, hfailed | hlast⟩
    · rw [hsame] at hbefore hup
      rcases h.before hbefore hup with hfailed | hall
      · exact .inl (hsome hfailed)
      · omega
    · exact .inl (herror hfailed)
    · exact .inr hlast
  · intro hlost
    rw [cfirst]
    by_cases hbell : g.bell.Lost
    · exact hsome (h.lost hbell)
    · rcases bell_counted_fail g i error with ⟨hsame, -, -⟩ | ⟨hring, -⟩
      · rw [hsame] at hlost
        exact absurd hlost hbell
      · rw [hring] at hlost
        exact absurd hlost (Bell.not_lost_ring hbell)
  · rw [cresult]
    intro hresult
    have hover := h.ended hresult
    rcases bell_counted_fail g i error with ⟨hsame, -, -⟩ | ⟨hring, -⟩
    · rw [hsame, hover]
    · rw [hring, Bell.sleeper_ring (by simp [hover]), hover]
  · rw [cresult]
    exact fun hok => absurd hok (h.not_ok hitem)

theorem Inv.step {action : ForEachAction α ε} (h : g.Inv) (hstep : g.step action = some g') :
    g'.Inv := by
  cases action with
  | spawn =>
    obtain ⟨-, -, rfl⟩ := step_spawn hstep
    have hspawned : Inv { g with toSpawn := g.toSpawn - 1 } :=
      ⟨h.completed, h.launched, h.stops, h.silent, h.before, h.lost, h.ended, h.succeeded⟩
    exact hspawned.take
  | look =>
    obtain ⟨hbefore, ⟨hmore, rfl⟩ | ⟨hall, rfl⟩⟩ := step_look hstep
    · refine ⟨h.completed, h.launched, h.stops, fun _ => h.silent (by simp [hbefore]),
        fun hnot => (by cases hnot), fun hlost => ?_, fun hresult => ?_, h.succeeded⟩
      · exact (h.before hbefore hlost.2).resolve_right (by omega)
      · have hover := h.ended hresult
        rw [hbefore] at hover
        cases hover
    · exact ⟨h.completed, h.launched, h.stops, fun hover => absurd rfl hover,
        fun hnot => (by cases hnot), fun hlost => (by cases hlost.1), fun _ => rfl, fun _ => hall⟩
  | finish i outcome thrown =>
    obtain ⟨hitem, rfl⟩ := step_finish hstep
    exact (h.counted hitem _).take
  | resume =>
    obtain ⟨hwoken, ⟨e, -, rfl⟩ | ⟨hfirst, hmore, rfl⟩ | ⟨-, hall, rfl⟩⟩ := step_resume hstep
    · exact ⟨h.completed, h.launched, h.stops, fun hover => absurd rfl hover,
        fun hnot => (by cases hnot), fun hlost => (by cases hlost.1), fun _ => rfl,
        fun hok => (by cases hok)⟩
    · refine ⟨h.completed, h.launched, h.stops, fun _ _ => ⟨hfirst, hmore⟩,
        fun hnot => (by cases hnot), fun hlost => (by cases hlost.2), fun hresult => ?_,
        h.succeeded⟩
      have hover := h.ended hresult
      rw [hwoken] at hover
      cases hover
    · exact ⟨h.completed, h.launched, h.stops, fun hover => absurd rfl hover,
        fun hnot => (by cases hnot), fun hlost => (by cases hlost.1), fun _ => rfl, fun _ => hall⟩

/-! ### What goes wrong with a failure -/

/-- The coroutine has ended with success, and an item has failed. -/
def Dropped (g : ForEach ε) : Prop := g.result = some (.ok ()) ∧ g.firstError.isSome = true

/-- Nobody will tell the coroutine that an item has failed. -/
def Unnoticed (g : ForEach ε) : Prop := g.firstError.isSome = true ∧ g.bell.Lost

theorem rings : Rings (α := ForEachAction α ε) ForEach.step ForEach.bell := by
  intro g action g' hstep
  cases action with
  | spawn =>
    obtain ⟨-, -, rfl⟩ := step_spawn hstep
    rw [take_bell]
    exact .stay _
  | look =>
    obtain ⟨hbefore, ⟨-, rfl⟩ | ⟨-, rfl⟩⟩ := step_look hstep
    · exact .wait _ (by simp [hbefore])
    · exact .stop _ (by simp [hbefore])
  | finish i outcome thrown =>
    obtain ⟨-, rfl⟩ := step_finish hstep
    rw [take_bell]
    rcases bell_counted_fail g i (itemError outcome thrown) with ⟨hsame, -⟩ | ⟨hring, -⟩
    · rw [hsame]
      exact .stay _
    · rw [hring]
      exact .ring _
  | resume =>
    obtain ⟨hwoken, ⟨e, -, rfl⟩ | ⟨-, -, rfl⟩ | ⟨-, -, rfl⟩⟩ := step_resume hstep
    · exact .stop _ (by simp [hwoken])
    · exact .rearm _ hwoken
    · exact .stop _ (by simp [hwoken])

/-- What has failed stays so. -/
theorem firstError_step {action : ForEachAction α ε} (hstep : g.step action = some g')
    (hsome : g.firstError.isSome = true) : g'.firstError.isSome = true := by
  cases action with
  | spawn =>
    obtain ⟨-, -, rfl⟩ := step_spawn hstep
    rwa [take_firstError]
  | look =>
    obtain ⟨-, ⟨-, rfl⟩ | ⟨-, rfl⟩⟩ := step_look hstep
    · exact hsome
    · exact hsome
  | finish i outcome thrown =>
    obtain ⟨-, rfl⟩ := step_finish hstep
    obtain ⟨-, -, -, -, -, -, ffirst, -⟩ := fail_keeps g (itemError outcome thrown)
    obtain ⟨-, -, -, -, -, -, cfirst, -⟩ := counted_keeps (g.fail (itemError outcome thrown)) i
    rw [take_firstError, cfirst, ffirst, Option.isSome_or, hsome, Bool.true_or]
  | resume =>
    obtain ⟨-, ⟨e, -, rfl⟩ | ⟨-, -, rfl⟩ | ⟨-, -, rfl⟩⟩ := step_resume hstep
    all_goals exact hsome

theorem result_finish (g : ForEach ε) (i : Nat) (error : Option ε) :
    ((g.fail error).counted i).take.result = g.result := by
  obtain ⟨-, -, -, -, -, fresult, -⟩ := fail_keeps g error
  obtain ⟨-, -, -, -, -, cresult, -⟩ := counted_keeps (g.fail error) i
  rw [take_result, cresult, fresult]

theorem Dropped.step {action : ForEachAction α ε} (hinv : g.Inv) (h : g.Dropped)
    (hstep : g.step action = some g') : g'.Dropped := by
  refine ⟨?_, firstError_step hstep h.2⟩
  have hover : g.bell.sleeper = .over := hinv.ended (by rw [h.1]; rfl)
  cases action with
  | spawn =>
    obtain ⟨-, -, rfl⟩ := step_spawn hstep
    rw [take_result]
    exact h.1
  | look =>
    obtain ⟨hbefore, -⟩ := step_look hstep
    rw [hover] at hbefore
    cases hbefore
  | finish i outcome thrown =>
    obtain ⟨-, rfl⟩ := step_finish hstep
    rw [result_finish]
    exact h.1
  | resume =>
    obtain ⟨hwoken, -⟩ := step_resume hstep
    rw [hover] at hwoken
    cases hwoken

/-- A step drops a failure only if it ends the coroutine that has just begun to look. -/
theorem Inv.noticed_iff {action : ForEachAction α ε} (h : g.Inv) (hgood : ¬ g.Dropped)
    (hstep : g.step action = some g') : g.Noticed action ↔ ¬ g'.Dropped := by
  cases action with
  | spawn =>
    obtain ⟨-, -, rfl⟩ := step_spawn hstep
    refine iff_of_true trivial ?_
    rw [Dropped, take_result, take_firstError]
    exact hgood
  | look =>
    obtain ⟨hbefore, ⟨hmore, rfl⟩ | ⟨hall, rfl⟩⟩ := step_look hstep
    · exact iff_of_true (.inl hmore) hgood
    · constructor
      · rintro (hmore | hnone) hdropped
        · omega
        · have hsome : g.firstError.isSome = true := hdropped.2
          rw [hnone] at hsome
          cases hsome
      · intro hkept
        right
        by_contra hfailed
        exact hkept ⟨rfl, Option.isSome_iff_ne_none.mpr hfailed⟩
  | finish i outcome thrown =>
    obtain ⟨hitem, rfl⟩ := step_finish hstep
    refine iff_of_true trivial fun hdropped => ?_
    have hok := hdropped.1
    rw [result_finish] at hok
    exact h.not_ok hitem hok
  | resume =>
    obtain ⟨-, ⟨e, -, rfl⟩ | ⟨-, -, rfl⟩ | ⟨hnone, -, rfl⟩⟩ := step_resume hstep
    · exact iff_of_true trivial fun hdropped => (by cases hdropped.1)
    · exact iff_of_true trivial hgood
    · refine iff_of_true trivial fun hdropped => ?_
      have hsome : g.firstError.isSome = true := hdropped.2
      rw [hnone] at hsome
      cases hsome

theorem Unnoticed.step {action : ForEachAction α ε} (h : g.Unnoticed)
    (hstep : g.step action = some g') : g'.Unnoticed := by
  refine ⟨firstError_step hstep h.1, ?_⟩
  rw [h.2.move (rings g action g' hstep)]
  exact h.2

/-- A step leads to a failure that nobody notices only if it begins to wait after one. -/
theorem Inv.unfailed_iff {action : ForEachAction α ε} (h : g.Inv) (hgood : ¬ g.Unnoticed)
    (hstep : g.step action = some g') : g.Unfailed action ↔ ¬ g'.Unnoticed := by
  have hbell : ¬ g.bell.Lost := fun hlost => hgood ⟨h.lost hlost, hlost⟩
  cases action with
  | spawn =>
    obtain ⟨-, -, rfl⟩ := step_spawn hstep
    refine iff_of_true trivial ?_
    rw [Unnoticed, take_bell]
    exact fun hbad => hbell hbad.2
  | look =>
    obtain ⟨hbefore, ⟨hmore, rfl⟩ | ⟨hall, rfl⟩⟩ := step_look hstep
    · constructor
      · rintro (hnone | hall) hbad
        · have hsome : g.firstError.isSome = true := hbad.1
          rw [hnone] at hsome
          cases hsome
        · omega
      · intro hkept
        left
        by_contra hfailed
        have hrung : g.bell.rung = true := by
          by_contra hdown
          exact hfailed (h.silent (by simp [hbefore]) (by simpa using hdown)).1
        exact hkept ⟨Option.isSome_iff_ne_none.mpr hfailed, rfl, hrung⟩
    · exact iff_of_true (.inr hall) fun hbad => (by cases hbad.2.1)
  | finish i outcome thrown =>
    obtain ⟨-, rfl⟩ := step_finish hstep
    refine iff_of_true trivial ?_
    rw [Unnoticed, take_bell]
    rintro ⟨-, hlost⟩
    rcases bell_counted_fail g i (itemError outcome thrown) with ⟨hsame, -⟩ | ⟨hring, -⟩
    · rw [hsame] at hlost
      exact hbell hlost
    · rw [hring] at hlost
      exact Bell.not_lost_ring hbell hlost
  | resume =>
    obtain ⟨-, ⟨e, -, rfl⟩ | ⟨-, -, rfl⟩ | ⟨-, -, rfl⟩⟩ := step_resume hstep
    · exact iff_of_true trivial fun hbad => (by cases hbad.2.1)
    · exact iff_of_true trivial fun hbad => (by cases hbad.2.2)
    · exact iff_of_true trivial fun hbad => (by cases hbad.2.1)

/-! ### The log of `for_each_limited` -/

variable {limit total more : Nat}

theorem ledger_take (hlength : g.items.length = min g.next g.total)
    (h : Ledger limit g.items g.stop g.firstError log (more + 1)) :
    Ledger limit g.take.items g.take.stop g.take.firstError (log ++ g.takes) more := by
  rw [take_stop, take_firstError]
  rcases take_cases (α := α) g with ⟨next, htake, -, hnone⟩ | ⟨hstop, hmore, htake, hone⟩
  · rw [htake, hnone, List.append_nil]
    exact h.drop
  · have hnext : g.next = g.items.length := by omega
    rw [htake, hone, hstop, hnext]
    rw [hstop] at h
    exact h.start

theorem silent_takes (g : ForEach ε) : ends (g.takes : List (FanEvent α ε)) = [] ∧
    errors (g.takes : List (FanEvent α ε)) = [] ∧ handed (g.takes : List (FanEvent α ε)) = [] ∧
      ∀ i v thrown, FanEvent.result i v thrown ∉ (g.takes : List (FanEvent α ε)) := by
  unfold takes
  split_ifs
  · exact ⟨rfl, rfl, rfl, fun _ _ _ => List.not_mem_nil⟩
  · exact ⟨rfl, rfl, rfl, fun _ _ _ => by simp⟩

/-- What has been handed over: the value of each item that has ended with one, once. -/
structure Passed (log : List (FanEvent α ε)) : Prop where
  once : (handed log).Nodup
  ended : ∀ i ∈ handed log, i ∈ ends log
  all : errors log = [] → ∀ i ∈ ends log, i ∈ handed log
  value : ∀ i v thrown, .result i v thrown ∈ log → .finish i (.ok v) ∈ log

theorem Passed.take (h : Passed log) (g : ForEach ε) : Passed (log ++ g.takes) := by
  obtain ⟨hends, herrors, hhanded, hresult⟩ := silent_takes (α := α) g
  refine ⟨?_, ?_, ?_, fun i v thrown hmem => ?_⟩
  · rw [handed_append, hhanded, List.append_nil]
    exact h.once
  · rw [handed_append, ends_append, hhanded, hends, List.append_nil, List.append_nil]
    exact h.ended
  · rw [handed_append, ends_append, errors_append, hhanded, hends, herrors, List.append_nil,
      List.append_nil, List.append_nil]
    exact h.all
  · rcases List.mem_append.mp hmem with hold | hnew
    · exact List.mem_append_left _ (h.value i v thrown hold)
    · exact absurd hnew (hresult i v thrown)

/-- The end of an item hands over its value. -/
theorem Passed.hands (h : Passed log) (hfresh : i ∉ ends log) (outcome : Except ε α)
    (thrown : Option ε) : Passed (log ++ hands i outcome thrown) := by
  cases outcome with
  | ok v =>
    have hhanded : handed (log ++ ForEach.hands i (.ok v) thrown) = handed log ++ [i] := by
      rw [handed_append]
      rfl
    have hends : ends (log ++ ForEach.hands i (.ok v) thrown) = ends log ++ [i] := by
      rw [ends_append]
      rfl
    refine ⟨?_, fun j hj => ?_, fun hnone j hj => ?_, fun j w thrown' hmem => ?_⟩
    · rw [hhanded]
      exact List.nodup_append.mpr ⟨h.once, List.pairwise_singleton _ i, fun a ha b hb => by
        rw [List.mem_singleton.mp hb]
        rintro rfl
        exact hfresh (h.ended a ha)⟩
    · rw [hhanded, List.mem_append] at hj
      rw [hends]
      exact List.mem_append.mpr (hj.imp_left (h.ended j))
    · rw [hends, List.mem_append] at hj
      rw [hhanded]
      rw [errors_append] at hnone
      exact List.mem_append.mpr (hj.imp_left (h.all (List.append_eq_nil_iff.mp hnone).1 j))
    · rcases List.mem_append.mp hmem with hold | hnew
      · exact List.mem_append_left _ (h.value j w thrown' hold)
      · simp only [ForEach.hands, List.mem_cons, reduceCtorEq, FanEvent.result.injEq,
          List.not_mem_nil, or_false, false_or] at hnew
        obtain ⟨rfl, rfl, -⟩ := hnew
        exact List.mem_append_right _ List.mem_cons_self
  | error e =>
    refine ⟨?_, fun j hj => ?_, fun hnone => ?_, fun j w thrown' hmem => ?_⟩
    · rw [handed_append]
      exact (List.append_nil (handed log)).symm ▸ h.once
    · rw [handed_append] at hj
      rw [ends_append]
      exact List.mem_append_left _ (h.ended j ((List.append_nil (handed log)) ▸ hj))
    · rw [errors_append] at hnone
      exact absurd (List.append_eq_nil_iff.mp hnone).2 (List.cons_ne_nil _ _)
    · rcases List.mem_append.mp hmem with hold | hnew
      · exact List.mem_append_left _ (h.value j w thrown' hold)
      · simp [ForEach.hands] at hnew

/-- The accounts after an item has ended, before its worker goes on. -/
theorem ledger_hands (h : Ledger limit g.items g.stop g.firstError log more)
    (hitem : g.items[i]? = some .running) (outcome : Except ε α) (thrown : Option ε) :
    Ledger limit (g.items.set i .counted) (g.stop || (itemError outcome thrown).isSome)
      (g.firstError.or (itemError outcome thrown)) (log ++ hands i outcome thrown) (more + 1) := by
  cases outcome with
  | ok v =>
    have hfinish : Ledger limit (g.items.set i .counted) g.stop g.firstError
        (log ++ [.finish i (.ok v)]) (more + 1) := h.finish hitem (by decide) v
    have hsplit : log ++ hands i (.ok v) thrown =
        log ++ [.finish i (.ok v)] ++ [.result i v thrown] := by
      rw [List.append_assoc]
      rfl
    rw [hsplit]
    cases thrown with
    | none =>
      simp only [itemError, Option.isSome_none, Bool.or_false, Option.or_none]
      exact hfinish.hand i v
    | some e =>
      simp only [itemError, Option.isSome_some, Bool.or_true]
      exact hfinish.throw i v e
  | error e =>
    simp only [itemError, Option.isSome_some, Bool.or_true]
    exact h.fail hitem (by decide) e

/-- The state of `for_each_limited` and its log. -/
structure Told (limit total : Nat) (g : ForEach ε) (log : List (FanEvent α ε)) : Prop
    extends g.Inv where
  ledger : Ledger limit g.items g.stop g.firstError log g.toSpawn
  total_eq : g.total = total
  passed : Passed log
  failed : ∀ e, g.result = some (.error e) → g.firstError = some e

namespace Told

theorem start (total concurrency : Nat) :
    Told (max 1 (min concurrency total)) total (ForEach.start total concurrency : ForEach ε)
      ([] : List (FanEvent α ε)) := by
  refine ⟨inv_start total concurrency, ?_, ?_, ?_, ?_⟩
  · unfold ForEach.start
    split_ifs with htotal
    · exact (Ledger.nil _).more_le (Nat.zero_le _)
    · exact (Ledger.nil _).more_le (by dsimp only; omega)
  · unfold ForEach.start
    split_ifs <;> rfl
  · exact ⟨List.nodup_nil, fun i hi => absurd hi List.not_mem_nil,
      fun _ i hi => absurd hi List.not_mem_nil, fun i v thrown hmem => absurd hmem List.not_mem_nil⟩
  · unfold ForEach.start
    intro e he
    split_ifs at he with htotal
    cases he

theorem step {action : ForEachAction α ε} (h : Told limit total g log)
    (hstep : g.step action = some g') : Told limit total g' (log ++ g.emits action) := by
  have hinv := h.toInv.step hstep
  cases action with
  | spawn =>
    obtain ⟨-, hmore, rfl⟩ := step_spawn hstep
    have hledger : Ledger limit g.items g.stop g.firstError log (g.toSpawn - 1 + 1) := by
      rw [Nat.sub_add_cancel hmore]
      exact h.ledger
    refine ⟨hinv, ?_, ?_, h.passed.take g, ?_⟩
    · rw [take_toSpawn]
      exact ledger_take (g := { g with toSpawn := g.toSpawn - 1 }) h.launched hledger
    · rw [take_total]
      exact h.total_eq
    · rw [take_result, take_firstError]
      exact h.failed
  | look =>
    rw [show g.emits (.look : ForEachAction α ε) = [] from rfl, List.append_nil]
    obtain ⟨-, ⟨-, rfl⟩ | ⟨-, rfl⟩⟩ := step_look hstep
    · exact ⟨hinv, h.ledger, h.total_eq, h.passed, h.failed⟩
    · exact ⟨hinv, h.ledger, h.total_eq, h.passed, fun e he => (by cases he)⟩
  | finish i outcome thrown =>
    obtain ⟨hitem, rfl⟩ := step_finish hstep
    obtain ⟨ftotal, fspawn, fnext, fitems, -, fresult, ffirst, fstop⟩ :=
      fail_keeps g (itemError outcome thrown)
    obtain ⟨ctotal, cspawn, cnext, citems, -, cresult, cfirst, cstop⟩ :=
      counted_keeps (g.fail (itemError outcome thrown)) i
    have hended := h.toInv.counted hitem (itemError outcome thrown)
    have hfresh : i ∉ ends log := by
      intro hended
      obtain ⟨item, hget, hnot⟩ := (h.ledger.tracks.ended i).mp hended
      exact hnot (Option.some.inj (hget.symm.trans hitem))
    have hpassed : Passed (log ++ g.emits (.finish i outcome thrown)) := by
      rw [emits, ← List.append_assoc]
      exact (h.passed.hands hfresh outcome thrown).take _
    refine ⟨hinv, ?_, ?_, hpassed, ?_⟩
    · rw [emits, ← List.append_assoc, take_toSpawn, cspawn, fspawn]
      refine ledger_take hended.launched ?_
      rw [citems, fitems, cstop, fstop, cfirst, ffirst]
      exact ledger_hands h.ledger hitem outcome thrown
    · rw [take_total, ctotal, ftotal]
      exact h.total_eq
    · rw [result_finish, take_firstError, cfirst, ffirst]
      intro e he
      rw [h.failed e he]
      rfl
  | resume =>
    rw [show g.emits (.resume : ForEachAction α ε) = [] from rfl, List.append_nil]
    obtain ⟨-, ⟨e, hfirst, rfl⟩ | ⟨-, -, rfl⟩ | ⟨-, -, rfl⟩⟩ := step_resume hstep
    · refine ⟨hinv, h.ledger, h.total_eq, h.passed, fun e' he' => ?_⟩
      obtain rfl := Except.error.inj (Option.some.inj he')
      exact hfirst
    · exact ⟨hinv, h.ledger, h.total_eq, h.passed, h.failed⟩
    · exact ⟨hinv, h.ledger, h.total_eq, h.passed, fun e he => (by cases he)⟩

end Told

theorem told_of_run {total concurrency : Nat} {actions : List (ForEachAction α ε)}
    (hrun : exec (logged ForEach.step emits) (ForEach.start total concurrency, []) actions =
      some (g, log)) : Told (max 1 (min concurrency total)) total g log := by
  have hstep : ∀ (g : ForEach ε) (log : List (FanEvent α ε)) action g',
      Told (max 1 (min concurrency total)) total g log → g.step action = some g' →
        Told (max 1 (min concurrency total)) total g' (log ++ g.emits action) :=
    fun _ _ _ _ h hstep => h.step hstep
  exact invariant_of_logged hstep (.start total concurrency) hrun

/-- An item has failed just if an exception has been kept. -/
theorem Told.failed_iff (h : Told limit total g log) :
    errors log ≠ [] ↔ g.firstError.isSome = true := by
  rw [h.ledger.first]
  cases errors log <;> simp

/-- It ends as it promises unless it has dropped a failure. -/
theorem exact_iff_not_dropped {concurrency : Nat}
    (h : Told (max 1 (min concurrency total)) total g log) :
    FanOutExact total concurrency (Handed total) log g.result ↔ ¬ g.Dropped := by
  constructor
  · rintro hexact ⟨hok, hsome⟩
    exact hexact.noticed (h.failed_iff.mpr hsome) () hok
  · intro hnot
    have hlaunched := h.launched
    have htotal := h.total_eq
    have hnone : g.result = some (.ok ()) → errors log = [] := by
      intro hok
      by_contra hfailed
      exact hnot ⟨hok, h.failed_iff.mp hfailed⟩
    refine ⟨h.ledger.bounded (by omega), fun r hok => ?_, fun e he => ?_,
      fun hfailed r hok => hfailed (hnone hok)⟩
    · have hcompleted := h.completed
      have hall := h.succeeded hok
      have hle := List.countP_le_length (p := (· = Item.counted)) (l := g.items)
      have hlength : g.items.length = total := by omega
      have hends : ∀ i, i ∈ ends log ↔ i ∈ List.range total := by
        intro i
        rw [h.ledger.tracks.ended, List.mem_range, ← hlength]
        constructor
        · rintro ⟨item, hitem, -⟩
          exact (List.getElem?_eq_some_iff.mp hitem).1
        · intro hi
          refine ⟨g.items[i], List.getElem?_eq_getElem hi, fun hrunning => ?_⟩
          have hrun : g.items[i]? = some .running := by rw [List.getElem?_eq_getElem hi, hrunning]
          exact absurd (h.completed_lt hrun) (Nat.not_lt.mpr hall)
      refine ⟨by rw [h.ledger.tracks.started, hlength], ?_, h.passed.value⟩
      refine (List.perm_ext_iff_of_nodup h.passed.once List.nodup_range).mpr fun i => ?_
      rw [← hends]
      exact ⟨h.passed.ended i, h.passed.all (hnone hok) i⟩
    · rw [← h.ledger.first]
      exact h.failed e he

/-- `for_each_limited` ends as it promises just if, when it first looks, not all items are
counted or none has failed. -/
theorem exact_iff {concurrency : Nat} {actions : List (ForEachAction α ε)}
    (hrun : exec (logged ForEach.step emits) (ForEach.start total concurrency, []) actions =
      some (g, log)) :
    FanOutExact total concurrency (Handed total) log g.result ↔
      Along ForEach.step Noticed (ForEach.start total concurrency) actions := by
  have hkept : ∀ (g : ForEach ε) (action : ForEachAction α ε) g', g.Inv →
      g.step action = some g' → g'.Inv := fun _ _ _ h hstep => h.step hstep
  have habsorb : ∀ (g : ForEach ε) (action : ForEachAction α ε) g', g.Inv ∧ g.Dropped →
      g.step action = some g' → g'.Inv ∧ g'.Dropped :=
    fun _ _ _ h hstep => ⟨h.1.step hstep, h.2.step h.1 hstep⟩
  have hok : ∀ (g : ForEach ε) (action : ForEachAction α ε) g', g.Inv → ¬ (g.Inv ∧ g.Dropped) →
      g.step action = some g' → (g.Noticed action ↔ ¬ (g'.Inv ∧ g'.Dropped)) := by
    intro g action g' h hgood hstep
    rw [h.noticed_iff (fun hdropped => hgood ⟨h, hdropped⟩) hstep]
    exact not_congr ⟨fun hdropped => ⟨h.step hstep, hdropped⟩, And.right⟩
  have hstart : ¬ ((ForEach.start total concurrency : ForEach ε).Inv ∧
      (ForEach.start total concurrency : ForEach ε).Dropped) := by
    unfold ForEach.start
    split_ifs <;> exact fun hbad => by cases hbad.2.2
  have htold := told_of_run hrun
  rw [exact_iff_not_dropped htold, along_iff_of_absorbing hkept habsorb hok
    (inv_start total concurrency) hstart (exec_of_logged hrun)]
  exact not_congr ⟨fun hdropped => ⟨htold.toInv, hdropped⟩, And.right⟩

/-- Its coroutine sleeps through a failure just if, when it first looks, an item has failed and
not all are counted. -/
theorem unslept_iff {concurrency : Nat} {actions : List (ForEachAction α ε)}
    (hrun : exec (logged ForEach.step emits) (ForEach.start total concurrency, []) actions =
      some (g, log)) :
    Unslept log g.bell ↔
      Along ForEach.step Unfailed (ForEach.start total concurrency) actions := by
  have hkept : ∀ (g : ForEach ε) (action : ForEachAction α ε) g', g.Inv →
      g.step action = some g' → g'.Inv := fun _ _ _ h hstep => h.step hstep
  have habsorb : ∀ (g : ForEach ε) (action : ForEachAction α ε) g', g.Unnoticed →
      g.step action = some g' → g'.Unnoticed := fun _ _ _ h hstep => h.step hstep
  have hstart : ¬ (ForEach.start total concurrency : ForEach ε).Unnoticed := by
    unfold ForEach.start
    split_ifs <;> exact fun hbad => by cases hbad.1
  have htold := told_of_run hrun
  rw [along_iff_of_absorbing hkept habsorb (fun _ _ _ h hgood hstep => h.unfailed_iff hgood hstep)
    (inv_start total concurrency) hstart (exec_of_logged hrun), Unslept, htold.failed_iff]
  constructor
  · rintro hunslept ⟨hsome, hlost⟩
    exact hunslept hsome hlost.1
  · intro hnot hsome hwaiting
    refine hnot ⟨hsome, hwaiting, ?_⟩
    by_contra hdown
    have hnone := (htold.silent (by simp [hwaiting]) (by simpa using hdown)).1
    rw [hnone] at hsome
    cases hsome

end ForEach

/-! ### Both -/

/-- In every run `gather_limited` is exact. `for_each_limited` is, unless all items are counted
and one has failed when it first looks. A failure that is there already when the coroutine
begins to wait leaves it asleep. -/
theorem fan_out_exact_iff (total concurrency : Nat) :
    (∀ (actions : List (LimitedAction α ε)) g log,
      exec (logged Limited.step Limited.emits) (Limited.start total concurrency, []) actions =
          some (g, log) →
        FanOutExact total concurrency (Values total) log g.result ∧
        (Unslept log g.bell ↔
          Along Limited.step Limited.Unfailed (Limited.start total concurrency) actions)) ∧
    (∀ (actions : List (ForEachAction α ε)) g log,
      exec (logged ForEach.step ForEach.emits) (ForEach.start total concurrency, []) actions =
          some (g, log) →
        (FanOutExact total concurrency (Handed total) log g.result ↔
          Along ForEach.step ForEach.Noticed (ForEach.start total concurrency) actions) ∧
        (Unslept log g.bell ↔
          Along ForEach.step ForEach.Unfailed (ForEach.start total concurrency) actions)) :=
  ⟨fun _ _ _ hrun => ⟨Limited.exact hrun, Limited.unslept_iff hrun⟩,
    fun _ _ _ hrun => ⟨ForEach.exact_iff hrun, ForEach.unslept_iff hrun⟩⟩

instance (g : ForEach ε) (action : ForEachAction α ε) : Decidable (g.Noticed action) :=
  match action with
  | .look => inferInstanceAs (Decidable (g.completed < g.total ∨ g.firstError = none))
  | .spawn => isTrue trivial
  | .finish _ _ _ => isTrue trivial
  | .resume => isTrue trivial

/-- Two items, one after the other. -/
def gatherInTurn : List (LimitedAction Nat String) :=
  [.launch, .wait, .settle 0 (.ok 10), .count 0, .settle 1 (.ok 11), .count 1, .resume]

def handInTurn : List (ForEachAction Nat String) :=
  [.spawn, .look, .finish 0 (.ok 10) none, .finish 1 (.ok 11) none, .resume]

theorem fan_out_exact_two :
    (∃ g log, exec (logged Limited.step Limited.emits) (Limited.start 2 1, []) gatherInTurn =
        some (g, log) ∧ g.result = some (.ok [10, 11]) ∧
          FanOutExact 2 1 (Values 2) log g.result) ∧
      ∃ g log, exec (logged ForEach.step ForEach.emits) (ForEach.start 2 1, []) handInTurn =
        some (g, log) ∧ handed log = [0, 1] ∧ FanOutExact 2 1 (Handed 2) log g.result :=
  ⟨⟨_, _, rfl, rfl, ((fan_out_exact_iff 2 1).1 gatherInTurn _ _ rfl).1⟩,
    ⟨_, _, rfl, rfl, ((fan_out_exact_iff 2 1).2 handInTurn _ _ rfl).1.mpr (by decide)⟩⟩

/-- The only item of `for_each_limited` fails inside the call that spawns its worker, and the
call ends with success. If the first of two items fails so, both sleep through the failure. -/
theorem fan_out_drops_failure :
    (∃ (g : ForEach String) (log : List (FanEvent Nat String)),
      exec (logged ForEach.step ForEach.emits) (ForEach.start 1 1, [])
          [.spawn, .finish 0 (.error "boom") none, .look] = some (g, log) ∧
        errors log = ["boom"] ∧ g.result = some (.ok ()) ∧
          ¬ FanOutExact 1 1 (Handed 1) log g.result) ∧
      (∃ (g : Limited Nat String) (log : List (FanEvent Nat String)),
        exec (logged Limited.step Limited.emits) (Limited.start 2 1, [])
            [.launch, .settle 0 (.error "boom"), .count 0, .wait] = some (g, log) ∧
          ¬ Unslept log g.bell) ∧
      ∃ (g : ForEach String) (log : List (FanEvent Nat String)),
        exec (logged ForEach.step ForEach.emits) (ForEach.start 2 1, [])
            [.spawn, .finish 0 (.error "boom") none, .look] = some (g, log) ∧
          ¬ Unslept log g.bell := by
  refine ⟨⟨_, _, rfl, rfl, rfl, fun h => ?_⟩, ⟨_, _, rfl, fun h => ?_⟩, ⟨_, _, rfl, fun h => ?_⟩⟩
  · exact h.noticed (List.cons_ne_nil "boom" []) () rfl
  · exact h (List.cons_ne_nil "boom" []) rfl
  · exact h (List.cons_ne_nil "boom" []) rfl

end HttpClient.Asyncx
