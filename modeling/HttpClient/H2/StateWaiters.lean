import Mathlib.Algebra.Group.Nat.Defs
import HttpClient.H2.Session
import HttpClient.Semantics.Machine

/-!
# Waiters that are used again

A request that waits for its response waits on a timer of its own, and is found by the number of
its stream. The timers are kept in a pool: who waits takes one from the pool, if there is one, and
puts it back when the wait is over, unless the pool is full. So a timer may have been that of
another request before, which may even have had a stream of the same number.

Elsewhere a session makes a new waiter for every wait. What is to be seen of the requests, when
they sleep, when they resume and with what, is the same with a pool of any size.

A request that is cancelled when it is to begin its wait never waits. Its waiter stays registered
and does not come back.

## Main definitions

* `StateWaiters`, `StateWaiters.step` — the waiters, their pool and the requests that wait
* `TableWaits`, `TableWaits.step` — the same with new waiters, those of `StreamTable`

## Main results

* `pool_unseen` — nothing of the pool is to be seen
* `waiters_made_le` — with the pool, no more waiters are made than may be in use at once
-/

set_option autoImplicit false

namespace HttpClient.H2

open Semantics

/-! ### The pool -/

/-- A request that waits for its response. The requests are numbered. -/
structure Sleeper where
  ticket : Nat
  stream : Nat
  waiter : Nat
  /-- The wait on the timer is over. -/
  ended : Bool := false
  deriving DecidableEq, Repr

/-- What is to be seen of a request that waits. -/
structure SleeperView where
  ticket : Nat
  stream : Nat
  woken : Bool
  ended : Bool
  deriving DecidableEq, Repr

structure StateWaiters where
  pool : List Nat := []
  /-- How many waiters have been made, from which they are named. -/
  made : Nat := 0
  waiters : Nat → Waiter := fun _ => {}
  /-- `state_waiters_` -/
  registered : Nat → Option Nat := fun _ => none
  sleepers : List Sleeper := []
  calls : Nat := 0
  /-- The requests that have resumed, and whether they had been woken. -/
  returned : List (Nat × Bool) := []

inductive WaitAction where
  /-- A request is to wait for its stream; it throws at once if it has been cancelled. -/
  | wait (stream : Nat) (cancelled : Bool)
  /-- The stream is done. -/
  | wake (stream : Nat)
  /-- A request that waits is cancelled. -/
  | cancel (ticket : Nat)
  | resume (ticket : Nat)
  deriving DecidableEq, Repr

def stateWaiterPoolLimit (options : SessionOptions) : Nat :=
  max 64 (options.maxConcurrentStreams * 2 % 2 ^ 64)

namespace StateWaiters

/-- Whoever waits on the timer resumes. -/
def cancelTimer (w : Nat) (s : StateWaiters) : StateWaiters :=
  { s with
    sleepers := s.sleepers.map fun c => if c.waiter = w then { c with ended := true } else c }

def acquireStateWaiter (s : StateWaiters) : Nat × StateWaiters :=
  match s.pool.getLast? with
  | some w =>
    -- that the timer is set to never expire cancels it as well
    (w, cancelTimer w { s with
      pool := s.pool.dropLast, waiters := Function.update s.waiters w {} })
  | none =>
    (s.made, { s with made := s.made + 1, waiters := Function.update s.waiters s.made {} })

def releaseStateWaiter (limit w : Nat) (s : StateWaiters) : StateWaiters :=
  let s := cancelTimer w { s with waiters := Function.update s.waiters w {} }
  if s.pool.length < limit then { s with pool := s.pool ++ [w] } else s

/-- Wake the request that waits for a stream, if there is one. -/
def wake (stream : Nat) (s : StateWaiters) : StateWaiters :=
  match s.registered stream with
  | none => s
  | some w =>
    if (s.waiters w).cancelled then s
    else cancelTimer w { s with waiters := wakeWaiter s.waiters w }

def step (limit : Nat) (s : StateWaiters) : WaitAction → Option StateWaiters
  | .wait stream cancelled =>
    let (w, s) := s.acquireStateWaiter
    some { s with
      registered := Function.update s.registered stream (some w)
      calls := s.calls + 1
      -- who throws leaves the waiter registered
      sleepers :=
        if cancelled then s.sleepers
        else s.sleepers ++ [{ ticket := s.calls, stream, waiter := w }] }
  | .wake stream => some (s.wake stream)
  | .cancel ticket =>
    some { s with
      sleepers := s.sleepers.map fun c =>
        if c.ticket = ticket then { c with ended := true } else c }
  | .resume ticket =>
    match s.sleepers.find? fun c => decide (c.ticket = ticket) with
    | some c =>
      if c.ended then
        some (releaseStateWaiter limit c.waiter { s with
          registered := Function.update s.registered c.stream none
          sleepers := s.sleepers.eraseP fun c => decide (c.ticket = ticket)
          returned := s.returned ++ [(ticket, (s.waiters c.waiter).woken)] })
      else none
    | none => none

/-- What is to be seen of the requests, and the streams that have a waiter. -/
def seen (s : StateWaiters) : List SleeperView × List (Nat × Bool) × (Nat → Bool) :=
  (s.sleepers.map fun c => ⟨c.ticket, c.stream, (s.waiters c.waiter).woken, c.ended⟩, s.returned,
    fun stream => (s.registered stream).isSome)

end StateWaiters

/-! ### New waiters -/

/-- The waiters of the table are named like the requests that they are made for. -/
structure TableWaits where
  table : StreamTable := {}
  sleepers : List Sleeper := []
  returned : List (Nat × Bool) := []

namespace TableWaits

def step (t : TableWaits) : WaitAction → Option TableWaits
  | .wait stream cancelled =>
    let ticket := t.table.nextWaiter
    some { t with
      table := t.table.register stream
      sleepers :=
        if cancelled then t.sleepers
        else t.sleepers ++ [{ ticket, stream, waiter := ticket }] }
  | .wake stream =>
    some { t with
      table := t.table.wake stream
      sleepers := t.sleepers.map fun c =>
        if t.table.stateWaiters.lookup stream = some c.waiter then { c with ended := true }
        else c }
  | .cancel ticket =>
    some { t with
      sleepers := t.sleepers.map fun c =>
        if c.ticket = ticket then { c with ended := true } else c }
  | .resume ticket =>
    match t.sleepers.find? fun c => decide (c.ticket = ticket) with
    | some c =>
      if c.ended then
        some { t with
          table := t.table.unregister c.stream
          sleepers := t.sleepers.eraseP fun c => decide (c.ticket = ticket)
          returned := t.returned ++ [(ticket, t.table.woken c.waiter)] }
      else none
    | none => none

def seen (t : TableWaits) : List SleeperView × List (Nat × Bool) × (Nat → Bool) :=
  (t.sleepers.map fun c => ⟨c.ticket, c.stream, t.table.woken c.waiter, c.ended⟩, t.returned,
    fun stream => (t.table.stateWaiters.lookup stream).isSome)

end TableWaits

/-! ### The waiters in use -/

namespace StateWaiters

/-- The waiter is made and not in the pool. -/
def Held (s : StateWaiters) (w : Nat) : Prop := w < s.made ∧ w ∉ s.pool

/-- No waiter is in two places: each in the pool is there once, each request that waits has one
of its own, and a stream has that of a request only as the stream of that request. -/
structure Sound (s : StateWaiters) : Prop where
  pool : s.pool.Nodup ∧ ∀ w ∈ s.pool, w < s.made
  held : ∀ c ∈ s.sleepers, s.Held c.waiter
  alone : (s.sleepers.map Sleeper.waiter).Nodup
  registered : ∀ stream w, s.registered stream = some w →
    s.Held w ∧ ∀ c ∈ s.sleepers, c.waiter = w → c.stream = stream
  uncancelled : ∀ w, (s.waiters w).cancelled = false

variable {limit : Nat} {s : StateWaiters}

theorem sound_start : Sound {} where
  pool := ⟨List.nodup_nil, by simp⟩
  held := by simp
  alone := List.nodup_nil
  registered := by simp
  uncancelled _ := rfl

theorem cancelTimer_eq_self {w : Nat} (h : ∀ c ∈ s.sleepers, c.waiter ≠ w) :
    cancelTimer w s = s := by
  have hmap : s.sleepers.map (fun c => if c.waiter = w then { c with ended := true } else c) =
      s.sleepers := by
    refine (List.map_congr_left fun c hc => ?_).trans (List.map_id _)
    rw [if_neg (h c hc), id]
  rw [cancelTimer, hmap]

/-- The waiter that a request gets, with what is left of the pool and how many are made then. -/
structure Acquired (s : StateWaiters) (w : Nat) (pool : List Nat) (made : Nat) : Prop where
  eq : s.acquireStateWaiter =
    (w, { s with pool, made, waiters := Function.update s.waiters w {} })
  free : ¬ s.Held w
  held : w < made ∧ w ∉ pool
  sublist : pool.Sublist s.pool
  le : s.made ≤ made
  count : made + s.pool.length = s.made + (pool.length + 1)
  reused : made = s.made ∨ pool = []

/-- A request gets a waiter that is not in use. -/
theorem Sound.exists_acquired (h : s.Sound) : ∃ w pool made, s.Acquired w pool made := by
  cases hlast : s.pool.getLast? with
  | none =>
    have hpool : s.pool = [] := List.getLast?_eq_none_iff.mp hlast
    refine ⟨s.made, s.pool, s.made + 1, ?_, fun hheld => absurd hheld.1 (Nat.lt_irrefl _),
      ⟨Nat.lt_succ_self _, by simp [hpool]⟩, .refl _, Nat.le_succ _, by omega, .inr hpool⟩
    rw [StateWaiters.acquireStateWaiter, hlast]
  | some w =>
    obtain ⟨pool, hpool⟩ := List.getLast?_eq_some_iff.mp hlast
    have hmem : w ∈ s.pool := by simp [hpool]
    obtain ⟨hnodup, hlt⟩ := h.pool
    rw [hpool, List.nodup_append] at hnodup
    have hnot : w ∉ pool := fun hw => hnodup.2.2 w hw w (List.mem_singleton_self w) rfl
    refine ⟨w, pool, s.made, ?_, fun hheld => hheld.2 hmem, ⟨hlt w hmem, hnot⟩, ?_, le_rfl, ?_,
      .inl rfl⟩
    · -- who waits has a waiter that is not in the pool
      have hidle : ∀ c ∈ s.sleepers, c.waiter ≠ w := by
        rintro c hc rfl
        exact (h.held c hc).2 hmem
      have hleft : s.pool.dropLast = pool := by rw [hpool, List.dropLast_concat]
      rw [StateWaiters.acquireStateWaiter, hlast, ← hleft]
      exact congrArg (Prod.mk w) (cancelTimer_eq_self hidle)
    · rw [hpool]
      exact List.sublist_append_left pool [w]
    · rw [hpool, List.length_append, List.length_singleton]

/-- Those that still wait when a request resumes have other waiters. -/
theorem Sound.others (h : s.Sound) {ticket : Nat} {c : Sleeper}
    (hfind : s.sleepers.find? (fun c => decide (c.ticket = ticket)) = some c) :
    ∀ d ∈ s.sleepers.eraseP (fun c => decide (c.ticket = ticket)),
      d ∈ s.sleepers ∧ d.waiter ≠ c.waiter := by
  -- the request stands between those before and those behind it
  obtain ⟨hticket, before, after, hsleepers, hbefore⟩ := List.find?_eq_some_iff_append.mp hfind
  have herase : s.sleepers.eraseP (fun c => decide (c.ticket = ticket)) = before ++ after := by
    rw [hsleepers, List.eraseP_append_right _ fun d hd => by simpa using hbefore d hd]
    exact congrArg _ (List.eraseP_cons_of_pos hticket)
  have halone := h.alone
  rw [hsleepers, List.map_append, List.map_cons, List.nodup_middle, List.nodup_cons,
    ← List.map_append] at halone
  intro d hd
  refine ⟨List.mem_of_mem_eraseP hd, fun heq => ?_⟩
  rw [herase] at hd
  exact halone.1 (heq ▸ List.mem_map_of_mem hd)

theorem map_mark (p : Sleeper → Prop) [DecidablePred p] (l : List Sleeper) :
    (l.map fun c => if p c then { c with ended := true } else c) =
      l.map fun c => { c with ended := decide (p c) || c.ended } :=
  List.map_congr_left fun c _ => by by_cases hc : p c <;> simp [hc]

/-- Marks that requests are done with their waits change nothing about the waiters in use. -/
theorem Sound.mark (h : s.Sound) (mark : Sleeper → Bool) {waiters : Nat → Waiter}
    (hwaiters : ∀ w, (waiters w).cancelled = false) :
    Sound { s with waiters, sleepers := s.sleepers.map fun c => { c with ended := mark c } } where
  pool := h.pool
  held := List.forall_mem_map.mpr h.held
  alone := by
    rw [List.map_map]
    exact h.alone
  registered stream w hw := (h.registered stream w hw).imp_right List.forall_mem_map.mpr
  uncancelled := hwaiters

theorem Sound.wake_eq (h : s.Sound) {stream w : Nat} (hw : s.registered stream = some w) :
    s.wake stream = { s with
      waiters := Function.update s.waiters w { s.waiters w with woken := true }
      sleepers := s.sleepers.map fun c =>
        { c with ended := decide (c.waiter = w) || c.ended } } := by
  have hcancelled : ¬ (s.waiters w).cancelled = true := by simp [h.uncancelled]
  rw [StateWaiters.wake, hw]
  dsimp only
  rw [if_neg hcancelled, cancelTimer, wakeWaiter, if_neg hcancelled, map_mark]

theorem Sound.wake (h : s.Sound) (stream : Nat) : (s.wake stream).Sound := by
  cases hw : s.registered stream with
  | none => rwa [StateWaiters.wake, hw]
  | some w =>
    rw [h.wake_eq hw]
    refine h.mark _ fun v => ?_
    by_cases hv : v = w
    · simp [hv, h.uncancelled]
    · simp [hv, h.uncancelled]

/-- Who waits when one more request has come to wait, or has been cancelled then. -/
theorem mem_waiting {cancelled : Bool} {l : List Sleeper} {c d : Sleeper}
    (hc : c ∈ if cancelled then l else l ++ [d]) : c ∈ l ∨ c = d := by
  split at hc
  · exact .inl hc
  · simpa using hc

theorem Acquired.kept {w : Nat} {pool : List Nat} {made v : Nat} (h : s.Acquired w pool made)
    (hv : s.Held v) : v < made ∧ v ∉ pool ∧ v ≠ w :=
  ⟨hv.1.trans_le h.le, fun hmem => hv.2 (h.sublist.subset hmem), fun heq => h.free (heq ▸ hv)⟩

/-- A request has got the waiter `w` for its stream. -/
def waiting (s : StateWaiters) (w : Nat) (pool : List Nat) (made stream : Nat) (cancelled : Bool) :
    StateWaiters :=
  { s with
    pool, made
    waiters := Function.update s.waiters w {}
    registered := Function.update s.registered stream (some w)
    calls := s.calls + 1
    sleepers :=
      if cancelled then s.sleepers
      else s.sleepers ++ [{ ticket := s.calls, stream, waiter := w }] }

theorem Sound.waiting (h : s.Sound) {w : Nat} {pool : List Nat} {made : Nat}
    (hacquired : s.Acquired w pool made) (stream : Nat) (cancelled : Bool) :
    (s.waiting w pool made stream cancelled).Sound := by
  have hidle : ∀ c ∈ s.sleepers, c.waiter ≠ w := fun c hc =>
    (hacquired.kept (h.held c hc)).2.2
  constructor
  case pool =>
    exact ⟨hacquired.sublist.nodup h.pool.1, fun v hv =>
      (h.pool.2 v (hacquired.sublist.subset hv)).trans_le hacquired.le⟩
  case held =>
    intro c hc
    rcases mem_waiting hc with hc | rfl
    · have hkept := hacquired.kept (h.held c hc)
      exact ⟨hkept.1, hkept.2.1⟩
    · exact hacquired.held
  case alone =>
    cases cancelled with
    | true => exact h.alone
    | false =>
      simpa [StateWaiters.waiting, List.nodup_append] using ⟨h.alone, fun c hc => hidle c hc⟩
  case registered =>
    intro other v hv
    by_cases hother : other = stream
    · subst hother
      obtain rfl : w = v := by simpa [StateWaiters.waiting] using hv
      refine ⟨hacquired.held, fun c hc heq => ?_⟩
      rcases mem_waiting hc with hc | rfl
      · -- whoever waited before has another waiter
        exact absurd heq (hidle c hc)
      · rfl
    · have hv : s.registered other = some v := by
        simpa [StateWaiters.waiting, Function.update_of_ne hother] using hv
      obtain ⟨hheld, hsame⟩ := h.registered other v hv
      have hkept := hacquired.kept hheld
      refine ⟨⟨hkept.1, hkept.2.1⟩, fun c hc heq => ?_⟩
      rcases mem_waiting hc with hc | rfl
      · exact hsame c hc heq
      · exact absurd heq.symm hkept.2.2
  case uncancelled =>
    intro v
    by_cases hv : v = w
    · simp [StateWaiters.waiting, hv]
    · simpa [StateWaiters.waiting, hv] using h.uncancelled v

/-- Nobody else waits on the waiter that comes back. -/
theorem releaseStateWaiter_eq {w : Nat} (h : ∀ c ∈ s.sleepers, c.waiter ≠ w) :
    releaseStateWaiter limit w s = { s with
      waiters := Function.update s.waiters w {}
      pool := if s.pool.length < limit then s.pool ++ [w] else s.pool } := by
  have hstay := cancelTimer_eq_self (s := { s with waiters := Function.update s.waiters w {} }) h
  rw [releaseStateWaiter, hstay]
  dsimp only
  split <;> rfl

/-- The request `c` has resumed, and its waiter is released. -/
def resumed (s : StateWaiters) (limit ticket : Nat) (c : Sleeper) : StateWaiters :=
  { s with
    pool := if s.pool.length < limit then s.pool ++ [c.waiter] else s.pool
    waiters := Function.update s.waiters c.waiter {}
    registered := Function.update s.registered c.stream none
    sleepers := s.sleepers.eraseP fun c => decide (c.ticket = ticket)
    returned := s.returned ++ [(ticket, (s.waiters c.waiter).woken)] }

theorem Sound.resumed (h : s.Sound) {ticket : Nat} {c : Sleeper}
    (hfind : s.sleepers.find? (fun c => decide (c.ticket = ticket)) = some c) (limit : Nat) :
    (s.resumed limit ticket c).Sound := by
  have hc := List.mem_of_find?_eq_some hfind
  have hothers := h.others hfind
  obtain ⟨hmade, hnot⟩ := h.held c hc
  have hkept : ∀ v, s.Held v → v ≠ c.waiter → v < s.made ∧
      v ∉ if s.pool.length < limit then s.pool ++ [c.waiter] else s.pool := by
    intro v hv hne
    refine ⟨hv.1, ?_⟩
    split
    · simpa using ⟨hv.2, hne⟩
    · exact hv.2
  constructor
  case pool =>
    dsimp only [StateWaiters.resumed]
    split
    · refine ⟨?_, fun v hv => ?_⟩
      · rw [List.nodup_append]
        refine ⟨h.pool.1, List.nodup_singleton _, fun v hv u hu heq => hnot ?_⟩
        rwa [← List.mem_singleton.mp hu, ← heq]
      · rcases List.mem_append.mp hv with hv | hv
        · exact h.pool.2 v hv
        · rwa [List.mem_singleton.mp hv]
    · exact h.pool
  case held =>
    intro d hd
    exact hkept d.waiter (h.held d (hothers d hd).1) (hothers d hd).2
  case alone => exact ((List.eraseP_sublist ..).map _).nodup h.alone
  case registered =>
    intro other v hv
    have hother : other ≠ c.stream := by
      rintro rfl
      simp [StateWaiters.resumed] at hv
    have hv : s.registered other = some v := by
      simpa [StateWaiters.resumed, Function.update_of_ne hother] using hv
    obtain ⟨hheld, hsame⟩ := h.registered other v hv
    -- if it were the released one, the stream would be that of the request that resumes
    refine ⟨hkept v hheld fun heq => hother (hsame c hc heq.symm).symm, fun d hd => ?_⟩
    exact hsame d (hothers d hd).1
  case uncancelled =>
    intro v
    by_cases hv : v = c.waiter
    · simp [StateWaiters.resumed, hv]
    · simpa [StateWaiters.resumed, hv] using h.uncancelled v

/-! ### What a step does -/

theorem step_wait {w : Nat} {pool : List Nat} {made : Nat} (h : s.Acquired w pool made)
    (limit stream : Nat) (cancelled : Bool) :
    step limit s (.wait stream cancelled) = some (s.waiting w pool made stream cancelled) := by
  rw [step, h.eq]
  rfl

theorem Sound.step_resume (h : s.Sound) {ticket : Nat} {c : Sleeper}
    (hfind : s.sleepers.find? (fun c => decide (c.ticket = ticket)) = some c)
    (hended : c.ended = true) (limit : Nat) :
    step limit s (.resume ticket) = some (s.resumed limit ticket c) := by
  rw [step, hfind]
  dsimp only
  rw [if_pos hended, releaseStateWaiter_eq fun d hd => (h.others hfind d hd).2]
  rfl

theorem Sound.step (h : s.Sound) {a : WaitAction} {s' : StateWaiters}
    (hstep : StateWaiters.step limit s a = some s') : s'.Sound := by
  cases a with
  | wait stream cancelled =>
    obtain ⟨w, pool, made, hacquired⟩ := h.exists_acquired
    obtain rfl := Option.some.inj ((step_wait hacquired limit stream cancelled).symm.trans hstep)
    exact h.waiting hacquired stream cancelled
  | wake stream =>
    obtain rfl := Option.some.inj hstep
    exact h.wake stream
  | cancel ticket =>
    obtain rfl := Option.some.inj hstep
    rw [map_mark]
    exact h.mark _ h.uncancelled
  | resume ticket =>
    -- it resumes only when its wait is over
    cases hfind : s.sleepers.find? fun c => decide (c.ticket = ticket) with
    | none => simp [StateWaiters.step, hfind] at hstep
    | some c =>
      by_cases hended : c.ended = true
      · obtain rfl := Option.some.inj ((h.step_resume hfind hended limit).symm.trans hstep)
        exact h.resumed hfind limit
      · simp [StateWaiters.step, hfind, hended] at hstep

end StateWaiters

/-! ### The same with new waiters -/

/-- The same request, with the waiter that is made for it. -/
def Sleeper.renewed (c : Sleeper) : Sleeper := { c with waiter := c.ticket }

/-- A waiter with its number and the waiter of a request stand for each other: whoever waits on
the one waits on the other. -/
def StateWaiters.Alias (s : StateWaiters) (w k : Nat) : Prop :=
  k < s.calls ∧ ∀ c ∈ s.sleepers, c.waiter = w ↔ c.ticket = k

/-- The states differ only in the names of the waiters. -/
structure Alike (s : StateWaiters) (t : TableWaits) : Prop where
  calls : t.table.nextWaiter = s.calls
  returned : t.returned = s.returned
  sleepers : t.sleepers = s.sleepers.map Sleeper.renewed
  tickets : ∀ c ∈ s.sleepers, c.ticket < s.calls
  woken : ∀ c ∈ s.sleepers, t.table.woken c.ticket = (s.waiters c.waiter).woken
  registered : ∀ stream,
    Option.Rel s.Alias (s.registered stream) (t.table.stateWaiters.lookup stream)

namespace Alike

open StateWaiters

variable {limit : Nat} {s : StateWaiters} {t : TableWaits}

theorem start : Alike {} {} where
  calls := rfl
  returned := rfl
  sleepers := rfl
  tickets := by simp
  woken := by simp
  registered _ := .none

theorem seen_eq (h : Alike s t) : s.seen = t.seen := by
  have hregistered : ∀ stream,
      (s.registered stream).isSome = (t.table.stateWaiters.lookup stream).isSome := by
    intro stream
    have hrel := h.registered stream
    generalize s.registered stream = o at hrel ⊢
    generalize t.table.stateWaiters.lookup stream = o' at hrel ⊢
    cases hrel <;> rfl
  rw [StateWaiters.seen, TableWaits.seen, h.returned, h.sleepers, List.map_map,
    funext hregistered]
  refine congrArg (Prod.mk · _) (List.map_congr_left fun c hc => ?_)
  simp only [Function.comp, Sleeper.renewed, h.woken c hc]

/-- The streams that an action leaves alone keep waiters that stand for each other. -/
theorem registered_of_imp (h : Alike s t) {s' : StateWaiters} (stream : Nat)
    (hkept : ∀ w k, s.registered stream = some w → s.Alias w k → s'.Alias w k) :
    Option.Rel s'.Alias (s.registered stream) (t.table.stateWaiters.lookup stream) := by
  have hrel := h.registered stream
  generalize s.registered stream = o at hrel hkept ⊢
  generalize t.table.stateWaiters.lookup stream = o' at hrel ⊢
  cases hrel with
  | some halias => exact .some (hkept _ _ rfl halias)
  | none => exact .none

theorem mark (h : Alike s t) {mark mark' : Sleeper → Bool} {waiters : Nat → Waiter}
    {woken : Nat → Bool} (hmark : ∀ c ∈ s.sleepers, mark' c.renewed = mark c)
    (hwoken : ∀ c ∈ s.sleepers, woken c.ticket = (waiters c.waiter).woken) :
    Alike { s with waiters, sleepers := s.sleepers.map fun c => { c with ended := mark c } }
      { t with
        table.woken := woken
        sleepers := t.sleepers.map fun c => { c with ended := mark' c } } where
  calls := h.calls
  returned := h.returned
  sleepers := by
    dsimp only
    rw [h.sleepers, List.map_map, List.map_map]
    refine List.map_congr_left fun c hc => ?_
    have hsame := hmark c hc
    rw [Sleeper.renewed] at hsame
    simp only [Function.comp, Sleeper.renewed, hsame]
  tickets := List.forall_mem_map.mpr h.tickets
  woken := List.forall_mem_map.mpr hwoken
  registered stream := h.registered_of_imp stream fun w k _ halias =>
    halias.imp_right List.forall_mem_map.mpr

theorem wait (hs : s.Sound) (h : Alike s t) {w : Nat} {pool : List Nat} {made : Nat}
    (hacquired : s.Acquired w pool made) (stream : Nat) (cancelled : Bool) :
    Alike (s.waiting w pool made stream cancelled)
      { t with
        table := t.table.register stream
        sleepers :=
          if cancelled then t.sleepers
          else t.sleepers ++ [{ ticket := t.table.nextWaiter, stream,
                                waiter := t.table.nextWaiter }] } := by
  have hidle : ∀ c ∈ s.sleepers, c.waiter ≠ w := fun c hc =>
    (hacquired.kept (hs.held c hc)).2.2
  constructor
  case calls => exact congrArg (· + 1) h.calls
  case returned => exact h.returned
  case sleepers =>
    cases cancelled with
    | true => exact h.sleepers
    | false => simp [StateWaiters.waiting, h.sleepers, h.calls, Sleeper.renewed]
  case tickets =>
    intro c hc
    rcases mem_waiting hc with hc | rfl
    · exact (h.tickets c hc).trans (Nat.lt_succ_self _)
    · exact Nat.lt_succ_self _
  case woken =>
    intro c hc
    simp only [StateWaiters.waiting, StreamTable.register, h.calls]
    rcases mem_waiting hc with hc | rfl
    · rw [Function.update_of_ne (h.tickets c hc).ne, Function.update_of_ne (hidle c hc),
        h.woken c hc]
    · rw [Function.update_self, Function.update_self]
  case registered =>
    intro other
    by_cases hother : other = stream
    · subst hother
      simp only [StateWaiters.waiting, StreamTable.register, Function.update_self,
        AList.lookup_insert, h.calls]
      refine .some ⟨Nat.lt_succ_self _, fun c hc => ?_⟩
      rcases mem_waiting hc with hc | rfl
      · exact iff_of_false (hidle c hc) (h.tickets c hc).ne
      · exact iff_of_true rfl rfl
    · simp only [StateWaiters.waiting, StreamTable.register, Function.update_of_ne hother,
        AList.lookup_insert_ne hother]
      refine h.registered_of_imp other fun v k hv halias => ?_
      refine ⟨halias.1.trans (Nat.lt_succ_self _), fun c hc => ?_⟩
      rcases mem_waiting hc with hc | rfl
      · exact halias.2 c hc
      · -- the waiter of the other stream is in use, so it is not this one
        have hne := (hacquired.kept (hs.registered other v hv).1).2.2
        exact iff_of_false hne.symm halias.1.ne'

theorem wake (hs : s.Sound) (h : Alike s t) (stream : Nat) :
    Option.Rel Alike (StateWaiters.step limit s (.wake stream)) (t.step (.wake stream)) := by
  rw [StateWaiters.step, TableWaits.step, map_mark, StreamTable.wake]
  -- the stream has a waiter on both sides or on neither
  have hrel := h.registered stream
  cases hw : s.registered stream with
  | none =>
    rw [hw] at hrel
    cases hk : t.table.stateWaiters.lookup stream with
    | some k => simp [hk] at hrel
    | none =>
      rw [StateWaiters.wake, hw]
      simpa using h
  | some w =>
    rw [hw] at hrel
    cases hk : t.table.stateWaiters.lookup stream with
    | none => simp [hk] at hrel
    | some k =>
      rw [hk, Option.rel_some_some] at hrel
      rw [hs.wake_eq hw, Option.rel_some_some]
      refine h.mark (fun c hc => ?_) fun c hc => ?_
      · simp only [Sleeper.renewed, hrel.2 c hc, Option.some.injEq, eq_comm]
      · by_cases hc' : c.waiter = w
        · rw [(hrel.2 c hc).mp hc', hc', Function.update_self, Function.update_self]
        · rw [Function.update_of_ne hc', Function.update_of_ne (mt (hrel.2 c hc).mpr hc'),
            h.woken c hc]

theorem resume (hs : s.Sound) (h : Alike s t) (ticket : Nat) :
    Option.Rel Alike (StateWaiters.step limit s (.resume ticket)) (t.step (.resume ticket)) := by
  -- the requests have the same numbers on both sides, so the same one is found
  have herase : t.sleepers.eraseP (fun c => decide (c.ticket = ticket)) =
      (s.sleepers.eraseP fun c => decide (c.ticket = ticket)).map Sleeper.renewed := by
    rw [h.sleepers, List.eraseP_map]
    rfl
  have hfind' : t.sleepers.find? (fun c => decide (c.ticket = ticket)) =
      (s.sleepers.find? fun c => decide (c.ticket = ticket)).map Sleeper.renewed := by
    rw [h.sleepers, List.find?_map]
    rfl
  rw [TableWaits.step, hfind', herase]
  cases hfind : s.sleepers.find? fun c => decide (c.ticket = ticket) with
  | none =>
    rw [StateWaiters.step, hfind]
    exact .none
  | some c =>
    by_cases hended : c.ended = true
    · have hothers := hs.others hfind
      rw [hs.step_resume hfind hended, Option.map_some]
      dsimp only
      have hended' : c.renewed.ended = true := hended
      rw [if_pos hended', Option.rel_some_some]
      constructor
      case calls => exact h.calls
      case returned =>
        simp only [StateWaiters.resumed, h.returned, Sleeper.renewed,
          h.woken c (List.mem_of_find?_eq_some hfind)]
      case sleepers => rfl
      case tickets => exact fun d hd => h.tickets d (hothers d hd).1
      case woken =>
        intro d hd
        dsimp only [StateWaiters.resumed]
        rw [Function.update_of_ne (hothers d hd).2]
        exact h.woken d (hothers d hd).1
      case registered =>
        intro other
        by_cases hother : other = c.stream
        · subst hother
          simp only [StateWaiters.resumed, StreamTable.unregister, Sleeper.renewed,
            Function.update_self, AList.lookup_erase]
          exact .none
        · simp only [StateWaiters.resumed, StreamTable.unregister, Sleeper.renewed,
            Function.update_of_ne hother, AList.lookup_erase_ne hother]
          refine h.registered_of_imp other fun w k _ halias => ?_
          exact ⟨halias.1, fun d hd => halias.2 d (hothers d hd).1⟩
    · rw [StateWaiters.step, hfind]
      simp [Sleeper.renewed, hended]

theorem step (hs : s.Sound) (h : Alike s t) (a : WaitAction) :
    Option.Rel Alike (StateWaiters.step limit s a) (t.step a) := by
  cases a with
  | wait stream cancelled =>
    obtain ⟨w, pool, made, hacquired⟩ := hs.exists_acquired
    rw [step_wait hacquired, TableWaits.step, Option.rel_some_some]
    exact h.wait hs hacquired stream cancelled
  | wake stream => exact h.wake hs stream
  | cancel ticket =>
    rw [StateWaiters.step, TableWaits.step, map_mark, map_mark, Option.rel_some_some]
    exact h.mark (fun c _ => rfl) h.woken
  | resume ticket => exact h.resume hs ticket

end Alike

/-- Nothing of the pool is to be seen: who sleeps, who is woken and who resumes, and with what,
is the same with new waiters. -/
theorem pool_unseen (limit : Nat) (actions : List WaitAction) :
    (exec (StateWaiters.step limit) {} actions).map StateWaiters.seen =
      (exec TableWaits.step {} actions).map TableWaits.seen := by
  have hrel : Option.Rel (fun s t => s.Sound ∧ Alike s t)
      (exec (StateWaiters.step limit) {} actions) (exec TableWaits.step {} actions) := by
    refine exec_rel (fun s t a ⟨hs, h⟩ => ?_) ⟨StateWaiters.sound_start, Alike.start⟩ actions
    -- the steps are alike as long as no waiter is in two places, which they keep
    have hnext : Option.Rel Alike (StateWaiters.step limit s a) (t.step a) := h.step hs a
    have hsound : ∀ s', StateWaiters.step limit s a = some s' → s'.Sound := fun _ => hs.step
    generalize StateWaiters.step limit s a = o at hnext hsound ⊢
    generalize t.step a = o' at hnext ⊢
    cases hnext with
    | some h => exact .some ⟨hsound _ rfl, h⟩
    | none => exact .none
  generalize exec (StateWaiters.step limit) {} actions = o at hrel ⊢
  generalize exec TableWaits.step {} actions = o' at hrel ⊢
  cases hrel with
  | some h => exact congrArg some h.2.seen_eq
  | none => rfl

/-! ### How many waiters are made -/

namespace StateWaiters

variable {limit n : Nat} {s : StateWaiters}

/-- A request that comes to wait makes no more than `n` wait at once. -/
def HasRoom (n : Nat) (s : StateWaiters) : WaitAction → Prop
  | .wait _ _ => s.sleepers.length < n
  | .wake _ | .cancel _ | .resume _ => True

instance decidableHasRoom (n : Nat) (s : StateWaiters) (a : WaitAction) :
    Decidable (HasRoom n s a) := by
  cases a <;> unfold HasRoom <;> infer_instance

/-- All waiters that are made have been handed out and not come back, or are in the pool, which
has room for those that are handed out. -/
structure Counted (n : Nat) (s : StateWaiters) : Prop where
  sound : s.Sound
  made : s.made + s.returned.length = s.pool.length + s.calls
  room : s.pool.length + s.sleepers.length ≤ n

theorem Counted.step (hn : n ≤ limit) (h : s.Counted n) {a : WaitAction}
    (hroom : HasRoom n s a) {s' : StateWaiters} (hstep : StateWaiters.step limit s a = some s') :
    s'.Counted n := by
  have hsound := h.sound.step hstep
  have hmade := h.made
  have hpool := h.room
  cases a with
  | wait stream cancelled =>
    obtain ⟨w, pool, made, hacquired⟩ := h.sound.exists_acquired
    obtain rfl := Option.some.inj ((step_wait hacquired limit stream cancelled).symm.trans hstep)
    have hcount := hacquired.count
    have hsleepers : s.sleepers.length < n := hroom
    have hlength : (s.waiting w pool made stream cancelled).sleepers.length ≤
        s.sleepers.length + 1 := by
      cases cancelled <;> simp [StateWaiters.waiting]
    constructor
    case sound => exact hsound
    case made =>
      dsimp only [StateWaiters.waiting]
      omega
    case room =>
      -- a waiter is made only when the pool is empty
      rcases hacquired.reused with hreused | hnew
      · have hleft : (s.waiting w pool made stream cancelled).pool.length = pool.length := rfl
        omega
      · have hleft : (s.waiting w pool made stream cancelled).pool.length = 0 := by
          rw [StateWaiters.waiting, hnew, List.length_nil]
        omega
  | wake stream =>
    obtain rfl := Option.some.inj hstep
    cases hw : s.registered stream with
    | none => rwa [StateWaiters.wake, hw]
    | some w =>
      rw [h.sound.wake_eq hw] at hsound ⊢
      exact ⟨hsound, hmade, by simpa using hpool⟩
  | cancel ticket =>
    obtain rfl := Option.some.inj hstep
    exact ⟨hsound, hmade, by simpa using hpool⟩
  | resume ticket =>
    cases hfind : s.sleepers.find? fun c => decide (c.ticket = ticket) with
    | none => simp [StateWaiters.step, hfind] at hstep
    | some c =>
      by_cases hended : c.ended = true
      · have hmem := List.mem_of_find?_eq_some hfind
        have hlength := List.length_eraseP_of_mem hmem (List.find?_some hfind)
        have hpos := List.length_pos_of_mem hmem
        obtain rfl :=
          Option.some.inj ((h.sound.step_resume hfind hended limit).symm.trans hstep)
        -- the waiter was handed out, so the pool is not full
        have hplace : s.pool.length < limit := by omega
        constructor
        case sound => exact hsound
        case made =>
          simp only [StateWaiters.resumed, if_pos hplace, List.length_append,
            List.length_singleton]
          omega
        case room =>
          simp only [StateWaiters.resumed, if_pos hplace, List.length_append,
            List.length_singleton]
          omega
      · simp [StateWaiters.step, hfind, hended] at hstep

theorem made_le_of_hasRoom (hn : n ≤ limit) {actions : List WaitAction}
    (hroom : Along (StateWaiters.step limit) (HasRoom n) {} actions)
    (hexec : exec (StateWaiters.step limit) {} actions = some s) :
    s.made + s.sleepers.length + s.returned.length ≤ n + s.calls := by
  have hstart : Counted n {} := ⟨sound_start, rfl, Nat.zero_le _⟩
  have hcounted := invariant_of_along
    (fun s a s' h hok hstep => Counted.step hn h hok hstep) hstart hroom hexec
  have hmade := hcounted.made
  have hpool := hcounted.room
  omega

end StateWaiters

/-- If no more requests wait at once than may have streams, the waiters made are at most as many,
and one more for each request that neither waits nor has resumed: it was cancelled when it was to
begin its wait. -/
theorem waiters_made_le (options : SessionOptions) (hsize : options.maxConcurrentStreams < 2 ^ 63)
    {actions : List WaitAction} {s : StateWaiters}
    (hroom : Along (StateWaiters.step (stateWaiterPoolLimit options))
      (StateWaiters.HasRoom (max 1 options.maxConcurrentStreams)) {} actions)
    (hexec : exec (StateWaiters.step (stateWaiterPoolLimit options)) {} actions = some s) :
    s.made + s.sleepers.length + s.returned.length ≤
      max 1 options.maxConcurrentStreams + s.calls := by
  have hlimit : max 1 options.maxConcurrentStreams ≤ stateWaiterPoolLimit options := by
    rw [stateWaiterPoolLimit, Nat.mod_eq_of_lt (by omega)]
    omega
  exact StateWaiters.made_le_of_hasRoom hlimit hroom hexec

/-- Two requests, one after the other, and one that is cancelled: it takes the waiter away. -/
theorem waiters_made_le_cancelled :
    ∃ s, exec (StateWaiters.step (stateWaiterPoolLimit {})) {}
        [.wait 1 false, .wake 1, .resume 0, .wait 3 true, .wait 5 false, .cancel 2] = some s ∧
      s.made + s.sleepers.length + s.returned.length ≤ 128 + s.calls := by
  have hexec : ∃ s, exec (StateWaiters.step (stateWaiterPoolLimit {})) {}
      [.wait 1 false, .wake 1, .resume 0, .wait 3 true, .wait 5 false, .cancel 2] = some s :=
    Option.isSome_iff_exists.mp rfl
  obtain ⟨s, hs⟩ := hexec
  exact ⟨s, hs, waiters_made_le {} (by decide) (by decide) hs⟩

end HttpClient.H2
