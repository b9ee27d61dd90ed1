import HttpClient.H1.PoolAccounts

/-!
# Idle reservations

A connection that becomes idle is reserved for the first waiter in line. The waiter is
woken but resumes later, and requests and probes may come in between. They take an idle
connection without a reservation only if none is reserved, so there is an idle
connection for every reservation that is still to be taken up.

A waiter whose request has timed out stays in line, and may be given a reservation that
nobody takes up. Such reservations stay counted: `reservedIdle` is a bound on the
reservations that are taken up, not their number.

The probes of the TLS side wait in the same line and take the same idle connections.

## Main definitions

* `Reservations` — the pending reservations, `reservedIdle` and the idle connections
* `ProbedPool`, `ProbedPool.step` — one side of a pool together with its probes
* `TakesIdle` — a coroutine takes an idle connection and nothing else

## Main results

* `Reservations.wake`, `Reservations.addWaiter` — what happens to the line
* `Reservations.acquirePass`, `Reservations.probePass` — asking for a connection
* `reservations_honoured` — every run of a side with its probes
-/

set_option autoImplicit false

namespace HttpClient.H1

open Semantics

variable {options : PoolOptions} {pool pool' : Pool} {caller : Caller} {worker : Worker}
  {suspended others : List Caller} {held i : Nat}

/-- The requests and probes in `suspended` have at most `reservedIdle` reservations
between them, `held` more being in the hand of the coroutine that runs, and there is an
idle connection for each. The waiters in line have not been woken. -/
structure Reservations (pool : Pool) (suspended : List Caller) (held : Nat) : Prop where
  pending : suspended.countP (Caller.isReserved pool.waiters) + held ≤ pool.reservedIdle
  covered : pool.reservedIdle ≤ pool.idle.length
  nodup : pool.queue.Nodup
  queued : ∀ w ∈ pool.queue, w < pool.nextWaiter ∧ (pool.waiters w).woken = false ∧
    (pool.waiters w).reservedIdle = false
  unique : ∀ w, suspended.countP (Caller.waitsOn w) ≤ 1
  fresh : ∀ w, pool.nextWaiter ≤ w → suspended.countP (Caller.waitsOn w) = 0

theorem reservations_empty : Reservations {} [] 0 :=
  ⟨Nat.le_refl 0, Nat.le_refl 0, List.nodup_nil, fun _ h => absurd h List.not_mem_nil,
    fun _ => Nat.zero_le 1, fun _ _ => rfl⟩

theorem Reservations.perm {suspended' : List Caller} (h : Reservations pool suspended held)
    (hperm : suspended'.Perm suspended) : Reservations pool suspended' held := by
  refine ⟨?_, h.covered, h.nodup, h.queued, fun w => ?_, fun w hw => ?_⟩
  · rw [hperm.countP_eq]
    exact h.pending
  · rw [hperm.countP_eq]
    exact h.unique w
  · rw [hperm.countP_eq]
    exact h.fresh w hw

/-- The reservations are a matter of the waiters, the line and the idle connections. -/
theorem Reservations.of_eq (h : Reservations pool suspended held)
    (hwaiters : pool'.waiters = pool.waiters) (hnext : pool'.nextWaiter = pool.nextWaiter)
    (hqueue : pool'.queue = pool.queue) (hidle : pool'.idle = pool.idle)
    (hreserved : pool'.reservedIdle = pool.reservedIdle) :
    Reservations pool' suspended held := by
  refine ⟨?_, ?_, ?_, ?_, h.unique, ?_⟩
  · rw [hwaiters, hreserved]
    exact h.pending
  · rw [hreserved, hidle]
    exact h.covered
  · exact hqueue ▸ h.nodup
  · rw [hqueue, hnext, hwaiters]
    exact h.queued
  · rw [hnext]
    exact h.fresh

theorem Reservations.updateCancelState (h : Reservations pool suspended held)
    (cancelState : Option Nat) (f : CancelState → CancelState) :
    Reservations (pool.updateCancelState cancelState f) suspended held := by
  cases cancelState with
  | none => exact h
  | some id => exact h.of_eq rfl rfl rfl rfl rfl

/-! ### Waking a waiter -/

/-- Waking the first waiter adds at most one pending reservation, and counts it. -/
theorem Reservations.wake (reserve : Bool) {reservedIdle : Nat}
    (h : Reservations pool suspended held)
    (hroom : reserve = true → pool.reservedIdle < pool.idle.length)
    (hreserved : reservedIdle = pool.reservedIdle +
      if (Pool.wakeFirst reserve pool.waiters pool.queue).1 && reserve then 1 else 0)
    (hpool : pool' =
      { pool with
        waiters := (Pool.wakeFirst reserve pool.waiters pool.queue).2.1
        queue := (Pool.wakeFirst reserve pool.waiters pool.queue).2.2
        reservedIdle }) :
    Reservations pool' suspended held := by
  subst hpool
  rcases wakeFirst_cases reserve pool.waiters pool.queue with
    hnone | ⟨dropped, w, rest, hqueue, hsome⟩
  · rw [hnone] at hreserved ⊢
    simp only [Bool.false_and, Bool.false_eq_true, if_false, Nat.add_zero] at hreserved
    subst hreserved
    exact ⟨h.pending, h.covered, List.nodup_nil, fun _ hmem => absurd hmem List.not_mem_nil,
      h.unique, h.fresh⟩
  · have hmem : w ∈ pool.queue := by simp [hqueue]
    obtain ⟨-, hunwoken, hunreserved⟩ := h.queued w hmem
    have hnodup : (w :: rest).Nodup := (List.nodup_append.mp (hqueue ▸ h.nodup)).2.1
    rw [hsome] at hreserved ⊢
    simp only [hunreserved, Bool.false_or, Bool.true_and] at hreserved ⊢
    -- The waiter belongs to at most one suspended coroutine.
    have hcount := countP_waiterSatisfies_update
      (fun waiter => waiter.woken && waiter.reservedIdle) suspended
      ⟨true, (pool.waiters w).cancelled, reserve⟩
      (show ((pool.waiters w).woken && (pool.waiters w).reservedIdle) = false by simp [hunwoken])
    have hone := h.unique w
    have hpending := h.pending
    have hcovered := h.covered
    refine ⟨?_, ?_, hnodup.of_cons, fun v hv => ?_, h.unique, h.fresh⟩
    · simp only [Caller.isReserved, Bool.true_and] at hcount hpending ⊢
      rw [hcount]
      cases reserve with
      | true =>
        simp only [if_true] at hreserved ⊢
        omega
      | false =>
        simp only [Bool.false_eq_true, if_false] at hreserved ⊢
        omega
    · cases reserve with
      | true =>
        have hless := hroom rfl
        simp only [if_true] at hreserved
        dsimp only
        omega
      | false =>
        simp only [Bool.false_eq_true, if_false] at hreserved
        dsimp only
        omega
    · have hne : v ≠ w := fun heq => (List.nodup_cons.mp hnodup).1 (heq ▸ hv)
      simp only [Function.update_of_ne hne]
      exact h.queued v (by simp [hqueue, hv])

theorem Reservations.wakeOne (h : Reservations pool suspended held) :
    Reservations pool.wakeOne suspended held :=
  h.wake false (by simp) (by simp) rfl

/-- A connection that becomes idle is there for the waiter that is woken. -/
theorem Reservations.returnIdle (h : Reservations pool suspended held)
    (connection : Connection) : Reservations (pool.returnIdle connection) suspended held := by
  have hlength : (pool.idle ++ [connection]).length = pool.idle.length + 1 := List.length_append
  have hcovered := h.covered
  have hidle : Reservations { pool with idle := pool.idle ++ [connection] } suspended held :=
    ⟨h.pending, (hcovered.trans (Nat.le_succ _)).trans hlength.ge, h.nodup, h.queued, h.unique,
      h.fresh⟩
  refine hidle.wake true (fun _ => ?_) ?_ rfl
  · dsimp only
    omega
  · simp only [Bool.and_true]
    split_ifs <;> rfl

theorem Reservations.lose (h : Reservations pool suspended held) :
    Reservations pool.lose suspended held := by
  have hactive : Reservations { pool with active := pool.active - 1 } suspended held :=
    h.of_eq rfl rfl rfl rfl rfl
  exact hactive.wakeOne

/-- A connect that has failed gives its place up. -/
theorem Reservations.connectFailed (h : Reservations pool suspended held) :
    Reservations { pool with connecting := pool.connecting - 1 }.lose suspended held :=
  Reservations.lose (h.of_eq rfl rfl rfl rfl rfl)

theorem Reservations.opened {request : Request} (h : Reservations pool suspended held) :
    Reservations (pool.opened options request).2 suspended held :=
  h.of_eq rfl rfl rfl rfl rfl

/-! ### Taking a coroutine out and suspending it -/

/-- A coroutine that is taken out brings its reservation with it. -/
theorem Reservations.take (h : Reservations pool (caller :: suspended) 0) :
    Reservations pool suspended (if caller.isReserved pool.waiters then 1 else 0) := by
  have hpending := h.pending
  rw [List.countP_cons] at hpending
  refine ⟨by omega, h.covered, h.nodup, h.queued, fun w => ?_, fun w hw => ?_⟩
  · have hunique := h.unique w
    rw [List.countP_cons] at hunique
    omega
  · have hfresh := h.fresh w hw
    rw [List.countP_cons] at hfresh
    omega

/-- A reservation may be forgotten. -/
theorem Reservations.forget (h : Reservations pool suspended held) :
    Reservations pool suspended 0 :=
  ⟨(Nat.le_add_right _ _).trans h.pending, h.covered, h.nodup, h.queued, h.unique, h.fresh⟩

/-- A coroutine that connects or exchanges waits on no waiter. -/
theorem Reservations.put (h : Reservations pool suspended 0)
    (hphase : ∀ w, caller.phase ≠ .waiting w) : Reservations pool (caller :: suspended) 0 := by
  have hreserved : caller.isReserved pool.waiters = false := by
    unfold Caller.isReserved Caller.waiterSatisfies
    cases hcaller : caller.phase with
    | waiting w => exact absurd hcaller (hphase w)
    | connecting => rfl
    | exchanging connection => rfl
  have hwaits : ∀ w, caller.waitsOn w = false := fun w => by
    simpa [Caller.waitsOn] using hphase w
  refine ⟨?_, h.covered, h.nodup, h.queued, fun w => ?_, fun w hw => ?_⟩
  · simpa [hreserved] using h.pending
  · simpa [hwaits w] using h.unique w
  · simpa [hwaits w] using h.fresh w hw

/-- Only the phase of a coroutine matters. -/
theorem Reservations.replace (caller' : Caller) (h : Reservations pool (caller :: suspended) held)
    (hphase : caller'.phase = caller.phase) :
    Reservations pool (caller' :: suspended) held := by
  have hreserved : caller'.isReserved pool.waiters = caller.isReserved pool.waiters := by
    unfold Caller.isReserved Caller.waiterSatisfies
    rw [hphase]
  have hwaits : ∀ w, caller'.waitsOn w = caller.waitsOn w := fun w => by
    unfold Caller.waitsOn
    rw [hphase]
  refine ⟨?_, h.covered, h.nodup, h.queued, fun w => ?_, fun w hw => ?_⟩
  · rw [List.countP_cons, hreserved, ← List.countP_cons]
    exact h.pending
  · rw [List.countP_cons, hwaits w, ← List.countP_cons]
    exact h.unique w
  · rw [List.countP_cons, hwaits w, ← List.countP_cons]
    exact h.fresh w hw

/-- Queue a new waiter. -/
def Pool.addWaiter (pool : Pool) : Pool :=
  { pool with
    waiters := Function.update pool.waiters pool.nextWaiter {}
    nextWaiter := pool.nextWaiter + 1
    queue := pool.queue ++ [pool.nextWaiter] }

theorem Reservations.addWaiter (h : Reservations pool suspended 0) :
    Reservations pool.addWaiter suspended 0 := by
  have hnobody := h.fresh pool.nextWaiter le_rfl
  have hnew : ∀ v ∈ pool.queue, v ≠ pool.nextWaiter := fun v hv => (h.queued v hv).1.ne
  refine ⟨?_, h.covered, ?_, fun v hv => ?_, h.unique, fun w hw => h.fresh w (Nat.le_of_lt hw)⟩
  · have hpending := h.pending
    simp only [Pool.addWaiter, Caller.isReserved] at hpending ⊢
    rwa [countP_waiterSatisfies_of_nobody hnobody]
  · refine List.nodup_append.mpr ⟨h.nodup, by simp, fun v hv w hw => ?_⟩
    rw [List.mem_singleton.mp hw]
    exact hnew v hv
  · rcases List.mem_append.mp hv with hv | hv
    · have hline := h.queued v hv
      have hne := hnew v hv
      simp only [Pool.addWaiter, Function.update_of_ne hne]
      exact ⟨Nat.lt_succ_of_lt hline.1, hline.2⟩
    · obtain rfl := List.mem_singleton.mp hv
      simp [Pool.addWaiter]

/-- A coroutine waits on the waiter that it has just queued. -/
theorem Reservations.putWaiting (h : Reservations pool suspended 0)
    (hphase : caller.phase = .waiting pool.nextWaiter) :
    Reservations pool.addWaiter (caller :: suspended) 0 := by
  have hadd := h.addWaiter
  have hnobody := h.fresh pool.nextWaiter le_rfl
  have hreserved : caller.isReserved pool.addWaiter.waiters = false := by
    simp [Caller.waiterSatisfies, hphase, Pool.addWaiter]
  refine ⟨?_, hadd.covered, hadd.nodup, hadd.queued, fun w => ?_, fun w hw => ?_⟩
  · simpa [hreserved] using hadd.pending
  · rcases eq_or_ne pool.nextWaiter w with rfl | hne
    · rw [List.countP_cons, hnobody]
      split_ifs <;> omega
    · simpa [Caller.waitsOn, hphase, hne] using h.unique w
  · have hlater : pool.nextWaiter < w := hw
    simpa [Caller.waitsOn, hphase, hlater.ne] using h.fresh w hlater.le

/-! ### Asking for a connection -/

/-- Taking an idle connection, with a reservation or while none is reserved. -/
theorem Reservations.takeIdle {reserved : Bool} {connection : Connection}
    (h : Reservations pool suspended (if reserved then 1 else 0))
    (hidle : pool.idle = pool.idle.dropLast ++ [connection])
    (hmay : reserved = true ∨ pool.reservedIdle = 0) :
    Reservations
      { pool with
        idle := pool.idle.dropLast
        reservedIdle := if reserved then pool.reservedIdle - 1 else pool.reservedIdle }
      suspended 0 := by
  have hlength := congrArg List.length hidle
  rw [List.length_append, List.length_singleton] at hlength
  have hpending := h.pending
  have hcovered := h.covered
  refine ⟨?_, ?_, h.nodup, h.queued, h.unique, h.fresh⟩
  · cases reserved with
    | true =>
      simp only [if_true] at hpending ⊢
      omega
    | false => simpa using hpending
  · cases reserved with
    | true =>
      simp only [if_true]
      omega
    | false =>
      have hzero : pool.reservedIdle = 0 := hmay.resolve_left Bool.false_ne_true
      simp [hzero]

/-- Whoever has a reservation finds an idle connection. -/
theorem Reservations.idle_eq (h : Reservations pool suspended 1) :
    ∃ connection, pool.idle = pool.idle.dropLast ++ [connection] ∧
      pool.idle.getLast? = some connection := by
  have hpending := h.pending
  have hcovered := h.covered
  have hne : pool.idle ≠ [] := by
    intro hnil
    rw [hnil, List.length_nil] at hcovered
    omega
  exact ⟨pool.idle.getLast hne, (List.dropLast_append_getLast hne).symm,
    List.getLast?_eq_some_getLast hne⟩

/-- Opening a connection does not touch the reservations. -/
theorem Reservations.connect (h : Reservations pool suspended 0) :
    Reservations { pool with active := pool.active + 1, connecting := pool.connecting + 1 }
      suspended 0 :=
  h.of_eq rfl rfl rfl rfl rfl

/-- A request puts itself at the end of the list of the callers. -/
theorem perm_append_cons (callers others : List Caller) (caller : Caller) :
    (callers ++ [caller] ++ others).Perm (caller :: (callers ++ others)) := by
  rw [List.append_assoc]
  exact List.perm_middle

theorem Reservations.suspend {phase : Phase}
    (h : Reservations pool (pool.callers ++ others) 0) (hphase : ∀ w, phase ≠ .waiting w) :
    Reservations (pool.suspend caller phase) ((pool.suspend caller phase).callers ++ others) 0 := by
  have hput : Reservations pool ({ caller with phase } :: (pool.callers ++ others)) 0 :=
    h.put hphase
  have hsame : Reservations (pool.suspend caller phase)
      ({ caller with phase } :: (pool.callers ++ others)) 0 :=
    hput.of_eq rfl rfl rfl rfl rfl
  exact hsame.perm (perm_append_cons pool.callers others _)

theorem Reservations.startExchange {connection : Connection}
    (h : Reservations pool (pool.callers ++ others) 0) :
    Reservations (pool.startExchange caller connection)
      ((pool.startExchange caller connection).callers ++ others) 0 := by
  unfold Pool.startExchange
  apply Reservations.suspend
  · cases caller.cancelState with
    | none => exact h
    | some id => exact h.of_eq rfl rfl rfl rfl rfl
  · exact fun w => Phase.noConfusion

theorem enqueue_eq (pool : Pool) (caller : Caller) :
    pool.enqueue caller =
      if caller.cancelled then
        (pool.updateCancelState caller.cancelState fun state =>
          { state with waiter := some pool.nextWaiter }).addWaiter
      else
        ((pool.updateCancelState caller.cancelState fun state =>
          { state with waiter := some pool.nextWaiter }).addWaiter).suspend caller
            (.waiting pool.nextWaiter) := by
  cases hstate : caller.cancelState <;> simp only [Pool.enqueue, hstate] <;> rfl

theorem Reservations.enqueue (h : Reservations pool (pool.callers ++ others) 0) :
    Reservations (pool.enqueue caller) ((pool.enqueue caller).callers ++ others) 0 := by
  have hbase := h.updateCancelState caller.cancelState fun state =>
    { state with waiter := some pool.nextWaiter }
  rw [enqueue_eq]
  set base := pool.updateCancelState caller.cancelState fun state =>
    { state with waiter := some pool.nextWaiter } with hdef
  have hcallers : base.callers = pool.callers := by
    rw [hdef]
    cases caller.cancelState <;> rfl
  have hnext : base.nextWaiter = pool.nextWaiter := by
    rw [hdef]
    cases caller.cancelState <;> rfl
  rw [← hcallers] at hbase
  split_ifs with hcancelled
  · exact hbase.addWaiter
  · have hput : Reservations base.addWaiter
        ({ caller with phase := .waiting pool.nextWaiter } :: (base.callers ++ others)) 0 :=
      hbase.putWaiting (congrArg Phase.waiting hnext.symm)
    have hsame : Reservations (base.addWaiter.suspend caller (.waiting pool.nextWaiter))
        ({ caller with phase := .waiting pool.nextWaiter } :: (base.callers ++ others)) 0 :=
      hput.of_eq rfl rfl rfl rfl rfl
    exact hsame.perm (perm_append_cons base.callers others _)

/-- A pass that takes an idle connection has a reservation, or none is reserved. -/
theorem reserved_of_mayTake {woke reserved : Bool} (hmay : pool.mayTake woke reserved = true) :
    reserved = true ∨ pool.reservedIdle = 0 := by
  simp only [Pool.mayTake, Bool.or_eq_true, Bool.and_eq_true, beq_iff_eq] at hmay
  exact hmay.imp_right And.left

/-- One pass of a request through the acquire loop. -/
theorem Reservations.acquirePass {woke reserved : Bool}
    (h : Reservations pool (pool.callers ++ others) (if reserved then 1 else 0)) :
    Reservations (pool.acquirePass options caller woke reserved)
      ((pool.acquirePass options caller woke reserved).callers ++ others) 0 := by
  unfold Pool.acquirePass
  rcases attempt_cases options pool woke reserved with
    ⟨connection, hidle, hmay, heq⟩ | ⟨hnone, heq⟩
  · rw [heq]
    exact (h.takeIdle hidle (reserved_of_mayTake hmay)).startExchange
  · -- Nothing was taken, so there was no reservation.
    have hfalse : reserved = false := by
      cases reserved with
      | false => rfl
      | true =>
        obtain ⟨connection, hidle, -⟩ := h.idle_eq
        rcases hnone with hnil | hmay
        · rw [hnil] at hidle
          exact absurd hidle (by simp)
        · simp [Pool.mayTake] at hmay
    subst hfalse
    rw [dropReservation_of_not_reserved] at heq
    rw [heq]
    split_ifs with hmay
    · exact h.connect.suspend fun w => Phase.noConfusion
    · exact h.enqueue

/-- A pass with a reservation takes the last idle connection. -/
theorem acquirePass_reserved {woke : Bool} (h : Reservations pool suspended 1) :
    ∃ connection, pool.idle = pool.idle.dropLast ++ [connection] ∧
      pool.acquirePass options caller woke true =
        { pool with
          idle := pool.idle.dropLast
          reservedIdle := pool.reservedIdle - 1 }.startExchange caller connection := by
  obtain ⟨connection, hidle, hlast⟩ := h.idle_eq
  refine ⟨connection, hidle, ?_⟩
  have hmay : pool.mayTake woke true = true := rfl
  simp only [Pool.acquirePass, Pool.attempt, hlast, hmay, if_true]

/-- A pass that shortens the idle list has a reservation, or none is reserved. -/
theorem reserved_of_acquirePass {woke reserved : Bool}
    (hless : (pool.acquirePass options caller woke reserved).idle.length < pool.idle.length) :
    reserved = true ∨ pool.reservedIdle = 0 := by
  rcases attempt_cases options pool woke reserved with
    ⟨connection, hidle, hmay, heq⟩ | ⟨hnone, heq⟩
  · exact reserved_of_mayTake hmay
  · have hdrop : (pool.dropReservation reserved).idle = pool.idle := by
      unfold Pool.dropReservation
      split_ifs <;> rfl
    have hkept : (pool.acquirePass options caller woke reserved).idle = pool.idle := by
      simp only [Pool.acquirePass, heq]
      split_ifs with hmay
      · exact hdrop
      · dsimp only
        rw [enqueue_eq]
        cases caller.cancelState <;> split_ifs <;> exact hdrop
    exact absurd hless (by simp [hkept])

/-! ### One step of a side -/

theorem Reservations.workerPass (h : Reservations pool suspended held) :
    Reservations (pool.workerPass options worker) suspended held := by
  unfold Pool.workerPass
  split_ifs with hstop
  · exact h
  dsimp only
  split_ifs with hdone
  · exact h.of_eq rfl rfl rfl rfl rfl
  · exact h.of_eq rfl rfl rfl rfl rfl

/-- A request is taken out, with its reservation in hand. -/
theorem Reservations.takeCaller (h : Reservations pool (pool.callers ++ others) 0)
    (htake : pool.takeCaller i = some (caller, pool')) :
    Reservations pool' (pool'.callers ++ others) (if caller.isReserved pool'.waiters then 1 else 0)
    := by
  obtain ⟨hperm, heq⟩ := takeCaller_perm htake
  have hwaiters : pool'.waiters = pool.waiters := by rw [heq]
  have htaken := (h.perm (hperm.append_right others)).take
  rw [hwaiters]
  rw [heq]
  exact htaken.of_eq rfl rfl rfl rfl rfl

theorem Reservations.takeWorker (h : Reservations pool (pool.callers ++ others) 0)
    (htake : pool.takeWorker i = some (worker, pool')) :
    Reservations pool' (pool'.callers ++ others) 0 := by
  obtain ⟨-, heq⟩ := takeWorker_perm htake
  rw [heq]
  exact h.of_eq rfl rfl rfl rfl rfl

/-- The reservation of a woken waiter. -/
theorem isReserved_of_woken {waiters : Nat → Waiter} {w : Nat} (hphase : caller.phase = .waiting w)
    (hwoken : (waiters w).woken = true) :
    caller.isReserved waiters = (waiters w).reservedIdle := by
  simp [Caller.waiterSatisfies, hphase, hwoken]

/-- Only these two flags of the waiters matter. -/
theorem Reservations.setWaiters {waiters : Nat → Waiter} (h : Reservations pool suspended held)
    (hflags : ∀ w, (waiters w).woken = (pool.waiters w).woken ∧
      (waiters w).reservedIdle = (pool.waiters w).reservedIdle) :
    Reservations { pool with waiters } suspended held := by
  have hsame : suspended.countP (Caller.isReserved waiters) =
      suspended.countP (Caller.isReserved pool.waiters) :=
    countP_waiterSatisfies_congr fun w => by rw [(hflags w).1, (hflags w).2]
  refine ⟨?_, h.covered, h.nodup, fun w hw => ?_, h.unique, h.fresh⟩
  · rw [hsame]
    exact h.pending
  · rw [(hflags w).1, (hflags w).2]
    exact h.queued w hw

theorem exists_waiter_of_isReserved {waiters : Nat → Waiter}
    (h : caller.isReserved waiters = true) :
    ∃ w, caller.phase = .waiting w ∧ (waiters w).woken = true ∧
      (waiters w).reservedIdle = true := by
  unfold Caller.isReserved Caller.waiterSatisfies at h
  cases hphase : caller.phase with
  | waiting w =>
    rw [hphase] at h
    exact ⟨w, rfl, Bool.and_eq_true_iff.mp h⟩
  | connecting => simp [hphase] at h
  | exchanging connection => simp [hphase] at h

/-- A woken request can resume. -/
theorem step_resume_of_woken {base : Pool} {w : Nat}
    (htake : pool.takeCaller i = some (caller, base)) (hphase : caller.phase = .waiting w)
    (hwoken : (base.waiters w).woken = true) :
    step options pool (.resume i) =
      some ((base.updateCancelState caller.cancelState fun state =>
        { state with waiter := none }).acquirePass options caller true
          (base.waiters w).reservedIdle) := by
  have hwaiters : (base.updateCancelState caller.cancelState fun state =>
      { state with waiter := none }).waiters = base.waiters := by
    cases caller.cancelState <;> rfl
  simp only [step, htake, Option.bind_eq_bind, Option.bind_some, hphase, hwoken, if_true, hwaiters]

/-- A waiter that has not been woken gives up and leaves the line. -/
theorem Reservations.abandon (h : Reservations pool suspended held) (w : Nat) :
    Reservations
      { pool with
        waiters := Function.update pool.waiters w { pool.waiters w with cancelled := true }
        queue := pool.queue.filter (· ≠ w) } suspended held := by
  have hflags : ∀ v, ((Function.update pool.waiters w
      { pool.waiters w with cancelled := true }) v).woken = (pool.waiters v).woken ∧
        ((Function.update pool.waiters w
          { pool.waiters w with cancelled := true }) v).reservedIdle =
            (pool.waiters v).reservedIdle := by
    intro v
    rcases eq_or_ne v w with rfl | hne
    · simp
    · simp [hne]
  have hset := h.setWaiters hflags
  exact ⟨hset.pending, hset.covered, hset.nodup.filter _,
    fun v hv => hset.queued v (List.mem_of_mem_filter hv), hset.unique, hset.fresh⟩

/-- Every step of the requests and workers keeps the reservations. -/
theorem Reservations.step {a : Action} (h : Reservations pool (pool.callers ++ others) 0)
    (hstep : step options pool a = some pool') :
    Reservations pool' (pool'.callers ++ others) 0 := by
  cases a with
  | acquire request cancelled handler =>
    obtain rfl := Option.some.inj hstep
    have hbase : Reservations { pool with nextCancelState := pool.nextCancelState + 1 }
        (pool.callers ++ others) (if false then 1 else 0) :=
      h.of_eq rfl rfl rfl rfl rfl
    exact hbase.acquirePass
  | resume i =>
    obtain ⟨caller, base, w, htake, hphase, hwoken, rfl⟩ := step_resume hstep
    have hbase := (h.takeCaller htake).updateCancelState caller.cancelState fun state =>
      { state with waiter := none }
    rw [isReserved_of_woken hphase hwoken] at hbase
    have hcallers : (base.updateCancelState caller.cancelState fun state =>
        { state with waiter := none }).callers = base.callers := callers_updateCancelState
    rw [← hcallers] at hbase
    exact hbase.acquirePass
  | expire i =>
    obtain ⟨caller, base, w, htake, hphase, rfl⟩ := step_expire hstep
    have hbase := (h.takeCaller htake).forget.updateCancelState caller.cancelState fun state =>
      { state with waiter := none }
    rw [callers_updateCancelState]
    exact hbase
  | cancelSignal i =>
    obtain ⟨caller, base, htake, rfl⟩ := step_cancelSignal hstep
    obtain ⟨hperm, heq⟩ := takeCaller_perm htake
    have hput := (h.perm (hperm.append_right others)).replace
      { caller with cancelled := true } rfl
    have hmoved := hput.perm (perm_append_cons base.callers others _)
    rw [heq]
    exact hmoved.of_eq rfl rfl rfl rfl rfl
  | abortWait i =>
    obtain ⟨caller, base, w, htake, hphase, -, rfl⟩ := step_abortWait hstep
    have hbase := ((h.takeCaller htake).forget.abandon w).updateCancelState
      caller.cancelState fun state => { state with waiter := none }
    rw [callers_updateCancelState]
    exact hbase
  | cancelOnShard id =>
    obtain ⟨closed, waiters, f, rfl, hflags⟩ := step_cancelOnShard hstep
    have hset := h.setWaiters hflags
    exact hset.of_eq rfl rfl rfl rfl rfl
  | connectSucceeded i =>
    obtain ⟨caller, base, htake, hphase, rfl⟩ := step_connectSucceeded hstep
    have hbase := (h.takeCaller htake).forget
    exact Reservations.startExchange hbase.opened.wakeOne
  | connectFailed i =>
    obtain ⟨caller, base, htake, hphase, rfl⟩ := step_connectFailed hstep
    exact (h.takeCaller htake).forget.connectFailed
  | exchanged i result =>
    obtain ⟨caller, base, connection, f, htake, hphase, hpool'⟩ := step_exchanged hstep
    have hbase := (h.takeCaller htake).forget.updateCancelState caller.cancelState f
    have hcallers : (base.updateCancelState caller.cancelState f).callers = base.callers :=
      callers_updateCancelState
    rw [← hcallers] at hbase
    rcases hpool' with rfl | rfl
    · exact hbase.returnIdle connection
    · exact hbase.lose
  | preconnect request targetCount =>
    obtain ⟨nextCall, launched, worker, n, hworker, rfl⟩ := step_preconnect hstep
    exact h.of_eq rfl rfl rfl rfl rfl
  | workerStarts i =>
    obtain ⟨worker, base, htake, hworker, rfl⟩ := step_workerStarts hstep
    rw [callers_workerPass]
    exact (h.takeWorker htake).workerPass
  | workerConnected i =>
    obtain ⟨worker, base, htake, hworker, rfl⟩ := step_workerConnected hstep
    rw [callers_workerPass]
    exact ((h.takeWorker htake).opened.returnIdle _).workerPass
  | workerFailed i =>
    obtain ⟨worker, base, htake, hworker, rfl⟩ := step_workerFailed hstep
    exact (h.takeWorker htake).connectFailed

/-- A step that shortens the idle list resumes a request with a reservation, or none is
reserved. -/
theorem reserved_of_step {a : Action} (hstep : step options pool a = some pool')
    (hless : pool'.idle.length < pool.idle.length) :
    pool.reservedIdle = 0 ∨ ∃ i, a = .resume i ∧
      pool.callers[i]?.any (Caller.isReserved pool.waiters) = true := by
  -- Only a pass through the acquire loop takes connections off the idle list.
  have hnotless (h : pool.idle.length ≤ pool'.idle.length) : False := Nat.not_lt.mpr h hless
  have hkept (h : pool'.idle = pool.idle) : False := hnotless (congrArg List.length h).ge
  cases a with
  | acquire request cancelled handler =>
    obtain rfl := Option.some.inj hstep
    have hnone := (reserved_of_acquirePass hless).resolve_left Bool.false_ne_true
    exact Or.inl hnone
  | resume i =>
    obtain ⟨caller, base, w, htake, hphase, hwoken, rfl⟩ := step_resume hstep
    obtain ⟨hcaller, hidle⟩ := mem_of_takeCaller htake
    obtain ⟨-, heq⟩ := takeCaller_perm htake
    have hwaiters : base.waiters = pool.waiters := by rw [heq]
    have hreservedIdle : (base.updateCancelState caller.cancelState fun state =>
        { state with waiter := none }).reservedIdle = pool.reservedIdle := by
      rw [heq]
      cases caller.cancelState <;> rfl
    have hbase : (base.updateCancelState caller.cancelState fun state =>
        { state with waiter := none }).idle = pool.idle := idle_updateCancelState.trans hidle
    rw [← hbase] at hless
    rcases reserved_of_acquirePass hless with hreserved | hnone
    · refine Or.inr ⟨i, rfl, ?_⟩
      rw [hcaller, Option.any_some, isReserved_of_woken hphase (hwaiters ▸ hwoken), ← hwaiters]
      exact hreserved
    · exact Or.inl (hreservedIdle.symm.trans hnone)
  | expire i =>
    obtain ⟨caller, base, w, htake, -, rfl⟩ := step_expire hstep
    exact (hkept (idle_updateCancelState.trans (mem_of_takeCaller htake).2)).elim
  | cancelSignal i =>
    obtain ⟨caller, base, htake, rfl⟩ := step_cancelSignal hstep
    exact (hkept (mem_of_takeCaller htake).2).elim
  | abortWait i =>
    obtain ⟨caller, base, w, htake, -, -, rfl⟩ := step_abortWait hstep
    exact (hkept (idle_updateCancelState.trans (mem_of_takeCaller htake).2)).elim
  | cancelOnShard id =>
    obtain ⟨closed, waiters, f, rfl, -⟩ := step_cancelOnShard hstep
    exact (hkept rfl).elim
  | connectSucceeded i =>
    obtain ⟨caller, base, htake, -, rfl⟩ := step_connectSucceeded hstep
    refine (hkept ?_).elim
    exact idle_updateCancelState.trans (mem_of_takeCaller htake).2
  | connectFailed i =>
    obtain ⟨caller, base, htake, -, rfl⟩ := step_connectFailed hstep
    exact (hkept (mem_of_takeCaller htake).2).elim
  | exchanged i result =>
    obtain ⟨caller, base, connection, f, htake, -, rfl | rfl⟩ := step_exchanged hstep
    · refine (hnotless ?_).elim
      rw [idle_returnIdle, idle_updateCancelState, (mem_of_takeCaller htake).2,
        List.length_append]
      exact Nat.le_add_right _ _
    · exact (hkept (idle_updateCancelState.trans (mem_of_takeCaller htake).2)).elim
  | preconnect request targetCount =>
    obtain ⟨nextCall, launched, worker, n, -, rfl⟩ := step_preconnect hstep
    exact (hkept rfl).elim
  | workerStarts i =>
    obtain ⟨worker, base, htake, -, rfl⟩ := step_workerStarts hstep
    refine (hkept ?_).elim
    rw [idle_workerPass, (takeWorker_perm htake).2]
  | workerConnected i =>
    obtain ⟨worker, base, htake, -, rfl⟩ := step_workerConnected hstep
    have hidle : (base.opened options worker.request).2.idle = pool.idle := by
      rw [(takeWorker_perm htake).2]
      rfl
    refine (hnotless ?_).elim
    rw [idle_workerPass, idle_returnIdle, hidle, List.length_append]
    exact Nat.le_add_right _ _
  | workerFailed i =>
    obtain ⟨worker, base, htake, -, rfl⟩ := step_workerFailed hstep
    refine (hkept ?_).elim
    rw [(takeWorker_perm htake).2]
    rfl

/-- A coroutine takes the last idle connection, and neither connects nor queues a
waiter. -/
structure TakesIdle (pool pool' : Pool) (connection : Connection) : Prop where
  idle : pool.idle = pool'.idle ++ [connection]
  connecting : pool'.connecting = pool.connecting
  nextWaiter : pool'.nextWaiter = pool.nextWaiter

theorem takesIdle_startExchange {connection : Connection} {reservedIdle : Nat}
    (hidle : pool.idle = pool.idle.dropLast ++ [connection]) :
    TakesIdle pool
      ({ pool with idle := pool.idle.dropLast, reservedIdle }.startExchange caller connection)
      connection := by
  unfold Pool.startExchange
  cases caller.cancelState <;> exact ⟨hidle, rfl, rfl⟩

/-- A request with a reservation resumes and takes the last idle connection. -/
theorem Reservations.resume (options : PoolOptions)
    (h : Reservations pool (pool.callers ++ others) 0) (hcaller : pool.callers[i]? = some caller)
    (hreserved : caller.isReserved pool.waiters = true) :
    ∃ connection pool', H1.step options pool (.resume i) = some pool' ∧
      TakesIdle pool pool' connection ∧
      { caller with phase := .exchanging connection } ∈ pool'.callers := by
  obtain ⟨w, hphase, hwoken, hreservedIdle⟩ := exists_waiter_of_isReserved hreserved
  have htake : pool.takeCaller i =
      some (caller, { pool with callers := pool.callers.eraseIdx i }) := by
    simp only [Pool.takeCaller, hcaller, Option.map_some]
  have hstep : H1.step options pool (.resume i) = _ := step_resume_of_woken htake hphase hwoken
  dsimp only at hstep
  rw [hreservedIdle] at hstep
  have htaken := h.takeCaller htake
  dsimp only at htaken
  rw [hreserved] at htaken
  set base := { pool with callers := pool.callers.eraseIdx i }.updateCancelState
    caller.cancelState fun state => { state with waiter := none } with hbase
  have hsame : base.idle = pool.idle ∧ base.connecting = pool.connecting ∧
      base.nextWaiter = pool.nextWaiter := by
    rw [hbase]
    cases caller.cancelState <;> exact ⟨rfl, rfl, rfl⟩
  obtain ⟨connection, hidle, hpass⟩ :
      ∃ connection, base.idle = base.idle.dropLast ++ [connection] ∧
        base.acquirePass options caller true true = _ :=
    acquirePass_reserved (htaken.updateCancelState _ _)
  rw [hpass] at hstep
  refine ⟨connection, _, hstep, ?_, ?_⟩
  · have htakes : TakesIdle base
        ({ base with
          idle := base.idle.dropLast
          reservedIdle := base.reservedIdle - 1 }.startExchange caller connection) connection :=
      takesIdle_startExchange hidle
    exact ⟨hsame.1.symm.trans htakes.idle, htakes.connecting.trans hsame.2.1,
      htakes.nextWaiter.trans hsame.2.2⟩
  · simp [Pool.startExchange, Pool.suspend]

/-! ### Probes -/

/-- Whether a probe must wait. Unlike a request it does not look at the line. -/
def Pool.probeWaits (options : PoolOptions) (pool : Pool) (reserved : Bool) : Bool :=
  ((decide (options.maxConnections ≤ pool.active) ||
      decide (options.maxConnecting ≤ pool.connecting)) && pool.idle.isEmpty) ||
    (!reserved && decide (0 < pool.reservedIdle))

/-- One pass of `connect_probe_tls` through its loop. It gives no reservation back. -/
def Pool.probeAttempt (options : PoolOptions) (pool : Pool) (reserved : Bool) : Attempt × Pool :=
  if pool.probeWaits options reserved then (.wait, pool)
  else
    match pool.idle.getLast? with
    | some connection =>
      (.take connection,
        { pool with
          idle := pool.idle.dropLast
          reservedIdle := if reserved then pool.reservedIdle - 1 else pool.reservedIdle })
    | none => (.connect, { pool with active := pool.active + 1, connecting := pool.connecting + 1 })

/-- One side of a pool and its suspended probes. A probe is a coroutine without a cancel
state. -/
structure ProbedPool where
  side : Pool := {}
  probes : List Caller := []

namespace ProbedPool

/-- All suspended coroutines. -/
def coroutines (pool : ProbedPool) : List Caller := pool.side.callers ++ pool.probes

def suspendProbe (pool : ProbedPool) (probe : Caller) (phase : Phase) : ProbedPool :=
  { pool with probes := pool.probes ++ [{ probe with phase }] }

/-- A probe has its connection. If the peer has chosen HTTP/2 the connection is closed
and the probe ends, else it starts its exchange. -/
def proceed (pool : ProbedPool) (probe : Caller) (connection : Connection) (h2 : Bool) :
    ProbedPool :=
  if h2 then { pool with side := pool.side.lose }
  else pool.suspendProbe probe (.exchanging connection)

/-- Queue a new waiter and wait on it, unless the probe has been cancelled already. -/
def enqueueProbe (pool : ProbedPool) (probe : Caller) : ProbedPool :=
  let waiting := { pool with side := pool.side.addWaiter }
  if probe.cancelled then waiting
  else waiting.suspendProbe probe (.waiting pool.side.nextWaiter)

/-- A probe runs up to its next suspension point. -/
def probePass (options : PoolOptions) (pool : ProbedPool) (probe : Caller)
    (reserved h2 : Bool) : ProbedPool :=
  match pool.side.probeAttempt options reserved with
  | (.take connection, side) => { pool with side }.proceed probe connection h2
  | (.connect, side) => { pool with side }.suspendProbe probe .connecting
  | (.wait, side) => { pool with side }.enqueueProbe probe

def takeProbe (pool : ProbedPool) (i : Nat) : Option (Caller × ProbedPool) :=
  pool.probes[i]?.map fun probe => (probe, { pool with probes := pool.probes.eraseIdx i })

end ProbedPool

/-- The steps of a side with its probes. `h2` says that a connection the probe is given
in the step speaks HTTP/2. -/
inductive ProbedAction where
  | request (action : Action)
  | probe (request : Request) (cancelled h2 : Bool)
  | probeResume (i : Nat) (h2 : Bool)
  | probeExpire (i : Nat)
  | probeCancelSignal (i : Nat)
  | probeAbortWait (i : Nat)
  | probeConnectSucceeded (i : Nat) (h2 : Bool)
  | probeConnectFailed (i : Nat)
  | probeExchanged (i : Nat) (result : ExchangeResult)

namespace ProbedPool

/-- One step of a side with its probes; `none` if the action is not enabled. -/
def step (options : PoolOptions) (pool : ProbedPool) : ProbedAction → Option ProbedPool
  | .request action => (H1.step options pool.side action).map fun side => { pool with side }
  | .probe request cancelled h2 =>
    let probe : Caller := { request, cancelled, cancelState := none, phase := .connecting }
    some (pool.probePass options probe false h2)
  | .probeResume i h2 => do
    let (probe, pool) ← pool.takeProbe i
    let .waiting w := probe.phase | none
    if (pool.side.waiters w).woken then
      some (pool.probePass options probe (pool.side.waiters w).reservedIdle h2)
    else none
  | .probeExpire i => do
    let (probe, pool) ← pool.takeProbe i
    let .waiting _ := probe.phase | none
    if 0 < probe.request.effectiveTimeout Timeout.poolMs then some pool else none
  | .probeCancelSignal i => do
    let (probe, pool) ← pool.takeProbe i
    some { pool with probes := pool.probes ++ [{ probe with cancelled := true }] }
  | .probeAbortWait i => do
    let (probe, pool) ← pool.takeProbe i
    let .waiting w := probe.phase | none
    let waiter := pool.side.waiters w
    if !waiter.woken && probe.cancelled then
      some
        { pool with
          side :=
            { pool.side with
              waiters := Function.update pool.side.waiters w { waiter with cancelled := true }
              queue := pool.side.queue.filter (· ≠ w) } }
    else none
  | .probeConnectSucceeded i h2 => do
    let (probe, pool) ← pool.takeProbe i
    if probe.phase = .connecting then
      let (connection, side) := pool.side.opened options probe.request
      some ({ pool with side := side.wakeOne }.proceed probe connection h2)
    else none
  | .probeConnectFailed i => do
    let (probe, pool) ← pool.takeProbe i
    if probe.phase = .connecting then
      some
        { pool with
          side := { pool.side with connecting := pool.side.connecting - 1 }.lose }
    else none
  | .probeExchanged i result => do
    let (probe, pool) ← pool.takeProbe i
    let .exchanging connection := probe.phase | none
    match result with
    | .success => some { pool with side := pool.side.returnIdle connection }
    | .errorResponse => some { pool with side := pool.side.lose }
    -- The connection is dropped, but nothing is counted and nobody is woken.
    | .exception => some pool

/-! ### The reservations of a side with probes -/

variable {pool pool' : ProbedPool} {probe : Caller} {h2 : Bool}

/-- The reservations of requests and probes together. -/
def Sound (pool : ProbedPool) (held : Nat) : Prop :=
  Reservations pool.side pool.coroutines held

/-- What happens to the side alone. -/
theorem Sound.setSide {side : Pool} {held' : Nat}
    (h : Reservations side pool.coroutines held') (hcallers : side.callers = pool.side.callers) :
    Sound { pool with side } held' := by
  unfold Sound coroutines
  dsimp only
  rw [hcallers]
  exact h

theorem coroutines_suspendProbe (pool : ProbedPool) (probe : Caller) (phase : Phase) :
    (pool.suspendProbe probe phase).coroutines.Perm ({ probe with phase } :: pool.coroutines) := by
  unfold coroutines suspendProbe
  dsimp only
  rw [← List.append_assoc]
  exact List.perm_append_singleton _ _

theorem Sound.suspendProbe {phase : Phase} (h : pool.Sound 0)
    (hphase : ∀ w, phase ≠ .waiting w) : (pool.suspendProbe probe phase).Sound 0 := by
  have hput : Reservations pool.side ({ probe with phase } :: pool.coroutines) 0 := h.put hphase
  exact hput.perm (coroutines_suspendProbe pool probe phase)

theorem Sound.enqueueProbe (h : pool.Sound 0) : (pool.enqueueProbe probe).Sound 0 := by
  unfold ProbedPool.enqueueProbe
  dsimp only
  split_ifs with hcancelled
  · exact h.addWaiter
  · have hput : Reservations pool.side.addWaiter
        ({ probe with phase := .waiting pool.side.nextWaiter } :: pool.coroutines) 0 :=
      h.putWaiting rfl
    exact hput.perm (coroutines_suspendProbe { pool with side := pool.side.addWaiter } probe _)

theorem Sound.proceed {connection : Connection} (h : pool.Sound 0) :
    (pool.proceed probe connection h2).Sound 0 := by
  unfold ProbedPool.proceed
  split_ifs with hh2
  · exact h.lose
  · exact h.suspendProbe fun w => Phase.noConfusion

/-- What one pass of a probe does. -/
theorem probeAttempt_cases (options : PoolOptions) (side : Pool) (reserved : Bool) :
    side.probeWaits options reserved = true ∧
        side.probeAttempt options reserved = (.wait, side) ∨
      (reserved = true ∨ side.reservedIdle = 0) ∧
        ((∃ connection, side.idle = side.idle.dropLast ++ [connection] ∧
            side.probeAttempt options reserved =
              (.take connection,
                { side with
                  idle := side.idle.dropLast
                  reservedIdle :=
                    if reserved then side.reservedIdle - 1 else side.reservedIdle })) ∨
          side.idle = [] ∧
            side.probeAttempt options reserved =
              (.connect,
                { side with active := side.active + 1, connecting := side.connecting + 1 })) := by
  unfold Pool.probeAttempt
  cases hwait : side.probeWaits options reserved with
  | true => exact Or.inl ⟨rfl, rfl⟩
  | false =>
    refine Or.inr ⟨?_, ?_⟩
    · cases reserved with
      | true => exact Or.inl rfl
      | false =>
        simp only [Pool.probeWaits, Bool.not_false, Bool.true_and, Bool.or_eq_false_iff,
          decide_eq_false_iff_not, not_lt, Nat.le_zero] at hwait
        exact Or.inr hwait.2
    · cases hlast : side.idle.getLast? with
      | some connection =>
        exact Or.inl ⟨connection, (List.dropLast_append_getLast? connection hlast).symm, rfl⟩
      | none => exact Or.inr ⟨List.getLast?_eq_none_iff.mp hlast, rfl⟩

/-- A probe with a reservation finds an idle connection, and leaves its loop. -/
theorem probeAttempt_reserved {side : Pool} {suspended : List Caller}
    (h : Reservations side suspended 1) :
    ∃ connection, side.idle = side.idle.dropLast ++ [connection] ∧
      side.probeAttempt options true =
        (.take connection,
          { side with idle := side.idle.dropLast, reservedIdle := side.reservedIdle - 1 }) := by
  obtain ⟨connection, hidle, hlast⟩ := h.idle_eq
  have hne : side.idle.isEmpty = false := by
    rw [hidle]
    simp
  refine ⟨connection, hidle, ?_⟩
  have hwait : side.probeWaits options true = false := by simp [Pool.probeWaits, hne]
  simp [Pool.probeAttempt, hwait, hlast]

theorem Sound.probePass {reserved : Bool} (h : pool.Sound (if reserved then 1 else 0)) :
    (pool.probePass options probe reserved h2).Sound 0 := by
  unfold ProbedPool.probePass
  rcases probeAttempt_cases options pool.side reserved with
    ⟨-, heq⟩ | ⟨hmay, ⟨connection, hidle, heq⟩ | ⟨hnil, heq⟩⟩
  · rw [heq]
    exact (show pool.Sound 0 from h.forget).enqueueProbe
  · rw [heq]
    exact Sound.proceed (Sound.setSide (h.takeIdle hidle hmay) rfl)
  · rw [heq]
    have hconnect : Sound { pool with side := _ } 0 := Sound.setSide h.forget.connect rfl
    exact hconnect.suspendProbe fun w => Phase.noConfusion

theorem mem_of_takeProbe (htake : pool.takeProbe i = some (probe, pool')) :
    pool.probes[i]? = some probe ∧ pool'.side = pool.side := by
  obtain ⟨c, hc, hpair⟩ := Option.map_eq_some_iff.mp htake
  obtain ⟨rfl, rfl⟩ := Prod.mk.inj hpair
  exact ⟨hc, rfl⟩

theorem idle_of_takeProbe (htake : pool.takeProbe i = some (probe, pool')) :
    pool'.side.idle = pool.side.idle := congrArg Pool.idle (mem_of_takeProbe htake).2

theorem takeProbe_perm (htake : pool.takeProbe i = some (probe, pool')) :
    (probe :: pool'.coroutines).Perm pool.coroutines ∧ pool'.side = pool.side := by
  obtain ⟨c, hc, hpair⟩ := Option.map_eq_some_iff.mp htake
  obtain ⟨rfl, rfl⟩ := Prod.mk.inj hpair
  obtain ⟨hi, rfl⟩ := List.getElem?_eq_some_iff.mp hc
  have hprobes := (List.getElem_cons_eraseIdx_perm hi).append_left pool.side.callers
  exact ⟨List.perm_middle.symm.trans hprobes, rfl⟩

/-- A probe is taken out, with its reservation in hand. -/
theorem Sound.takeProbe (h : pool.Sound 0) (htake : pool.takeProbe i = some (probe, pool')) :
    pool'.Sound (if probe.isReserved pool'.side.waiters then 1 else 0) := by
  obtain ⟨hperm, hside⟩ := takeProbe_perm htake
  unfold Sound
  rw [hside]
  exact (Reservations.perm h hperm).take

/-! ### One step of a probe -/

theorem step_probeResume (h : pool.step options (.probeResume i h2) = some pool') :
    ∃ probe base w, pool.takeProbe i = some (probe, base) ∧ probe.phase = .waiting w ∧
      (base.side.waiters w).woken = true ∧
      pool' = base.probePass options probe (base.side.waiters w).reservedIdle h2 := by
  obtain ⟨⟨probe, base⟩, htake, h⟩ := Option.bind_eq_some_iff.mp h
  cases hphase : probe.phase with
  | waiting w =>
    simp only [hphase] at h
    split_ifs at h with hwoken
    exact ⟨probe, base, w, htake, hphase, hwoken, (Option.some.inj h).symm⟩
  | connecting => simp [hphase] at h
  | exchanging connection => simp [hphase] at h

theorem step_probeExpire (h : pool.step options (.probeExpire i) = some pool') :
    ∃ probe w, pool.takeProbe i = some (probe, pool') ∧ probe.phase = .waiting w := by
  obtain ⟨⟨probe, base⟩, htake, h⟩ := Option.bind_eq_some_iff.mp h
  cases hphase : probe.phase with
  | waiting w =>
    simp only [hphase] at h
    split_ifs at h with htimeout
    obtain rfl := Option.some.inj h
    exact ⟨probe, w, htake, hphase⟩
  | connecting => simp [hphase] at h
  | exchanging connection => simp [hphase] at h

theorem step_probeCancelSignal (h : pool.step options (.probeCancelSignal i) = some pool') :
    ∃ probe base, pool.takeProbe i = some (probe, base) ∧
      pool' = { base with probes := base.probes ++ [{ probe with cancelled := true }] } := by
  obtain ⟨⟨probe, base⟩, htake, h⟩ := Option.bind_eq_some_iff.mp h
  exact ⟨probe, base, htake, (Option.some.inj h).symm⟩

theorem step_probeAbortWait (h : pool.step options (.probeAbortWait i) = some pool') :
    ∃ probe base w, pool.takeProbe i = some (probe, base) ∧ probe.phase = .waiting w ∧
      pool' =
        { base with
          side :=
            { base.side with
              waiters := Function.update base.side.waiters w
                { base.side.waiters w with cancelled := true }
              queue := base.side.queue.filter (· ≠ w) } } := by
  obtain ⟨⟨probe, base⟩, htake, h⟩ := Option.bind_eq_some_iff.mp h
  cases hphase : probe.phase with
  | waiting w =>
    simp only [hphase] at h
    split_ifs at h with hwait
    exact ⟨probe, base, w, htake, hphase, (Option.some.inj h).symm⟩
  | connecting => simp [hphase] at h
  | exchanging connection => simp [hphase] at h

theorem step_probeConnectSucceeded
    (h : pool.step options (.probeConnectSucceeded i h2) = some pool') :
    ∃ probe base, pool.takeProbe i = some (probe, base) ∧ probe.phase = .connecting ∧
      pool' =
        { base with side := (base.side.opened options probe.request).2.wakeOne }.proceed probe
          (base.side.opened options probe.request).1 h2 := by
  obtain ⟨⟨probe, base⟩, htake, h⟩ := Option.bind_eq_some_iff.mp h
  dsimp only at h
  split_ifs at h with hphase
  exact ⟨probe, base, htake, hphase, (Option.some.inj h).symm⟩

theorem step_probeConnectFailed (h : pool.step options (.probeConnectFailed i) = some pool') :
    ∃ probe base, pool.takeProbe i = some (probe, base) ∧ probe.phase = .connecting ∧
      pool' =
        { base with
          side := { base.side with connecting := base.side.connecting - 1 }.lose } := by
  obtain ⟨⟨probe, base⟩, htake, h⟩ := Option.bind_eq_some_iff.mp h
  dsimp only at h
  split_ifs at h with hphase
  exact ⟨probe, base, htake, hphase, (Option.some.inj h).symm⟩

theorem step_probeExchanged {result : ExchangeResult}
    (h : pool.step options (.probeExchanged i result) = some pool') :
    ∃ probe base connection, pool.takeProbe i = some (probe, base) ∧
      probe.phase = .exchanging connection ∧
      (result = .success ∧ pool' = { base with side := base.side.returnIdle connection } ∨
        result = .errorResponse ∧ pool' = { base with side := base.side.lose } ∨
        result = .exception ∧ pool' = base) := by
  obtain ⟨⟨probe, base⟩, htake, h⟩ := Option.bind_eq_some_iff.mp h
  cases hphase : probe.phase with
  | exchanging connection =>
    simp only [hphase] at h
    refine ⟨probe, base, connection, htake, hphase, ?_⟩
    cases result with
    | success => exact Or.inl ⟨rfl, (Option.some.inj h).symm⟩
    | errorResponse => exact Or.inr (Or.inl ⟨rfl, (Option.some.inj h).symm⟩)
    | exception => exact Or.inr (Or.inr ⟨rfl, (Option.some.inj h).symm⟩)
  | connecting => simp [hphase] at h
  | waiting w => simp [hphase] at h

theorem Sound.cancelSignal (h : pool.Sound 0) (htake : pool.takeProbe i = some (probe, pool')) :
    Sound { pool' with probes := pool'.probes ++ [{ probe with cancelled := true }] } 0 := by
  obtain ⟨hperm, hside⟩ := takeProbe_perm htake
  have hput := (Reservations.perm h hperm).replace { probe with cancelled := true } rfl
  rw [← hside] at hput
  exact hput.perm (coroutines_suspendProbe pool' { probe with cancelled := true } probe.phase)

/-- Every step keeps the reservations. -/
theorem Sound.step {a : ProbedAction} (h : pool.Sound 0)
    (hstep : pool.step options a = some pool') : pool'.Sound 0 := by
  cases a with
  | request action =>
    obtain ⟨side, hside, rfl⟩ := Option.map_eq_some_iff.mp hstep
    exact Reservations.step h hside
  | probe request cancelled h2 =>
    obtain rfl := Option.some.inj hstep
    have hnone : pool.Sound (if false then 1 else 0) := h
    exact hnone.probePass
  | probeResume i h2 =>
    obtain ⟨probe, base, w, htake, hphase, hwoken, rfl⟩ := step_probeResume hstep
    have hbase := h.takeProbe htake
    rw [isReserved_of_woken hphase hwoken] at hbase
    exact hbase.probePass
  | probeExpire i =>
    obtain ⟨probe, w, htake, -⟩ := step_probeExpire hstep
    exact (h.takeProbe htake).forget
  | probeCancelSignal i =>
    obtain ⟨probe, base, htake, rfl⟩ := step_probeCancelSignal hstep
    exact h.cancelSignal htake
  | probeAbortWait i =>
    obtain ⟨probe, base, w, htake, -, rfl⟩ := step_probeAbortWait hstep
    exact (h.takeProbe htake).forget.abandon w
  | probeConnectSucceeded i h2 =>
    obtain ⟨probe, base, htake, -, rfl⟩ := step_probeConnectSucceeded hstep
    exact Sound.proceed (Sound.setSide (h.takeProbe htake).forget.opened.wakeOne rfl)
  | probeConnectFailed i =>
    obtain ⟨probe, base, htake, -, rfl⟩ := step_probeConnectFailed hstep
    exact (h.takeProbe htake).forget.connectFailed
  | probeExchanged i result =>
    obtain ⟨probe, base, connection, htake, -, ⟨-, rfl⟩ | ⟨-, rfl⟩ | ⟨-, rfl⟩⟩ :=
      step_probeExchanged hstep
    · exact (h.takeProbe htake).forget.returnIdle connection
    · exact (h.takeProbe htake).forget.lose
    · exact (h.takeProbe htake).forget

/-! ### Who takes an idle connection -/

/-- The step resumes a coroutine that has been woken with a reservation. -/
def resumesReserved (pool : ProbedPool) : ProbedAction → Bool
  | .request (.resume i) => pool.side.callers[i]?.any (Caller.isReserved pool.side.waiters)
  | .probeResume i _ => pool.probes[i]?.any (Caller.isReserved pool.side.waiters)
  | _ => false

theorem idle_proceed {connection : Connection} :
    (pool.proceed probe connection h2).side.idle = pool.side.idle := by
  unfold ProbedPool.proceed
  split_ifs <;> rfl

theorem idle_enqueueProbe : (pool.enqueueProbe probe).side.idle = pool.side.idle := by
  unfold ProbedPool.enqueueProbe
  dsimp only
  split_ifs <;> rfl

/-- A pass of a probe that shortens the idle list has a reservation, or none is
reserved. -/
theorem reserved_of_probePass {reserved : Bool}
    (hless : (pool.probePass options probe reserved h2).side.idle.length <
      pool.side.idle.length) : reserved = true ∨ pool.side.reservedIdle = 0 := by
  rcases probeAttempt_cases options pool.side reserved with ⟨-, heq⟩ | ⟨hmay, -⟩
  · have hkept : (pool.probePass options probe reserved h2).side.idle = pool.side.idle := by
      simp only [ProbedPool.probePass, heq]
      exact idle_enqueueProbe
    exact absurd hless (by simp [hkept])
  · exact hmay

/-- A step that takes an idle connection resumes a coroutine with a reservation, or none
is reserved. -/
theorem reserved_of_shorter {a : ProbedAction} (hstep : pool.step options a = some pool')
    (hless : pool'.side.idle.length < pool.side.idle.length) :
    pool.side.reservedIdle = 0 ∨ pool.resumesReserved a = true := by
  have hnotless (h : pool.side.idle.length ≤ pool'.side.idle.length) : False :=
    Nat.not_lt.mpr h hless
  have hkept (h : pool'.side.idle = pool.side.idle) : False := hnotless (congrArg List.length h).ge
  cases a with
  | request action =>
    obtain ⟨side, hside, rfl⟩ := Option.map_eq_some_iff.mp hstep
    rcases reserved_of_step hside hless with hnone | ⟨i, rfl, hreserved⟩
    · exact Or.inl hnone
    · exact Or.inr hreserved
  | probe request cancelled h2 =>
    obtain rfl := Option.some.inj hstep
    exact Or.inl ((reserved_of_probePass hless).resolve_left Bool.false_ne_true)
  | probeResume i h2 =>
    obtain ⟨probe, base, w, htake, hphase, hwoken, rfl⟩ := step_probeResume hstep
    obtain ⟨hprobe, hside⟩ := mem_of_takeProbe htake
    rw [← hside] at hless ⊢
    rcases reserved_of_probePass hless with hreserved | hnone
    · refine Or.inr ?_
      simp only [resumesReserved]
      rw [hprobe, Option.any_some, ← hside, isReserved_of_woken hphase hwoken]
      exact hreserved
    · exact Or.inl hnone
  | probeExpire i =>
    obtain ⟨probe, w, htake, -⟩ := step_probeExpire hstep
    have hidle := idle_of_takeProbe htake
    exact (hkept hidle).elim
  | probeCancelSignal i =>
    obtain ⟨probe, base, htake, rfl⟩ := step_probeCancelSignal hstep
    have hidle := idle_of_takeProbe htake
    exact (hkept hidle).elim
  | probeAbortWait i =>
    obtain ⟨probe, base, w, htake, -, rfl⟩ := step_probeAbortWait hstep
    have hidle := idle_of_takeProbe htake
    exact (hkept hidle).elim
  | probeConnectSucceeded i h2 =>
    obtain ⟨probe, base, htake, -, rfl⟩ := step_probeConnectSucceeded hstep
    have hidle := idle_of_takeProbe htake
    exact (hkept (idle_proceed.trans hidle)).elim
  | probeConnectFailed i =>
    obtain ⟨probe, base, htake, -, rfl⟩ := step_probeConnectFailed hstep
    have hidle := idle_of_takeProbe htake
    exact (hkept hidle).elim
  | probeExchanged i result =>
    obtain ⟨probe, base, connection, htake, -, hpool'⟩ := step_probeExchanged hstep
    have hidle : base.side.idle = pool.side.idle := idle_of_takeProbe htake
    rcases hpool' with ⟨-, rfl⟩ | ⟨-, rfl⟩ | ⟨-, rfl⟩
    · -- the connection of the probe becomes idle
      have hlonger : (base.side.idle ++ [connection]).length = pool.side.idle.length + 1 := by
        rw [hidle, List.length_append, List.length_singleton]
      exact (hnotless (Nat.le_of_succ_le hlonger.ge)).elim
    · exact (hkept hidle).elim
    · exact (hkept hidle).elim

/-- A probe with a reservation resumes and takes the last idle connection. -/
theorem Sound.probeResume (options : PoolOptions) (h : pool.Sound 0)
    (hprobe : pool.probes[i]? = some probe)
    (hreserved : probe.isReserved pool.side.waiters = true) (h2 : Bool) :
    ∃ connection pool', pool.step options (.probeResume i h2) = some pool' ∧
      TakesIdle pool.side pool'.side connection ∧
      (h2 = false → { probe with phase := .exchanging connection } ∈ pool'.probes) := by
  obtain ⟨w, hphase, hwoken, hreservedIdle⟩ := exists_waiter_of_isReserved hreserved
  obtain ⟨base, htake, hbase⟩ : ∃ base, pool.takeProbe i = some (probe, base) ∧
      base.side = pool.side := by
    refine ⟨{ pool with probes := pool.probes.eraseIdx i }, ?_, rfl⟩
    simp only [ProbedPool.takeProbe, hprobe, Option.map_some]
  have htaken := h.takeProbe htake
  rw [hbase, hreserved] at htaken
  obtain ⟨connection, hidle, hattempt⟩ :
      ∃ connection, base.side.idle = base.side.idle.dropLast ++ [connection] ∧
        base.side.probeAttempt options true = _ := probeAttempt_reserved htaken
  have hstep : pool.step options (.probeResume i h2) =
      some (base.probePass options probe true h2) := by
    rw [← hbase] at hwoken hreservedIdle
    simp only [ProbedPool.step, htake, Option.bind_eq_bind, Option.bind_some, hphase, hwoken,
      if_true, hreservedIdle]
  simp only [ProbedPool.probePass, hattempt] at hstep
  refine ⟨connection, _, hstep, ?_, fun hfalse => ?_⟩
  · rw [← hbase]
    unfold ProbedPool.proceed
    split_ifs <;> exact ⟨hidle, rfl, rfl⟩
  · simp [ProbedPool.proceed, ProbedPool.suspendProbe, hfalse]

end ProbedPool

/-- In every state a side of an origin pool reaches with its requests, preconnect
workers and probes, there is an idle connection for every reservation, idle connections
are taken without a reservation only if none is reserved, and whoever has been woken
with a reservation resumes by taking an idle connection. -/
theorem reservations_honoured (options : PoolOptions) (actions : List ProbedAction)
    {pool : ProbedPool} (hrun : exec (ProbedPool.step options) {} actions = some pool) :
    pool.side.reservedIdle ≤ pool.side.idle.length ∧
    (∀ action pool', pool.step options action = some pool' →
      pool'.side.idle.length < pool.side.idle.length →
        pool.side.reservedIdle = 0 ∨ pool.resumesReserved action = true) ∧
    (∀ i caller, pool.side.callers[i]? = some caller →
      caller.isReserved pool.side.waiters = true →
        ∃ connection pool', pool.step options (.request (.resume i)) = some pool' ∧
          TakesIdle pool.side pool'.side connection ∧
          { caller with phase := .exchanging connection } ∈ pool'.side.callers) ∧
    (∀ i probe, pool.probes[i]? = some probe → probe.isReserved pool.side.waiters = true →
      ∀ h2, ∃ connection pool', pool.step options (.probeResume i h2) = some pool' ∧
        TakesIdle pool.side pool'.side connection ∧
        (h2 = false → { probe with phase := .exchanging connection } ∈ pool'.probes)) := by
  have hsound : pool.Sound 0 :=
    invariant_of_reaches (fun _ _ _ (h : ProbedPool.Sound _ 0) hstep => h.step hstep)
      (show ProbedPool.Sound {} 0 from reservations_empty) ⟨actions, hrun⟩
  refine ⟨Reservations.covered hsound, fun action pool' hstep hless =>
    ProbedPool.reserved_of_shorter hstep hless, fun i caller hcaller hreserved => ?_,
    fun i probe hprobe hreserved h2 => hsound.probeResume options hprobe hreserved h2⟩
  obtain ⟨connection, side, hstep, htakes, hmem⟩ :=
    Reservations.resume options hsound hcaller hreserved
  exact ⟨connection, { pool with side }, congrArg (Option.map _) hstep, htakes, hmem⟩

/-- The only connection is returned while a request and a probe are in line, and another
request comes before the first one resumes. -/
def returnedToThree : List ProbedAction :=
  [.request (.acquire {} false false), .request (.connectSucceeded 0),
    .request (.acquire {} false false), .probe {} false false,
    .request (.exchanged 0 .success), .request (.acquire {} false false)]

theorem reservations_honoured_returnedToThree :
    ∃ (pool pool' : ProbedPool) (caller : Caller) (connection : Connection),
      exec (ProbedPool.step { maxConnectionsPerOrigin := 1 }) {} returnedToThree = some pool ∧
      pool.side.queue.length = 2 ∧ pool.side.reservedIdle ≤ pool.side.idle.length ∧
      pool.step { maxConnectionsPerOrigin := 1 } (.request (.resume 0)) = some pool' ∧
      TakesIdle pool.side pool'.side connection ∧
      { caller with phase := .exchanging connection } ∈ pool'.side.callers := by
  obtain ⟨pool, caller, hrun, htwo, hcaller, hreserved⟩ : ∃ pool caller,
      exec (ProbedPool.step { maxConnectionsPerOrigin := 1 }) {} returnedToThree = some pool ∧
      pool.side.queue.length = 2 ∧ pool.side.callers[0]? = some caller ∧
      caller.isReserved pool.side.waiters = true := ⟨_, _, rfl, rfl, rfl, rfl⟩
  obtain ⟨hcovered, -, hresumes, -⟩ :=
    reservations_honoured { maxConnectionsPerOrigin := 1 } returnedToThree hrun
  obtain ⟨connection, pool', htakes⟩ := hresumes 0 caller hcaller hreserved
  exact ⟨pool, pool', caller, connection, hrun, htwo, hcovered, htakes⟩

end HttpClient.H1
