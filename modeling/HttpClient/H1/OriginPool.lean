import HttpClient.H1.PoolAccounts

/-!
# Both sides of an origin pool, with resets and evictions

A reset closes the idle connections of both sides, takes them off `active`, and sets
`connecting` and the reservations to zero although connects may be in flight and woken
waiters may be about to resume. An eviction sets all counters to zero. From then on
`connecting` and `reservedIdle` no longer agree with the coroutines, and the decrements
of the source only keep them from going below zero. What stays exact is `active`: it is
adjusted by what each piece of code gains or gives up, never through another counter.

## Main definitions

* `Conserved` — `active` counts the connections there are, and respects the limit
* `OriginPool`, `OriginPool.step` — both sides, with the steps that act on both

## Main results

* `Conserved.acquirePass`, `Conserved.workerPass` — asking for a connection
* `Conserved.step`, `Conserved.reset`, `Conserved.closeIdle` — one step of a side
* `connections_conserved` — every run of an origin pool
-/

set_option autoImplicit false

namespace HttpClient.H1

open Semantics

variable {options : PoolOptions} {pool pool' : Pool} {caller : Caller} {worker : Worker}
  {held i : Nat}

/-- The connections of a pool are the idle ones, the connects in flight, the ones that
requests hold, and the `held` ones of the coroutine that is running. -/
structure Conserved (options : PoolOptions) (pool : Pool) (held : Nat) : Prop where
  active : pool.active = pool.idle.length + pool.connects + pool.exchanges + held
  cap : pool.active ≤ options.maxConnections

theorem conserved_empty : Conserved options {} 0 := ⟨rfl, Nat.zero_le _⟩

theorem Conserved.updateCancelState (h : Conserved options pool held)
    (cancelState : Option Nat) (f : CancelState → CancelState) :
    Conserved options (pool.updateCancelState cancelState f) held := by
  cases cancelState with
  | none => exact h
  | some id => exact ⟨h.active, h.cap⟩

/-! ### Releasing a connection -/

theorem Conserved.wakeOne (h : Conserved options pool held) :
    Conserved options pool.wakeOne held := ⟨h.active, h.cap⟩

/-- The connection in hand becomes idle. -/
theorem Conserved.returnIdle (h : Conserved options pool 1) (connection : Connection) :
    Conserved options (pool.returnIdle connection) 0 := by
  refine ⟨?_, h.cap⟩
  have hactive : pool.active = pool.idle.length + pool.connects + pool.exchanges + 1 := h.active
  have hlength : (pool.returnIdle connection).idle.length = pool.idle.length + 1 :=
    List.length_append
  have hconnects : (pool.returnIdle connection).connects = pool.connects := rfl
  have hexchanges : (pool.returnIdle connection).exchanges = pool.exchanges := rfl
  have hsame : (pool.returnIdle connection).active = pool.active := rfl
  omega

/-- The connection in hand is given up. It was counted, so the guard of the decrement
does not matter. -/
theorem Conserved.lose (h : Conserved options pool 1) : Conserved options pool.lose 0 := by
  have hactive : pool.active = pool.idle.length + pool.connects + pool.exchanges + 1 := h.active
  have hcap := h.cap
  have hless : Conserved options { pool with active := pool.active - 1 } 0 := by
    refine ⟨?_, ?_⟩
    · simp only [Pool.connects, Pool.exchanges] at hactive ⊢
      omega
    · dsimp only
      omega
  exact hless.wakeOne

/-! ### Taking a coroutine out and suspending it -/

/-- The connections a suspended request stands for. -/
def Caller.holds (caller : Caller) : Nat :=
  (if caller.isConnecting then 1 else 0) + if caller.isExchanging then 1 else 0

theorem Conserved.takeCaller (h : Conserved options pool 0)
    (htake : pool.takeCaller i = some (caller, pool')) :
    Conserved options pool' caller.holds := by
  have hconnecting := countP_takeCaller htake Caller.isConnecting
  have hexchanging := countP_takeCaller htake Caller.isExchanging
  have hactive := h.active
  obtain ⟨-, heq⟩ := takeCaller_perm htake
  rw [heq]
  refine ⟨?_, h.cap⟩
  simp only [Pool.connects, Pool.exchanges, Caller.holds] at hactive ⊢
  omega

theorem Conserved.takeWorker (h : Conserved options pool 0)
    (htake : pool.takeWorker i = some (worker, pool')) :
    Conserved options pool' (if worker.connecting then 1 else 0) := by
  obtain ⟨hperm, heq⟩ := takeWorker_perm htake
  have hcount := hperm.countP_eq Worker.connecting
  rw [List.countP_cons] at hcount
  have hactive := h.active
  rw [heq]
  refine ⟨?_, h.cap⟩
  simp only [Pool.connects, Pool.exchanges] at hactive ⊢
  omega

/-- A request that suspends takes what is in hand with it. -/
theorem Conserved.suspend {phase : Phase} {rest : Nat} (h : Conserved options pool held)
    (hheld : held = rest + { caller with phase }.holds) :
    Conserved options (pool.suspend caller phase) rest := by
  have hactive := h.active
  refine ⟨?_, h.cap⟩
  simp only [Pool.connects, Pool.exchanges, Pool.suspend, List.countP_append,
    List.countP_singleton, Caller.holds] at hactive hheld ⊢
  omega

theorem Conserved.startExchange {connection : Connection} (h : Conserved options pool 1) :
    Conserved options (pool.startExchange caller connection) 0 :=
  (h.updateCancelState _ _).suspend rfl

theorem Conserved.enqueue (h : Conserved options pool 0) :
    Conserved options (pool.enqueue caller) 0 := by
  have hbase := h.updateCancelState caller.cancelState fun state =>
    { state with waiter := some pool.nextWaiter }
  unfold Pool.enqueue
  dsimp only
  split_ifs with hcancelled
  · exact ⟨hbase.active, hbase.cap⟩
  · exact Conserved.suspend ⟨hbase.active, hbase.cap⟩ rfl

/-! ### Asking for a connection -/

/-- A new connection is only opened below the limit. -/
theorem Conserved.connect (h : Conserved options pool 0)
    (hbelow : pool.active < options.maxConnections) :
    Conserved options
      { pool with active := pool.active + 1, connecting := pool.connecting + 1 } 1 := by
  have hactive : pool.active = pool.idle.length + pool.connects + pool.exchanges + 0 := h.active
  refine ⟨?_, hbelow⟩
  simp only [Pool.connects, Pool.exchanges] at hactive ⊢
  omega

theorem Conserved.dropReservation (h : Conserved options pool 0) (reserved : Bool) :
    Conserved options (pool.dropReservation reserved) 0 := by
  unfold Pool.dropReservation
  split_ifs with hdrop
  · exact ⟨h.active, h.cap⟩
  · exact h

/-- One pass through the acquire loop, whatever the counters of the reservations and of
the connects say. -/
theorem Conserved.acquirePass (h : Conserved options pool 0) (woke reserved : Bool) :
    Conserved options (pool.acquirePass options caller woke reserved) 0 := by
  unfold Pool.acquirePass
  rcases attempt_cases options pool woke reserved with
    ⟨connection, hidle, -, heq⟩ | ⟨-, heq⟩
  · -- The connection moves from the idle list into the hand.
    rw [heq]
    have hlength := congrArg List.length hidle
    rw [List.length_append, List.length_singleton] at hlength
    have hactive : pool.active = pool.idle.length + pool.connects + pool.exchanges + 0 := h.active
    refine Conserved.startExchange ⟨?_, h.cap⟩
    simp only [Pool.connects, Pool.exchanges] at hactive ⊢
    omega
  · rw [heq]
    have hdrop := h.dropReservation reserved
    cases hmay : (pool.dropReservation reserved).mayConnect options woke with
    | true =>
      have hbelow : (pool.dropReservation reserved).active < options.maxConnections := by
        simp only [Pool.mayConnect, Bool.and_eq_true, decide_eq_true_eq] at hmay
        exact hmay.1.1
      exact (hdrop.connect hbelow).suspend rfl
    | false => exact hdrop.enqueue

theorem Conserved.workerPass (h : Conserved options pool 0) :
    Conserved options (pool.workerPass options worker) 0 := by
  have hactive : pool.active = pool.idle.length + pool.connects + pool.exchanges + 0 := h.active
  unfold Pool.workerPass
  split_ifs with hstop
  · exact h
  dsimp only
  split_ifs with hdone
  · exact ⟨h.active, h.cap⟩
  · push Not at hstop
    refine ⟨?_, hstop.2.1⟩
    simp only [Pool.connects, Pool.exchanges, List.countP_append, List.countP_singleton,
      if_true] at hactive ⊢
    omega

/-! ### One step of a side -/

theorem Conserved.opened {request : Request} (h : Conserved options pool held) :
    Conserved options (pool.opened options request).2 held := ⟨h.active, h.cap⟩

/-- A connect that has failed gives its place up. -/
theorem Conserved.connectFailed (h : Conserved options pool 1) :
    Conserved options { pool with connecting := pool.connecting - 1 }.lose 0 :=
  Conserved.lose ⟨h.active, h.cap⟩

theorem Conserved.take_waiting {w : Nat} (h : Conserved options pool 0)
    (htake : pool.takeCaller i = some (caller, pool')) (hphase : caller.phase = .waiting w) :
    Conserved options pool' 0 := by
  simpa [Caller.holds, Caller.isConnecting, Caller.isExchanging, hphase] using
    h.takeCaller htake

theorem Conserved.take_connecting (h : Conserved options pool 0)
    (htake : pool.takeCaller i = some (caller, pool')) (hphase : caller.phase = .connecting) :
    Conserved options pool' 1 := by
  simpa [Caller.holds, Caller.isConnecting, Caller.isExchanging, hphase] using
    h.takeCaller htake

theorem Conserved.take_exchanging {connection : Connection} (h : Conserved options pool 0)
    (htake : pool.takeCaller i = some (caller, pool'))
    (hphase : caller.phase = .exchanging connection) : Conserved options pool' 1 := by
  simpa [Caller.holds, Caller.isConnecting, Caller.isExchanging, hphase] using
    h.takeCaller htake

theorem Conserved.take_worker (h : Conserved options pool 0)
    (htake : pool.takeWorker i = some (worker, pool')) (hphase : worker.connecting = true) :
    Conserved options pool' 1 := by
  simpa [hphase] using h.takeWorker htake

/-- Every step of a side keeps the connections counted. -/
theorem Conserved.step {a : Action} (h : Conserved options pool 0)
    (hstep : step options pool a = some pool') : Conserved options pool' 0 := by
  cases a with
  | acquire request cancelled handler =>
    obtain rfl := Option.some.inj hstep
    have hbase : Conserved options { pool with nextCancelState := pool.nextCancelState + 1 } 0 :=
      ⟨h.active, h.cap⟩
    exact hbase.acquirePass false false
  | resume i =>
    obtain ⟨caller, base, w, htake, hphase, -, rfl⟩ := step_resume hstep
    exact ((h.take_waiting htake hphase).updateCancelState _ _).acquirePass _ _
  | expire i =>
    obtain ⟨caller, base, w, htake, hphase, rfl⟩ := step_expire hstep
    exact (h.take_waiting htake hphase).updateCancelState _ _
  | cancelSignal i =>
    obtain ⟨caller, base, htake, rfl⟩ := step_cancelSignal hstep
    have hsame : caller.holds = 0 + { caller with cancelled := true }.holds :=
      (Nat.zero_add _).symm
    change Conserved options (base.suspend { caller with cancelled := true } caller.phase) 0
    exact (h.takeCaller htake).suspend hsame
  | abortWait i =>
    obtain ⟨caller, base, w, htake, hphase, -, rfl⟩ := step_abortWait hstep
    have hbase := h.take_waiting htake hphase
    apply Conserved.updateCancelState
    exact ⟨hbase.active, hbase.cap⟩
  | cancelOnShard id =>
    obtain ⟨closed, waiters, f, rfl, -⟩ := step_cancelOnShard hstep
    have hbase : Conserved options { pool with closed, waiters } 0 := ⟨h.active, h.cap⟩
    exact hbase.updateCancelState _ _
  | connectSucceeded i =>
    obtain ⟨caller, base, htake, hphase, rfl⟩ := step_connectSucceeded hstep
    exact (h.take_connecting htake hphase).opened.wakeOne.startExchange
  | connectFailed i =>
    obtain ⟨caller, base, htake, hphase, rfl⟩ := step_connectFailed hstep
    exact (h.take_connecting htake hphase).connectFailed
  | exchanged i result =>
    obtain ⟨caller, base, connection, f, htake, hphase, rfl | rfl⟩ := step_exchanged hstep
    · exact ((h.take_exchanging htake hphase).updateCancelState _ _).returnIdle connection
    · exact ((h.take_exchanging htake hphase).updateCancelState _ _).lose
  | preconnect request targetCount =>
    obtain ⟨nextCall, launched, worker, n, hworker, rfl⟩ := step_preconnect hstep
    refine ⟨?_, h.cap⟩
    have hactive := h.active
    simp only [Pool.connects, Pool.exchanges, List.countP_append, List.countP_replicate,
      hworker] at hactive ⊢
    simpa using hactive
  | workerStarts i =>
    obtain ⟨worker, base, htake, hworker, rfl⟩ := step_workerStarts hstep
    have hbase := h.takeWorker htake
    rw [hworker] at hbase
    exact hbase.workerPass
  | workerConnected i =>
    obtain ⟨worker, base, htake, hworker, rfl⟩ := step_workerConnected hstep
    exact ((h.take_worker htake hworker).opened.returnIdle _).workerPass
  | workerFailed i =>
    obtain ⟨worker, base, htake, hworker, rfl⟩ := step_workerFailed hstep
    exact (h.take_worker htake hworker).connectFailed

/-! ### Resets and evictions -/

namespace Pool

/-- `reset_connections` for one side. The connects in flight and the connections that
requests hold stay as they are. -/
def resetConnections (pool : Pool) : Pool :=
  { pool with
    idle := []
    active := if pool.idle.length > pool.active then 0 else pool.active - pool.idle.length
    connecting := 0
    reservedIdle := 0 }.wakeOne

/-- `pool_idle` for one side. -/
def isIdle (pool : Pool) : Bool := pool.active == pool.idle.length && pool.queue.isEmpty

/-- `close_pool_idle` for one side. -/
def closePoolIdle (pool : Pool) : Pool :=
  { pool with idle := [], active := 0, connecting := 0, reservedIdle := 0 }

end Pool

/-- A reset takes the idle connections off `active`, and nothing else. -/
theorem Conserved.resetConnections (h : Conserved options pool 0) :
    Conserved options pool.resetConnections 0 := by
  have hactive : pool.active = pool.idle.length + pool.connects + pool.exchanges + 0 := h.active
  have hcap := h.cap
  have hreset : Conserved options
      { pool with
        idle := []
        active := if pool.idle.length > pool.active then 0 else pool.active - pool.idle.length
        connecting := 0
        reservedIdle := 0 } 0 := by
    have hle : ¬ pool.idle.length > pool.active := by omega
    refine ⟨?_, ?_⟩
    · simp only [Pool.connects, Pool.exchanges, if_neg hle, List.length_nil] at hactive ⊢
      omega
    · simp only [if_neg hle]
      omega
  exact hreset.wakeOne

/-- An idle side has no connection but the idle ones, so all counters may be cleared. -/
theorem Conserved.closePoolIdle (h : Conserved options pool 0) (hidle : pool.isIdle = true) :
    Conserved options pool.closePoolIdle 0 := by
  have hactive : pool.active = pool.idle.length + pool.connects + pool.exchanges + 0 := h.active
  simp only [Pool.isIdle, Bool.and_eq_true, beq_iff_eq] at hidle
  refine ⟨?_, Nat.zero_le _⟩
  simp only [Pool.connects, Pool.exchanges, Pool.closePoolIdle, List.length_nil] at hactive ⊢
  omega

/-! ### The origin pool -/

/-- The two sides of an origin and its TLS actors, whose connections are their own. -/
structure OriginPool where
  plain : Pool := {}
  tls : Pool := {}
  h1TlsActors : Nat := 0

/-- The steps of an origin pool. -/
inductive OriginAction where
  | plain (action : Action)
  | tls (action : Action)
  /-- A request of the actors fills their list up to a target. -/
  | startActors (target : Nat)
  | resetConnections
  /-- The origin is evicted. Requests that have found the pool before go on using it. -/
  | evict

namespace OriginPool

/-- `pool_idle` -/
def poolIdle (pool : OriginPool) : Bool :=
  pool.plain.isIdle && pool.tls.isIdle && pool.h1TlsActors == 0

/-- One step of an origin pool. -/
def step (options : PoolOptions) (pool : OriginPool) : OriginAction → Option OriginPool
  | .plain action => (H1.step options pool.plain action).map fun plain => { pool with plain }
  | .tls action => (H1.step options pool.tls action).map fun tls => { pool with tls }
  | .startActors target =>
    some { pool with h1TlsActors := max pool.h1TlsActors (max 1 (min target 256)) }
  | .resetConnections =>
    some
      { plain := pool.plain.resetConnections
        tls := pool.tls.resetConnections
        h1TlsActors := 0 }
  | .evict =>
    if pool.poolIdle then
      some { pool with plain := pool.plain.closePoolIdle, tls := pool.tls.closePoolIdle }
    else none

/-- Both sides count their connections. -/
def BothConserved (options : PoolOptions) (pool : OriginPool) : Prop :=
  Conserved options pool.plain 0 ∧ Conserved options pool.tls 0

theorem BothConserved.step {pool pool' : OriginPool} {a : OriginAction}
    (h : pool.BothConserved options) (hstep : pool.step options a = some pool') :
    pool'.BothConserved options := by
  cases a with
  | plain action =>
    obtain ⟨plain, hplain, rfl⟩ := Option.map_eq_some_iff.mp hstep
    exact ⟨h.1.step hplain, h.2⟩
  | tls action =>
    obtain ⟨tls, htls, rfl⟩ := Option.map_eq_some_iff.mp hstep
    exact ⟨h.1, h.2.step htls⟩
  | startActors target =>
    obtain rfl := Option.some.inj hstep
    exact h
  | resetConnections =>
    obtain rfl := Option.some.inj hstep
    exact ⟨h.1.resetConnections, h.2.resetConnections⟩
  | evict =>
    simp only [OriginPool.step] at hstep
    split_ifs at hstep with hidle
    obtain rfl := Option.some.inj hstep
    simp only [poolIdle, Bool.and_eq_true] at hidle
    exact ⟨h.1.closePoolIdle hidle.1.1, h.2.closePoolIdle hidle.1.2⟩

end OriginPool

/-- In every run of an origin pool each side's `active` counts its idle connections,
its connects in flight and the connections its requests hold, and stays within the
limit. -/
theorem connections_conserved (options : PoolOptions) (actions : List OriginAction)
    {pool : OriginPool} (hrun : exec (OriginPool.step options) {} actions = some pool) :
    (pool.plain.active =
        pool.plain.idle.length + pool.plain.connects + pool.plain.exchanges ∧
      pool.plain.active ≤ max 1 options.maxConnectionsPerOrigin) ∧
    (pool.tls.active =
        pool.tls.idle.length + pool.tls.connects + pool.tls.exchanges ∧
      pool.tls.active ≤ max 1 options.maxConnectionsPerOrigin) := by
  have hboth : pool.BothConserved options :=
    invariant_of_reaches (fun _ _ _ h hstep => OriginPool.BothConserved.step h hstep)
      ⟨conserved_empty, conserved_empty⟩ ⟨actions, hrun⟩
  exact ⟨⟨hboth.1.active, hboth.1.cap⟩, ⟨hboth.2.active, hboth.2.cap⟩⟩

/-- A reset finds one idle connection, one that a request holds and two connects in
flight, one of them on the plain side. -/
def resetWhileBusy : List OriginAction :=
  [.tls (.acquire {} false false), .tls (.connectSucceeded 0), .tls (.acquire {} false false),
    .tls (.connectSucceeded 1), .tls (.exchanged 0 .success), .plain (.acquire {} false false),
    .tls (.preconnect {} 2), .tls (.workerStarts 0), .resetConnections,
    .tls (.workerConnected 1), .plain (.connectFailed 0)]

theorem connections_conserved_resetWhileBusy :
    ∃ pool, exec (OriginPool.step {}) {} resetWhileBusy = some pool ∧
      pool.plain.active = pool.plain.idle.length + pool.plain.connects + pool.plain.exchanges ∧
      pool.tls.active = pool.tls.idle.length + pool.tls.connects + pool.tls.exchanges ∧
      pool.tls.active = 3 := by
  obtain ⟨pool, hrun, hthree⟩ : ∃ pool, exec (OriginPool.step {}) {} resetWhileBusy = some pool ∧
      pool.tls.active = 3 := ⟨_, rfl, rfl⟩
  obtain ⟨hplain, htls⟩ := connections_conserved {} resetWhileBusy hrun
  exact ⟨pool, hrun, hplain.1, htls.1, hthree⟩

end HttpClient.H1
