import HttpClient.H1.OriginPool

/-!
# The limit on connects

`connecting` is there to limit the connects that are in flight at a time. Every connect counts
itself in and out again. A reset sets the counter to zero while connects are suspended; when
these are over they take off one each, as long as there is something to take off, and may take
off what later connects have counted. From a reset with connects in flight on, `connecting` is
too small, and more connects are let in than the limit allows.

## Main definitions

* `Counted` — `connecting` counts the connects in flight, and respects the limit
* `OriginPool.ResetsQuiet` — the resets that find no connect in flight

## Main results

* `Counted.step` — one step of a side
* `connect_limit_iff` — the runs of an origin pool in which both sides respect the limit
-/

set_option autoImplicit false

namespace HttpClient.H1

open Semantics

variable {options : PoolOptions} {pool pool' : Pool} {caller : Caller} {worker : Worker}
  {held i : Nat}

/-- `connecting` counts the connects in flight and the `held` one of the coroutine that is
running, and is within its limit. -/
structure Counted (options : PoolOptions) (pool : Pool) (held : Nat) : Prop where
  counted : pool.connecting = pool.connects + held
  limit : pool.connecting ≤ options.maxConnecting

theorem counted_empty : Counted options {} 0 := ⟨rfl, Nat.zero_le _⟩

/-- Only the two counts matter. -/
theorem Counted.of_eq (h : Counted options pool held)
    (hconnecting : pool'.connecting = pool.connecting)
    (hconnects : pool'.connects = pool.connects) : Counted options pool' held := by
  refine ⟨?_, ?_⟩
  · rw [hconnecting, hconnects]
    exact h.counted
  · rw [hconnecting]
    exact h.limit

theorem Counted.updateCancelState (h : Counted options pool held) (cancelState : Option Nat)
    (f : CancelState → CancelState) :
    Counted options (pool.updateCancelState cancelState f) held := by
  cases cancelState with
  | none => exact h
  | some id => exact h.of_eq rfl rfl

/-! ### Counting in and out -/

/-- A connect is over. -/
theorem Counted.connectEnds (h : Counted options pool 1) :
    Counted options { pool with connecting := pool.connecting - 1 } 0 := by
  have hcounted : pool.connecting = pool.connects + 1 := h.counted
  refine ⟨?_, (Nat.sub_le _ _).trans h.limit⟩
  simp only [Pool.connects] at hcounted ⊢
  omega

/-- A connect starts, below the limit. -/
theorem Counted.connectStarts (h : Counted options pool 0)
    (hbelow : pool.connecting < options.maxConnecting) :
    Counted options
      { pool with active := pool.active + 1, connecting := pool.connecting + 1 } 1 := by
  have hcounted : pool.connecting = pool.connects + 0 := h.counted
  refine ⟨?_, hbelow⟩
  simp only [Pool.connects] at hcounted ⊢
  omega

theorem Counted.takeCaller (h : Counted options pool 0)
    (htake : pool.takeCaller i = some (caller, pool')) :
    Counted options pool' (if caller.isConnecting then 1 else 0) := by
  have hcount := countP_takeCaller htake Caller.isConnecting
  have hcounted := h.counted
  obtain ⟨-, heq⟩ := takeCaller_perm htake
  rw [heq]
  refine ⟨?_, h.limit⟩
  simp only [Pool.connects] at hcounted ⊢
  omega

theorem Counted.takeWorker (h : Counted options pool 0)
    (htake : pool.takeWorker i = some (worker, pool')) :
    Counted options pool' (if worker.connecting then 1 else 0) := by
  obtain ⟨hperm, heq⟩ := takeWorker_perm htake
  have hcount := hperm.countP_eq Worker.connecting
  rw [List.countP_cons] at hcount
  have hcounted := h.counted
  rw [heq]
  refine ⟨?_, h.limit⟩
  simp only [Pool.connects] at hcounted ⊢
  omega

/-- A request that suspends takes its connect with it. -/
theorem Counted.suspend {phase : Phase} (h : Counted options pool held)
    (hheld : held = if { caller with phase }.isConnecting then 1 else 0) :
    Counted options (pool.suspend caller phase) 0 := by
  have hcounted := h.counted
  refine ⟨?_, h.limit⟩
  simp only [Pool.connects, Pool.suspend, List.countP_append, List.countP_singleton] at hcounted ⊢
  omega

theorem Counted.startExchange {connection : Connection} (h : Counted options pool 0) :
    Counted options (pool.startExchange caller connection) 0 :=
  (h.updateCancelState _ _).suspend rfl

theorem Counted.enqueue (h : Counted options pool 0) : Counted options (pool.enqueue caller) 0 := by
  have hbase := h.updateCancelState caller.cancelState fun state =>
    { state with waiter := some pool.nextWaiter }
  unfold Pool.enqueue
  dsimp only
  split_ifs with hcancelled
  · exact hbase.of_eq rfl rfl
  · exact Counted.suspend (hbase.of_eq rfl rfl) rfl

theorem Counted.acquirePass (h : Counted options pool 0) (woke reserved : Bool) :
    Counted options (pool.acquirePass options caller woke reserved) 0 := by
  unfold Pool.acquirePass
  rcases attempt_cases options pool woke reserved with ⟨connection, -, -, heq⟩ | ⟨-, heq⟩
  · rw [heq]
    exact Counted.startExchange (h.of_eq rfl rfl)
  · rw [heq]
    have hdrop : Counted options (pool.dropReservation reserved) 0 := by
      unfold Pool.dropReservation
      split_ifs
      · exact h.of_eq rfl rfl
      · exact h
    cases hmay : (pool.dropReservation reserved).mayConnect options woke with
    | true =>
      -- a connect starts only below the limit
      simp only [Pool.mayConnect, Bool.and_eq_true, decide_eq_true_eq] at hmay
      exact (hdrop.connectStarts hmay.1.2).suspend rfl
    | false => exact hdrop.enqueue

theorem Counted.workerPass (h : Counted options pool 0) :
    Counted options (pool.workerPass options worker) 0 := by
  unfold Pool.workerPass
  split_ifs with hstop
  · exact h
  dsimp only
  split_ifs with hdone
  · exact h.of_eq rfl rfl
  · -- a worker connects under the same limit as a request
    push Not at hstop
    have hstarted := h.connectStarts hstop.2.2
    have hcounted := hstarted.counted
    refine ⟨?_, hstarted.limit⟩
    simp only [Pool.connects, List.countP_append, List.countP_singleton, if_true] at hcounted ⊢
    omega

/-! ### One step of a side -/

theorem Counted.take_waiting {w : Nat} (h : Counted options pool 0)
    (htake : pool.takeCaller i = some (caller, pool')) (hphase : caller.phase = .waiting w) :
    Counted options pool' 0 := by
  simpa [Caller.isConnecting, hphase] using h.takeCaller htake

theorem Counted.take_connecting (h : Counted options pool 0)
    (htake : pool.takeCaller i = some (caller, pool')) (hphase : caller.phase = .connecting) :
    Counted options pool' 1 := by
  simpa [Caller.isConnecting, hphase] using h.takeCaller htake

theorem Counted.take_exchanging {connection : Connection} (h : Counted options pool 0)
    (htake : pool.takeCaller i = some (caller, pool'))
    (hphase : caller.phase = .exchanging connection) : Counted options pool' 0 := by
  simpa [Caller.isConnecting, hphase] using h.takeCaller htake

theorem Counted.take_worker (h : Counted options pool 0)
    (htake : pool.takeWorker i = some (worker, pool')) (hworker : worker.connecting = true) :
    Counted options pool' 1 := by
  simpa [hworker] using h.takeWorker htake

/-- Every step of a side keeps the connects counted. -/
theorem Counted.step {a : Action} (h : Counted options pool 0)
    (hstep : step options pool a = some pool') : Counted options pool' 0 := by
  cases a with
  | acquire request cancelled handler =>
    obtain rfl := Option.some.inj hstep
    have hbase : Counted options { pool with nextCancelState := pool.nextCancelState + 1 } 0 :=
      h.of_eq rfl rfl
    exact hbase.acquirePass false false
  | resume i =>
    obtain ⟨caller, base, w, htake, hphase, -, rfl⟩ := step_resume hstep
    exact ((h.take_waiting htake hphase).updateCancelState _ _).acquirePass _ _
  | expire i =>
    obtain ⟨caller, base, w, htake, hphase, rfl⟩ := step_expire hstep
    exact (h.take_waiting htake hphase).updateCancelState _ _
  | cancelSignal i =>
    obtain ⟨caller, base, htake, rfl⟩ := step_cancelSignal hstep
    change Counted options (base.suspend { caller with cancelled := true } caller.phase) 0
    exact (h.takeCaller htake).suspend rfl
  | abortWait i =>
    obtain ⟨caller, base, w, htake, hphase, -, rfl⟩ := step_abortWait hstep
    have hbase := h.take_waiting htake hphase
    apply Counted.updateCancelState
    exact hbase.of_eq rfl rfl
  | cancelOnShard id =>
    obtain ⟨closed, waiters, f, rfl, -⟩ := step_cancelOnShard hstep
    apply Counted.updateCancelState
    exact h.of_eq rfl rfl
  | connectSucceeded i =>
    obtain ⟨caller, base, htake, hphase, rfl⟩ := step_connectSucceeded hstep
    have hends := (h.take_connecting htake hphase).connectEnds
    exact Counted.startExchange (hends.of_eq rfl rfl)
  | connectFailed i =>
    obtain ⟨caller, base, htake, hphase, rfl⟩ := step_connectFailed hstep
    exact (h.take_connecting htake hphase).connectEnds.of_eq rfl rfl
  | exchanged i result =>
    obtain ⟨caller, base, connection, f, htake, hphase, rfl | rfl⟩ := step_exchanged hstep
    · exact ((h.take_exchanging htake hphase).updateCancelState _ _).of_eq rfl rfl
    · exact ((h.take_exchanging htake hphase).updateCancelState _ _).of_eq rfl rfl
  | preconnect request targetCount =>
    obtain ⟨nextCall, launched, worker, n, hworker, rfl⟩ := step_preconnect hstep
    refine h.of_eq rfl ?_
    simp [Pool.connects, List.countP_replicate, hworker]
  | workerStarts i =>
    obtain ⟨worker, base, htake, hworker, rfl⟩ := step_workerStarts hstep
    have hbase := h.takeWorker htake
    rw [hworker] at hbase
    exact hbase.workerPass
  | workerConnected i =>
    obtain ⟨worker, base, htake, hworker, rfl⟩ := step_workerConnected hstep
    have hends := (h.take_worker htake hworker).connectEnds
    exact Counted.workerPass (hends.of_eq rfl rfl)
  | workerFailed i =>
    obtain ⟨worker, base, htake, hworker, rfl⟩ := step_workerFailed hstep
    exact (h.take_worker htake hworker).connectEnds.of_eq rfl rfl

/-! ### Resets and evictions -/

/-- After a reset the connects are counted if and only if there are none. -/
theorem counted_resetConnections_iff :
    Counted options pool.resetConnections 0 ↔ pool.connects = 0 := by
  constructor
  · intro h
    exact h.counted.symm
  · intro hnone
    exact ⟨hnone.symm, Nat.zero_le _⟩

/-- In a side that looks idle no connect is in flight. -/
theorem Counted.closePoolIdle (hconserved : Conserved options pool 0) (hidle : pool.isIdle = true) :
    Counted options pool.closePoolIdle 0 := by
  have hactive : pool.active = pool.idle.length + pool.connects + pool.exchanges + 0 :=
    hconserved.active
  simp only [Pool.isIdle, Bool.and_eq_true, beq_iff_eq] at hidle
  have hnone : pool.connects = 0 := by omega
  exact ⟨hnone.symm, Nat.zero_le _⟩

namespace OriginPool

variable {pool pool' : OriginPool}

/-- Both sides count their connects. -/
def BothCounted (options : PoolOptions) (pool : OriginPool) : Prop :=
  Counted options pool.plain 0 ∧ Counted options pool.tls 0

/-- A reset finds no connect in flight. -/
def ResetsQuiet (pool : OriginPool) : OriginAction → Prop
  | .resetConnections => pool.plain.connects = 0 ∧ pool.tls.connects = 0
  | _ => True

instance : ∀ a, Decidable (pool.ResetsQuiet a)
  | .resetConnections => inferInstanceAs (Decidable (_ ∧ _))
  | .plain _ | .tls _ | .startActors _ | .evict => isTrue trivial

/-- A step keeps the connects counted if and only if it is no reset that finds some. -/
theorem resetsQuiet_iff {a : OriginAction} (hconserved : pool.BothConserved options)
    (h : pool.BothCounted options) (hstep : pool.step options a = some pool') :
    pool.ResetsQuiet a ↔ pool'.BothCounted options := by
  cases a with
  | plain action =>
    obtain ⟨plain, hplain, rfl⟩ := Option.map_eq_some_iff.mp hstep
    exact iff_of_true trivial ⟨h.1.step hplain, h.2⟩
  | tls action =>
    obtain ⟨tls, htls, rfl⟩ := Option.map_eq_some_iff.mp hstep
    exact iff_of_true trivial ⟨h.1, h.2.step htls⟩
  | startActors target =>
    obtain rfl := Option.some.inj hstep
    exact iff_of_true trivial h
  | resetConnections =>
    -- the count is set to zero, and the connects go on
    obtain rfl := Option.some.inj hstep
    exact and_congr counted_resetConnections_iff.symm counted_resetConnections_iff.symm
  | evict =>
    -- a pool is evicted only while both sides look idle
    simp only [OriginPool.step] at hstep
    split_ifs at hstep with hidle
    obtain rfl := Option.some.inj hstep
    simp only [poolIdle, Bool.and_eq_true] at hidle
    refine iff_of_true trivial ⟨?_, ?_⟩
    · exact Counted.closePoolIdle hconserved.1 hidle.1.1
    · exact Counted.closePoolIdle hconserved.2 hidle.1.2

/-- On both sides `connecting` is the number of connects in flight, which the limit bounds. -/
def WithinLimit (options : PoolOptions) (pool : OriginPool) : Prop :=
  (pool.plain.connecting = pool.plain.connects ∧
      pool.plain.connects ≤ max 1 options.maxConnectingPerOrigin) ∧
    pool.tls.connecting = pool.tls.connects ∧
      pool.tls.connects ≤ max 1 options.maxConnectingPerOrigin

theorem bothCounted_iff : pool.BothCounted options ↔ pool.WithinLimit options := by
  have hside (side : Pool) : Counted options side 0 ↔
      side.connecting = side.connects ∧ side.connects ≤ max 1 options.maxConnectingPerOrigin := by
    constructor
    · rintro ⟨hcounted, hlimit⟩
      rw [Nat.add_zero] at hcounted
      exact ⟨hcounted, hcounted ▸ hlimit⟩
    · rintro ⟨hcounted, hlimit⟩
      exact ⟨hcounted, hcounted.trans_le hlimit⟩
  exact and_congr (hside pool.plain) (hside pool.tls)

end OriginPool

/-- In every state of a run `connecting` is the number of connects in flight, within its limit,
on both sides, if and only if no reset of the run finds a connect in flight. -/
theorem connect_limit_iff (options : PoolOptions) (actions : List OriginAction)
    {pool : OriginPool} (hrun : exec (OriginPool.step options) {} actions = some pool) :
    Along (OriginPool.step options) OriginPool.ResetsQuiet {} actions ↔
      ∀ before after reached, actions = before ++ after →
        exec (OriginPool.step options) {} before = some reached → reached.WithinLimit options := by
  have hempty : OriginPool.WithinLimit options {} :=
    OriginPool.bothCounted_iff.mp ⟨counted_empty, counted_empty⟩
  refine along_iff_throughout_of_invariant
    (fun _ _ _ h hstep => OriginPool.BothConserved.step h hstep) ?_
    ⟨conserved_empty, conserved_empty⟩ hempty hrun
  intro s a t hs hwithin hstep
  rw [← OriginPool.bothCounted_iff]
  exact OriginPool.resetsQuiet_iff hs (OriginPool.bothCounted_iff.mpr hwithin) hstep

/-- A reset between two connects. -/
def resetBetweenConnects : List OriginAction :=
  [.plain (.acquire {} false false), .plain (.connectSucceeded 0), .resetConnections,
    .plain (.acquire {} false false)]

theorem connect_limit_resetBetweenConnects :
    ∃ pool, exec (OriginPool.step {}) {} resetBetweenConnects = some pool ∧
      pool.WithinLimit {} := by
  refine ⟨_, rfl, ?_⟩
  exact (connect_limit_iff {} resetBetweenConnects rfl).mp (by decide) resetBetweenConnects [] _
    rfl rfl

/-- A reset while a connect is in flight lets another one in, where only one at a time is
allowed. -/
theorem connects_over_limit :
    ∃ options pool, exec (OriginPool.step options) {}
        [.plain (.acquire {} false false), .resetConnections,
          .plain (.acquire {} false false)] = some pool ∧
      pool.plain.connecting = 1 ∧ pool.plain.connects = 2 ∧
        max 1 options.maxConnectingPerOrigin = 1 :=
  ⟨{ maxConnectingPerOrigin := 1 }, _, rfl, rfl, rfl, rfl⟩

end HttpClient.H1
