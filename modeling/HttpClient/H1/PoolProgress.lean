import HttpClient.H1.PoolAccounts

/-!
# A pool never gets stuck

While requests wait in line somebody is left who will wake them: a request that
holds a connection, a connect in flight or a woken request that has not resumed.
So in a quiet state nobody waits and nothing is reserved.

Two steps break this. A wait that ends by the pool timeout leaves its waiter in line,
or drops the wake-up it has been given. A request whose cancellation has already been
signalled queues a waiter and then throws instead of waiting on it.

## Main definitions

* `Pool.Quiescent` — no request holds a connection, connects or is about to resume
* `Pool.Unstuck` — the line is empty and the next request need not queue
* `Orderly` — the steps that keep the line in order

## Main results

* `PoolInv.step` — an orderly step keeps the accounts and leaves somebody to wake
  those in line
* `unstuck_of_quiescent` — an orderly run never gets stuck
* `stuck_after_pool_timeout` — a pool timeout can block the pool for good
-/

set_option autoImplicit false

namespace HttpClient.H1

open Semantics

variable {pool pool' : Pool} {hand : Hand} {caller : Caller} {worker : Worker}
  {options : PoolOptions} {i : Nat}

/-- The coroutines that will wake a waiter when they are done. -/
def Pool.wakers (pool : Pool) : Nat := pool.connects + pool.exchanges + pool.woken

/-- The accounts balance, and whoever waits in line has somebody to be woken by. -/
structure PoolInv (pool : Pool) : Prop where
  accounts : Accounts pool {}
  progress : pool.queue ≠ [] → 0 < pool.wakers

/-! ### Passes leave a waker -/

theorem wakers_pos_of_someone (h : pool.queue = [] ∨ 0 < pool.woken) :
    pool.queue ≠ [] → 0 < pool.wakers := by
  intro hne
  rcases h with hnil | hpos
  · exact absurd hnil hne
  · exact Nat.lt_of_lt_of_le hpos (Nat.le_add_left _ _)

theorem wakers_updateCancelState (pool : Pool) (cancelState : Option Nat)
    (f : CancelState → CancelState) :
    (pool.updateCancelState cancelState f).wakers = pool.wakers := by
  cases cancelState <;> rfl

theorem mustWait_updateCancelState {cancelState : Option Nat} {f : CancelState → CancelState}
    {woke reserved : Bool} :
    (pool.updateCancelState cancelState f).MustWait options woke reserved ↔
      pool.MustWait options woke reserved := by
  cases cancelState <;> rfl

theorem wakers_startExchange_pos {connection : Connection} :
    0 < (pool.startExchange caller connection).wakers := by
  have hexchanges : 0 < (pool.startExchange caller connection).exchanges := by
    simp [Pool.exchanges, Pool.startExchange, Pool.suspend, Caller.isExchanging]
  unfold Pool.wakers
  omega

theorem wakers_suspend_connecting_pos : 0 < (pool.suspend caller .connecting).wakers := by
  have hconnects : 0 < (pool.suspend caller .connecting).connects := by
    simp only [Pool.connects, Pool.suspend, List.countP_append, List.countP_singleton,
      Caller.isConnecting, beq_self_eq_true, if_true]
    omega
  unfold Pool.wakers
  omega

theorem wakers_enqueue (h : Accounts pool {}) (hlive : caller.cancelled = false) :
    (pool.enqueue caller).wakers = pool.wakers := by
  have hbase (f : CancelState → CancelState) :
      (pool.updateCancelState caller.cancelState f).waitersOn pool.nextWaiter = 0 := by
    cases caller.cancelState <;> exact h.fresh _ le_rfl
  unfold Pool.enqueue
  simp only [hlive, Bool.false_eq_true, if_false]
  rw [← wakers_updateCancelState pool caller.cancelState
    fun state => { state with waiter := some pool.nextWaiter }]
  simp only [Pool.wakers, Pool.connects, Pool.exchanges, Pool.woken, Pool.suspend,
    List.countP_append, List.countP_singleton]
  rw [countP_waiterSatisfies_of_nobody (hbase _)]
  simp [Caller.isConnecting, Caller.isExchanging, Caller.waiterSatisfies]

/-- A reservation belongs to a woken request. -/
theorem Pool.reserved_le_woken (pool : Pool) : pool.reserved ≤ pool.woken := by
  refine List.countP_mono_left fun caller _ => ?_
  unfold Caller.isReserved Caller.isWoken Caller.waiterSatisfies
  cases caller.phase with
  | waiting w => simp +contextual
  | connecting => simp
  | exchanging connection => simp

/-- Whoever must wait finds a waker: all places are taken by others, or the idle
connections are reserved for woken requests, or there is a line already. -/
theorem wakers_pos_of_mustWait {woke : Bool} (h : Accounts pool {})
    (hline : woke = false → pool.queue ≠ [] → 0 < pool.wakers)
    (hwait : pool.MustWait options woke false) : 0 < pool.wakers := by
  obtain ⟨hnone, hconnect⟩ := hwait
  have hmax : 0 < options.maxConnections := Nat.lt_of_lt_of_le Nat.one_pos (le_max_left _ _)
  have hmax' : 0 < options.maxConnecting := Nat.lt_of_lt_of_le Nat.one_pos (le_max_left _ _)
  have hactive : pool.active =
    pool.idle.length + pool.connecting + pool.exchanges + 0 := h.active
  have hconnecting : pool.connecting = pool.connects + 0 := h.connecting
  have hreserved : pool.reservedIdle = pool.reserved + 0 := h.reserved
  have hle := pool.reserved_le_woken
  by_cases hzero : pool.reservedIdle = 0
  swap
  · unfold Pool.wakers
    omega
  by_cases hempty : pool.queue = [] ∨ woke = true
  swap
  · have hne : pool.queue ≠ [] := fun hnil => hempty (Or.inl hnil)
    have hwoke : woke = false := by simpa using fun htrue => hempty (Or.inr htrue)
    exact hline hwoke hne
  -- Nothing is reserved and there is no line to respect: the pool is full.
  have hidle : pool.idle.length = 0 := by
    rcases hnone with hnil | hmay
    · rw [hnil]
      rfl
    · rcases hempty with hnil | hwoke
      · simp [Pool.mayTake, hzero, hnil] at hmay
      · simp [Pool.mayTake, hzero, hwoke] at hmay
  have hfull : options.maxConnections ≤ pool.active ∨ options.maxConnecting ≤ pool.connecting := by
    by_contra hroom
    rw [not_or, Nat.not_le, Nat.not_le] at hroom
    rcases hempty with hnil | hwoke
    · simp [Pool.mayConnect, hroom, hzero, hnil] at hconnect
    · simp [Pool.mayConnect, hroom, hwoke] at hconnect
  unfold Pool.wakers
  omega

/-- After a pass through the acquire loop there is a waker. -/
theorem wakers_acquirePass_pos {woke reserved : Bool}
    (h : Accounts pool { reserved := if reserved then 1 else 0 })
    (hlive : caller.cancelled = true → ¬ pool.MustWait options woke reserved)
    (hline : woke = false → pool.queue ≠ [] → 0 < pool.wakers) :
    0 < (pool.acquirePass options caller woke reserved).wakers := by
  unfold Pool.acquirePass
  rcases attempt_cases options pool woke reserved with
    ⟨connection, hidle, hmay, heq⟩ | ⟨hnone, heq⟩
  · rw [heq]
    exact wakers_startExchange_pos
  · have hfalse := h.not_reserved_of_none hnone
    subst hfalse
    rw [dropReservation_of_not_reserved] at heq
    rw [heq]
    cases hmay : pool.mayConnect options woke with
    | true => exact wakers_suspend_connecting_pos
    | false =>
      have hcancelled : caller.cancelled = false := by
        cases hc : caller.cancelled with
        | false => rfl
        | true => exact absurd ⟨hnone, hmay⟩ (hlive hc)
      have haccounts : Accounts pool {} := by simpa using h
      show 0 < (pool.enqueue caller).wakers
      rw [wakers_enqueue haccounts hcancelled]
      exact wakers_pos_of_mustWait haccounts hline ⟨hnone, hmay⟩

theorem wakers_le_workerPass : pool.wakers ≤ (pool.workerPass options worker).wakers := by
  unfold Pool.workerPass
  split_ifs
  · exact le_rfl
  dsimp only
  split_ifs
  · exact le_rfl
  · simp only [Pool.wakers, Pool.connects, Pool.exchanges, Pool.woken, List.countP_append]
    omega

theorem queue_workerPass : (pool.workerPass options worker).queue = pool.queue := by
  unfold Pool.workerPass
  split_ifs
  · rfl
  dsimp only
  split_ifs <;> rfl

/-! ### Steps -/

/-- The steps that keep the line in order: no wait ends by the pool timeout, and no
request whose cancellation has already been signalled would have to wait. -/
def Orderly (options : PoolOptions) (pool : Pool) : Action → Prop
  | .acquire _ cancelled _ => cancelled = true → ¬ pool.MustWait options false false
  | .resume i => ∀ caller ∈ pool.callers[i]?, ∀ w, caller.phase = .waiting w →
      caller.cancelled = true → ¬ pool.MustWait options true (pool.waiters w).reservedIdle
  | .expire _ => False
  | _ => True

/-- A request that has been woken, or waits on nothing, is not in line. -/
theorem Accounts.not_in_line (h : Accounts pool {})
    (hcaller : ∀ w, caller.phase = .waiting w → (pool.waiters w).woken = true) :
    ∀ w ∈ pool.queue, caller.waitsOn w = false := by
  intro w hw
  have hunwoken := (h.queued w hw).1
  cases hwaits : caller.waitsOn w with
  | false => rfl
  | true =>
    have hphase : caller.phase = .waiting w := by simpa [Caller.waitsOn] using hwaits
    rw [hcaller w hphase] at hunwoken
    exact absurd hunwoken (by decide)

theorem PoolInv.acquire {request : Request} {cancelled handler : Bool} (h : PoolInv pool)
    (hok : Orderly options pool (.acquire request cancelled handler))
    (hstep : step options pool (.acquire request cancelled handler) = some pool') :
    PoolInv pool' := by
  obtain rfl := Option.some.inj hstep
  have haccounts : Accounts { pool with nextCancelState := pool.nextCancelState + 1 }
      { reserved := if false then 1 else 0 } :=
    ⟨h.accounts.connecting, h.accounts.active, h.accounts.reserved, h.accounts.reserved_le,
      h.accounts.nodup, h.accounts.queued, h.accounts.unique, h.accounts.fresh⟩
  exact ⟨haccounts.acquirePass hok, fun _ =>
    wakers_acquirePass_pos haccounts hok fun _ => h.progress⟩

theorem PoolInv.resume (h : PoolInv pool) (hok : Orderly options pool (.resume i))
    (hstep : step options pool (.resume i) = some pool') : PoolInv pool' := by
  obtain ⟨caller, base, w, htake, hphase, hwoken, rfl⟩ := step_resume hstep
  obtain ⟨hperm, heq⟩ := takeCaller_perm htake
  have hwaiters : base.waiters = pool.waiters := by rw [heq]
  have hcaller : ∀ v, caller.phase = .waiting v → (pool.waiters v).woken = true := by
    intro v hv
    obtain rfl := Phase.waiting.inj (hphase.symm.trans hv)
    rw [← hwaiters, hwoken]
  have hbase := h.accounts.takeCaller htake (h.accounts.not_in_line hcaller)
  have hhand : caller.inHand pool.waiters =
      { reserved := if (base.waiters w).reservedIdle then 1 else 0 } := by
    simp [Caller.inHand, Caller.isConnecting, Caller.isExchanging, Caller.waiterSatisfies,
      hphase, ← hwaiters, hwoken]
  rw [hhand] at hbase
  have hlive : caller.cancelled = true → ¬ (base.updateCancelState caller.cancelState
      fun state => { state with waiter := none }).MustWait options true
        (base.waiters w).reservedIdle := by
    intro hcancelled
    rw [mustWait_updateCancelState]
    have hat : caller ∈ pool.callers[i]? := by
      obtain ⟨c, hc, hpair⟩ := Option.map_eq_some_iff.mp htake
      exact (Prod.mk.inj hpair).1 ▸ hc
    have hnot := hok caller hat w hphase hcancelled
    rw [hwaiters, heq]
    exact hnot
  have haccounts := (accounts_updateCancelState caller.cancelState
    fun state => { state with waiter := none }).mpr hbase
  exact ⟨haccounts.acquirePass hlive, fun _ =>
    wakers_acquirePass_pos haccounts hlive fun hfalse => absurd hfalse (by decide)⟩

theorem PoolInv.cancelSignal (h : PoolInv pool)
    (hstep : step options pool (.cancelSignal i) = some pool') : PoolInv pool' := by
  obtain ⟨caller, base, htake, rfl⟩ := step_cancelSignal hstep
  obtain ⟨hperm, heq⟩ := takeCaller_perm htake
  -- The caller keeps its phase, and nothing else of it is counted.
  have hcount (p : Caller → Bool) (hp : p { caller with cancelled := true } = p caller) :
      (base.callers ++ [{ caller with cancelled := true }]).countP p = pool.callers.countP p := by
    rw [countP_takeCaller htake p, List.countP_append, List.countP_singleton, hp]
  have hwaiting (w : Nat) := hcount (Caller.waitsOn w) rfl
  have hreserved := hcount (Caller.isReserved pool.waiters) rfl
  have hwoken := hcount (Caller.isWoken pool.waiters) rfl
  have hconnecting := hcount Caller.isConnecting rfl
  have hexchanging := hcount Caller.isExchanging rfl
  rw [heq] at *
  refine ⟨⟨?_, ?_, ?_, h.accounts.reserved_le, h.accounts.nodup, fun w hw => ?_, fun w => ?_,
    fun w hw => ?_⟩, fun hne => ?_⟩
  · simpa only [Pool.connects, hconnecting] using h.accounts.connecting
  · simpa only [Pool.exchanges, hexchanging] using h.accounts.active
  · simpa only [Pool.reserved, hreserved] using h.accounts.reserved
  · simpa only [Pool.waitersOn, hwaiting w] using h.accounts.queued w hw
  · simpa only [Pool.waitersOn, hwaiting w] using h.accounts.unique w
  · simpa only [Pool.waitersOn, hwaiting w] using h.accounts.fresh w hw
  · simpa only [Pool.wakers, Pool.connects, Pool.exchanges, Pool.woken, hconnecting, hexchanging,
      hwoken] using h.progress hne

/-- Updating a waiter's cancelled flag changes nothing that is counted. -/
theorem PoolInv.of_flags {waiters : Nat → Waiter} (closed : List Nat) (h : PoolInv pool)
    (hflags : ∀ w, (waiters w).woken = (pool.waiters w).woken ∧
      (waiters w).reservedIdle = (pool.waiters w).reservedIdle) :
    PoolInv { pool with closed, waiters } := by
  have hwoken : pool.callers.countP (Caller.isWoken waiters) = pool.woken :=
    countP_waiterSatisfies_congr fun w => (hflags w).1
  have hreserved : pool.callers.countP (Caller.isReserved waiters) = pool.reserved :=
    countP_waiterSatisfies_congr fun w => by rw [(hflags w).1, (hflags w).2]
  refine ⟨⟨h.accounts.connecting, h.accounts.active, ?_, h.accounts.reserved_le,
    h.accounts.nodup, fun w hw => ?_, h.accounts.unique, h.accounts.fresh⟩, fun hne => ?_⟩
  · simpa only [Pool.reserved, hreserved] using h.accounts.reserved
  · simp only [hflags w]
    exact h.accounts.queued w hw
  · have hpos := h.progress hne
    simp only [Pool.wakers, Pool.connects, Pool.exchanges, Pool.woken, hwoken] at hpos ⊢
    exact hpos

theorem poolInv_updateCancelState {cancelState : Option Nat} {f : CancelState → CancelState} :
    PoolInv (pool.updateCancelState cancelState f) ↔ PoolInv pool := by
  constructor <;> rintro ⟨haccounts, hprogress⟩ <;>
    refine ⟨by simpa only [accounts_updateCancelState] using haccounts, ?_⟩ <;>
    cases cancelState <;> exact hprogress

theorem PoolInv.cancelOnShard {id : Nat} (h : PoolInv pool)
    (hstep : step options pool (.cancelOnShard id) = some pool') : PoolInv pool' := by
  obtain ⟨closed, waiters, f, rfl, hflags⟩ := step_cancelOnShard hstep
  exact poolInv_updateCancelState.mpr (h.of_flags closed hflags)

/-- A request that has not been woken leaves the line and the pool. -/
theorem PoolInv.leave {w : Nat} (h : PoolInv pool)
    (htake : pool.takeCaller i = some (caller, pool')) (hphase : caller.phase = .waiting w)
    (hunwoken : (pool.waiters w).woken = false) :
    PoolInv { pool' with queue := pool'.queue.filter (· ≠ w) } := by
  have hwaiting (v : Nat) := countP_takeCaller htake (Caller.waitsOn v)
  have hself (v : Nat) : caller.waitsOn v = decide (w = v) := by
    simp only [Caller.waitsOn, hphase]
    exact Bool.eq_iff_iff.mpr (by simp)
  have hreserved := countP_takeCaller htake (Caller.isReserved pool.waiters)
  have hwoken := countP_takeCaller htake (Caller.isWoken pool.waiters)
  have hconnecting := countP_takeCaller htake Caller.isConnecting
  have hexchanging := countP_takeCaller htake Caller.isExchanging
  simp only [Caller.isConnecting, Caller.isExchanging, Caller.waiterSatisfies, hphase, hunwoken,
    beq_iff_eq, reduceCtorEq, Bool.false_and, Bool.false_eq_true, if_false, Nat.add_zero]
    at hconnecting hexchanging hreserved hwoken
  obtain ⟨-, heq⟩ := takeCaller_perm htake
  rw [heq]
  refine ⟨⟨?_, ?_, ?_, h.accounts.reserved_le, h.accounts.nodup.filter _, fun v hv => ?_,
    fun v => ?_, fun v hv => ?_⟩, fun hne => ?_⟩
  · simpa only [Pool.connects, hconnecting] using h.accounts.connecting
  · simpa only [Pool.exchanges, hexchanging] using h.accounts.active
  · simpa only [Pool.reserved, Caller.isReserved, hreserved] using h.accounts.reserved
  · obtain ⟨hmem, hvw⟩ := List.mem_filter.mp hv
    have hne : w ≠ v := fun heq => by simp [heq] at hvw
    have hline := h.accounts.queued v hmem
    have hcount := hwaiting v
    simp only [hself, hne, decide_false, Bool.false_eq_true, if_false, Nat.add_zero] at hcount
    exact ⟨hline.1, hline.2.1, hcount.symm.trans hline.2.2⟩
  · have hone := h.accounts.unique v
    have hcount := hwaiting v
    simp only [Pool.waitersOn] at hone ⊢
    omega
  · have hnone := h.accounts.fresh v hv
    have hcount := hwaiting v
    simp only [Pool.waitersOn] at hnone ⊢
    omega
  · have hpos := h.progress fun hnil => hne (by simp [hnil])
    simp only [Pool.wakers, Pool.connects, Pool.exchanges, Pool.woken, Caller.isWoken,
      hconnecting, hexchanging, hwoken] at hpos ⊢
    exact hpos

theorem PoolInv.abortWait (h : PoolInv pool)
    (hstep : step options pool (.abortWait i) = some pool') : PoolInv pool' := by
  obtain ⟨caller, base, w, htake, hphase, hunwoken, rfl⟩ := step_abortWait hstep
  obtain ⟨-, heq⟩ := takeCaller_perm htake
  have hwaiters : base.waiters = pool.waiters := by rw [heq]
  rw [poolInv_updateCancelState]
  refine PoolInv.of_flags base.closed (h.leave htake hphase (hwaiters ▸ hunwoken))
    fun v => ?_
  rcases eq_or_ne v w with rfl | hne
  · simp
  · simp [hne]

/-! ### Connects, exchanges and workers -/

/-- Taking out a request that is connecting. -/
theorem PoolInv.take_connecting (h : PoolInv pool)
    (htake : pool.takeCaller i = some (caller, pool')) (hphase : caller.phase = .connecting) :
    Accounts pool' { connects := 1 } := by
  have htaken := h.accounts.takeCaller htake
    (h.accounts.not_in_line fun w hw => by simp [hphase] at hw)
  simpa [Caller.inHand, Caller.isConnecting, Caller.isExchanging, Caller.waiterSatisfies,
    hphase] using htaken

/-- Taking out a request that is exchanging. -/
theorem PoolInv.take_exchanging {connection : Connection} (h : PoolInv pool)
    (htake : pool.takeCaller i = some (caller, pool'))
    (hphase : caller.phase = .exchanging connection) :
    Accounts pool' { exchanges := 1 } := by
  have htaken := h.accounts.takeCaller htake
    (h.accounts.not_in_line fun w hw => by simp [hphase] at hw)
  simpa [Caller.inHand, Caller.isConnecting, Caller.isExchanging, Caller.waiterSatisfies,
    hphase] using htaken

/-- A connect that is over yields a connection and a fresh name. -/
theorem Accounts.opened (options : PoolOptions) (request : Request)
    (h : Accounts pool { connects := 1 }) :
    Accounts (pool.opened options request).2 { exchanges := 1 } := by
  have hconnected := h.connected
  exact ⟨hconnected.connecting, hconnected.active, hconnected.reserved, hconnected.reserved_le,
    hconnected.nodup, hconnected.queued, hconnected.unique, hconnected.fresh⟩

theorem PoolInv.of_woken (h : Accounts pool {} ∧ (pool.queue = [] ∨ 0 < pool.woken)) :
    PoolInv pool :=
  ⟨h.1, wakers_pos_of_someone h.2⟩

theorem PoolInv.workerPass (h : PoolInv pool) : PoolInv (pool.workerPass options worker) := by
  refine ⟨h.accounts.workerPass, fun hne => ?_⟩
  rw [queue_workerPass] at hne
  exact Nat.lt_of_lt_of_le (h.progress hne) wakers_le_workerPass

theorem PoolInv.connectSucceeded (h : PoolInv pool)
    (hstep : step options pool (.connectSucceeded i) = some pool') : PoolInv pool' := by
  obtain ⟨caller, base, htake, hphase, rfl⟩ := step_connectSucceeded hstep
  have hopened := (h.take_connecting htake hphase).opened options caller.request
  exact ⟨hopened.wakeOne.1.startExchange, fun _ => wakers_startExchange_pos⟩

theorem PoolInv.connectFailed (h : PoolInv pool)
    (hstep : step options pool (.connectFailed i) = some pool') : PoolInv pool' := by
  obtain ⟨caller, base, htake, hphase, rfl⟩ := step_connectFailed hstep
  exact .of_woken (h.take_connecting htake hphase).connected.lose

theorem PoolInv.exchanged {result : ExchangeResult} (h : PoolInv pool)
    (hstep : step options pool (.exchanged i result) = some pool') : PoolInv pool' := by
  obtain ⟨caller, base, connection, f, htake, hphase, rfl | rfl⟩ := step_exchanged hstep
  · have htaken := h.take_exchanging htake hphase
    exact .of_woken (((accounts_updateCancelState _ _).mpr htaken)).returnIdle
  · exact .of_woken (((accounts_updateCancelState _ _).mpr (h.take_exchanging htake hphase))).lose

/-- Only the connects of the workers are counted. -/
theorem PoolInv.of_workers {workers : List Worker} {launched : Nat → Nat} {nextCall : Nat}
    (h : PoolInv pool)
    (hcount : workers.countP Worker.connecting = pool.workers.countP Worker.connecting) :
    PoolInv { pool with workers, launched, nextCall } := by
  refine ⟨⟨?_, h.accounts.active, h.accounts.reserved, h.accounts.reserved_le,
    h.accounts.nodup, h.accounts.queued, h.accounts.unique, h.accounts.fresh⟩, fun hne => ?_⟩
  · simpa only [Pool.connects, hcount] using h.accounts.connecting
  · have hpos := h.progress hne
    simp only [Pool.wakers, Pool.connects, Pool.exchanges, Pool.woken, hcount] at hpos ⊢
    exact hpos

theorem PoolInv.preconnect {request : Request} {targetCount : Nat} (h : PoolInv pool)
    (hstep : step options pool (.preconnect request targetCount) = some pool') :
    PoolInv pool' := by
  obtain ⟨nextCall, launched, worker, n, hworker, rfl⟩ := step_preconnect hstep
  exact h.of_workers (by simp [List.countP_append, List.countP_replicate, hworker])

/-- Taking out a worker that has not started leaves the accounts balanced. -/
theorem PoolInv.take_starting (h : PoolInv pool)
    (htake : pool.takeWorker i = some (worker, pool')) (hstarting : worker.connecting = false) :
    PoolInv pool' := by
  obtain ⟨hperm, heq⟩ := takeWorker_perm htake
  have hcount := hperm.countP_eq Worker.connecting
  rw [List.countP_cons, hstarting] at hcount
  rw [heq]
  exact h.of_workers (by simpa using hcount)

theorem PoolInv.take_worker_connecting (h : PoolInv pool)
    (htake : pool.takeWorker i = some (worker, pool')) (hconnecting : worker.connecting = true) :
    Accounts pool' { connects := 1 } := by
  have haccounts := h.accounts.takeWorker htake
  simpa [hconnecting] using haccounts

theorem PoolInv.workerStarts (h : PoolInv pool)
    (hstep : step options pool (.workerStarts i) = some pool') : PoolInv pool' := by
  obtain ⟨worker, base, htake, hstarting, rfl⟩ := step_workerStarts hstep
  exact (h.take_starting htake hstarting).workerPass

theorem PoolInv.workerConnected (h : PoolInv pool)
    (hstep : step options pool (.workerConnected i) = some pool') : PoolInv pool' := by
  obtain ⟨worker, base, htake, hconnecting, rfl⟩ := step_workerConnected hstep
  have hopened := (h.take_worker_connecting htake hconnecting).opened options
    worker.request
  exact (PoolInv.of_woken hopened.returnIdle).workerPass

theorem PoolInv.workerFailed (h : PoolInv pool)
    (hstep : step options pool (.workerFailed i) = some pool') : PoolInv pool' := by
  obtain ⟨worker, base, htake, hconnecting, rfl⟩ := step_workerFailed hstep
  exact .of_woken (h.take_worker_connecting htake hconnecting).connected.lose

/-! ### Runs -/

/-- An orderly step keeps the accounts and leaves somebody to wake those in line. -/
theorem PoolInv.step {action : Action} (h : PoolInv pool) (hok : Orderly options pool action)
    (hstep : step options pool action = some pool') : PoolInv pool' := by
  cases action with
  | acquire request cancelled handler => exact h.acquire hok hstep
  | resume i => exact h.resume hok hstep
  | expire i => exact hok.elim
  | cancelSignal i => exact h.cancelSignal hstep
  | abortWait i => exact h.abortWait hstep
  | cancelOnShard id => exact h.cancelOnShard hstep
  | connectSucceeded i => exact h.connectSucceeded hstep
  | connectFailed i => exact h.connectFailed hstep
  | exchanged i result => exact h.exchanged hstep
  | preconnect request targetCount => exact h.preconnect hstep
  | workerStarts i => exact h.workerStarts hstep
  | workerConnected i => exact h.workerConnected hstep
  | workerFailed i => exact h.workerFailed hstep

theorem poolInv_empty : PoolInv {} :=
  ⟨⟨rfl, rfl, rfl, le_rfl, List.nodup_nil, fun _ h => absurd h List.not_mem_nil,
    fun _ => Nat.zero_le _, fun _ _ => rfl⟩, fun hne => absurd rfl hne⟩

/-- No request holds a connection, no connect is in flight, and no woken request is
still to resume. -/
def Pool.Quiescent (pool : Pool) : Prop :=
  pool.exchanges = 0 ∧ pool.connects = 0 ∧ pool.woken = 0

/-- Nobody is in line and nothing is reserved, so the next request takes an idle
connection or starts connecting. -/
def Pool.Unstuck (options : PoolOptions) (pool : Pool) : Prop :=
  pool.queue = [] ∧ pool.reservedIdle = 0 ∧ (pool.attempt options false false).1 ≠ .wait

/-- In a quiet state that an orderly run reaches the pool is not stuck. -/
theorem unstuck_of_quiescent (options : PoolOptions) (actions : List Action)
    (hok : Along (H1.step options) (Orderly options) {} actions)
    (hrun : exec (H1.step options) {} actions = some pool) (hquiet : pool.Quiescent) :
    pool.Unstuck options := by
  have hinv : PoolInv pool :=
    invariant_of_along (fun _ _ _ (h : PoolInv _) hok hstep => h.step hok hstep) poolInv_empty hok
      hrun
  obtain ⟨hexchanges, hconnects, hwoken⟩ := hquiet
  have hnobody : pool.wakers = 0 := by
    unfold Pool.wakers
    omega
  have hqueue : pool.queue = [] := by
    by_contra hne
    exact absurd (hinv.progress hne) (by omega)
  have hreserved : pool.reservedIdle = 0 := by
    have hle := pool.reserved_le_woken
    have hcount : pool.reservedIdle = pool.reserved + 0 := hinv.accounts.reserved
    omega
  refine ⟨hqueue, hreserved, fun hwait => ?_⟩
  have hmust : pool.MustWait options false false := by
    rcases attempt_cases options pool false false with ⟨_, -, -, heq⟩ | ⟨hnone, heq⟩
    · rw [heq] at hwait
      cases hwait
    · refine ⟨hnone, ?_⟩
      rw [heq, dropReservation_of_not_reserved] at hwait
      by_contra hmay
      rw [if_pos (by simpa using hmay)] at hwait
      cases hwait
  have hpos := wakers_pos_of_mustWait hinv.accounts (fun _ => hinv.progress) hmust
  omega

/-- One connection and two requests, the second of which waits for the first. -/
def twoRequests : List Action :=
  [.acquire {} false false, .connectSucceeded 0, .acquire {} false false, .exchanged 0 .success,
    .resume 0, .exchanged 0 .success]

theorem unstuck_of_quiescent_twoRequests :
    ∃ pool, exec (step { maxConnectionsPerOrigin := 1 }) {} twoRequests = some pool ∧
      pool.Unstuck { maxConnectionsPerOrigin := 1 } := by
  refine ⟨_, rfl, unstuck_of_quiescent { maxConnectionsPerOrigin := 1 } twoRequests ?_ rfl
    ⟨rfl, rfl, rfl⟩⟩
  refine .cons (fun h => absurd h (by decide)) rfl <| .cons trivial rfl <|
    .cons (fun h => absurd h (by decide)) rfl <| .cons trivial rfl <| .cons ?_ rfl <|
      .cons trivial rfl trivial
  rintro caller ⟨⟩ w - hcancelled
  exact absurd hcancelled (by decide)

/-- The second of two requests gives up waiting for the only connection. Its waiter
stays in line and is given the reservation when the connection comes back: from then
on every request queues, although the connection is idle. -/
theorem stuck_after_pool_timeout :
    ¬ ∀ (options : PoolOptions) (actions : List Action) (pool : Pool),
      exec (step options) {} actions = some pool → pool.Quiescent → pool.Unstuck options := by
  intro h
  have hunstuck := h { maxConnectionsPerOrigin := 1 }
    [.acquire {} false false, .connectSucceeded 0, .acquire {} false false, .expire 1,
      .exchanged 0 .success] _ rfl ⟨rfl, rfl, rfl⟩
  exact absurd hunstuck.2.1 (by decide)

end HttpClient.H1
