import Mathlib.Logic.Function.Basic
import Mathlib.Data.List.Perm.Basic
import Mathlib.Tactic.SplitIfs
import HttpClient.Request
import HttpClient.Semantics.Machine

/-!
# One side of an origin pool

An origin pool lends connections to requests. Its plain and its TLS side follow the
same protocol, so one machine models either. Everything runs on one shard: the code
between two suspension points is one step, and the steps of different coroutines
interleave in any order.

A request takes an idle connection, or opens a new one, or queues a waiter and
suspends. A connection that is returned is reserved for the first waiter in the
queue, which is woken; a connection that is lost, and one that has been opened, wake
a waiter without a reservation. Preconnect workers open connections for the idle
list.

Waiters are shared objects: the queue, the suspended coroutine and the request's
cancel state refer to them. They live in a heap and are named by numbers.

## Main definitions

* `Waiter`, `Connection`, `CancelState` — the objects that coroutines share
* `Caller`, `Worker` — suspended requests and preconnect workers
* `Pool` — the state of the machine
* `Pool.wakeOne`, `Pool.attempt`, `Pool.acquirePass`, `Pool.workerPass` — the code
  between suspension points
* `Action`, `step` — the steps of the machine
-/

set_option autoImplicit false

namespace HttpClient.H1

/-- The options a pool depends on. -/
structure PoolOptions where
  maxConnectionsPerOrigin : Nat := 128
  maxConnectingPerOrigin : Nat := 128
  enableSslVerify : Bool := true

def PoolOptions.maxConnections (options : PoolOptions) : Nat :=
  max 1 options.maxConnectionsPerOrigin

def PoolOptions.maxConnecting (options : PoolOptions) : Nat :=
  max 1 options.maxConnectingPerOrigin

/-- A connection and whether its handshake verified the peer. -/
structure Connection where
  id : Nat
  verified : Bool
  deriving DecidableEq, Repr

structure Waiter where
  woken : Bool := false
  cancelled : Bool := false
  reservedIdle : Bool := false
  deriving DecidableEq, Repr

/-- What a cancellation of the request acts on. It outlives the coroutine. -/
structure CancelState where
  cancelled : Bool := false
  /-- The connection the request is using. -/
  connection : Option Nat := none
  /-- The waiter the request is waiting on. -/
  waiter : Option Nat := none
  deriving DecidableEq, Repr

/-- Where a request is suspended. -/
inductive Phase where
  | waiting (waiter : Nat)
  | connecting
  | exchanging (connection : Connection)
  deriving DecidableEq, Repr

/-- A suspended request. -/
structure Caller where
  request : Request
  /-- Whether the coroutine's cancellation has been signalled. -/
  cancelled : Bool
  /-- The request's cancel state; requests with a completion handler have none. -/
  cancelState : Option Nat
  phase : Phase

/-- A preconnect worker, about to run or suspended in a connect. -/
structure Worker where
  /-- The preconnect call it belongs to. -/
  call : Nat
  request : Request
  targetCount : Nat
  connecting : Bool

structure Pool where
  idle : List Connection := []
  /-- The waiters in line. -/
  queue : List Nat := []
  active : Nat := 0
  connecting : Nat := 0
  reservedIdle : Nat := 0
  waiters : Nat → Waiter := fun _ => {}
  nextWaiter : Nat := 0
  nextConnection : Nat := 0
  cancelStates : Nat → CancelState := fun _ => {}
  nextCancelState : Nat := 0
  callers : List Caller := []
  workers : List Worker := []
  /-- The number of connects each preconnect call has launched. -/
  launched : Nat → Nat := fun _ => 0
  nextCall : Nat := 0
  /-- The connections that cancellations have closed. -/
  closed : List Nat := []

namespace Pool

/-! ### Waking -/

/-- Wake the first waiter in line that is not cancelled; cancelled ones are dropped. -/
def wakeFirst (reserve : Bool) (waiters : Nat → Waiter) :
    List Nat → Bool × (Nat → Waiter) × List Nat
  | [] => (false, waiters, [])
  | w :: queue =>
    if (waiters w).cancelled then wakeFirst reserve waiters queue
    else
      -- a reservation that the waiter has stays with it
      let waiter := waiters w
      let woken :=
        { waiter with woken := true, reservedIdle := waiter.reservedIdle || reserve }
      (true, Function.update waiters w woken, queue)

def wakeOne (pool : Pool) : Pool :=
  let (_, waiters, queue) := wakeFirst false pool.waiters pool.queue
  { pool with waiters, queue }

/-- Wake a waiter for a connection that has just become idle, and count the
reservation if there was one to wake. -/
def wakeOneWithIdleReservation (pool : Pool) : Pool :=
  let (woke, waiters, queue) := wakeFirst true pool.waiters pool.queue
  { pool with
    waiters
    queue
    reservedIdle := if woke then pool.reservedIdle + 1 else pool.reservedIdle }

/-! ### Acquiring -/

/-- Whether a pass may take an idle connection, if there is one. -/
def mayTake (pool : Pool) (woke reserved : Bool) : Bool :=
  reserved || (pool.reservedIdle == 0 && (woke || pool.queue.isEmpty))

/-- Whether a pass may open a connection. -/
def mayConnect (options : PoolOptions) (pool : Pool) (woke : Bool) : Bool :=
  decide (pool.active < options.maxConnections) &&
    decide (pool.connecting < options.maxConnecting) &&
    (woke || (pool.reservedIdle == 0 && pool.queue.isEmpty))

/-- What a pass through the acquire loop decides. -/
inductive Attempt where
  | take (connection : Connection)
  | connect
  | wait
  deriving DecidableEq, Repr

/-- A reservation for which no idle connection is left is given back. -/
def dropReservation (pool : Pool) (reserved : Bool) : Pool :=
  if reserved && pool.idle.isEmpty then { pool with reservedIdle := pool.reservedIdle - 1 }
  else pool

/-- One pass through the acquire loop, up to its next suspension point. -/
def attempt (options : PoolOptions) (pool : Pool) (woke reserved : Bool) : Attempt × Pool :=
  match pool.idle.getLast?, pool.mayTake woke reserved with
  | some connection, true =>
    (.take connection,
      { pool with
        idle := pool.idle.dropLast
        reservedIdle := if reserved then pool.reservedIdle - 1 else pool.reservedIdle })
  | _, _ =>
    -- no idle connection, or none that this pass may take
    let pool := pool.dropReservation reserved
    if pool.mayConnect options woke then
      (.connect, { pool with active := pool.active + 1, connecting := pool.connecting + 1 })
    else (.wait, pool)

/-- Update the cancel state of a request that has one. -/
def updateCancelState (pool : Pool) (cancelState : Option Nat)
    (f : CancelState → CancelState) : Pool :=
  match cancelState with
  | none => pool
  | some id =>
    { pool with
      cancelStates := Function.update pool.cancelStates id (f (pool.cancelStates id)) }

/-- Suspend a request. -/
def suspend (pool : Pool) (caller : Caller) (phase : Phase) : Pool :=
  { pool with callers := pool.callers ++ [{ caller with phase }] }

/-- Start the exchange on a connection. -/
def startExchange (pool : Pool) (caller : Caller) (connection : Connection) : Pool :=
  (pool.updateCancelState caller.cancelState fun state =>
    { state with connection := some connection.id }).suspend caller (.exchanging connection)

/-- Queue a new waiter and wait on it. The wait of a coroutine whose cancellation has
been signalled throws at once; its waiter stays in line. -/
def enqueue (pool : Pool) (caller : Caller) : Pool :=
  let w := pool.nextWaiter
  let pool := pool.updateCancelState caller.cancelState fun state =>
    { state with waiter := some w }
  let pool :=
    { pool with
      waiters := Function.update pool.waiters w {}
      nextWaiter := w + 1
      queue := pool.queue ++ [w] }
  if caller.cancelled then pool else pool.suspend caller (.waiting w)

/-- A request runs the acquire loop up to its next suspension point. -/
def acquirePass (options : PoolOptions) (pool : Pool) (caller : Caller)
    (woke reserved : Bool) : Pool :=
  match pool.attempt options woke reserved with
  | (.take connection, pool) => pool.startExchange caller connection
  | (.connect, pool) => pool.suspend caller .connecting
  | (.wait, pool) => pool.enqueue caller

/-- Whether a connection opened for the request verifies its peer. -/
def verifies (options : PoolOptions) (request : Request) : Bool :=
  request.verifyPeer && request.verifyHost && options.enableSslVerify

/-- A connect has failed or a connection is lost: its place is free for a waiter. -/
def lose (pool : Pool) : Pool := { pool with active := pool.active - 1 }.wakeOne

/-- Put a connection on the idle list and reserve it for the first waiter. -/
def returnIdle (pool : Pool) (connection : Connection) : Pool :=
  { pool with idle := pool.idle ++ [connection] }.wakeOneWithIdleReservation

/-! ### Preconnecting -/

/-- A preconnect worker runs up to its next connect, or ends. -/
def workerPass (options : PoolOptions) (pool : Pool) (worker : Worker) : Pool :=
  if worker.targetCount ≤ pool.idle.length ∨ options.maxConnections ≤ pool.active ∨
      options.maxConnecting ≤ pool.connecting then pool
  else
    -- the workers of one call share a counter
    let index := pool.launched worker.call
    let pool := { pool with launched := Function.update pool.launched worker.call (index + 1) }
    if worker.targetCount ≤ index then pool
    else
      { pool with
        active := pool.active + 1
        connecting := pool.connecting + 1
        workers := pool.workers ++ [{ worker with connecting := true }] }

/-! ### Taking a coroutine out to run it -/

def takeCaller (pool : Pool) (i : Nat) : Option (Caller × Pool) :=
  pool.callers[i]?.map fun caller => (caller, { pool with callers := pool.callers.eraseIdx i })

def takeWorker (pool : Pool) (i : Nat) : Option (Worker × Pool) :=
  pool.workers[i]?.map fun worker => (worker, { pool with workers := pool.workers.eraseIdx i })

/-- The connection a request or worker has opened. -/
def opened (options : PoolOptions) (pool : Pool) (request : Request) : Connection × Pool :=
  ({ id := pool.nextConnection, verified := verifies options request },
    { pool with
      nextConnection := pool.nextConnection + 1
      connecting := pool.connecting - 1 })

end Pool

/-! ### The machine -/

/-- How an exchange ends. -/
inductive ExchangeResult where
  | success
  | errorResponse
  | exception
  deriving DecidableEq, Repr

/-- The steps of the machine. Callers and workers are named by their position. -/
inductive Action where
  /-- A new request. `cancelled` says that its cancellation has already been signalled,
  `handler` that it has a completion handler and therefore no cancel state. -/
  | acquire (request : Request) (cancelled handler : Bool)
  /-- A woken waiter resumes. -/
  | resume (i : Nat)
  /-- The wait ends because the pool timeout has expired. -/
  | expire (i : Nat)
  /-- The cancellation of the request's coroutine is signalled. -/
  | cancelSignal (i : Nat)
  /-- A cancelled wait ends. -/
  | abortWait (i : Nat)
  /-- The posted `cancel_request_on_shard` runs. -/
  | cancelOnShard (id : Nat)
  | connectSucceeded (i : Nat)
  | connectFailed (i : Nat)
  | exchanged (i : Nat) (result : ExchangeResult)
  /-- A preconnect call starts its workers. -/
  | preconnect (request : Request) (targetCount : Nat)
  | workerStarts (i : Nat)
  | workerConnected (i : Nat)
  | workerFailed (i : Nat)

open Pool in
/-- One step of the machine; `none` if the action is not enabled. -/
def step (options : PoolOptions) (pool : Pool) : Action → Option Pool
  | .acquire request cancelled handler =>
    let caller : Caller :=
      { request
        cancelled
        cancelState := if handler then none else some pool.nextCancelState
        phase := .connecting }
    some ({ pool with nextCancelState := pool.nextCancelState + 1 }.acquirePass options caller
      false false)
  | .resume i => do
    let (caller, pool) ← pool.takeCaller i
    let .waiting w := caller.phase | none
    if (pool.waiters w).woken then
      let pool := pool.updateCancelState caller.cancelState fun state =>
        { state with waiter := none }
      some (pool.acquirePass options caller true (pool.waiters w).reservedIdle)
    else none
  | .expire i => do
    let (caller, pool) ← pool.takeCaller i
    let .waiting _ := caller.phase | none
    if 0 < caller.request.effectiveTimeout Timeout.poolMs then
      -- Throws `h1 pool timeout`; unlike a cancelled wait it leaves the queue as it is.
      some (pool.updateCancelState caller.cancelState fun state => { state with waiter := none })
    else none
  | .cancelSignal i => do
    let (caller, pool) ← pool.takeCaller i
    some { pool with callers := pool.callers ++ [{ caller with cancelled := true }] }
  | .abortWait i => do
    let (caller, pool) ← pool.takeCaller i
    let .waiting w := caller.phase | none
    let waiter := pool.waiters w
    if !waiter.woken && (caller.cancelled || waiter.cancelled) then
      let pool := pool.updateCancelState caller.cancelState fun state =>
        { state with waiter := none }
      some
        { pool with
          waiters := Function.update pool.waiters w { waiter with cancelled := true }
          queue := pool.queue.filter (· ≠ w) }
    else none
  | .cancelOnShard id =>
    if id < pool.nextCancelState then
      let state := pool.cancelStates id
      let pool := pool.updateCancelState (some id) fun state => { state with cancelled := true }
      let pool := { pool with closed := pool.closed ++ state.connection.toList }
      -- the waiter stays in line until its wait ends or a wake-up drops it
      match state.waiter with
      | none => some pool
      | some w =>
        some
          { pool with
            waiters :=
              Function.update pool.waiters w { pool.waiters w with cancelled := true } }
    else none
  | .connectSucceeded i => do
    let (caller, pool) ← pool.takeCaller i
    if caller.phase = .connecting then
      let (connection, pool) := pool.opened options caller.request
      some (pool.wakeOne.startExchange caller connection)
    else none
  | .connectFailed i => do
    let (caller, pool) ← pool.takeCaller i
    if caller.phase = .connecting then
      some { pool with connecting := pool.connecting - 1 }.lose
    else none
  | .exchanged i result => do
    let (caller, pool) ← pool.takeCaller i
    let .exchanging connection := caller.phase | none
    let pool := pool.updateCancelState caller.cancelState fun state =>
      { state with connection := none }
    match result with
    | .success => some (pool.returnIdle connection)
    | .errorResponse | .exception => some pool.lose
  | .preconnect request targetCount =>
    if targetCount = 0 then none
    else
      let worker : Worker := { call := pool.nextCall, request, targetCount, connecting := false }
      let workerCount := max 1 (min targetCount options.maxConnecting)
      some
        { pool with
          nextCall := pool.nextCall + 1
          launched := Function.update pool.launched pool.nextCall 0
          workers := pool.workers ++ List.replicate workerCount worker }
  | .workerStarts i => do
    let (worker, pool) ← pool.takeWorker i
    if worker.connecting then none else some (pool.workerPass options worker)
  | .workerConnected i => do
    let (worker, pool) ← pool.takeWorker i
    if worker.connecting then
      let (connection, pool) := pool.opened options worker.request
      some ((pool.returnIdle connection).workerPass options worker)
    else none
  | .workerFailed i => do
    let (worker, pool) ← pool.takeWorker i
    if worker.connecting then some { pool with connecting := pool.connecting - 1 }.lose else none

/-! ### What each step does -/

variable {options : PoolOptions} {pool pool' : Pool} {i : Nat}

theorem step_resume (h : step options pool (.resume i) = some pool') :
    ∃ caller base w, pool.takeCaller i = some (caller, base) ∧ caller.phase = .waiting w ∧
      (base.waiters w).woken = true ∧
      pool' = (base.updateCancelState caller.cancelState fun state =>
        { state with waiter := none }).acquirePass options caller true
          (base.waiters w).reservedIdle := by
  obtain ⟨⟨caller, base⟩, htake, h⟩ := Option.bind_eq_some_iff.mp h
  cases hphase : caller.phase with
  | waiting w =>
    simp only [hphase] at h
    split_ifs at h with hwoken
    refine ⟨caller, base, w, htake, hphase, hwoken, ?_⟩
    have hwaiters : (base.updateCancelState caller.cancelState fun state =>
        { state with waiter := none }).waiters = base.waiters := by
      cases caller.cancelState <;> rfl
    rw [← hwaiters]
    exact (Option.some.inj h).symm
  | connecting => simp [hphase] at h
  | exchanging connection => simp [hphase] at h

theorem step_expire (h : step options pool (.expire i) = some pool') :
    ∃ caller base w, pool.takeCaller i = some (caller, base) ∧ caller.phase = .waiting w ∧
      pool' = base.updateCancelState caller.cancelState fun state =>
        { state with waiter := none } := by
  obtain ⟨⟨caller, base⟩, htake, h⟩ := Option.bind_eq_some_iff.mp h
  cases hphase : caller.phase with
  | waiting w =>
    simp only [hphase] at h
    split_ifs at h with htimeout
    exact ⟨caller, base, w, htake, hphase, (Option.some.inj h).symm⟩
  | connecting => simp [hphase] at h
  | exchanging connection => simp [hphase] at h

theorem step_abortWait (h : step options pool (.abortWait i) = some pool') :
    ∃ caller base w, pool.takeCaller i = some (caller, base) ∧ caller.phase = .waiting w ∧
      (base.waiters w).woken = false ∧
      pool' =
        { base with
          waiters := Function.update base.waiters w { base.waiters w with cancelled := true }
          queue := base.queue.filter (· ≠ w) }.updateCancelState caller.cancelState
            fun state => { state with waiter := none } := by
  obtain ⟨⟨caller, base⟩, htake, h⟩ := Option.bind_eq_some_iff.mp h
  cases hphase : caller.phase with
  | waiting w =>
    simp only [hphase] at h
    split_ifs at h with hwait
    simp only [Bool.and_eq_true, Bool.not_eq_true'] at hwait
    refine ⟨caller, base, w, htake, hphase, hwait.1, ?_⟩
    rw [← Option.some.inj h]
    cases caller.cancelState <;> rfl
  | connecting => simp [hphase] at h
  | exchanging connection => simp [hphase] at h

theorem step_connectSucceeded (h : step options pool (.connectSucceeded i) = some pool') :
    ∃ caller base, pool.takeCaller i = some (caller, base) ∧ caller.phase = .connecting ∧
      pool' = (base.opened options caller.request).2.wakeOne.startExchange caller
        (base.opened options caller.request).1 := by
  obtain ⟨⟨caller, base⟩, htake, h⟩ := Option.bind_eq_some_iff.mp h
  dsimp only at h
  split_ifs at h with hphase
  exact ⟨caller, base, htake, hphase, (Option.some.inj h).symm⟩

theorem step_connectFailed (h : step options pool (.connectFailed i) = some pool') :
    ∃ caller base, pool.takeCaller i = some (caller, base) ∧ caller.phase = .connecting ∧
      pool' = { base with connecting := base.connecting - 1 }.lose := by
  obtain ⟨⟨caller, base⟩, htake, h⟩ := Option.bind_eq_some_iff.mp h
  dsimp only at h
  split_ifs at h with hphase
  exact ⟨caller, base, htake, hphase, (Option.some.inj h).symm⟩

/-- However an exchange ends, the cancel state forgets the connection. -/
theorem step_exchanged_forgets {result : ExchangeResult}
    (h : step options pool (.exchanged i result) = some pool') :
    ∃ caller base connection forgotten, pool.takeCaller i = some (caller, base) ∧
      caller.phase = .exchanging connection ∧
      forgotten = base.updateCancelState caller.cancelState (fun state =>
        { state with connection := none }) ∧
      (pool' = forgotten.returnIdle connection ∨ pool' = forgotten.lose) := by
  obtain ⟨⟨caller, base⟩, htake, h⟩ := Option.bind_eq_some_iff.mp h
  cases hphase : caller.phase with
  | exchanging connection =>
    simp only [hphase] at h
    refine ⟨caller, base, connection, _, htake, hphase, rfl, ?_⟩
    cases result with
    | success => exact Or.inl (Option.some.inj h).symm
    | errorResponse => exact Or.inr (Option.some.inj h).symm
    | exception => exact Or.inr (Option.some.inj h).symm
  | connecting => simp [hphase] at h
  | waiting w => simp [hphase] at h

theorem step_exchanged {result : ExchangeResult}
    (h : step options pool (.exchanged i result) = some pool') :
    ∃ caller base connection f, pool.takeCaller i = some (caller, base) ∧
      caller.phase = .exchanging connection ∧
      (pool' = (base.updateCancelState caller.cancelState f).returnIdle connection ∨
        pool' = (base.updateCancelState caller.cancelState f).lose) := by
  obtain ⟨caller, base, connection, forgotten, htake, hphase, rfl, hend⟩ :=
    step_exchanged_forgets h
  exact ⟨caller, base, connection, _, htake, hphase, hend⟩

theorem step_cancelSignal (h : step options pool (.cancelSignal i) = some pool') :
    ∃ caller base, pool.takeCaller i = some (caller, base) ∧
      pool' = { base with callers := base.callers ++ [{ caller with cancelled := true }] } := by
  obtain ⟨⟨caller, base⟩, htake, h⟩ := Option.bind_eq_some_iff.mp h
  exact ⟨caller, base, htake, (Option.some.inj h).symm⟩

theorem step_cancelOnShard {id : Nat} (h : step options pool (.cancelOnShard id) = some pool') :
    ∃ closed waiters f, pool' = { pool with closed, waiters }.updateCancelState (some id) f ∧
      ∀ w, (waiters w).woken = (pool.waiters w).woken ∧
        (waiters w).reservedIdle = (pool.waiters w).reservedIdle := by
  simp only [step] at h
  split_ifs at h with hknown
  cases hwaiter : (pool.cancelStates id).waiter with
  | none =>
    simp only [hwaiter] at h
    exact ⟨pool.closed ++ (pool.cancelStates id).connection.toList, pool.waiters,
      fun state => { state with cancelled := true }, (Option.some.inj h).symm,
      fun w => ⟨rfl, rfl⟩⟩
  | some w =>
    simp only [hwaiter] at h
    refine ⟨pool.closed ++ (pool.cancelStates id).connection.toList,
      Function.update pool.waiters w { pool.waiters w with cancelled := true },
      fun state => { state with cancelled := true }, (Option.some.inj h).symm, fun v => ?_⟩
    rcases eq_or_ne v w with rfl | hne
    · simp
    · simp [hne]

theorem step_preconnect {request : Request} {targetCount : Nat}
    (h : step options pool (.preconnect request targetCount) = some pool') :
    ∃ nextCall launched worker n, worker.connecting = false ∧
      pool' =
        { pool with nextCall, launched, workers := pool.workers ++ List.replicate n worker } := by
  simp only [step] at h
  split_ifs at h with hzero
  exact ⟨_, _, _, _, rfl, (Option.some.inj h).symm⟩

theorem step_workerStarts (h : step options pool (.workerStarts i) = some pool') :
    ∃ worker base, pool.takeWorker i = some (worker, base) ∧ worker.connecting = false ∧
      pool' = base.workerPass options worker := by
  obtain ⟨⟨worker, base⟩, htake, h⟩ := Option.bind_eq_some_iff.mp h
  dsimp only at h
  split_ifs at h with hphase
  exact ⟨worker, base, htake, by simpa using hphase, (Option.some.inj h).symm⟩

theorem step_workerConnected (h : step options pool (.workerConnected i) = some pool') :
    ∃ worker base, pool.takeWorker i = some (worker, base) ∧ worker.connecting = true ∧
      pool' = ((base.opened options worker.request).2.returnIdle
        (base.opened options worker.request).1).workerPass options worker := by
  obtain ⟨⟨worker, base⟩, htake, h⟩ := Option.bind_eq_some_iff.mp h
  dsimp only at h
  split_ifs at h with hphase
  exact ⟨worker, base, htake, hphase, (Option.some.inj h).symm⟩

theorem step_workerFailed (h : step options pool (.workerFailed i) = some pool') :
    ∃ worker base, pool.takeWorker i = some (worker, base) ∧ worker.connecting = true ∧
      pool' = { base with connecting := base.connecting - 1 }.lose := by
  obtain ⟨⟨worker, base⟩, htake, h⟩ := Option.bind_eq_some_iff.mp h
  dsimp only at h
  split_ifs at h with hphase
  exact ⟨worker, base, htake, hphase, (Option.some.inj h).symm⟩

end HttpClient.H1
