import HttpClient.H1.OriginPool
import HttpClient.H1.PoolReservations

/-!
# Which connections a cancellation closes

The cancel state of a request points at the connection the request uses. It is read by
a step of its own, posted when the request is cancelled, which may come before the
request has started, while it holds a connection, or long after it has returned the
connection and another request has taken it. What makes this safe is that the pointer
follows the ownership of the connection: it is set when the request is given the
connection and cleared before the connection is returned or dropped.

A shard has several origins, each with two sides; cancel states and connections belong
to one side. The TLS side has probes, which hold connections but have no cancel state.

## Main definitions

* `Caller.uses`, `Caller.ownsState` — what a suspended coroutine holds
* `Ownership` — every connection has at most one holder, and cancel states point at what
  their requests hold
* `ShardOrigin`, `Shard.step` — the origins of a shard
* `HeldBy` — a connection is held by one request and by nobody else

## Main results

* `Ownership.step`, `ProbedPool.Owned.step` — every step of a side keeps the ownership
* `Shard.closesFor_step` — only `cancel_request_on_shard` closes connections for a cancellation
* `cancellation_closes_own_connection` — every step of every run of a shard
-/

set_option autoImplicit false

namespace HttpClient.H1

open Semantics

variable {options : PoolOptions} {pool pool' : Pool} {caller : Caller} {worker : Worker}
  {coroutines others : List Caller} {connection : Connection} {i : Nat}

/-! ### Ownership -/

/-- The coroutine holds the connection `c`. -/
def Caller.uses (c : Nat) (caller : Caller) : Bool :=
  match caller.phase with
  | .exchanging connection => connection.id == c
  | _ => false

/-- The cancel state `s` is the coroutine's. -/
def Caller.ownsState (s : Nat) (caller : Caller) : Bool := caller.cancelState == some s

/-- The number of places in which the connection `c` is: the idle list and the
coroutines that hold it. -/
def Pool.holders (pool : Pool) (coroutines : List Caller) (c : Nat) : Nat :=
  pool.idle.countP (fun connection => connection.id == c) + coroutines.countP (Caller.uses c)

/-- A connection is in at most one place and a cancel state belongs to at most one
coroutine, which holds the connection the state points at. Neither has been given out
before it exists. -/
structure Ownership (pool : Pool) (coroutines : List Caller) : Prop where
  once : ∀ c, pool.holders coroutines c ≤ 1
  unopened : ∀ c, pool.nextConnection ≤ c → pool.holders coroutines c = 0
  owner : ∀ s, coroutines.countP (Caller.ownsState s) ≤ 1
  unborn : ∀ s, pool.nextCancelState ≤ s → coroutines.countP (Caller.ownsState s) = 0
  points : ∀ s c, (pool.cancelStates s).connection = some c →
    ∃ caller ∈ coroutines, caller.ownsState s = true ∧ caller.uses c = true

theorem ownership_empty : Ownership {} [] :=
  ⟨fun _ => Nat.zero_le 1, fun _ _ => rfl, fun _ => Nat.zero_le 1, fun _ _ => rfl,
    fun _ _ h => nomatch h⟩

/-- Connections and cancel states may be given up. -/
theorem Ownership.weaken {coroutines' : List Caller} (h : Ownership pool coroutines)
    (hholders : ∀ c, pool'.holders coroutines' c ≤ pool.holders coroutines c)
    (howners : ∀ s, coroutines'.countP (Caller.ownsState s) ≤
      coroutines.countP (Caller.ownsState s))
    (hconnection : pool'.nextConnection = pool.nextConnection)
    (hstate : pool'.nextCancelState = pool.nextCancelState)
    (hpoints : ∀ s c, (pool'.cancelStates s).connection = some c →
      ∃ caller ∈ coroutines', caller.ownsState s = true ∧ caller.uses c = true) :
    Ownership pool' coroutines' := by
  refine ⟨fun c => (hholders c).trans (h.once c), fun c hc => ?_,
    fun s => (howners s).trans (h.owner s), fun s hs => ?_, hpoints⟩
  · have hnone := h.unopened c (hconnection ▸ hc)
    exact Nat.le_zero.mp (hnone ▸ hholders c)
  · have hnone := h.unborn s (hstate ▸ hs)
    exact Nat.le_zero.mp (hnone ▸ howners s)

theorem Ownership.perm {coroutines' : List Caller} (h : Ownership pool coroutines)
    (hperm : coroutines'.Perm coroutines) : Ownership pool coroutines' := by
  refine h.weaken (fun c => ?_) (fun s => (hperm.countP_eq _).le) rfl rfl fun s c hpoints => ?_
  · exact Nat.add_le_add_left (hperm.countP_eq _).le _
  · obtain ⟨caller, hmem, howns⟩ := h.points s c hpoints
    exact ⟨caller, hperm.mem_iff.mpr hmem, howns⟩

/-- Ownership is a matter of the idle list, the two counters and what the cancel states
point at. Connections may leave the idle list. -/
theorem Ownership.of_sublist (h : Ownership pool coroutines)
    (hidle : pool'.idle.Sublist pool.idle)
    (hconnection : pool'.nextConnection = pool.nextConnection)
    (hstate : pool'.nextCancelState = pool.nextCancelState)
    (hpoints : ∀ s, (pool'.cancelStates s).connection = (pool.cancelStates s).connection) :
    Ownership pool' coroutines := by
  refine h.weaken (fun c => ?_) (fun s => le_rfl) hconnection hstate fun s c hsc => ?_
  · exact Nat.add_le_add_right hidle.countP_le _
  · exact h.points s c (hpoints s ▸ hsc)

theorem Ownership.of_eq (h : Ownership pool coroutines) (hidle : pool'.idle = pool.idle)
    (hconnection : pool'.nextConnection = pool.nextConnection)
    (hstate : pool'.nextCancelState = pool.nextCancelState)
    (hstates : pool'.cancelStates = pool.cancelStates) : Ownership pool' coroutines :=
  h.of_sublist (hidle ▸ List.Sublist.refl _) hconnection hstate fun s => by rw [hstates]

/-- An update of a cancel state that leaves its connection alone. -/
theorem Ownership.updateCancelState (h : Ownership pool coroutines) (cancelState : Option Nat)
    (f : CancelState → CancelState) (hf : ∀ state, (f state).connection = state.connection) :
    Ownership (pool.updateCancelState cancelState f) coroutines := by
  cases cancelState with
  | none => exact h
  | some s =>
    refine h.of_sublist (List.Sublist.refl _) rfl rfl fun s' => ?_
    by_cases heq : s' = s
    · subst heq
      simp [Pool.updateCancelState, hf]
    · simp [Pool.updateCancelState, heq]

theorem Ownership.wakeOne (h : Ownership pool coroutines) : Ownership pool.wakeOne coroutines :=
  h.of_eq rfl rfl rfl rfl

theorem Ownership.lose (h : Ownership pool coroutines) : Ownership pool.lose coroutines :=
  h.of_eq rfl rfl rfl rfl

/-! ### Coroutines come and go -/

/-- The phases in which a coroutine holds no connection. -/
def Phase.empty : Phase → Bool
  | .exchanging _ => false
  | _ => true

theorem Caller.uses_eq_false (hempty : caller.phase.empty = true) (c : Nat) :
    caller.uses c = false := by
  unfold Caller.uses
  cases hphase : caller.phase with
  | exchanging connection => simp [hphase, Phase.empty] at hempty
  | connecting => rfl
  | waiting w => rfl

theorem Caller.uses_exchanging (hphase : caller.phase = .exchanging connection) (c : Nat) :
    caller.uses c = (connection.id == c) := by
  unfold Caller.uses
  rw [hphase]

theorem holders_cons (c : Nat) : pool.holders (caller :: coroutines) c =
    pool.holders coroutines c + if caller.uses c then 1 else 0 := by
  rw [Pool.holders, Pool.holders, List.countP_cons, Nat.add_assoc]

/-- A coroutine ends. What its cancel state points at, if it has one, is not the
connection it held. -/
theorem Ownership.drop (h : Ownership pool (caller :: coroutines))
    (hnothing : ∀ s c, caller.ownsState s = true → caller.uses c = true →
      (pool.cancelStates s).connection ≠ some c) : Ownership pool coroutines := by
  refine h.weaken (fun c => ?_) (fun s => ?_) rfl rfl fun s c hpoints => ?_
  · rw [holders_cons]
    exact Nat.le_add_right _ _
  · rw [List.countP_cons]
    exact Nat.le_add_right _ _
  · obtain ⟨other, hmem, howns, huses⟩ := h.points s c hpoints
    rcases List.mem_cons.mp hmem with rfl | hmem
    · exact absurd hpoints (hnothing s c howns huses)
    · exact ⟨other, hmem, howns, huses⟩

/-- A coroutine without a connection ends. -/
theorem Ownership.drop_empty (h : Ownership pool (caller :: coroutines))
    (hempty : caller.phase.empty = true) : Ownership pool coroutines := by
  refine h.drop fun s c _ huses => ?_
  rw [Caller.uses_eq_false hempty] at huses
  exact absurd huses Bool.false_ne_true

/-- A coroutine may be replaced by one with the same cancel state and connection. -/
theorem Ownership.replace (caller' : Caller) (h : Ownership pool (caller :: coroutines))
    (howns : ∀ s, caller'.ownsState s = caller.ownsState s)
    (huses : ∀ c, caller'.uses c = caller.uses c) : Ownership pool (caller' :: coroutines) := by
  refine h.weaken (fun c => ?_) (fun s => ?_) rfl rfl fun s c hpoints => ?_
  · rw [holders_cons, holders_cons, huses]
  · rw [List.countP_cons, List.countP_cons, howns]
  · obtain ⟨other, hmem, hother⟩ := h.points s c hpoints
    rcases List.mem_cons.mp hmem with rfl | hmem
    · exact ⟨caller', List.mem_cons_self, (howns s).trans hother.1, (huses c).trans hother.2⟩
    · exact ⟨other, List.mem_cons_of_mem _ hmem, hother⟩

theorem Ownership.setPhase (phase : Phase) (h : Ownership pool (caller :: coroutines))
    (hbefore : caller.phase.empty = true) (hafter : phase.empty = true) :
    Ownership pool ({ caller with phase } :: coroutines) := by
  refine h.replace _ (fun _ => rfl) fun c => ?_
  rw [Caller.uses_eq_false hbefore]
  exact Caller.uses_eq_false hafter c

/-- A new request, with the next cancel state or with none. -/
theorem Ownership.start (h : Ownership pool coroutines) (hempty : caller.phase.empty = true)
    (hstate : ∀ s, caller.ownsState s = true → s = pool.nextCancelState) :
    Ownership { pool with nextCancelState := pool.nextCancelState + 1 } (caller :: coroutines) := by
  have hkept (c : Nat) : pool.holders (caller :: coroutines) c = pool.holders coroutines c := by
    rw [holders_cons, Caller.uses_eq_false hempty]
    exact Nat.add_zero _
  refine ⟨fun c => (hkept c).trans_le (h.once c), fun c hc => (hkept c).trans (h.unopened c hc),
    fun s => ?_, fun s hs => ?_, fun s c hpoints => ?_⟩
  · rw [List.countP_cons]
    split_ifs with howns
    · -- nobody has had the new state before
      have hnobody := h.unborn s (hstate s howns).ge
      omega
    · exact h.owner s
  · have hlater : pool.nextCancelState < s := hs
    rw [List.countP_cons, h.unborn s hlater.le, if_neg]
    intro howns
    exact hlater.ne (hstate s howns).symm
  · obtain ⟨other, hmem, hother⟩ := h.points s c hpoints
    exact ⟨other, List.mem_cons_of_mem _ hmem, hother⟩

/-- A new coroutine without a cancel state. -/
theorem Ownership.start_stateless (h : Ownership pool coroutines)
    (hempty : caller.phase.empty = true) (hstate : caller.cancelState = none) :
    Ownership pool (caller :: coroutines) := by
  refine h.weaken (fun c => ?_) (fun s => ?_) rfl rfl fun s c hpoints => ?_
  · rw [holders_cons, Caller.uses_eq_false hempty]
    exact le_rfl
  · have hnone : caller.ownsState s = false := by simp [Caller.ownsState, hstate]
    rw [List.countP_cons, hnone]
    exact le_rfl
  · obtain ⟨other, hmem, hother⟩ := h.points s c hpoints
    exact ⟨other, List.mem_cons_of_mem _ hmem, hother⟩

/-! ### Connections change hands -/

/-- An open connection that is neither idle nor held by one of the coroutines: the code
that runs has it in hand. -/
structure InHand (pool : Pool) (coroutines : List Caller) (connection : Connection) : Prop where
  nowhere : pool.holders coroutines connection.id = 0
  opened : connection.id < pool.nextConnection

theorem InHand.of_eq {pool' : Pool} (h : InHand pool coroutines connection)
    (hidle : pool'.idle = pool.idle) (hconnection : pool'.nextConnection = pool.nextConnection) :
    InHand pool' coroutines connection := by
  refine ⟨?_, hconnection ▸ h.opened⟩
  rw [Pool.holders, hidle]
  exact h.nowhere

theorem cancelStates_updateCancelState {f : CancelState → CancelState} {cancelState : Option Nat}
    (s : Nat) : (pool.updateCancelState cancelState f).cancelStates s =
      if cancelState = some s then f (pool.cancelStates s) else pool.cancelStates s := by
  cases cancelState with
  | none => rfl
  | some s' =>
    by_cases heq : s = s'
    · subst heq
      simp [Pool.updateCancelState]
    · simp [Pool.updateCancelState, heq, Ne.symm heq]

/-- A new connection is nobody's. -/
theorem Ownership.opened {request : Request} (h : Ownership pool coroutines) :
    Ownership (pool.opened options request).2 coroutines ∧
      InHand (pool.opened options request).2 coroutines (pool.opened options request).1 := by
  refine ⟨⟨h.once, fun c hc => ?_, h.owner, h.unborn, h.points⟩, ?_, Nat.lt_succ_self _⟩
  · exact h.unopened c (Nat.le_of_succ_le hc)
  · exact h.unopened pool.nextConnection le_rfl

/-- The last idle connection is taken off the list. -/
theorem Ownership.takeIdle {reservedIdle : Nat} (h : Ownership pool coroutines)
    (hidle : pool.idle = pool.idle.dropLast ++ [connection]) :
    Ownership { pool with idle := pool.idle.dropLast, reservedIdle } coroutines ∧
      InHand { pool with idle := pool.idle.dropLast, reservedIdle } coroutines connection := by
  have hsplit : pool.holders coroutines connection.id =
      (pool.idle.dropLast.countP (fun other => other.id == connection.id) + 1) +
        coroutines.countP (Caller.uses connection.id) := by
    rw [Pool.holders, hidle, List.countP_append]
    simp
  have honce := h.once connection.id
  refine ⟨h.of_sublist (List.dropLast_sublist _) rfl rfl fun _ => rfl, ?_, ?_⟩
  · rw [Pool.holders]
    dsimp only
    omega
  · by_contra hnew
    have hnone := h.unopened connection.id (not_lt.mp hnew)
    omega

/-- The connection in hand becomes idle. -/
theorem Ownership.returnIdle (h : Ownership pool coroutines)
    (hhand : InHand pool coroutines connection) :
    Ownership (pool.returnIdle connection) coroutines := by
  have hadd (c : Nat) : (pool.returnIdle connection).holders coroutines c =
      pool.holders coroutines c + if connection.id = c then 1 else 0 := by
    rw [Pool.holders, Pool.holders, idle_returnIdle, List.countP_append, List.countP_singleton]
    simp only [beq_iff_eq]
    omega
  refine ⟨fun c => ?_, fun c hc => ?_, h.owner, h.unborn, h.points⟩
  · rw [hadd]
    split_ifs with heq
    · rw [← heq, hhand.nowhere]
    · exact h.once c
  · have hlater : pool.nextConnection ≤ c := hc
    rw [hadd, h.unopened c hlater, if_neg]
    intro heq
    exact absurd hhand.opened (by omega)

/-- A request is given the connection in hand, and its cancel state points at it. -/
theorem Ownership.give (h : Ownership pool (caller :: coroutines))
    (hempty : caller.phase.empty = true) (hhand : InHand pool (caller :: coroutines) connection) :
    Ownership
      (pool.updateCancelState caller.cancelState fun state =>
        { state with connection := some connection.id })
      ({ caller with phase := .exchanging connection } :: coroutines) := by
  have hadd (c : Nat) : (pool.updateCancelState caller.cancelState fun state =>
      { state with connection := some connection.id }).holders
        ({ caller with phase := .exchanging connection } :: coroutines) c =
      pool.holders (caller :: coroutines) c + if connection.id = c then 1 else 0 := by
    rw [holders_cons, holders_cons, Caller.uses_eq_false hempty, Caller.uses_exchanging rfl,
      Pool.holders, Pool.holders, idle_updateCancelState]
    simp
  have hcounters : (pool.updateCancelState caller.cancelState fun state =>
      { state with connection := some connection.id }).nextConnection = pool.nextConnection ∧
      (pool.updateCancelState caller.cancelState fun state =>
        { state with connection := some connection.id }).nextCancelState =
          pool.nextCancelState := by
    cases caller.cancelState <;> exact ⟨rfl, rfl⟩
  refine ⟨fun c => ?_, fun c hc => ?_, h.owner, fun s hs => ?_, fun s c hpoints => ?_⟩
  · rw [hadd]
    split_ifs with heq
    · rw [← heq, hhand.nowhere]
    · exact h.once c
  · rw [hcounters.1] at hc
    rw [hadd, h.unopened c hc, if_neg]
    intro heq
    exact absurd hhand.opened (by omega)
  · exact h.unborn s (hcounters.2 ▸ hs)
  · rw [cancelStates_updateCancelState] at hpoints
    split_ifs at hpoints with hown
    · -- the state is the request's own
      refine ⟨_, List.mem_cons_self, by simp [Caller.ownsState, hown], ?_⟩
      rw [Caller.uses_exchanging rfl, ← Option.some.inj hpoints, beq_self_eq_true]
    · obtain ⟨other, hmem, howns, huses⟩ := h.points s c hpoints
      rcases List.mem_cons.mp hmem with rfl | hmem
      · rw [Caller.uses_eq_false hempty] at huses
        exact absurd huses Bool.false_ne_true
      · exact ⟨other, List.mem_cons_of_mem _ hmem, howns, huses⟩

/-- A request ends its exchange: its cancel state forgets the connection, which is then
in hand. -/
theorem Ownership.release (h : Ownership pool (caller :: coroutines))
    (hphase : caller.phase = .exchanging connection) :
    Ownership
        (pool.updateCancelState caller.cancelState fun state => { state with connection := none })
        coroutines ∧
      InHand
        (pool.updateCancelState caller.cancelState fun state => { state with connection := none })
        coroutines connection := by
  have hcounters : (pool.updateCancelState caller.cancelState fun state =>
      { state with connection := none }).nextConnection = pool.nextConnection ∧
      (pool.updateCancelState caller.cancelState fun state =>
        { state with connection := none }).nextCancelState = pool.nextCancelState := by
    cases caller.cancelState <;> exact ⟨rfl, rfl⟩
  have hsame (l : List Caller) (c : Nat) :
      (pool.updateCancelState caller.cancelState fun state =>
        { state with connection := none }).holders l c = pool.holders l c := by
    rw [Pool.holders, idle_updateCancelState, Pool.holders]
  have hcount : pool.holders (caller :: coroutines) connection.id =
      pool.holders coroutines connection.id + 1 := by
    rw [holders_cons, Caller.uses_exchanging hphase, beq_self_eq_true, if_pos rfl]
  have honce := h.once connection.id
  refine ⟨h.weaken (fun c => ?_) (fun s => ?_) hcounters.1 hcounters.2 fun s c hpoints => ?_,
    ?_, ?_⟩
  · rw [hsame, holders_cons]
    exact Nat.le_add_right _ _
  · rw [List.countP_cons]
    exact Nat.le_add_right _ _
  · rw [cancelStates_updateCancelState] at hpoints
    split_ifs at hpoints with hown
    obtain ⟨other, hmem, howns, huses⟩ := h.points s c hpoints
    rcases List.mem_cons.mp hmem with rfl | hmem
    · exact absurd (beq_iff_eq.mp howns) hown
    · exact ⟨other, hmem, howns, huses⟩
  · rw [hsame]
    omega
  · rw [hcounters.1]
    by_contra hnew
    have hnone := h.unopened connection.id (not_lt.mp hnew)
    omega

/-! ### The posted cancellation -/

/-- `cancel_request_on_shard` -/
def Pool.cancelRequestOnShard (pool : Pool) (id : Nat) : Pool :=
  let state := pool.cancelStates id
  let pool := pool.updateCancelState (some id) fun state => { state with cancelled := true }
  let pool := { pool with closed := pool.closed ++ state.connection.toList }
  match state.waiter with
  | none => pool
  | some w =>
    { pool with
      waiters := Function.update pool.waiters w { pool.waiters w with cancelled := true } }

theorem step_cancelOnShard_eq {id : Nat} (h : step options pool (.cancelOnShard id) = some pool') :
    id < pool.nextCancelState ∧ pool' = pool.cancelRequestOnShard id := by
  simp only [step] at h
  split_ifs at h with hknown
  refine ⟨hknown, ?_⟩
  unfold Pool.cancelRequestOnShard
  cases hwaiter : (pool.cancelStates id).waiter with
  | none =>
    simp only [hwaiter] at h ⊢
    exact (Option.some.inj h).symm
  | some w =>
    simp only [hwaiter] at h ⊢
    exact (Option.some.inj h).symm

theorem cancelRequestOnShard_eq (pool : Pool) (id : Nat) :
    ∃ waiters, pool.cancelRequestOnShard id =
      { pool with
        closed := pool.closed ++ (pool.cancelStates id).connection.toList
        waiters }.updateCancelState (some id) fun state => { state with cancelled := true } := by
  unfold Pool.cancelRequestOnShard
  cases hwaiter : (pool.cancelStates id).waiter with
  | none =>
    simp only [hwaiter]
    exact ⟨pool.waiters, rfl⟩
  | some w =>
    simp only [hwaiter]
    exact ⟨_, rfl⟩

/-- A cancellation moves no connection. -/
theorem Ownership.cancelRequestOnShard (h : Ownership pool (pool.callers ++ others)) (id : Nat) :
    Ownership (pool.cancelRequestOnShard id)
      ((pool.cancelRequestOnShard id).callers ++ others) := by
  obtain ⟨waiters, heq⟩ := cancelRequestOnShard_eq pool id
  rw [heq, callers_updateCancelState]
  refine Ownership.updateCancelState ?_ (some id)
    (fun state => { state with cancelled := true }) fun _ => rfl
  exact h.of_eq rfl rfl rfl rfl

/-! ### One step of the requests and workers -/

/-- Suspending a request puts it at the end of the list. -/
theorem Ownership.suspend (caller : Caller) (phase : Phase)
    (h : Ownership pool ({ caller with phase } :: (pool.callers ++ others))) :
    Ownership (pool.suspend caller phase) ((pool.suspend caller phase).callers ++ others) := by
  have hput : Ownership (pool.suspend caller phase)
      ({ caller with phase } :: (pool.callers ++ others)) := h.of_eq rfl rfl rfl rfl
  exact hput.perm (perm_append_cons pool.callers others _)

theorem Ownership.startExchange (h : Ownership pool (caller :: (pool.callers ++ others)))
    (hempty : caller.phase.empty = true)
    (hhand : InHand pool (caller :: (pool.callers ++ others)) connection) :
    Ownership (pool.startExchange caller connection)
      ((pool.startExchange caller connection).callers ++ others) := by
  have hgive := h.give hempty hhand
  have hcallers : (pool.updateCancelState caller.cancelState fun state =>
      { state with connection := some connection.id }).callers = pool.callers :=
    callers_updateCancelState
  rw [← hcallers] at hgive
  exact hgive.suspend caller _

theorem Ownership.enqueue (h : Ownership pool (caller :: (pool.callers ++ others)))
    (hempty : caller.phase.empty = true) :
    Ownership (pool.enqueue caller) ((pool.enqueue caller).callers ++ others) := by
  have hstate := h.updateCancelState caller.cancelState
    (fun state => { state with waiter := some pool.nextWaiter }) fun _ => rfl
  have hcallers : (pool.updateCancelState caller.cancelState fun state =>
      { state with waiter := some pool.nextWaiter }).callers = pool.callers :=
    callers_updateCancelState
  rw [← hcallers] at hstate
  unfold Pool.enqueue
  dsimp only
  split_ifs with hcancelled
  · -- the wait throws at once
    have hended := hstate.drop_empty hempty
    exact hended.of_eq rfl rfl rfl rfl
  · refine Ownership.suspend caller _ ?_
    have hwaiting := hstate.setPhase (.waiting pool.nextWaiter) hempty rfl
    exact hwaiting.of_eq rfl rfl rfl rfl

theorem dropReservation_eq (pool : Pool) (reserved : Bool) :
    ∃ reservedIdle, pool.dropReservation reserved = { pool with reservedIdle } := by
  unfold Pool.dropReservation
  split_ifs with hdrop
  · exact ⟨_, rfl⟩
  · exact ⟨pool.reservedIdle, rfl⟩

/-- One pass through the acquire loop. -/
theorem Ownership.acquirePass {woke reserved : Bool}
    (h : Ownership pool (caller :: (pool.callers ++ others)))
    (hempty : caller.phase.empty = true) :
    Ownership (pool.acquirePass options caller woke reserved)
      ((pool.acquirePass options caller woke reserved).callers ++ others) := by
  unfold Pool.acquirePass
  rcases attempt_cases options pool woke reserved with
    ⟨connection, hidle, -, heq⟩ | ⟨-, heq⟩
  · rw [heq]
    obtain ⟨htaken, hhand⟩ := h.takeIdle hidle
    exact htaken.startExchange hempty hhand
  · rw [heq]
    obtain ⟨reservedIdle, hdrop⟩ := dropReservation_eq pool reserved
    rw [hdrop]
    split_ifs with hmay
    · have hconnecting := h.setPhase .connecting hempty rfl
      exact Ownership.suspend caller _ (hconnecting.of_eq rfl rfl rfl rfl)
    · have hkept : Ownership { pool with reservedIdle } (caller :: (pool.callers ++ others)) :=
        h.of_eq rfl rfl rfl rfl
      exact hkept.enqueue hempty

theorem Ownership.workerPass (h : Ownership pool coroutines) :
    Ownership (pool.workerPass options worker) coroutines := by
  unfold Pool.workerPass
  split_ifs with hstop
  · exact h
  dsimp only
  split_ifs with hdone
  · exact h.of_eq rfl rfl rfl rfl
  · exact h.of_eq rfl rfl rfl rfl

/-- A request is taken out to run. -/
theorem Ownership.takeCaller (h : Ownership pool (pool.callers ++ others))
    (htake : pool.takeCaller i = some (caller, pool')) :
    Ownership pool' (caller :: (pool'.callers ++ others)) := by
  obtain ⟨hperm, heq⟩ := takeCaller_perm htake
  have hout := h.perm (hperm.append_right others)
  rw [heq]
  exact hout.of_eq rfl rfl rfl rfl

theorem Ownership.takeWorker (h : Ownership pool (pool.callers ++ others))
    (htake : pool.takeWorker i = some (worker, pool')) :
    Ownership pool' (pool'.callers ++ others) := by
  obtain ⟨-, heq⟩ := takeWorker_perm htake
  rw [heq]
  exact h.of_eq rfl rfl rfl rfl

/-- A request ends and gives up its waiter. -/
theorem Ownership.stopWaiting (h : Ownership pool (caller :: (pool.callers ++ others)))
    (hempty : caller.phase.empty = true) :
    Ownership
      (pool.updateCancelState caller.cancelState fun state => { state with waiter := none })
      (pool.callers ++ others) := by
  have hstate := h.updateCancelState caller.cancelState
    (fun state => { state with waiter := none }) fun _ => rfl
  exact hstate.drop_empty hempty

/-- Every step of the requests and workers keeps the ownership. -/
theorem Ownership.step {a : Action} (h : Ownership pool (pool.callers ++ others))
    (hstep : step options pool a = some pool') :
    Ownership pool' (pool'.callers ++ others) := by
  cases a with
  | acquire request cancelled handler =>
    obtain rfl := Option.some.inj hstep
    refine Ownership.acquirePass (h.start rfl fun s howns => ?_) rfl
    cases handler with
    | true => exact absurd howns Bool.false_ne_true
    | false => exact (Option.some.inj (beq_iff_eq.mp howns)).symm
  | resume i =>
    obtain ⟨caller, base, w, htake, hphase, -, rfl⟩ := step_resume hstep
    have hempty : caller.phase.empty = true := by rw [hphase]; rfl
    have hbase := (h.takeCaller htake).updateCancelState caller.cancelState
      (fun state => { state with waiter := none }) fun _ => rfl
    have hcallers : (base.updateCancelState caller.cancelState fun state =>
        { state with waiter := none }).callers = base.callers := callers_updateCancelState
    rw [← hcallers] at hbase
    exact hbase.acquirePass hempty
  | expire i =>
    obtain ⟨caller, base, w, htake, hphase, rfl⟩ := step_expire hstep
    have hempty : caller.phase.empty = true := by rw [hphase]; rfl
    rw [callers_updateCancelState]
    exact (h.takeCaller htake).stopWaiting hempty
  | cancelSignal i =>
    obtain ⟨caller, base, htake, rfl⟩ := step_cancelSignal hstep
    have hsignalled := (h.takeCaller htake).replace { caller with cancelled := true }
      (fun _ => rfl) fun _ => rfl
    exact hsignalled.suspend { caller with cancelled := true } caller.phase
  | abortWait i =>
    obtain ⟨caller, base, w, htake, hphase, -, rfl⟩ := step_abortWait hstep
    have hempty : caller.phase.empty = true := by rw [hphase]; rfl
    rw [callers_updateCancelState]
    have hbase : Ownership
        { base with
          waiters := Function.update base.waiters w { base.waiters w with cancelled := true }
          queue := base.queue.filter (· ≠ w) } (caller :: (base.callers ++ others)) :=
      (h.takeCaller htake).of_eq rfl rfl rfl rfl
    exact hbase.stopWaiting hempty
  | cancelOnShard id =>
    obtain ⟨-, rfl⟩ := step_cancelOnShard_eq hstep
    exact h.cancelRequestOnShard id
  | connectSucceeded i =>
    obtain ⟨caller, base, htake, hphase, rfl⟩ := step_connectSucceeded hstep
    have hempty : caller.phase.empty = true := by rw [hphase]; rfl
    obtain ⟨hopened, hhand⟩ := (h.takeCaller htake).opened
    exact hopened.wakeOne.startExchange hempty (hhand.of_eq rfl rfl)
  | connectFailed i =>
    obtain ⟨caller, base, htake, hphase, rfl⟩ := step_connectFailed hstep
    have hempty : caller.phase.empty = true := by rw [hphase]; rfl
    exact ((h.takeCaller htake).drop_empty hempty).of_eq rfl rfl rfl rfl
  | exchanged i result =>
    obtain ⟨caller, base, connection, forgotten, htake, hphase, rfl, hend⟩ :=
      step_exchanged_forgets hstep
    obtain ⟨hreleased, hhand⟩ := (h.takeCaller htake).release hphase
    rcases hend with rfl | rfl
    · rw [callers_returnIdle, callers_updateCancelState]
      exact hreleased.returnIdle hhand
    · rw [callers_lose, callers_updateCancelState]
      exact hreleased.lose
  | preconnect request targetCount =>
    obtain ⟨nextCall, launched, worker, n, -, rfl⟩ := step_preconnect hstep
    exact h.of_eq rfl rfl rfl rfl
  | workerStarts i =>
    obtain ⟨worker, base, htake, -, rfl⟩ := step_workerStarts hstep
    rw [callers_workerPass]
    exact (h.takeWorker htake).workerPass
  | workerConnected i =>
    obtain ⟨worker, base, htake, -, rfl⟩ := step_workerConnected hstep
    obtain ⟨hopened, hhand⟩ := (h.takeWorker htake).opened
    rw [callers_workerPass]
    exact (hopened.returnIdle hhand).workerPass
  | workerFailed i =>
    obtain ⟨worker, base, htake, -, rfl⟩ := step_workerFailed hstep
    exact (h.takeWorker htake).of_eq rfl rfl rfl rfl

/-! ### One step of the probes -/

namespace ProbedPool

variable {pool pool' : ProbedPool} {probe : Caller} {h2 : Bool}

/-- The ownership among requests and probes, while `running` is being run. Probes have no
cancel state. -/
structure Owned (pool : ProbedPool) (running : List Caller) : Prop where
  ownership : Ownership pool.side (running ++ pool.coroutines)
  stateless : ∀ probe ∈ running ++ pool.probes, probe.cancelState = none

theorem owned_empty : Owned {} [] := ⟨ownership_empty, fun _ h => nomatch h⟩

/-- What happens to the side alone. -/
theorem Owned.setSide {side : Pool} {running : List Caller} (h : pool.Owned running)
    (hside : Ownership side (running ++ pool.coroutines))
    (hcallers : side.callers = pool.side.callers) : Owned { pool with side } running := by
  refine ⟨?_, h.stateless⟩
  unfold coroutines
  dsimp only
  rw [hcallers]
  exact hside

/-- The probe that runs ends without a connection. -/
theorem Owned.drop (h : pool.Owned [probe]) : pool.Owned [] := by
  refine ⟨Ownership.drop h.ownership fun s c howns _ => ?_, fun other hmem => ?_⟩
  · -- no cancel state is the probe's
    have hnone : probe.cancelState = none := h.stateless probe List.mem_cons_self
    simp [Caller.ownsState, hnone] at howns
  · exact h.stateless other (List.mem_cons_of_mem _ hmem)

theorem Owned.suspendProbe (probe : Caller) (phase : Phase)
    (h : pool.Owned [{ probe with phase }]) :
    (pool.suspendProbe probe phase).Owned [] := by
  refine ⟨h.ownership.perm (coroutines_suspendProbe pool probe phase), fun other hmem => ?_⟩
  have hmem : other ∈ pool.probes ++ [{ probe with phase }] := hmem
  rcases List.mem_append.mp hmem with hmem | hmem
  · exact h.stateless other (List.mem_cons_of_mem _ hmem)
  · obtain rfl := List.mem_singleton.mp hmem
    exact h.stateless _ List.mem_cons_self

/-- The probe that runs may change, but it gets no cancel state. -/
theorem Owned.replace (probe' : Caller) (h : pool.Owned [probe])
    (hside : Ownership pool.side (probe' :: pool.coroutines))
    (hstate : probe'.cancelState = probe.cancelState) : pool.Owned [probe'] := by
  refine ⟨hside, fun other hmem => ?_⟩
  rcases List.mem_cons.mp hmem with rfl | hmem
  · exact hstate.trans (h.stateless probe List.mem_cons_self)
  · exact h.stateless other (List.mem_cons_of_mem _ hmem)

theorem Owned.setPhase (phase : Phase) (h : pool.Owned [probe])
    (hbefore : probe.phase.empty = true) (hafter : phase.empty = true) :
    pool.Owned [{ probe with phase }] :=
  h.replace _ (Ownership.setPhase phase h.ownership hbefore hafter) rfl

/-- A probe is given the connection in hand. -/
theorem Owned.proceed {connection : Connection} (h : pool.Owned [probe])
    (hempty : probe.phase.empty = true)
    (hhand : InHand pool.side (probe :: pool.coroutines) connection) :
    (pool.proceed probe connection h2).Owned [] := by
  unfold ProbedPool.proceed
  split_ifs with hh2
  · exact h.drop.setSide h.drop.ownership.lose rfl
  · have hnone : probe.cancelState = none := h.stateless probe List.mem_cons_self
    have hgive := Ownership.give h.ownership hempty hhand
    rw [hnone] at hgive
    refine Owned.suspendProbe probe _ (h.replace _ ?_ rfl)
    exact hgive.replace _ (fun s => by simp [Caller.ownsState, hnone]) fun _ => rfl

theorem Owned.enqueueProbe (h : pool.Owned [probe]) (hempty : probe.phase.empty = true) :
    (pool.enqueueProbe probe).Owned [] := by
  have hside : Owned { pool with side := pool.side.addWaiter } [probe] :=
    h.setSide (h.ownership.of_eq rfl rfl rfl rfl) rfl
  unfold ProbedPool.enqueueProbe
  dsimp only
  split_ifs with hcancelled
  · exact hside.drop
  · exact Owned.suspendProbe probe _ (hside.setPhase (.waiting pool.side.nextWaiter) hempty rfl)

theorem Owned.probePass {reserved : Bool} (h : pool.Owned [probe])
    (hempty : probe.phase.empty = true) :
    (pool.probePass options probe reserved h2).Owned [] := by
  unfold ProbedPool.probePass
  rcases probeAttempt_cases options pool.side reserved with
    ⟨-, heq⟩ | ⟨-, ⟨connection, hidle, heq⟩ | ⟨-, heq⟩⟩
  · rw [heq]
    exact h.enqueueProbe hempty
  · rw [heq]
    obtain ⟨htaken, hhand⟩ := Ownership.takeIdle h.ownership hidle
    exact Owned.proceed (h.setSide htaken rfl) hempty hhand
  · rw [heq]
    have hconnecting := h.setPhase .connecting hempty rfl
    exact Owned.suspendProbe probe _
      (hconnecting.setSide (hconnecting.ownership.of_eq rfl rfl rfl rfl) rfl)

/-- A probe is taken out to run. -/
theorem Owned.takeProbe (h : pool.Owned []) (htake : pool.takeProbe i = some (probe, pool')) :
    pool'.Owned [probe] := by
  obtain ⟨hperm, hside⟩ := takeProbe_perm htake
  obtain ⟨other, hother, hpair⟩ := Option.map_eq_some_iff.mp htake
  obtain ⟨rfl, rfl⟩ := Prod.mk.inj hpair
  refine ⟨Ownership.perm h.ownership hperm, fun probe hmem => ?_⟩
  rcases List.mem_cons.mp hmem with rfl | hmem
  · exact h.stateless _ (List.mem_of_getElem? hother)
  · exact h.stateless probe (List.mem_of_mem_eraseIdx hmem)

/-- Every step of the side and its probes keeps the ownership. -/
theorem Owned.step {a : ProbedAction} (h : pool.Owned [])
    (hstep : pool.step options a = some pool') : pool'.Owned [] := by
  cases a with
  | request action =>
    obtain ⟨side, hside, rfl⟩ := Option.map_eq_some_iff.mp hstep
    exact ⟨Ownership.step h.ownership hside, h.stateless⟩
  | probe request cancelled h2 =>
    obtain rfl := Option.some.inj hstep
    refine Owned.probePass ⟨Ownership.start_stateless h.ownership rfl rfl, fun other hmem => ?_⟩ rfl
    rcases List.mem_cons.mp hmem with rfl | hmem
    · rfl
    · exact h.stateless other hmem
  | probeResume i h2 =>
    obtain ⟨probe, base, w, htake, hphase, -, rfl⟩ := step_probeResume hstep
    have hempty : probe.phase.empty = true := by rw [hphase]; rfl
    exact (h.takeProbe htake).probePass hempty
  | probeExpire i =>
    obtain ⟨probe, w, htake, -⟩ := step_probeExpire hstep
    exact (h.takeProbe htake).drop
  | probeCancelSignal i =>
    obtain ⟨probe, base, htake, rfl⟩ := step_probeCancelSignal hstep
    have hbase := h.takeProbe htake
    have hsignalled : base.Owned [{ probe with cancelled := true }] :=
      hbase.replace _ (Ownership.replace _ hbase.ownership (fun _ => rfl) fun _ => rfl) rfl
    exact hsignalled.suspendProbe { probe with cancelled := true } probe.phase
  | probeAbortWait i =>
    obtain ⟨probe, base, w, htake, -, rfl⟩ := step_probeAbortWait hstep
    have hbase := (h.takeProbe htake).drop
    exact hbase.setSide (hbase.ownership.of_eq rfl rfl rfl rfl) rfl
  | probeConnectSucceeded i h2 =>
    obtain ⟨probe, base, htake, hphase, rfl⟩ := step_probeConnectSucceeded hstep
    have hempty : probe.phase.empty = true := by rw [hphase]; rfl
    have hbase := h.takeProbe htake
    obtain ⟨hopened, hhand⟩ := hbase.ownership.opened
    exact Owned.proceed (hbase.setSide hopened.wakeOne rfl) hempty (hhand.of_eq rfl rfl)
  | probeConnectFailed i =>
    obtain ⟨probe, base, htake, -, rfl⟩ := step_probeConnectFailed hstep
    have hbase := (h.takeProbe htake).drop
    exact hbase.setSide (hbase.ownership.of_eq rfl rfl rfl rfl) rfl
  | probeExchanged i result =>
    obtain ⟨probe, base, connection, htake, hphase, hend⟩ := step_probeExchanged hstep
    have hbase := h.takeProbe htake
    have hnone : probe.cancelState = none := hbase.stateless probe List.mem_cons_self
    rcases hend with ⟨-, rfl⟩ | ⟨-, rfl⟩ | ⟨-, rfl⟩
    · have hreleased := Ownership.release hbase.ownership hphase
      rw [hnone] at hreleased
      exact hbase.drop.setSide (hreleased.1.returnIdle hreleased.2) rfl
    · exact hbase.drop.setSide hbase.drop.ownership.lose rfl
    · exact hbase.drop

end ProbedPool

/-! ### What is closed -/

theorem closed_updateCancelState {cancelState : Option Nat} {f : CancelState → CancelState} :
    (pool.updateCancelState cancelState f).closed = pool.closed := by
  cases cancelState <;> rfl

theorem closed_acquirePass {woke reserved : Bool} :
    (pool.acquirePass options caller woke reserved).closed = pool.closed := by
  unfold Pool.acquirePass
  rcases attempt_cases options pool woke reserved with
    ⟨connection, -, -, heq⟩ | ⟨-, heq⟩
  · rw [heq]
    exact closed_updateCancelState
  · rw [heq]
    obtain ⟨reservedIdle, hdrop⟩ := dropReservation_eq pool reserved
    rw [hdrop]
    split_ifs with hmay
    · rfl
    · unfold Pool.enqueue
      dsimp only
      split_ifs with hcancelled <;> exact closed_updateCancelState

theorem closed_workerPass : (pool.workerPass options worker).closed = pool.closed := by
  unfold Pool.workerPass
  split_ifs with hstop
  · rfl
  dsimp only
  split_ifs <;> rfl

theorem closed_takeCaller (htake : pool.takeCaller i = some (caller, pool')) :
    pool'.closed = pool.closed := by
  rw [(takeCaller_perm htake).2]

theorem closed_takeWorker (htake : pool.takeWorker i = some (worker, pool')) :
    pool'.closed = pool.closed := by
  rw [(takeWorker_perm htake).2]

/-- Requests and workers leave it to `cancel_request_on_shard` to close a connection for a
cancellation. -/
theorem closed_step {a : Action} (hstep : step options pool a = some pool') :
    pool'.closed = pool.closed ∨
      ∃ id, a = .cancelOnShard id ∧ pool' = pool.cancelRequestOnShard id := by
  cases a with
  | cancelOnShard id => exact Or.inr ⟨id, rfl, (step_cancelOnShard_eq hstep).2⟩
  | acquire request cancelled handler =>
    obtain rfl := Option.some.inj hstep
    exact Or.inl closed_acquirePass
  | resume i =>
    obtain ⟨caller, base, w, htake, -, -, rfl⟩ := step_resume hstep
    have hbase := closed_takeCaller htake
    refine Or.inl ?_
    rw [closed_acquirePass, closed_updateCancelState, hbase]
  | expire i =>
    obtain ⟨caller, base, w, htake, -, rfl⟩ := step_expire hstep
    have hbase := closed_takeCaller htake
    exact Or.inl (closed_updateCancelState.trans hbase)
  | cancelSignal i =>
    obtain ⟨caller, base, htake, rfl⟩ := step_cancelSignal hstep
    have hbase := closed_takeCaller htake
    exact Or.inl hbase
  | abortWait i =>
    obtain ⟨caller, base, w, htake, -, -, rfl⟩ := step_abortWait hstep
    have hbase := closed_takeCaller htake
    refine Or.inl ?_
    rw [closed_updateCancelState]
    exact hbase
  | connectSucceeded i =>
    obtain ⟨caller, base, htake, -, rfl⟩ := step_connectSucceeded hstep
    have hbase := closed_takeCaller htake
    exact Or.inl (closed_updateCancelState.trans hbase)
  | connectFailed i =>
    obtain ⟨caller, base, htake, -, rfl⟩ := step_connectFailed hstep
    have hbase := closed_takeCaller htake
    exact Or.inl hbase
  | exchanged i result =>
    obtain ⟨caller, base, connection, f, htake, -, hend⟩ := step_exchanged hstep
    have hbase := closed_takeCaller htake
    rcases hend with rfl | rfl
    · exact Or.inl (closed_updateCancelState.trans hbase)
    · exact Or.inl (closed_updateCancelState.trans hbase)
  | preconnect request targetCount =>
    obtain ⟨nextCall, launched, worker, n, -, rfl⟩ := step_preconnect hstep
    exact Or.inl rfl
  | workerStarts i =>
    obtain ⟨worker, base, htake, -, rfl⟩ := step_workerStarts hstep
    have hbase := closed_takeWorker htake
    exact Or.inl (closed_workerPass.trans hbase)
  | workerConnected i =>
    obtain ⟨worker, base, htake, -, rfl⟩ := step_workerConnected hstep
    have hbase := closed_takeWorker htake
    exact Or.inl (closed_workerPass.trans hbase)
  | workerFailed i =>
    obtain ⟨worker, base, htake, -, rfl⟩ := step_workerFailed hstep
    have hbase := closed_takeWorker htake
    exact Or.inl hbase

namespace ProbedPool

variable {pool pool' : ProbedPool} {probe : Caller} {h2 : Bool}

theorem closed_proceed : (pool.proceed probe connection h2).side.closed = pool.side.closed := by
  unfold ProbedPool.proceed
  split_ifs <;> rfl

theorem closed_probePass {reserved : Bool} :
    (pool.probePass options probe reserved h2).side.closed = pool.side.closed := by
  unfold ProbedPool.probePass
  rcases probeAttempt_cases options pool.side reserved with
    ⟨-, heq⟩ | ⟨-, ⟨connection, -, heq⟩ | ⟨-, heq⟩⟩
  · rw [heq]
    unfold ProbedPool.enqueueProbe
    dsimp only
    split_ifs <;> rfl
  · rw [heq]
    exact closed_proceed
  · rw [heq]
    rfl

theorem closed_takeProbe (htake : pool.takeProbe i = some (probe, pool')) :
    pool'.side.closed = pool.side.closed := congrArg Pool.closed (takeProbe_perm htake).2

/-- Probes close nothing for a cancellation. -/
theorem closed_step {a : ProbedAction} (hstep : pool.step options a = some pool') :
    pool'.side.closed = pool.side.closed ∨
      ∃ id, a = .request (.cancelOnShard id) ∧
        pool' = { pool with side := pool.side.cancelRequestOnShard id } := by
  cases a with
  | request action =>
    obtain ⟨side, hside, rfl⟩ := Option.map_eq_some_iff.mp hstep
    rcases H1.closed_step hside with hsame | ⟨id, rfl, rfl⟩
    · exact Or.inl hsame
    · exact Or.inr ⟨id, rfl, rfl⟩
  | probe request cancelled h2 =>
    obtain rfl := Option.some.inj hstep
    exact Or.inl closed_probePass
  | probeResume i h2 =>
    obtain ⟨probe, base, w, htake, -, -, rfl⟩ := step_probeResume hstep
    have hbase := closed_takeProbe htake
    exact Or.inl (closed_probePass.trans hbase)
  | probeExpire i =>
    obtain ⟨probe, w, htake, -⟩ := step_probeExpire hstep
    have hbase := closed_takeProbe htake
    exact Or.inl hbase
  | probeCancelSignal i =>
    obtain ⟨probe, base, htake, rfl⟩ := step_probeCancelSignal hstep
    have hbase := closed_takeProbe htake
    exact Or.inl hbase
  | probeAbortWait i =>
    obtain ⟨probe, base, w, htake, -, rfl⟩ := step_probeAbortWait hstep
    have hbase := closed_takeProbe htake
    exact Or.inl hbase
  | probeConnectSucceeded i h2 =>
    obtain ⟨probe, base, htake, -, rfl⟩ := step_probeConnectSucceeded hstep
    have hbase := closed_takeProbe htake
    exact Or.inl (closed_proceed.trans hbase)
  | probeConnectFailed i =>
    obtain ⟨probe, base, htake, -, rfl⟩ := step_probeConnectFailed hstep
    have hbase := closed_takeProbe htake
    exact Or.inl hbase
  | probeExchanged i result =>
    obtain ⟨probe, base, connection, htake, -, hend⟩ := step_probeExchanged hstep
    have hbase := closed_takeProbe htake
    rcases hend with ⟨-, rfl⟩ | ⟨-, rfl⟩ | ⟨-, rfl⟩ <;> exact Or.inl hbase

end ProbedPool

/-! ### A shard -/

/-- An origin of a shard: its pool and the probes of the TLS side. -/
structure ShardOrigin where
  pool : OriginPool := {}
  probes : List Caller := []

/-- The two sides of an origin. -/
inductive Side where
  | plain
  | tls
  deriving DecidableEq, Repr

namespace ShardOrigin

/-- The TLS side with its probes. -/
def probed (origin : ShardOrigin) : ProbedPool :=
  { side := origin.pool.tls, probes := origin.probes }

def side (origin : ShardOrigin) : Side → Pool
  | .plain => origin.pool.plain
  | .tls => origin.pool.tls

/-- The suspended requests and probes of a side. -/
def suspended (origin : ShardOrigin) : Side → List Caller
  | .plain => origin.pool.plain.callers
  | .tls => origin.probed.coroutines

/-- `cancel_request_on_shard`, for a cancel state of one of the sides. -/
def cancelRequest (origin : ShardOrigin) (side : Side) (id : Nat) : ShardOrigin :=
  match side with
  | .plain =>
    { origin with
      pool := { origin.pool with plain := origin.pool.plain.cancelRequestOnShard id } }
  | .tls =>
    { origin with pool := { origin.pool with tls := origin.pool.tls.cancelRequestOnShard id } }

end ShardOrigin

/-- A shard. An origin that is evicted comes back as a new one; the old one stays, for the
requests that have found it. -/
abbrev Shard := Nat → ShardOrigin

inductive ShardAction where
  | pool (origin : Nat) (action : OriginAction)
  | probed (origin : Nat) (action : ProbedAction)
  /-- A posted cancellation runs, also before its request has started or after it has
  ended. -/
  | cancel (origin : Nat) (side : Side) (id : Nat)

/-- One step of a shard; `none` if the action is not enabled. -/
def Shard.step (options : PoolOptions) (shard : Shard) : ShardAction → Option Shard
  | .pool o action =>
    ((shard o).pool.step options action).map fun pool =>
      Function.update shard o { shard o with pool }
  | .probed o action =>
    ((shard o).probed.step options action).map fun probed =>
      Function.update shard o
        { pool := { (shard o).pool with tls := probed.side }, probes := probed.probes }
  | .cancel o side id => some (Function.update shard o ((shard o).cancelRequest side id))

/-- The action runs `cancel_request_on_shard` for this cancel state. -/
def ShardAction.Cancels (o : Nat) (side : Side) (id : Nat) : ShardAction → Prop
  | .pool o' (.plain (.cancelOnShard id')) => o' = o ∧ side = .plain ∧ id' = id
  | .pool o' (.tls (.cancelOnShard id')) => o' = o ∧ side = .tls ∧ id' = id
  | .probed o' (.request (.cancelOnShard id')) => o' = o ∧ side = .tls ∧ id' = id
  | .cancel o' side' id' => o' = o ∧ side' = side ∧ id' = id
  | _ => False

/-- The ownership on both sides. -/
structure ShardOrigin.Owned (origin : ShardOrigin) : Prop where
  plain : Ownership origin.pool.plain origin.pool.plain.callers
  tls : origin.probed.Owned []

theorem ShardOrigin.Owned.side {origin : ShardOrigin} (h : origin.Owned) :
    ∀ side, Ownership (origin.side side) (origin.suspended side)
  | .plain => h.plain
  | .tls => h.tls.ownership

/-- A side without other coroutines than its requests. -/
theorem Ownership.step_alone {a : Action} (h : Ownership pool pool.callers)
    (hstep : H1.step options pool a = some pool') : Ownership pool' pool'.callers := by
  rw [← List.append_nil pool.callers] at h
  rw [← List.append_nil pool'.callers]
  exact h.step hstep

theorem Ownership.resetConnections (h : Ownership pool coroutines) :
    Ownership pool.resetConnections coroutines :=
  h.of_sublist (List.nil_sublist _) rfl rfl fun _ => rfl

theorem Ownership.closePoolIdle (h : Ownership pool coroutines) :
    Ownership pool.closePoolIdle coroutines :=
  h.of_sublist (List.nil_sublist _) rfl rfl fun _ => rfl

theorem ShardOrigin.Owned.step_pool {origin : ShardOrigin} {pool' : OriginPool}
    {action : OriginAction} (h : origin.Owned)
    (hstep : origin.pool.step options action = some pool') :
    Owned { origin with pool := pool' } := by
  cases action with
  | plain action =>
    obtain ⟨plain, hplain, rfl⟩ := Option.map_eq_some_iff.mp hstep
    exact ⟨h.plain.step_alone hplain, h.tls⟩
  | tls action =>
    obtain ⟨tls, htls, rfl⟩ := Option.map_eq_some_iff.mp hstep
    exact ⟨h.plain, ⟨Ownership.step h.tls.ownership htls, h.tls.stateless⟩⟩
  | startActors target =>
    obtain rfl := Option.some.inj hstep
    exact ⟨h.plain, h.tls⟩
  | resetConnections =>
    obtain rfl := Option.some.inj hstep
    exact ⟨h.plain.resetConnections,
      h.tls.setSide (Ownership.resetConnections h.tls.ownership) rfl⟩
  | evict =>
    simp only [OriginPool.step] at hstep
    split_ifs at hstep with hidle
    obtain rfl := Option.some.inj hstep
    exact ⟨h.plain.closePoolIdle, h.tls.setSide (Ownership.closePoolIdle h.tls.ownership) rfl⟩

theorem ShardOrigin.Owned.cancelRequest {origin : ShardOrigin} (h : origin.Owned) (id : Nat) :
    ∀ side, (origin.cancelRequest side id).Owned
  | .plain => by
    have hplain : Ownership origin.pool.plain (origin.pool.plain.callers ++ []) := by
      rw [List.append_nil]
      exact h.plain
    refine ⟨?_, h.tls⟩
    have hcancelled := hplain.cancelRequestOnShard id
    rwa [List.append_nil] at hcancelled
  | .tls => by
    refine ⟨h.plain, ?_⟩
    exact ⟨Ownership.cancelRequestOnShard h.tls.ownership id, h.tls.stateless⟩

/-- Every step of a shard keeps the ownership on every side of every origin. -/
theorem Shard.owned_step {shard shard' : Shard} {action : ShardAction}
    (h : ∀ o, (shard o).Owned) (hstep : shard.step options action = some shard') (o : Nat) :
    (shard' o).Owned := by
  cases action with
  | pool o' action =>
    obtain ⟨pool', hpool, rfl⟩ := Option.map_eq_some_iff.mp hstep
    by_cases heq : o = o'
    · subst heq
      rw [Function.update_self]
      exact (h o).step_pool hpool
    · rw [Function.update_of_ne heq]
      exact h o
  | probed o' action =>
    obtain ⟨probed, hprobed, rfl⟩ := Option.map_eq_some_iff.mp hstep
    by_cases heq : o = o'
    · subst heq
      rw [Function.update_self]
      exact ⟨(h o).plain, (h o).tls.step hprobed⟩
    · rw [Function.update_of_ne heq]
      exact h o
  | cancel o' side id =>
    obtain rfl := Option.some.inj hstep
    by_cases heq : o = o'
    · subst heq
      rw [Function.update_self]
      exact (h o).cancelRequest id side
    · rw [Function.update_of_ne heq]
      exact h o

/-- A side closes nothing, or what the cancel state `id` points at. -/
def ClosesFor (pool pool' : Pool) (cancels : Nat → Prop) : Prop :=
  pool'.closed = pool.closed ∨
    ∃ id, cancels id ∧
      pool'.closed = pool.closed ++ (pool.cancelStates id).connection.toList

theorem closesFor_cancelRequestOnShard {cancels : Nat → Prop} (id : Nat) (h : cancels id) :
    ClosesFor pool (pool.cancelRequestOnShard id) cancels := by
  obtain ⟨waiters, heq⟩ := cancelRequestOnShard_eq pool id
  refine Or.inr ⟨id, h, ?_⟩
  rw [heq, closed_updateCancelState]

theorem closesFor_step_pool {origin : ShardOrigin} {pool' : OriginPool} {action : OriginAction}
    (hstep : origin.pool.step options action = some pool') (o : Nat) (side : Side) :
    ClosesFor (origin.side side) (ShardOrigin.side { origin with pool := pool' } side)
      fun id => (ShardAction.pool o action).Cancels o side id := by
  cases action with
  | plain action =>
    obtain ⟨plain, hplain, rfl⟩ := Option.map_eq_some_iff.mp hstep
    cases side with
    | plain =>
      rcases H1.closed_step hplain with hsame | ⟨id, rfl, rfl⟩
      · exact Or.inl hsame
      · exact closesFor_cancelRequestOnShard id ⟨rfl, rfl, rfl⟩
    | tls => exact Or.inl rfl
  | tls action =>
    obtain ⟨tls, htls, rfl⟩ := Option.map_eq_some_iff.mp hstep
    cases side with
    | plain => exact Or.inl rfl
    | tls =>
      rcases H1.closed_step htls with hsame | ⟨id, rfl, rfl⟩
      · exact Or.inl hsame
      · exact closesFor_cancelRequestOnShard id ⟨rfl, rfl, rfl⟩
  | startActors target =>
    obtain rfl := Option.some.inj hstep
    cases side <;> exact Or.inl rfl
  | resetConnections =>
    obtain rfl := Option.some.inj hstep
    cases side <;> exact Or.inl rfl
  | evict =>
    simp only [OriginPool.step] at hstep
    split_ifs at hstep with hidle
    obtain rfl := Option.some.inj hstep
    cases side <;> exact Or.inl rfl

/-- Every step of a shard, on every side of every origin. -/
theorem Shard.closesFor_step {shard shard' : Shard} {action : ShardAction}
    (hstep : shard.step options action = some shard') (o : Nat) (side : Side) :
    ClosesFor ((shard o).side side) ((shard' o).side side) (action.Cancels o side) := by
  cases action with
  | pool o' action =>
    obtain ⟨pool', hpool, rfl⟩ := Option.map_eq_some_iff.mp hstep
    by_cases heq : o = o'
    · subst heq
      rw [Function.update_self]
      exact closesFor_step_pool hpool o side
    · rw [Function.update_of_ne heq]
      exact Or.inl rfl
  | probed o' action =>
    obtain ⟨probed, hprobed, rfl⟩ := Option.map_eq_some_iff.mp hstep
    by_cases heq : o = o'
    · subst heq
      rw [Function.update_self]
      cases side with
      | plain => exact Or.inl rfl
      | tls =>
        rcases ProbedPool.closed_step hprobed with hsame | ⟨id, rfl, rfl⟩
        · exact Or.inl hsame
        · exact closesFor_cancelRequestOnShard id ⟨rfl, rfl, rfl⟩
    · rw [Function.update_of_ne heq]
      exact Or.inl rfl
  | cancel o' side' id =>
    obtain rfl := Option.some.inj hstep
    by_cases heq : o = o'
    · subst heq
      rw [Function.update_self]
      by_cases hside : side' = side
      · subst hside
        cases side' <;> exact closesFor_cancelRequestOnShard id ⟨rfl, rfl, rfl⟩
      · -- the other side is not touched
        cases side' <;> cases side <;> first | exact absurd rfl hside | exact Or.inl rfl
    · rw [Function.update_of_ne heq]
      exact Or.inl rfl

/-- The connection `c` is held by the request with the cancel state `id`, and by nobody
else: it is not idle, and no other coroutine of the side holds it or has that state. -/
def HeldBy (pool : Pool) (suspended : List Caller) (id c : Nat) : Prop :=
  ∃ request others connection, suspended.Perm (request :: others) ∧
    request.cancelState = some id ∧ request.phase = .exchanging connection ∧ connection.id = c ∧
    (∀ idle ∈ pool.idle, idle.id ≠ c) ∧
    ∀ other ∈ others, other.cancelState ≠ some id ∧
      ∀ connection, other.phase = .exchanging connection → connection.id ≠ c

/-- What a cancel state points at is held by its request. -/
theorem Ownership.heldBy (h : Ownership pool coroutines) {id c : Nat}
    (hpoints : (pool.cancelStates id).connection = some c) : HeldBy pool coroutines id c := by
  obtain ⟨request, hmem, howns, huses⟩ := h.points id c hpoints
  obtain ⟨before, after, rfl⟩ := List.append_of_mem hmem
  have hfirst : Ownership pool (request :: (before ++ after)) := h.perm List.perm_middle.symm
  obtain ⟨connection, hphase, hid⟩ : ∃ connection, request.phase = .exchanging connection ∧
      connection.id = c := by
    unfold Caller.uses at huses
    cases hphase : request.phase with
    | exchanging connection =>
      rw [hphase] at huses
      exact ⟨connection, rfl, beq_iff_eq.mp huses⟩
    | connecting => simp [hphase] at huses
    | waiting w => simp [hphase] at huses
  have honce := hfirst.once c
  rw [holders_cons, huses, if_pos rfl, Pool.holders] at honce
  have howner := hfirst.owner id
  rw [List.countP_cons, howns, if_pos rfl] at howner
  refine ⟨request, before ++ after, connection, List.perm_middle, beq_iff_eq.mp howns, hphase, hid,
    fun idle hidle heq => ?_, fun other hother => ⟨fun hstate => ?_, fun held hheld heq => ?_⟩⟩
  · have hpos : 0 < pool.idle.countP fun connection => connection.id == c :=
      List.countP_pos_iff.mpr ⟨idle, hidle, beq_iff_eq.mpr heq⟩
    omega
  · have hpos : 0 < (before ++ after).countP (Caller.ownsState id) :=
      List.countP_pos_iff.mpr ⟨other, hother, beq_iff_eq.mpr hstate⟩
    omega
  · have hpos : 0 < (before ++ after).countP (Caller.uses c) := by
      refine List.countP_pos_iff.mpr ⟨other, hother, ?_⟩
      rw [Caller.uses_exchanging hheld, beq_iff_eq]
      exact heq
    omega

/-- In every run of a shard, whatever step comes next, the connections that a side closes
for a cancellation are closed by `cancel_request_on_shard`, for the request that holds
them and that nobody else shares them with. -/
theorem cancellation_closes_own_connection (options : PoolOptions) (actions : List ShardAction)
    {shard shard' : Shard} {action : ShardAction}
    (hrun : exec (Shard.step options) (fun _ => {}) actions = some shard)
    (hstep : shard.step options action = some shard') (o : Nat) (side : Side) :
    ∃ closed, ((shard' o).side side).closed = ((shard o).side side).closed ++ closed ∧
      ∀ c ∈ closed, ∃ id, action.Cancels o side id ∧
        HeldBy ((shard o).side side) ((shard o).suspended side) id c := by
  have hstart (o : Nat) : ShardOrigin.Owned ((fun _ => {} : Shard) o) :=
    ⟨ownership_empty, ProbedPool.owned_empty⟩
  have howned : ∀ o, (shard o).Owned :=
    invariant_of_reaches (fun _ _ _ h hstep => Shard.owned_step h hstep) hstart ⟨actions, hrun⟩
  rcases Shard.closesFor_step hstep o side with hsame | ⟨id, hcancels, hclosed⟩
  · exact ⟨[], by rw [hsame, List.append_nil], fun c hc => absurd hc List.not_mem_nil⟩
  · refine ⟨_, hclosed, fun c hc => ⟨id, hcancels, ?_⟩⟩
    have hpoints := Option.mem_toList.mp hc
    exact ((howned o).side side).heldBy hpoints

/-- A request returns its connection, another one takes it, and the cancellation of the
first one comes late. -/
def takenOver : List ShardAction :=
  [.pool 0 (.tls (.acquire {} false false)), .pool 0 (.tls (.connectSucceeded 0)),
    .pool 0 (.tls (.exchanged 0 .success)), .pool 0 (.tls (.acquire {} false false)),
    .cancel 0 .tls 0]

theorem cancellation_closes_own_connection_takenOver :
    ∃ shard shard', exec (Shard.step {}) (fun _ => {}) takenOver = some shard ∧
      ((shard 0).side .tls).closed = [] ∧
      shard.step {} (.cancel 0 .tls 1) = some shard' ∧
      ((shard' 0).side .tls).closed = [0] ∧
      HeldBy ((shard 0).side .tls) ((shard 0).suspended .tls) 1 0 := by
  obtain ⟨shard, shard', hrun, hstep, hnone, hone⟩ : ∃ shard shard',
      exec (Shard.step {}) (fun _ => {}) takenOver = some shard ∧
      shard.step {} (.cancel 0 .tls 1) = some shard' ∧
      ((shard 0).side .tls).closed = [] ∧ ((shard' 0).side .tls).closed = [0] :=
    ⟨_, _, rfl, rfl, rfl, rfl⟩
  obtain ⟨closed, hclosed, hheld⟩ :=
    cancellation_closes_own_connection {} takenOver hrun hstep 0 .tls
  rw [hnone, hone, List.nil_append] at hclosed
  obtain ⟨id, hcancels, hholder⟩ := hheld 0 (hclosed ▸ List.mem_singleton.mpr rfl)
  obtain rfl : 1 = id := hcancels.2.2
  exact ⟨shard, shard', hrun, hnone, hstep, hone, hholder⟩

end HttpClient.H1
