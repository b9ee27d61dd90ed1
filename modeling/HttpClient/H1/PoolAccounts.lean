import HttpClient.H1.Pool

/-!
# The accounts of a pool

The counters of a pool agree with its coroutines: `connecting` counts the connects
in flight, `active` these, the idle connections and the exchanges, `reservedIdle`
the woken waiters with a reservation. Every waiter in line belongs to exactly one
suspended request and has not been woken.

While a coroutine runs it is on no list; what it stands for is in its *hand*. The
accounts are stated for a pool and a hand, and each piece of code between two
suspension points moves amounts between the two.

## Main definitions

* `Hand`, `Accounts` — the accounts of a pool while a coroutine is running
* `Pool.connects`, `Pool.exchanges`, `Pool.woken`, `Pool.reserved` — the coroutines
  in each phase

## Main results

* `Accounts.wakeOne`, `Accounts.returnIdle`, `Accounts.lose` — releasing a connection
* `Accounts.acquirePass`, `Accounts.workerPass` — asking for one
-/

set_option autoImplicit false

namespace HttpClient.H1

/-! ### Counting coroutines -/

namespace Caller

def isConnecting (caller : Caller) : Bool := caller.phase == .connecting

def isExchanging (caller : Caller) : Bool :=
  match caller.phase with
  | .exchanging _ => true
  | _ => false

def waitsOn (w : Nat) (caller : Caller) : Bool := caller.phase == .waiting w

/-- The request is suspended on a waiter that satisfies `p`. -/
def waiterSatisfies (p : Waiter → Bool) (waiters : Nat → Waiter) (caller : Caller) : Bool :=
  match caller.phase with
  | .waiting w => p (waiters w)
  | _ => false

/-- The request's waiter has been woken. -/
abbrev isWoken : (Nat → Waiter) → Caller → Bool := waiterSatisfies Waiter.woken

/-- The request's waiter has been woken with a reservation. -/
abbrev isReserved : (Nat → Waiter) → Caller → Bool :=
  waiterSatisfies fun waiter => waiter.woken && waiter.reservedIdle

end Caller

namespace Pool

/-- The connects in flight. -/
def connects (pool : Pool) : Nat :=
  pool.callers.countP Caller.isConnecting + pool.workers.countP Worker.connecting

/-- The requests that hold a connection. -/
def exchanges (pool : Pool) : Nat := pool.callers.countP Caller.isExchanging

/-- The woken requests that have not resumed yet. -/
def woken (pool : Pool) : Nat := pool.callers.countP (Caller.isWoken pool.waiters)

/-- Those among them that have a reservation. -/
def reserved (pool : Pool) : Nat := pool.callers.countP (Caller.isReserved pool.waiters)

/-- The requests suspended on a waiter. -/
def waitersOn (pool : Pool) (w : Nat) : Nat := pool.callers.countP (Caller.waitsOn w)

end Pool

/-- What a running coroutine stands for. -/
structure Hand where
  connects : Nat := 0
  exchanges : Nat := 0
  reserved : Nat := 0

structure Accounts (pool : Pool) (hand : Hand) : Prop where
  connecting : pool.connecting = pool.connects + hand.connects
  active : pool.active =
    pool.idle.length + pool.connecting + pool.exchanges + hand.exchanges
  reserved : pool.reservedIdle = pool.reserved + hand.reserved
  reserved_le : pool.reservedIdle ≤ pool.idle.length
  nodup : pool.queue.Nodup
  queued : ∀ w ∈ pool.queue, (pool.waiters w).woken = false ∧
    (pool.waiters w).reservedIdle = false ∧ pool.waitersOn w = 1
  unique : ∀ w, pool.waitersOn w ≤ 1
  fresh : ∀ w, pool.nextWaiter ≤ w → pool.waitersOn w = 0

variable {pool pool' : Pool} {hand : Hand} {caller : Caller} {worker : Worker}
  {options : PoolOptions} {connection : Connection} {i : Nat}

theorem accounts_updateCancelState (cancelState : Option Nat) (f : CancelState → CancelState) :
    Accounts (pool.updateCancelState cancelState f) hand ↔ Accounts pool hand := by
  cases cancelState with
  | none => exact Iff.rfl
  | some id =>
    exact ⟨fun h => ⟨h.connecting, h.active, h.reserved, h.reserved_le, h.nodup, h.queued,
      h.unique, h.fresh⟩, fun h => ⟨h.connecting, h.active, h.reserved, h.reserved_le, h.nodup,
      h.queued, h.unique, h.fresh⟩⟩

/-! ### What the pieces of code leave alone -/

@[simp] theorem callers_updateCancelState {cancelState : Option Nat}
    {f : CancelState → CancelState} :
    (pool.updateCancelState cancelState f).callers = pool.callers := by
  cases cancelState <;> rfl

@[simp] theorem idle_updateCancelState {cancelState : Option Nat}
    {f : CancelState → CancelState} :
    (pool.updateCancelState cancelState f).idle = pool.idle := by
  cases cancelState <;> rfl

@[simp] theorem callers_wakeOne : pool.wakeOne.callers = pool.callers := rfl

@[simp] theorem callers_lose : pool.lose.callers = pool.callers := rfl

@[simp] theorem callers_returnIdle : (pool.returnIdle connection).callers = pool.callers := rfl

@[simp] theorem idle_returnIdle :
    (pool.returnIdle connection).idle = pool.idle ++ [connection] := rfl

@[simp] theorem callers_workerPass :
    (pool.workerPass options worker).callers = pool.callers := by
  unfold Pool.workerPass
  split_ifs
  · rfl
  dsimp only
  split_ifs <;> rfl

@[simp] theorem idle_workerPass :
    (pool.workerPass options worker).idle = pool.idle := by
  unfold Pool.workerPass
  split_ifs
  · rfl
  dsimp only
  split_ifs <;> rfl

/-! ### Waking a waiter -/

/-- `wakeFirst` drops cancelled waiters and wakes the first other one. -/
theorem wakeFirst_cases (reserve : Bool) (waiters : Nat → Waiter) (queue : List Nat) :
    Pool.wakeFirst reserve waiters queue = (false, waiters, []) ∨
      ∃ dropped w rest, queue = dropped ++ w :: rest ∧
        Pool.wakeFirst reserve waiters queue =
          (true, Function.update waiters w
            { waiters w with
              woken := true
              reservedIdle := (waiters w).reservedIdle || reserve }, rest) := by
  induction queue with
  | nil => exact Or.inl rfl
  | cons w queue ih =>
    rw [Pool.wakeFirst]
    -- cancelled waiters at the head of the line are dropped
    split_ifs with hcancelled
    · rcases ih with hnone | ⟨dropped, w', rest, rfl, hsome⟩
      · exact Or.inl hnone
      · exact Or.inr ⟨w :: dropped, w', rest, rfl, hsome⟩
    · exact Or.inr ⟨[], w, queue, rfl, rfl⟩

/-- Updating a waiter that did not satisfy `p` adds the requests suspended on it if it
does now. -/
theorem countP_waiterSatisfies_update (p : Waiter → Bool) (callers : List Caller)
    {waiters : Nat → Waiter} {w : Nat} (waiter : Waiter) (hbefore : p (waiters w) = false) :
    callers.countP (Caller.waiterSatisfies p (Function.update waiters w waiter)) =
      callers.countP (Caller.waiterSatisfies p waiters) +
        if p waiter then callers.countP (Caller.waitsOn w) else 0 := by
  induction callers with
  | nil => simp
  | cons caller callers ih =>
    -- only a request that waits on `w` is counted differently
    have hhead : (if caller.waiterSatisfies p (Function.update waiters w waiter) then 1 else 0) =
        (if caller.waiterSatisfies p waiters then 1 else 0) +
          (if p waiter then (if caller.waitsOn w then 1 else 0) else 0) := by
      unfold Caller.waiterSatisfies Caller.waitsOn
      cases caller.phase with
      | waiting v =>
        rcases eq_or_ne v w with rfl | hne
        · cases hp : p waiter <;> simp [hbefore, hp]
        · simp [hne]
      | connecting => simp
      | exchanging connection => simp
    simp only [List.countP_cons, ih, hhead]
    split_ifs <;> omega

/-- Updating a waiter that nobody is suspended on changes no count. -/
theorem countP_waiterSatisfies_of_nobody {p : Waiter → Bool} {callers : List Caller}
    {waiters : Nat → Waiter} {w : Nat} {waiter : Waiter}
    (hnobody : callers.countP (Caller.waitsOn w) = 0) :
    callers.countP (Caller.waiterSatisfies p (Function.update waiters w waiter)) =
      callers.countP (Caller.waiterSatisfies p waiters) := by
  refine List.countP_congr fun caller hcaller => ?_
  have hne := List.countP_eq_zero.mp hnobody caller hcaller
  unfold Caller.waitsOn at hne
  unfold Caller.waiterSatisfies
  cases hphase : caller.phase with
  | waiting v =>
    have hvw : v ≠ w := by
      rintro rfl
      simp [hphase] at hne
    simp [hvw]
  | connecting => rfl
  | exchanging connection => rfl

/-- Only the flags that `p` looks at matter. -/
theorem countP_waiterSatisfies_congr {p : Waiter → Bool} {callers : List Caller}
    {waiters waiters' : Nat → Waiter} (h : ∀ w, p (waiters' w) = p (waiters w)) :
    callers.countP (Caller.waiterSatisfies p waiters') =
      callers.countP (Caller.waiterSatisfies p waiters) := by
  refine List.countP_congr fun caller _ => ?_
  unfold Caller.waiterSatisfies
  cases caller.phase with
  | waiting v => simp [h]
  | connecting => rfl
  | exchanging connection => rfl

/-- Waking a waiter keeps the accounts, given room for a reservation. Afterwards
nobody is left in line or a woken request is about to resume. -/
theorem Accounts.wakeFirst (reserve : Bool) {reservedIdle : Nat} (h : Accounts pool hand)
    (hroom : reserve = true → pool.reservedIdle < pool.idle.length)
    (hreserved : reservedIdle = pool.reservedIdle +
      if (Pool.wakeFirst reserve pool.waiters pool.queue).1 && reserve then 1 else 0)
    (hpool : pool' =
      { pool with
        waiters := (Pool.wakeFirst reserve pool.waiters pool.queue).2.1
        queue := (Pool.wakeFirst reserve pool.waiters pool.queue).2.2
        reservedIdle }) :
    Accounts pool' hand ∧ (pool'.queue = [] ∨ 0 < pool'.woken) := by
  subst hpool
  rcases wakeFirst_cases reserve pool.waiters pool.queue with
    hnone | ⟨dropped, w, rest, hqueue, hsome⟩
  · rw [hnone] at hreserved ⊢
    simp only [Bool.false_and, Bool.false_eq_true, if_false, Nat.add_zero] at hreserved
    subst hreserved
    exact ⟨⟨h.connecting, h.active, h.reserved, h.reserved_le, List.nodup_nil,
      fun _ hmem => absurd hmem List.not_mem_nil, h.unique, h.fresh⟩, Or.inl rfl⟩
  · have hmem : w ∈ pool.queue := by simp [hqueue]
    obtain ⟨hunwoken, hunreserved, hone⟩ := h.queued w hmem
    have hnodup : (w :: rest).Nodup :=
      (List.nodup_append.mp (hqueue ▸ h.nodup)).2.1
    rw [hsome] at hreserved ⊢
    simp only [hunreserved, Bool.false_or, Bool.true_and] at hreserved ⊢
    have hwoken := countP_waiterSatisfies_update Waiter.woken pool.callers
      ⟨true, (pool.waiters w).cancelled, reserve⟩ hunwoken
    have hcount := countP_waiterSatisfies_update
      (fun waiter => waiter.woken && waiter.reservedIdle) pool.callers
      ⟨true, (pool.waiters w).cancelled, reserve⟩
      (show ((pool.waiters w).woken && (pool.waiters w).reservedIdle) = false by simp [hunwoken])
    have hone' : pool.callers.countP (Caller.waitsOn w) = 1 := hone
    simp only [hone', Bool.true_and, if_true] at hwoken hcount
    refine ⟨⟨h.connecting, h.active, ?_, ?_, hnodup.of_cons, ?_, h.unique, h.fresh⟩, Or.inr ?_⟩
    · have hbefore := h.reserved
      simp only [Pool.reserved, Caller.isReserved] at hbefore ⊢
      rw [hcount]
      omega
    · have hle := h.reserved_le
      cases reserve with
      | false => simpa [hreserved] using hle
      | true => simpa [hreserved] using Nat.succ_le_of_lt (hroom rfl)
    · intro v hv
      have hne : v ≠ w := fun heq => (List.nodup_cons.mp hnodup).1 (heq ▸ hv)
      simp only [Function.update_of_ne hne]
      exact h.queued v (by simp [hqueue, hv])
    · simp only [Pool.woken, Caller.isWoken]
      rw [hwoken]
      omega

theorem Accounts.wakeOne (h : Accounts pool hand) :
    Accounts pool.wakeOne hand ∧ (pool.wakeOne.queue = [] ∨ 0 < pool.wakeOne.woken) :=
  h.wakeFirst false (by simp) (by simp) rfl

theorem Accounts.wakeOneWithIdleReservation (h : Accounts pool hand)
    (hroom : pool.reservedIdle < pool.idle.length) :
    Accounts pool.wakeOneWithIdleReservation hand ∧
      (pool.wakeOneWithIdleReservation.queue = [] ∨
        0 < pool.wakeOneWithIdleReservation.woken) := by
  refine h.wakeFirst true (fun _ => hroom) ?_ rfl
  simp only [Bool.and_true]
  split_ifs <;> rfl

/-! ### Releasing a connection -/

/-- A connection that was exchanging, or has just been opened, becomes idle. -/
theorem Accounts.returnIdle {connection : Connection} (h : Accounts pool { exchanges := 1 }) :
    Accounts (pool.returnIdle connection) {} ∧
      ((pool.returnIdle connection).queue = [] ∨ 0 < (pool.returnIdle connection).woken) := by
  have hidle : Accounts { pool with idle := pool.idle ++ [connection] } {} := by
    refine ⟨h.connecting, ?_, h.reserved, ?_, h.nodup, h.queued, h.unique, h.fresh⟩
    · have hactive := h.active
      simp only [List.length_append, List.length_singleton, Pool.exchanges] at hactive ⊢
      omega
    · have hle := h.reserved_le
      simp only [List.length_append, List.length_singleton]
      omega
  exact hidle.wakeOneWithIdleReservation (by simpa using Nat.lt_succ_of_le h.reserved_le)

/-- A connection that was exchanging is given up. -/
theorem Accounts.lose (h : Accounts pool { exchanges := 1 }) :
    Accounts pool.lose {} ∧ (pool.lose.queue = [] ∨ 0 < pool.lose.woken) := by
  have hactive : Accounts { pool with active := pool.active - 1 } {} := by
    refine ⟨h.connecting, ?_, h.reserved, h.reserved_le, h.nodup, h.queued, h.unique, h.fresh⟩
    have hbefore := h.active
    simp only [Pool.exchanges] at hbefore ⊢
    omega
  exact hactive.wakeOne

/-- A connect that is over no longer counts as connecting. -/
theorem Accounts.connected (h : Accounts pool { connects := 1 }) :
    Accounts { pool with connecting := pool.connecting - 1 } { exchanges := 1 } := by
  have hconnecting : pool.connecting = pool.connects + 1 := h.connecting
  have hactive := h.active
  refine ⟨?_, ?_, h.reserved, h.reserved_le, h.nodup, h.queued, h.unique, h.fresh⟩
  · simp only [Pool.connects] at hconnecting ⊢
    omega
  · simp only [Pool.exchanges] at hactive ⊢
    omega

/-! ### Taking a coroutine out -/

/-- The caller taken out, with the others, are the callers there were. -/
theorem takeCaller_perm (h : pool.takeCaller i = some (caller, pool')) :
    (caller :: pool'.callers).Perm pool.callers ∧
      pool' = { pool with callers := pool'.callers } := by
  obtain ⟨c, hc, heq⟩ := Option.map_eq_some_iff.mp h
  obtain ⟨rfl, rfl⟩ := Prod.mk.inj heq
  obtain ⟨hi, rfl⟩ := List.getElem?_eq_some_iff.mp hc
  exact ⟨List.getElem_cons_eraseIdx_perm hi, rfl⟩

theorem mem_of_takeCaller (htake : pool.takeCaller i = some (caller, pool')) :
    caller ∈ pool.callers[i]? ∧ pool'.idle = pool.idle := by
  obtain ⟨c, hc, hpair⟩ := Option.map_eq_some_iff.mp htake
  obtain ⟨rfl, rfl⟩ := Prod.mk.inj hpair
  exact ⟨hc, rfl⟩

theorem takeWorker_perm (h : pool.takeWorker i = some (worker, pool')) :
    (worker :: pool'.workers).Perm pool.workers ∧
      pool' = { pool with workers := pool'.workers } := by
  obtain ⟨c, hc, heq⟩ := Option.map_eq_some_iff.mp h
  obtain ⟨rfl, rfl⟩ := Prod.mk.inj heq
  obtain ⟨hi, rfl⟩ := List.getElem?_eq_some_iff.mp hc
  exact ⟨List.getElem_cons_eraseIdx_perm hi, rfl⟩

/-- Counting the callers before and after one is taken out. -/
theorem countP_takeCaller (h : pool.takeCaller i = some (caller, pool'))
    (p : Caller → Bool) :
    pool.callers.countP p = pool'.callers.countP p + if p caller then 1 else 0 := by
  rw [← (takeCaller_perm h).1.countP_eq p, List.countP_cons]

/-- What a suspended request stands for. -/
def Caller.inHand (waiters : Nat → Waiter) (caller : Caller) : Hand where
  connects := if caller.isConnecting then 1 else 0
  exchanges := if caller.isExchanging then 1 else 0
  reserved := if caller.isReserved waiters then 1 else 0

/-- A caller whose waiter is not in line is taken out with its hand. -/
theorem Accounts.takeCaller (h : Accounts pool {})
    (htake : pool.takeCaller i = some (caller, pool'))
    (hqueue : ∀ w ∈ pool.queue, caller.waitsOn w = false) :
    Accounts pool' (caller.inHand pool.waiters) := by
  have hcount := countP_takeCaller htake
  obtain ⟨-, heq⟩ := takeCaller_perm htake
  rw [heq]
  refine ⟨?_, ?_, ?_, h.reserved_le, h.nodup, fun w hw => ?_, fun w => ?_, fun w hw => ?_⟩
  · have := h.connecting
    have := hcount Caller.isConnecting
    simp only [Pool.connects, Caller.inHand] at *
    omega
  · have := h.active
    have := hcount Caller.isExchanging
    simp only [Pool.exchanges, Caller.inHand] at *
    omega
  · have := h.reserved
    have := hcount (Caller.isReserved pool.waiters)
    simp only [Pool.reserved, Caller.inHand] at *
    omega
  · have hline := h.queued w hw
    have := hcount (Caller.waitsOn w)
    rw [hqueue w hw] at this
    simp only [Pool.waitersOn, Bool.false_eq_true, if_false, Nat.add_zero] at *
    exact ⟨hline.1, hline.2.1, this ▸ hline.2.2⟩
  · have := h.unique w
    have := hcount (Caller.waitsOn w)
    simp only [Pool.waitersOn] at *
    omega
  · have := h.fresh w hw
    have := hcount (Caller.waitsOn w)
    simp only [Pool.waitersOn] at *
    omega

/-- A worker is taken out with its hand. -/
theorem Accounts.takeWorker (h : Accounts pool {})
    (htake : pool.takeWorker i = some (worker, pool')) :
    Accounts pool' { connects := if worker.connecting then 1 else 0 } := by
  obtain ⟨hperm, heq⟩ := takeWorker_perm htake
  have hcount := hperm.countP_eq Worker.connecting
  rw [List.countP_cons] at hcount
  have hconnecting : pool.connecting = pool.connects := h.connecting
  rw [heq]
  refine ⟨?_, h.active, h.reserved, h.reserved_le, h.nodup, h.queued, h.unique, h.fresh⟩
  simp only [Pool.connects] at hconnecting ⊢
  omega

/-! ### Suspending a request -/

theorem Accounts.suspend_connecting (h : Accounts pool { connects := 1 }) :
    Accounts (pool.suspend caller .connecting) {} := by
  have hconnecting : pool.connecting = pool.connects + 1 := h.connecting
  refine ⟨?_, ?_, ?_, h.reserved_le, h.nodup, fun w hw => ?_, fun w => ?_, fun w hw => ?_⟩
  · simp only [Pool.connects, Pool.suspend, List.countP_append, List.countP_singleton,
      Caller.isConnecting] at hconnecting ⊢
    simp
    omega
  · simpa [Pool.exchanges, Pool.suspend, Caller.isExchanging] using h.active
  · simpa [Pool.reserved, Pool.suspend, Caller.waiterSatisfies] using h.reserved
  · simpa [Pool.waitersOn, Pool.suspend, Caller.waitsOn] using h.queued w hw
  · simpa [Pool.waitersOn, Pool.suspend, Caller.waitsOn] using h.unique w
  · simpa [Pool.waitersOn, Pool.suspend, Caller.waitsOn] using h.fresh w hw

theorem Accounts.suspend_exchanging {connection : Connection}
    (h : Accounts pool { exchanges := 1 }) :
    Accounts (pool.suspend caller (.exchanging connection)) {} := by
  have hactive : pool.active = pool.idle.length + pool.connecting + pool.exchanges + 1 := h.active
  refine ⟨?_, ?_, ?_, h.reserved_le, h.nodup, fun w hw => ?_, fun w => ?_, fun w hw => ?_⟩
  · simpa [Pool.connects, Pool.suspend, Caller.isConnecting] using h.connecting
  · simp only [Pool.exchanges, Pool.suspend, List.countP_append, List.countP_singleton,
      Caller.isExchanging] at hactive ⊢
    simp
    omega
  · simpa [Pool.reserved, Pool.suspend, Caller.waiterSatisfies] using h.reserved
  · simpa [Pool.waitersOn, Pool.suspend, Caller.waitsOn] using h.queued w hw
  · simpa [Pool.waitersOn, Pool.suspend, Caller.waitsOn] using h.unique w
  · simpa [Pool.waitersOn, Pool.suspend, Caller.waitsOn] using h.fresh w hw

theorem Accounts.startExchange {connection : Connection}
    (h : Accounts pool { exchanges := 1 }) :
    Accounts (pool.startExchange caller connection) {} :=
  ((accounts_updateCancelState _ _).mpr h).suspend_exchanging

theorem waitersOn_suspend_waiting (pool : Pool) (caller : Caller) (w v : Nat) :
    (pool.suspend caller (.waiting w)).waitersOn v =
      pool.waitersOn v + if w = v then 1 else 0 := by
  simp [Pool.waitersOn, Pool.suspend, Caller.waitsOn, List.countP_append,
    List.countP_singleton]

theorem Accounts.enqueue (h : Accounts pool {}) (hlive : caller.cancelled = false) :
    Accounts (pool.enqueue caller) {} := by
  unfold Pool.enqueue
  simp only [hlive, Bool.false_eq_true, if_false]
  set base := pool.updateCancelState caller.cancelState fun state =>
    { state with waiter := some pool.nextWaiter } with hbase
  have hb : Accounts base {} := (accounts_updateCancelState _ _).mpr h
  have hnext : base.nextWaiter = pool.nextWaiter := by
    rw [hbase]
    unfold Pool.updateCancelState
    cases caller.cancelState <;> rfl
  have hnobody := hb.fresh pool.nextWaiter hnext.le
  have hnew : ∀ v ∈ base.queue, v ≠ pool.nextWaiter := by
    rintro v hv rfl
    have := (hb.queued _ hv).2.2
    omega
  refine ⟨?_, ?_, ?_, hb.reserved_le, ?_, fun v hv => ?_, fun v => ?_, fun v hv => ?_⟩
  · simpa [Pool.connects, Pool.suspend, Caller.isConnecting] using hb.connecting
  · simpa [Pool.exchanges, Pool.suspend, Caller.isExchanging] using hb.active
  · have hreserved := hb.reserved
    simp only [Pool.reserved, Pool.suspend, List.countP_append,
      List.countP_singleton] at hreserved ⊢
    rw [countP_waiterSatisfies_of_nobody hnobody]
    simpa [Caller.waiterSatisfies] using hreserved
  · refine List.nodup_append.mpr ⟨hb.nodup, by simp, fun v hv w hw => ?_⟩
    rw [List.mem_singleton.mp hw]
    exact hnew v hv
  · rw [waitersOn_suspend_waiting]
    rcases List.mem_append.mp hv with hv | hv
    · have hne := hnew v hv
      have hline := hb.queued v hv
      refine ⟨?_, ?_, ?_⟩
      · simpa [Pool.suspend, hne] using hline.1
      · simpa [Pool.suspend, hne] using hline.2.1
      · rw [if_neg hne.symm]
        exact hline.2.2
    · obtain rfl := List.mem_singleton.mp hv
      refine ⟨by simp [Pool.suspend], by simp [Pool.suspend], ?_⟩
      rw [if_pos rfl]
      exact congrArg (· + 1) hnobody
  · rw [waitersOn_suspend_waiting]
    rcases eq_or_ne pool.nextWaiter v with rfl | hne
    · rw [if_pos rfl]
      exact (congrArg (· + 1) hnobody).le
    · rw [if_neg hne]
      exact hb.unique v
  · rw [waitersOn_suspend_waiting]
    have hlater : pool.nextWaiter < v := hv
    rw [if_neg hlater.ne]
    exact hb.fresh v (by omega)

/-! ### Asking for a connection -/

/-- What one pass through the acquire loop does. -/
theorem attempt_cases (options : PoolOptions) (pool : Pool) (woke reserved : Bool) :
    (∃ connection, pool.idle = pool.idle.dropLast ++ [connection] ∧
        pool.mayTake woke reserved = true ∧
        pool.attempt options woke reserved =
          (.take connection,
            { pool with
              idle := pool.idle.dropLast
              reservedIdle :=
                if reserved then pool.reservedIdle - 1 else pool.reservedIdle })) ∨
      (pool.idle = [] ∨ pool.mayTake woke reserved = false) ∧
        pool.attempt options woke reserved =
          if (pool.dropReservation reserved).mayConnect options woke then
            (.connect,
              { pool.dropReservation reserved with
                active := (pool.dropReservation reserved).active + 1
                connecting := (pool.dropReservation reserved).connecting + 1 })
          else (.wait, pool.dropReservation reserved) := by
  unfold Pool.attempt
  cases hlast : pool.idle.getLast? with
  | none => exact Or.inr ⟨Or.inl (List.getLast?_eq_none_iff.mp hlast), rfl⟩
  | some connection =>
    cases hmay : pool.mayTake woke reserved with
    | false => exact Or.inr ⟨Or.inr rfl, rfl⟩
    | true =>
      refine Or.inl ⟨connection, ?_, rfl, rfl⟩
      exact (List.dropLast_append_getLast? connection hlast).symm

theorem dropReservation_of_not_reserved (pool : Pool) : pool.dropReservation false = pool := rfl

/-- While a reservation is held there is an idle connection to take. -/
theorem Accounts.idle_ne_nil (h : Accounts pool { reserved := 1 }) : pool.idle ≠ [] := by
  intro hnil
  have hreserved : pool.reservedIdle = pool.reserved + 1 := h.reserved
  have hle := h.reserved_le
  rw [hnil, List.length_nil] at hle
  omega

/-- A pass that finds nothing to take has no reservation. -/
theorem Accounts.not_reserved_of_none {woke reserved : Bool}
    (h : Accounts pool { reserved := if reserved then 1 else 0 })
    (hnone : pool.idle = [] ∨ pool.mayTake woke reserved = false) : reserved = false := by
  cases reserved with
  | false => rfl
  | true =>
    rcases hnone with hnil | hmay
    · exact absurd hnil (Accounts.idle_ne_nil (by simpa using h))
    · simp [Pool.mayTake] at hmay

/-- Taking the last idle connection. -/
theorem Accounts.take {woke reserved : Bool} {connection : Connection}
    (h : Accounts pool { reserved := if reserved then 1 else 0 })
    (hidle : pool.idle = pool.idle.dropLast ++ [connection])
    (hmay : pool.mayTake woke reserved = true) :
    Accounts
      { pool with
        idle := pool.idle.dropLast
        reservedIdle := if reserved then pool.reservedIdle - 1 else pool.reservedIdle }
      { exchanges := 1 } := by
  have hlength := congrArg List.length hidle
  rw [List.length_append, List.length_singleton] at hlength
  have hle := h.reserved_le
  have hactive : pool.active =
    pool.idle.length + pool.connecting + pool.exchanges + 0 := h.active
  refine ⟨h.connecting, ?_, ?_, ?_, h.nodup, h.queued, h.unique, h.fresh⟩
  · simp only [Pool.exchanges] at hactive ⊢
    omega
  · have hreserved := h.reserved
    cases reserved with
    | true =>
      simp only [if_true, Pool.reserved] at hreserved ⊢
      omega
    | false => simpa [Pool.reserved] using hreserved
  · cases reserved with
    | true =>
      simp only [if_true]
      omega
    | false =>
      -- Without a reservation a connection is only taken if none is reserved.
      simp only [Pool.mayTake, Bool.false_or, Bool.and_eq_true, beq_iff_eq] at hmay
      simp [hmay.1]

/-- Opening a connection. -/
theorem Accounts.connect (h : Accounts pool {}) :
    Accounts { pool with active := pool.active + 1, connecting := pool.connecting + 1 }
      { connects := 1 } := by
  have hconnecting : pool.connecting = pool.connects + 0 := h.connecting
  have hactive : pool.active =
    pool.idle.length + pool.connecting + pool.exchanges + 0 := h.active
  refine ⟨?_, ?_, h.reserved, h.reserved_le, h.nodup, h.queued, h.unique, h.fresh⟩
  · simp only [Pool.connects] at hconnecting ⊢
    omega
  · simp only [Pool.exchanges] at hactive ⊢
    omega

/-- A pass that must wait has found no connection to take and none to open. -/
def Pool.MustWait (options : PoolOptions) (pool : Pool) (woke reserved : Bool) : Prop :=
  (pool.idle = [] ∨ pool.mayTake woke reserved = false) ∧ pool.mayConnect options woke = false

instance (options : PoolOptions) (pool : Pool) (woke reserved : Bool) :
    Decidable (pool.MustWait options woke reserved) :=
  inferInstanceAs (Decidable (_ ∧ _))

/-- One pass through the acquire loop keeps the accounts, unless a coroutine that is
already cancelled would have to wait. -/
theorem Accounts.acquirePass {woke reserved : Bool}
    (h : Accounts pool { reserved := if reserved then 1 else 0 })
    (hlive : caller.cancelled = true → ¬ pool.MustWait options woke reserved) :
    Accounts (pool.acquirePass options caller woke reserved) {} := by
  unfold Pool.acquirePass
  rcases attempt_cases options pool woke reserved with
    ⟨connection, hidle, hmay, heq⟩ | ⟨hnone, heq⟩
  · rw [heq]
    exact (h.take hidle hmay).startExchange
  · have hfalse := h.not_reserved_of_none hnone
    subst hfalse
    rw [dropReservation_of_not_reserved] at heq
    rw [heq]
    cases hmay : pool.mayConnect options woke with
    | true => exact h.connect.suspend_connecting
    | false =>
      refine Accounts.enqueue (by simpa using h) ?_
      cases hcancelled : caller.cancelled with
      | false => rfl
      | true => exact absurd ⟨hnone, hmay⟩ (hlive hcancelled)

/-- A preconnect worker runs up to its next connect, or ends. -/
theorem Accounts.workerPass (h : Accounts pool {}) :
    Accounts (pool.workerPass options worker) {} := by
  have hconnecting : pool.connecting = pool.connects + 0 := h.connecting
  have hactive : pool.active =
    pool.idle.length + pool.connecting + pool.exchanges + 0 := h.active
  unfold Pool.workerPass
  split_ifs with hstop
  · exact h
  dsimp only
  split_ifs with hdone
  · exact ⟨h.connecting, h.active, h.reserved, h.reserved_le, h.nodup, h.queued, h.unique,
      h.fresh⟩
  · refine ⟨?_, ?_, h.reserved, h.reserved_le, h.nodup, h.queued, h.unique, h.fresh⟩
    · simp only [Pool.connects, List.countP_append, List.countP_singleton, if_true] at hconnecting ⊢
      omega
    · simp only [Pool.exchanges] at hactive ⊢
      omega

end HttpClient.H1
