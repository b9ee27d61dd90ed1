import HttpClient.H1.ShardOrigins

/-!
# Evictions of pools in use

A pool is in use while one of its requests is in line, has been woken and not yet resumed,
connects, or exchanges. An eviction infers from the counters and the line of a pool that it is
idle. They show every phase but one: a request that has been woken is no longer in line, and
its connection is either idle or yet to be opened. A pool whose only requests are in this phase
can be evicted, and the next request for its origin gets a second one.

The machine lets requests, preconnects and actors look up pools, resets and cancellations
happen, and the maintenance evict, in any order. It remembers which origin a pool has been
looked up for.

## Main definitions

* `Pool.InUse`, `OriginPool.InUse` — some request uses the pool
* `ShardRequests`, `ShardRequests.step` — the machine
* `ShardRequests.PoolsKept` — every pool in use is in the map, and enforces its cap alone
* `ShardRequests.SparesWoken` — no pool that is due for eviction has a woken request

## Main results

* `OriginPool.InUse.of_step` — only a new request makes a pool one that is in use
* `pools_kept_iff` — the runs in which every pool in use is kept
-/

set_option autoImplicit false

namespace HttpClient.H1

open Semantics Text

variable {options : PoolOptions} {pool pool' : Pool} {i : Nat}

/-! ### The use of a side -/

/-- The waiter is in line or has been woken. -/
def Pool.Awaited (pool : Pool) (w : Nat) : Prop :=
  w ∈ pool.queue ∨ (pool.waiters w).woken = true

instance : DecidablePred pool.Awaited := fun _ => inferInstanceAs (Decidable (_ ∨ _))

/-- The request is in line, has been woken, connects or exchanges. What is left are requests
whose wait is about to fail. -/
def Caller.usesPool (pool : Pool) (caller : Caller) : Bool :=
  match caller.phase with
  | .waiting w => decide (pool.Awaited w)
  | .connecting | .exchanging _ => true

def Pool.InUse (pool : Pool) : Prop := ∃ caller ∈ pool.callers, caller.usesPool pool = true

instance : Decidable pool.InUse := inferInstanceAs (Decidable (∃ _ ∈ _, _))

/-- A pool in which nobody new is suspended and no other waiter is awaited. -/
theorem Pool.InUse.of_fewer (h : pool'.InUse)
    (hcallers : ∀ caller' ∈ pool'.callers, ∃ caller ∈ pool.callers, caller.phase = caller'.phase)
    (hwaiters : ∀ w, pool'.Awaited w → pool.Awaited w) : pool.InUse := by
  obtain ⟨caller', hmem', huses⟩ := h
  obtain ⟨caller, hmem, hphase⟩ := hcallers caller' hmem'
  refine ⟨caller, hmem, ?_⟩
  unfold Caller.usesPool at huses ⊢
  rw [hphase]
  cases hwhere : caller'.phase with
  | waiting w =>
    rw [hwhere] at huses
    exact decide_eq_true (hwaiters w (of_decide_eq_true huses))
  | connecting => rfl
  | exchanging connection => rfl

/-- Waking somebody awaits nobody new. -/
theorem awaited_of_wakeFirst {reserve : Bool} {waiters : Nat → Waiter} {queue : List Nat} {w : Nat}
    (h : w ∈ (Pool.wakeFirst reserve waiters queue).2.2 ∨
      ((Pool.wakeFirst reserve waiters queue).2.1 w).woken = true) :
    w ∈ queue ∨ (waiters w).woken = true := by
  rcases wakeFirst_cases reserve waiters queue with hnone | ⟨dropped, v, rest, hqueue, hsome⟩
  · rw [hnone] at h
    rcases h with hmem | hwoken
    · cases hmem
    · exact .inr hwoken
  · rw [hsome] at h
    rw [hqueue]
    by_cases hv : w = v
    · -- the one that is woken has been in line
      exact .inl (by simp [hv])
    · rcases h with hmem | hwoken
      · exact .inl (by simp [hmem])
      · simp only [Function.update_of_ne hv] at hwoken
        exact .inr hwoken

theorem awaited_updateCancelState {cancelState : Option Nat} {f : CancelState → CancelState}
    {w : Nat} : (pool.updateCancelState cancelState f).Awaited w ↔ pool.Awaited w := by
  cases cancelState <;> rfl

theorem awaited_workerPass {worker : Worker} {w : Nat} :
    (pool.workerPass options worker).Awaited w ↔ pool.Awaited w := by
  unfold Pool.workerPass
  split_ifs
  · rfl
  dsimp only
  split_ifs <;> rfl

theorem awaited_takeCaller {caller : Caller} (htake : pool.takeCaller i = some (caller, pool'))
    {w : Nat} : pool'.Awaited w ↔ pool.Awaited w := by
  obtain ⟨-, heq⟩ := takeCaller_perm htake
  rw [heq]
  rfl

/-- A caller that can be taken out has been suspended. -/
theorem Pool.inUse_of_takeCaller {caller : Caller}
    (htake : pool.takeCaller i = some (caller, pool')) (huses : caller.usesPool pool = true) :
    pool.InUse :=
  ⟨caller, (takeCaller_perm htake).1.subset List.mem_cons_self, huses⟩

/-- A caller has been taken out, and the others stay as they are. -/
theorem Pool.InUse.of_takeCaller {caller : Caller} {after : Pool} (h : after.InUse)
    (htake : pool.takeCaller i = some (caller, pool'))
    (hcallers : after.callers = pool'.callers)
    (hwaiters : ∀ w, after.Awaited w → pool'.Awaited w) : pool.InUse := by
  obtain ⟨hperm, -⟩ := takeCaller_perm htake
  apply h.of_fewer
  · intro other hmem
    rw [hcallers] at hmem
    exact ⟨other, hperm.subset (List.mem_cons_of_mem caller hmem), rfl⟩
  · intro w hw
    exact (awaited_takeCaller htake).mp (hwaiters w hw)

/-- The callers stay as they are. -/
theorem Pool.InUse.of_same (h : pool'.InUse) (hcallers : pool'.callers = pool.callers)
    (hwaiters : ∀ w, pool'.Awaited w → pool.Awaited w) : pool.InUse :=
  h.of_fewer (fun caller hmem => ⟨caller, hcallers ▸ hmem, rfl⟩) hwaiters

/-- Whether a new request asks for a connection. -/
def Action.isAcquire : Action → Bool
  | .acquire .. => true
  | _ => false

/-- Only a new request makes a side one that is in use. Whoever else gets a connection has been
awaited or busy before; a wait that fails leaves fewer. -/
theorem Pool.InUse.of_step {a : Action} (hold : a.isAcquire = false)
    (hstep : step options pool a = some pool') (h : pool'.InUse) : pool.InUse := by
  cases a with
  | acquire request cancelled handler => cases hold
  | resume i =>
    -- whoever resumes has been woken, and so was awaited
    obtain ⟨caller, base, w, htake, hphase, hwoken, -⟩ := step_resume hstep
    apply Pool.inUse_of_takeCaller htake
    rw [Caller.usesPool, hphase]
    exact decide_eq_true ((awaited_takeCaller htake).mp (.inr hwoken))
  | expire i =>
    obtain ⟨caller, base, w, htake, -, rfl⟩ := step_expire hstep
    exact h.of_takeCaller htake callers_updateCancelState fun v => awaited_updateCancelState.mp
  | cancelSignal i =>
    obtain ⟨caller, base, htake, rfl⟩ := step_cancelSignal hstep
    obtain ⟨hperm, -⟩ := takeCaller_perm htake
    apply h.of_fewer
    · -- the one whose cancellation is signalled stays in its phase
      intro other hmem
      rcases List.mem_append.mp hmem with hrest | hlast
      · exact ⟨other, hperm.subset (List.mem_cons_of_mem caller hrest), rfl⟩
      · obtain rfl := List.mem_singleton.mp hlast
        exact ⟨caller, hperm.subset List.mem_cons_self, rfl⟩
    · intro w hw
      exact (awaited_takeCaller htake).mp hw
  | abortWait i =>
    obtain ⟨caller, base, w, htake, -, hunwoken, rfl⟩ := step_abortWait hstep
    refine h.of_takeCaller htake callers_updateCancelState fun v hv => ?_
    rcases awaited_updateCancelState.mp hv with hmem | hwoken
    · exact .inl (List.mem_filter.mp hmem).1
    · -- the one that leaves has not been woken
      by_cases hvw : v = w
      · subst hvw
        simp [hunwoken] at hwoken
      · simp only [Function.update_of_ne hvw] at hwoken
        exact .inr hwoken
  | cancelOnShard id =>
    obtain ⟨closed, waiters, f, rfl, hflags⟩ := step_cancelOnShard hstep
    refine h.of_same callers_updateCancelState fun w hw => ?_
    rcases awaited_updateCancelState.mp hw with hmem | hwoken
    · exact .inl hmem
    · exact .inr ((hflags w).1.symm.trans hwoken)
  | connectSucceeded i =>
    obtain ⟨caller, base, htake, hphase, -⟩ := step_connectSucceeded hstep
    exact Pool.inUse_of_takeCaller htake (by rw [Caller.usesPool, hphase])
  | connectFailed i =>
    obtain ⟨caller, base, htake, hphase, -⟩ := step_connectFailed hstep
    exact Pool.inUse_of_takeCaller htake (by rw [Caller.usesPool, hphase])
  | exchanged i result =>
    obtain ⟨caller, base, connection, f, htake, hphase, -⟩ := step_exchanged hstep
    exact Pool.inUse_of_takeCaller htake (by rw [Caller.usesPool, hphase])
  | preconnect request targetCount =>
    obtain ⟨nextCall, launched, worker, n, -, rfl⟩ := step_preconnect hstep
    exact h
  | workerStarts i =>
    obtain ⟨worker, base, htake, -, rfl⟩ := step_workerStarts hstep
    obtain ⟨-, heq⟩ := takeWorker_perm htake
    rw [heq] at h
    exact h.of_same callers_workerPass fun w => awaited_workerPass.mp
  | workerConnected i =>
    obtain ⟨worker, base, htake, -, rfl⟩ := step_workerConnected hstep
    obtain ⟨-, heq⟩ := takeWorker_perm htake
    rw [heq] at h
    refine h.of_same callers_workerPass fun w hw => ?_
    exact awaited_of_wakeFirst (awaited_workerPass.mp hw)
  | workerFailed i =>
    obtain ⟨worker, base, htake, -, rfl⟩ := step_workerFailed hstep
    obtain ⟨-, heq⟩ := takeWorker_perm htake
    rw [heq] at h
    exact h.of_same rfl fun w => awaited_of_wakeFirst

theorem Pool.InUse.of_resetConnections (h : pool.resetConnections.InUse) : pool.InUse :=
  h.of_same rfl fun _ => awaited_of_wakeFirst

/-- Closing the idle connections leaves the requests alone. -/
theorem Pool.inUse_closePoolIdle : pool.closePoolIdle.InUse ↔ pool.InUse := Iff.rfl

/-- In a side that looks idle nobody connects or exchanges, and nobody is in line. -/
theorem Conserved.inUse_iff (h : Conserved options pool 0) (hidle : pool.isIdle = true) :
    pool.InUse ↔ 0 < pool.woken := by
  have hactive : pool.active = pool.idle.length + pool.connects + pool.exchanges + 0 := h.active
  simp only [Pool.isIdle, Bool.and_eq_true, beq_iff_eq, List.isEmpty_iff] at hidle
  obtain ⟨hall, hqueue⟩ := hidle
  -- if all connections that count as active are idle, none is connecting or exchanging
  have hconnects : pool.callers.countP Caller.isConnecting = 0 := by
    simp only [Pool.connects] at hactive
    omega
  have hexchanges : pool.callers.countP Caller.isExchanging = 0 := by
    simp only [Pool.exchanges] at hactive
    omega
  rw [Pool.woken, List.countP_pos_iff]
  refine exists_congr fun caller => and_congr_right fun hmem => ?_
  have hconnecting := List.countP_eq_zero.mp hconnects caller hmem
  have hexchanging := List.countP_eq_zero.mp hexchanges caller hmem
  unfold Caller.usesPool Caller.isWoken Caller.waiterSatisfies
  cases hphase : caller.phase with
  | waiting w => simp [Pool.Awaited, hqueue]
  | connecting => simp [Caller.isConnecting, hphase] at hconnecting
  | exchanging connection => simp [Caller.isExchanging, hphase] at hexchanging

/-! ### The use of a pool -/

namespace OriginPool

variable {options : PoolOptions} {pool pool' : OriginPool}

def InUse (pool : OriginPool) : Prop := pool.plain.InUse ∨ pool.tls.InUse

instance : Decidable pool.InUse := inferInstanceAs (Decidable (_ ∨ _))

/-- The requests that have been woken and not resumed yet. -/
def woken (pool : OriginPool) : Nat := pool.plain.woken + pool.tls.woken

theorem inUse_closePoolIdle : pool.closePoolIdle.InUse ↔ pool.InUse := Iff.rfl

/-- What `pool_idle` cannot see of a pool are its woken requests. -/
theorem BothConserved.inUse_iff (h : pool.BothConserved options) (hidle : pool.poolIdle = true) :
    pool.InUse ↔ 0 < pool.woken := by
  simp only [poolIdle, Bool.and_eq_true] at hidle
  rw [InUse, h.1.inUse_iff hidle.1.1, h.2.inUse_iff hidle.1.2, woken]
  omega

end OriginPool

/-- Whether a new request asks for a connection. -/
def OriginAction.isAcquire : OriginAction → Bool
  | .plain action | .tls action => action.isAcquire
  | .startActors _ | .resetConnections | .evict => false

/-- A request for the URL asks for a connection. -/
def OriginAction.acquire (url : ParsedUrl) (request : Request) (cancelled handler : Bool) :
    OriginAction :=
  if url.tls then .tls (.acquire request cancelled handler)
  else .plain (.acquire request cancelled handler)

/-- Only a new request makes a pool one that is in use. -/
theorem OriginPool.InUse.of_step {pool pool' : OriginPool} {a : OriginAction}
    (hold : a.isAcquire = false) (hstep : pool.step options a = some pool') (h : pool'.InUse) :
    pool.InUse := by
  cases a with
  | plain action =>
    obtain ⟨plain, hplain, rfl⟩ := Option.map_eq_some_iff.mp hstep
    exact h.imp_left fun hside => hside.of_step hold hplain
  | tls action =>
    obtain ⟨tls, htls, rfl⟩ := Option.map_eq_some_iff.mp hstep
    exact h.imp_right fun hside => hside.of_step hold htls
  | startActors target =>
    obtain rfl := Option.some.inj hstep
    exact h
  | resetConnections =>
    obtain rfl := Option.some.inj hstep
    exact h.imp Pool.InUse.of_resetConnections Pool.InUse.of_resetConnections
  | evict =>
    simp only [OriginPool.step] at hstep
    split_ifs at hstep with hidle
    obtain rfl := Option.some.inj hstep
    exact h

/-! ### What an eviction takes out of the map -/

namespace ShardOrigins

variable {options : ShardOriginsOptions} {shard shard' : ShardOrigins} {periodic : Bool}
  {now : Int} {key : Bytes}

/-- An eviction at this time comes to the pool of the key while it looks idle, and it has
expired or there are too many pools even without those that look idle and come before it. -/
def Due (options : ShardOriginsOptions) (shard : ShardOrigins) (periodic : Bool) (now : Int)
    (key : Bytes) : Prop :=
  options.maxOriginsPerShard ≠ 0 ∧ ∃ newer node older entry,
    shard.cache.order = newer ++ node :: older ∧ node.key = key ∧
      shard.cache.map.lookup key = some entry ∧
        (shard.evictionRule options periodic now).Due shard.cache.size
          (LruCache.items shard.cache.map older.reverse) (key, entry)

theorem due_iff (hmax : options.maxOriginsPerShard ≠ 0) {entry : Entry Nat}
    (hentry : shard.cache.map.lookup key = some entry) :
    shard.Due options periodic now key ↔
      ∃ newer node older, shard.cache.order = newer ++ node :: older ∧ node.key = key ∧
        (shard.evictionRule options periodic now).Due shard.cache.size
          (LruCache.items shard.cache.map older.reverse) (key, entry) := by
  constructor
  · rintro ⟨-, newer, node, older, entry', horder, hkey, hentry', hdue⟩
    obtain rfl := Option.some.inj (hentry'.symm.trans hentry)
    exact ⟨newer, node, older, horder, hkey, hdue⟩
  · rintro ⟨newer, node, older, horder, hkey, hdue⟩
    exact ⟨hmax, newer, node, older, entry, horder, hkey, hentry, hdue⟩

/-- A pool that is due looks idle. -/
theorem Due.poolIdle (h : shard.Due options periodic now key) {i : Nat}
    (hkey : shard.cache.get key = some i) : (shard.pools i).poolIdle = true := by
  obtain ⟨-, newer, node, older, entry, -, -, hentry, hdue⟩ := h
  rw [LruCache.get_of_lookup hentry] at hkey
  obtain rfl := Option.some.inj hkey
  exact hdue.idle

/-- After an eviction the map has the pools that were not due. -/
theorem get_evictIdleOrigins_iff (h : shard.cache.Linked shard.clock) {i : Nat} :
    (shard.evictIdleOrigins options periodic now).cache.get key = some i ↔
      shard.cache.get key = some i ∧ ¬ shard.Due options periodic now key := by
  by_cases hmax : options.maxOriginsPerShard = 0
  · rw [evictIdleOrigins, if_pos hmax]
    exact (and_iff_left fun hdue => hdue.1 hmax).symm
  rw [cache_evictIdleOrigins hmax, h.get_evict]
  cases hentry : shard.cache.map.lookup key with
  | none =>
    have hnone : shard.cache.get key = none := by rw [LruCache.get, hentry, Option.map_none]
    simp [hnone]
  | some entry =>
    have hremoved : key ∈ (shard.cache.evict (shard.evictionRule options periodic now)).2.map
        Prod.fst ↔ shard.Due options periodic now key :=
      (h.key_mem_removed_iff LruCache.agingRule_expired hentry).trans (due_iff hmax hentry).symm
    split_ifs with hin
    · exact iff_of_false (fun hnone => by cases hnone) fun hboth => hboth.2 (hremoved.mp hin)
    · exact (and_iff_left fun hdue => hin (hremoved.mpr hdue)).symm

/-- What an eviction does to a pool: it leaves it alone, or closes it idle. -/
theorem pools_evictIdleOrigins (h : shard.cache.Linked shard.clock)
    (options : ShardOriginsOptions) (periodic : Bool) (now : Int) (i : Nat) :
    (shard.evictIdleOrigins options periodic now).pools i = shard.pools i ∨
      (shard.pools i).poolIdle = true ∧
        (shard.evictIdleOrigins options periodic now).pools i = (shard.pools i).closePoolIdle := by
  rw [evictIdleOrigins]
  split_ifs with hmax
  · exact .inl rfl
  dsimp only
  split_ifs with hin
  · refine .inr ⟨?_, rfl⟩
    obtain ⟨x, hx, rfl⟩ := List.mem_map.mp hin
    obtain ⟨before, after, hsplit⟩ := List.append_of_mem hx
    exact ((h.evicts LruCache.agingRule_expired).allowed before x after hsplit).1
  · exact .inl rfl

theorem created_evictIdleOrigins :
    (shard.evictIdleOrigins options periodic now).created = shard.created := by
  rw [evictIdleOrigins]
  split_ifs <;> rfl

theorem clock_evictIdleOrigins :
    (shard.evictIdleOrigins options periodic now).clock = shard.clock := by
  rw [evictIdleOrigins]
  split_ifs <;> rfl

theorem inUse_evictIdleOrigins (h : shard.cache.Linked shard.clock) (i : Nat) :
    ((shard.evictIdleOrigins options periodic now).pools i).InUse ↔ (shard.pools i).InUse := by
  rcases pools_evictIdleOrigins h options periodic now i with hsame | ⟨-, hclosed⟩
  · rw [hsame]
  · rw [hclosed]
    exact OriginPool.inUse_closePoolIdle

end ShardOrigins

/-! ### Requests that look up their pools -/

/-- A shard, and the origin that each pool was last looked up for. -/
structure ShardRequests where
  shard : ShardOrigins := {}
  home : Nat → Bytes := fun _ => []

/-- The steps of the machine. -/
inductive ShardRequestAction where
  /-- A request looks up its pool and asks it for a connection. -/
  | request (url : ParsedUrl) (request : Request) (cancelled handler : Bool)
      (evictNow now : Int)
  /-- A preconnect, or a request of the actors, looks up a pool. -/
  | getOriginPool (url : ParsedUrl) (evictNow now : Int)
  | maintenance (now : Int)
  | pool (i : Nat) (action : OriginAction)

namespace ShardRequests

variable (options : ShardOriginsOptions)

/-- Look up the pool of an origin. -/
def lookUp (state : ShardRequests) (url : ParsedUrl) (evictNow now : Int) :
    Option (Nat × ShardRequests) :=
  (state.shard.step options (.getOriginPool url evictNow now)).map fun shard =>
    let i := (state.shard.getOriginPool options (poolKey url) evictNow now).1
    (i, { shard, home := Function.update state.home i (poolKey url) })

/-- A pool goes on. -/
def goOn (state : ShardRequests) (i : Nat) (action : OriginAction) : Option ShardRequests :=
  (state.shard.step options (.pool i action)).map fun shard => { state with shard }

/-- One step of the machine; `none` if the action is not enabled. -/
def step (state : ShardRequests) : ShardRequestAction → Option ShardRequests
  | .request url request cancelled handler evictNow now => do
    -- nothing is suspended between the lookup and the first pass of the acquire loop
    let (i, state) ← state.lookUp options url evictNow now
    state.goOn options i (.acquire url request cancelled handler)
  | .getOriginPool url evictNow now => (state.lookUp options url evictNow now).map Prod.snd
  | .maintenance now =>
    (state.shard.step options (.maintenance now)).map fun shard => { state with shard }
  | .pool i action => if action.isAcquire then none else state.goOn options i action

/-- Every pool in use is in the map, for the origin that its requests are for. -/
def Kept (state : ShardRequests) : Prop :=
  ∀ i, (state.shard.pools i).InUse → state.shard.cache.get (state.home i) = some i

/-- No pool that an eviction at this time comes to has a woken request. -/
def SparesWoken (state : ShardRequests) (periodic : Bool) (now : Int) : Prop :=
  ∀ key i, state.shard.cache.get key = some i → state.shard.Due options periodic now key →
    (state.shard.pools i).woken = 0

/-- The steps whose evictions spare the woken requests. -/
def Spares (state : ShardRequests) : ShardRequestAction → Prop
  | .request url _ _ _ evictNow _ | .getOriginPool url evictNow _ =>
    state.shard.cache.get (poolKey url) = none → state.SparesWoken options false evictNow
  | .maintenance now => state.SparesWoken options true now
  | .pool .. => True

/-- The pools count their connections, and each origin in the map has a pool of its own. -/
structure Sound (state : ShardRequests) : Prop where
  linked : state.shard.cache.Linked state.shard.clock
  conserved : ∀ i, (state.shard.pools i).BothConserved options.pool
  old : ∀ key i, state.shard.cache.get key = some i → i < state.shard.created
  home : ∀ key i, state.shard.cache.get key = some i → state.home i = key
  unborn : ∀ i, state.shard.created ≤ i → ¬ (state.shard.pools i).InUse

theorem sound_init (clock : Int) : Sound options { shard := { clock } } where
  linked := LruCache.linked_empty clock
  conserved i := ⟨conserved_empty, conserved_empty⟩
  old key i h := by simp [LruCache.get] at h
  home key i h := by simp [LruCache.get] at h
  unborn _ _ := by rintro (⟨_, hmem, -⟩ | ⟨_, hmem, -⟩) <;> cases hmem

variable {options} {state state' : ShardRequests} {i : Nat}

/-- An eviction keeps everything in order. -/
theorem Sound.evict (h : state.Sound options) (periodic : Bool) (now : Int) :
    Sound options { state with shard := state.shard.evictIdleOrigins options periodic now } where
  linked := by
    simp only [ShardOrigins.clock_evictIdleOrigins]
    exact ShardOrigins.linked_evictIdleOrigins h.linked
  conserved i := by
    rcases ShardOrigins.pools_evictIdleOrigins h.linked options periodic now i with
      hsame | ⟨hidle, hclosed⟩
    · exact hsame ▸ h.conserved i
    · simp only [OriginPool.poolIdle, Bool.and_eq_true] at hidle
      simp only [hclosed]
      exact ⟨(h.conserved i).1.closePoolIdle hidle.1.1, (h.conserved i).2.closePoolIdle hidle.1.2⟩
  old key i hkey := by
    simp only [ShardOrigins.created_evictIdleOrigins]
    exact h.old key i ((ShardOrigins.get_evictIdleOrigins_iff h.linked).mp hkey).1
  home key i hkey := h.home key i ((ShardOrigins.get_evictIdleOrigins_iff h.linked).mp hkey).1
  unborn i hi := by
    simp only [ShardOrigins.created_evictIdleOrigins] at hi
    simp only [ShardOrigins.inUse_evictIdleOrigins h.linked]
    exact h.unborn i hi

/-- An eviction keeps the pools in use if and only if it spares the woken requests. -/
theorem kept_evict_iff (h : state.Sound options) (hkept : state.Kept) {periodic : Bool}
    {now : Int} :
    Kept { state with shard := state.shard.evictIdleOrigins options periodic now } ↔
      state.SparesWoken options periodic now := by
  simp only [Kept, ShardOrigins.inUse_evictIdleOrigins h.linked,
    ShardOrigins.get_evictIdleOrigins_iff h.linked]
  constructor
  · -- a pool that is due and has a woken request would be in use, and not in the map
    intro hafter key i hkey hdue
    by_contra hwoken
    have huse : (state.shard.pools i).InUse :=
      ((h.conserved i).inUse_iff (hdue.poolIdle hkey)).mpr (Nat.pos_of_ne_zero hwoken)
    have hhome := h.home key i hkey
    exact (hafter i huse).2 (hhome.symm ▸ hdue)
  · intro hspares i huse
    have hkey := hkept i huse
    refine ⟨hkey, fun hdue => ?_⟩
    have hwoken := ((h.conserved i).inUse_iff (hdue.poolIdle hkey)).mp huse
    exact Nat.ne_of_gt hwoken (hspares _ i hkey hdue)

/-- What a lookup does: it uses the pool that the map has, or evicts and then creates one. -/
theorem lookUp_cases {url : ParsedUrl} {evictNow now : Int}
    (hlook : state.lookUp options url evictNow now = some (i, state')) :
    state.shard.clock ≤ now ∧
      (state.shard.cache.get (poolKey url) = some i ∧
          state' =
            { shard :=
                { state.shard with
                  cache := state.shard.cache.touch now (poolKey url)
                  clock := now }
              home := Function.update state.home i (poolKey url) } ∨
        state.shard.cache.get (poolKey url) = none ∧ i = state.shard.created ∧
          ∃ evicted, evicted = state.shard.evictIdleOrigins options false evictNow ∧
            state' =
              { shard :=
                  { evicted with
                    cache := evicted.cache.pushFront now (poolKey url) i
                    created := i + 1
                    clock := now }
                home := Function.update state.home i (poolKey url) }) := by
  obtain ⟨shard, hstep, heq⟩ := Option.map_eq_some_iff.mp hlook
  obtain ⟨rfl, rfl⟩ := Prod.mk.inj heq
  simp only [ShardOrigins.step] at hstep
  split_ifs at hstep with hclock
  obtain rfl := Option.some.inj hstep
  refine ⟨Int.le_trans hclock.1 hclock.2, ?_⟩
  rw [ShardOrigins.getOriginPool]
  cases hkey : state.shard.cache.get (poolKey url) with
  | some pool => exact .inl ⟨rfl, rfl⟩
  | none =>
    refine .inr ⟨rfl, ShardOrigins.created_evictIdleOrigins, _, rfl, rfl⟩

/-- A pool that the map has keeps its origin. -/
theorem Sound.update_home {key : Bytes} (h : state.Sound options)
    (hkey : state.shard.cache.get key = some i) :
    Function.update state.home i key = state.home := by
  rw [← h.home key i hkey]
  exact Function.update_eq_self i state.home

/-- A lookup keeps everything in order. -/
theorem Sound.lookUp {url : ParsedUrl} {evictNow now : Int} (h : state.Sound options)
    (hlook : state.lookUp options url evictNow now = some (i, state')) :
    state'.Sound options ∧ state'.shard.cache.get (poolKey url) = some i ∧
      state'.home i = poolKey url := by
  obtain ⟨hnow, ⟨hkey, rfl⟩ | ⟨hkey, rfl, evicted, hevicted, rfl⟩⟩ := lookUp_cases hlook
  · -- the pool is in the map already, for its own origin
    refine ⟨⟨h.linked.touch hnow, h.conserved, ?_, ?_, h.unborn⟩, ?_, Function.update_self ..⟩
    · intro key j hj
      rw [LruCache.get_touch] at hj
      exact h.old key j hj
    · intro key j hj
      rw [LruCache.get_touch] at hj
      simp only [h.update_home hkey]
      exact h.home key j hj
    · rw [LruCache.get_touch]
      exact hkey
  · -- the origin is added with a new pool, after the eviction
    have hev := h.evict false evictNow
    rw [← hevicted] at hev
    have habsent : evicted.cache.get (poolKey url) = none := by
      rw [hevicted]
      exact ShardOrigins.get_evictIdleOrigins h.linked hkey
    have hcreated : evicted.created = state.shard.created := by
      rw [hevicted]
      exact ShardOrigins.created_evictIdleOrigins
    have hclock : evicted.clock = state.shard.clock := by
      rw [hevicted]
      exact ShardOrigins.clock_evictIdleOrigins
    have hold : ∀ key j, (evicted.cache.pushFront now (poolKey url) state.shard.created).get key =
        some j → key = poolKey url ∧ j = state.shard.created ∨ evicted.cache.get key = some j := by
      intro key j hj
      by_cases hkeys : key = poolKey url
      · rw [hkeys, LruCache.get_pushFront_self] at hj
        exact .inl ⟨hkeys, (Option.some.inj hj).symm⟩
      · rw [LruCache.get_pushFront_of_ne hkeys] at hj
        exact .inr hj
    refine ⟨⟨?_, hev.conserved, ?_, ?_, ?_⟩, LruCache.get_pushFront_self ..,
      Function.update_self ..⟩
    · exact hev.linked.pushFront (hclock ▸ hnow) (LruCache.get_eq_none.mp habsent)
    · intro key j hj
      rcases hold key j hj with ⟨-, rfl⟩ | hbefore
      · exact Nat.lt_succ_self _
      · exact Nat.lt_succ_of_lt (hcreated ▸ hev.old key j hbefore)
    · intro key j hj
      rcases hold key j hj with ⟨rfl, rfl⟩ | hbefore
      · exact Function.update_self ..
      · have hne : j ≠ state.shard.created := Nat.ne_of_lt (hcreated ▸ hev.old key j hbefore)
        exact (Function.update_of_ne hne ..).trans (hev.home key j hbefore)
    · intro j hj
      exact hev.unborn j (hcreated ▸ Nat.le_of_succ_le hj)

/-- A lookup keeps the pools in use if and only if its eviction, if it makes one, spares the
woken requests. -/
theorem kept_lookUp_iff {url : ParsedUrl} {evictNow now : Int} (h : state.Sound options)
    (hkept : state.Kept) (hlook : state.lookUp options url evictNow now = some (i, state')) :
    (state.shard.cache.get (poolKey url) = none → state.SparesWoken options false evictNow) ↔
      state'.Kept := by
  obtain ⟨-, ⟨hkey, rfl⟩ | ⟨hkey, rfl, evicted, hevicted, rfl⟩⟩ := lookUp_cases hlook
  · refine iff_of_true (fun hnone => ?_) fun j huse => ?_
    · rw [hkey] at hnone
      cases hnone
    · simp only [LruCache.get_touch, h.update_home hkey]
      exact hkept j huse
  · have hev := h.evict false evictNow
    rw [forall_prop_of_true hkey, ← kept_evict_iff h hkept]
    rw [← hevicted] at hev ⊢
    have habsent : evicted.cache.get (poolKey url) = none := by
      rw [hevicted]
      exact ShardOrigins.get_evictIdleOrigins h.linked hkey
    refine forall₂_congr fun j huse => ?_
    -- the pool that has just been created is not in use
    have hne : j ≠ state.shard.created := by
      rintro rfl
      refine hev.unborn _ ?_ huse
      exact Nat.le_of_eq (hevicted ▸ ShardOrigins.created_evictIdleOrigins)
    simp only [Function.update_of_ne hne]
    exact (LruCache.get_pushFront_iff habsent hne now).symm

/-- What it means that a pool goes on. -/
theorem goOn_cases {action : OriginAction} (hgo : state.goOn options i action = some state') :
    ∃ after, (state.shard.pools i).step options.pool action = some after ∧
      state' = { state with
        shard := { state.shard with pools := Function.update state.shard.pools i after } } := by
  obtain ⟨shard, hstep, rfl⟩ := Option.map_eq_some_iff.mp hgo
  have hpool : ∀ action, (((state.shard.pools i).step options.pool action).map fun after =>
        { state.shard with pools := Function.update state.shard.pools i after }) = some shard →
      ∃ after, (state.shard.pools i).step options.pool action = some after ∧
        { state with shard } = { state with
          shard := { state.shard with pools := Function.update state.shard.pools i after } } := by
    intro action hresult
    obtain ⟨after, hafter, rfl⟩ := Option.map_eq_some_iff.mp hresult
    exact ⟨after, hafter, rfl⟩
  cases action with
  | evict => cases hstep
  | plain action => exact hpool (.plain action) hstep
  | tls action => exact hpool (.tls action) hstep
  | startActors target => exact hpool (.startActors target) hstep
  | resetConnections => exact hpool .resetConnections hstep

/-- A pool that exists may go on in any way, the others only without new requests. -/
theorem Sound.goOn {action : OriginAction} (h : state.Sound options)
    (hallowed : action.isAcquire = false ∨ i < state.shard.created)
    (hgo : state.goOn options i action = some state') : state'.Sound options := by
  obtain ⟨after, hafter, rfl⟩ := goOn_cases hgo
  refine ⟨h.linked, fun j => ?_, h.old, h.home, fun j hj => ?_⟩
  · by_cases hji : j = i
    · subst hji
      simp only [Function.update_self]
      exact (h.conserved j).step hafter
    · simp only [Function.update_of_ne hji]
      exact h.conserved j
  · by_cases hji : j = i
    · subst hji
      simp only [Function.update_self]
      intro huse
      -- a pool that does not exist gets no new request
      have hnew := hallowed.resolve_right (Nat.not_lt.mpr hj)
      exact h.unborn j hj (huse.of_step hnew hafter)
    · simp only [Function.update_of_ne hji]
      exact h.unborn j hj

/-- The pools in use are kept while one goes on, if a new request finds it in the map. -/
theorem Kept.goOn {action : OriginAction} (hkept : state.Kept)
    (hallowed : action.isAcquire = true → state.shard.cache.get (state.home i) = some i)
    (hgo : state.goOn options i action = some state') : state'.Kept := by
  obtain ⟨after, hafter, rfl⟩ := goOn_cases hgo
  intro j huse
  by_cases hji : j = i
  · subst hji
    cases hnew : action.isAcquire with
    | true => exact hallowed hnew
    | false =>
      simp only [Function.update_self] at huse
      exact hkept j (huse.of_step hnew hafter)
  · simp only [Function.update_of_ne hji] at huse
    exact hkept j huse

/-- If the pool that goes on is in the map, all are kept before if they are afterwards. -/
theorem Kept.of_goOn {action : OriginAction} (hkept : state'.Kept)
    (hmap : state.shard.cache.get (state.home i) = some i)
    (hgo : state.goOn options i action = some state') : state.Kept := by
  obtain ⟨after, hafter, rfl⟩ := goOn_cases hgo
  intro j huse
  by_cases hji : j = i
  · rw [hji]
    exact hmap
  · apply hkept j
    simp only [Function.update_of_ne hji]
    exact huse

theorem Sound.step {action : ShardRequestAction} (h : state.Sound options)
    (hstep : state.step options action = some state') : state'.Sound options := by
  cases action with
  | request url request cancelled handler evictNow now =>
    obtain ⟨⟨i, found⟩, hlook, hgo⟩ := Option.bind_eq_some_iff.mp hstep
    obtain ⟨hfound, hkey, -⟩ := h.lookUp hlook
    exact hfound.goOn (.inr (hfound.old _ i hkey)) hgo
  | getOriginPool url evictNow now =>
    obtain ⟨⟨i, found⟩, hlook, rfl⟩ := Option.map_eq_some_iff.mp hstep
    exact (h.lookUp hlook).1
  | maintenance now =>
    obtain ⟨shard, hshard, rfl⟩ := Option.map_eq_some_iff.mp hstep
    simp only [ShardOrigins.step] at hshard
    split_ifs at hshard with hclock
    obtain rfl := Option.some.inj hshard
    have hevicted := h.evict true now
    refine ⟨hevicted.linked.later ?_, hevicted.conserved, hevicted.old, hevicted.home,
      hevicted.unborn⟩
    simp only [ShardOrigins.clock_evictIdleOrigins]
    exact hclock
  | pool i action =>
    simp only [ShardRequests.step] at hstep
    split_ifs at hstep with hnew
    exact h.goOn (.inl (Bool.eq_false_iff.mpr hnew)) hstep

/-- A step keeps the pools in use if and only if its eviction spares the woken requests. -/
theorem spares_iff_kept {action : ShardRequestAction} (h : state.Sound options)
    (hkept : state.Kept) (hstep : state.step options action = some state') :
    state.Spares options action ↔ state'.Kept := by
  cases action with
  | request url request cancelled handler evictNow now =>
    obtain ⟨⟨i, found⟩, hlook, hgo⟩ := Option.bind_eq_some_iff.mp hstep
    obtain ⟨-, hkey, hhome⟩ := h.lookUp hlook
    have hmap : found.shard.cache.get (found.home i) = some i := hhome.symm ▸ hkey
    exact (kept_lookUp_iff h hkept hlook).trans
      ⟨fun hfound => hfound.goOn (fun _ => hmap) hgo, fun hafter => hafter.of_goOn hmap hgo⟩
  | getOriginPool url evictNow now =>
    obtain ⟨⟨i, found⟩, hlook, rfl⟩ := Option.map_eq_some_iff.mp hstep
    exact kept_lookUp_iff h hkept hlook
  | maintenance now =>
    obtain ⟨shard, hshard, rfl⟩ := Option.map_eq_some_iff.mp hstep
    simp only [ShardOrigins.step] at hshard
    split_ifs at hshard with hclock
    obtain rfl := Option.some.inj hshard
    exact (kept_evict_iff h hkept).symm
  | pool i action =>
    simp only [ShardRequests.step] at hstep
    split_ifs at hstep with hnew
    exact iff_of_true trivial (hkept.goOn (fun hacquire => absurd hacquire hnew) hstep)

/-- The requests of an origin are on one pool, which keeps the cap. -/
structure OnePool (options : ShardOriginsOptions) (state : ShardRequests) : Prop where
  kept : state.Kept
  single : ∀ i j, (state.shard.pools i).InUse → (state.shard.pools j).InUse →
    state.home i = state.home j → i = j
  cap : ∀ i, (state.shard.pools i).plain.connects + (state.shard.pools i).plain.exchanges ≤
      options.pool.maxConnections ∧
    (state.shard.pools i).tls.connects + (state.shard.pools i).tls.exchanges ≤
      options.pool.maxConnections

/-- If every pool in use is kept, each origin has but one. -/
theorem Sound.onePool_iff (h : state.Sound options) : state.OnePool options ↔ state.Kept := by
  refine ⟨OnePool.kept, fun hkept => ⟨hkept, fun i j hi hj hhome => ?_, fun i => ?_⟩⟩
  · -- the map has one pool for an origin
    have hget := hkept i hi
    rw [hhome, hkept j hj] at hget
    exact (Option.some.inj hget).symm
  · obtain ⟨hplain, htls⟩ := h.conserved i
    have := hplain.active
    have := hplain.cap
    have := htls.active
    have := htls.cap
    omega

end ShardRequests

/-- A run keeps every pool in use in the map, one for each origin, if and only if all its
evictions spare the woken requests: no pool that is due looks idle because its only requests
have been woken and not resumed yet. -/
theorem pools_kept_iff (options : ShardOriginsOptions) (clock : Int)
    (actions : List ShardRequestAction) {state : ShardRequests}
    (hrun : exec (ShardRequests.step options) { shard := { clock } } actions = some state) :
    Along (ShardRequests.step options) (ShardRequests.Spares options) { shard := { clock } }
        actions ↔
      ∀ before after reached, actions = before ++ after →
        exec (ShardRequests.step options) { shard := { clock } } before = some reached →
          reached.OnePool options := by
  have hsound := ShardRequests.sound_init options clock
  have hkept : (ShardRequests.mk { clock } fun _ => []).Kept := by
    rintro i (⟨_, hmem, -⟩ | ⟨_, hmem, -⟩) <;> cases hmem
  refine along_iff_throughout_of_invariant
    (fun _ _ _ h hstep => ShardRequests.Sound.step h hstep) ?_ hsound
    (hsound.onePool_iff.mpr hkept) hrun
  intro s a t hs hone hstep
  rw [(hs.step hstep).onePool_iff]
  exact ShardRequests.spares_iff_kept hs (hs.onePool_iff.mp hone) hstep

/-- An origin that takes one connection at a time. -/
def oneConnection : ShardOriginsOptions := { pool := { maxConnectionsPerOrigin := 1 } }

def sharedUrl : ParsedUrl :=
  { scheme := str "http", host := str "a", port := str "80", target := str "/" }

/-- A request is answered. -/
def answeredOnce : List ShardRequestAction :=
  [.request sharedUrl {} false false 0 0, .pool 0 (.plain (.connectSucceeded 0)),
    .pool 0 (.plain (.exchanged 0 .success))]

theorem pools_kept_answeredOnce :
    ∃ state, exec (ShardRequests.step oneConnection) { shard := { clock := 0 } } answeredOnce =
      some state ∧ state.OnePool oneConnection := by
  refine ⟨_, rfl, ?_⟩
  refine (pools_kept_iff oneConnection 0 answeredOnce rfl).mp ?_ answeredOnce [] _ rfl rfl
  -- only the first step evicts, and then there are no pools
  refine ⟨fun _ key i hkey => ?_, fun _ _ => ⟨trivial, fun _ _ => ⟨trivial, fun _ _ => trivial⟩⟩⟩
  simp [LruCache.get] at hkey

/-- A second request waits while the first one is answered, and is woken. Before it resumes the
maintenance evicts the pool, which has not been looked up for a while. The request goes on in
the pool that is gone; a third one gets a new pool. -/
def evictedWhileWoken : List ShardRequestAction :=
  [.request sharedUrl {} false false 0 0, .pool 0 (.plain (.connectSucceeded 0)),
    .request sharedUrl {} false false 0 0, .pool 0 (.plain (.exchanged 0 .success)),
    .maintenance 300, .pool 0 (.plain (.resume 0)), .request sharedUrl {} false false 300 300]

theorem pool_in_use_evicted :
    ∃ options clock actions state,
      exec (ShardRequests.step options) { shard := { clock } } actions = some state ∧
        state.home 0 = state.home 1 ∧ ¬ state.Kept ∧
          options.pool.maxConnections <
            (state.shard.pools 0).plain.connects + (state.shard.pools 1).plain.connects := by
  refine ⟨oneConnection, 0, evictedWhileWoken, _, rfl, rfl, fun hkept => ?_, by decide⟩
  have hget := hkept 0 (by decide)
  exact absurd hget (by decide)

end HttpClient.H1
