import HttpClient.H1.OriginPool
import HttpClient.Semantics.LruCache
import HttpClient.Url

/-!
# The origins of a shard

A shard keeps a pool for every origin. A pool that is idle on both sides may be evicted; its
idle connections are then closed, and requests that have found it before go on using it. All
operations run on the shard's thread.

Pools are named in the order in which they are created.

## Main definitions

* `ShardOrigins` — the state
* `ShardOrigins.getOriginPool`, `ShardOrigins.evictIdleOrigins` — the operations
* `ShardOriginsAction`, `ShardOrigins.step` — the steps of the machine
-/

set_option autoImplicit false

namespace HttpClient.H1

open Semantics Text

structure ShardOriginsOptions where
  maxOriginsPerShard : Nat := 4096
  originIdleTtl : Int := 300
  pool : PoolOptions := {}

/-- The key of an origin. -/
def poolKey (url : ParsedUrl) : Bytes := url.scheme ++ str "://" ++ url.host ++ str ":" ++ url.port

/-- `close_pool_idle` -/
def OriginPool.closePoolIdle (pool : OriginPool) : OriginPool :=
  { pool with plain := pool.plain.closePoolIdle, tls := pool.tls.closePoolIdle }

structure ShardOrigins where
  /-- `origins` and `origin_lru`. -/
  cache : LruCache Bytes Nat := {}
  pools : Nat → OriginPool := fun _ => {}
  created : Nat := 0
  clock : Int := 0

namespace ShardOrigins

variable (options : ShardOriginsOptions)

/-- How an eviction decides. The one of the maintenance looks at all pools. -/
def evictionRule (shard : ShardOrigins) (periodic : Bool) (now : Int) :
    EvictionRule (Bytes × Entry Nat) :=
  LruCache.agingRule (.above options.maxOriginsPerShard periodic)
    (fun pool => (shard.pools pool).poolIdle) options.originIdleTtl now

/-- `evict_idle_origins` -/
def evictIdleOrigins (shard : ShardOrigins) (periodic : Bool) (now : Int) : ShardOrigins :=
  if options.maxOriginsPerShard = 0 then shard
  else
    let (cache, removed) := shard.cache.evict (shard.evictionRule options periodic now)
    { shard with
      cache
      pools := fun pool =>
        if pool ∈ removed.map fun x => x.2.value then (shard.pools pool).closePoolIdle
        else shard.pools pool }

/-- `get_origin_pool`. An eviction reads the clock before a use does. -/
def getOriginPool (shard : ShardOrigins) (key : Bytes) (evictNow now : Int) : Nat × ShardOrigins :=
  match shard.cache.get key with
  | some pool => (pool, { shard with cache := shard.cache.touch now key })
  | none =>
    let shard := shard.evictIdleOrigins options false evictNow
    (shard.created,
      { shard with
        cache := shard.cache.pushFront now key shard.created
        created := shard.created + 1 })

end ShardOrigins

/-- The steps of the machine. -/
inductive ShardOriginsAction where
  | getOriginPool (url : ParsedUrl) (evictNow now : Int)
  /-- The maintenance evicts. -/
  | maintenance (now : Int)
  /-- A pool goes on; that it is evicted is not for the pool to decide. -/
  | pool (pool : Nat) (action : OriginAction)

namespace ShardOrigins

/-- One step of the machine; `none` if the action is not enabled. -/
def step (options : ShardOriginsOptions) (shard : ShardOrigins) :
    ShardOriginsAction → Option ShardOrigins
  | .getOriginPool url evictNow now =>
    if shard.clock ≤ evictNow ∧ evictNow ≤ now then
      some { (shard.getOriginPool options (poolKey url) evictNow now).2 with clock := now }
    else none
  | .maintenance now =>
    if shard.clock ≤ now then some { shard.evictIdleOrigins options true now with clock := now }
    else none
  | .pool _ .evict => none
  | .pool pool action =>
    ((shard.pools pool).step options.pool action).map fun after =>
      { shard with pools := Function.update shard.pools pool after }

variable {options : ShardOriginsOptions} {shard shard' : ShardOrigins} {periodic : Bool}
  {now : Int}

/-! ### What the operations do to the cache -/

theorem cache_evictIdleOrigins (h : options.maxOriginsPerShard ≠ 0) :
    (shard.evictIdleOrigins options periodic now).cache =
      (shard.cache.evict (shard.evictionRule options periodic now)).1 := by
  rw [evictIdleOrigins, if_neg h]

theorem linked_evictIdleOrigins {clock : Int} (h : shard.cache.Linked clock) :
    (shard.evictIdleOrigins options periodic now).cache.Linked clock := by
  rw [evictIdleOrigins]
  split_ifs with hmax
  · exact h
  · exact h.evict

/-- An eviction adds no origin. -/
theorem get_evictIdleOrigins {clock : Int} {key : Bytes} (h : shard.cache.Linked clock)
    (hkey : shard.cache.get key = none) :
    (shard.evictIdleOrigins options periodic now).cache.get key = none := by
  rw [evictIdleOrigins]
  split_ifs with hmax
  · exact hkey
  · simp only [h.get_evict, hkey, ite_self]

/-- A step of a pool leaves the cache alone. -/
theorem step_pool {pool : Nat} {action : OriginAction}
    (h : shard.step options (.pool pool action) = some shard') :
    shard'.cache = shard.cache ∧ shard'.clock = shard.clock := by
  have hpool : ∀ action, (((shard.pools pool).step options.pool action).map fun after =>
        { shard with pools := Function.update shard.pools pool after }) = some shard' →
      shard'.cache = shard.cache ∧ shard'.clock = shard.clock := by
    intro action hresult
    obtain ⟨after, -, rfl⟩ := Option.map_eq_some_iff.mp hresult
    exact ⟨rfl, rfl⟩
  cases action with
  | evict => cases h
  | plain action => exact hpool (.plain action) h
  | tls action => exact hpool (.tls action) h
  | startActors target => exact hpool (.startActors target) h
  | resetConnections => exact hpool .resetConnections h

/-- What a step does to the cache: it changes nothing, uses a pool, evicts and then creates a
pool, or only evicts. -/
theorem step_cache {action : ShardOriginsAction} (h : shard.step options action = some shard') :
    shard'.cache = shard.cache ∧ shard'.clock = shard.clock ∨
      (∃ key, shard'.cache = shard.cache.touch shard'.clock key ∧ shard.clock ≤ shard'.clock) ∨
      (∃ key evictNow, shard.cache.get key = none ∧ shard.clock ≤ evictNow ∧
        evictNow ≤ shard'.clock ∧ shard'.cache =
          (shard.evictIdleOrigins options false evictNow).cache.pushFront shard'.clock key
            (shard.evictIdleOrigins options false evictNow).created) ∨
      shard.clock ≤ shard'.clock ∧
        shard'.cache = (shard.evictIdleOrigins options true shard'.clock).cache := by
  cases action with
  | getOriginPool url evictNow now =>
    simp only [step] at h
    split_ifs at h with hclock
    obtain rfl := Option.some.inj h
    rw [getOriginPool]
    cases hkey : shard.cache.get (poolKey url) with
    | some pool => exact .inr (.inl ⟨_, rfl, Int.le_trans hclock.1 hclock.2⟩)
    | none => exact .inr (.inr (.inl ⟨_, evictNow, hkey, hclock.1, hclock.2, rfl⟩))
  | maintenance now =>
    simp only [step] at h
    split_ifs at h with hclock
    obtain rfl := Option.some.inj h
    exact .inr (.inr (.inr ⟨hclock, rfl⟩))
  | pool pool action =>
    exact .inl (step_pool h)

/-- The list and the map agree after every step. -/
theorem linked_step {action : ShardOriginsAction} (h : shard.cache.Linked shard.clock)
    (hstep : shard.step options action = some shard') : shard'.cache.Linked shard'.clock := by
  rcases step_cache hstep with ⟨hsame, hclock⟩ | ⟨key, htouch, hclock⟩ |
      ⟨key, evictNow, hkey, hevict, hnow, hnew⟩ | ⟨hclock, hevicted⟩
  · rw [hsame, hclock]
    exact h
  · rw [htouch]
    exact h.touch hclock
  · rw [hnew]
    apply (linked_evictIdleOrigins h).pushFront (Int.le_trans hevict hnow)
    exact LruCache.get_eq_none.mp (get_evictIdleOrigins h hkey)
  · rw [hevicted]
    exact (linked_evictIdleOrigins h).later hclock

end ShardOrigins

end HttpClient.H1
