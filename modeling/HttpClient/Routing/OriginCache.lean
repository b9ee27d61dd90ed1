import HttpClient.Routing.OriginGate
import HttpClient.Semantics.LruCache
import HttpClient.Semantics.Machine
import HttpClient.Text.Bytes

/-!
# The origins that a client remembers

For every origin the client keeps its gate and the protocol it has last routed to. An origin
whose gate runs a detection is not evicted. The operations on the map run under one lock;
the gates go on by themselves, and an evicted gate is used by the requests that have it.

Gates are named in the order in which they are created.

## Main definitions

* `CachedOrigin`, `OriginCache` — the entries and the state
* `OriginCache.getGate`, `OriginCache.rememberedRoute`, `OriginCache.rememberRoute`,
  `OriginCache.evictCachedOrigins` — the operations
* `OriginCacheAction`, `OriginCache.step` — the steps of the machine
-/

set_option autoImplicit false

namespace HttpClient.Routing

open Semantics Text

structure OriginCacheOptions where
  maxCachedOrigins : Nat := 4096
  originCacheTtl : Int := 300
  gate : GateOptions := {}

structure CachedOrigin where
  gate : Option Nat := none
  protocol : ProtocolState := .unknown
  deriving DecidableEq, Repr

structure OriginCache where
  /-- `origins_` and `origin_lru_`. -/
  cache : LruCache Bytes CachedOrigin := {}
  gates : Nat → OriginGate := fun _ => {}
  created : Nat := 0
  /-- `cache_generation_`. -/
  generation : Nat := 0
  clock : Int := 0

namespace OriginCache

variable (options : OriginCacheOptions)

/-- `cached_origin_idle` -/
def cachedOriginIdle (state : OriginCache) (entry : CachedOrigin) : Bool :=
  match entry.gate with
  | none => true
  | some gate => !(state.gates gate).evictionBlocked

/-- How an eviction decides. -/
def evictionRule (state : OriginCache) (now : Int) : EvictionRule (Bytes × Entry CachedOrigin) :=
  LruCache.agingRule (.above options.maxCachedOrigins false) state.cachedOriginIdle
    options.originCacheTtl now

/-- `evict_cached_origins_locked` -/
def evictCachedOrigins (state : OriginCache) (now : Int) : OriginCache :=
  if options.maxCachedOrigins = 0 then state
  else
    let (cache, removed) := state.cache.evict (state.evictionRule options now)
    { state with cache, generation := state.generation + removed.length }

/-- `get_gate`. An eviction reads the clock before a use does. -/
def getGate (state : OriginCache) (key : Bytes) (evictNow now : Int) : OriginCache :=
  if key ∈ state.cache.map then { state with cache := state.cache.touch now key }
  else
    let state := state.evictCachedOrigins options evictNow
    { state with
      cache := ((state.cache.emplace key {}).modify key fun entry =>
        { entry with gate := some state.created }).touch now key
      created := state.created + 1 }

/-- `remembered_route` -/
def rememberedRoute (state : OriginCache) (key : Bytes) (now : Int) :
    ProtocolState × OriginCache :=
  match state.cache.get key with
  | none => (.unknown, state)
  | some entry => (entry.protocol, { state with cache := state.cache.touch now key })

/-- `remember_route`. A gate is created unless there is one. -/
def rememberRoute (state : OriginCache) (key : Bytes) (protocol : ProtocolState)
    (evictNow now : Int) : OriginCache :=
  if protocol ≠ .h1Only ∧ protocol ≠ .h2Available then state
  else
    let state := state.evictCachedOrigins options evictNow
    let gate := (state.cache.get key).bind CachedOrigin.gate
    { state with
      cache := ((state.cache.emplace key {}).modify key fun _ =>
        { gate := gate.getD state.created, protocol }).touch now key
      created := if gate.isNone then state.created + 1 else state.created }

end OriginCache

/-- The steps of the machine. A gate goes on on its own strand. -/
inductive OriginCacheAction where
  | getGate (key : Bytes) (evictNow now : Int)
  | rememberedRoute (key : Bytes) (now : Int)
  | rememberRoute (key : Bytes) (protocol : ProtocolState) (evictNow now : Int)
  | enter (gate : Nat) (now : Int)
  | setProtocol (gate : Nat) (protocol : ProtocolState)
  | markH2Failed (gate : Nat) (now : Int)

namespace OriginCache

/-- One step of the machine; `none` if the clock goes back. -/
def step (options : OriginCacheOptions) (state : OriginCache) :
    OriginCacheAction → Option OriginCache
  | .getGate key evictNow now =>
    if state.clock ≤ evictNow ∧ evictNow ≤ now then
      some { state.getGate options key evictNow now with clock := now }
    else none
  | .rememberedRoute key now =>
    if state.clock ≤ now then some { (state.rememberedRoute key now).2 with clock := now } else none
  | .rememberRoute key protocol evictNow now =>
    if state.clock ≤ evictNow ∧ evictNow ≤ now then
      some { state.rememberRoute options key protocol evictNow now with clock := now }
    else none
  | .enter gate now =>
    some { state with
      gates := Function.update state.gates gate ((state.gates gate).enter options.gate now).2 }
  | .setProtocol gate protocol =>
    some { state with
      gates := Function.update state.gates gate ((state.gates gate).setProtocol protocol) }
  | .markH2Failed gate now =>
    some { state with
      gates := Function.update state.gates gate ((state.gates gate).markH2Failed options.gate now) }

variable {options : OriginCacheOptions} {state state' : OriginCache} {key : Bytes}
  {evictNow now : Int}

/-! ### What the operations do to the cache -/

theorem cache_evictCachedOrigins (h : options.maxCachedOrigins ≠ 0) :
    (state.evictCachedOrigins options now).cache =
      (state.cache.evict (state.evictionRule options now)).1 := by
  rw [evictCachedOrigins, if_neg h]

theorem linked_evictCachedOrigins {clock : Int} (h : state.cache.Linked clock) :
    (state.evictCachedOrigins options now).cache.Linked clock := by
  rw [evictCachedOrigins]
  split_ifs with hmax
  · exact h
  · exact h.evict

/-- What a step does to the cache: it changes no entry, uses one, or evicts and then creates
or uses one. -/
theorem step_cache {action : OriginCacheAction} (h : state.step options action = some state') :
    state'.cache = state.cache ∧ state.clock ≤ state'.clock ∨
      (∃ key, state'.cache = state.cache.touch state'.clock key ∧ state.clock ≤ state'.clock) ∨
      ∃ key evictNow f, state.clock ≤ evictNow ∧ evictNow ≤ state'.clock ∧
        state'.cache = (((state.evictCachedOrigins options evictNow).cache.emplace key {}).modify
          key f).touch state'.clock key := by
  cases action with
  | getGate key evictNow now =>
    simp only [step] at h
    split_ifs at h with hclock
    obtain rfl := Option.some.inj h
    rw [getGate]
    split_ifs with hkey
    · exact .inr (.inl ⟨key, rfl, Int.le_trans hclock.1 hclock.2⟩)
    · exact .inr (.inr ⟨key, evictNow, _, hclock.1, hclock.2, rfl⟩)
  | rememberedRoute key now =>
    simp only [step] at h
    split_ifs at h with hclock
    obtain rfl := Option.some.inj h
    rw [rememberedRoute]
    cases state.cache.get key with
    | none => exact .inl ⟨rfl, hclock⟩
    | some entry => exact .inr (.inl ⟨key, rfl, hclock⟩)
  | rememberRoute key protocol evictNow now =>
    simp only [step] at h
    split_ifs at h with hclock
    obtain rfl := Option.some.inj h
    rw [rememberRoute]
    split_ifs with hprotocol
    · exact .inl ⟨rfl, Int.le_trans hclock.1 hclock.2⟩
    · exact .inr (.inr ⟨key, evictNow, _, hclock.1, hclock.2, rfl⟩)
  | enter gate now =>
    obtain rfl := Option.some.inj h
    exact .inl ⟨rfl, Int.le_refl _⟩
  | setProtocol gate protocol =>
    obtain rfl := Option.some.inj h
    exact .inl ⟨rfl, Int.le_refl _⟩
  | markH2Failed gate now =>
    obtain rfl := Option.some.inj h
    exact .inl ⟨rfl, Int.le_refl _⟩

/-- The list and the map agree after every step. -/
theorem linked_step {action : OriginCacheAction} (h : state.cache.Linked state.clock)
    (hstep : state.step options action = some state') : state'.cache.Linked state'.clock := by
  rcases step_cache hstep with ⟨hsame, hclock⟩ | ⟨key, htouch, hclock⟩ |
      ⟨key, evictNow, f, hevict, hnow, hnew⟩
  · rw [hsame]
    exact h.later hclock
  · rw [htouch]
    exact h.touch hclock
  · rw [hnew]
    exact (linked_evictCachedOrigins h).emplaced (Int.le_trans hevict hnow) _ f

end OriginCache

end HttpClient.Routing
