import HttpClient.H1.ShardOrigins
import HttpClient.H2.GroupEvictions
import HttpClient.Routing.OriginCache

/-!
# The three caches of origins

The client remembers origins in three places: with their gates, with the pools of a shard,
and with the session groups of HTTP/2. Each is a map with a list of recent use, and each
evicts before it creates an entry.

The caches of the gates and of the pools evict while they are over their limit. What is
created then comes on top, so they can end up with one entry more than their limit. The
session groups evict until there is room for one more.

## Main definitions

* `OriginCache.AllIdle`, `ShardOrigins.AllIdle`, `Client.AllIdle` — every entry is idle
* `OriginCache.HasRoom`, `ShardOrigins.HasRoom` — a new entry is within the limit

## Main results

* `caches_linked` — list and map agree in every run, and evictions are as they should be
* `caches_within_capacity` — the runs in which the caches respect their limits
-/

set_option autoImplicit false

namespace HttpClient

open Semantics Text

/-! ### List and map -/

namespace Semantics.LruCache

variable {κ ν : Type*} [DecidableEq κ]

/-- An eviction may do nothing. -/
theorem Evicts.none (rule : EvictionRule (κ × Entry ν)) (cache : LruCache κ ν) :
    Evicts rule cache cache [] where
  first := List.nil_sublist _
  entries x h := nomatch h
  allowed before x after h := by simp at h
  fair := List.pairwise_of_forall fun _ _ h => nomatch h
  order := by simp
  left key := by simp

end Semantics.LruCache

namespace Routing.OriginCache

variable {options : OriginCacheOptions} {state : OriginCache} {now : Int}

theorem evicts (h : state.cache.Linked state.clock) :
    ∃ removed, LruCache.Evicts (state.evictionRule options now) state.cache
      (state.evictCachedOrigins options now).cache removed := by
  rw [evictCachedOrigins]
  split_ifs with hmax
  · exact ⟨[], .none _ _⟩
  · exact ⟨_, h.evicts LruCache.agingRule_expired⟩

end Routing.OriginCache

namespace H1.ShardOrigins

variable {options : ShardOriginsOptions} {shard : ShardOrigins} {periodic : Bool} {now : Int}

theorem evicts (h : shard.cache.Linked shard.clock) :
    ∃ removed, LruCache.Evicts (shard.evictionRule options periodic now) shard.cache
      (shard.evictIdleOrigins options periodic now).cache removed := by
  rw [evictIdleOrigins]
  split_ifs with hmax
  · exact ⟨[], .none _ _⟩
  · exact ⟨_, h.evicts LruCache.agingRule_expired⟩

end H1.ShardOrigins

namespace H2.Client

variable {options : GroupOptions} {client : Client} {now : Int}

theorem evicts (h : client.cache.Linked client.clock) :
    ∃ removed, LruCache.Evicts (client.evictionRule options now) client.cache
      (client.evictSessionGroups options now).cache removed := by
  rw [evictSessionGroups]
  split_ifs with hmax
  · exact ⟨[], .none _ _⟩
  · exact ⟨_, h.evicts LruCache.agingRule_expired⟩

end H2.Client

/-- In every run the list of each cache has exactly the keys of its map, each once and the
most recently used first, with every iterator at its own key; and an eviction, whenever it is
made, removes only entries that are idle, and expired or found over the limit, least recently
used first, and leaves the others as they are. -/
theorem caches_linked (hash : Bytes → UInt64) (clock : Int) :
    (∀ options actions state,
      exec (Routing.OriginCache.step options) { clock } actions = some state →
        state.cache.Linked state.clock ∧ ∀ now, ∃ removed,
          LruCache.Evicts (state.evictionRule options now) state.cache
            (state.evictCachedOrigins options now).cache removed) ∧
    (∀ options actions shard,
      exec (H1.ShardOrigins.step options) { clock } actions = some shard →
        shard.cache.Linked shard.clock ∧ ∀ periodic now, ∃ removed,
          LruCache.Evicts (shard.evictionRule options periodic now) shard.cache
            (shard.evictIdleOrigins options periodic now).cache removed) ∧
    (∀ options actions client,
      exec (H2.Client.step hash options) { clock } actions = some client →
        client.cache.Linked client.clock ∧ ∀ now, ∃ removed,
          LruCache.Evicts (client.evictionRule options now) client.cache
            (client.evictSessionGroups options now).cache removed) := by
  refine ⟨fun options actions state hrun => ?_, fun options actions shard hrun => ?_,
    fun options actions client hrun => ?_⟩
  · have hlinked : state.cache.Linked state.clock :=
      invariant_of_reaches (fun _ _ _ h hstep => Routing.OriginCache.linked_step h hstep)
        (LruCache.linked_empty clock) ⟨actions, hrun⟩
    exact ⟨hlinked, fun now => Routing.OriginCache.evicts hlinked⟩
  · have hlinked : shard.cache.Linked shard.clock :=
      invariant_of_reaches (fun _ _ _ h hstep => H1.ShardOrigins.linked_step h hstep)
        (LruCache.linked_empty clock) ⟨actions, hrun⟩
    exact ⟨hlinked, fun periodic now => H1.ShardOrigins.evicts hlinked⟩
  · have hsound : client.Sound :=
      invariant_of_reaches (fun _ _ _ h hstep => H2.Client.Sound.step h hstep)
        (H2.Client.sound_init clock) ⟨actions, hrun⟩
    exact ⟨hsound.shelved.linked, fun now => H2.Client.evicts hsound.shelved.linked⟩

/-- Gates for two origins are asked for, and then for a third. -/
def threeGates : List Routing.OriginCacheAction :=
  [.getGate (str "http://a:80") 0 0, .getGate (str "http://b:80") 1 1,
    .getGate (str "http://c:80") 2 3]

def plainUrl (host : String) : ParsedUrl :=
  { scheme := str "http", host := str host, port := str "80", target := str "/" }

/-- Pools for two origins are asked for, and then for a third. -/
def threePools : List H1.ShardOriginsAction :=
  [.getOriginPool (plainUrl "a") 0 0, .getOriginPool (plainUrl "b") 1 1,
    .getOriginPool (plainUrl "c") 2 3]

theorem caches_linked_three :
    (∃ state, exec (Routing.OriginCache.step { maxCachedOrigins := 1 }) { clock := 0 }
        threeGates = some state ∧ state.cache.Linked state.clock) ∧
    (∃ shard, exec (H1.ShardOrigins.step { maxOriginsPerShard := 1 }) { clock := 0 }
        threePools = some shard ∧ shard.cache.Linked shard.clock) ∧
    (∃ client, exec (H2.Client.step (fun _ => 0) H2.oneGroup) { clock := 0 }
        H2.oneByOne = some client ∧ client.cache.Linked client.clock) := by
  have hlinked := caches_linked (fun _ => 0) 0
  refine ⟨?_, ?_, ?_⟩
  · obtain ⟨state, hrun⟩ := Option.isSome_iff_exists.mp (by decide +kernel :
      (exec (Routing.OriginCache.step { maxCachedOrigins := 1 }) { clock := 0 } threeGates).isSome)
    exact ⟨state, hrun, (hlinked.1 _ _ state hrun).1⟩
  · obtain ⟨shard, hrun⟩ := Option.isSome_iff_exists.mp (by decide +kernel :
      (exec (H1.ShardOrigins.step { maxOriginsPerShard := 1 }) { clock := 0 } threePools).isSome)
    exact ⟨shard, hrun, (hlinked.2.1 _ _ shard hrun).1⟩
  · obtain ⟨client, hrun⟩ := Option.isSome_iff_exists.mp (by decide +kernel :
      (exec (H2.Client.step (fun _ => 0) H2.oneGroup) { clock := 0 } H2.oneByOne).isSome)
    exact ⟨client, hrun, (hlinked.2.2 _ _ client hrun).1⟩

/-! ### Capacity -/

namespace Routing.OriginCache

variable {options : OriginCacheOptions} {state state' : OriginCache}

/-- When a gate is asked for or a route remembered, no origin is being detected. -/
def AllIdle (state : OriginCache) : OriginCacheAction → Prop
  | .getGate .. | .rememberRoute .. =>
    ∀ x ∈ LruCache.items state.cache.map state.cache.order,
      state.cachedOriginIdle x.2.value = true
  | _ => True

instance (state : OriginCache) : ∀ action, Decidable (state.AllIdle action)
  | .getGate .. | .rememberRoute .. => inferInstanceAs (Decidable (∀ x ∈ _, _))
  | .rememberedRoute .. | .enter .. | .setProtocol .. | .markH2Failed .. => isTrue trivial

/-- A call for an origin that is not cached finds fewer than `max` that have not expired. -/
def HasRoom (options : OriginCacheOptions) (state : OriginCache) : OriginCacheAction → Prop
  | .getGate key evictNow _ => key ∉ state.cache.map →
      state.cache.unexpired (state.evictionRule options evictNow) < options.maxCachedOrigins
  | .rememberRoute key protocol evictNow _ => protocol = .h1Only ∨ protocol = .h2Available →
      key ∉ state.cache.map →
        state.cache.unexpired (state.evictionRule options evictNow) < options.maxCachedOrigins
  | _ => True

/-- A call for an origin stays within the limit if and only if there is room for a new one. -/
theorem size_emplaced_le_iff (h : state.cache.Linked state.clock)
    (hmax : 0 < options.maxCachedOrigins)
    (hsize : state.cache.size ≤ options.maxCachedOrigins)
    (hidle : ∀ x ∈ LruCache.items state.cache.map state.cache.order,
      state.cachedOriginIdle x.2.value = true)
    (key : Bytes) (evictNow now : Int) (f : CachedOrigin → CachedOrigin) :
    ((((state.evictCachedOrigins options evictNow).cache.emplace key {}).modify key f).touch
        now key).size ≤ options.maxCachedOrigins ↔
      (key ∉ state.cache.map →
        state.cache.unexpired (state.evictionRule options evictNow) <
          options.maxCachedOrigins) := by
  have hwithin : (state.evictionRule options evictNow).exceeds state.cache.size = false :=
    decide_eq_false (Nat.not_lt.mpr hsize)
  have hleft : (state.cache.evict (state.evictionRule options evictNow)).1.size =
      state.cache.unexpired (state.evictionRule options evictNow) :=
    h.size_evict_of_within LruCache.agingRule_expired hidle hwithin
  rw [LruCache.size_emplaced, cache_evictCachedOrigins (Nat.pos_iff_ne_zero.mp hmax)]
  by_cases hkey : key ∈ state.cache.map
  · -- A cached origin stays, or makes room for itself.
    refine iff_of_true ?_ fun habsent => absurd hkey habsent
    split_ifs with hstays
    · exact h.size_evict_le.trans hsize
    · exact (h.size_evict_lt hkey hstays).trans_le hsize
  · have hgone : key ∉ (state.cache.evict (state.evictionRule options evictNow)).1.map := by
      rw [← LruCache.get_eq_none, h.get_evict, LruCache.get_eq_none.mpr hkey, ite_self]
    rw [if_neg hgone, hleft, forall_prop_of_true hkey, Nat.succ_le_iff]

/-- The origins stay within the limit in a step if and only if there is room for a new one. -/
theorem hasRoom_iff {action : OriginCacheAction} (h : state.cache.Linked state.clock)
    (hmax : 0 < options.maxCachedOrigins) (hsize : state.cache.size ≤ options.maxCachedOrigins)
    (hidle : state.AllIdle action) (hstep : state.step options action = some state') :
    state.HasRoom options action ↔ state'.cache.size ≤ options.maxCachedOrigins := by
  cases action with
  | getGate key evictNow now =>
    simp only [step] at hstep
    split_ifs at hstep with hclock
    obtain rfl := Option.some.inj hstep
    simp only [getGate]
    by_cases hkey : key ∈ state.cache.map
    · rw [if_pos hkey, LruCache.size_touch]
      exact iff_of_true (fun habsent => absurd hkey habsent) hsize
    · rw [if_neg hkey]
      exact (size_emplaced_le_iff h hmax hsize hidle key evictNow now _).symm
  | rememberedRoute key now =>
    simp only [step] at hstep
    split_ifs at hstep with hclock
    obtain rfl := Option.some.inj hstep
    refine iff_of_true trivial ?_
    rw [rememberedRoute]
    cases state.cache.get key with
    | none => exact hsize
    | some entry => exact (LruCache.size_touch now key state.cache).trans_le hsize
  | rememberRoute key protocol evictNow now =>
    simp only [step] at hstep
    split_ifs at hstep with hclock
    obtain rfl := Option.some.inj hstep
    simp only [rememberRoute]
    by_cases hprotocol : protocol ≠ .h1Only ∧ protocol ≠ .h2Available
    · rw [if_pos hprotocol]
      refine iff_of_true (fun hroute => ?_) hsize
      exact absurd hroute (by simpa only [not_or] using hprotocol)
    · rw [if_neg hprotocol]
      have hroute : protocol = .h1Only ∨ protocol = .h2Available := by
        rwa [← not_or, not_not] at hprotocol
      refine Iff.trans ?_ (size_emplaced_le_iff h hmax hsize hidle key evictNow now _).symm
      exact forall_prop_of_true hroute
  | enter gate now =>
    obtain rfl := Option.some.inj hstep
    exact iff_of_true trivial hsize
  | setProtocol gate protocol =>
    obtain rfl := Option.some.inj hstep
    exact iff_of_true trivial hsize
  | markH2Failed gate now =>
    obtain rfl := Option.some.inj hstep
    exact iff_of_true trivial hsize

end Routing.OriginCache

namespace H1.ShardOrigins

variable {options : ShardOriginsOptions} {shard shard' : ShardOrigins}

/-- When a pool is asked for, no pool is in use. -/
def AllIdle (shard : ShardOrigins) : ShardOriginsAction → Prop
  | .getOriginPool .. => ∀ x ∈ LruCache.items shard.cache.map shard.cache.order,
      (shard.pools x.2.value).poolIdle = true
  | _ => True

instance (shard : ShardOrigins) : ∀ action, Decidable (shard.AllIdle action)
  | .getOriginPool .. => inferInstanceAs (Decidable (∀ x ∈ _, _))
  | .maintenance _ | .pool .. => isTrue trivial

/-- A call for an origin without a pool finds fewer than `max` pools that have not expired. -/
def HasRoom (options : ShardOriginsOptions) (shard : ShardOrigins) : ShardOriginsAction → Prop
  | .getOriginPool url evictNow _ => poolKey url ∉ shard.cache.map →
      shard.cache.unexpired (shard.evictionRule options false evictNow) <
        options.maxOriginsPerShard
  | _ => True

/-- The pools stay within the limit in a step if and only if there is room for a new one. -/
theorem hasRoom_iff {action : ShardOriginsAction} (h : shard.cache.Linked shard.clock)
    (hmax : 0 < options.maxOriginsPerShard) (hsize : shard.cache.size ≤ options.maxOriginsPerShard)
    (hidle : shard.AllIdle action) (hstep : shard.step options action = some shard') :
    shard.HasRoom options action ↔ shard'.cache.size ≤ options.maxOriginsPerShard := by
  have hne := Nat.pos_iff_ne_zero.mp hmax
  cases action with
  | getOriginPool url evictNow now =>
    simp only [step] at hstep
    split_ifs at hstep with hclock
    obtain rfl := Option.some.inj hstep
    rw [getOriginPool]
    cases hkey : shard.cache.get (poolKey url) with
    | some pool =>
      have hin : poolKey url ∈ shard.cache.map := by
        by_contra habsent
        rw [LruCache.get_eq_none.mpr habsent] at hkey
        cases hkey
      refine iff_of_true (fun habsent => absurd hin habsent) ?_
      exact (LruCache.size_touch now _ shard.cache).trans_le hsize
    | none =>
      have hwithin : (shard.evictionRule options false evictNow).exceeds shard.cache.size = false :=
        decide_eq_false (Nat.not_lt.mpr hsize)
      have hleft : (shard.cache.evict (shard.evictionRule options false evictNow)).1.size =
          shard.cache.unexpired (shard.evictionRule options false evictNow) :=
        h.size_evict_of_within LruCache.agingRule_expired hidle hwithin
      have habsent : poolKey url ∉ (shard.evictIdleOrigins options false evictNow).cache.map :=
        LruCache.get_eq_none.mp (get_evictIdleOrigins h hkey)
      simp only [HasRoom, LruCache.size_pushFront habsent]
      rw [cache_evictIdleOrigins hne, hleft,
        forall_prop_of_true (LruCache.get_eq_none.mp hkey), Nat.succ_le_iff]
  | maintenance now =>
    simp only [step] at hstep
    split_ifs at hstep with hclock
    obtain rfl := Option.some.inj hstep
    refine iff_of_true trivial ?_
    simp only [cache_evictIdleOrigins hne]
    exact h.size_evict_le.trans hsize
  | pool pool action =>
    rw [(step_pool hstep).1]
    exact iff_of_true trivial hsize

end H1.ShardOrigins

namespace H2.Client

variable {hash : Bytes → UInt64} {options : GroupOptions} {client client' : Client}

/-- When a group is looked up in the map, no session is busy. -/
def AllIdle (client : Client) : GroupAction → Prop
  | .lookUp .. => ∀ x ∈ LruCache.items client.cache.map client.cache.order,
      (client.groups x.2.value).idle = true
  | _ => True

instance (client : Client) : ∀ action, Decidable (client.AllIdle action)
  | .lookUp .. => inferInstanceAs (Decidable (∀ x ∈ _, _))
  | .call .. | .probe .. | .count _ | .post .. | .arrive .. | .answer _ | .leave _
  | .foreign _ | .maintenance _ | .session .. => isTrue trivial

/-- Evicting until there is room for one more keeps the groups within the limit. -/
theorem size_step_le {action : GroupAction} (h : client.Sound)
    (hmax : 0 < options.maxSessionGroups) (hsize : client.cache.size ≤ options.maxSessionGroups)
    (hidle : client.AllIdle action) (hstep : client.step hash options action = some client') :
    client'.cache.size ≤ options.maxSessionGroups := by
  have hne := Nat.pos_iff_ne_zero.mp hmax
  cases action with
  | lookUp i evictNow now =>
    obtain ⟨call, rest, -, hperm, hphase, -, -, rfl⟩ := step_lookUp hstep
    have hleft := h.leave hperm (by rw [hphase]; rfl)
    rw [groupOnMap]
    cases hentry : client.cache.map.lookup call.key with
    | some entry => exact (LruCache.size_refresh now call.key client.cache).trans_le hsize
    | none =>
      have hkey : client.cache.get call.key = none := by rw [LruCache.get, hentry, Option.map_none]
      have habsent := LruCache.get_eq_none.mp (get_evictSessionGroups hleft hkey options evictNow)
      have hwithin : (client.evictionRule options evictNow).exceeds
          (client.cache.evict (client.evictionRule options evictNow)).1.size = false :=
        h.shelved.linked.within_evict (decide_eq_false (Nat.not_le.mpr hmax)) hidle
      have hroom := Nat.lt_of_not_le (of_decide_eq_false hwithin)
      refine (LruCache.size_pushFront habsent now _).trans_le ?_
      rw [evictSessionGroups, if_neg hne]
      exact hroom
  | call mode thread request =>
    rcases step_call hstep with rfl | ⟨key, threads, phase, -, -, rfl⟩ <;> exact hsize
  | probe i available now =>
    obtain ⟨call, rest, slot, group, -, -, -, hcases⟩ := step_probe hstep
    rcases hcases with ⟨-, -, -, rfl⟩ | ⟨-, threads, -, rfl⟩ | ⟨-, rfl⟩
    · exact (LruCache.size_refresh now call.key client.cache).trans_le hsize
    · exact hsize
    · exact hsize
  | maintenance now =>
    obtain ⟨-, rfl⟩ := step_maintenance hstep
    rw [evictSessionGroups, if_neg hne]
    exact h.shelved.linked.size_evict_le.trans hsize
  | count i =>
    obtain ⟨call, rest, group, -, -, -, rfl⟩ := step_count hstep
    exact hsize
  | post i impl =>
    obtain ⟨call, rest, group, -, -, -, rfl⟩ := step_post hstep
    exact hsize
  | arrive i submission =>
    obtain ⟨call, rest, group, impl, impls, -, -, rfl⟩ := step_arrive hstep
    exact hsize
  | answer i =>
    obtain ⟨call, rest, group, -, -, rfl⟩ := step_answer hstep
    exact hsize
  | leave i =>
    obtain ⟨call, rest, -, -, rfl⟩ := step_leave hstep
    exact hsize
  | foreign thread =>
    obtain ⟨threads, -, rfl⟩ := step_foreign hstep
    exact hsize
  | session group impl action =>
    obtain ⟨impls, rfl⟩ := step_session hstep
    exact hsize

end H2.Client

/-- While no entry is busy when a call evicts: the caches of gates and pools stay within their
limits in those runs in which every call for a new origin finds room, and the session groups
in all runs. -/
theorem caches_within_capacity (hash : Bytes → UInt64) (clock : Int) :
    (∀ options : Routing.OriginCacheOptions, 0 < options.maxCachedOrigins →
      ∀ actions state, exec (Routing.OriginCache.step options) { clock } actions = some state →
        Along (Routing.OriginCache.step options) Routing.OriginCache.AllIdle { clock } actions →
          (Along (Routing.OriginCache.step options) (Routing.OriginCache.HasRoom options)
              { clock } actions ↔
            ∀ before after state', actions = before ++ after →
              exec (Routing.OriginCache.step options) { clock } before = some state' →
                state'.cache.size ≤ options.maxCachedOrigins)) ∧
    (∀ options : H1.ShardOriginsOptions, 0 < options.maxOriginsPerShard →
      ∀ actions shard, exec (H1.ShardOrigins.step options) { clock } actions = some shard →
        Along (H1.ShardOrigins.step options) H1.ShardOrigins.AllIdle { clock } actions →
          (Along (H1.ShardOrigins.step options) (H1.ShardOrigins.HasRoom options)
              { clock } actions ↔
            ∀ before after shard', actions = before ++ after →
              exec (H1.ShardOrigins.step options) { clock } before = some shard' →
                shard'.cache.size ≤ options.maxOriginsPerShard)) ∧
    (∀ options : H2.GroupOptions, 0 < options.maxSessionGroups →
      ∀ actions client, exec (H2.Client.step hash options) { clock } actions = some client →
        Along (H2.Client.step hash options) H2.Client.AllIdle { clock } actions →
          client.cache.size ≤ options.maxSessionGroups) := by
  refine ⟨fun options hmax actions state hrun hidle => ?_,
    fun options hmax actions shard hrun hidle => ?_,
    fun options hmax actions client hrun hidle => ?_⟩
  · refine along_iff_throughout_of_guarded
      (fun _ _ _ h hstep => Routing.OriginCache.linked_step h hstep) ?_
      (LruCache.linked_empty clock) (Nat.zero_le _) hidle hrun
    intro s a t hlinked hsize hcalm hstep
    exact Routing.OriginCache.hasRoom_iff hlinked hmax hsize hcalm hstep
  · refine along_iff_throughout_of_guarded
      (fun _ _ _ h hstep => H1.ShardOrigins.linked_step h hstep) ?_
      (LruCache.linked_empty clock) (Nat.zero_le _) hidle hrun
    intro s a t hlinked hsize hcalm hstep
    exact H1.ShardOrigins.hasRoom_iff hlinked hmax hsize hcalm hstep
  · have hinv : ∀ (s : H2.Client) a t, s.Sound ∧ s.cache.size ≤ options.maxSessionGroups →
        s.AllIdle a → s.step hash options a = some t →
          t.Sound ∧ t.cache.size ≤ options.maxSessionGroups := fun s a t h hcalm hstep =>
      ⟨h.1.step hstep, H2.Client.size_step_le h.1 hmax h.2 hcalm hstep⟩
    exact (invariant_of_along hinv ⟨H2.Client.sound_init clock, Nat.zero_le _⟩ hidle hrun).2

theorem caches_within_capacity_three :
    (Along (Routing.OriginCache.step { maxCachedOrigins := 2 })
        (Routing.OriginCache.HasRoom { maxCachedOrigins := 2 }) { clock := 0 } threeGates ↔
      ∀ before after state', threeGates = before ++ after →
        exec (Routing.OriginCache.step { maxCachedOrigins := 2 }) { clock := 0 } before =
          some state' → state'.cache.size ≤ 2) ∧
    ∃ client, exec (H2.Client.step (fun _ => 0) H2.oneGroup) { clock := 0 }
      H2.oneByOne = some client ∧ client.cache.size ≤ 1 := by
  have hcapacity := caches_within_capacity (fun _ => 0) 0
  constructor
  · obtain ⟨state, hrun⟩ := Option.isSome_iff_exists.mp (by decide +kernel :
      (exec (Routing.OriginCache.step { maxCachedOrigins := 2 }) { clock := 0 } threeGates).isSome)
    exact hcapacity.1 _ (by decide) _ state hrun (by decide +kernel)
  · obtain ⟨client, hrun⟩ := Option.isSome_iff_exists.mp (by decide +kernel :
      (exec (H2.Client.step (fun _ => 0) H2.oneGroup) { clock := 0 } H2.oneByOne).isSome)
    exact ⟨client, hrun, hcapacity.2.2 _ (by decide) _ client hrun (by decide +kernel)⟩

/-- With a limit of one, two origins that are asked for one after the other are both cached. -/
theorem over_capacity :
    ((exec (Routing.OriginCache.step { maxCachedOrigins := 1 }) { clock := 0 }
          (threeGates.take 2)).map fun state => state.cache.size) = some 2 ∧
      Along (Routing.OriginCache.step { maxCachedOrigins := 1 }) Routing.OriginCache.AllIdle
        { clock := 0 } threeGates ∧
    ((exec (H1.ShardOrigins.step { maxOriginsPerShard := 1 }) { clock := 0 }
          (threePools.take 2)).map fun shard => shard.cache.size) = some 2 ∧
      Along (H1.ShardOrigins.step { maxOriginsPerShard := 1 }) H1.ShardOrigins.AllIdle
        { clock := 0 } threePools := by
  refine ⟨?_, ?_, ?_, ?_⟩ <;> decide +kernel

end HttpClient
