import HttpClient.H2.SessionGroups

/-!
# Evictions of session groups

An eviction removes a group whose sessions are all idle. It does not look at the number of
requests in flight, and a session cannot know of a request that has not arrived on its
strand. So a group can be evicted between the lookup of a request and its arrival, and the
request is then posted to a session that is being shut down. A thread that finds the lock of
the map taken can get hold of a group that has been evicted as well.

Both are all that can go wrong: if no eviction comes to a group of a request in flight while
its sessions are idle, and no thread goes without the lock for a group that the map has no
more, requests are posted to groups in the map only, and no group with requests in flight is
evicted.

## Main definitions

* `GroupCall.inFlight` — the group that a request has been given and still needs
* `Client.Harmless` — a step neither evicts a group in flight nor posts to an evicted one
* `Client.Due` — whether an eviction removes a group
* `Client.Timely` — the condition on the steps
* `Client.Sound`, `Client.Kept` — the invariants

## Main results

* `Client.Sound.step` — the cache, the calls and the threads agree in every run
* `in_flight_kept` — runs of timely steps are harmless
-/

set_option autoImplicit false

namespace HttpClient.H2

open Semantics Text

/-- The group that a request has been given, until it is answered. A preconnect is no
request. -/
def GroupCall.inFlight (call : GroupCall) : Option Nat :=
  match call.phase with
  | .found group => if call.mode = .preconnect then none else some group
  | phase => phase.counts

namespace Client

/-- The group whose session a step posts a request to. -/
def postsTo (client : Client) : GroupAction → Option Nat
  | .post i _ => client.calls[i]?.bind fun call =>
    match call.phase with
    | .counted group => some group
    | _ => none
  | _ => none

/-- A step posts no request to a session of an evicted group, and evicts no group that counts
requests in flight. -/
def Harmless (hash : Bytes → UInt64) (options : GroupOptions) (client : Client)
    (action : GroupAction) : Prop :=
  (∀ group ∈ client.postsTo action, group ∉ client.evicted) ∧
    ∀ client' ∈ client.step hash options action, ∀ group ∈ client'.evicted,
      group ∉ client.evicted → (client.groups group).inflight = 0

instance (hash : Bytes → UInt64) (options : GroupOptions) (client : Client)
    (action : GroupAction) : Decidable (client.Harmless hash options action) :=
  inferInstanceAs (Decidable (_ ∧ _))

/-- An eviction at this time comes to the group while its sessions are idle, and it has
expired or there are too many groups even without the idle ones that come before it. -/
def Due (options : GroupOptions) (client : Client) (now : Int) (group : Nat) : Prop :=
  options.maxSessionGroups ≠ 0 ∧ ∃ newer node older entry,
    client.cache.order = newer ++ node :: older ∧
      client.cache.map.lookup node.key = some entry ∧ entry.value = group ∧
        (client.evictionRule options now).Due client.cache.size
          (LruCache.items client.cache.map older.reverse) (node.key, entry)

/-- No request in flight is on a group that an eviction at this time comes to. -/
def Spares (options : GroupOptions) (client : Client) (now : Int) : Prop :=
  ∀ call ∈ client.calls, ∀ group ∈ call.inFlight, ¬ client.Due options now group

/-- When the groups are evicted, none of them is due that a request in flight is on; and a
request whose thread does not get the lock finds the group that the map has. -/
def Timely (options : GroupOptions) (client : Client) : GroupAction → Prop
  | .probe i false _ => ∀ call ∈ client.calls[i]?, ∀ slot group,
      call.phase = .probing slot group → call.mode ≠ .preconnect →
        client.cache.get call.key = some group
  | .lookUp i evictNow _ => ∀ call ∈ client.calls[i]?, client.cache.get call.key = none →
      client.Spares options evictNow
  | .maintenance now => client.Spares options now
  | _ => True

/-- No request in flight is on an evicted group. -/
def Kept (client : Client) : Prop :=
  ∀ call ∈ client.calls, ∀ group ∈ call.inFlight, group ∉ client.evicted

end Client

/-! ### What the calls and the threads know of the groups -/

/-- The group is the one that the map has for the key, or it has been evicted. -/
def Known (cache : LruCache Bytes Nat) (evicted : List Nat) (key : Bytes) (group : Nat) : Prop :=
  cache.get key = some group ∨ group ∈ evicted

/-- What the map holds: groups that have been created and not evicted, each for one key. -/
structure Shelved (clock : Int) (created : Nat) (evicted : List Nat)
    (cache : LruCache Bytes Nat) : Prop where
  linked : cache.Linked clock
  old : ∀ key group, cache.get key = some group → group < created
  kept : ∀ key group, cache.get key = some group → group ∉ evicted
  injective : ∀ key key' group, cache.get key = some group → cache.get key' = some group →
    key = key'
  gone : ∀ group ∈ evicted, group < created

/-- The number of requests in flight of every group is the number of calls that count. -/
def Tallied (groups : Nat → SessionGroup) (calls : List GroupCall) : Prop :=
  ∀ group, (groups group).inflight = calls.countP fun call => call.phase.counts == some group

structure Client.Sound (client : Client) : Prop where
  shelved : Shelved client.clock client.created client.evicted client.cache
  calls : ∀ call ∈ client.calls, ∀ group ∈ call.phase.group,
    Known client.cache client.evicted call.key group
  threads : ∀ thread entry, some entry ∈ (client.threads thread).entries →
    Known client.cache client.evicted entry.key entry.group
  counted : Tallied client.groups client.calls

variable {hash : Bytes → UInt64} {options : GroupOptions} {client client' : Client}
  {clock now : Int} {created : Nat} {evicted : List Nat} {cache : LruCache Bytes Nat}
  {groups groups' : Nat → SessionGroup} {calls rest : List GroupCall} {call call' : GroupCall}
  {key : Bytes} {group : Nat}

namespace Shelved

theorem lt_of_known (h : Shelved clock created evicted cache)
    (hknown : Known cache evicted key group) : group < created := by
  rcases hknown with hmap | hevicted
  · exact h.old key group hmap
  · exact h.gone group hevicted

/-- A known group has been evicted unless the map has it. -/
theorem not_evicted_iff (h : Shelved clock created evicted cache)
    (hknown : Known cache evicted key group) :
    group ∉ evicted ↔ cache.get key = some group :=
  ⟨hknown.resolve_right, h.kept key group⟩

theorem refresh (h : Shelved clock created evicted cache) (hnow : clock ≤ now) :
    Shelved now created evicted (cache.refresh now key) where
  linked := h.linked.refresh hnow
  old other group := by rw [LruCache.get_refresh]; exact h.old other group
  kept other group := by rw [LruCache.get_refresh]; exact h.kept other group
  injective other other' group := by
    rw [LruCache.get_refresh, LruCache.get_refresh]
    exact h.injective other other' group
  gone := h.gone

theorem later (h : Shelved clock created evicted cache) (hnow : clock ≤ now) :
    Shelved now created evicted cache :=
  { h with linked := h.linked.later hnow }

theorem pushFront (h : Shelved clock created evicted cache) (hnow : clock ≤ now)
    (hkey : cache.get key = none) :
    Shelved now (created + 1) evicted (cache.pushFront now key created) := by
  -- The new group is not in the map yet, so no other key has it.
  have hold : ∀ other group, (cache.pushFront now key created).get other = some group →
      (other = key ∧ group = created) ∨ (cache.get other = some group ∧ group < created) := by
    intro other group hget
    by_cases hother : other = key
    · subst hother
      rw [LruCache.get_pushFront_self] at hget
      exact .inl ⟨rfl, (Option.some.inj hget).symm⟩
    · rw [LruCache.get_pushFront_of_ne hother] at hget
      exact .inr ⟨hget, h.old other group hget⟩
  refine ⟨h.linked.pushFront hnow (LruCache.get_eq_none.mp hkey), ?_, ?_, ?_, ?_⟩
  · intro other group hget
    rcases hold other group hget with ⟨-, rfl⟩ | ⟨-, hlt⟩
    · exact Nat.lt_succ_self _
    · exact Nat.lt_succ_of_lt hlt
  · intro other group hget hevicted
    rcases hold other group hget with ⟨-, rfl⟩ | ⟨hget', -⟩
    · exact Nat.lt_irrefl _ (h.gone _ hevicted)
    · exact h.kept other group hget' hevicted
  · intro other other' group hget hget'
    rcases hold other group hget with ⟨rfl, rfl⟩ | ⟨hmap, hlt⟩ <;>
      rcases hold other' _ hget' with ⟨rfl, heq⟩ | ⟨hmap', hlt'⟩
    · rfl
    · exact absurd hlt' (Nat.lt_irrefl _)
    · exact absurd hlt (heq ▸ Nat.lt_irrefl _)
    · exact h.injective other other' group hmap hmap'
  · exact fun group hgroup => Nat.lt_succ_of_lt (h.gone group hgroup)

/-- An eviction moves groups from the map to the evicted ones. -/
theorem evict (h : Shelved clock created evicted cache)
    {rule : EvictionRule (Bytes × Entry Nat)} :
    Shelved clock created
      (evicted ++ (cache.evict rule).2.map fun x => x.2.value) (cache.evict rule).1 := by
  have hget : ∀ key group, (cache.evict rule).1.get key = some group →
      key ∉ (cache.evict rule).2.map Prod.fst ∧ cache.get key = some group := by
    intro key group hget
    rw [h.linked.get_evict] at hget
    split_ifs at hget with hremoved
    exact ⟨hremoved, hget⟩
  have hremoved : ∀ x ∈ (cache.evict rule).2, cache.get x.1 = some x.2.value := fun x hx =>
    LruCache.get_of_lookup (h.linked.get_of_mem_removed hx)
  refine ⟨h.linked.evict, fun key group hmap => h.old key group (hget key group hmap).2, ?_,
    fun key key' group hmap hmap' =>
      h.injective key key' group (hget key group hmap).2 (hget key' group hmap').2, ?_⟩
  · intro key group hmap hevicted
    obtain ⟨hkey, hold⟩ := hget key group hmap
    rcases List.mem_append.mp hevicted with hbefore | hnow
    · exact h.kept key group hold hbefore
    · obtain ⟨x, hx, rfl⟩ := List.mem_map.mp hnow
      have hsame := h.injective key x.1 x.2.value hold (hremoved x hx)
      exact hkey (List.mem_map.mpr ⟨x, hx, hsame.symm⟩)
  · intro group hgroup
    rcases List.mem_append.mp hgroup with hbefore | hnow
    · exact h.gone group hbefore
    · obtain ⟨x, hx, rfl⟩ := List.mem_map.mp hnow
      exact h.old x.1 x.2.value (hremoved x hx)

end Shelved

namespace Known

theorem refresh (h : Known cache evicted key group) (now : Int) (other : Bytes) :
    Known (cache.refresh now other) evicted key group := by
  rwa [Known, LruCache.get_refresh]

/-- A new group is for a key for which the map had none. -/
theorem pushFront (h : Known cache evicted key group) (now : Int) {other : Bytes} {new : Nat}
    (hother : cache.get other = none) :
    Known (cache.pushFront now other new) evicted key group := by
  rcases h with hmap | hevicted
  · have hne : key ≠ other := by
      rintro rfl
      rw [hother] at hmap
      cases hmap
    exact .inl (by rw [LruCache.get_pushFront_of_ne hne, hmap])
  · exact .inr hevicted

theorem evict (h : Known cache evicted key group) (hlinked : cache.Linked clock)
    {rule : EvictionRule (Bytes × Entry Nat)} :
    Known (cache.evict rule).1 (evicted ++ (cache.evict rule).2.map fun x => x.2.value)
      key group := by
  rcases h with hmap | hevicted
  · by_cases hremoved : key ∈ (cache.evict rule).2.map Prod.fst
    · obtain ⟨x, hx, rfl⟩ := List.mem_map.mp hremoved
      rw [LruCache.get_of_lookup (hlinked.get_of_mem_removed hx)] at hmap
      obtain rfl := Option.some.inj hmap
      exact .inr (List.mem_append_right _ (List.mem_map.mpr ⟨x, hx, rfl⟩))
    · exact .inl (by rw [hlinked.get_evict, if_neg hremoved, hmap])
  · exact .inr (List.mem_append_left _ hevicted)

end Known

namespace Tallied

theorem perm (h : Tallied groups calls) {calls' : List GroupCall} (hperm : calls.Perm calls') :
    Tallied groups calls' := fun group => (h group).trans (hperm.countP_eq _)

/-- A call that does not count comes in. -/
theorem enter (h : Tallied groups calls) (hcall : call.phase.counts = none) :
    Tallied groups (calls ++ [call]) := by
  intro group
  rw [List.countP_append, h group]
  simp [hcall]

theorem leave (h : Tallied groups (call :: rest)) (hcall : call.phase.counts = none) :
    Tallied groups rest := by
  intro group
  rw [h group, List.countP_cons_of_neg (by simp [hcall])]

/-- A call goes on, and the numbers change with what it counts. -/
theorem goOn (h : Tallied groups (call :: rest))
    (hgroups : ∀ group, (groups' group).inflight +
        (if call.phase.counts == some group then 1 else 0) =
      (groups group).inflight + if call'.phase.counts == some group then 1 else 0) :
    Tallied groups' (rest ++ [call']) := by
  intro group
  have hsum := hgroups group
  rw [h group, List.countP_cons] at hsum
  rw [List.countP_append, List.countP_singleton]
  omega

end Tallied

theorem GroupPhase.group_of_counts {phase : GroupPhase} (h : phase.counts = some group) :
    phase.group = some group := by
  cases phase with
  | counted g => exact h
  | posted g impl => exact h
  | arrived g => exact h
  | _ => cases h

theorem GroupCall.mem_inFlight :
    group ∈ call.inFlight ↔
      (call.mode ≠ .preconnect ∧ call.phase = .found group) ∨ call.phase.counts = some group := by
  rw [GroupCall.inFlight]
  cases hphase : call.phase with
  | found g =>
    by_cases hmode : call.mode = .preconnect
    · simp [hmode, GroupPhase.counts]
    · simp [hmode, GroupPhase.counts, eq_comm]
  | _ => simp [GroupPhase.counts]

/-! ### The invariant -/

namespace Client

/-- A state is sound if what was known is still known, and the calls and the entries that are
new know their groups. -/
theorem Sound.carry (h : client.Sound)
    (hshelved : Shelved client'.clock client'.created client'.evicted client'.cache)
    (hknown : ∀ key group, Known client.cache client.evicted key group →
      Known client'.cache client'.evicted key group)
    (hcalls : ∀ call ∈ client'.calls, call ∈ client.calls ∨ ∀ group ∈ call.phase.group,
      Known client'.cache client'.evicted call.key group)
    (hthreads : ∀ thread entry, some entry ∈ (client'.threads thread).entries →
      some entry ∈ (client.threads thread).entries ∨
        Known client'.cache client'.evicted entry.key entry.group)
    (hcounted : Tallied client'.groups client'.calls) : client'.Sound where
  shelved := hshelved
  calls call hcall group hgroup := by
    rcases hcalls call hcall with hold | hnew
    · exact hknown call.key group (h.calls call hold group hgroup)
    · exact hnew group hgroup
  threads thread entry hentry := by
    rcases hthreads thread entry hentry with hold | hnew
    · exact hknown entry.key entry.group (h.threads thread entry hold)
    · exact hnew
  counted := hcounted

/-- Only the threads and the calls change. -/
theorem Sound.withCalls (h : client.Sound) {threads : Nat → LocalCache}
    (hthreads : Forgets client.threads threads)
    (hcalls : ∀ call ∈ calls, call ∈ client.calls ∨ ∀ group ∈ call.phase.group,
      Known client.cache client.evicted call.key group)
    (hcounted : Tallied groups calls) :
    Sound { client with threads, groups, calls } :=
  h.carry h.shelved (fun _ _ hold => hold) hcalls
    (fun thread entry hentry => .inl (hthreads thread entry hentry)) hcounted

/-- A call goes on with the group it has. -/
theorem Sound.goOn (h : client.Sound) (hperm : client.calls.Perm (call :: rest))
    {phase : GroupPhase} (hgroup : phase.group = call.phase.group)
    (hgroups : ∀ group, (groups group).inflight +
        (if call.phase.counts == some group then 1 else 0) =
      (client.groups group).inflight + if phase.counts == some group then 1 else 0) :
    Sound { client with groups, calls := rest ++ [{ call with phase }] } := by
  refine h.withCalls (.refl _) (fun c hc => ?_) ((h.counted.perm hperm).goOn hgroups)
  rcases List.mem_append.mp hc with hold | hnew
  · exact .inl (hperm.mem_iff.mpr (List.mem_cons_of_mem _ hold))
  · obtain rfl := List.mem_singleton.mp hnew
    refine .inr fun group hin => ?_
    exact h.calls call (hperm.mem_iff.mpr List.mem_cons_self) group (hgroup ▸ hin)

/-- A call ends. -/
theorem Sound.leave (h : client.Sound) (hperm : client.calls.Perm (call :: rest))
    (hcounts : call.phase.counts = none) : Sound { client with calls := rest } :=
  h.withCalls (.refl _) (fun _ hc => .inl (hperm.mem_iff.mpr (List.mem_cons_of_mem _ hc)))
    ((h.counted.perm hperm).leave hcounts)

/-- A call comes in. -/
theorem Sound.enter (h : client.Sound) {threads : Nat → LocalCache}
    (hthreads : Forgets client.threads threads) (hcounts : call.phase.counts = none)
    (hgroup : ∀ group ∈ call.phase.group, Known client.cache client.evicted call.key group) :
    Sound { client with threads, calls := client.calls ++ [call] } := by
  refine h.withCalls hthreads (fun c hc => ?_) (h.counted.enter hcounts)
  rcases List.mem_append.mp hc with hold | hnew
  · exact .inl hold
  · obtain rfl := List.mem_singleton.mp hnew
    exact .inr hgroup

theorem Sound.evict (h : client.Sound) (options : GroupOptions) (now : Int) :
    (client.evictSessionGroups options now).Sound := by
  rw [evictSessionGroups]
  split_ifs with hmax
  · exact h
  · exact h.carry h.shelved.evict (fun _ _ hold => hold.evict h.shelved.linked)
      (fun _ hc => .inl hc) (fun _ _ hentry => .inl hentry) h.counted

theorem Sound.createGroup (h : client.Sound) (hnow : client.clock ≤ now)
    (hkey : client.cache.get key = none) (options : GroupOptions) :
    Sound { client.createGroup options now key with clock := now } := by
  refine h.carry (h.shelved.pushFront hnow hkey) (fun _ _ hold => hold.pushFront now hkey)
    (fun _ hc => .inl hc) (fun _ _ hentry => .inl hentry) fun group => ?_
  simp only [Client.createGroup]
  by_cases hgroup : group = client.created
  · -- No call has the new group yet.
    subst hgroup
    rw [Function.update_self, eq_comm, List.countP_eq_zero]
    intro call hcall hcounts
    have hin := GroupPhase.group_of_counts (eq_of_beq hcounts)
    exact Nat.lt_irrefl _ (h.shelved.lt_of_known (h.calls call hcall _ hin))
  · rw [Function.update_of_ne hgroup]
    exact h.counted group

theorem Sound.found (h : client.Sound) (hgroup : client.cache.get call.key = some group) :
    (client.found call group).Sound := by
  refine h.carry h.shelved (fun _ _ hold => hold) (fun c hc => ?_) (fun thread entry hentry => ?_)
    (h.counted.enter rfl)
  · rcases List.mem_append.mp hc with hold | hnew
    · exact .inl hold
    · obtain rfl := List.mem_singleton.mp hnew
      refine .inr fun g hg => ?_
      obtain rfl := Option.some.inj hg
      exact .inl hgroup
  · simp only [Client.found, resume, setThread] at hentry
    by_cases hthread : thread = call.thread
    · subst hthread
      rw [Function.update_self] at hentry
      rcases LocalCache.mem_put hentry with hold | hnew
      · exact .inl hold
      · obtain rfl := Option.some.inj hnew
        exact .inr (.inl hgroup)
    · rw [Function.update_of_ne hthread] at hentry
      exact .inl hentry

theorem clock_evictSessionGroups {options : GroupOptions} {now : Int} :
    (client.evictSessionGroups options now).clock = client.clock := by
  rw [evictSessionGroups]
  split_ifs <;> rfl

theorem calls_evictSessionGroups {options : GroupOptions} {now : Int} :
    (client.evictSessionGroups options now).calls = client.calls := by
  rw [evictSessionGroups]
  split_ifs <;> rfl

/-- An eviction adds no group to the map. -/
theorem get_evictSessionGroups (h : client.Sound) (hkey : client.cache.get key = none)
    (options : GroupOptions) (now : Int) :
    (client.evictSessionGroups options now).cache.get key = none := by
  rw [evictSessionGroups]
  split_ifs with hmax
  · exact hkey
  · simp only [h.shelved.linked.get_evict, hkey, ite_self]

theorem Sound.groupOnMap (h : client.Sound) {evictNow : Int} (hevict : client.clock ≤ evictNow)
    (hnow : evictNow ≤ now) : (client.groupOnMap options call evictNow now).Sound := by
  rw [Client.groupOnMap]
  have hclock := Int.le_trans hevict hnow
  cases hentry : client.cache.map.lookup call.key with
  | some entry =>
    have hrefreshed : Sound { client with
        cache := client.cache.refresh now call.key, clock := now } :=
      h.carry (h.shelved.refresh hclock) (fun _ _ hold => hold.refresh now _)
        (fun _ hc => .inl hc) (fun _ _ hin => .inl hin) h.counted
    apply hrefreshed.found
    rw [LruCache.get_refresh, LruCache.get_of_lookup hentry]
  | none =>
    have hkey : client.cache.get call.key = none := by rw [LruCache.get, hentry, Option.map_none]
    have hcreated := (h.evict options evictNow).createGroup (clock_evictSessionGroups ▸ hclock)
      (get_evictSessionGroups h hkey options evictNow) options
    exact hcreated.found (LruCache.get_pushFront_self now call.key _ _)

/-- The cache, the calls and the threads agree after every step. -/
theorem Sound.step (h : client.Sound) {action : GroupAction}
    (hstep : client.step hash options action = some client') : client'.Sound := by
  cases action with
  | call mode thread request =>
    rcases step_call hstep with rfl | ⟨key, threads, phase, hphase, hforgets, rfl⟩
    · exact h
    · rcases hphase with rfl | ⟨slot, group, rfl, hentry⟩
      · exact h.enter hforgets rfl fun group hgroup => nomatch hgroup
      · refine h.enter hforgets rfl fun g hg => ?_
        obtain rfl := Option.some.inj hg
        exact h.threads thread _ hentry
  | probe i available now =>
    obtain ⟨call, rest, slot, group, -, hperm, hphase, hcases⟩ := step_probe hstep
    have hcounts : call.phase.counts = none := by rw [hphase]; rfl
    have hknown : Known client.cache client.evicted call.key group :=
      h.calls call (hperm.mem_iff.mpr List.mem_cons_self) group (by rw [hphase]; rfl)
    have hleft := h.leave hperm hcounts
    rcases hcases with ⟨-, hclock, hcurrent, rfl⟩ | ⟨-, threads, hforgets, rfl⟩ | ⟨-, rfl⟩
    · have hrefreshed : Sound { client with
          cache := client.cache.refresh now call.key, clock := now, calls := rest } :=
        hleft.carry (h.shelved.refresh hclock) (fun _ _ hold => hold.refresh now _)
          (fun _ hc => .inl hc) (fun _ _ hin => .inl hin) hleft.counted
      refine hrefreshed.enter (.refl _) rfl fun g hg => ?_
      obtain rfl := Option.some.inj hg
      exact hknown.refresh now _
    · exact hleft.enter hforgets rfl fun group hgroup => nomatch hgroup
    · refine hleft.enter (.refl _) rfl fun g hg => ?_
      obtain rfl := Option.some.inj hg
      exact hknown
  | lookUp i evictNow now =>
    obtain ⟨call, rest, -, hperm, hphase, hevict, hnow, rfl⟩ := step_lookUp hstep
    exact (h.leave hperm (by rw [hphase]; rfl)).groupOnMap hevict hnow
  | count i =>
    obtain ⟨call, rest, group, hperm, hphase, -, rfl⟩ := step_count hstep
    refine h.goOn hperm (by rw [hphase]; rfl) fun g => ?_
    rw [hphase]
    by_cases hg : g = group
    · subst hg
      simp [setGroup, GroupPhase.counts]
    · simp [setGroup, GroupPhase.counts, Function.update_of_ne hg, Ne.symm hg]
  | post i impl =>
    obtain ⟨call, rest, group, -, hperm, hphase, rfl⟩ := step_post hstep
    exact h.goOn hperm (by rw [hphase]; rfl) fun g => by rw [hphase]; rfl
  | arrive i submission =>
    obtain ⟨call, rest, group, impl, impls, hperm, hphase, rfl⟩ := step_arrive hstep
    refine h.goOn hperm (by rw [hphase]; rfl) fun g => ?_
    rw [hphase]
    by_cases hg : g = group
    · subst hg
      simp [setGroup, GroupPhase.counts]
    · simp [setGroup, GroupPhase.counts, Function.update_of_ne hg]
  | answer i =>
    obtain ⟨call, rest, group, hperm, hphase, rfl⟩ := step_answer hstep
    refine h.goOn hperm (by rw [hphase]; rfl) fun g => ?_
    rw [hphase]
    by_cases hg : g = group
    · -- The group counts at least this call.
      subst hg
      have hpos : 0 < (client.groups g).inflight := by
        rw [h.counted g, hperm.countP_eq,
          List.countP_cons_of_pos (by simp [hphase, GroupPhase.counts])]
        exact Nat.succ_pos _
      simp only [setGroup, GroupPhase.counts, Function.update_self, BEq.rfl, if_true]
      simp
      omega
    · simp [setGroup, GroupPhase.counts, Function.update_of_ne hg, Ne.symm hg]
  | leave i =>
    obtain ⟨call, rest, hperm, hcounts, rfl⟩ := step_leave hstep
    exact h.leave hperm hcounts
  | foreign thread =>
    obtain ⟨threads, hforgets, rfl⟩ := step_foreign hstep
    exact h.withCalls hforgets (fun _ hc => .inl hc) h.counted
  | maintenance now =>
    obtain ⟨hclock, rfl⟩ := step_maintenance hstep
    have hevicted := h.evict options now
    have hlater := hevicted.shelved.later (clock_evictSessionGroups ▸ hclock)
    exact hevicted.carry hlater (fun _ _ hold => hold)
      (fun _ hc => .inl hc) (fun _ _ hin => .inl hin) hevicted.counted
  | session group impl action =>
    obtain ⟨impls, rfl⟩ := step_session hstep
    refine h.withCalls (.refl _) (fun _ hc => .inl hc) fun g => ?_
    rw [← h.counted g]
    by_cases hg : g = group
    · subst hg
      simp
    · rw [Function.update_of_ne hg]

/-! ### Which groups are evicted -/

/-- An eviction evicts the groups that are due. -/
theorem mem_evicted_iff (h : client.Sound) :
    group ∈ (client.evictSessionGroups options now).evicted ↔
      group ∈ client.evicted ∨ client.Due options now group := by
  rw [evictSessionGroups]
  split_ifs with hmax
  · exact (or_iff_left fun hdue => hdue.1 hmax).symm
  simp only [List.mem_append]
  refine or_congr_right ?_
  constructor
  · intro hin
    obtain ⟨⟨key, entry⟩, hx, rfl⟩ := List.mem_map.mp hin
    have hlookup := h.shelved.linked.get_of_mem_removed hx
    have hremoved : key ∈ (client.cache.evict (client.evictionRule options now)).2.map Prod.fst :=
      List.mem_map_of_mem hx
    obtain ⟨newer, node, older, horder, rfl, hdue⟩ :=
      (h.shelved.linked.key_mem_removed_iff LruCache.agingRule_expired hlookup).mp hremoved
    exact ⟨hmax, newer, node, older, entry, horder, hlookup, rfl, hdue⟩
  · rintro ⟨-, newer, node, older, entry, horder, hlookup, rfl, hdue⟩
    have hremoved :=
      (h.shelved.linked.mem_removed_iff LruCache.agingRule_expired horder hlookup).mpr hdue
    obtain ⟨x, hx, hkey⟩ := List.mem_map.mp hremoved
    have hsame := h.shelved.linked.get_of_mem_removed hx
    rw [hkey, hlookup] at hsame
    exact List.mem_map.mpr ⟨x, hx, congrArg Entry.value (Option.some.inj hsame).symm⟩

/-- A request in flight is kept by an eviction if and only if its group is not due. -/
theorem kept_evict_iff (h : client.Sound) (hkept : client.Kept) :
    (∀ call ∈ client.calls, ∀ group ∈ call.inFlight,
      group ∉ (client.evictSessionGroups options now).evicted) ↔ client.Spares options now := by
  refine forall₂_congr fun call hcall => forall₂_congr fun group hgroup => ?_
  rw [mem_evicted_iff h, or_iff_right (hkept call hcall group hgroup)]

/-- When a call goes on and nothing is evicted, the requests are kept if and only if this one
is. -/
theorem kept_goOn_iff (hkept : client.Kept) (hperm : client.calls.Perm (call :: rest))
    (hevicted : client'.evicted = client.evicted) (hcalls : client'.calls = rest ++ [call']) :
    client'.Kept ↔ ∀ group ∈ call'.inFlight, group ∉ client.evicted := by
  rw [Kept, hevicted, hcalls]
  constructor
  · exact fun h => h call' (List.mem_append_right _ (List.mem_singleton_self _))
  · intro h c hc
    rcases List.mem_append.mp hc with hold | hnew
    · exact hkept c (hperm.mem_iff.mpr (List.mem_cons_of_mem _ hold))
    · obtain rfl := List.mem_singleton.mp hnew
      exact h

/-- A lookup is timely if and only if the requests are kept. -/
theorem spares_iff_kept_groupOnMap (h : client.Sound) (hkept : client.Kept) {evictNow : Int} :
    (client.cache.get call.key = none → client.Spares options evictNow) ↔
      (client.groupOnMap options call evictNow now).Kept := by
  rw [groupOnMap]
  cases hentry : client.cache.map.lookup call.key with
  | some entry =>
    have hget := LruCache.get_of_lookup hentry
    refine iff_of_true (fun hnone => by rw [hget] at hnone; cases hnone) fun c hc => ?_
    rcases List.mem_append.mp hc with hold | hnew
    · exact hkept c hold
    · obtain rfl := List.mem_singleton.mp hnew
      intro g hg
      rcases GroupCall.mem_inFlight.mp hg with ⟨-, hphase⟩ | hcounts
      · obtain rfl := GroupPhase.found.inj hphase
        exact h.shelved.kept call.key _ hget
      · cases hcounts
  | none =>
    have hget : client.cache.get call.key = none := by rw [LruCache.get, hentry, Option.map_none]
    rw [forall_prop_of_true hget, ← kept_evict_iff h hkept]
    constructor
    · intro hold c hc
      rcases List.mem_append.mp hc with hin | hnew
      · exact hold c (calls_evictSessionGroups ▸ hin)
      · obtain rfl := List.mem_singleton.mp hnew
        intro g hg hevicted
        rcases GroupCall.mem_inFlight.mp hg with ⟨-, hphase⟩ | hcounts
        · -- The group has only just been created.
          obtain rfl := GroupPhase.found.inj hphase
          exact Nat.lt_irrefl _ ((h.evict options evictNow).shelved.gone _ hevicted)
        · cases hcounts
    · intro hnew c hc
      exact hnew c (List.mem_append_left _ (calls_evictSessionGroups.symm ▸ hc))

/-- A step is timely if and only if it keeps the requests in flight. -/
theorem timely_iff_kept {action : GroupAction} (h : client.Sound) (hkept : client.Kept)
    (hstep : client.step hash options action = some client') :
    client.Timely options action ↔ client'.Kept := by
  cases action with
  | call mode thread request =>
    refine iff_of_true trivial ?_
    rcases step_call hstep with rfl | ⟨key, threads, phase, hphase, -, rfl⟩
    · exact hkept
    · intro c hc
      rcases List.mem_append.mp hc with hold | hnew
      · exact hkept c hold
      · obtain rfl := List.mem_singleton.mp hnew
        rcases hphase with rfl | ⟨slot, group, rfl, -⟩ <;> exact fun g hg => nomatch hg
  | probe i available now =>
    obtain ⟨call, rest, slot, group, hat, hperm, hphase, hcases⟩ := step_probe hstep
    have hknown : Known client.cache client.evicted call.key group :=
      h.calls call (hperm.mem_iff.mpr List.mem_cons_self) group (by rw [hphase]; rfl)
    rcases hcases with ⟨rfl, -, hcurrent, rfl⟩ | ⟨rfl, threads, -, rfl⟩ | ⟨rfl, rfl⟩
    · refine iff_of_true trivial ((kept_goOn_iff hkept hperm (by rfl) (by rfl)).mpr fun g hg => ?_)
      rcases GroupCall.mem_inFlight.mp hg with ⟨-, hfound⟩ | hcounts
      · obtain rfl := GroupPhase.found.inj hfound
        exact h.shelved.kept call.key _ hcurrent
      · cases hcounts
    · refine iff_of_true trivial ((kept_goOn_iff hkept hperm (by rfl) (by rfl)).mpr fun g hg => ?_)
      cases hg
    · refine Iff.trans ?_ (kept_goOn_iff hkept hperm (by rfl) (by rfl)).symm
      simp only [Timely, hat, Option.mem_some_iff, forall_eq', hphase, GroupPhase.probing.injEq]
      constructor
      · intro htimely g hg
        rcases GroupCall.mem_inFlight.mp hg with ⟨hmode, hfound⟩ | hcounts
        · obtain rfl := GroupPhase.found.inj hfound
          exact (h.shelved.not_evicted_iff hknown).mpr (htimely slot _ ⟨rfl, rfl⟩ hmode)
        · cases hcounts
      · rintro hnot slot' group' ⟨rfl, rfl⟩ hmode
        apply (h.shelved.not_evicted_iff hknown).mp
        exact hnot _ (GroupCall.mem_inFlight.mpr (.inl ⟨hmode, rfl⟩))
  | lookUp i evictNow now =>
    obtain ⟨call, rest, hat, hperm, hphase, -, -, rfl⟩ := step_lookUp hstep
    have hcounts : call.phase.counts = none := by rw [hphase]; rfl
    have hrest : Kept { client with calls := rest } := fun c hc =>
      hkept c (hperm.mem_iff.mpr (List.mem_cons_of_mem _ hc))
    rw [← spares_iff_kept_groupOnMap (h.leave hperm hcounts) hrest]
    simp only [Timely, hat, Option.mem_some_iff, forall_eq']
    refine imp_congr_right fun _ => ⟨fun hspares c hc => ?_, fun hspares c hc => ?_⟩
    · exact hspares c (hperm.mem_iff.mpr (List.mem_cons_of_mem _ hc))
    · rcases List.mem_cons.mp (hperm.mem_iff.mp hc) with rfl | hold
      · -- The request that looks up has no group yet.
        intro g hg
        rcases GroupCall.mem_inFlight.mp hg with ⟨-, hfound⟩ | hcounts'
        · cases hphase.symm.trans hfound
        · cases hcounts.symm.trans hcounts'
      · exact hspares c hold
  | count i =>
    obtain ⟨call, rest, group, hperm, hphase, hmode, rfl⟩ := step_count hstep
    refine iff_of_true trivial ((kept_goOn_iff hkept hperm (by rfl) (by rfl)).mpr fun g hg => ?_)
    obtain rfl := Option.some.inj hg
    apply hkept call (hperm.mem_iff.mpr List.mem_cons_self)
    exact GroupCall.mem_inFlight.mpr (.inl ⟨hmode, hphase⟩)
  | post i impl =>
    obtain ⟨call, rest, group, -, hperm, hphase, rfl⟩ := step_post hstep
    refine iff_of_true trivial ((kept_goOn_iff hkept hperm (by rfl) (by rfl)).mpr fun g hg => ?_)
    obtain rfl := Option.some.inj hg
    apply hkept call (hperm.mem_iff.mpr List.mem_cons_self)
    exact GroupCall.mem_inFlight.mpr (.inr (by rw [hphase]; rfl))
  | arrive i submission =>
    obtain ⟨call, rest, group, impl, impls, hperm, hphase, rfl⟩ := step_arrive hstep
    refine iff_of_true trivial ((kept_goOn_iff hkept hperm (by rfl) (by rfl)).mpr fun g hg => ?_)
    obtain rfl := Option.some.inj hg
    apply hkept call (hperm.mem_iff.mpr List.mem_cons_self)
    exact GroupCall.mem_inFlight.mpr (.inr (by rw [hphase]; rfl))
  | answer i =>
    obtain ⟨call, rest, group, hperm, hphase, rfl⟩ := step_answer hstep
    refine iff_of_true trivial ((kept_goOn_iff hkept hperm (by rfl) (by rfl)).mpr fun g hg => ?_)
    cases hg
  | leave i =>
    obtain ⟨call, rest, hperm, -, rfl⟩ := step_leave hstep
    exact iff_of_true trivial fun c hc => hkept c (hperm.mem_iff.mpr (List.mem_cons_of_mem _ hc))
  | foreign thread =>
    obtain ⟨threads, -, rfl⟩ := step_foreign hstep
    exact iff_of_true trivial hkept
  | maintenance now =>
    obtain ⟨-, rfl⟩ := step_maintenance hstep
    rw [Kept, calls_evictSessionGroups]
    exact (kept_evict_iff h hkept).symm
  | session group impl action =>
    obtain ⟨impls, rfl⟩ := step_session hstep
    exact iff_of_true trivial hkept

/-- A group that a step evicts is due at an eviction that a timely step spares the requests
from. -/
theorem due_of_evicted {action : GroupAction} (h : client.Sound)
    (hstep : client.step hash options action = some client') (hin : group ∈ client'.evicted)
    (hnew : group ∉ client.evicted) :
    ∃ evictNow, client.Due options evictNow group ∧
      (client.Timely options action → client.Spares options evictNow) := by
  cases action with
  | call mode thread request =>
    rcases step_call hstep with rfl | ⟨key, threads, phase, -, -, rfl⟩ <;> exact absurd hin hnew
  | probe i available time =>
    obtain ⟨call, rest, slot, g, -, -, -, hcases⟩ := step_probe hstep
    rcases hcases with ⟨-, -, -, rfl⟩ | ⟨-, threads, -, rfl⟩ | ⟨-, rfl⟩ <;> exact absurd hin hnew
  | lookUp i evictNow time =>
    obtain ⟨call, rest, hat, hperm, hphase, -, -, rfl⟩ := step_lookUp hstep
    have hleft := h.leave hperm (by rw [hphase]; rfl)
    rw [groupOnMap] at hin
    cases hentry : client.cache.map.lookup call.key with
    | some entry =>
      rw [hentry] at hin
      exact absurd hin hnew
    | none =>
      rw [hentry] at hin
      have hdue := ((mem_evicted_iff hleft).mp hin).resolve_left hnew
      have hget : client.cache.get call.key = none := by rw [LruCache.get, hentry, Option.map_none]
      exact ⟨evictNow, hdue, fun htimely => htimely call hat hget⟩
  | maintenance time =>
    obtain ⟨-, rfl⟩ := step_maintenance hstep
    exact ⟨time, ((mem_evicted_iff h).mp hin).resolve_left hnew, id⟩
  | count i =>
    obtain ⟨call, rest, g, -, -, -, rfl⟩ := step_count hstep
    exact absurd hin hnew
  | post i impl =>
    obtain ⟨call, rest, g, -, -, -, rfl⟩ := step_post hstep
    exact absurd hin hnew
  | arrive i submission =>
    obtain ⟨call, rest, g, impl, impls, -, -, rfl⟩ := step_arrive hstep
    exact absurd hin hnew
  | answer i =>
    obtain ⟨call, rest, g, -, -, rfl⟩ := step_answer hstep
    exact absurd hin hnew
  | leave i =>
    obtain ⟨call, rest, -, -, rfl⟩ := step_leave hstep
    exact absurd hin hnew
  | foreign thread =>
    obtain ⟨threads, -, rfl⟩ := step_foreign hstep
    exact absurd hin hnew
  | session g impl action =>
    obtain ⟨impls, rfl⟩ := step_session hstep
    exact absurd hin hnew

/-- A timely step is harmless where the requests have been kept. -/
theorem Timely.harmless {action : GroupAction} (h : client.Sound) (hkept : client.Kept)
    (htimely : client.Timely options action) : client.Harmless hash options action := by
  constructor
  · intro group hposts
    cases action with
    | post i impl =>
      obtain ⟨call, hat, hgroup⟩ := Option.bind_eq_some_iff.mp hposts
      cases hphase : call.phase with
      | counted g =>
        rw [hphase] at hgroup
        obtain rfl := Option.some.inj hgroup
        apply hkept call (List.mem_of_getElem? hat)
        exact GroupCall.mem_inFlight.mpr (.inr (by rw [hphase]; rfl))
      | _ => simp [hphase] at hgroup
    | _ => cases hposts
  · intro client' hstep group hin hnew
    obtain ⟨evictNow, hdue, hspares⟩ := due_of_evicted h hstep hin hnew
    by_contra hinflight
    rw [h.counted group, ← Ne, ← Nat.pos_iff_ne_zero, List.countP_pos_iff] at hinflight
    obtain ⟨call, hcall, hcounts⟩ := hinflight
    exact hspares htimely call hcall group
      (GroupCall.mem_inFlight.mpr (.inr (eq_of_beq hcounts))) hdue

theorem sound_init (clock : Int) : Sound { clock } where
  shelved := ⟨LruCache.linked_empty clock, fun _ _ h => (nomatch h), fun _ _ h => (nomatch h),
    fun _ _ _ h => (nomatch h), fun _ h => (nomatch h)⟩
  calls _ h := nomatch h
  threads _ entry h := by
    rw [List.mem_replicate] at h
    cases h.2
  counted _ := rfl

end Client

/-- In a run of timely steps no request is posted to a session of an evicted group, and no
group with requests in flight is evicted. These are the runs in which no request in flight is
ever on an evicted group. -/
theorem in_flight_kept (hash : Bytes → UInt64) (options : GroupOptions) (clock : Int)
    (actions : List GroupAction)
    (hrun : exec (Client.step hash options) { clock } actions = some client) :
    (Along (Client.step hash options) (Client.Timely options) { clock } actions →
      Along (Client.step hash options) (Client.Harmless hash options) { clock } actions) ∧
    (Along (Client.step hash options) (Client.Timely options) { clock } actions ↔
      ∀ before after client', actions = before ++ after →
        exec (Client.step hash options) { clock } before = some client' → client'.Kept) := by
  have hsound := Client.sound_init clock
  have hkept : Client.Kept { clock } := fun _ h => nomatch h
  constructor
  · have hinv : ∀ (s : Client) action t, s.Sound ∧ s.Kept → s.Timely options action →
        s.step hash options action = some t → t.Sound ∧ t.Kept := fun s action t h htimely hstep =>
      ⟨h.1.step hstep, (Client.timely_iff_kept h.1 h.2 hstep).mp htimely⟩
    intro htimely
    exact htimely.mono_of_guarded hinv (fun s action h hok => hok.harmless h.1 h.2)
      ⟨hsound, hkept⟩
  · refine along_iff_throughout_of_invariant (fun _ _ _ h hstep => Client.Sound.step h hstep) ?_
      hsound hkept hrun
    intro s action t hs h hstep
    exact Client.timely_iff_kept hs h hstep

/-- No request is in flight when groups may be evicted, and the lock of the map is free. -/
def Client.Quiet (client : Client) : GroupAction → Prop
  | .probe _ available _ => available = true
  | .lookUp .. | .maintenance _ => ∀ call ∈ client.calls, call.inFlight = none
  | _ => True

instance (client : Client) : ∀ action, Decidable (client.Quiet action)
  | .probe _ available _ => inferInstanceAs (Decidable (available = true))
  | .lookUp .. | .maintenance _ =>
    inferInstanceAs (Decidable (∀ call ∈ client.calls, call.inFlight = none))
  | .call .. | .count _ | .post .. | .arrive .. | .answer _ | .leave _ | .foreign _
  | .session .. => isTrue trivial

theorem Client.Quiet.timely {action : GroupAction} (h : client.Quiet action) :
    client.Timely options action := by
  have hspares : (∀ call ∈ client.calls, call.inFlight = none) →
      ∀ now, client.Spares options now := fun hnone now call hcall group hgroup => by
    rw [hnone call hcall] at hgroup
    cases hgroup
  cases action with
  | probe i available now =>
    obtain rfl : available = true := h
    trivial
  | lookUp i evictNow now => exact fun _ _ _ => hspares h evictNow
  | maintenance now => exact hspares h now
  | _ => trivial

/-- A client with room for one group. -/
def oneGroup : GroupOptions := { maxSessionGroups := 1 }

def toOrigin (url : String) : Request := { url := str url }

/-- The second request comes when the first is done. -/
def oneByOne : List GroupAction :=
  [.call .awaits 0 (toOrigin "https://a/"), .lookUp 0 1 1, .count 0, .post 0 0,
    .arrive 0 ⟨1, some 1, []⟩, .session 0 0 (.connectFailed 0), .answer 0, .leave 0,
    .call .awaits 0 (toOrigin "https://b/"), .lookUp 0 2 2, .count 0, .post 0 0]

theorem in_flight_kept_oneByOne :
    ∃ client, exec (Client.step (fun _ => 0) oneGroup) { clock := 0 } oneByOne = some client ∧
      client.evicted = [0] ∧
        Along (Client.step (fun _ => 0) oneGroup) (Client.Harmless (fun _ => 0) oneGroup)
          { clock := 0 } oneByOne := by
  have hend : (exec (Client.step (fun _ => 0) oneGroup) { clock := 0 } oneByOne).map
      Client.evicted = some [0] := by
    decide +kernel
  obtain ⟨client, hrun, hevicted⟩ := Option.map_eq_some_iff.mp hend
  have hquiet : Along (Client.step (fun _ => 0) oneGroup) Client.Quiet { clock := 0 } oneByOne := by
    decide +kernel
  have htimely : Along (Client.step (fun _ => 0) oneGroup) (Client.Timely oneGroup)
      { clock := 0 } oneByOne := hquiet.mono fun _ _ h => h.timely
  exact ⟨client, hrun, hevicted, (in_flight_kept _ oneGroup 0 oneByOne hrun).1 htimely⟩

/-- The second request comes when the first has been counted and is not yet posted. -/
def evictedInFlight : List GroupAction :=
  [.call .awaits 0 (toOrigin "https://a/"), .lookUp 0 1 1, .count 0,
    .call .awaits 1 (toOrigin "https://b/"), .lookUp 1 2 2, .post 0 0]

/-- A group with a request in flight is evicted, and the request is posted to a session of
it. -/
theorem evicted_in_flight :
    (exec (Client.step (fun _ => 0) oneGroup) { clock := 0 } evictedInFlight).isSome ∧
      ¬ Along (Client.step (fun _ => 0) oneGroup) (Client.Harmless (fun _ => 0) oneGroup)
        { clock := 0 } evictedInFlight := by
  decide +kernel

end HttpClient.H2
