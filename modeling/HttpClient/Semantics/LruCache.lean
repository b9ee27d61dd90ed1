import Mathlib.Data.List.AList
import Mathlib.Data.List.Nodup
import Mathlib.Data.List.Perm.Basic
import Mathlib.Tactic.SplitIfs
import HttpClient.Semantics.EvictionPass

/-!
# Caches with a list of recent use

The entries of the cache are kept in a map, and their keys in a linked list with the most
recently used one in front. An entry holds an iterator to its own element of the list. An
element is named by its address, which it keeps when it is moved.

An eviction goes through the list from its end and erases from the list and the map at the
same time. On a cache whose list and map agree it does what the pass of `EvictionPass` does
to the entries.

## Main definitions

* `LruCache` — the map and the list
* `LruCache.touch`, `LruCache.refresh`, `LruCache.pushFront`, `LruCache.emplace`,
  `LruCache.modify`, `LruCache.evict` — the operations
* `LruCache.agingRule` — entries expire some time after their last use
* `LruCache.Linked` — the list and the map agree, and the list is ordered by use
* `LruCache.Evicts` — what an eviction may do

## Main results

* `LruCache.Linked.touch`, `LruCache.Linked.pushFront`, `LruCache.Linked.modify`,
  `LruCache.Linked.evict` — the operations keep the cache linked
* `LruCache.Linked.evicts` — an eviction of a linked cache is as it should be
* `LruCache.Linked.evict_eq` — what an eviction of a linked cache removes, and what it leaves
-/

set_option autoImplicit false

namespace HttpClient.Semantics

/-- An element of the list. -/
structure Node (κ : Type*) where
  address : Nat
  key : κ
  deriving DecidableEq, Repr

/-- An element of the map. While it is linked, it has an iterator to its element of the
list. -/
structure Entry (ν : Type*) where
  value : ν
  lastUsed : Int := 0
  link : Option Nat := none
  deriving DecidableEq, Repr

/-- The map and the list; `fresh` is the address of the next element. -/
structure LruCache (κ ν : Type*) where
  map : AList fun _ : κ => Entry ν := ∅
  order : List (Node κ) := []
  fresh : Nat := 0

/-- What an eviction leaves, and what it has removed. -/
structure Swept (κ ν : Type*) where
  map : AList fun _ : κ => Entry ν
  order : List (Node κ)
  removed : List (κ × Entry ν)

namespace LruCache

variable {κ ν : Type*} [DecidableEq κ]

/-! ### The operations -/

def size (cache : LruCache κ ν) : Nat := cache.map.keys.length

/-- What the entry with a key holds. -/
def get (key : κ) (cache : LruCache κ ν) : Option ν := (cache.map.lookup key).map Entry.value

/-- Move the element of an iterator to the front. -/
def toFront (it : Nat) (order : List (Node κ)) : List (Node κ) :=
  (order.filter fun node => node.address = it) ++ order.filter fun node => node.address ≠ it

/-- Put a new element in front, and an entry with an iterator to it in the map. -/
def pushFront (now : Int) (key : κ) (value : ν) (cache : LruCache κ ν) : LruCache κ ν where
  map := cache.map.insert key { value, lastUsed := now, link := some cache.fresh }
  order := { address := cache.fresh, key } :: cache.order
  fresh := cache.fresh + 1

/-- An entry is used; its element, if it has one, moves to the front. -/
def refresh (now : Int) (key : κ) (cache : LruCache κ ν) : LruCache κ ν :=
  match cache.map.lookup key with
  | none => cache
  | some entry =>
    { cache with
      map := cache.map.insert key { entry with lastUsed := now }
      order := match entry.link with
        | some it => toFront it cache.order
        | none => cache.order }

/-- An entry is used; an entry without an element gets one. -/
def touch (now : Int) (key : κ) (cache : LruCache κ ν) : LruCache κ ν :=
  match cache.map.lookup key with
  | none => cache
  | some entry =>
    match entry.link with
    | some _ => cache.refresh now key
    | none => cache.pushFront now key entry.value

/-- Add an entry without an element, unless there is one with the key. -/
def emplace (key : κ) (value : ν) (cache : LruCache κ ν) : LruCache κ ν :=
  if key ∈ cache.map then cache else { cache with map := cache.map.insert key { value } }

/-- Change what an entry holds. -/
def modify (key : κ) (f : ν → ν) (cache : LruCache κ ν) : LruCache κ ν :=
  match cache.map.lookup key with
  | none => cache
  | some entry =>
    { cache with map := cache.map.insert key { entry with value := f entry.value } }

/-- The loop of an eviction. The reverse iterator stands between the elements `ahead`, the
next one first, and the elements `passed`, in the order of the list. -/
def sweep (rule : EvictionRule (κ × Entry ν)) (map : AList fun _ : κ => Entry ν)
    (passed : List (Node κ)) : List (Node κ) → Swept κ ν
  | [] => { map, order := passed, removed := [] }
  | node :: ahead =>
    match map.lookup node.key with
    | none => sweep rule map passed ahead
    | some entry =>
      if rule.removes map.keys.length (node.key, entry) then
        let swept := sweep rule (map.erase node.key) passed ahead
        { swept with removed := (node.key, entry) :: swept.removed }
      else if rule.stops map.keys.length then
        { map, order := ahead.reverse ++ node :: passed, removed := [] }
      else sweep rule map (node :: passed) ahead

/-- Evict by a rule; the entries that are removed are returned in the order in which they
are. -/
def evict (rule : EvictionRule (κ × Entry ν)) (cache : LruCache κ ν) :
    LruCache κ ν × List (κ × Entry ν) :=
  let swept := sweep rule cache.map [] cache.order.reverse
  ({ cache with map := swept.map, order := swept.order }, swept.removed)

/-- The entries in the order of the list. -/
def items (map : AList fun _ : κ => Entry ν) (order : List (Node κ)) : List (κ × Entry ν) :=
  order.filterMap fun node => (map.lookup node.key).map (node.key, ·)

/-- The number of entries that have not expired. -/
def unexpired (rule : EvictionRule (κ × Entry ν)) (cache : LruCache κ ν) : Nat :=
  (items cache.map cache.order).countP fun x => !rule.expired x

/-- The rule of a cache whose entries expire when they have not been used for `ttl`; a time
that is not positive is none. -/
def agingRule (limit : Limit) (idle : ν → Bool) (ttl now : Int) :
    EvictionRule (κ × Entry ν) where
  toLimit := limit
  idle x := idle x.2.value
  expired x := decide (0 < ttl ∧ ttl ≤ now - x.2.lastUsed)

/-- The list has exactly the keys of the map, each once and the most recently used first, and
every entry has an iterator to the element with its own key. -/
structure Linked (clock : Int) (cache : LruCache κ ν) : Prop where
  nodup : (cache.order.map Node.key).Nodup
  keys : ∀ key, key ∈ cache.order.map Node.key ↔ key ∈ cache.map
  addresses : (cache.order.map Node.address).Nodup
  fresh : ∀ node ∈ cache.order, node.address < cache.fresh
  designates : ∀ key entry, cache.map.lookup key = some entry →
    ∃ it, entry.link = some it ∧ { address := it, key } ∈ cache.order
  recent : cache.order.Pairwise fun newer older => ∀ entry entry',
    cache.map.lookup newer.key = some entry → cache.map.lookup older.key = some entry' →
      entry'.lastUsed ≤ entry.lastUsed
  past : ∀ key entry, cache.map.lookup key = some entry → entry.lastUsed ≤ clock

/-- What an eviction may do. -/
structure Evicts (rule : EvictionRule (κ × Entry ν)) (cache cache' : LruCache κ ν)
    (removed : List (κ × Entry ν)) : Prop where
  /-- The least recently used entries are considered first. -/
  first : (removed.map Prod.fst).Sublist (cache.order.map Node.key).reverse
  entries : ∀ x ∈ removed, cache.map.lookup x.1 = some x.2
  /-- An entry that is removed is idle, and has expired or is removed while the cache is over
  its limit. -/
  allowed : ∀ before x after, removed = before ++ x :: after →
    rule.idle x = true ∧
      (rule.expired x = true ∨ rule.exceeds (cache.size - before.length) = true)
  /-- No idle entry is left in favour of a removed one that was used more recently. -/
  fair : cache.order.Pairwise fun newer older => newer.key ∈ removed.map Prod.fst →
    ∀ entry, cache.map.lookup older.key = some entry → rule.idle (older.key, entry) = true →
      older.key ∈ removed.map Prod.fst
  /-- What is left is in the order in which it was. -/
  order : cache'.order = cache.order.filter fun node => node.key ∉ removed.map Prod.fst
  left : ∀ key, cache'.map.lookup key =
    if key ∈ removed.map Prod.fst then none else cache.map.lookup key

variable {clock now : Int} {key : κ} {value : ν} {cache : LruCache κ ν}
  {rule : EvictionRule (κ × Entry ν)}

omit [DecidableEq κ] in
/-- What was used less recently expires first. -/
theorem agingRule_expired {limit : Limit} {idle : ν → Bool} {ttl : Int} {x y : κ × Entry ν}
    (hle : y.2.lastUsed ≤ x.2.lastUsed)
    (h : (agingRule limit idle ttl now).expired x = true) :
    (agingRule limit idle ttl now).expired y = true := by
  simp only [agingRule, decide_eq_true_eq] at h ⊢
  omega

theorem linked_empty (clock : Int) : Linked clock ({} : LruCache κ ν) where
  nodup := List.nodup_nil
  keys key := by simp
  addresses := List.nodup_nil
  fresh := by simp
  designates key entry h := by simp at h
  recent := List.Pairwise.nil
  past key entry h := by simp at h

/-! ### What the entries hold -/

theorem get_refresh (now : Int) (key other : κ) (cache : LruCache κ ν) :
    (cache.refresh now key).get other = cache.get other := by
  rw [refresh]
  cases hentry : cache.map.lookup key with
  | none => rfl
  | some entry =>
    by_cases hother : other = key
    · subst hother
      simp [get, hentry]
    · simp [get, AList.lookup_insert_ne hother]

theorem get_pushFront_self (now : Int) (key : κ) (value : ν) (cache : LruCache κ ν) :
    (cache.pushFront now key value).get key = some value := by
  simp [pushFront, get]

theorem get_pushFront_of_ne {key other : κ} (h : other ≠ key) (now : Int) (value : ν)
    (cache : LruCache κ ν) : (cache.pushFront now key value).get other = cache.get other := by
  simp [pushFront, get, AList.lookup_insert_ne h]

theorem get_eq_none : cache.get key = none ↔ key ∉ cache.map := by
  rw [get, Option.map_eq_none_iff, AList.lookup_eq_none]

theorem get_of_lookup {entry : Entry ν} (h : cache.map.lookup key = some entry) :
    cache.get key = some entry.value := by
  rw [get, h, Option.map_some]

theorem get_touch (now : Int) (key other : κ) (cache : LruCache κ ν) :
    (cache.touch now key).get other = cache.get other := by
  rw [touch]
  cases hentry : cache.map.lookup key with
  | none => rfl
  | some entry =>
    dsimp only
    cases entry.link with
    | some it => exact get_refresh now key other cache
    | none =>
      by_cases hother : other = key
      · rw [hother, get_of_lookup hentry]
        exact get_pushFront_self now key entry.value cache
      · exact get_pushFront_of_ne hother now entry.value cache

/-- A new entry takes no other value away. -/
theorem get_pushFront_iff {other : κ} {held : ν} (habsent : cache.get key = none)
    (hne : held ≠ value) (now : Int) :
    (cache.pushFront now key value).get other = some held ↔ cache.get other = some held := by
  by_cases hother : other = key
  · rw [hother, get_pushFront_self, habsent]
    exact iff_of_false (fun h => hne (Option.some.inj h).symm) fun h => by cases h
  · rw [get_pushFront_of_ne hother]

/-- A new entry that is filled in and then used is put in front. -/
theorem touch_modify_emplace (h : key ∉ cache.map) (now : Int) (value : ν) (f : ν → ν) :
    ((cache.emplace key value).modify key f).touch now key = cache.pushFront now key (f value) := by
  simp [emplace, if_neg h, modify, touch, pushFront, AList.insert_insert]

theorem emplace_of_mem (h : key ∈ cache.map) (value : ν) : cache.emplace key value = cache :=
  if_pos h

/-! ### How many entries there are -/

theorem length_keys_insert (map : AList fun _ : κ => Entry ν) (key : κ) (entry : Entry ν) :
    (map.insert key entry).keys.length =
      if key ∈ map then map.keys.length else map.keys.length + 1 := by
  rw [AList.keys_insert, List.length_cons]
  split_ifs with hkey
  · have hmem := AList.mem_keys.mp hkey
    rw [List.length_erase_of_mem hmem]
    have := List.length_pos_of_mem hmem
    omega
  · rw [List.erase_of_not_mem fun hmem => hkey (AList.mem_keys.mpr hmem)]

theorem size_pushFront (h : key ∉ cache.map) (now : Int) (value : ν) :
    (cache.pushFront now key value).size = cache.size + 1 := by
  rw [size, pushFront, length_keys_insert, if_neg h, size]

theorem size_refresh (now : Int) (key : κ) (cache : LruCache κ ν) :
    (cache.refresh now key).size = cache.size := by
  rw [refresh]
  cases hentry : cache.map.lookup key with
  | none => rfl
  | some entry =>
    have hmem : key ∈ cache.map := AList.lookup_isSome.mp (by rw [hentry]; rfl)
    simp only [size, length_keys_insert, if_pos hmem]

theorem size_modify (key : κ) (f : ν → ν) (cache : LruCache κ ν) :
    (cache.modify key f).size = cache.size := by
  rw [modify]
  cases hentry : cache.map.lookup key with
  | none => rfl
  | some entry =>
    have hmem : key ∈ cache.map := AList.lookup_isSome.mp (by rw [hentry]; rfl)
    simp only [size, length_keys_insert, if_pos hmem]

theorem size_touch (now : Int) (key : κ) (cache : LruCache κ ν) :
    (cache.touch now key).size = cache.size := by
  rw [touch]
  cases hentry : cache.map.lookup key with
  | none => rfl
  | some entry =>
    have hmem : key ∈ cache.map := AList.lookup_isSome.mp (by rw [hentry]; rfl)
    cases hlink : entry.link with
    | some it => simpa only [hlink] using size_refresh now key cache
    | none => simp only [hlink, size, pushFront, length_keys_insert, if_pos hmem]

namespace Linked

/-- Elements with one key are the same. -/
theorem eq_of_key (h : Linked clock cache) {node node' : Node κ} (hnode : node ∈ cache.order)
    (hnode' : node' ∈ cache.order) (hkey : node.key = node'.key) : node = node' :=
  List.inj_on_of_nodup_map h.nodup hnode hnode' hkey

theorem eq_of_address (h : Linked clock cache) {node node' : Node κ} (hnode : node ∈ cache.order)
    (hnode' : node' ∈ cache.order) (haddress : node.address = node'.address) : node = node' :=
  List.inj_on_of_nodup_map h.addresses hnode hnode' haddress

theorem later (h : Linked clock cache) (hnow : clock ≤ now) : Linked now cache :=
  { h with past := fun key entry hentry => Int.le_trans (h.past key entry hentry) hnow }

/-- The list is as long as the map. -/
theorem length_order (h : Linked clock cache) : cache.order.length = cache.size := by
  have hperm : (cache.order.map Node.key).Perm cache.map.keys :=
    (List.perm_ext_iff_of_nodup h.nodup cache.map.keys_nodup).mpr fun key =>
      (h.keys key).trans AList.mem_keys
  rw [← List.length_map (f := Node.key), hperm.length_eq, size]

/-- A cache stays linked if an entry is used now and its element is put in front of the
elements of all others. -/
theorem inFront (h : Linked clock cache) (hnow : clock ≤ now) {it fresh : Nat}
    {rest : List (Node κ)} (hrest : rest.Sublist cache.order)
    (hothers : ∀ node ∈ cache.order, node ∈ rest ↔ node.key ≠ key)
    (hit : it ∉ rest.map Node.address) (hlt : it < fresh) (hfresh : cache.fresh ≤ fresh) :
    Linked now
      { map := cache.map.insert key { value, lastUsed := now, link := some it }
        order := { address := it, key } :: rest
        fresh } where
  nodup := by
    refine List.nodup_cons.mpr ⟨?_, h.nodup.sublist (hrest.map _)⟩
    intro hmem
    obtain ⟨node, hnode, hkey⟩ := List.mem_map.mp hmem
    exact (hothers node (hrest.subset hnode)).mp hnode hkey
  keys other := by
    rw [List.map_cons, List.mem_cons, AList.mem_insert, ← h.keys other]
    refine or_congr_right' fun hne => ?_
    constructor
    · exact fun hmem => (hrest.map _).subset hmem
    · intro hmem
      obtain ⟨node, hnode, rfl⟩ := List.mem_map.mp hmem
      exact List.mem_map_of_mem ((hothers node hnode).mpr hne)
  addresses := List.nodup_cons.mpr ⟨hit, h.addresses.sublist (hrest.map _)⟩
  fresh node hmem := by
    rcases List.mem_cons.mp hmem with rfl | hold
    · exact hlt
    · exact Nat.lt_of_lt_of_le (h.fresh node (hrest.subset hold)) hfresh
  designates other entry hentry := by
    by_cases hother : other = key
    · subst hother
      rw [AList.lookup_insert] at hentry
      obtain rfl := Option.some.inj hentry
      exact ⟨it, rfl, List.mem_cons_self⟩
    · rw [AList.lookup_insert_ne hother] at hentry
      obtain ⟨it', hlink, hmem⟩ := h.designates other entry hentry
      exact ⟨it', hlink, List.mem_cons_of_mem _ ((hothers _ hmem).mpr hother)⟩
  recent := by
    have hne : ∀ node ∈ rest, node.key ≠ key := fun node hnode =>
      (hothers node (hrest.subset hnode)).mp hnode
    refine List.pairwise_cons.mpr ⟨?_, ?_⟩
    · intro node hnode entry entry' hentry hentry'
      rw [AList.lookup_insert] at hentry
      rw [AList.lookup_insert_ne (hne node hnode)] at hentry'
      obtain rfl := Option.some.inj hentry
      exact Int.le_trans (h.past node.key entry' hentry') hnow
    · refine (h.recent.sublist hrest).imp_of_mem fun {newer older} hnewer holder hle => ?_
      rwa [AList.lookup_insert_ne (hne newer hnewer), AList.lookup_insert_ne (hne older holder)]
  past other entry hentry := by
    by_cases hother : other = key
    · subst hother
      rw [AList.lookup_insert] at hentry
      obtain rfl := Option.some.inj hentry
      exact Int.le_refl now
    · rw [AList.lookup_insert_ne hother] at hentry
      exact Int.le_trans (h.past other entry hentry) hnow

theorem pushFront (h : Linked clock cache) (hnow : clock ≤ now) (habsent : key ∉ cache.map) :
    Linked now (cache.pushFront now key value) := by
  apply h.inFront hnow (List.Sublist.refl _) _ _ (Nat.lt_succ_self _) (Nat.le_succ _)
  · intro node hnode
    refine iff_of_true hnode fun heq => habsent ?_
    exact (h.keys key).mp (List.mem_map.mpr ⟨node, hnode, heq⟩)
  · intro hmem
    obtain ⟨node, hnode, haddress⟩ := List.mem_map.mp hmem
    exact absurd haddress (Nat.ne_of_lt (h.fresh node hnode))

/-- The element of a linked entry is moved to the front and no other is. -/
theorem toFront_eq (h : Linked clock cache) {it : Nat}
    (hmem : { address := it, key } ∈ cache.order) :
    toFront it cache.order =
      { address := it, key } :: cache.order.filter fun node => node.address ≠ it := by
  have hone : cache.order.filter (fun node => node.address = it) = [{ address := it, key }] := by
    have heq : cache.order.filter (fun node => node.address = it) =
        cache.order.filter (fun node => node = { address := it, key }) := by
      refine List.filter_congr fun node hnode => decide_eq_decide.mpr ⟨fun haddress => ?_, ?_⟩
      · exact h.eq_of_address hnode hmem haddress
      · rintro rfl
        rfl
    rw [heq, List.filter_eq, List.count_eq_one_of_mem (List.Nodup.of_map _ h.nodup) hmem,
      List.replicate_one]
  rw [toFront, hone, List.singleton_append]

theorem refresh (h : Linked clock cache) (hnow : clock ≤ now) :
    Linked now (cache.refresh now key) := by
  rw [LruCache.refresh]
  cases hentry : cache.map.lookup key with
  | none => exact h.later hnow
  | some entry =>
    obtain ⟨it, hlink, hmem⟩ := h.designates key entry hentry
    obtain ⟨value, lastUsed, link⟩ := entry
    obtain rfl : link = some it := hlink
    simp only [h.toFront_eq hmem]
    apply h.inFront hnow List.filter_sublist _ _ (h.fresh _ hmem) (Nat.le_refl _)
    · intro node hnode
      rw [List.mem_filter, and_iff_right hnode, decide_eq_true_iff]
      refine not_congr ⟨fun haddress => ?_, fun hkey => ?_⟩
      · exact congrArg Node.key (h.eq_of_address hnode hmem haddress)
      · exact congrArg Node.address (h.eq_of_key hnode hmem hkey)
    · intro hin
      obtain ⟨node, hnode, rfl⟩ := List.mem_map.mp hin
      simp at hnode

theorem touch (h : Linked clock cache) (hnow : clock ≤ now) :
    Linked now (cache.touch now key) := by
  rw [LruCache.touch]
  cases hentry : cache.map.lookup key with
  | none => exact h.later hnow
  | some entry =>
    obtain ⟨it, hlink, -⟩ := h.designates key entry hentry
    simp only [hlink]
    exact h.refresh hnow

theorem modify (h : Linked clock cache) (f : ν → ν) : Linked clock (cache.modify key f) := by
  rw [LruCache.modify]
  cases hentry : cache.map.lookup key with
  | none => exact h
  | some entry =>
    -- An entry of the changed map has the iterator and the time of one of the old map.
    have hold : ∀ other changed,
        (cache.map.insert key { entry with value := f entry.value }).lookup other = some changed →
        ∃ old, cache.map.lookup other = some old ∧ changed.link = old.link ∧
          changed.lastUsed = old.lastUsed := by
      intro other changed hchanged
      by_cases hother : other = key
      · subst hother
        rw [AList.lookup_insert] at hchanged
        obtain rfl := Option.some.inj hchanged
        exact ⟨entry, hentry, rfl, rfl⟩
      · rw [AList.lookup_insert_ne hother] at hchanged
        exact ⟨changed, hchanged, rfl, rfl⟩
    refine { h with keys := fun other => ?_, designates := ?_, recent := ?_, past := ?_ }
    · rw [h.keys other, AList.mem_insert, iff_or_self]
      rintro rfl
      exact AList.lookup_isSome.mp (by rw [hentry]; rfl)
    · intro other changed hchanged
      obtain ⟨old, hlookup, hlink, -⟩ := hold other changed hchanged
      rw [hlink]
      exact h.designates other old hlookup
    · refine h.recent.imp fun {newer older} hle changed changed' hnewer holder => ?_
      obtain ⟨old, hlookup, -, htime⟩ := hold newer.key changed hnewer
      obtain ⟨old', hlookup', -, htime'⟩ := hold older.key changed' holder
      rw [htime, htime']
      exact hle old old' hlookup hlookup'
    · intro other changed hchanged
      obtain ⟨old, hlookup, -, htime⟩ := hold other changed hchanged
      rw [htime]
      exact h.past other old hlookup

/-- An entry is created unless it is there, filled in, and used. -/
theorem emplaced (h : Linked clock cache) (hnow : clock ≤ now) (value : ν) (f : ν → ν) :
    Linked now (((cache.emplace key value).modify key f).touch now key) := by
  by_cases hkey : key ∈ cache.map
  · rw [emplace_of_mem hkey]
    exact (h.modify f).touch hnow
  · rw [touch_modify_emplace hkey]
    exact h.pushFront hnow hkey

end Linked

theorem size_emplaced (now : Int) (key : κ) (value : ν) (f : ν → ν) (cache : LruCache κ ν) :
    (((cache.emplace key value).modify key f).touch now key).size =
      if key ∈ cache.map then cache.size else cache.size + 1 := by
  split_ifs with hkey
  · rw [emplace_of_mem hkey, size_touch, size_modify]
  · rw [touch_modify_emplace hkey, size_pushFront hkey]

/-! ### Evictions -/

/-- Remove entries and their elements. -/
def without (keys : List κ) (cache : LruCache κ ν) : LruCache κ ν :=
  { cache with
    map := keys.foldl (fun map key => map.erase key) cache.map
    order := cache.order.filter fun node => node.key ∉ keys }

theorem lookup_foldl_erase (keys : List κ) (map : AList fun _ : κ => Entry ν) (key : κ) :
    (keys.foldl (fun map key => map.erase key) map).lookup key =
      if key ∈ keys then none else map.lookup key := by
  induction keys generalizing map with
  | nil => simp
  | cons first keys ih =>
    rw [List.foldl_cons, ih (map.erase first)]
    by_cases hfirst : key = first
    · subst hfirst
      simp
    · simp [hfirst, AList.lookup_erase_ne hfirst]

/-- The entries of elements whose keys are in the map. -/
theorem items_cons {map : AList fun _ : κ => Entry ν} {node : Node κ} {entry : Entry ν}
    (h : map.lookup node.key = some entry) (order : List (Node κ)) :
    items map (node :: order) = (node.key, entry) :: items map order := by
  simp [items, h]

theorem items_append (map : AList fun _ : κ => Entry ν) (order order' : List (Node κ)) :
    items map (order ++ order') = items map order ++ items map order' :=
  List.filterMap_append

theorem mem_items {map : AList fun _ : κ => Entry ν} {order : List (Node κ)}
    {x : κ × Entry ν} :
    x ∈ items map order ↔ x.1 ∈ order.map Node.key ∧ map.lookup x.1 = some x.2 := by
  obtain ⟨key, entry⟩ := x
  simp only [items, List.mem_filterMap, Option.map_eq_some_iff, List.mem_map, Prod.mk.injEq]
  constructor
  · rintro ⟨node, hnode, entry', hentry, rfl, rfl⟩
    exact ⟨⟨node, hnode, rfl⟩, hentry⟩
  · rintro ⟨⟨node, hnode, rfl⟩, hentry⟩
    exact ⟨node, hnode, entry, hentry, rfl, rfl⟩

theorem items_keys {map : AList fun _ : κ => Entry ν} {order : List (Node κ)}
    (h : ∀ node ∈ order, node.key ∈ map) : (items map order).map Prod.fst = order.map Node.key := by
  induction order with
  | nil => rfl
  | cons node order ih =>
    obtain ⟨entry, hentry⟩ :=
      Option.isSome_iff_exists.mp (AList.lookup_isSome.mpr (h node List.mem_cons_self))
    rw [items_cons hentry, List.map_cons, List.map_cons,
      ih fun node' hnode' => h node' (List.mem_cons_of_mem _ hnode')]

theorem items_reverse (map : AList fun _ : κ => Entry ν) (order : List (Node κ)) :
    items map order.reverse = (items map order).reverse := List.filterMap_reverse

theorem items_erase {map : AList fun _ : κ => Entry ν} {order : List (Node κ)}
    (h : key ∉ order.map Node.key) : items (map.erase key) order = items map order := by
  refine List.filterMap_congr fun node hnode => ?_
  have hne : node.key ≠ key := fun heq => h (List.mem_map.mpr ⟨node, hnode, heq⟩)
  rw [AList.lookup_erase_ne hne]

/-- The loop removes what the pass through the entries removes. -/
theorem sweep_eq {map : AList fun _ : κ => Entry ν} {ahead : List (Node κ)}
    (hmem : ∀ node ∈ ahead, node.key ∈ map) (hnodup : (ahead.map Node.key).Nodup)
    (passed : List (Node κ)) {removed : List (κ × Entry ν)}
    (hremoved : rule.pass map.keys.length (items map ahead) = removed) :
    sweep rule map passed ahead =
      { map := (removed.map Prod.fst).foldl (fun map key => map.erase key) map
        order := (ahead.filter fun node => node.key ∉ removed.map Prod.fst).reverse ++ passed
        removed } := by
  induction ahead generalizing map passed removed with
  | nil =>
    obtain rfl : [] = removed := hremoved
    rfl
  | cons node ahead ih =>
    obtain ⟨hfirst, hrest⟩ := List.nodup_cons.mp hnodup
    have hmem' : ∀ node' ∈ ahead, node'.key ∈ map := fun node' hnode' =>
      hmem node' (List.mem_cons_of_mem _ hnode')
    have hne : ∀ node' ∈ ahead, node'.key ≠ node.key := fun node' hnode' heq =>
      hfirst (List.mem_map.mpr ⟨node', hnode', heq⟩)
    have hin : node.key ∈ map := hmem node List.mem_cons_self
    obtain ⟨entry, hentry⟩ := Option.isSome_iff_exists.mp (AList.lookup_isSome.mpr hin)
    rw [items_cons hentry] at hremoved
    simp only [sweep, hentry]
    by_cases hremoves : rule.removes map.keys.length (node.key, entry) = true
    · rw [EvictionRule.pass_cons_of_removes hremoves] at hremoved
      subst hremoved
      have hlength : (map.erase node.key).keys.length = map.keys.length - 1 := by
        rw [AList.keys_erase, List.length_erase_of_mem (AList.mem_keys.mp hin)]
      have herased : ∀ node' ∈ ahead, node'.key ∈ map.erase node.key := fun node' hnode' =>
        AList.mem_erase.mpr ⟨hne node' hnode', hmem' node' hnode'⟩
      have hmore := ih herased hrest passed rfl
      rw [items_erase hfirst, hlength] at hmore
      rw [if_pos hremoves, hmore]
      simp only [List.map_cons, List.foldl_cons, Swept.mk.injEq, true_and, and_true]
      rw [List.filter_cons_of_neg (by simp)]
      congr 2
      refine List.filter_congr fun node' hnode' => ?_
      simp [hne node' hnode']
    rw [if_neg hremoves]
    rw [Bool.not_eq_true] at hremoves
    by_cases hstop : rule.stops map.keys.length = true
    · rw [EvictionRule.pass_cons_of_stops hremoves hstop] at hremoved
      subst hremoved
      rw [if_pos hstop]
      simp
    · rw [EvictionRule.pass_cons_of_goes_on hremoves (Bool.eq_false_iff.mpr hstop)] at hremoved
      have hkept : node.key ∉ removed.map Prod.fst := by
        intro hin'
        obtain ⟨x, hx, hkey⟩ := List.mem_map.mp hin'
        have hxmem := (EvictionRule.pass_sublist _ _).subset (hremoved ▸ hx)
        exact hfirst (hkey ▸ (mem_items.mp hxmem).1)
      rw [if_neg hstop, ih hmem' hrest (node :: passed) hremoved,
        List.filter_cons_of_pos (by simpa using hkept), List.reverse_cons, List.append_assoc,
        List.singleton_append]

namespace Linked

theorem mem_map (h : Linked clock cache) {node : Node κ} (hnode : node ∈ cache.order) :
    node.key ∈ cache.map := (h.keys node.key).mp (List.mem_map_of_mem hnode)

theorem without (h : Linked clock cache) (removed : List κ) :
    Linked clock (cache.without removed) := by
  have hsub : (cache.without removed).order.Sublist cache.order := List.filter_sublist
  have hlookup : ∀ key entry, (cache.without removed).map.lookup key = some entry →
      key ∉ removed ∧ cache.map.lookup key = some entry := by
    intro key entry hentry
    rw [LruCache.without, lookup_foldl_erase] at hentry
    split_ifs at hentry with hkey
    exact ⟨hkey, hentry⟩
  refine ⟨h.nodup.sublist (hsub.map _), ?_, h.addresses.sublist (hsub.map _),
    fun node hnode => h.fresh node (hsub.subset hnode), ?_, ?_,
    fun key entry hentry => h.past key entry (hlookup key entry hentry).2⟩
  · intro key
    rw [← AList.lookup_isSome, LruCache.without, lookup_foldl_erase]
    constructor
    · intro hmem
      obtain ⟨node, hnode, rfl⟩ := List.mem_map.mp hmem
      obtain ⟨hold, hkey⟩ := List.mem_filter.mp hnode
      rw [if_neg (of_decide_eq_true hkey), AList.lookup_isSome]
      exact h.mem_map hold
    · intro hsome
      split_ifs at hsome with hkey
      · cases hsome
      · have hold := (h.keys key).mpr (AList.lookup_isSome.mp hsome)
        obtain ⟨node, hnode, rfl⟩ := List.mem_map.mp hold
        exact List.mem_map_of_mem (List.mem_filter.mpr ⟨hnode, decide_eq_true hkey⟩)
  · intro key entry hentry
    obtain ⟨hkey, hold⟩ := hlookup key entry hentry
    obtain ⟨it, hlink, hmem⟩ := h.designates key entry hold
    exact ⟨it, hlink, List.mem_filter.mpr ⟨hmem, decide_eq_true hkey⟩⟩
  · refine (h.recent.sublist hsub).imp fun {newer older} hle entry entry' hentry hentry' => ?_
    exact hle entry entry' (hlookup _ _ hentry).2 (hlookup _ _ hentry').2

/-- The entries in the order of a pass, the least recently used first. -/
theorem keys_items (h : Linked clock cache) :
    (items cache.map cache.order.reverse).map Prod.fst = cache.order.reverse.map Node.key :=
  items_keys fun _ hnode => h.mem_map (List.mem_reverse.mp hnode)

/-- An eviction of a linked cache removes what the pass through its entries removes. -/
theorem evict_eq (h : Linked clock cache) {removed : List (κ × Entry ν)}
    (hremoved : rule.pass cache.size (items cache.map cache.order.reverse) = removed) :
    cache.evict rule = (cache.without (removed.map Prod.fst), removed) := by
  have hnodup : (cache.order.reverse.map Node.key).Nodup := by
    rw [List.map_reverse, List.nodup_reverse]
    exact h.nodup
  have hsweep := sweep_eq (fun node hnode => h.mem_map (List.mem_reverse.mp hnode)) hnodup []
    hremoved
  rw [LruCache.evict, hsweep, LruCache.without]
  simp only [List.append_nil, ← List.filter_reverse, List.reverse_reverse]

theorem evict (h : Linked clock cache) : Linked clock (cache.evict rule).1 := by
  rw [h.evict_eq rfl]
  exact h.without _

/-- Entries that were used less recently come first in a pass. -/
theorem orderly (h : Linked clock cache)
    (hage : ∀ {x y}, y.2.lastUsed ≤ x.2.lastUsed → rule.expired x = true → rule.expired y = true) :
    rule.Orderly (items cache.map cache.order.reverse) := by
  refine List.pairwise_filterMap.mpr (List.pairwise_reverse.mpr (h.recent.imp ?_))
  intro newer older hle y hy x hx hexpired
  obtain ⟨entry', hentry', rfl⟩ := Option.map_eq_some_iff.mp hy
  obtain ⟨entry, hentry, rfl⟩ := Option.map_eq_some_iff.mp hx
  exact hage (hle entry entry' hentry hentry') hexpired

theorem nodup_items (h : Linked clock cache) :
    (items cache.map cache.order.reverse).Nodup := by
  apply List.Nodup.of_map Prod.fst
  rw [h.keys_items, List.map_reverse, List.nodup_reverse]
  exact h.nodup

/-- What an eviction of a linked cache does, if entries expire in the order of their use. -/
theorem evicts (h : Linked clock cache)
    (hage : ∀ {x y}, y.2.lastUsed ≤ x.2.lastUsed → rule.expired x = true → rule.expired y = true) :
    Evicts rule cache (cache.evict rule).1 (cache.evict rule).2 := by
  have hsub : (rule.pass cache.size (items cache.map cache.order.reverse)).Sublist _ :=
    EvictionRule.pass_sublist _ _
  rw [h.evict_eq rfl]
  refine ⟨?_, fun x hx => (mem_items.mp (hsub.subset hx)).2, ?_, ?_, rfl, fun key => ?_⟩
  · rw [← List.map_reverse, ← h.keys_items]
    exact hsub.map _
  · intro before x after hsplit
    exact EvictionRule.of_pass_split hsplit
  · have hfair := EvictionRule.idle_before_mem_pass (n := cache.size) (h.orderly hage) h.nodup_items
    refine (List.pairwise_reverse.mp (List.pairwise_filterMap.mp hfair)).imp ?_
    intro newer older himp hnewer entry hentry hidle
    obtain ⟨x, hx, hkey⟩ := List.mem_map.mp hnewer
    have hx' : cache.map.lookup newer.key = some x.2 := hkey ▸ (mem_items.mp (hsub.subset hx)).2
    have hremoved := himp (older.key, entry) (by rw [hentry]; rfl) x
      (by rw [hx', ← hkey]; rfl) hx hidle
    exact List.mem_map_of_mem hremoved
  · rw [LruCache.without, lookup_foldl_erase]

/-- An entry holds after an eviction what it has held before, unless it is removed. -/
theorem get_evict (h : Linked clock cache) (key : κ) :
    (cache.evict rule).1.get key =
      if key ∈ (cache.evict rule).2.map Prod.fst then none else cache.get key := by
  rw [h.evict_eq rfl, get, LruCache.without, lookup_foldl_erase, apply_ite (Option.map Entry.value),
    Option.map_none, get]

/-- What an eviction removes has been in the cache. -/
theorem get_of_mem_removed (h : Linked clock cache) {x : κ × Entry ν}
    (hx : x ∈ (cache.evict rule).2) : cache.map.lookup x.1 = some x.2 := by
  rw [h.evict_eq rfl] at hx
  exact (mem_items.mp ((EvictionRule.pass_sublist _ _).subset hx)).2

/-- The entry with a key is removed by an eviction if it is due, said of the entries that
were used less recently. -/
theorem mem_removed_iff (h : Linked clock cache)
    (hage : ∀ {x y}, y.2.lastUsed ≤ x.2.lastUsed → rule.expired x = true → rule.expired y = true)
    {newer older : List (Node κ)} {node : Node κ} (horder : cache.order = newer ++ node :: older)
    {entry : Entry ν} (hentry : cache.map.lookup node.key = some entry) :
    node.key ∈ (cache.evict rule).2.map Prod.fst ↔
      rule.Due cache.size (items cache.map older.reverse) (node.key, entry) := by
  have hitems : items cache.map cache.order.reverse =
      items cache.map older.reverse ++ (node.key, entry) :: items cache.map newer.reverse := by
    rw [horder, List.reverse_append, List.reverse_cons, List.append_assoc, items_append,
      List.singleton_append, items_cons hentry]
  have hnodup := h.nodup_items
  have horderly := h.orderly hage
  have hmem : node.key ∈ (cache.evict rule).2.map Prod.fst ↔
      (node.key, entry) ∈ rule.pass cache.size (items cache.map cache.order.reverse) := by
    rw [h.evict_eq rfl]
    constructor
    · intro hin
      obtain ⟨x, hx, hkey⟩ := List.mem_map.mp hin
      have hlookup := (mem_items.mp ((EvictionRule.pass_sublist _ _).subset hx)).2
      rw [hkey, hentry] at hlookup
      obtain rfl := Option.some.inj hlookup
      rwa [← hkey]
    · exact fun hin => List.mem_map_of_mem hin
  rw [hmem]
  rw [hitems] at hnodup horderly ⊢
  exact EvictionRule.mem_pass_iff horderly hnodup

/-- The same said of the key: wherever it is in the list, its entry is due there. -/
theorem key_mem_removed_iff (h : Linked clock cache)
    (hage : ∀ {x y}, y.2.lastUsed ≤ x.2.lastUsed → rule.expired x = true → rule.expired y = true)
    {entry : Entry ν} (hentry : cache.map.lookup key = some entry) :
    key ∈ (cache.evict rule).2.map Prod.fst ↔
      ∃ newer node older, cache.order = newer ++ node :: older ∧ node.key = key ∧
        rule.Due cache.size (items cache.map older.reverse) (key, entry) := by
  constructor
  · intro hremoved
    have hkey : key ∈ cache.order.map Node.key :=
      (h.keys key).mpr (AList.lookup_isSome.mp (by rw [hentry]; rfl))
    obtain ⟨node, hnode, rfl⟩ := List.mem_map.mp hkey
    obtain ⟨newer, older, horder⟩ := List.append_of_mem hnode
    exact ⟨newer, node, older, horder, rfl, (h.mem_removed_iff hage horder hentry).mp hremoved⟩
  · rintro ⟨newer, node, older, horder, rfl, hdue⟩
    exact (h.mem_removed_iff hage horder hentry).mpr hdue

/-- An eviction removes an entry for every key it returns. -/
theorem size_evict (h : Linked clock cache) :
    (cache.evict rule).1.size = cache.size -
      (rule.pass cache.size (items cache.map cache.order.reverse)).length := by
  have hsub : (rule.pass cache.size (items cache.map cache.order.reverse)).Sublist _ :=
    EvictionRule.pass_sublist _ _
  have herase : ∀ (keys : List κ) (map : AList fun _ : κ => Entry ν), keys.Nodup →
      (∀ key ∈ keys, key ∈ map) →
      (keys.foldl (fun map key => map.erase key) map).keys.length =
        map.keys.length - keys.length := by
    intro keys
    induction keys with
    | nil => exact fun map _ _ => rfl
    | cons first keys ih =>
      intro map hnodup hmem
      obtain ⟨hfirst, hrest⟩ := List.nodup_cons.mp hnodup
      have hin : first ∈ map.keys := AList.mem_keys.mp (hmem first List.mem_cons_self)
      rw [List.foldl_cons, ih (map.erase first) hrest, AList.keys_erase,
        List.length_erase_of_mem hin, List.length_cons]
      · omega
      · intro key hkey
        refine AList.mem_erase.mpr ⟨fun heq => hfirst (heq ▸ hkey), ?_⟩
        exact hmem key (List.mem_cons_of_mem first hkey)
  rw [h.evict_eq rfl, size, LruCache.without, herase, List.length_map, size]
  · apply List.Nodup.sublist (hsub.map Prod.fst)
    rw [h.keys_items, List.map_reverse, List.nodup_reverse]
    exact h.nodup
  · intro key hkey
    obtain ⟨x, hx, rfl⟩ := List.mem_map.mp hkey
    exact AList.lookup_isSome.mp (by rw [(mem_items.mp (hsub.subset hx)).2]; rfl)

theorem size_evict_le (h : Linked clock cache) : (cache.evict rule).1.size ≤ cache.size := by
  rw [h.size_evict]
  exact Nat.sub_le _ _

/-- If an eviction removes an entry that was there, fewer are left. -/
theorem size_evict_lt (h : Linked clock cache) (hkey : key ∈ cache.map)
    (hgone : key ∉ (cache.evict rule).1.map) : (cache.evict rule).1.size < cache.size := by
  have hget : (cache.evict rule).1.get key = _ := h.get_evict key
  rw [get_eq_none.mpr hgone] at hget
  split_ifs at hget with hremoved
  · obtain ⟨x, hx, -⟩ := List.mem_map.mp hremoved
    rw [h.evict_eq rfl] at hx
    have hpos : 0 < (rule.pass cache.size (items cache.map cache.order.reverse)).length :=
      List.length_pos_of_mem hx
    have hsize : 0 < cache.size := List.length_pos_of_mem (AList.mem_keys.mp hkey)
    rw [h.size_evict]
    omega
  · exact absurd hkey (get_eq_none.mp hget.symm)

theorem length_items (h : Linked clock cache) :
    (items cache.map cache.order.reverse).length = cache.size := by
  have hkeys := congrArg List.length h.keys_items
  rwa [List.length_map, List.length_map, List.length_reverse, h.length_order] at hkeys

/-- If every entry is idle, an eviction brings the cache within its limit. -/
theorem within_evict (h : Linked clock cache) (hzero : rule.exceeds 0 = false)
    (hidle : ∀ x ∈ items cache.map cache.order, rule.idle x = true) :
    rule.exceeds (cache.evict rule).1.size = false := by
  rw [h.size_evict]
  apply EvictionRule.within_of_idle
  · intro x hx
    rw [items_reverse, List.mem_reverse] at hx
    exact hidle x hx
  · rw [h.length_items, Nat.sub_self]
    exact hzero

/-- If the cache is within its limit and every entry is idle, an eviction leaves what has not
expired. -/
theorem size_evict_of_within (h : Linked clock cache)
    (hage : ∀ {x y}, y.2.lastUsed ≤ x.2.lastUsed → rule.expired x = true → rule.expired y = true)
    (hidle : ∀ x ∈ items cache.map cache.order, rule.idle x = true)
    (hwithin : rule.exceeds cache.size = false) :
    (cache.evict rule).1.size = cache.unexpired rule := by
  have hpass := EvictionRule.pass_of_within (h.orderly hage) (fun x hx => by
    rw [items_reverse, List.mem_reverse] at hx
    exact hidle x hx) hwithin
  have hsum : (items cache.map cache.order.reverse).length = _ :=
    List.length_eq_countP_add_countP rule.expired
  rw [h.size_evict, hpass, ← List.countP_eq_length_filter, ← h.length_items, hsum, unexpired,
    items_reverse, List.countP_reverse, List.countP_reverse, Nat.add_sub_cancel_left]
  exact List.countP_congr fun x _ => by simp

end Linked

end LruCache

end HttpClient.Semantics
