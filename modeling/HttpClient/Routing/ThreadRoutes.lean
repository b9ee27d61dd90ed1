import Mathlib.Data.List.Forall2
import HttpClient.Semantics.SlotRing
import HttpClient.Routing.Route
import HttpClient.Routing.RouteCache

/-!
# The routes of a thread

All clients that a thread serves share one ring of 64 slots, in which a route of an origin is
kept for the client and the URL that asked for it. A route is stored at the cursor, and no slot
that has a route for the same client and URL is looked for. A lookup goes through the slots in
their order and stops at the first route for the client and the URL: it removes that route if
it is of another generation or has not been used for too long, and returns it otherwise.

## Main definitions

* `ThreadRoutes.lookup`, `ThreadRoutes.store` — the operations
* `RouteTrace` — the routes after a sequence of calls, with all that has been stored
* `LastWriteWins` — the answer of a map, as far as stores are kept
* `Unshadowed` — which slot is met first, and what for

## Main results

* `lastWriteWins_of_orderly` — lookups are answered as by a map if no route is stored where
  there is one
* `lastWriteWins_iff` — and in general, if nothing hides the last store
* `ThreadRoutes.seen_after` — each client sees a cache of its own
-/

set_option autoImplicit false

namespace HttpClient.Routing

open Text Semantics

/-- `ThreadLocalRouteEntry`; the owner is an address, and `0` the null pointer. -/
structure ThreadLocalRouteEntry where
  owner : Nat := 0
  url : Bytes := []
  origin : Bytes := []
  protocol : CachedRouteProtocol := .unknown
  lastUsed : Int := 0
  generation : Nat := 0
  deriving DecidableEq, Repr

/-- The arguments of `lookup_tls_route`, and the time it reads from the clock. -/
structure RouteQuery where
  owner : Nat
  url : Bytes
  ttl : Int
  generation : Nat
  now : Int
  deriving DecidableEq, Repr

namespace ThreadLocalRouteEntry

/-- Whether the route was stored for the client and the URL. -/
def madeFor (query : RouteQuery) (entry : ThreadLocalRouteEntry) : Bool :=
  entry.owner == query.owner && entry.url == query.url

/-- Whether a lookup stops at the slot. -/
def isFor (query : RouteQuery) (entry : ThreadLocalRouteEntry) : Bool :=
  entry.owner == query.owner && entry.url != [] && entry.url == query.url

/-- Whether a route has not been used for too long; a limit that is not positive is none. -/
def expired (query : RouteQuery) (entry : ThreadLocalRouteEntry) : Bool :=
  decide (0 < query.ttl ∧ query.ttl ≤ query.now - entry.lastUsed)

/-- A route that a lookup returns if it comes to it. -/
def Believed (query : RouteQuery) (entry : ThreadLocalRouteEntry) : Prop :=
  entry.generation = query.generation ∧ entry.expired query = false

instance (query : RouteQuery) (entry : ThreadLocalRouteEntry) : Decidable (entry.Believed query) :=
  inferInstanceAs (Decidable (_ ∧ _))

/-- What a lookup that stops at the slot returns. -/
def answer (query : RouteQuery) (entry : ThreadLocalRouteEntry) :
    Option (Bytes × CachedRouteProtocol) :=
  if entry.Believed query then some (entry.origin, entry.protocol) else none

/-- A route that has been used. -/
def use (now : Int) (entry : ThreadLocalRouteEntry) : ThreadLocalRouteEntry :=
  { entry with lastUsed := now }

/-- What a lookup that stops at the slot leaves in it. -/
def left (query : RouteQuery) (entry : ThreadLocalRouteEntry) : ThreadLocalRouteEntry :=
  if entry.Believed query then entry.use query.now else {}

end ThreadLocalRouteEntry

/-- `tls_route_cache` and `tls_route_cursor`. -/
abbrev ThreadRoutes := SlotRing ThreadLocalRouteEntry

namespace ThreadRoutes

def empty : ThreadRoutes where
  slots := List.replicate 64 {}

/-- The loop of `lookup_tls_route`. -/
def lookupSlots (query : RouteQuery) :
    List ThreadLocalRouteEntry →
      Option (Bytes × CachedRouteProtocol) × List ThreadLocalRouteEntry
  | [] => (none, [])
  | entry :: slots =>
    if entry.isFor query then
      if entry.generation ≠ query.generation ∨ entry.expired query then (none, {} :: slots)
      else (some (entry.origin, entry.protocol), entry.use query.now :: slots)
    else
      let (found, rest) := lookupSlots query slots
      (found, entry :: rest)

/-- `lookup_tls_route`. -/
def lookup (query : RouteQuery) (routes : ThreadRoutes) :
    Option (Bytes × CachedRouteProtocol) × ThreadRoutes :=
  let (found, slots) := lookupSlots query routes.slots
  (found, { routes with slots })

/-- `store_tls_route`. -/
def store (entry : ThreadLocalRouteEntry) (routes : ThreadRoutes) : ThreadRoutes := routes.put entry

end ThreadRoutes

namespace ThreadLocalRouteEntry

/-- What the log keeps of a route that a lookup has come to. -/
def noted (query : RouteQuery) (entry : ThreadLocalRouteEntry) : ThreadLocalRouteEntry :=
  if entry.Believed query then entry.use query.now else entry

end ThreadLocalRouteEntry

/-- The calls on one thread. Of a route that is stored, the time is that of the call. -/
inductive RouteCall where
  | store (entry : ThreadLocalRouteEntry)
  | lookup (query : RouteQuery)
  deriving DecidableEq, Repr

/-- The routes after some calls, and the log of all that has been stored, the latest first. A
route in the log has last been used when it was stored or when a lookup last returned it. -/
structure RouteTrace where
  routes : ThreadRoutes := ThreadRoutes.empty
  log : List ThreadLocalRouteEntry := []

namespace RouteTrace

def step (trace : RouteTrace) : RouteCall → RouteTrace
  | .store entry => ⟨trace.routes.store entry, entry :: trace.log⟩
  | .lookup query =>
    { routes := (trace.routes.lookup query).2
      log :=
        match trace.routes.slots.findIdx? (ThreadLocalRouteEntry.isFor query) with
        | some j => trace.log.modify (trace.routes.ageOf j) (ThreadLocalRouteEntry.noted query)
        | none => trace.log }

/-- The routes of a thread after the calls. -/
def after (calls : List RouteCall) : RouteTrace := calls.foldl step {}

end RouteTrace

/-- The last store for a client and a URL in a log, and the number of stores after it. -/
def latest (query : RouteQuery) :
    List ThreadLocalRouteEntry → Option (Nat × ThreadLocalRouteEntry)
  | [] => none
  | store :: earlier =>
    if store.madeFor query then some (0, store)
    else (latest query earlier).map fun (age, store) => (age + 1, store)

/-- The last store for the client and the URL is believed, and fewer than 64 have followed. -/
def Due (query : RouteQuery) (log : List ThreadLocalRouteEntry) : Prop :=
  ∃ age store, latest query log = some (age, store) ∧ age < 64 ∧ store.Believed query

/-- A lookup returns what was stored last for the client and the URL, and does so as long as
that store is believed and fewer than 64 have followed it. -/
structure LastWriteWins (trace : RouteTrace) (query : RouteQuery) : Prop where
  last : ∀ origin protocol, (trace.routes.lookup query).1 = some (origin, protocol) →
    ∃ age store, latest query trace.log = some (age, store) ∧
      store.origin = origin ∧ store.protocol = protocol
  found : Due query trace.log → (trace.routes.lookup query).1.isSome

/-- The first slot, in the order of the slots, that has a route for the client and the URL. -/
structure First (query : RouteQuery) (slots : List ThreadLocalRouteEntry) (j : Nat)
    (entry : ThreadLocalRouteEntry) : Prop where
  held : slots[j]? = some entry
  isFor : entry.isFor query = true
  earlier : ∀ i < j, ∀ e, slots[i]? = some e → e.isFor query = false

/-- The first slot for the client and the URL holds the last store for them; or an older one
that is believed and says the same; or an older one that is not, where the last one is not due
either. Where there is no such slot, the last store is not due. -/
structure Unshadowed (trace : RouteTrace) (query : RouteQuery) : Prop where
  first : ∀ j entry, First query trace.routes.slots j entry →
    (∃ store, latest query trace.log = some (trace.routes.ageOf j, store)) ∨
    (entry.Believed query ∧ ∃ age store, latest query trace.log = some (age, store) ∧
      store.origin = entry.origin ∧ store.protocol = entry.protocol) ∨
    (¬ entry.Believed query ∧ ¬ Due query trace.log)
  none : (∀ entry ∈ trace.routes.slots, entry.isFor query = false) → ¬ Due query trace.log

/-! ### What a lookup does -/

variable {query : RouteQuery} {entry store : ThreadLocalRouteEntry}
  {slots log : List ThreadLocalRouteEntry} {j age : Nat} {trace : RouteTrace}

namespace ThreadLocalRouteEntry

theorem believed_iff :
    entry.Believed query ↔
      ¬ (entry.generation ≠ query.generation ∨ entry.expired query = true) := by
  rw [Believed, not_or, not_not, Bool.not_eq_true]

theorem answer_of_believed (h : entry.Believed query) :
    entry.answer query = some (entry.origin, entry.protocol) := if_pos h

theorem answer_of_not_believed (h : ¬ entry.Believed query) : entry.answer query = none := if_neg h

theorem madeFor_of_isFor (h : entry.isFor query = true) : entry.madeFor query = true := by
  simp only [isFor, madeFor, Bool.and_eq_true] at h ⊢
  exact ⟨h.1.1, h.2⟩

theorem url_ne_nil_of_isFor (h : entry.isFor query = true) : entry.url ≠ [] := by
  simp only [isFor, Bool.and_eq_true, bne_iff_ne] at h
  exact h.1.2

theorem owner_eq_of_isFor (h : entry.isFor query = true) : entry.owner = query.owner := by
  simp only [isFor, Bool.and_eq_true, beq_iff_eq] at h
  exact h.1.1

@[simp] theorem owner_noted : (entry.noted query).owner = entry.owner := by
  unfold noted
  split <;> rfl

@[simp] theorem generation_noted : (entry.noted query).generation = entry.generation := by
  unfold noted
  split <;> rfl

@[simp] theorem madeFor_noted (other : RouteQuery) :
    (entry.noted other).madeFor query = entry.madeFor query := by
  unfold noted
  split <;> rfl

end ThreadLocalRouteEntry

open ThreadLocalRouteEntry

/-- Where no slot is for the client and the URL, a lookup returns and changes nothing. -/
theorem lookupSlots_none (h : ∀ entry ∈ slots, entry.isFor query = false) :
    ThreadRoutes.lookupSlots query slots = (none, slots) := by
  induction slots with
  | nil => rfl
  | cons entry slots ih =>
    have hhead : entry.isFor query = false := h entry List.mem_cons_self
    have hrest := ih fun e he => h e (List.mem_cons_of_mem _ he)
    rw [ThreadRoutes.lookupSlots, hhead, hrest]
    rfl

/-- A lookup stops at the first slot for the client and the URL. -/
theorem lookupSlots_first (h : First query slots j entry) :
    ThreadRoutes.lookupSlots query slots =
      (entry.answer query, slots.set j (entry.left query)) := by
  induction slots generalizing j with
  | nil => cases h.held
  | cons head slots ih =>
    cases j with
    | zero =>
      obtain rfl := Option.some.inj h.held
      rw [ThreadRoutes.lookupSlots, if_pos h.isFor]
      by_cases hbelieved : head.Believed query
      · rw [if_neg (believed_iff.mp hbelieved), answer_of_believed hbelieved, left,
          if_pos hbelieved]
        rfl
      · rw [if_pos (not_not.mp (mt believed_iff.mpr hbelieved)), answer_of_not_believed hbelieved,
          left, if_neg hbelieved]
        rfl
    | succ j =>
      have hhead : head.isFor query = false := h.earlier 0 (Nat.succ_pos j) head rfl
      have hrest : First query slots j entry :=
        ⟨h.held, h.isFor, fun i hi e he => h.earlier (i + 1) (Nat.succ_lt_succ hi) e he⟩
      rw [ThreadRoutes.lookupSlots, hhead, ih hrest]
      rfl

theorem first_or_none (query : RouteQuery) (slots : List ThreadLocalRouteEntry) :
    (∃ j entry, First query slots j entry) ∨ ∀ entry ∈ slots, entry.isFor query = false := by
  cases hfind : slots.findIdx? (isFor query) with
  | none => exact .inr (List.findIdx?_eq_none_iff.mp hfind)
  | some j =>
    obtain ⟨hlt, hfor, hearlier⟩ := List.findIdx?_eq_some_iff_getElem.mp hfind
    refine .inl ⟨j, slots[j], List.getElem?_eq_getElem hlt, hfor, fun i hi e he => ?_⟩
    obtain ⟨hlt', rfl⟩ := List.getElem?_eq_some_iff.mp he
    exact Bool.not_eq_true _ ▸ hearlier i hi

theorem First.findIdx (h : First query slots j entry) :
    slots.findIdx? (ThreadLocalRouteEntry.isFor query) = some j := by
  obtain ⟨hlt, rfl⟩ := List.getElem?_eq_some_iff.mp h.held
  refine List.findIdx?_eq_some_iff_getElem.mpr ⟨hlt, h.isFor, fun i hi => ?_⟩
  rw [Bool.not_eq_true]
  exact h.earlier i hi _ (List.getElem?_eq_getElem (hi.trans hlt))

theorem First.unique {j' : Nat} {entry' : ThreadLocalRouteEntry} (h : First query slots j entry)
    (h' : First query slots j' entry') : j' = j ∧ entry' = entry := by
  obtain rfl : j' = j := Option.some.inj (h'.findIdx.symm.trans h.findIdx)
  exact ⟨rfl, Option.some.inj (h'.held.symm.trans h.held)⟩

theorem First.not_none (h : First query slots j entry) :
    ¬ ∀ entry ∈ slots, entry.isFor query = false := fun hnone => by
  have hfor := hnone entry (List.mem_of_getElem? h.held)
  rw [h.isFor] at hfor
  cases hfor

namespace ThreadRoutes

variable {routes : ThreadRoutes}

theorem lookup_none (h : ∀ entry ∈ routes.slots, entry.isFor query = false) :
    routes.lookup query = (none, routes) := by
  rw [lookup, lookupSlots_none h]

theorem lookup_first (h : First query routes.slots j entry) :
    routes.lookup query = (entry.answer query, routes.setSlot j (entry.left query)) := by
  rw [lookup, lookupSlots_first h]
  rfl

end ThreadRoutes

/-! ### What one client sees -/

/-- The protocol that is stored for a verdict. -/
def Verdict.protocol : Verdict → CachedRouteProtocol
  | .h1Only => .h1Only
  | .downgraded => .h1Only
  | .h2Available => .h2Available

namespace ThreadRoutes

/-- A slot as a client sees it: as an empty one, unless it has a route of the client. -/
inductive SeenSlot (owner : Nat) : ThreadLocalRouteEntry → Option RouteEntry → Prop
  | other {entry : ThreadLocalRouteEntry} (h : entry.owner ≠ owner ∨ entry.url = []) :
      SeenSlot owner entry none
  | own (route : RouteEntry) (origin : Bytes) :
      SeenSlot owner ⟨owner, route.url, origin, route.verdict.protocol, route.lastUsed,
        route.generation⟩ (some route)

/-- The routes of a thread as one client sees them. -/
structure Seen (owner : Nat) (routes : ThreadRoutes) (cache : RouteCache) : Prop where
  slots : List.Forall₂ (SeenSlot owner) routes.slots cache.slots
  cursor : routes.cursor = cache.cursor

variable {owner : Nat} {routes : ThreadRoutes} {cache : RouteCache}

theorem seen_empty : Seen owner empty {} where
  slots := by
    refine List.forall₂_iff_get.mpr ⟨rfl, fun i hi hi' => ?_⟩
    simp only [empty, List.get_eq_getElem, List.getElem_replicate]
    exact .other (.inr rfl)
  cursor := rfl

/-- A slot that is like an empty one for the client is passed over. -/
theorem lookupSlots_other {slot : ThreadLocalRouteEntry} (h : slot.isFor query = false) :
    lookupSlots query (slot :: slots) =
      ((lookupSlots query slots).1, slot :: (lookupSlots query slots).2) := by
  rw [lookupSlots, h]
  rfl

theorem isFor_eq_false (h : entry.owner ≠ query.owner ∨ entry.url = []) :
    entry.isFor query = false := by
  rcases h with howner | hurl
  · simp [isFor, howner]
  · simp [isFor, hurl]

/-- A client looks up a URL in the routes that it sees. -/
theorem lookupSlots_seen {seen : List (Option RouteEntry)}
    (h : List.Forall₂ (SeenSlot query.owner) slots seen) :
    (lookupSlots query slots).1.map Prod.snd =
        (RouteCache.lookupSlots query.ttl query.generation query.now query.url seen).1.map
          Verdict.protocol ∧
      List.Forall₂ (SeenSlot query.owner) (lookupSlots query slots).2
        (RouteCache.lookupSlots query.ttl query.generation query.now query.url seen).2 := by
  induction h with
  | nil => exact ⟨rfl, .nil⟩
  | cons hslot hrest ih =>
    cases hslot with
    | other hother =>
      rw [lookupSlots_other (isFor_eq_false hother), RouteCache.lookupSlots]
      exact ⟨ih.1, .cons (.other hother) ih.2⟩
    | own route origin =>
      rw [lookupSlots, RouteCache.lookupSlots]
      have hfor : isFor query ⟨query.owner, route.url, origin, route.verdict.protocol,
          route.lastUsed, route.generation⟩ = route.isFor query.url := by
        simp [isFor, RouteEntry.isFor]
      rw [hfor]
      split
      · have hold : expired query ⟨query.owner, route.url, origin, route.verdict.protocol,
            route.lastUsed, route.generation⟩ = route.expired query.ttl query.now := rfl
        rw [hold]
        split
        · exact ⟨rfl, .cons (.other (.inr rfl)) hrest⟩
        · exact ⟨rfl, .cons (.own { route with lastUsed := query.now } origin) hrest⟩
      · exact ⟨ih.1, .cons (.own route origin) ih.2⟩

theorem Seen.lookup (h : Seen query.owner routes cache) :
    (routes.lookup query).1.map Prod.snd =
        (cache.lookup query.ttl query.generation query.now query.url).1.map Verdict.protocol ∧
      Seen query.owner (routes.lookup query).2
        (cache.lookup query.ttl query.generation query.now query.url).2 := by
  obtain ⟨hfound, hslots⟩ := lookupSlots_seen h.slots
  exact ⟨hfound, hslots, h.cursor⟩

/-- A client does not see the lookups of the others. -/
theorem lookupSlots_unseen {seen : List (Option RouteEntry)}
    (h : List.Forall₂ (SeenSlot owner) slots seen) (hother : query.owner ≠ owner) :
    List.Forall₂ (SeenSlot owner) (lookupSlots query slots).2 seen := by
  induction h with
  | nil => exact .nil
  | @cons slot route slots seen hslot hrest ih =>
    cases hfor : slot.isFor query with
    | true =>
      -- The lookup changes a slot of its own client.
      rw [lookupSlots, if_pos hfor]
      have howner := owner_eq_of_isFor hfor
      cases hslot with
      | other =>
        split
        · exact .cons (.other (.inr rfl)) hrest
        · exact .cons (.other (.inl (howner.trans_ne hother))) hrest
      | own => exact absurd howner.symm hother
    | false =>
      rw [lookupSlots_other hfor]
      exact .cons hslot ih

theorem Seen.lookup_other (h : Seen owner routes cache) (hother : query.owner ≠ owner) :
    Seen owner (routes.lookup query).2 cache := ⟨lookupSlots_unseen h.slots hother, h.cursor⟩

theorem forall₂_set {seen : List (Option RouteEntry)} {route : Option RouteEntry}
    (h : List.Forall₂ (SeenSlot owner) slots seen) (hslot : SeenSlot owner entry route) (j : Nat) :
    List.Forall₂ (SeenSlot owner) (slots.set j entry) (seen.set j route) := by
  induction h generalizing j with
  | nil => exact .nil
  | cons hhead hrest ih =>
    cases j with
    | zero => exact .cons hslot hrest
    | succ j => exact .cons hhead (ih j)

theorem Seen.put {route : Option RouteEntry} (h : Seen owner routes cache)
    (hslot : SeenSlot owner entry route) : Seen owner (routes.store entry) (cache.put route) where
  slots := by
    have hset := forall₂_set h.slots hslot (routes.cursor % routes.slots.length)
    rw [store, SlotRing.put, RouteCache.put, ← h.cursor, ← h.slots.length_eq]
    exact hset
  cursor := congrArg (· + 1) h.cursor

/-- A route that the client stores. -/
theorem Seen.storeOwn {verdict : Verdict} (h : Seen entry.owner routes cache)
    (hprotocol : verdict.protocol = entry.protocol) :
    Seen entry.owner (routes.store entry)
      (cache.store entry.generation entry.lastUsed entry.url verdict) := by
  refine h.put ?_
  have hslot : SeenSlot entry.owner _ _ :=
    .own ⟨entry.url, verdict, entry.lastUsed, entry.generation⟩ entry.origin
  rwa [hprotocol] at hslot

/-- A route that another client stores. -/
theorem Seen.overwrite (h : Seen owner routes cache) (hother : entry.owner ≠ owner) :
    Seen owner (routes.store entry) cache.overwrite := h.put (.other (.inl hother))

/-- The verdict that a client stores with a protocol. -/
def storedVerdict : CachedRouteProtocol → Verdict
  | .h2Available => .h2Available
  | _ => .h1Only

/-- What a call on the thread is for one of its clients. -/
def callOf (owner : Nat) (cache : RouteCache) : RouteCall → RouteCache
  | .store entry =>
    if entry.owner = owner then
      cache.store entry.generation entry.lastUsed entry.url (storedVerdict entry.protocol)
    else cache.overwrite
  | .lookup query =>
    if query.owner = owner then
      (cache.lookup query.ttl query.generation query.now query.url).2
    else cache

theorem Seen.call {call : RouteCall} (h : Seen owner trace.routes cache)
    (hknown : ∀ entry, call = .store entry → entry.protocol ≠ .unknown) :
    Seen owner (trace.step call).routes (callOf owner cache call) := by
  cases call with
  | store entry =>
    by_cases hown : entry.owner = owner
    · subst hown
      have hprotocol : (storedVerdict entry.protocol).protocol = entry.protocol := by
        have hne := hknown entry rfl
        cases hentry : entry.protocol with
        | unknown => exact absurd hentry hne
        | h1Only => rfl
        | h2Available => rfl
      rw [callOf, if_pos rfl]
      exact h.storeOwn hprotocol
    · rw [callOf, if_neg hown]
      exact h.overwrite hown
  | lookup query =>
    by_cases hown : query.owner = owner
    · subst hown
      rw [callOf, if_pos rfl]
      exact h.lookup.2
    · rw [callOf, if_neg hown]
      exact h.lookup_other hown

/-- Each client of a thread sees a cache of its own, in which the others only take up room. -/
theorem seen_after (owner : Nat) {calls : List RouteCall}
    (hknown : ∀ entry, .store entry ∈ calls → entry.protocol ≠ .unknown) :
    Seen owner (RouteTrace.after calls).routes (calls.foldl (callOf owner) {}) := by
  induction calls using List.reverseRecOn with
  | nil => exact seen_empty
  | append_singleton calls call ih =>
    have hbefore := ih fun entry hmem => hknown entry (List.mem_append_left _ hmem)
    rw [RouteTrace.after, List.foldl_concat, List.foldl_concat]
    exact hbefore.call fun entry hstore =>
      hknown entry (hstore ▸ List.mem_append_right _ List.mem_cons_self)

end ThreadRoutes

/-! ### The last store for a client and a URL -/

theorem latest_eq_some_iff :
    latest query log = some (age, store) ↔ log[age]? = some store ∧ store.madeFor query = true ∧
      ∀ i < age, ∀ e, log[i]? = some e → e.madeFor query = false := by
  induction log generalizing age with
  | nil => simp [latest]
  | cons head log ih =>
    cases hhead : head.madeFor query with
    | true =>
      rw [latest, if_pos hhead]
      constructor
      · intro h
        obtain ⟨rfl, rfl⟩ := Prod.mk.inj (Option.some.inj h)
        exact ⟨rfl, hhead, fun i hi => absurd hi (Nat.not_lt_zero i)⟩
      · rintro ⟨hlog, -, hyounger⟩
        cases age with
        | zero => rw [Option.some.inj hlog]
        | succ age =>
          rw [hyounger 0 (Nat.succ_pos age) head rfl] at hhead
          cases hhead
    | false =>
      rw [latest, if_neg (Bool.not_eq_true _ ▸ hhead)]
      constructor
      · intro h
        obtain ⟨⟨age', store'⟩, hlatest, hpair⟩ := Option.map_eq_some_iff.mp h
        obtain ⟨rfl, rfl⟩ := Prod.mk.inj hpair
        obtain ⟨hlog, hfor, hyounger⟩ := ih.mp hlatest
        refine ⟨hlog, hfor, fun i hi e he => ?_⟩
        cases i with
        | zero => exact Option.some.inj he ▸ hhead
        | succ i => exact hyounger i (Nat.lt_of_succ_lt_succ hi) e he
      · rintro ⟨hlog, hfor, hyounger⟩
        cases age with
        | zero =>
          obtain rfl := Option.some.inj hlog
          rw [hfor] at hhead
          cases hhead
        | succ age =>
          have hlatest := ih.mpr ⟨hlog, hfor, fun i hi e he =>
            hyounger (i + 1) (Nat.succ_lt_succ hi) e he⟩
          rw [hlatest]
          rfl

/-- What a lookup notes in the log does not change which store is the last one. -/
theorem latest_modify (other : RouteQuery) (i : Nat) :
    latest query (log.modify i (noted other)) =
      (latest query log).map fun found =>
        (found.1, if i = found.1 then found.2.noted other else found.2) := by
  induction log generalizing i with
  | nil => cases i <;> rfl
  | cons head log ih =>
    cases i with
    | zero =>
      rw [List.modify_zero_cons, latest, latest, madeFor_noted]
      split
      · rfl
      · cases latest query log <;> rfl
    | succ i =>
      rw [List.modify_succ_cons, latest, latest, ih]
      split
      · rfl
      · cases latest query log with
        | none => rfl
        | some pair => simp only [Option.map_some, Nat.succ_inj]

/-! ### The slots and the log -/

namespace RouteTrace

/-- There are 64 slots, and each is blank or holds the last route that was stored there. -/
structure Sound (trace : RouteTrace) : Prop where
  length : trace.routes.slots.length = 64
  records : SlotRing.Records (fun entry => entry.url = []) trace.routes trace.log

theorem sound_empty : Sound {} where
  length := List.length_replicate
  records := fun _ entry h =>
    .inl (by rw [List.eq_of_mem_replicate (List.mem_of_getElem? h)])

theorem step_lookup_none (h : ∀ entry ∈ trace.routes.slots, entry.isFor query = false) :
    trace.step (.lookup query) = trace := by
  rw [step, ThreadRoutes.lookup_none h, List.findIdx?_eq_none_iff.mpr h]

theorem step_lookup_first (h : First query trace.routes.slots j entry) :
    trace.step (.lookup query) =
      ⟨trace.routes.setSlot j (entry.left query),
        trace.log.modify (trace.routes.ageOf j) (noted query)⟩ := by
  rw [step, ThreadRoutes.lookup_first h, h.findIdx]

namespace Sound

/-- A route in a slot is the one that the log has at its age. -/
theorem log_eq (h : trace.Sound) (hheld : trace.routes.slots[j]? = some entry)
    (hurl : entry.url ≠ []) : trace.log[trace.routes.ageOf j]? = some entry :=
  (h.records j entry hheld).resolve_left hurl

theorem step (h : trace.Sound) (call : RouteCall) : (trace.step call).Sound := by
  cases call with
  | store entry => exact ⟨SlotRing.length_put.trans h.length, h.records.put entry⟩
  | lookup query =>
    rcases first_or_none query trace.routes.slots with ⟨j, entry, hfirst⟩ | hnone
    · rw [step_lookup_first hfirst]
      refine ⟨SlotRing.length_setSlot.trans h.length, ?_⟩
      have hlog := h.log_eq hfirst.held (url_ne_nil_of_isFor hfirst.isFor)
      have hnoted := h.records.modify (f := noted query) hfirst.held hlog
      by_cases hbelieved : entry.Believed query
      · rw [left, if_pos hbelieved]
        rwa [noted, if_pos hbelieved] at hnoted
      · -- What is not believed is removed from its slot, and the log stays as it is.
        rw [left, if_neg hbelieved, ← SlotRing.setSlot_setSlot]
        exact hnoted.setBlank rfl j
    · rw [step_lookup_none hnone]
      exact h

end Sound

theorem sound_foldl (calls : List RouteCall) (h : trace.Sound) :
    (calls.foldl RouteTrace.step trace).Sound := by
  induction calls generalizing trace with
  | nil => exact h
  | cons call calls ih => exact ih (h.step call)

theorem sound_after (calls : List RouteCall) : (after calls).Sound := sound_foldl calls sound_empty

end RouteTrace

/-! ### Which lookups are answered as by a map -/

/-- If the slot holds the last store, that is what is in it. -/
theorem latest_eq_held (hsound : trace.Sound) (h : First query trace.routes.slots j entry)
    (hlatest : latest query trace.log = some (trace.routes.ageOf j, store)) : store = entry := by
  have hlog := hsound.log_eq h.held (url_ne_nil_of_isFor h.isFor)
  exact Option.some.inj ((latest_eq_some_iff.mp hlatest).1.symm.trans hlog)

/-- Where no slot is for the client and the URL. -/
theorem lastWriteWins_iff_of_none (h : ∀ entry ∈ trace.routes.slots, entry.isFor query = false) :
    LastWriteWins trace query ↔ Unshadowed trace query := by
  have hnothing : (trace.routes.lookup query).1 = none := by rw [ThreadRoutes.lookup_none h]
  constructor
  · intro hwins
    refine ⟨fun j entry hfirst => absurd h hfirst.not_none, fun _ hdue => ?_⟩
    have hfound := hwins.found hdue
    rw [hnothing] at hfound
    cases hfound
  · intro hclear
    refine ⟨fun origin protocol hsome => ?_, fun hdue => absurd hdue (hclear.none h)⟩
    rw [hnothing] at hsome
    cases hsome

/-- Where the first slot for the client and the URL holds the last store for them. -/
theorem lastWriteWins_of_latest (hsound : trace.Sound)
    (h : First query trace.routes.slots j entry)
    (hlatest : latest query trace.log = some (trace.routes.ageOf j, store)) :
    LastWriteWins trace query := by
  obtain rfl := latest_eq_held hsound h hlatest
  have hlookup : (trace.routes.lookup query).1 = store.answer query := by
    rw [ThreadRoutes.lookup_first h]
  constructor
  · intro origin protocol hsome
    rw [hlookup, answer] at hsome
    split at hsome
    · obtain ⟨rfl, rfl⟩ := Prod.mk.inj (Option.some.inj hsome)
      exact ⟨_, store, hlatest, rfl, rfl⟩
    · cases hsome
  · rintro ⟨age, store', hlatest', -, hbelieved⟩
    obtain ⟨-, rfl⟩ := Prod.mk.inj (Option.some.inj (hlatest'.symm.trans hlatest))
    rw [hlookup, answer_of_believed hbelieved]
    rfl

/-- Where it holds an older store, which hides the last one. -/
theorem lastWriteWins_iff_of_older (h : First query trace.routes.slots j entry) :
    LastWriteWins trace query ↔
    (entry.Believed query ∧ ∃ age store, latest query trace.log = some (age, store) ∧
      store.origin = entry.origin ∧ store.protocol = entry.protocol) ∨
    (¬ entry.Believed query ∧ ¬ Due query trace.log) := by
  have hlookup : (trace.routes.lookup query).1 = entry.answer query := by
    rw [ThreadRoutes.lookup_first h]
  by_cases hbelieved : entry.Believed query
  · have hfound : (trace.routes.lookup query).1 = some (entry.origin, entry.protocol) :=
      hlookup.trans (answer_of_believed hbelieved)
    constructor
    · intro hwins
      exact .inl ⟨hbelieved, hwins.last _ _ hfound⟩
    · rintro (⟨-, age, store, hlatest, horigin, hprotocol⟩ | ⟨hnot, -⟩)
      · refine ⟨fun origin protocol hsome => ?_, fun _ => by rw [hfound]; rfl⟩
        obtain ⟨rfl, rfl⟩ := Prod.mk.inj (Option.some.inj (hfound.symm.trans hsome))
        exact ⟨age, store, hlatest, horigin, hprotocol⟩
      · exact absurd hbelieved hnot
  · have hnothing : (trace.routes.lookup query).1 = none :=
      hlookup.trans (answer_of_not_believed hbelieved)
    constructor
    · intro hwins
      refine .inr ⟨hbelieved, fun hdue => ?_⟩
      have hfound := hwins.found hdue
      rw [hnothing] at hfound
      cases hfound
    · rintro (⟨hyes, -⟩ | ⟨-, hdue⟩)
      · exact absurd hyes hbelieved
      · refine ⟨fun origin protocol hsome => ?_, fun h => absurd h hdue⟩
        rw [hnothing] at hsome
        cases hsome

/-- After any calls, a lookup is answered as by a map just if nothing hides the last store. -/
theorem lastWriteWins_iff_unshadowed (calls : List RouteCall) (query : RouteQuery) :
    LastWriteWins (.after calls) query ↔ Unshadowed (.after calls) query := by
  have hsound := RouteTrace.sound_after calls
  rcases first_or_none query (RouteTrace.after calls).routes.slots with ⟨j, entry, hfirst⟩ | hnone
  · have holder := lastWriteWins_iff_of_older hfirst
    constructor
    · intro hwins
      refine ⟨fun j' entry' hfirst' => ?_, fun hnone => absurd hnone hfirst.not_none⟩
      obtain ⟨rfl, rfl⟩ := hfirst.unique hfirst'
      exact .inr (holder.mp hwins)
    · intro hclear
      rcases hclear.first j entry hfirst with ⟨store, hlatest⟩ | hsame
      · exact lastWriteWins_of_latest hsound hfirst hlatest
      · exact holder.mpr hsame
  · exact lastWriteWins_iff_of_none hnone

/-- A route of `https://a.example/` that the client at address `1` stores. -/
def storedRoute (protocol : CachedRouteProtocol) (now : Int) (generation : Nat) : RouteCall :=
  .store { owner := 1, url := str "https://a.example/", origin := str "https://a.example:443"
           protocol, lastUsed := now, generation }

def askedRoute (generation : Nat) : RouteQuery :=
  { owner := 1, url := str "https://a.example/", ttl := 300, generation, now := 2 }

/-- Two requests of one thread have missed and store what they find, the second one `h2Available`:
the next lookup returns what the first one has stored. If the second one has stored its route in
a new generation, the next lookup returns nothing. -/
theorem hidden_route :
    ¬ LastWriteWins (.after [storedRoute .h1Only 0 0, storedRoute .h2Available 1 0])
        (askedRoute 0) ∧
      ¬ LastWriteWins (.after [storedRoute .h2Available 0 0, storedRoute .h2Available 1 1])
        (askedRoute 1) := by
  constructor
  · intro hwins
    obtain ⟨age, store, hlatest, -, hprotocol⟩ :=
      hwins.last (str "https://a.example:443") .h1Only (by decide +kernel)
    have hsecond : (latest (askedRoute 0)
        (RouteTrace.after [storedRoute .h1Only 0 0, storedRoute .h2Available 1 0]).log).map
          (fun found => found.2.protocol) = some .h2Available := by decide +kernel
    rw [hlatest, Option.map_some, hprotocol] at hsecond
    cases hsecond
  · intro hwins
    have hdue : Due (askedRoute 1)
        (RouteTrace.after [storedRoute .h2Available 0 0, storedRoute .h2Available 1 1]).log :=
      ⟨0, _, rfl, by decide, by decide +kernel⟩
    have hfound := hwins.found hdue
    revert hfound
    decide +kernel

/-! ### Calls in order

Where time and generations never go back, a client always asks with the same limit, and a route
is stored only where no slot is for its client and URL, every lookup is answered as by a map. -/

namespace RouteCall

def owner : RouteCall → Nat
  | .store entry => entry.owner
  | .lookup query => query.owner

def generation : RouteCall → Nat
  | .store entry => entry.generation
  | .lookup query => query.generation

def now : RouteCall → Int
  | .store entry => entry.lastUsed
  | .lookup query => query.now

/-- What one call on a thread has to do with a later one. -/
structure Precedes (earlier later : RouteCall) : Prop where
  now : earlier.now ≤ later.now
  generation : earlier.owner = later.owner → earlier.generation ≤ later.generation
  ttl : ∀ query query', earlier = .lookup query → later = .lookup query' →
    query.owner = query'.owner → query.ttl = query'.ttl

end RouteCall

/-- No route is stored where a slot is for its client and URL. -/
def StoresMissing (calls : List RouteCall) : Prop :=
  ∀ before entry later, calls = before ++ .store entry :: later →
    ∀ query, entry.madeFor query = true →
      ∀ e ∈ (RouteTrace.after before).routes.slots, e.isFor query = false

/-- A store that no lookup can find again: it is for no URL, or a lookup has not believed it. -/
def Gone (calls : List RouteCall) (store : ThreadLocalRouteEntry) : Prop :=
  store.url = [] ∨ ∃ query, .lookup query ∈ calls ∧ query.owner = store.owner ∧
    store.generation ≤ query.generation ∧ ¬ store.Believed query

/-- A lookup that is called later does not believe it either. -/
theorem not_believed_of_precedes {query' : RouteQuery}
    (h : RouteCall.Precedes (.lookup query) (.lookup query')) (howner : query.owner = query'.owner)
    (hgeneration : store.generation ≤ query.generation) (hnot : ¬ store.Believed query) :
    ¬ store.Believed query' := by
  intro hbelieved
  apply hnot
  have hle : query.generation ≤ query'.generation := h.generation howner
  refine ⟨Nat.le_antisymm hgeneration (hle.trans_eq hbelieved.1.symm), ?_⟩
  have hfresh := hbelieved.2
  have hnow : query.now ≤ query'.now := h.now
  simp only [expired, decide_eq_false_iff_not] at hfresh ⊢
  rw [h.ttl query query' rfl rfl howner]
  omega

namespace RouteTrace

theorem after_concat (calls : List RouteCall) (call : RouteCall) :
    after (calls ++ [call]) = (after calls).step call :=
  List.foldl_concat ..

/-- What is in a slot is the last store for its client and URL; what is not in a slot is gone;
and the log has been stored. -/
structure Faithful (calls : List RouteCall) : Prop where
  last : ∀ query j entry, (after calls).routes.slots[j]? = some entry →
    entry.isFor query = true →
      latest query (after calls).log = some ((after calls).routes.ageOf j, entry)
  keeps : SlotRing.Keeps (Gone calls) (after calls).routes (after calls).log
  stored : ∀ entry ∈ (after calls).log, ∃ made, .store made ∈ calls ∧
    made.owner = entry.owner ∧ made.generation = entry.generation

theorem faithful_nil : Faithful [] where
  last := by
    intro query j entry hheld hfor
    have hblank : entry = {} := List.eq_of_mem_replicate (List.mem_of_getElem? hheld)
    exact absurd (by rw [hblank]) (url_ne_nil_of_isFor hfor)
  keeps := fun age entry _ hlog => by cases hlog
  stored := fun entry hmem => absurd hmem List.not_mem_nil

theorem gone_mono {calls : List RouteCall} (call : RouteCall) (h : Gone calls store) :
    Gone (calls ++ [call]) store := by
  refine h.imp_right ?_
  rintro ⟨query, hmem, hrest⟩
  exact ⟨query, List.mem_append_left _ hmem, hrest⟩

namespace Faithful

variable {calls : List RouteCall}

theorem concat_store (h : Faithful calls)
    (hmissing : ∀ query, store.madeFor query = true →
      ∀ e ∈ (after calls).routes.slots, e.isFor query = false) :
    Faithful (calls ++ [.store store]) where
  last := by
    rw [after_concat]
    intro query j entry hheld hfor
    obtain ⟨hlt, -⟩ := List.getElem?_eq_some_iff.mp hheld
    simp only [step, ThreadRoutes.store] at hheld hlt ⊢
    rw [SlotRing.length_put] at hlt
    by_cases hj : j = (after calls).routes.cursor % (after calls).routes.slots.length
    · subst hj
      rw [SlotRing.put, List.getElem?_set_self hlt] at hheld
      obtain rfl := Option.some.inj hheld
      rw [latest, if_pos (madeFor_of_isFor hfor),
        SlotRing.ageOf_put_cursor (Nat.zero_lt_of_lt hlt)]
    · rw [SlotRing.put, List.getElem?_set_ne (Ne.symm hj)] at hheld
      have hother : ¬ store.madeFor query = true := by
        intro hmade
        rw [hmissing query hmade entry (List.mem_of_getElem? hheld)] at hfor
        cases hfor
      rw [latest, if_neg hother, h.last query j entry hheld hfor, SlotRing.ageOf_put_other hlt hj]
      rfl
  keeps := by
    rw [after_concat]
    exact (h.keeps.mono fun _ => gone_mono _).put store
  stored := by
    rw [after_concat]
    intro entry hmem
    rcases List.mem_cons.mp hmem with rfl | hmem
    · exact ⟨entry, List.mem_append_right _ List.mem_cons_self, rfl, rfl⟩
    · obtain ⟨made, hmade, hsame⟩ := h.stored entry hmem
      exact ⟨made, List.mem_append_left _ hmade, hsame⟩

/-- What is left in the slots after a lookup is still the last store for its client and URL. -/
theorem last_lookup (h : Faithful calls) (hfirst : First query (after calls).routes.slots j entry)
    {query' : RouteQuery} {k : Nat} {x : ThreadLocalRouteEntry}
    (hheld : ((after calls).routes.setSlot j (entry.left query)).slots[k]? = some x)
    (hfor : x.isFor query' = true) :
    latest query' ((after calls).log.modify ((after calls).routes.ageOf j) (noted query)) =
      some ((after calls).routes.ageOf k, x) := by
  obtain ⟨hlt, -⟩ := List.getElem?_eq_some_iff.mp hfirst.held
  rw [latest_modify]
  by_cases hk : j = k
  · subst hk
    rw [SlotRing.setSlot, List.getElem?_set_self hlt] at hheld
    obtain rfl := Option.some.inj hheld
    by_cases hbelieved : entry.Believed query
    · rw [left, if_pos hbelieved] at hfor ⊢
      rw [h.last query' j entry hfirst.held hfor, Option.map_some]
      dsimp only
      rw [if_pos rfl, noted, if_pos hbelieved]
    · rw [left, if_neg hbelieved] at hfor
      exact absurd rfl (url_ne_nil_of_isFor hfor)
  · rw [SlotRing.setSlot, List.getElem?_set_ne hk] at hheld
    obtain ⟨hlt', -⟩ := List.getElem?_eq_some_iff.mp hheld
    have hage : (after calls).routes.ageOf j ≠ (after calls).routes.ageOf k :=
      fun heq => hk (SlotRing.ageOf_injective hlt hlt' heq)
    rw [h.last query' k x hheld hfor, Option.map_some]
    dsimp only
    rw [if_neg hage]

/-- A route that a lookup removes is gone, as the lookup has not believed it. -/
theorem keeps_lookup (h : Faithful calls) (hfirst : First query (after calls).routes.slots j entry)
    (horder : ∀ earlier ∈ calls, earlier.Precedes (.lookup query)) :
    SlotRing.Keeps (Gone (calls ++ [.lookup query]))
      ((after calls).routes.setSlot j (entry.left query))
      ((after calls).log.modify ((after calls).routes.ageOf j) (noted query)) := by
  obtain ⟨hlt, -⟩ := List.getElem?_eq_some_iff.mp hfirst.held
  have hlog := (sound_after calls).log_eq hfirst.held (url_ne_nil_of_isFor hfirst.isFor)
  have hcalls := h.keeps.mono fun _ => gone_mono (.lookup query)
  have hnoted := hcalls.modify (f := noted query) hfirst.held hlog
  by_cases hbelieved : entry.Believed query
  · rw [left, if_pos hbelieved]
    rwa [noted, if_pos hbelieved] at hnoted
  · have howner := owner_eq_of_isFor hfirst.isFor
    have hgeneration : entry.generation ≤ query.generation := by
      obtain ⟨made, hmade, hsame, hstored⟩ := h.stored entry (List.mem_of_getElem? hlog)
      rw [← hstored]
      exact (horder _ hmade).generation (hsame.trans howner)
    have hgone : Gone (calls ++ [.lookup query]) entry :=
      .inr ⟨query, List.mem_append_right _ List.mem_cons_self, howner.symm, hgeneration, hbelieved⟩
    -- The slot is first noted, which changes nothing, and then blanked.
    rw [left, if_neg hbelieved, ← SlotRing.setSlot_setSlot]
    refine hnoted.remove (List.getElem?_set_self hlt) ?_ {}
    rwa [noted, if_neg hbelieved]

theorem stored_lookup (h : Faithful calls) (i : Nat) :
    ∀ entry ∈ (after calls).log.modify i (noted query), ∃ made,
      .store made ∈ calls ++ [.lookup query] ∧ made.owner = entry.owner ∧
        made.generation = entry.generation := by
  intro entry hmem
  obtain ⟨k, hk⟩ := List.mem_iff_getElem?.mp hmem
  rw [List.getElem?_modify] at hk
  obtain ⟨before, hbefore, rfl⟩ := Option.map_eq_some_iff.mp hk
  obtain ⟨made, hmade, howner, hgeneration⟩ := h.stored before (List.mem_of_getElem? hbefore)
  refine ⟨made, List.mem_append_left _ hmade, ?_⟩
  split
  · rw [owner_noted, generation_noted]
    exact ⟨howner, hgeneration⟩
  · exact ⟨howner, hgeneration⟩

theorem concat_lookup (h : Faithful calls)
    (horder : ∀ earlier ∈ calls, earlier.Precedes (.lookup query)) :
    Faithful (calls ++ [.lookup query]) := by
  rcases first_or_none query (after calls).routes.slots with ⟨j, entry, hfirst⟩ | hnone
  · have hstep : after (calls ++ [.lookup query]) = _ :=
      (after_concat calls _).trans (step_lookup_first hfirst)
    constructor
    · rw [hstep]
      intro query' k x hheld hfor
      rw [SlotRing.ageOf_setSlot]
      exact h.last_lookup hfirst hheld hfor
    · rw [hstep]
      exact h.keeps_lookup hfirst horder
    · rw [hstep]
      exact h.stored_lookup _
  · have hstep : after (calls ++ [.lookup query]) = after calls :=
      (after_concat calls _).trans (step_lookup_none hnone)
    constructor
    · rw [hstep]
      exact h.last
    · rw [hstep]
      exact h.keeps.mono fun _ => gone_mono _
    · rw [hstep]
      intro entry hmem
      obtain ⟨made, hmade, hsame⟩ := h.stored entry hmem
      exact ⟨made, List.mem_append_left _ hmade, hsame⟩

end Faithful

theorem faithful_of_orderly {calls : List RouteCall} (horder : calls.Pairwise RouteCall.Precedes)
    (hmissing : StoresMissing calls) : Faithful calls := by
  induction calls using List.reverseRecOn with
  | nil => exact faithful_nil
  | append_singleton calls call ih =>
    obtain ⟨hbefore, -, hlast⟩ := List.pairwise_append.mp horder
    have hfaithful : Faithful calls := by
      refine ih hbefore fun before entry later hsplit => ?_
      apply hmissing before entry (later ++ [call])
      rw [hsplit, List.append_assoc, List.cons_append]
    cases call with
    | store entry => exact hfaithful.concat_store (hmissing calls entry [] rfl)
    | lookup query =>
      exact hfaithful.concat_lookup fun earlier hmem => hlast earlier hmem _ List.mem_cons_self

end RouteTrace

/-- A lookup for a URL is answered as by a map, if the calls are in order and no route has been
stored where there was one. -/
theorem lastWriteWins_of_orderly {calls : List RouteCall} {query : RouteQuery}
    (horder : (calls ++ [RouteCall.lookup query]).Pairwise RouteCall.Precedes)
    (hmissing : StoresMissing calls) (hurl : query.url ≠ []) :
    LastWriteWins (.after calls) query := by
  obtain ⟨hbefore, -, hlast⟩ := List.pairwise_append.mp horder
  have hfaithful := RouteTrace.faithful_of_orderly hbefore hmissing
  rcases first_or_none query (RouteTrace.after calls).routes.slots with ⟨j, entry, hfirst⟩ | hnone
  · exact lastWriteWins_of_latest (RouteTrace.sound_after calls) hfirst
      (hfaithful.last query j entry hfirst.held hfirst.isFor)
  · refine (lastWriteWins_iff_of_none hnone).mpr
      ⟨fun j entry hfirst => absurd hnone hfirst.not_none, fun _ => ?_⟩
    rintro ⟨age, store, hlatest, hage, hbelieved⟩
    obtain ⟨hlog, hmade, -⟩ := latest_eq_some_iff.mp hlatest
    rw [madeFor, Bool.and_eq_true, beq_iff_eq, beq_iff_eq] at hmade
    obtain ⟨howner, hsame⟩ := hmade
    rw [← (RouteTrace.sound_after calls).length] at hage
    rcases hfaithful.keeps age store hage hlog with ⟨j, hheld, -⟩ | hempty | hremoved
    · have hfor := hnone store (List.mem_of_getElem? hheld)
      simp [isFor, howner, hsame, hurl] at hfor
    · exact hurl (hsame.symm.trans hempty)
    · obtain ⟨query', hmem, howner', hgeneration, hnot⟩ := hremoved
      exact not_believed_of_precedes (hlast _ hmem _ List.mem_cons_self) (howner'.trans howner)
        hgeneration hnot hbelieved

/-- A lookup is answered as by a map if the calls are in order and no route has been stored where
there was one; and after any calls, just if nothing hides the last store. -/
theorem lastWriteWins_iff (calls : List RouteCall) (query : RouteQuery) :
    ((calls ++ [RouteCall.lookup query]).Pairwise RouteCall.Precedes → StoresMissing calls →
        query.url ≠ [] → LastWriteWins (.after calls) query) ∧
      (LastWriteWins (.after calls) query ↔ Unshadowed (.after calls) query) :=
  ⟨lastWriteWins_of_orderly, lastWriteWins_iff_unshadowed calls query⟩

end HttpClient.Routing
