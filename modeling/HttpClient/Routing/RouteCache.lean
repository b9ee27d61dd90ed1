import Mathlib.Data.List.Basic
import HttpClient.Text.Bytes

/-!
# The route cache of a thread

Each thread keeps the routes of the URLs it has asked for last. A route is believed as long
as it is of the current generation and has been used recently enough; every use makes it
recent again. What is stored replaces the oldest slot.

Only the routes of one client are kept here. A slot with a route of another client is like
an empty one.

## Main definitions

* `Verdict` — what a route says
* `RouteEntry.Valid` — whether a route is believed
* `RouteCache.lookup`, `RouteCache.store`, `RouteCache.overwrite` — the operations

## Main results

* `RouteCache.lookup_some` — what is found is believed
* `RouteCache.mem_lookup` — looking up adds nothing
-/

set_option autoImplicit false

namespace HttpClient.Routing

open Text

/-- What the client can say of an origin. That it is `downgraded` is said where the code says
`H1Only` although HTTP/2 has failed for a while only; the code does not tell them apart. -/
inductive Verdict where
  | h1Only
  | downgraded
  | h2Available
  deriving DecidableEq, Repr

structure RouteEntry where
  url : Bytes
  verdict : Verdict
  lastUsed : Int
  generation : Nat
  deriving DecidableEq, Repr

namespace RouteEntry

/-- Whether a route has not been used for too long; a limit that is not positive is none. -/
def expired (ttl now : Int) (entry : RouteEntry) : Bool :=
  decide (0 < ttl ∧ ttl ≤ now - entry.lastUsed)

/-- A route that is believed. None is of a later generation than the current one. -/
def Valid (ttl : Int) (generation : Nat) (now : Int) (entry : RouteEntry) : Prop :=
  generation ≤ entry.generation ∧ entry.expired ttl now = false

/-- Whether the slot holds a route for the URL. -/
def isFor (url : Bytes) (entry : RouteEntry) : Bool := entry.url != [] && entry.url == url

variable {ttl now later : Int} {generation generation' : Nat} {entry : RouteEntry}

/-- What is believed later, in a later generation, has been believed before. -/
theorem Valid.earlier (h : entry.Valid ttl generation' later)
    (hgeneration : generation ≤ generation') (hnow : now ≤ later) :
    entry.Valid ttl generation now := by
  refine ⟨hgeneration.trans h.1, ?_⟩
  have hexpired := h.2
  simp only [expired, decide_eq_false_iff_not] at hexpired ⊢
  omega

end RouteEntry

/-- The slots, and where the next route is stored. -/
structure RouteCache where
  slots : List (Option RouteEntry) := List.replicate 64 none
  cursor : Nat := 0

namespace RouteCache

/-- The first slot for the URL decides. A route that is not believed is removed; one that is
becomes recent. -/
def lookupSlots (ttl : Int) (generation : Nat) (now : Int) (url : Bytes) :
    List (Option RouteEntry) → Option Verdict × List (Option RouteEntry)
  | [] => (none, [])
  | none :: slots =>
    let (found, rest) := lookupSlots ttl generation now url slots
    (found, none :: rest)
  | some entry :: slots =>
    if entry.isFor url then
      if entry.generation ≠ generation ∨ entry.expired ttl now then (none, none :: slots)
      else (some entry.verdict, some { entry with lastUsed := now } :: slots)
    else
      let (found, rest) := lookupSlots ttl generation now url slots
      (found, some entry :: rest)

/-- `lookup_tls_route`. -/
def lookup (ttl : Int) (generation : Nat) (now : Int) (url : Bytes) (cache : RouteCache) :
    Option Verdict × RouteCache :=
  let (found, slots) := lookupSlots ttl generation now url cache.slots
  (found, { cache with slots })

/-- Replace the slot at the cursor. -/
def put (slot : Option RouteEntry) (cache : RouteCache) : RouteCache where
  slots := cache.slots.set (cache.cursor % cache.slots.length) slot
  cursor := cache.cursor + 1

/-- `store_tls_route`. -/
def store (generation : Nat) (now : Int) (url : Bytes) (verdict : Verdict) (cache : RouteCache) :
    RouteCache := cache.put (some { url, verdict, lastUsed := now, generation })

/-- Another client stores a route of its own. -/
def overwrite (cache : RouteCache) : RouteCache := cache.put none

variable {ttl now : Int} {generation : Nat} {url : Bytes}

theorem lookupSlots_some {slots : List (Option RouteEntry)} {verdict : Verdict}
    (h : (lookupSlots ttl generation now url slots).1 = some verdict) :
    ∃ entry, some entry ∈ slots ∧ entry.verdict = verdict ∧ entry.Valid ttl generation now := by
  induction slots with
  | nil => cases h
  | cons slot slots ih =>
    have hlater : (lookupSlots ttl generation now url slots).1 = some verdict →
        ∃ entry, some entry ∈ slot :: slots ∧ entry.verdict = verdict ∧
          entry.Valid ttl generation now := by
      intro hfound
      obtain ⟨entry, hmem, hentry⟩ := ih hfound
      exact ⟨entry, List.mem_cons_of_mem _ hmem, hentry⟩
    cases slot with
    | none => exact hlater h
    | some entry =>
      rw [lookupSlots] at h
      split at h
      · split at h
        · cases h
        · rename_i hkept
          simp only [not_or, not_not, Bool.not_eq_true] at hkept
          obtain ⟨hgeneration, hfresh⟩ := hkept
          exact ⟨entry, List.mem_cons_self, Option.some.inj h, hgeneration.ge, hfresh⟩
      · exact hlater h

theorem mem_lookupSlots {slots : List (Option RouteEntry)} {entry : RouteEntry}
    (h : some entry ∈ (lookupSlots ttl generation now url slots).2) :
    some entry ∈ slots ∨ ∃ before, some before ∈ slots ∧ before.verdict = entry.verdict ∧
      before.Valid ttl generation now := by
  induction slots with
  | nil => exact absurd h List.not_mem_nil
  | cons slot slots ih =>
    have hlater : some entry ∈ (lookupSlots ttl generation now url slots).2 →
        some entry ∈ slot :: slots ∨ ∃ before, some before ∈ slot :: slots ∧
          before.verdict = entry.verdict ∧ before.Valid ttl generation now := by
      intro hmem
      rcases ih hmem with hold | ⟨before, hbefore, hsame⟩
      · exact .inl (List.mem_cons_of_mem _ hold)
      · exact .inr ⟨before, List.mem_cons_of_mem _ hbefore, hsame⟩
    cases slot with
    | none =>
      rcases List.mem_cons.mp h with hnone | hrest
      · cases hnone
      · exact hlater hrest
    | some first =>
      rw [lookupSlots] at h
      split at h
      · split at h
        · rcases List.mem_cons.mp h with hnone | hrest
          · cases hnone
          · exact .inl (List.mem_cons_of_mem _ hrest)
        · rename_i hkept
          simp only [not_or, not_not, Bool.not_eq_true] at hkept
          rcases List.mem_cons.mp h with hused | hrest
          · obtain rfl := Option.some.inj hused
            exact .inr ⟨first, List.mem_cons_self, rfl, hkept.1.ge, hkept.2⟩
          · exact .inl (List.mem_cons_of_mem _ hrest)
      · rcases List.mem_cons.mp h with hfirst | hrest
        · exact .inl (hfirst ▸ List.mem_cons_self)
        · exact hlater hrest

variable {cache : RouteCache}

/-- What is found is believed. -/
theorem lookup_some {verdict : Verdict}
    (h : (cache.lookup ttl generation now url).1 = some verdict) :
    ∃ entry, some entry ∈ cache.slots ∧ entry.verdict = verdict ∧
      entry.Valid ttl generation now := lookupSlots_some h

/-- Looking up adds nothing: a route that is left says what one has said before. -/
theorem mem_lookup {entry : RouteEntry}
    (h : some entry ∈ (cache.lookup ttl generation now url).2.slots) :
    some entry ∈ cache.slots ∨ ∃ before, some before ∈ cache.slots ∧
      before.verdict = entry.verdict ∧ before.Valid ttl generation now := mem_lookupSlots h

theorem mem_put {slot : Option RouteEntry} {entry : RouteEntry}
    (h : some entry ∈ (cache.put slot).slots) : some entry ∈ cache.slots ∨ slot = some entry := by
  rcases List.mem_or_eq_of_mem_set h with hold | hnew
  · exact .inl hold
  · exact .inr hnew.symm

end RouteCache

end HttpClient.Routing
