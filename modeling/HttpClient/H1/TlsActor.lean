import HttpClient.Request
import HttpClient.Semantics.Machine
import Mathlib.Data.List.Perm.Subperm

/-!
# The actor of a TLS connection

An origin can be served by actors. An actor has one TLS connection and a queue of requests; a
coroutine on its strand takes them one after another, connects if there is no connection, and
exchanges. It ends when the queue is empty, and the next request that comes in starts it again.

Who submits a request waits on a timer of its own that never expires and that the actor cancels
when the request is done. A cancellation ends only a wait that has begun, so a request that is
done before its caller waits leaves it waiting for ever.

`reset_connections` closes the connection of an actor from outside of its strand. If the actor is
just connecting or exchanging, the connection that it uses is gone.

## Main definitions

* `ActorItem`, `RunLoop`, `TlsActor` — the requests with their callers, the coroutine, the actor
* `ActorAction`, `TlsActor.step` — the steps of the callers and of the actor
* `TlsActor.Sound` — the order of the requests
* `TlsActor.NoneForgotten` — no caller waits for a request that is done
* `TlsActor.InUse` — the connection that the actor uses is there

## Main results

* `actor_serves_in_order` — every request is served once and in its turn
* `actor_forgets_none_iff`, `forgotten_for_ever` — the callers that wait in vain
* `actor_connection_kept_iff` — the runs in which no connection is closed in use
-/

set_option autoImplicit false

namespace HttpClient.H1

open Semantics Text

/-! ### The actor -/

/-- Where a call of `submit` is. -/
inductive CallerPhase where
  /-- The request is counted as pending and is to enter the queue on the strand. -/
  | entering
  | queued
  | waiting
  /-- The wait is over. -/
  | woken
  | returned (response : Response)
  /-- A caller that has been cancelled cannot wait. -/
  | threw
  deriving DecidableEq, Repr

/-- A request and its caller. -/
structure ActorItem where
  phase : CallerPhase := .entering
  response : Response := {}
  /-- The actor is done with the request. -/
  finished : Bool := false
  cancelled : Bool := false
  deriving DecidableEq, Repr

/-- Where `run` is. -/
inductive RunLoop where
  | ended
  /-- About to look at the queue. -/
  | top
  | connecting (ticket connection : Nat)
  | exchanging (ticket connection : Nat)
  /-- About to cancel the timer of a caller. -/
  | notifying (ticket : Nat)
  deriving DecidableEq, Repr

/-- The request that `run` works on. -/
def RunLoop.working : RunLoop → Option Nat
  | .connecting ticket _ | .exchanging ticket _ => some ticket
  | _ => none

/-- The connection that `run` uses. -/
def RunLoop.uses : RunLoop → Option Nat
  | .connecting _ connection | .exchanging _ connection => some connection
  | _ => none

structure TlsActor where
  /-- The requests are numbered in the order of the calls. -/
  items : List ActorItem := []
  queue : List Nat := []
  running : Bool := false
  loop : RunLoop := .ended
  pendingCount : Nat := 0
  /-- The connections are numbered. -/
  conn : Option Nat := none
  made : Nat := 0
  /-- The requests in the order in which they have entered the queue. -/
  entered : List Nat := []
  /-- The requests in the order in which they have been taken. -/
  served : List Nat := []
  deriving DecidableEq, Repr

inductive ActorAction where
  | submit
  | enter (ticket : Nat)
  | wait (ticket : Nat)
  | cancel (ticket : Nat)
  | resume (ticket : Nat)
  | takeNext
  | connected
  | succeed (response : Response)
  | fail (error : Bytes)
  | notify
  /-- `reset_connections` closes the connection. -/
  | reset
  deriving DecidableEq, Repr

/-- What ends a wait, if there is one. -/
def ActorItem.endWait (item : ActorItem) : ActorItem :=
  match item.phase with
  | .waiting => { item with phase := .woken }
  | _ => item

namespace TlsActor

def update (ticket : Nat) (f : ActorItem → ActorItem) (s : TlsActor) : TlsActor :=
  { s with items := s.items.modify ticket f }

/-- On the strand: the request enters the queue, and `run` is started if it has ended. -/
def enter (ticket : Nat) (s : TlsActor) : TlsActor :=
  { s.update ticket fun item => { item with phase := .queued } with
    queue := s.queue ++ [ticket]
    entered := s.entered ++ [ticket]
    running := true
    loop := if s.running then s.loop else .top }

/-- `run` takes the first request, or ends. -/
def takeNext (s : TlsActor) : TlsActor :=
  match s.queue with
  | [] => { s with running := false, loop := .ended }
  | ticket :: queue =>
    let s := { s with
      queue, served := s.served ++ [ticket], pendingCount := s.pendingCount - 1 }
    match s.conn with
    | some connection => { s with loop := .exchanging ticket connection }
    -- `conn` is set before the connection is made
    | none => { s with
        loop := .connecting ticket s.made, conn := some s.made, made := s.made + 1 }

/-- The actor is done with a request. -/
def finish (ticket : Nat) (response : Response) (s : TlsActor) : TlsActor :=
  { s.update ticket fun item => { item with response, finished := true } with
    loop := .notifying ticket }

def step (s : TlsActor) : ActorAction → Option TlsActor
  | .submit => some { s with items := s.items ++ [{}], pendingCount := s.pendingCount + 1 }
  | .enter ticket =>
    match s.items[ticket]? with
    | some { phase := .entering, .. } => some (s.enter ticket)
    | _ => none
  | .wait ticket =>
    match s.items[ticket]? with
    | some { phase := .queued, .. } =>
      some (s.update ticket fun item =>
        { item with phase := if item.cancelled then .threw else .waiting })
    | _ => none
  | .cancel ticket =>
    some (s.update ticket fun item => { item with cancelled := true }.endWait)
  | .resume ticket =>
    match s.items[ticket]? with
    | some { phase := .woken, .. } =>
      some (s.update ticket fun item => { item with phase := .returned item.response })
    | _ => none
  | .takeNext =>
    match s.loop with
    | .top => some s.takeNext
    | _ => none
  | .connected =>
    match s.loop with
    | .connecting ticket connection => some { s with loop := .exchanging ticket connection }
    | _ => none
  | .succeed response =>
    match s.loop with
    | .exchanging ticket _ => some (s.finish ticket response)
    | _ => none
  | .fail error =>
    match s.loop.working with
    | some ticket => some { s.finish ticket { error } with conn := none }
    | none => none
  | .notify =>
    match s.loop with
    | .notifying ticket => some { s.update ticket ActorItem.endWait with loop := .top }
    | _ => none
  | .reset => some { s with conn := none }

/-! ### What is to hold -/

/-- The requests enter the queue, are taken and are done in one order, and `run` is there as long
as a request is queued. -/
structure Sound (s : TlsActor) : Prop where
  running : s.running = true ↔ s.loop ≠ .ended
  queue : s.queue ≠ [] → s.running = true
  order : s.served ++ s.queue = s.entered
  nodup : s.entered.Nodup
  entered : ∀ ticket, ticket ∈ s.entered ↔
    ∃ item, s.items[ticket]? = some item ∧ item.phase ≠ .entering
  pending : s.pendingCount + s.served.length = s.items.length
  working : ∀ ticket, s.loop.working = some ticket → ticket ∈ s.served
  finished : ∀ ticket item, s.items[ticket]? = some item →
    (item.finished = true ↔ ticket ∈ s.served ∧ s.loop.working ≠ some ticket)

/-- A caller waits, and the actor has done with its request and is not going to notify it. -/
def Forgotten (s : TlsActor) (ticket : Nat) : Prop :=
  ∃ item, s.items[ticket]? = some item ∧ item.phase = .waiting ∧ item.finished = true ∧
    s.loop ≠ .notifying ticket

def NoneForgotten (s : TlsActor) : Prop := ∀ ticket, ¬ s.Forgotten ticket

/-- The connection that `run` uses is the one that the actor has. -/
def InUse (s : TlsActor) : Prop :=
  ∀ connection, s.loop.uses = some connection → s.conn = some connection

/-- A caller that begins to wait does so before its request is done, or before it is notified. -/
def WaitsInTime (s : TlsActor) : ActorAction → Prop
  | .wait ticket => ∀ item, s.items[ticket]? = some item → item.finished = true →
      item.cancelled = true ∨ s.loop = .notifying ticket
  | _ => True

/-- The connection is closed only while `run` does not use it. -/
def ResetsUnused (s : TlsActor) : ActorAction → Prop
  | .reset => s.loop.uses = none
  | _ => True

instance (s : TlsActor) : ∀ action, Decidable (s.WaitsInTime action)
  | .wait ticket =>
    decidable_of_iff (s.items[ticket]?.all fun item =>
      !item.finished || item.cancelled || decide (s.loop = .notifying ticket)) (by
        cases h : s.items[ticket]? with
        | none => simp [WaitsInTime, h]
        | some item =>
          cases hfinished : item.finished with
          | true => simp [WaitsInTime, h, hfinished]
          | false => simp [WaitsInTime, h, hfinished])
  | .submit | .enter _ | .cancel _ | .resume _ | .takeNext | .connected | .succeed _ | .fail _
  | .notify | .reset => isTrue trivial

instance (s : TlsActor) : ∀ action, Decidable (s.ResetsUnused action)
  | .reset => inferInstanceAs (Decidable (s.loop.uses = none))
  | .submit | .enter _ | .wait _ | .cancel _ | .resume _ | .takeNext | .connected | .succeed _
  | .fail _ | .notify => isTrue trivial

variable {s t : TlsActor} {action : ActorAction}

/-! ### What one step does -/

/-- The steps that are enabled, by the action, and what they lead to. -/
inductive Move (s : TlsActor) : ActorAction → TlsActor → Prop where
  | submit : Move s .submit { s with
      items := s.items ++ [{}], pendingCount := s.pendingCount + 1 }
  | enter {ticket : Nat} {item : ActorItem} (hitem : s.items[ticket]? = some item)
      (hphase : item.phase = .entering) : Move s (.enter ticket) (s.enter ticket)
  | wait {ticket : Nat} {item : ActorItem} (hitem : s.items[ticket]? = some item)
      (hphase : item.phase = .queued) : Move s (.wait ticket) (s.update ticket fun item =>
        { item with phase := if item.cancelled then .threw else .waiting })
  | cancel {ticket : Nat} : Move s (.cancel ticket) (s.update ticket fun item =>
      { item with cancelled := true }.endWait)
  | resume {ticket : Nat} {item : ActorItem} (hitem : s.items[ticket]? = some item)
      (hphase : item.phase = .woken) : Move s (.resume ticket) (s.update ticket fun item =>
        { item with phase := .returned item.response })
  | takeNext (hloop : s.loop = .top) : Move s .takeNext s.takeNext
  | connected {ticket connection : Nat} (hloop : s.loop = .connecting ticket connection) :
      Move s .connected { s with loop := .exchanging ticket connection }
  | succeed {ticket connection : Nat} {response : Response}
      (hloop : s.loop = .exchanging ticket connection) :
      Move s (.succeed response) (s.finish ticket response)
  | fail {ticket : Nat} {error : Bytes} (hworking : s.loop.working = some ticket) :
      Move s (.fail error) { s.finish ticket { error } with conn := none }
  | notify {ticket : Nat} (hloop : s.loop = .notifying ticket) :
      Move s .notify { s.update ticket ActorItem.endWait with loop := .top }
  | reset : Move s .reset { s with conn := none }

theorem step_move (hstep : s.step action = some t) : Move s action t := by
  unfold step at hstep
  cases action with
  | submit =>
    obtain rfl := Option.some.inj hstep
    exact .submit
  | enter ticket =>
    dsimp only at hstep
    split at hstep
    case h_1 response finished cancelled hitem =>
      obtain rfl := Option.some.inj hstep
      exact .enter hitem rfl
    case h_2 => cases hstep
  | wait ticket =>
    dsimp only at hstep
    split at hstep
    case h_1 response finished cancelled hitem =>
      obtain rfl := Option.some.inj hstep
      exact .wait hitem rfl
    case h_2 => cases hstep
  | cancel ticket =>
    obtain rfl := Option.some.inj hstep
    exact .cancel
  | resume ticket =>
    dsimp only at hstep
    split at hstep
    case h_1 response finished cancelled hitem =>
      obtain rfl := Option.some.inj hstep
      exact .resume hitem rfl
    case h_2 => cases hstep
  | takeNext =>
    dsimp only at hstep
    split at hstep
    case h_1 hloop =>
      obtain rfl := Option.some.inj hstep
      exact .takeNext hloop
    case h_2 => cases hstep
  | connected =>
    dsimp only at hstep
    split at hstep
    case h_1 ticket connection hloop =>
      obtain rfl := Option.some.inj hstep
      exact .connected hloop
    case h_2 => cases hstep
  | succeed response =>
    dsimp only at hstep
    split at hstep
    case h_1 ticket connection hloop =>
      obtain rfl := Option.some.inj hstep
      exact .succeed hloop
    case h_2 => cases hstep
  | fail error =>
    dsimp only at hstep
    split at hstep
    case h_1 ticket hworking =>
      obtain rfl := Option.some.inj hstep
      exact .fail hworking
    case h_2 => cases hstep
  | notify =>
    dsimp only at hstep
    split at hstep
    case h_1 ticket hloop =>
      obtain rfl := Option.some.inj hstep
      exact .notify hloop
    case h_2 => cases hstep
  | reset =>
    obtain rfl := Option.some.inj hstep
    exact .reset

/-! ### The requests -/

theorem getElem?_update (s : TlsActor) (ticket : Nat) (f : ActorItem → ActorItem) (j : Nat) :
    (s.update ticket f).items[j]? =
      if ticket = j then s.items[j]?.map f else s.items[j]? := by
  rw [update, List.getElem?_modify]
  split_ifs
  · rfl
  · simp

/-- A request and its caller after an update of one of them. -/
theorem of_getElem?_update {ticket j : Nat} {f : ActorItem → ActorItem} {item : ActorItem}
    (h : (s.update ticket f).items[j]? = some item) :
    ∃ old, s.items[j]? = some old ∧ (item = old ∨ ticket = j ∧ item = f old) := by
  rw [getElem?_update] at h
  split_ifs at h with heq
  · obtain ⟨old, hold, rfl⟩ := Option.map_eq_some_iff.mp h
    exact ⟨old, hold, .inr ⟨heq, rfl⟩⟩
  · exact ⟨item, h, .inl rfl⟩

theorem endWait_finished (item : ActorItem) : item.endWait.finished = item.finished := by
  unfold ActorItem.endWait
  split <;> rfl

theorem endWait_entering (item : ActorItem) :
    item.endWait.phase = .entering ↔ item.phase = .entering := by
  unfold ActorItem.endWait
  split
  case h_1 hwaiting => simp [hwaiting]
  case h_2 => exact Iff.rfl

theorem sound_start : Sound {} where
  running := by simp
  queue h := absurd rfl h
  order := rfl
  nodup := List.nodup_nil
  entered := by simp
  pending := rfl
  working _ h := by cases h
  finished := by simp

namespace Sound

/-- A caller goes on, and the actor does not. -/
theorem update (h : s.Sound) {ticket : Nat} {f : ActorItem → ActorItem}
    (hfinished : ∀ item, (f item).finished = item.finished)
    (hphase : ∀ item, s.items[ticket]? = some item →
      ((f item).phase = .entering ↔ item.phase = .entering)) :
    (s.update ticket f).Sound :=
  { h with
    entered := fun j => by
      change j ∈ s.entered ↔ _
      rw [h.entered j, getElem?_update]
      split_ifs with heq
      · subst heq
        cases hitem : s.items[ticket]? with
        | none => simp
        | some item => simp [hphase item hitem]
      · exact Iff.rfl
    pending := by
      change s.pendingCount + s.served.length = (s.items.modify ticket f).length
      rw [h.pending, List.length_modify]
    finished := fun j item hitem => by
      obtain ⟨old, hold, rfl | ⟨-, rfl⟩⟩ := of_getElem?_update hitem
      · exact h.finished j item hold
      · rw [hfinished]
        exact h.finished j old hold }

theorem entered_lt (h : s.Sound) {ticket : Nat} (hentered : ticket ∈ s.entered) :
    ticket < s.items.length := by
  obtain ⟨item, hitem, -⟩ := (h.entered ticket).mp hentered
  exact (List.getElem?_eq_some_iff.mp hitem).1

theorem served_entered (h : s.Sound) {ticket : Nat} (hserved : ticket ∈ s.served) :
    ticket ∈ s.entered := by
  rw [← h.order]
  exact List.mem_append_left _ hserved

theorem submit (h : s.Sound) :
    Sound { s with items := s.items ++ [{}], pendingCount := s.pendingCount + 1 } :=
  { h with
    entered := fun ticket => by
      rw [h.entered ticket]
      dsimp only
      rw [List.getElem?_append]
      split_ifs with hlt
      · exact Iff.rfl
      · -- the new request has not entered the queue
        have hnone : s.items[ticket]? = none := List.getElem?_eq_none (Nat.le_of_not_lt hlt)
        rw [hnone]
        refine iff_of_false (by simp) ?_
        rintro ⟨item, hitem, hphase⟩
        rw [List.getElem?_singleton] at hitem
        split_ifs at hitem
        obtain rfl := Option.some.inj hitem
        exact hphase rfl
    pending := by
      have hpending := h.pending
      dsimp only
      rw [List.length_append, List.length_singleton]
      omega
    finished := fun ticket item hitem => by
      dsimp only at hitem
      rw [List.getElem?_append] at hitem
      split_ifs at hitem with hlt
      · exact h.finished ticket item hitem
      · rw [List.getElem?_singleton] at hitem
        split_ifs at hitem
        obtain rfl := Option.some.inj hitem
        refine iff_of_false Bool.false_ne_true fun hserved => hlt ?_
        exact h.entered_lt (h.served_entered hserved.1) }

theorem enter (h : s.Sound) {ticket : Nat} {item : ActorItem} (hitem : s.items[ticket]? = some item)
    (hphase : item.phase = .entering) : (s.enter ticket).Sound := by
  have hnew : ticket ∉ s.entered := by
    intro hentered
    obtain ⟨other, hother, hnot⟩ := (h.entered ticket).mp hentered
    obtain rfl := Option.some.inj (hitem.symm.trans hother)
    exact hnot hphase
  have hworking : (if s.running then s.loop else RunLoop.top).working = s.loop.working := by
    split_ifs with hrunning
    · rfl
    · -- a loop that has ended works on nothing
      have hended : s.loop = .ended := by
        by_contra hnot
        exact hrunning (h.running.mpr hnot)
      rw [hended]
      rfl
  exact {
    running := by
      refine iff_of_true rfl ?_
      change (if s.running then s.loop else RunLoop.top) ≠ .ended
      split_ifs with hrunning
      · exact h.running.mp hrunning
      · simp
    queue := fun _ => rfl
    order := by
      change s.served ++ (s.queue ++ [ticket]) = s.entered ++ [ticket]
      rw [← List.append_assoc, h.order]
    nodup := List.nodup_append.mpr ⟨h.nodup, List.nodup_singleton ticket, by
      rintro a ha b hb rfl
      exact hnew (List.mem_singleton.mp hb ▸ ha)⟩
    entered := fun j => by
      change j ∈ s.entered ++ [ticket] ↔ ∃ item, (s.update ticket _).items[j]? = some item ∧ _
      rw [List.mem_append, List.mem_singleton, h.entered j, getElem?_update]
      by_cases heq : ticket = j
      · subst heq
        rw [if_pos rfl, hitem]
        simp
      · rw [if_neg heq, or_iff_left (Ne.symm heq)]
    pending := by
      change s.pendingCount + s.served.length = (s.items.modify ticket _).length
      rw [h.pending, List.length_modify]
    working := fun j hj => h.working j (hworking ▸ hj)
    finished := fun j item' hitem' => by
      obtain ⟨old, hold, rfl | ⟨-, rfl⟩⟩ := of_getElem?_update hitem'
      · exact (h.finished j item' hold).trans (by rw [← hworking]; rfl)
      · exact (h.finished j old hold).trans (by rw [← hworking]; rfl) }

/-- `run` takes the first request. Only the one that it takes is worked on. -/
theorem take (h : s.Sound) {ticket : Nat} {queue : List Nat} (htop : s.loop = .top)
    (hqueue : s.queue = ticket :: queue) {loop : RunLoop} (hworking : loop.working = some ticket) :
    Sound { s with
      queue, served := s.served ++ [ticket], pendingCount := s.pendingCount - 1, loop } := by
  have horder : s.served ++ ticket :: queue = s.entered := hqueue ▸ h.order
  have hsplit : s.served ++ [ticket] ++ queue = s.entered := by
    rw [List.append_assoc, List.singleton_append, horder]
  have hnew : ticket ∉ s.served := by
    intro hserved
    -- no request enters the queue twice
    have hnodup := horder ▸ h.nodup
    exact (List.nodup_append.mp hnodup).2.2 ticket hserved ticket List.mem_cons_self rfl
  -- so the number of pending requests is not zero
  have hlength : s.served.length < s.items.length := by
    -- the requests that have entered are among those that there are
    have hsub : s.entered ⊆ List.range s.items.length := fun j hj =>
      List.mem_range.mpr (h.entered_lt hj)
    have hle := (List.subperm_of_subset h.nodup hsub).length_le
    rw [← horder, List.length_append, List.length_cons, List.length_range] at hle
    omega
  have hnone : s.loop.working = none := by rw [htop]; rfl
  exact {
    running := by
      refine iff_of_true (h.queue (by simp [hqueue])) fun hended => ?_
      change loop = .ended at hended
      rw [hended] at hworking
      cases hworking
    queue := fun _ => h.queue (by simp [hqueue])
    order := hsplit
    nodup := h.nodup
    entered := h.entered
    pending := by
      have hpending := h.pending
      dsimp only
      rw [List.length_append, List.length_singleton]
      omega
    working := fun j hj => by
      obtain rfl := Option.some.inj (hworking.symm.trans hj)
      exact List.mem_append_right _ (List.mem_singleton_self ticket)
    finished := fun j item hitem => by
      rw [h.finished j item hitem, hnone, List.mem_append, List.mem_singleton, hworking]
      constructor
      · rintro ⟨hserved, -⟩
        refine ⟨.inl hserved, fun heq => hnew ?_⟩
        exact Option.some.inj heq ▸ hserved
      · rintro ⟨hserved | rfl, hother⟩
        · exact ⟨hserved, by simp⟩
        · exact absurd rfl hother }

theorem takeNext (h : s.Sound) (htop : s.loop = .top) : s.takeNext.Sound := by
  unfold TlsActor.takeNext
  split
  case h_1 hqueue =>
    exact { h with
      running := by simp
      queue := fun hnot => absurd hqueue hnot
      working := fun j hj => by cases hj
      finished := fun j item hitem => by
        rw [h.finished j item hitem, htop]
        exact Iff.rfl }
  case h_2 ticket queue hqueue =>
    dsimp only
    split
    case h_1 connection hconn => exact h.take htop hqueue rfl
    case h_2 hconn =>
      have hworking : (RunLoop.connecting ticket s.made).working = some ticket := rfl
      exact { h.take htop hqueue hworking with }

/-- The loop goes on without a change of what it works on. -/
theorem withLoop (h : s.Sound) {loop : RunLoop} (hrunning : s.loop ≠ .ended)
    (hloop : loop ≠ .ended) (hworking : loop.working = s.loop.working) :
    Sound { s with loop } :=
  { h with
    running := iff_of_true (h.running.mpr hrunning) hloop
    working := fun j hj => h.working j (hworking ▸ hj)
    finished := fun j item hitem => (h.finished j item hitem).trans (by rw [hworking]) }

theorem finish (h : s.Sound) {ticket : Nat} (hworking : s.loop.working = some ticket)
    (response : Response) : (s.finish ticket response).Sound := by
  have hrunning : s.loop ≠ .ended := by
    intro hended
    rw [hended] at hworking
    cases hworking
  exact {
    running := iff_of_true (h.running.mpr hrunning) (by simp [TlsActor.finish])
    queue := h.queue
    order := h.order
    nodup := h.nodup
    entered := fun j => by
      change j ∈ s.entered ↔ ∃ item, (s.update ticket _).items[j]? = some item ∧ _
      rw [h.entered j, getElem?_update]
      split_ifs with heq
      · subst heq
        cases hitem : s.items[ticket]? with
        | none => simp
        | some item => simp
      · exact Iff.rfl
    pending := by
      change s.pendingCount + s.served.length = (s.items.modify ticket _).length
      rw [h.pending, List.length_modify]
    working := fun j hj => by cases hj
    finished := fun j item hitem => by
      change item.finished = true ↔ j ∈ s.served ∧ none ≠ some j
      rw [and_iff_left (by simp)]
      change (s.update ticket _).items[j]? = some item at hitem
      rw [getElem?_update] at hitem
      split_ifs at hitem with heq
      · obtain ⟨old, hold, rfl⟩ := Option.map_eq_some_iff.mp hitem
        exact iff_of_true rfl (heq ▸ h.working ticket hworking)
      · rw [h.finished j item hitem, hworking, and_iff_left]
        exact fun hsome => heq (Option.some.inj hsome) }

theorem step (h : s.Sound) (hstep : s.step action = some t) : t.Sound := by
  cases step_move hstep with
  | submit => exact h.submit
  | enter hitem hphase => exact h.enter hitem hphase
  | wait hitem hphase =>
    refine h.update (fun _ => rfl) fun item hother => ?_
    obtain rfl := Option.some.inj (hitem.symm.trans hother)
    rw [hphase]
    dsimp only
    split_ifs <;> simp
  | cancel => exact h.update (fun _ => endWait_finished _) fun _ _ => endWait_entering _
  | resume hitem hphase =>
    refine h.update (fun _ => rfl) fun item hother => ?_
    obtain rfl := Option.some.inj (hitem.symm.trans hother)
    simp [hphase]
  | takeNext hloop => exact h.takeNext hloop
  | connected hloop => exact h.withLoop (by simp [hloop]) (by simp) (by rw [hloop]; rfl)
  | succeed hloop => exact h.finish (by rw [hloop]; rfl) _
  | fail hworking => exact { h.finish hworking _ with }
  | @notify ticket hloop =>
    have hupdated : (s.update ticket ActorItem.endWait).Sound :=
      h.update endWait_finished fun item _ => endWait_entering item
    refine hupdated.withLoop ?_ (by simp) ?_
    · change s.loop ≠ .ended
      simp [hloop]
    · change _ = s.loop.working
      rw [hloop]
      rfl
  | reset => exact { h with }

end Sound

theorem sound_of_reaches (hreach : Reaches step {} s) : s.Sound :=
  invariant_of_reaches (fun _ _ _ h hstep => h.step hstep) sound_start hreach

/-! ### Callers that wait in vain -/

/-- A loop that has ended notifies nobody. -/
theorem enter_loop (h : s.Sound) (ticket : Nat) :
    (s.enter ticket).loop = s.loop ∨ s.loop = .ended ∧ (s.enter ticket).loop = .top := by
  unfold enter
  dsimp only
  split_ifs with hrunning
  · exact .inl rfl
  · refine .inr ⟨?_, rfl⟩
    by_contra hnot
    exact hrunning (h.running.mpr hnot)

/-- A step that lets nobody wait who has not waited forgets nobody, unless it stops notifying. -/
theorem Forgotten.of_update {ticket j : Nat} {f : ActorItem → ActorItem}
    (h : t.Forgotten j) (hitems : t.items = (s.update ticket f).items)
    (hf : ∀ item, (f item).phase = .waiting → (f item).finished = true →
      ticket ≠ j ∨ item.phase = .waiting ∧ item.finished = true)
    (hloop : t.loop ≠ .notifying j → s.loop ≠ .notifying j) : s.Forgotten j := by
  obtain ⟨item, hitem, hwaiting, hfinished, hnot⟩ := h
  rw [hitems] at hitem
  obtain ⟨old, hold, rfl | ⟨heq, rfl⟩⟩ := of_getElem?_update hitem
  · exact ⟨item, hold, hwaiting, hfinished, hloop hnot⟩
  · obtain ⟨hwaiting, hfinished⟩ := (hf old hwaiting hfinished).resolve_left (not_not_intro heq)
    exact ⟨old, hold, hwaiting, hfinished, hloop hnot⟩

theorem endWait_not_waiting (item : ActorItem) : item.endWait.phase ≠ .waiting := by
  unfold ActorItem.endWait
  split
  case h_1 => simp
  case h_2 hnot => exact fun heq => hnot heq

/-- A step in which nobody begins to wait. -/
theorem NoneForgotten.step (h : s.NoneForgotten) (hsound : s.Sound)
    (hother : ∀ ticket, action ≠ .wait ticket) (hstep : s.step action = some t) :
    t.NoneForgotten := by
  refine fun j hj => h j ?_
  -- the request that is done in this step is going to be notified
  have hne : ∀ {ticket response}, (s.finish ticket response).Forgotten j → ticket ≠ j := by
    rintro ticket response ⟨-, -, -, -, hnot⟩ rfl
    exact hnot rfl
  cases step_move hstep with
  | submit =>
    obtain ⟨item, hitem, hwaiting, hrest⟩ := hj
    dsimp only at hitem
    rw [List.getElem?_append] at hitem
    split_ifs at hitem
    · exact ⟨item, hitem, hwaiting, hrest⟩
    · -- a new request does not wait
      rw [List.getElem?_singleton] at hitem
      split_ifs at hitem
      obtain rfl := Option.some.inj hitem
      cases hwaiting
  | @enter ticket =>
    refine hj.of_update rfl (fun item hwaiting => by cases hwaiting) fun hnot => ?_
    rcases enter_loop hsound ticket with hloop | ⟨hended, -⟩
    · rwa [hloop] at hnot
    · simp [hended]
  | wait => exact absurd rfl (hother _)
  | cancel => exact hj.of_update rfl (fun _ hwaiting => absurd hwaiting (endWait_not_waiting _)) id
  | resume => exact hj.of_update rfl (fun item hwaiting => by cases hwaiting) id
  | takeNext hloop =>
    obtain ⟨item, hitem, hwaiting, hfinished, -⟩ := hj
    refine ⟨item, ?_, hwaiting, hfinished, by simp [hloop]⟩
    unfold takeNext at hitem
    split at hitem
    · exact hitem
    · dsimp only at hitem
      split at hitem <;> exact hitem
  | connected hloop =>
    obtain ⟨item, hitem, hwaiting, hfinished, -⟩ := hj
    exact ⟨item, hitem, hwaiting, hfinished, by simp [hloop]⟩
  | succeed hloop => exact hj.of_update rfl (fun _ _ _ => .inl (hne hj)) fun _ => by simp [hloop]
  | fail hworking =>
    refine hj.of_update rfl (fun _ _ _ => .inl (hne hj)) fun _ hloop => ?_
    rw [hloop] at hworking
    cases hworking
  | @notify ticket hloop =>
    by_cases heq : ticket = j
    · -- its wait has just been ended
      obtain ⟨item, hitem, hwaiting, -⟩ := hj
      change (s.update ticket ActorItem.endWait).items[j]? = some item at hitem
      rw [getElem?_update, if_pos heq] at hitem
      obtain ⟨old, -, rfl⟩ := Option.map_eq_some_iff.mp hitem
      exact absurd hwaiting (endWait_not_waiting old)
    · refine hj.of_update rfl (fun _ _ _ => .inl heq) fun _ hnot => heq ?_
      exact RunLoop.notifying.inj (hloop.symm.trans hnot)
  | reset => exact hj

/-- The caller that begins to wait is the only one that a step can let down. -/
theorem waitsInTime_iff_noneForgotten (hsound : s.Sound) (h : s.NoneForgotten)
    (hstep : s.step action = some t) : s.WaitsInTime action ↔ t.NoneForgotten := by
  by_cases hwait : ∃ ticket, action = .wait ticket
  · obtain ⟨ticket, rfl⟩ := hwait
    cases step_move hstep with
    | wait hitem =>
      constructor
      · rintro hintime j ⟨other, hother, hwaiting, hfinished, hnot⟩
        obtain ⟨old, hold, rfl | ⟨rfl, rfl⟩⟩ := of_getElem?_update hother
        · exact h j ⟨other, hold, hwaiting, hfinished, hnot⟩
        · rcases hintime old hold hfinished with hcancelled | hloop
          · dsimp only at hwaiting
            rw [if_pos hcancelled] at hwaiting
            cases hwaiting
          · exact hnot hloop
      · intro hnone other hother hfinished
        obtain rfl := Option.some.inj (hitem.symm.trans hother)
        by_contra hlate
        rw [not_or] at hlate
        -- a caller that is late waits, and nobody is going to notify it
        have hnew := getElem?_update s ticket (fun item =>
          { item with phase := if item.cancelled then .threw else .waiting }) ticket
        rw [if_pos rfl, hitem, Option.map_some] at hnew
        exact hnone ticket ⟨_, hnew, if_neg hlate.1, hfinished, hlate.2⟩
  · have hother : ∀ ticket, action ≠ .wait ticket := fun ticket heq => hwait ⟨ticket, heq⟩
    have hok : s.WaitsInTime action := by
      cases action with
      | wait ticket => exact absurd rfl (hother ticket)
      | _ => trivial
    exact iff_of_true hok (h.step hsound hother hstep)

theorem Forgotten.of_other {j : Nat} (h : s.Forgotten j) (hitems : t.items[j]? = s.items[j]?)
    (hloop : t.loop ≠ .notifying j) : t.Forgotten j := by
  obtain ⟨item, hitem, hwaiting, hfinished, -⟩ := h
  exact ⟨item, hitems.trans hitem, hwaiting, hfinished, hloop⟩

theorem getElem?_update_other {ticket j : Nat} (hne : ticket ≠ j) (f : ActorItem → ActorItem) :
    (s.update ticket f).items[j]? = s.items[j]? := by
  rw [getElem?_update, if_neg hne]

/-- Nobody but a cancellation helps a caller that has been forgotten. -/
theorem Forgotten.step {j : Nat} (hsound : s.Sound) (h : s.Forgotten j)
    (hother : action ≠ .cancel j) (hstep : s.step action = some t) : t.Forgotten j := by
  obtain ⟨item, hitem, hwaiting, hfinished, hloop⟩ := id h
  have hnotWorking : s.loop.working ≠ some j := ((hsound.finished j item hitem).mp hfinished).2
  -- a step of a caller that does not wait is of another one
  have hne : ∀ {ticket other}, s.items[ticket]? = some other → other.phase ≠ .waiting →
      ticket ≠ j := by
    rintro ticket other hget hphase rfl
    obtain rfl := Option.some.inj (hget.symm.trans hitem)
    exact hphase hwaiting
  -- and so is the request that is done in this step
  have hfinish : ∀ {ticket response}, s.loop.working = some ticket →
      (s.finish ticket response).Forgotten j := by
    intro ticket response hworking
    have hticket : ticket ≠ j := by
      rintro rfl
      exact hnotWorking hworking
    exact h.of_other (getElem?_update_other hticket _) (by simpa [finish] using hticket)
  cases step_move hstep with
  | submit =>
    exact h.of_other (List.getElem?_append_left (List.getElem?_eq_some_iff.mp hitem).1) hloop
  | @enter ticket _ hget hphase =>
    refine h.of_other (getElem?_update_other (hne hget (by simp [hphase])) _) ?_
    rcases enter_loop hsound ticket with heq | ⟨-, htop⟩
    · rwa [heq]
    · simp [htop]
  | wait hget hphase =>
    exact h.of_other (getElem?_update_other (hne hget (by simp [hphase])) _) hloop
  | @cancel ticket =>
    have hticket : ticket ≠ j := fun heq => hother (congrArg _ heq)
    exact h.of_other (getElem?_update_other hticket _) hloop
  | resume hget hphase =>
    exact h.of_other (getElem?_update_other (hne hget (by simp [hphase])) _) hloop
  | takeNext =>
    unfold takeNext
    split
    · exact h.of_other rfl (by simp)
    · dsimp only
      split
      · exact h.of_other rfl (by simp)
      · exact h.of_other rfl (by simp)
  | connected => exact h.of_other rfl (by simp)
  | succeed hexchanging => exact hfinish (by rw [hexchanging]; rfl)
  | fail hworking => exact hfinish hworking
  | @notify ticket hnotifying =>
    have hticket : ticket ≠ j := by
      rintro rfl
      exact hloop hnotifying
    exact h.of_other (getElem?_update_other hticket _) (by simp)
  | reset => exact h.of_other rfl hloop

/-! ### The connection in use -/

/-- A step closes a connection in use only if it is a reset. -/
theorem resetsUnused_iff_inUse (h : s.InUse) (hstep : s.step action = some t) :
    s.ResetsUnused action ↔ t.InUse := by
  cases step_move hstep with
  | submit | wait | cancel | resume => exact iff_of_true trivial h
  | enter =>
    refine iff_of_true trivial fun connection huses => ?_
    unfold enter at huses
    dsimp only at huses
    split_ifs at huses
    · exact h connection huses
    · cases huses
  | takeNext hloop =>
    refine iff_of_true trivial fun connection huses => ?_
    unfold takeNext at huses ⊢
    split at huses
    · cases huses
    · dsimp only at huses ⊢
      split at huses
      -- the connection is the one that the actor has, or the one that it is about to make
      case h_1 old hconn => exact hconn.trans huses
      case h_2 hconn => exact huses
  | connected hloop =>
    refine iff_of_true trivial fun other huses => h other ?_
    rw [hloop]
    exact huses
  | succeed | fail | notify => exact iff_of_true trivial fun other huses => by cases huses
  | reset =>
    constructor
    · intro hunused connection huses
      rw [← huses]
      exact hunused.symm
    · intro hin
      by_contra hused
      obtain ⟨connection, huses⟩ := Option.ne_none_iff_exists'.mp hused
      cases hin connection huses

end TlsActor

/-- In every state that is reached: the requests that have been taken, and then the queue, are
those that have entered it, each once and in their order. All that have been taken are done but
the one that is worked on. The coroutine is there as long as a request is queued, and the
pending requests are those that have not been taken. -/
theorem actor_serves_in_order {s : TlsActor} (hreach : Reaches TlsActor.step {} s) :
    s.served ++ s.queue = s.entered ∧ s.entered.Nodup ∧
      (∀ ticket item, s.items[ticket]? = some item →
        (item.finished = true ↔ ticket ∈ s.served ∧ s.loop.working ≠ some ticket)) ∧
      (s.queue ≠ [] → s.loop ≠ .ended) ∧ (s.running = true ↔ s.loop ≠ .ended) ∧
      s.pendingCount + s.served.length = s.items.length := by
  have h := TlsActor.sound_of_reaches hreach
  exact ⟨h.order, h.nodup, h.finished, fun hqueue => h.running.mp (h.queue hqueue), h.running,
    h.pending⟩

/-- Two requests. The second one enters the queue while the first one is exchanged. -/
def twoOrders : List ActorAction :=
  [.submit, .enter 0, .takeNext, .wait 0, .submit, .connected, .enter 1, .wait 1,
    .succeed { status := 200 }, .notify, .resume 0]

def oneServed : TlsActor :=
  { items :=
      [{ phase := .returned { status := 200 }, response := { status := 200 }, finished := true },
        { phase := .waiting }]
    queue := [1]
    running := true
    loop := .top
    pendingCount := 1
    conn := some 0
    made := 1
    entered := [0, 1]
    served := [0] }

theorem exec_twoOrders : exec TlsActor.step {} twoOrders = some oneServed := by decide

theorem actor_serves_in_order_two :
    oneServed.served ++ oneServed.queue = oneServed.entered ∧ oneServed.entered.Nodup ∧
      (∀ ticket item, oneServed.items[ticket]? = some item → (item.finished = true ↔
        ticket ∈ oneServed.served ∧ oneServed.loop.working ≠ some ticket)) ∧
      (oneServed.queue ≠ [] → oneServed.loop ≠ .ended) ∧
      (oneServed.running = true ↔ oneServed.loop ≠ .ended) ∧
      oneServed.pendingCount + oneServed.served.length = oneServed.items.length :=
  actor_serves_in_order ⟨twoOrders, exec_twoOrders⟩

/-- In every state of a run no caller waits for a request that is done and whose notification is
over, if and only if every caller begins to wait before its request is done or before it is
notified. -/
theorem actor_forgets_none_iff {actions : List ActorAction} {s : TlsActor}
    (hrun : exec TlsActor.step {} actions = some s) :
    Along TlsActor.step TlsActor.WaitsInTime {} actions ↔
      ∀ before after t, actions = before ++ after → exec TlsActor.step {} before = some t →
        t.NoneForgotten := by
  refine along_iff_throughout_of_invariant (fun _ _ _ h hstep => TlsActor.Sound.step h hstep)
    (fun _ _ _ hs h hstep => TlsActor.waitsInTime_iff_noneForgotten hs h hstep)
    TlsActor.sound_start ?_ hrun
  rintro j ⟨item, hitem, -⟩
  cases hitem

/-- The connection cannot be set up, and the request is done before its caller waits. -/
def failedEarly : List ActorAction :=
  [.submit, .enter 0, .takeNext, .fail (str "tlsv1 alert"), .notify, .wait 0]

def waitsInVain : TlsActor :=
  { items := [{ phase := .waiting, response := { error := str "tlsv1 alert" }, finished := true }]
    running := true
    loop := .top
    made := 1
    entered := [0]
    served := [0] }

theorem exec_failedEarly : exec TlsActor.step {} failedEarly = some waitsInVain := by decide

theorem actor_forgets_none_iff_failedEarly :
    ¬ ∀ before after t, failedEarly = before ++ after → exec TlsActor.step {} before = some t →
      t.NoneForgotten :=
  (actor_forgets_none_iff exec_failedEarly).not.mp (by decide)

/-- A caller that has been forgotten waits in every run that goes on from there, unless it is
cancelled. -/
theorem forgotten_for_ever {actions : List ActorAction} {s t : TlsActor} {ticket : Nat}
    (hs : Reaches TlsActor.step {} s) (hforgotten : s.Forgotten ticket)
    (hrun : exec TlsActor.step s actions = some t) (hnone : .cancel ticket ∉ actions) :
    t.Forgotten ticket := by
  have hall : Along TlsActor.step (fun _ _ => True) s actions :=
    along_of_forall (fun _ _ => trivial) _ _
  have hne : ∀ a ∈ actions, a ≠ .cancel ticket := fun a ha heq => hnone (heq ▸ ha)
  have hstep : ∀ u a v, u.Sound ∧ u.Forgotten ticket → True ∧ a ≠ .cancel ticket →
      TlsActor.step u a = some v → v.Sound ∧ v.Forgotten ticket :=
    fun u a v hu ha hv => ⟨hu.1.step hv, hu.2.step hu.1 ha.2 hv⟩
  exact (invariant_of_along hstep ⟨TlsActor.sound_of_reaches hs, hforgotten⟩
    (hall.and_mem hne) hrun).2

theorem forgotten_for_ever_failedEarly :
    TlsActor.Forgotten { waitsInVain with running := false, loop := .ended } 0 :=
  forgotten_for_ever ⟨failedEarly, exec_failedEarly⟩ ⟨_, rfl, rfl, rfl, by decide⟩
    (show exec TlsActor.step waitsInVain [.takeNext] = some _ by decide) (by decide)

/-- In every state of a run the connection that the actor uses is there, if and only if no reset
comes while it connects or exchanges. -/
theorem actor_connection_kept_iff {actions : List ActorAction} {s : TlsActor}
    (hrun : exec TlsActor.step {} actions = some s) :
    Along TlsActor.step TlsActor.ResetsUnused {} actions ↔
      ∀ before after t, actions = before ++ after → exec TlsActor.step {} before = some t →
        t.InUse := by
  refine along_iff_throughout (fun _ _ _ h hstep => TlsActor.resetsUnused_iff_inUse h hstep)
    (fun connection huses => ?_) hrun
  cases huses

/-- A reset while a request is exchanged. -/
def resetInUse : List ActorAction := [.submit, .enter 0, .takeNext, .connected, .reset]

def lostConnection : TlsActor :=
  { items := [{ phase := .queued }]
    running := true
    loop := .exchanging 0 0
    made := 1
    entered := [0]
    served := [0] }

theorem exec_resetInUse : exec TlsActor.step {} resetInUse = some lostConnection := by decide

theorem actor_connection_kept_iff_resetInUse :
    ¬ ∀ before after t, resetInUse = before ++ after → exec TlsActor.step {} before = some t →
      t.InUse :=
  (actor_connection_kept_iff exec_resetInUse).not.mp (by decide)

end HttpClient.H1
