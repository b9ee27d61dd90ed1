import HttpClient.H2.SlotAccounts

/-!
# Handlers are invoked once

A request made with a handler has four ways to end: its coroutine fails and invokes the
handler itself, or it leaves the handler in the stream table, where the completion of the
stream, its expiry or a failure of the connection finds it.

At any time each such request is in one place. Either its coroutine has not ended yet, or
its handler is in the table, or the handler has been invoked. Every move of the session
takes a request from one place to another, so the three together always are the requests
that have been made. What a handler does is not modelled, only that it is invoked.

## Main definitions

* `Event`, `handleEvent` — the steps of the session, and requests that are refused at once
* `asked` — the requests made with a handler
* `Kept` — where the requests with a handler are

## Main results

* `Kept.move` — a move keeps the requests with a handler
* `handled_once` — no handler is invoked twice, and none is forgotten
-/

set_option autoImplicit false

namespace HttpClient.H2

open Semantics Text

variable {options : SessionOptions} {g : Guards} {impl impl' : Impl} {hand hand' : Hand}
  {caller : Caller} {handler n i id : Nat}

/-! ### Requests with a handler -/

def Caller.callsBack (handler : Nat) (caller : Caller) : Bool :=
  decide (caller.mode = .callback handler)

def StreamEntry.callsBack (handler : Nat) (entry : StreamEntry) : Bool :=
  decide (entry.handler = some handler)

/-- The running request, if it still has to invoke its handler. -/
def Hand.callsBack (handler : Nat) : Hand → Nat
  | .running caller | .holding caller | .opened caller _ | .failing caller =>
    if caller.callsBack handler then 1 else 0
  | _ => 0

/-- The requests with a handler, wherever they are. -/
def requestsOf (handler : Nat) (s : Impl × Hand) : Nat :=
  s.1.handled.count handler + s.1.callers.countP (Caller.callsBack handler) +
    s.1.table.entries.countP (StreamEntry.callsBack handler) + s.2.callsBack handler

/-- No request with a handler is lost. One that waits for a response has no handler, and a
stream with a handler is in callback mode. -/
structure Kept (handler n : Nat) (s : Impl × Hand) : Prop where
  kept : requestsOf handler s = n
  waits : ∀ c ∈ s.1.callers, c.phase.holdsSlot = true → c.callsBack handler = false
  moded : ∀ e ∈ s.1.table.entries, e.callsBack handler = true → e.callbackMode = true

theorem callsBack_of_awaits (h : ∀ k, caller.mode ≠ .callback k) :
    caller.callsBack handler = false :=
  decide_eq_false (h handler)

theorem count_handled_fail (caller : Caller) :
    (impl.fail caller).handled.count handler =
      impl.handled.count handler + if caller.callsBack handler then 1 else 0 := by
  unfold Impl.fail Caller.callsBack
  cases hmode : caller.mode with
  | callback k => simp [List.count_append, List.count_singleton]
  | awaits => simp
  | preconnect => simp

theorem countP_callers_suspend (caller : Caller) (phase : Phase) :
    (impl.suspend caller phase).callers.countP (Caller.callsBack handler) =
      impl.callers.countP (Caller.callsBack handler) +
        if caller.callsBack handler then 1 else 0 := by
  have hsame : Caller.callsBack handler { caller with phase } = caller.callsBack handler := rfl
  unfold Impl.suspend
  dsimp only
  rw [List.countP_append, List.countP_singleton, hsame]

theorem callsBack_of (hwaits : caller.phase.holdsSlot = true → caller.callsBack handler = false) :
    (Hand.of caller).callsBack handler = if caller.callsBack handler then 1 else 0 := by
  unfold Hand.of
  cases hphase : caller.phase with
  | responseWait id w =>
    have hnone := hwaits (by simp [hphase, Phase.holdsSlot])
    simp [Hand.callsBack, hnone]
  | _ => rfl

/-! ### Moves -/

/-- The requests, the handlers and the table stay as they are. -/
theorem Kept.of_eq (h : Kept handler n (impl, hand)) (htable : impl'.table = impl.table)
    (hcallers : impl'.callers = impl.callers)
    (hkept : impl'.handled.count handler + hand'.callsBack handler =
      impl.handled.count handler + hand.callsBack handler) : Kept handler n (impl', hand') := by
  obtain ⟨hcount, hwaits, hmoded⟩ := h
  refine ⟨?_, ?_, ?_⟩
  · unfold requestsOf at *
    dsimp only at hcount ⊢
    rw [htable, hcallers]
    omega
  · dsimp only
    rwa [hcallers]
  · dsimp only
    rwa [htable]

/-- The running request is suspended. -/
theorem Kept.suspend {phase : Phase} (h : Kept handler n (impl, hand))
    (hhand : hand.callsBack handler = if caller.callsBack handler then 1 else 0)
    (hphase : phase.holdsSlot = true → caller.callsBack handler = false) :
    Kept handler n (impl.suspend caller phase, .ended) := by
  obtain ⟨hcount, hwaits, hmoded⟩ := h
  refine ⟨?_, fun c hc => ?_, hmoded⟩
  · unfold requestsOf at *
    have hhandled : (impl.suspend caller phase).handled = impl.handled := rfl
    have htable : (impl.suspend caller phase).table = impl.table := rfl
    have hended : Hand.ended.callsBack handler = 0 := rfl
    dsimp only at hcount ⊢
    rw [countP_callers_suspend, hhandled, htable, hended]
    omega
  · rcases List.mem_append.mp hc with hmem | hmem
    · exact hwaits c hmem
    · obtain rfl := List.mem_singleton.mp hmem
      exact hphase

/-- The table changes, but not the handlers in it. -/
theorem Kept.table {table : StreamTable} (h : Kept handler n (impl, hand))
    (hhand : hand'.callsBack handler = hand.callsBack handler)
    (hsame : table.entries.countP (StreamEntry.callsBack handler) =
      impl.table.entries.countP (StreamEntry.callsBack handler))
    (hmoded : ∀ e ∈ table.entries, e.callsBack handler = true → e.callbackMode = true) :
    Kept handler n ({ impl with table }, hand') := by
  refine ⟨?_, h.waits, hmoded⟩
  have hcount := h.kept
  unfold requestsOf at *
  dsimp only at hcount ⊢
  rw [hsame, hhand]
  exact hcount

/-- A stream that is not in callback mode has no handler. -/
theorem Kept.entry {entry : StreamEntry} (h : Kept handler n (impl, hand))
    (hfind : impl.table.find id = some entry) (hmode : entry.callbackMode = false) :
    entry.callsBack handler = false := by
  by_contra hcalls
  have hmoded := h.moded entry (StreamTable.mem_of_find hfind) (by simpa using hcalls)
  rw [hmode] at hmoded
  cases hmoded

/-- A stream that is not in callback mode leaves the table. -/
theorem Kept.releaseEntry {entry : StreamEntry} (h : Kept handler n (impl, hand))
    (hfind : impl.table.find id = some entry) (hmode : entry.callbackMode = false) :
    Kept handler n ({ impl with table := impl.table.releaseEntry id }, hand) := by
  have hrelease := StreamTable.countP_releaseEntry hfind (StreamEntry.callsBack handler)
  rw [h.entry hfind hmode] at hrelease
  exact h.table rfl hrelease.symm fun e he => h.moded e (List.mem_of_mem_eraseP he)

/-- A stream that is not in callback mode becomes done. -/
theorem Kept.wake_markDone {entry : StreamEntry} (h : Kept handler n (impl, hand))
    (hfind : impl.table.find id = some entry) (hmode : entry.callbackMode = false) :
    Kept handler n ({ impl with table := (impl.table.markDone id).wake id }, hand) := by
  have hbefore := h.entry hfind hmode
  have hnone : StreamEntry.callsBack handler { entry with done := true } = false := hbefore
  refine h.table rfl (StreamTable.countP_wake_markDone hfind _ rfl) ?_
  rw [StreamTable.entries_wake]
  refine StreamTable.forall_update h.moded hfind fun hcalls => ?_
  rw [hnone] at hcalls
  cases hcalls

/-- The handlers of the streams in callback mode are invoked when the connection fails. -/
theorem Kept.failAll (h : Kept handler n (impl, hand)) (hcallers : impl'.callers = impl.callers)
    (htable : impl'.table = impl.table.failAll)
    (hhandled : impl'.handled = impl.handled ++ impl.table.failing.filterMap StreamEntry.handler)
    (hhand : hand'.callsBack handler = hand.callsBack handler) :
    Kept handler n (impl', hand') := by
  obtain ⟨hcount, hwaits, hmoded⟩ := h
  have hfailing : (impl.table.failing.filterMap StreamEntry.handler).count handler =
      impl.table.failing.countP (StreamEntry.callsBack handler) := by
    induction impl.table.failing with
    | nil => rfl
    | cons e entries ih =>
      cases hhandler : e.handler <;>
        simp [StreamEntry.callsBack, hhandler, List.count_cons, List.countP_cons] at ih ⊢ <;> omega
  have hsplit : impl.table.entries.countP (StreamEntry.callsBack handler) =
      impl.table.failing.countP (StreamEntry.callsBack handler) +
        impl.table.failAll.entries.countP (StreamEntry.callsBack handler) := by
    have hrest : impl.table.failAll.entries.countP (StreamEntry.callsBack handler) =
        (impl.table.entries.filter fun e => !(!e.done && e.callbackMode)).countP
          (StreamEntry.callsBack handler) := by
      unfold StreamTable.failAll
      dsimp only
      rw [List.countP_map]
      simp only [Bool.not_and, Bool.not_not]
      rfl
    rw [hrest]
    exact List.countP_eq_countP_filter_add _ _ _
  refine ⟨?_, ?_, ?_⟩
  · unfold requestsOf at *
    dsimp only at hcount ⊢
    rw [hhandled, hcallers, htable, List.count_append, hfailing, hhand]
    omega
  · dsimp only
    rwa [hcallers]
  · dsimp only
    rw [htable]
    intro e he
    obtain ⟨entry, hentry, rfl⟩ := List.mem_map.mp he
    exact hmoded entry (List.mem_of_mem_filter hentry)

theorem Kept.move {s t : Impl × Hand} (hfresh : g.fresh) (htracked : Tracked s)
    (h : Kept handler n s) (hmove : Move options g s t) : Kept handler n t := by
  cases hmove with
  | elsewhere hview =>
    simp only [Impl.view, Prod.mk.injEq] at hview
    exact h.of_eq hview.2.1 hview.2.2.1 (by rw [hview.2.2.2.1])
  | blur hold => exact absurd hfresh hold
  | @take impl i caller hcaller =>
    obtain ⟨hcount, hwaits, hmoded⟩ := h
    have hmem : caller ∈ impl.callers := List.mem_of_getElem? hcaller
    refine ⟨?_, fun c hc => hwaits c (List.mem_of_mem_eraseIdx hc), hmoded⟩
    have hsplit := countP_without hcaller (Caller.callsBack handler)
    unfold requestsOf at *
    dsimp only at hcount ⊢
    rw [callsBack_of (hwaits caller hmem)]
    simp only [Hand.callsBack, Impl.without] at hcount hsplit ⊢
    omega
  | @signal impl i caller hcaller hmode =>
    obtain ⟨hcount, hwaits, hmoded⟩ := h
    have hnone : Caller.callsBack handler { caller with cancelled := true } = false :=
      callsBack_of_awaits hmode
    refine ⟨?_, fun c hc => ?_, hmoded⟩
    · have hcalls := countP_signal hcaller (hnone.trans (callsBack_of_awaits hmode).symm)
      unfold requestsOf at *
      dsimp only at hcount ⊢
      rw [hcalls]
      exact hcount
    · rcases List.mem_append.mp hc with hmem | hmem
      · exact hwaits c (List.mem_of_mem_eraseIdx hmem)
      · obtain rfl := List.mem_singleton.mp hmem
        exact fun _ => hnone
  | connect _ hphase =>
    refine h.suspend rfl fun hholds => ?_
    rw [holdsSlot_of_attempt hphase] at hholds
    cases hholds
  | @queueConnect impl caller =>
    have hqueued : Kept handler n ({ impl with admission := impl.admission.enqueueConnect },
        .running caller) := h.of_eq rfl rfl rfl
    exact hqueued.suspend rfl fun hholds => by cases hholds
  | @queue impl caller =>
    have hqueued : Kept handler n ({ impl with admission := impl.admission.enqueueStream },
        .running caller) := h.of_eq rfl rfl rfl
    exact hqueued.suspend rfl fun hholds => by cases hholds
  | fail =>
    obtain ⟨hcallers, htable, -⟩ := callers_fail
    exact h.of_eq htable hcallers (count_handled_fail _)
  | openStream =>
    refine h.table rfl ?_ fun e he hcalls => ?_
    · simp [StreamTable.acquireEntry, StreamEntry.callsBack]
    · rcases List.mem_append.mp he with hmem | hmem
      · exact h.moded e hmem hcalls
      · obtain rfl := List.mem_singleton.mp hmem
        cases hcalls
  | @handOver impl caller id k hmode =>
    -- The handler passes from the request to the stream.
    obtain ⟨hfind, -⟩ := htracked.opened id rfl
    refine ⟨?_, h.waits, StreamTable.forall_update h.moded hfind fun _ => rfl⟩
    have hcount := h.kept
    have hupdate := StreamTable.countP_update hfind (StreamEntry.callsBack handler) fun entry =>
      { entry with callbackMode := true, handler := some k }
    have hcalls : Caller.callsBack handler caller = decide (k = handler) := by
      simp [Caller.callsBack, hmode]
    have hpassed : StreamEntry.callsBack handler { id, callbackMode := true, handler := some k } =
        decide (k = handler) := by simp [StreamEntry.callsBack]
    have hbefore : StreamEntry.callsBack handler { id } = false := rfl
    unfold requestsOf at *
    simp only [Hand.callsBack, hcalls, hpassed, hbefore, Bool.false_eq_true,
      if_false] at hcount hupdate ⊢
    omega
  | @awaitStream impl caller id hmode =>
    have hregistered : Kept handler n ({ impl with table := impl.table.register id },
        .opened caller id) := h.table rfl rfl h.moded
    exact hregistered.suspend rfl fun _ => callsBack_of_awaits hmode
  | abandon => exact h.table rfl rfl h.moded
  | forget hold => exact absurd hfresh hold
  | @retire impl caller id w =>
    obtain ⟨-, entry, hfind, hmode, -⟩ := htracked.waits.awaits (id, w) List.mem_cons_self
    have hunregistered : Kept handler n ({ impl with table := impl.table.unregister id },
        .leaving) := h.table rfl rfl h.moded
    exact hunregistered.releaseEntry hfind hmode
  | @cancel impl caller id w =>
    obtain ⟨-, entry, hfind, hmode, -⟩ := htracked.waits.awaits (id, w) List.mem_cons_self
    have hunregistered : Kept handler n ({ impl with table := impl.table.unregister id },
        .leaving) := h.table rfl rfl h.moded
    exact (hunregistered.wake_markDone hfind hmode).releaseEntry
      (StreamTable.find_wake_markDone hfind) hmode
  | vanish => exact h.table rfl rfl h.moded
  | @complete impl entry _ hfind =>
    unfold Impl.completeEntry
    split_ifs with hmode
    · -- The handler passes from the stream to its invocation.
      have hrelease := StreamTable.countP_releaseEntry hfind (StreamEntry.callsBack handler)
      have hhandled : entry.handler.toList.count handler =
          if entry.callsBack handler then 1 else 0 := by
        unfold StreamEntry.callsBack
        cases entry.handler <;> simp [List.count_singleton]
      refine ⟨?_, h.waits, fun e he => h.moded e (List.mem_of_mem_eraseP he)⟩
      have hcount := h.kept
      unfold requestsOf at *
      simp only [Hand.callsBack, Impl.finishCallback, Impl.releaseStreamSlot,
        List.count_append] at hcount ⊢
      omega
    · have hmode' : entry.callbackMode = false := by simpa using hmode
      exact h.wake_markDone hfind hmode'
  | failAll => exact h.failAll rfl rfl rfl rfl
  | limit => exact h.of_eq rfl rfl rfl
  | @close impl hand => exact h.failAll rfl rfl rfl rfl
  | closeHeld => exact h.failAll rfl rfl rfl rfl
  | stop _ hhand => rcases hhand with rfl | rfl <;> exact h.failAll rfl rfl rfl rfl
  | _ => exact h.of_eq rfl rfl rfl

/-! ### Runs -/

/-- The steps of the session, and requests with a handler that are refused at once because
their address is not understood. -/
inductive Event where
  | step (action : Action)
  | refuse (handler : Nat) (request : Request)

/-- One event; `none` if it is not enabled. -/
def handleEvent (options : SessionOptions) (impl : Impl) : Event → Option Impl
  | .step action => step options impl action
  | .refuse handler request =>
    some (impl.fail { mode := .callback handler, request, cancelled := false,
                      phase := .connectWait 0 })

/-- Whether an event is a request with a handler. -/
def Event.asks (handler : Nat) : Event → Bool
  | .step (.request mode _ _) => decide (mode = .callback handler)
  | .step _ => false
  | .refuse k _ => decide (k = handler)

/-- The requests made with a handler. -/
def asked (handler : Nat) (events : List Event) : Nat := events.countP (Event.asks handler)

/-- The engine does not hand out the identifiers of streams that are in use. -/
def OpensFresh (options : SessionOptions) (impl : Impl) : Event → Prop
  | .step action => impl.link.goawayReceived = false →
    ∀ submission ∈ impl.opening options action, impl.Fresh submission
  | .refuse _ _ => True

instance (event : Event) : Decidable (OpensFresh options impl event) :=
  match event with
  | .step _ => inferInstanceAs (Decidable (_ → _))
  | .refuse _ _ => isTrue trivial

/-- What is known of the moves of any step. -/
def openGuards : Guards := { slotGuards with alone := False }

theorem OpensFresh.allows {action : Action} (h : OpensFresh options impl (.step action)) :
    openGuards.Allows options impl action where
  wakes _ := trivial
  tidy htidy := htidy.elim
  fresh _ := h
  alone halone := halone.elim
  expires _ _ _ _ := trivial
  limits _ _ _ _ _ base _ := along_of_forall (fun _ _ _ _ => trivial) base _

theorem Kept.starts (h : Kept handler n (impl, .nothing)) (action : Action) :
    Kept handler (n + if (Event.step action).asks handler then 1 else 0)
      (impl, action.starts) := by
  refine ⟨?_, h.waits, h.moded⟩
  have hcount := h.kept
  unfold requestsOf at *
  cases action with
  | request => exact congrArg (· + _) hcount
  | _ => exact hcount

/-- A request that is refused invokes its handler. -/
theorem Kept.refuse (h : Kept handler n (impl, .nothing)) (k : Nat) (request : Request)
    (hstep : handleEvent options impl (.refuse k request) = some impl') :
    Kept handler (n + if (Event.refuse k request).asks handler then 1 else 0)
      (impl', .nothing) := by
  obtain rfl := Option.some.inj hstep
  refine ⟨?_, h.waits, h.moded⟩
  have hcount := h.kept
  unfold requestsOf at *
  dsimp only at hcount ⊢
  rw [count_handled_fail]
  have hasks : ({ mode := .callback k, request, cancelled := false, phase := .connectWait 0 } :
      Caller).callsBack handler = (Event.refuse k request).asks handler := by
    simp [Caller.callsBack, Event.asks]
  rw [hasks]
  simp only [Impl.fail, Hand.callsBack] at hcount ⊢
  omega

theorem kept_handleEvent {event : Event}
    (h : Tracked (impl, .nothing) ∧ Kept handler n (impl, .nothing))
    (hok : OpensFresh options impl event) (hstep : handleEvent options impl event = some impl') :
    Tracked (impl', .nothing) ∧
      Kept handler (n + if event.asks handler then 1 else 0) (impl', .nothing) := by
  cases event with
  | refuse k request =>
    have hkept := h.2.refuse k request hstep
    obtain rfl := Option.some.inj hstep
    exact ⟨h.1.of_eq rfl rfl rfl (Or.inl rfl), hkept⟩
  | step action =>
    have hkeeps : ∀ s t, Tracked s ∧ Kept handler (n + if (Event.step action).asks handler
        then 1 else 0) s → Move options openGuards s t → Tracked t ∧ Kept handler (n +
          if (Event.step action).asks handler then 1 else 0) t :=
      fun _ _ h hmove => ⟨h.1.move trivial hmove, h.2.move trivial h.1 hmove⟩
    have hstarts : Tracked (impl, action.starts) := by
      cases action with
      | request => exact h.1.of_eq rfl rfl rfl (Or.inl rfl)
      | _ => exact h.1
    obtain ⟨hand, hhand, hmoves⟩ := moves_step hok.allows hstep
    have hends := invariant_of_moves hkeeps ⟨hstarts, h.2.starts action⟩ hmoves
    rcases hhand with rfl | rfl
    · exact hends
    · exact ⟨hends.1.of_eq rfl rfl rfl (Or.inl rfl), hends.2.of_eq rfl rfl rfl⟩

theorem kept_exec {events : List Event}
    (h : Tracked (impl, .nothing) ∧ Kept handler n (impl, .nothing))
    (hok : Along (handleEvent options) (OpensFresh options) impl events)
    (hexec : exec (handleEvent options) impl events = some impl') :
    Kept handler (n + asked handler events) (impl', .nothing) := by
  induction events generalizing impl n with
  | nil =>
    obtain rfl := Option.some.inj hexec
    exact h.2
  | cons event events ih =>
    obtain ⟨mid, hstep, hrest⟩ := exec_cons_eq_some.mp hexec
    -- the count of the requests grows with each event that makes one
    have hkept := ih (kept_handleEvent h hok.1 hstep) (hok.2 mid hstep) hrest
    have hasked : n + asked handler (event :: events) =
        n + (if event.asks handler then 1 else 0) + asked handler events := by
      unfold asked
      rw [List.countP_cons]
      omega
    rwa [hasked]

/-- No handler is invoked more often than requests were made with it, and when none of
these is left, in a coroutine or in the table, it has been invoked for every one. -/
theorem handled_once (options : SessionOptions) (handler : Nat) (events : List Event)
    (impl : Impl) (hok : Along (handleEvent options) (OpensFresh options) {} events)
    (hexec : exec (handleEvent options) {} events = some impl) :
    impl.handled.count handler ≤ asked handler events ∧
      ((∀ c ∈ impl.callers, c.mode ≠ .callback handler) →
        (∀ e ∈ impl.table.entries, e.handler ≠ some handler) →
        impl.handled.count handler = asked handler events) := by
  have hempty : Tracked (({} : Impl), .nothing) ∧ Kept handler 0 (({} : Impl), .nothing) := by
    refine ⟨tracked_empty, ⟨rfl, ?_, ?_⟩⟩
    · exact fun c hc => absurd hc List.not_mem_nil
    · exact fun e he => absurd he List.not_mem_nil
  have hkept := (kept_exec hempty hok hexec).kept
  unfold requestsOf at hkept
  simp only [Hand.callsBack] at hkept
  refine ⟨by omega, fun hcallers hentries => ?_⟩
  have hnobody : impl.callers.countP (Caller.callsBack handler) = 0 :=
    List.countP_eq_zero.mpr fun c hc => by simp [Caller.callsBack, hcallers c hc]
  have hnone : impl.table.entries.countP (StreamEntry.callsBack handler) = 0 :=
    List.countP_eq_zero.mpr fun e he => by simp [StreamEntry.callsBack, hentries e he]
  omega

/-- A request with a handler is answered; another one is refused; a third is still waiting
for its response when the session shuts down. -/
def threeHandlers : List Event :=
  [.step (.request (.callback 1) {} (submission 1)), .step (.resolved 0),
    .step (.established 0 true [] (submission 1)), .refuse 2 {},
    .step (.request (.callback 3) {} (submission 3)), .step (.readLoopStarts 0),
    .step (.readData 0 [.endStream 1, .rstStream 1] false []), .step .shutdown]

theorem handled_once_threeHandlers :
    ∃ impl, exec (handleEvent {}) {} threeHandlers = some impl ∧ impl.handled = [2, 1, 3] ∧
      (impl.handled.count 3 ≤ asked 3 threeHandlers ∧
        ((∀ c ∈ impl.callers, c.mode ≠ .callback 3) →
          (∀ e ∈ impl.table.entries, e.handler ≠ some 3) →
          impl.handled.count 3 = asked 3 threeHandlers)) :=
  ⟨_, rfl, by decide +kernel, handled_once {} 3 threeHandlers _ (by decide +kernel) rfl⟩

end HttpClient.H2
