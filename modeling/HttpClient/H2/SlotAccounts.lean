import HttpClient.H2.SessionMoves

/-!
# Stream slots

A request that waits for its response owns a stream slot, and so does a stream in callback
mode. The session counts the slots in use, and grants one only while the count is below its
limit.

The count is right as long as the connection ends under nobody who owns a slot. Closing a
connection sets the count to zero, but the requests that wait for a response keep their
slots until they resume; the slots they then give back are those of other requests.

## Main definitions

* `Impl.ownedSlots` — the slots in use
* `Tracked` — the streams in the table are those that somebody owns
* `Counted` — the session counts the slots in use
* `KeepsSlots` — the steps that keep the count

## Main results

* `Tracked.move`, `Counted.move` — what one move keeps
* `granted_below_limit` — runs of steps that keep the count
* `slots_lost_by_reset` — a reset makes the session forget a slot
-/

set_option autoImplicit false

namespace HttpClient.H2

open Semantics Text

/-! ### One entry of the table -/

namespace StreamTable

variable {table : StreamTable} {id : Nat} {entry : StreamEntry}

/-- The entry that is found is the first of its identifier. -/
theorem split_of_find (h : table.find id = some entry) :
    ∃ before after, table.entries = before ++ entry :: after ∧
      (table.releaseEntry id).entries = before ++ after ∧
      ∀ f, (table.update id f).entries = before ++ f entry :: after := by
  obtain ⟨hid, before, after, hentries, hbefore⟩ := List.find?_eq_some_iff_append.mp h
  have hid' : entry.id = id := of_decide_eq_true hid
  have hnone : before.find? (fun e => decide (e.id = id)) = none := by
    simpa using hbefore
  refine ⟨before, after, hentries, ?_, fun f => ?_⟩
  · have hne : ∀ e ∈ before, ¬ decide (e.id = id) = true := by simpa using hbefore
    unfold releaseEntry
    simp [hentries, List.eraseP_append_right _ hne, hid']
  · unfold update
    dsimp only
    rw [hentries, updateFirst_append_of_find_eq_none hnone, updateFirst, if_pos hid']

@[simp] theorem entries_wake : (table.wake id).entries = table.entries := by
  unfold wake
  split <;> rfl

/-- An entry that is released is counted no more. -/
theorem countP_releaseEntry (h : table.find id = some entry) (p : StreamEntry → Bool) :
    table.entries.countP p =
      (table.releaseEntry id).entries.countP p + if p entry then 1 else 0 := by
  obtain ⟨before, after, hentries, hreleased, -⟩ := split_of_find h
  rw [hentries, hreleased, List.countP_append, List.countP_append, List.countP_cons]
  omega

/-- An entry that is updated is counted as what it has become. -/
theorem countP_update (h : table.find id = some entry) (p : StreamEntry → Bool)
    (f : StreamEntry → StreamEntry) :
    (table.update id f).entries.countP p + (if p entry then 1 else 0) =
      table.entries.countP p + if p (f entry) then 1 else 0 := by
  obtain ⟨before, after, hentries, -, hupdated⟩ := split_of_find h
  rw [hentries, hupdated, List.countP_append, List.countP_append, List.countP_cons,
    List.countP_cons]
  omega

/-- A stream becomes done. What does not depend on that is counted as before. -/
theorem countP_wake_markDone (hfind : table.find id = some entry) (p : StreamEntry → Bool)
    (hp : p { entry with done := true } = p entry) :
    ((table.markDone id).wake id).entries.countP p = table.entries.countP p := by
  have hcount := countP_update hfind p fun entry => { entry with done := true }
  rw [hp] at hcount
  rw [entries_wake]
  exact Nat.add_right_cancel hcount

theorem forall_update {p : StreamEntry → Prop} {f : StreamEntry → StreamEntry}
    (h : ∀ e ∈ table.entries, p e) (hfind : table.find id = some entry) (hf : p (f entry)) :
    ∀ e ∈ (table.update id f).entries, p e := by
  obtain ⟨before, after, hentries, -, hupdated⟩ := split_of_find hfind
  intro e he
  rw [hentries] at h
  rw [hupdated] at he
  rcases List.mem_append.mp he with hmem | hmem
  · exact h e (List.mem_append_left _ hmem)
  · rcases List.mem_cons.mp hmem with rfl | hmem
    · exact hf
    · exact h e (List.mem_append_right _ (List.mem_cons_of_mem _ hmem))

theorem find_wake_markDone (hfind : table.find id = some entry) :
    ((table.markDone id).wake id).find id = some { entry with done := true } := by
  have hsame : ((table.markDone id).wake id).find id = (table.markDone id).find id := by
    unfold find
    rw [entries_wake]
  rw [hsame]
  exact find_markDone_self hfind

/-- The number of streams in callback mode. -/
def callbacks (table : StreamTable) : Nat := table.entries.countP StreamEntry.callbackMode

/-- Streams in callback mode are not done. -/
def Undone (table : StreamTable) : Prop :=
  ∀ e ∈ table.entries, e.callbackMode = true → e.done = false

theorem Undone.releaseEntry (h : table.Undone) (id : Nat) : (table.releaseEntry id).Undone :=
  fun e he => h e (List.mem_of_mem_eraseP he)

theorem Undone.wake_markDone (h : table.Undone) (hfind : table.find id = some entry)
    (hmode : entry.callbackMode = false) : ((table.markDone id).wake id).Undone := by
  unfold Undone
  rw [entries_wake]
  exact forall_update h hfind fun hcallback => by simp [hmode] at hcallback

/-- A failure of the connection releases all streams in callback mode. -/
theorem Undone.failAll (h : table.Undone) :
    table.failing.length = table.callbacks ∧ table.failAll.callbacks = 0 ∧
      table.failAll.Undone := by
  have hgone : ∀ e ∈ table.failAll.entries, e.callbackMode = false := by
    intro e he
    obtain ⟨entry, hentry, rfl⟩ := List.mem_map.mp he
    obtain ⟨hmem, hkept⟩ := List.mem_filter.mp hentry
    by_contra hmode
    have hcallback : entry.callbackMode = true := by simpa using hmode
    simp [h entry hmem hcallback, hcallback] at hkept
  refine ⟨?_, ?_, fun e he hmode => by simp [hgone e he] at hmode⟩
  · unfold failing callbacks
    rw [← List.countP_eq_length_filter]
    refine List.countP_congr fun e he => ?_
    cases hmode : e.callbackMode with
    | false => simp
    | true => simp [h e he hmode]
  · unfold callbacks
    exact List.countP_eq_zero.mpr fun e he => by simp [hgone e he]

end StreamTable

/-! ### Streams and their owners -/

variable {options : SessionOptions} {g : Guards} {impl impl' : Impl} {hand hand' : Hand}
  {caller : Caller} {i id : Nat}

/-- The stream and the waiter of the running request. -/
def Hand.awaited : Hand → List (Nat × Nat)
  | .awaiting _ id w => [(id, w)]
  | _ => []

/-- The stream the running request has just opened. -/
def Hand.stream : Hand → Option Nat
  | .opened _ id => some id
  | _ => none

/-- The requests that wait for a response find their streams in the table, and a stream
that has just been opened is nobody else's. -/
structure Tracked (s : Impl × Hand) : Prop where
  waits : s.1.table.Waits (s.2.awaited ++ s.1.awaited)
  opened : ∀ id, s.2.stream = some id →
    s.1.table.find id = some { id } ∧ id ∉ s.1.awaited.map Prod.fst

theorem tracked_empty : Tracked (({} : Impl), .nothing) :=
  ⟨⟨fun _ hpair => absurd hpair List.not_mem_nil, List.nodup_nil⟩, fun _ hid => by cases hid⟩

theorem Tracked.of_eq (h : Tracked (impl, hand)) (htable : impl'.table = impl.table)
    (hcallers : impl'.callers = impl.callers) (hawaited : hand'.awaited = hand.awaited)
    (hstream : hand'.stream = none ∨ hand'.stream = hand.stream) : Tracked (impl', hand') := by
  have hsame : impl'.awaited = impl.awaited := by rw [Impl.awaited, hcallers, Impl.awaited]
  refine ⟨?_, fun id hid => ?_⟩
  · dsimp only
    rw [htable, hawaited, hsame]
    exact h.waits
  · rcases hstream with hnone | hstream
    · rw [hnone] at hid
      cases hid
    · dsimp only
      rw [htable, hsame]
      exact h.opened id (hstream.symm.trans hid)

/-- A table in which everybody who waits is still found. -/
theorem Tracked.of_waits {table : StreamTable} (hwaits : table.Waits impl.awaited)
    (htable : impl'.table = table) (hcallers : impl'.callers = impl.callers)
    (hawaited : hand'.awaited = []) (hstream : hand'.stream = none) : Tracked (impl', hand') := by
  have hsame : impl'.awaited = impl.awaited := by rw [Impl.awaited, hcallers, Impl.awaited]
  refine ⟨?_, fun id hid => ?_⟩
  · dsimp only
    rw [htable, hawaited, hsame]
    exact hwaits
  · rw [hstream] at hid
    cases hid

theorem awaited_suspend {phase : Phase} (h : phase.holdsSlot = false) :
    (impl.suspend caller phase).awaited = impl.awaited := by
  have hnone : Caller.awaited { caller with phase } = none := by
    unfold Caller.awaited
    cases phase with
    | responseWait id w => cases h
    | _ => rfl
  simp [Impl.awaited, Impl.suspend, List.filterMap_append, hnone]

/-- A request that is suspended without a stream. -/
theorem Tracked.suspend {phase : Phase} (h : Tracked (impl, .running caller))
    (hphase : phase.holdsSlot = false) : Tracked (impl.suspend caller phase, .ended) := by
  refine ⟨?_, fun id hid => by cases hid⟩
  have hwaits : impl.table.Waits impl.awaited := h.waits
  dsimp only [Hand.awaited]
  rw [List.nil_append, awaited_suspend hphase]
  exact hwaits

theorem awaited_perm (hcaller : impl.callers[i]? = some caller) :
    (caller.awaited.toList ++ (impl.without i).awaited).Perm impl.awaited := by
  obtain ⟨hlt, rfl⟩ := List.getElem?_eq_some_iff.mp hcaller
  have hperm := (List.getElem_cons_eraseIdx_perm hlt).filterMap Caller.awaited
  rw [List.filterMap_cons] at hperm
  unfold Impl.awaited Impl.without
  cases hawaited : impl.callers[i].awaited with
  | none => simpa [hawaited] using hperm
  | some pair => simpa [hawaited] using hperm

theorem awaited_of (caller : Caller) : (Hand.of caller).awaited = caller.awaited.toList := by
  unfold Hand.of Caller.awaited
  cases caller.phase <;> rfl

theorem stream_of (caller : Caller) : (Hand.of caller).stream = none := by
  unfold Hand.of
  cases caller.phase <;> rfl

theorem callers_fail : (impl.fail caller).callers = impl.callers ∧
    (impl.fail caller).table = impl.table ∧ (impl.fail caller).admission = impl.admission := by
  unfold Impl.fail
  cases caller.mode <;> exact ⟨rfl, rfl, rfl⟩

theorem holdsSlot_of_attempt {phase : Phase} {attempt : Nat}
    (h : phase.attempt = some attempt) : phase.holdsSlot = false := by
  cases phase with
  | responseWait id w => cases h
  | _ => rfl

/-- The stream of the running request is nobody else's. -/
theorem waits_awaiting {w : Nat} (h : Tracked (impl, .awaiting caller id w)) :
    impl.table.Waits impl.awaited ∧ id ∉ impl.awaited.map Prod.fst := by
  have hwaits : impl.table.Waits ((id, w) :: impl.awaited) := h.waits
  exact hwaits.tail

theorem Tracked.move {s t : Impl × Hand} (hfresh : g.fresh) (h : Tracked s)
    (hmove : Move options g s t) : Tracked t := by
  cases hmove with
  | elsewhere hview =>
    simp only [Impl.view, Prod.mk.injEq] at hview
    exact h.of_eq hview.2.1 hview.2.2.1 rfl (Or.inr rfl)
  | blur hold => exact absurd hfresh hold
  | take hcaller =>
    refine ⟨?_, fun id hid => by simp [stream_of] at hid⟩
    dsimp only
    rw [awaited_of]
    exact h.waits.perm (awaited_perm hcaller).symm
  | @signal impl i caller hcaller =>
    refine ⟨?_, fun id hid => by cases hid⟩
    have hback : ({ impl with callers := (impl.without i).callers ++
        [{ caller with cancelled := true }] } : Impl).awaited =
          (impl.without i).awaited ++ caller.awaited.toList := by
      have hsame : Caller.awaited { caller with cancelled := true } = caller.awaited := rfl
      cases hawaited : caller.awaited <;>
        simp [Impl.awaited, List.filterMap_append, hsame, hawaited]
    have hwaits : impl.table.Waits impl.awaited := h.waits
    dsimp only [Hand.awaited]
    rw [List.nil_append, hback]
    exact hwaits.perm ((List.perm_append_comm.trans (awaited_perm hcaller)).symm)
  | connect _ hphase => exact h.suspend (holdsSlot_of_attempt hphase)
  | @queueConnect impl caller =>
    have hqueued : Tracked ({ impl with admission := impl.admission.enqueueConnect },
        .running caller) := h.of_eq rfl rfl rfl (Or.inr rfl)
    exact hqueued.suspend rfl
  | @queue impl caller =>
    have hqueued : Tracked ({ impl with admission := impl.admission.enqueueStream },
        .running caller) := h.of_eq rfl rfl rfl (Or.inr rfl)
    exact hqueued.suspend rfl
  | fail => exact h.of_eq callers_fail.2.1 callers_fail.1 rfl (Or.inl rfl)
  | @openStream impl caller id hnone =>
    have hwaits : impl.table.Waits impl.awaited := h.waits
    refine ⟨hwaits.acquireEntry id, fun id' hid => ?_⟩
    obtain rfl := Option.some.inj hid
    exact ⟨StreamTable.find_acquireEntry_self (hnone hfresh),
      hwaits.not_mem_of_find_eq_none (hnone hfresh)⟩
  | @handOver impl caller id handler =>
    have hwaits : impl.table.Waits impl.awaited := h.waits
    exact ⟨hwaits.update (h.opened id rfl).2 fun _ => rfl, fun id hid => by cases hid⟩
  | @awaitStream impl caller id =>
    obtain ⟨hfind, hnobody⟩ := h.opened id rfl
    have hwaits : impl.table.Waits impl.awaited := h.waits
    refine ⟨?_, fun id hid => by cases hid⟩
    have hback : ({ impl with table := impl.table.register id }.suspend caller
        (.responseWait id impl.table.nextWaiter)).awaited =
          impl.awaited ++ [(id, impl.table.nextWaiter)] := by
      simp [Impl.awaited, Impl.suspend, List.filterMap_append, Caller.awaited]
    dsimp only [Hand.awaited]
    rw [List.nil_append, hback]
    exact (hwaits.register hnobody hfind rfl rfl).perm (List.perm_append_singleton _ _).symm
  | @abandon impl caller id =>
    obtain ⟨hfind, hnobody⟩ := h.opened id rfl
    have hwaits : impl.table.Waits impl.awaited := h.waits
    exact Tracked.of_waits (hwaits.register hnobody hfind rfl rfl).tail.1 rfl rfl rfl rfl
  | forget hold => exact absurd hfresh hold
  | @retire impl caller id w =>
    obtain ⟨hwaits, hnobody⟩ := waits_awaiting h
    exact Tracked.of_waits ((hwaits.unregister hnobody).releaseEntry hnobody) rfl rfl rfl rfl
  | @cancel impl caller id w =>
    obtain ⟨hwaits, hnobody⟩ := waits_awaiting h
    have hdone := (hwaits.unregister hnobody).markDone_wake id
    exact Tracked.of_waits (hdone.releaseEntry hnobody) rfl rfl rfl rfl
  | @vanish impl caller id w =>
    obtain ⟨hwaits, hnobody⟩ := waits_awaiting h
    exact Tracked.of_waits (hwaits.unregister hnobody) rfl rfl rfl rfl
  | @complete impl entry _ hfind =>
    have hwaits : impl.table.Waits impl.awaited := h.waits
    unfold Impl.completeEntry
    split_ifs with hmode
    · exact Tracked.of_waits (hwaits.releaseEntry (hwaits.not_mem_of_callbackMode hfind hmode))
        rfl rfl rfl rfl
    · exact Tracked.of_waits (hwaits.markDone_wake entry.id) rfl rfl rfl rfl
  | @failAll impl =>
    have hwaits : impl.table.Waits impl.awaited := h.waits
    exact Tracked.of_waits hwaits.failAll rfl rfl rfl rfl
  | limit => exact h.of_eq rfl rfl rfl (Or.inr rfl)
  | @close impl hand _ hhand =>
    obtain ⟨hawaited, hstream⟩ : hand.awaited = [] ∧ hand.stream = none := by
      rcases hhand with rfl | ⟨caller, rfl, -⟩ <;> exact ⟨rfl, rfl⟩
    have hwaits : impl.table.Waits impl.awaited := by
      have hall : impl.table.Waits (hand.awaited ++ impl.awaited) := h.waits
      rwa [hawaited] at hall
    exact Tracked.of_waits hwaits.failAll rfl rfl hawaited hstream
  | @closeHeld impl caller =>
    have hwaits : impl.table.Waits impl.awaited := h.waits
    exact Tracked.of_waits hwaits.failAll rfl rfl rfl rfl
  | @stop impl hand _ hhand =>
    have hwaits : impl.table.Waits impl.awaited := by
      rcases hhand with rfl | rfl <;> exact h.waits
    exact Tracked.of_waits hwaits.failAll rfl rfl rfl rfl
  | _ => exact h.of_eq rfl rfl rfl (Or.inl rfl)

/-! ### Counting -/

/-- The slots in use: those of the requests that wait for a response and those of the
streams in callback mode. -/
def Impl.ownedSlots (impl : Impl) : Nat :=
  impl.callers.countP (fun caller => caller.phase.holdsSlot) +
    impl.table.callbacks

/-- The slot of the running request. -/
def Hand.slots : Hand → Nat
  | .holding _ | .opened _ _ | .awaiting _ _ _ | .leaving => 1
  | _ => 0

/-- The session counts the slots in use. A stream in callback mode leaves the table when
it is done. -/
structure Counted (s : Impl × Hand) : Prop where
  counted : s.1.admission.activeStreams = s.1.ownedSlots + s.2.slots
  undone : s.1.table.Undone

theorem activeStreams_wakeStreamWaiters (admission : Admission) :
    (admission.wakeStreamWaiters options).activeStreams = admission.activeStreams := by
  unfold Admission.wakeStreamWaiters
  split_ifs <;> rfl

theorem activeStreams_releaseStreamSlot (impl : Impl) :
    (impl.releaseStreamSlot options).admission.activeStreams =
      impl.admission.activeStreams - 1 :=
  activeStreams_wakeStreamWaiters _

theorem countP_without (hcaller : impl.callers[i]? = some caller) (p : Caller → Bool) :
    impl.callers.countP p = (impl.without i).callers.countP p + if p caller then 1 else 0 := by
  obtain ⟨hlt, rfl⟩ := List.getElem?_eq_some_iff.mp hcaller
  rw [← (List.getElem_cons_eraseIdx_perm hlt).countP_eq p, List.countP_cons]
  rfl

/-- A signalled cancellation puts the request at the end; what does not depend on it is
counted as before. -/
theorem countP_signal (hcaller : impl.callers[i]? = some caller) {p : Caller → Bool}
    (hp : p { caller with cancelled := true } = p caller) :
    ((impl.without i).callers ++ [{ caller with cancelled := true }]).countP p =
      impl.callers.countP p := by
  rw [List.countP_append, List.countP_singleton, hp, countP_without hcaller p]

theorem slots_of (caller : Caller) :
    (Hand.of caller).slots = if caller.phase.holdsSlot then 1 else 0 := by
  unfold Hand.of
  cases caller.phase <;> rfl

theorem ownedSlots_suspend (caller : Caller) (phase : Phase) :
    (impl.suspend caller phase).ownedSlots =
      impl.ownedSlots + if phase.holdsSlot then 1 else 0 := by
  unfold Impl.ownedSlots Impl.suspend
  dsimp only
  rw [List.countP_append, List.countP_singleton]
  dsimp only
  omega

/-- The table and the requests stay, and the session's count changes with the hand. -/
theorem Counted.of_eq (h : Counted (impl, hand)) (htable : impl'.table = impl.table)
    (hcallers : impl'.callers = impl.callers)
    (hcounted : impl'.admission.activeStreams + hand.slots =
      impl.admission.activeStreams + hand'.slots) : Counted (impl', hand') := by
  obtain ⟨hcount, hundone⟩ := h
  refine ⟨?_, ?_⟩
  · dsimp only at hcount ⊢
    unfold Impl.ownedSlots at *
    rw [htable, hcallers]
    omega
  · dsimp only
    rw [htable]
    exact hundone

/-- A slot is given back. -/
theorem Counted.releaseStreamSlot (h : Counted (impl, hand)) (hhand : hand.slots = 1)
    (hhand' : hand'.slots = 0) : Counted (impl.releaseStreamSlot options, hand') := by
  refine h.of_eq rfl rfl ?_
  have hcount := h.counted
  dsimp only at hcount
  rw [activeStreams_releaseStreamSlot, hhand, hhand']
  omega

/-- A request is suspended with what it has. -/
theorem Counted.suspend {phase : Phase} (h : Counted (impl, hand))
    (hslots : (if phase.holdsSlot then 1 else 0) = hand.slots) :
    Counted (impl.suspend caller phase, .ended) := by
  refine ⟨?_, h.undone⟩
  have hcount := h.counted
  dsimp only at hcount ⊢
  rw [ownedSlots_suspend, hslots]
  exact hcount

/-- A stream of a request that awaits its response leaves, or changes. -/
theorem Counted.table {table : StreamTable} (h : Counted (impl, hand))
    (hhand : hand'.slots = hand.slots) (hmode : table.callbacks = impl.table.callbacks)
    (hundone : table.Undone) : Counted ({ impl with table }, hand') := by
  refine ⟨?_, hundone⟩
  have hcount := h.counted
  unfold Impl.ownedSlots at *
  dsimp only at hcount ⊢
  rw [hmode, hhand]
  exact hcount

/-- Everybody loses the connection. -/
theorem Counted.disconnect (h : Counted (impl, hand)) (hunowned : impl.Unowned)
    (hcallers : impl'.callers = impl.callers) (htable : impl'.table = impl.table.failAll)
    (hcounted : impl'.admission.activeStreams = 0) (hhand' : hand'.slots = 0) :
    Counted (impl', hand') := by
  obtain ⟨-, hnone, hundone⟩ := h.undone.failAll
  refine ⟨?_, htable ▸ hundone⟩
  have hnobody : impl.callers.countP (fun caller => caller.phase.holdsSlot) = 0 :=
    List.countP_eq_zero.mpr fun c hc => by simp [hunowned.1 c hc]
  unfold Impl.ownedSlots
  dsimp only
  rw [hcounted, hcallers, htable, hnone, hnobody, hhand']

theorem activeStreams_disconnect (impl : Impl) :
    (impl.disconnect options).admission.activeStreams = 0 := by
  unfold Impl.disconnect Impl.failAllStreams
  dsimp only
  rw [activeStreams_wakeStreamWaiters]
  exact Nat.zero_sub _

theorem Counted.move {s t : Impl × Hand} (hfresh : g.fresh) (halone : g.alone)
    (htracked : Tracked s) (h : Counted s) (hmove : Move options g s t) : Counted t := by
  cases hmove with
  | elsewhere hview =>
    simp only [Impl.view, Prod.mk.injEq] at hview
    exact h.of_eq hview.2.1 hview.2.2.1 (by rw [hview.1])
  | blur hold => exact absurd hfresh hold
  | @take impl i caller hcaller =>
    refine ⟨?_, h.undone⟩
    have hcount := h.counted
    have hsplit := countP_without hcaller fun caller => caller.phase.holdsSlot
    unfold Impl.ownedSlots at *
    dsimp only at hcount ⊢
    rw [slots_of]
    simp only [Hand.slots, Impl.without] at hcount hsplit ⊢
    omega
  | @signal impl i caller hcaller =>
    refine ⟨?_, h.undone⟩
    have howned : Impl.ownedSlots { impl with
        callers := (impl.without i).callers ++ [{ caller with cancelled := true }] } =
          impl.ownedSlots := congrArg (· + _) (countP_signal hcaller rfl)
    exact h.counted.trans (congrArg (· + 0) howned.symm)
  | connect _ hphase => exact h.suspend (by simp [holdsSlot_of_attempt hphase, Hand.slots])
  | @queueConnect impl caller =>
    have hqueued : Counted ({ impl with admission := impl.admission.enqueueConnect },
        .running caller) := h.of_eq rfl rfl rfl
    exact hqueued.suspend rfl
  | @queue impl caller =>
    have hqueued : Counted ({ impl with admission := impl.admission.enqueueStream },
        .running caller) := h.of_eq rfl rfl rfl
    exact hqueued.suspend rfl
  | fail =>
    obtain ⟨hcallers, htable, hadmission⟩ := callers_fail
    exact h.of_eq htable hcallers (by rw [hadmission]; rfl)
  | release => exact h.releaseStreamSlot rfl rfl
  | leave => exact h.releaseStreamSlot rfl rfl
  | @openStream impl caller id =>
    refine h.table rfl ?_ fun e he hmode => ?_
    · simp [StreamTable.callbacks, StreamTable.acquireEntry]
    · rcases List.mem_append.mp he with hmem | hmem
      · exact h.undone e hmem hmode
      · obtain rfl := List.mem_singleton.mp hmem
        rfl
  | @handOver impl caller id handler =>
    -- The slot passes from the request to the stream.
    obtain ⟨hfind, -⟩ := htracked.opened id rfl
    refine ⟨?_, StreamTable.forall_update h.undone hfind fun _ => rfl⟩
    have hcount := h.counted
    have hupdate := StreamTable.countP_update hfind StreamEntry.callbackMode fun entry =>
      { entry with callbackMode := true, handler := some handler }
    unfold Impl.ownedSlots StreamTable.callbacks at *
    simp only [Hand.slots, Bool.false_eq_true, if_false, if_true] at hcount hupdate ⊢
    omega
  | @awaitStream impl caller id =>
    have hregistered : Counted ({ impl with table := impl.table.register id },
        .opened caller id) := h.table rfl rfl h.undone
    exact hregistered.suspend rfl
  | abandon => exact h.table rfl rfl h.undone
  | forget hold => exact absurd hfresh hold
  | @retire impl caller id w =>
    obtain ⟨-, entry, hfind, hmode, -⟩ := htracked.waits.awaits (id, w) List.mem_cons_self
    have hfind' : (impl.table.unregister id).find id = some entry := hfind
    refine h.table rfl ?_ (StreamTable.Undone.releaseEntry h.undone id)
    have hrelease := StreamTable.countP_releaseEntry hfind' StreamEntry.callbackMode
    rw [hmode] at hrelease
    exact hrelease.symm
  | @cancel impl caller id w =>
    obtain ⟨-, entry, hfind, hmode, -⟩ := htracked.waits.awaits (id, w) List.mem_cons_self
    have hfind' : (impl.table.unregister id).find id = some entry := hfind
    have hdone := StreamTable.find_wake_markDone hfind'
    have hundone : (impl.table.unregister id).Undone := h.undone
    refine h.table rfl ?_ ((hundone.wake_markDone hfind' hmode).releaseEntry id)
    have hrelease := StreamTable.countP_releaseEntry hdone StreamEntry.callbackMode
    rw [StreamTable.countP_wake_markDone hfind' _ rfl, hmode] at hrelease
    exact hrelease.symm
  | vanish => exact h.table rfl rfl h.undone
  | @complete impl entry _ hfind =>
    unfold Impl.completeEntry
    split_ifs with hmode
    · -- The stream leaves the table with its slot.
      have hrelease := StreamTable.countP_releaseEntry hfind StreamEntry.callbackMode
      rw [if_pos hmode] at hrelease
      refine ⟨?_, StreamTable.Undone.releaseEntry h.undone entry.id⟩
      have hcount := h.counted
      have hactive : ({ impl with table := impl.table.releaseEntry entry.id }.releaseStreamSlot
          options).admission.activeStreams = impl.admission.activeStreams - 1 :=
        activeStreams_releaseStreamSlot _
      unfold Impl.ownedSlots StreamTable.callbacks at *
      simp only [Hand.slots, Impl.finishCallback] at hcount hactive ⊢
      rw [hactive]
      simp only [Impl.releaseStreamSlot]
      omega
    · have hmode' : entry.callbackMode = false := by simpa using hmode
      exact h.table rfl (StreamTable.countP_wake_markDone hfind StreamEntry.callbackMode rfl)
        (StreamTable.Undone.wake_markDone h.undone hfind hmode')
  | @failAll impl =>
    have hbefore : impl.table.Undone := h.undone
    obtain ⟨hfailing, hnone, hundone⟩ := hbefore.failAll
    refine ⟨?_, hundone⟩
    have hcount := h.counted
    unfold Impl.failAllStreams Impl.ownedSlots at *
    simp only [Hand.slots, activeStreams_wakeStreamWaiters] at hcount ⊢
    omega
  | limit =>
    exact h.of_eq rfl rfl (congrArg (· + 0) (activeStreams_wakeStreamWaiters _))
  | @close impl hand hunowned hhand =>
    refine h.disconnect (hunowned halone) rfl rfl (activeStreams_disconnect impl) ?_
    rcases hhand with rfl | ⟨caller, rfl, -⟩ <;> rfl
  | @closeHeld impl caller hunowned =>
    refine h.disconnect (hunowned halone) rfl rfl ?_ rfl
    have hnone : (impl.closeConnection options).admission.activeStreams = 0 :=
      activeStreams_disconnect impl
    rw [activeStreams_releaseStreamSlot, hnone]
  | stop hunowned =>
    exact h.disconnect (hunowned halone) rfl rfl (activeStreams_disconnect _) rfl
  | grant => exact h.of_eq rfl rfl rfl
  | _ => exact h.of_eq rfl rfl rfl

/-! ### Runs -/

/-- What is known of the moves when slots are counted. -/
def slotGuards : Guards where
  fresh := True
  alone := True
  tidy := False
  wakes := True
  expires := fun _ _ => True
  limits := fun _ _ => True

/-- A step keeps the count if it ends the connection only while no request owns a slot,
and opens streams only under identifiers that are not in use. -/
def KeepsSlots (options : SessionOptions) (impl : Impl) (action : Action) : Prop :=
  (impl.disconnects options action = true → ∀ c ∈ impl.callers, c.phase.holdsSlot = false) ∧
    (impl.link.goawayReceived = false →
      ∀ submission ∈ impl.opening options action, impl.Fresh submission)

instance (impl : Impl) (submission : Submission) : Decidable (impl.Fresh submission) :=
  decidable_of_iff (impl.table.find submission.expected = none ∧
    ∀ id ∈ submission.assigned, impl.table.find id = none) Iff.rfl

instance (action : Action) : Decidable (KeepsSlots options impl action) :=
  inferInstanceAs (Decidable (_ ∧ _))

theorem KeepsSlots.allows {action : Action} (h : KeepsSlots options impl action)
    (hcounted : Counted (impl, .nothing)) : slotGuards.Allows options impl action where
  wakes _ := trivial
  tidy htidy := htidy.elim
  fresh _ := h.2
  alone _ hends := ⟨h.1 hends, hcounted.undone⟩
  expires _ _ _ _ := trivial
  limits _ _ _ _ _ base _ := along_of_forall (fun _ _ _ _ => trivial) base _

theorem accounts_step {action : Action} (h : Tracked (impl, .nothing) ∧ Counted (impl, .nothing))
    (hok : KeepsSlots options impl action) (hstep : step options impl action = some impl') :
    Tracked (impl', .nothing) ∧ Counted (impl', .nothing) := by
  have hstarts : Tracked (impl, action.starts) ∧ Counted (impl, action.starts) := by
    cases action with
    | request => exact ⟨h.1.of_eq rfl rfl rfl (Or.inl rfl), h.2.of_eq rfl rfl rfl⟩
    | _ => exact h
  obtain ⟨hand, hhand, hmoves⟩ := moves_step (hok.allows h.2) hstep
  have hkeeps : ∀ s t, Tracked s ∧ Counted s → Move options slotGuards s t →
      Tracked t ∧ Counted t := fun _ _ h hmove =>
    ⟨h.1.move trivial hmove, h.2.move trivial trivial h.1 hmove⟩
  have hends : Tracked (impl', hand) ∧ Counted (impl', hand) :=
    invariant_of_moves hkeeps hstarts hmoves
  rcases hhand with rfl | rfl
  · exact hends
  · exact ⟨hends.1.of_eq rfl rfl rfl (Or.inl rfl), hends.2.of_eq rfl rfl rfl⟩

theorem grants_of_opening {action : Action} (h : (impl.opening options action).isSome = true) :
    impl.grants options = true := by
  cases action <;> simp_all [Impl.opening]

/-- In a run of steps that keep the count, the session counts the slots in use and grants
one only while they are below the limit. -/
theorem granted_below_limit (options : SessionOptions) (actions : List Action) (impl : Impl)
    (hok : Along (step options) (KeepsSlots options) {} actions)
    (hexec : exec (step options) {} actions = some impl) :
    impl.admission.activeStreams = impl.ownedSlots ∧
      ∀ action, (impl.opening options action).isSome = true →
        impl.ownedSlots < impl.admission.streamLimit options := by
  have hempty : Tracked (({} : Impl), .nothing) ∧ Counted (({} : Impl), .nothing) :=
    ⟨tracked_empty, ⟨rfl, fun _ he => absurd he List.not_mem_nil⟩⟩
  obtain ⟨-, hcounted, -⟩ := invariant_of_along
    (fun _ _ _ h hok hstep => accounts_step h hok hstep) hempty hok hexec
  have hcount : impl.admission.activeStreams = impl.ownedSlots := hcounted
  refine ⟨hcount, fun action hopening => ?_⟩
  have hgrants := grants_of_opening hopening
  unfold Impl.grants at hgrants
  rw [← hcount]
  simpa using (Bool.and_eq_true_iff.mp hgrants).2

/-- Two requests share a connection that allows only one stream at a time; the first is
answered before the session is reset. -/
theorem granted_below_limit_oneStream :
    ∃ impl, exec (step { maxConcurrentStreams := 1 }) {} (oneStream ++ [.readData 0
        [.endStream 3] false [], .responseResumed 0 [], .reset]) = some impl ∧
      (impl.admission.activeStreams = impl.ownedSlots ∧
        ∀ action, (impl.opening { maxConcurrentStreams := 1 } action).isSome = true →
          impl.ownedSlots < impl.admission.streamLimit { maxConcurrentStreams := 1 }) := by
  exact ⟨_, rfl, granted_below_limit { maxConcurrentStreams := 1 } (oneStream ++ [.readData 0
    [.endStream 3] false [], .responseResumed 0 [], .reset]) _ (by decide +kernel) rfl⟩

/-- A request waits for its response and another one is in line for the only slot when the
session is reset. The session then counts no slot, though the first request still owns its
own, and would grant the second one a slot. -/
theorem slots_lost_by_reset :
    ¬ ∀ (options : SessionOptions) (actions : List Action) (impl : Impl),
      exec (step options) {} actions = some impl →
        impl.admission.activeStreams = impl.ownedSlots ∧
          ∀ action, (impl.opening options action).isSome = true →
            impl.ownedSlots < impl.admission.streamLimit options := by
  intro h
  have hcounted := (h { maxConcurrentStreams := 1 }
    [.request .awaits {} (submission 1), .resolved 0, .established 0 true [] (submission 1),
      .request .awaits {} (submission 3), .reset] _ rfl).1
  exact absurd hcounted (by decide +kernel)

end HttpClient.H2
