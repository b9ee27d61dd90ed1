import Mathlib.Data.List.Perm.Basic
import HttpClient.H2.StreamWaits

/-!
# Calls into the protocol engine

The session object is created by a connect attempt and deleted when the connection is
closed. Coroutines are suspended in between, so a call into the protocol engine may find
the object gone, or one that belongs to another connection.

The calls are sound in the runs whose steps keep the session: the connection is closed
only while nobody else is connecting or in line for a slot, an attempt does not find the
object of an earlier connection, operations complete successfully only on the current
transport, and the engine does not hand out identifiers of streams still in the table.

## Main definitions

* `Impl.Present` — all calls found the session object of the current connection
* `KeepsSession` — the steps that keep the session
* `Sound` — the invariant of these steps

## Main results

* `present_of_keepsSession` — runs of these steps make sound calls only
* `absent_after_reset` — a reset makes a request that was in line use a deleted session
-/

set_option autoImplicit false

namespace HttpClient.H2

open Semantics Text

variable {options : SessionOptions} {impl impl' : Impl} {caller : Caller} {i id : Nat}

/-- A call finds a session object, created for the current connection. -/
def EngineCall.Present (call : EngineCall) : Prop :=
  ∃ attempt, call.session = some attempt ∧ call.stream = some attempt

def Impl.Present (impl : Impl) : Prop := ∀ call ∈ impl.calls, call.Present

/-! ### The invariant -/

/-- The connect attempt a request is making. -/
def Phase.attempt : Phase → Option Nat
  | .resolving attempt | .establishing attempt => some attempt
  | _ => none

def Phase.waitsForSlot : Phase → Bool
  | .slotWait _ => true
  | _ => false

/-- The stream and the waiter a request is suspended on. -/
def Caller.awaited (caller : Caller) : Option (Nat × Nat) :=
  match caller.phase with
  | .responseWait id w => some (id, w)
  | _ => none

def Impl.awaited (impl : Impl) : List (Nat × Nat) := impl.callers.filterMap Caller.awaited

/-- What a suspended request relies on: its attempt created the session object, and in
line for a slot it will find the session connected or shut down. -/
structure Caller.Fits (link : Link) (caller : Caller) : Prop where
  attempt : ∀ k, caller.phase.attempt = some k → link.session = some k
  slot : caller.phase.waitsForSlot = true → link.connected = true ∨ link.stopping = true

structure Sound (impl : Impl) : Prop where
  /-- The session object belongs to the transport. -/
  own : ∀ k, impl.link.stream = some k → impl.link.session = some k
  connected : impl.link.connected = true → impl.link.stream.isSome = true
  callers : ∀ c ∈ impl.callers, c.Fits impl.link
  undone : ∀ e ∈ impl.table.entries, e.done = false → impl.link.connected = true
  waits : impl.table.Waits impl.awaited
  calls : impl.Present

theorem sound_empty : Sound {} where
  own := fun _ h => by cases h
  connected := fun h => by cases h
  callers := fun _ h => absurd h List.not_mem_nil
  undone := fun _ h => absurd h List.not_mem_nil
  waits := ⟨fun _ h => absurd h List.not_mem_nil, List.nodup_nil⟩
  calls := fun _ h => absurd h List.not_mem_nil

/-- The invariant does not look at the lines, the buffers and the counters. -/
theorem Sound.of_eq (h : Sound impl) (hlink : impl'.link = impl.link)
    (htable : impl'.table = impl.table) (hcallers : impl'.callers = impl.callers)
    (hcalls : impl'.calls = impl.calls) : Sound impl' where
  own := hlink ▸ h.own
  connected := hlink ▸ h.connected
  callers := by rw [hlink, hcallers]; exact h.callers
  undone := by rw [hlink, htable]; exact h.undone
  waits := by rw [Impl.awaited, htable, hcallers]; exact h.waits
  calls := by rw [Impl.Present, hcalls]; exact h.calls

/-- An operation of the table that opens no stream. -/
theorem Sound.of_table {table : StreamTable} (h : Sound impl)
    (hwaits : table.Waits impl.awaited)
    (hundone : ∀ e ∈ table.entries, e.done = false →
      ∃ e' ∈ impl.table.entries, e'.done = false) : Sound { impl with table } where
  own := h.own
  connected := h.connected
  callers := h.callers
  undone := fun e he hdone => by
    obtain ⟨e', he', hdone'⟩ := hundone e he hdone
    exact h.undone e' he' hdone'
  waits := hwaits
  calls := h.calls

/-- A connected session makes sound calls. -/
theorem Sound.call (function : EngineFunction) (h : Sound impl)
    (hstream : impl.link.stream.isSome = true) : Sound (impl.call function) where
  own := h.own
  connected := h.connected
  callers := h.callers
  undone := h.undone
  waits := h.waits
  calls := by
    obtain ⟨attempt, hattempt⟩ := Option.isSome_iff_exists.mp hstream
    intro call hcall
    rcases List.mem_append.mp hcall with hold | hnew
    · exact h.calls call hold
    · rw [List.mem_singleton.mp hnew]
      exact ⟨attempt, h.own attempt hattempt, hattempt⟩

theorem Sound.fail (h : Sound impl) : Sound (impl.fail caller) := by
  unfold Impl.fail
  cases caller.mode with
  | callback handler => exact h.of_eq rfl rfl rfl rfl
  | awaits => exact h
  | preconnect => exact h

/-- A request is suspended. -/
theorem Sound.suspend {phase : Phase} (h : Sound impl)
    (hfits : ({ caller with phase } : Caller).Fits impl.link)
    (hawaited : ∀ pair, ({ caller with phase } : Caller).awaited = some pair →
      impl.table.Awaits pair ∧ pair.1 ∉ impl.awaited.map Prod.fst) :
    Sound (impl.suspend caller phase) where
  own := h.own
  connected := h.connected
  callers := fun c hc => by
    rcases List.mem_append.mp hc with hold | hnew
    · exact h.callers c hold
    · rw [List.mem_singleton.mp hnew]
      exact hfits
  undone := h.undone
  waits := by
    have hsuspended : (impl.suspend caller phase).awaited =
        impl.awaited ++ (({ caller with phase } : Caller).awaited).toList := by
      unfold Impl.suspend Impl.awaited
      rw [List.filterMap_append, List.filterMap_cons]
      cases ({ caller with phase } : Caller).awaited <;> rfl
    rw [hsuspended]
    cases hpair : ({ caller with phase } : Caller).awaited with
    | none => exact (List.append_nil impl.awaited).symm ▸ h.waits
    | some pair =>
      obtain ⟨hawaits, hnobody⟩ := hawaited pair hpair
      exact h.waits.concat hawaits hnobody
  calls := h.calls

/-! ### Taking a request out -/

/-- The session without a request that is about to run. -/
def Impl.without (impl : Impl) (i : Nat) : Impl :=
  { impl with callers := impl.callers.eraseIdx i }

theorem Sound.without (h : Sound impl) (hcaller : impl.callers[i]? = some caller) :
    Sound (impl.without i) ∧ caller.Fits impl.link ∧
      ∀ pair, caller.awaited = some pair →
        impl.table.Awaits pair ∧ pair.1 ∉ (impl.without i).awaited.map Prod.fst := by
  obtain ⟨hlt, rfl⟩ := List.getElem?_eq_some_iff.mp hcaller
  have hperm := List.getElem_cons_eraseIdx_perm hlt
  have hwaits := h.waits.perm (hperm.symm.filterMap Caller.awaited)
  rw [List.filterMap_cons] at hwaits
  refine ⟨⟨h.own, h.connected, fun c hc => h.callers c (List.mem_of_mem_eraseIdx hc), h.undone, ?_,
    h.calls⟩, h.callers _ (List.getElem_mem hlt), fun pair hpair => ?_⟩
  · cases hawaited : impl.callers[i].awaited with
    | none =>
      rw [hawaited] at hwaits
      exact hwaits
    | some pair =>
      rw [hawaited] at hwaits
      exact hwaits.tail.1
  · rw [hpair] at hwaits
    exact ⟨hwaits.awaits pair List.mem_cons_self, hwaits.tail.2⟩

theorem without_of_takeCaller {base : Impl} (htake : impl.takeCaller i = some (caller, base)) :
    impl.callers[i]? = some caller ∧ base = impl.without i :=
  takeCaller_eq_some htake

/-! ### Ending a connection -/

/-- A request that the connection may be closed under. -/
def Caller.AtRest (stopping : Bool) (caller : Caller) : Prop :=
  caller.phase.attempt = none ∧ (caller.phase.waitsForSlot = true → stopping = true)

/-- Nobody is connecting, and nobody in line for a slot will get one. -/
def Impl.AtRest (impl : Impl) : Prop := ∀ c ∈ impl.callers, c.AtRest impl.link.stopping

theorem Sound.closeConnection (h : Sound impl) (hrest : impl.AtRest) :
    Sound (impl.closeConnection options) where
  own := fun _ hk => by cases hk
  connected := fun hconnected => by cases hconnected
  callers := fun c hc => by
    obtain ⟨hattempt, hslot⟩ := hrest c hc
    exact ⟨fun k hk => absurd (hattempt.symm.trans hk) (by simp), fun hw => Or.inr (hslot hw)⟩
  undone := fun e he hdone => by
    rw [StreamTable.done_of_mem_failAll he] at hdone
    cases hdone
  waits := h.waits.failAll
  calls := h.calls

/-- A shutdown keeps the session object, and turns away those in line. -/
theorem Sound.shutdownNow (h : Sound impl) : Sound (impl.shutdownNow options) := by
  unfold Impl.shutdownNow
  split_ifs
  · exact h
  · exact
      { own := fun _ hk => by cases hk
        connected := fun hconnected => by cases hconnected
        callers := fun c hc => ⟨(h.callers c hc).attempt, fun _ => Or.inr rfl⟩
        undone := fun e he hdone => by
          rw [StreamTable.done_of_mem_failAll he] at hdone
          cases hdone
        waits := h.waits.failAll
        calls := h.calls }

theorem Sound.failAllStreams (h : Sound impl) : Sound (impl.failAllStreams options) where
  own := h.own
  connected := h.connected
  callers := h.callers
  undone := fun e he hdone => by
    rw [StreamTable.done_of_mem_failAll he] at hdone
    cases hdone
  waits := h.waits.failAll
  calls := h.calls

theorem Sound.resetNow (h : Sound impl) (hrest : impl.link.stopping = false → impl.AtRest) :
    Sound (impl.resetNow options) := by
  unfold Impl.resetNow
  split_ifs with hstopping
  · exact h
  · have hnew : Sound { impl with
        link := { impl.link with ioGeneration := impl.link.ioGeneration + 1 } } :=
      ⟨h.own, h.connected, fun c hc => ⟨(h.callers c hc).attempt, (h.callers c hc).slot⟩, h.undone,
        h.waits, h.calls⟩
    exact hnew.closeConnection (hrest (by simpa using hstopping))

theorem Sound.connectFailure (h : Sound impl) (hrest : impl.AtRest) :
    Sound (impl.connectFailure options caller) := by
  have hnotified : Sound impl.notifyConnectWaiters :=
    ⟨h.own, h.connected, fun c hc => ⟨(h.callers c hc).attempt, (h.callers c hc).slot⟩, h.undone,
      h.waits, h.calls⟩
  have hclosed : Sound (impl.notifyConnectWaiters.closeConnection options) :=
    hnotified.closeConnection hrest
  exact Sound.fail ⟨hclosed.own, hclosed.connected,
    fun c hc => ⟨(hclosed.callers c hc).attempt, (hclosed.callers c hc).slot⟩, hclosed.undone,
    hclosed.waits, hclosed.calls⟩

/-! ### Output and streams -/

theorem pumpOutput_frame (impl : Impl) (output : Bytes) :
    (impl.pumpOutput output).link = impl.link ∧
      (impl.pumpOutput output).admission = impl.admission ∧
      (impl.pumpOutput output).table = impl.table ∧
      (impl.pumpOutput output).callers = impl.callers := by
  unfold Impl.pumpOutput
  dsimp only
  split_ifs <;> exact ⟨rfl, rfl, rfl, rfl⟩

theorem Sound.pumpOutput (output : Bytes) (h : Sound impl) : Sound (impl.pumpOutput output) := by
  unfold Impl.pumpOutput
  dsimp only
  split_ifs with hquiet
  · exact h
  all_goals
    have hstream : impl.link.stream.isSome = true := by
      simp only [Bool.or_eq_true, not_or, Bool.not_eq_true, Option.isNone_eq_false_iff] at hquiet
      exact hquiet.2
    exact (h.call _ hstream).of_eq rfl rfl rfl rfl

theorem undone_of_releaseEntry {table : StreamTable} {e : StreamEntry}
    (he : e ∈ (table.releaseEntry id).entries) : e ∈ table.entries :=
  List.mem_of_mem_eraseP he

theorem undone_of_markDone_wake {table : StreamTable} {e : StreamEntry}
    (he : e ∈ ((table.markDone id).wake id).entries) (hdone : e.done = false) :
    e ∈ table.entries := by
  have hentries : ((table.markDone id).wake id).entries = (table.markDone id).entries := by
    unfold StreamTable.wake
    split <;> rfl
  rw [hentries] at he
  rcases StreamTable.mem_updateFirst he with hold | ⟨e', -, rfl⟩
  · exact hold
  · cases hdone

theorem Sound.completeEntry {entry : StreamEntry} (h : Sound impl)
    (hfind : impl.table.find id = some entry) : Sound (impl.completeEntry options entry) := by
  have hid := StreamTable.find_eq_some_id hfind
  unfold Impl.completeEntry
  split_ifs with hmode
  · have hnobody := h.waits.not_mem_of_callbackMode hfind hmode
    have hreleased : Sound { impl with table := impl.table.releaseEntry entry.id } :=
      h.of_table (h.waits.releaseEntry (hid ▸ hnobody)) fun e he hdone =>
        ⟨e, undone_of_releaseEntry he, hdone⟩
    exact hreleased.of_eq rfl rfl rfl rfl
  · exact h.of_table (h.waits.markDone_wake entry.id) fun e he hdone =>
      ⟨e, undone_of_markDone_wake he hdone, hdone⟩

theorem Sound.completeStream (h : Sound impl) : Sound (impl.completeStream options id) := by
  unfold Impl.completeStream
  cases hfind : impl.table.find id with
  | none => exact h
  | some entry => exact h.completeEntry hfind

/-- A request cancels its stream after it has left it. -/
theorem Sound.cancelStream {output : Bytes} (h : Sound impl)
    (hid : id ∉ impl.awaited.map Prod.fst)
    (hlive : ∀ entry, impl.table.find id = some entry → impl.link.connected = true) :
    Sound (impl.cancelStream id output) := by
  unfold Impl.cancelStream
  cases hfind : impl.table.find id with
  | none => exact h
  | some entry =>
    refine Sound.pumpOutput output ((h.call _ (h.connected (hlive entry hfind))).of_table
      ((h.waits.markDone_wake id).releaseEntry hid) fun e he hdone => ?_)
    exact ⟨e, undone_of_markDone_wake (undone_of_releaseEntry he) hdone, hdone⟩

theorem Sound.expireStream {state : Impl × Bool} (h : Sound state.1) :
    Sound (Impl.expireStream options state id).1 := by
  unfold Impl.expireStream
  cases hfind : state.1.table.find id with
  | none => exact h
  | some entry =>
    dsimp only
    split_ifs with hdone
    · exact h
    · have hconnected := h.undone entry (StreamTable.mem_of_find hfind) (by simpa using hdone)
      exact (h.call _ (h.connected hconnected)).completeEntry hfind

theorem Sound.expireStreams {ids : List Nat} {output : Bytes} (h : Sound impl) :
    Sound (impl.expireStreams options ids output) := by
  have hfold : ∀ state : Impl × Bool, Sound state.1 →
      Sound (ids.foldl (Impl.expireStream options) state).1 := by
    induction ids with
    | nil => exact fun _ hstate => hstate
    | cons id ids ih => exact fun state hstate => ih _ hstate.expireStream
  unfold Impl.expireStreams
  dsimp only
  split_ifs
  · exact (hfold _ h).pumpOutput output
  · exact hfold _ h

theorem Sound.onFrame {frame : Frame} (h : Sound impl) : Sound (impl.onFrame options frame) := by
  cases frame with
  | maxConcurrentStreams value => exact h.of_eq rfl rfl rfl rfl
  | endStream id => exact h.completeStream
  | rstStream id => exact h.completeStream
  | goaway =>
    exact ⟨h.own, h.connected, fun c hc => ⟨(h.callers c hc).attempt, (h.callers c hc).slot⟩,
      h.undone, h.waits, h.calls⟩

theorem Sound.foldl_onFrame (options : SessionOptions) (frames : List Frame) (h : Sound impl) :
    Sound (frames.foldl (Impl.onFrame options) impl) := by
  induction frames generalizing impl with
  | nil => exact h
  | cons frame frames ih => exact ih h.onFrame

/-! ### Getting a slot and submitting -/

/-- The identifiers the engine hands out are not those of streams in the table. -/
def Impl.Fresh (impl : Impl) (submission : Submission) : Prop :=
  impl.table.find submission.expected = none ∧
    ∀ id ∈ submission.assigned, impl.table.find id = none

/-- A request that is granted a slot submits its stream under a fresh identifier, or
closes a connection that is going away under nobody else. -/
def Impl.SubmitsSafely (options : SessionOptions) (impl : Impl) (submission : Submission) : Prop :=
  impl.grants options = true →
    if impl.link.goawayReceived = true then impl.AtRest else impl.Fresh submission

/-- A submission throws, or opens a stream that nobody waits for yet. -/
theorem Sound.submitStream_cases (options : SessionOptions) {submission : Submission}
    (h : Sound impl)
    (hconnected : impl.link.connected = true)
    (hsafe : if impl.link.goawayReceived = true then impl.AtRest else impl.Fresh submission) :
    (∃ impl', impl.submitStream options submission = (none, impl') ∧ Sound impl') ∨
      ∃ id impl', impl.submitStream options submission = (some id, impl') ∧ Sound impl' ∧
        impl'.link.connected = true ∧ impl'.table.find id = some { id } ∧
        id ∉ impl'.awaited.map Prod.fst := by
  unfold Impl.submitStream
  split_ifs at hsafe ⊢ with hgoaway
  · exact Or.inl ⟨_, rfl, h.closeConnection hsafe⟩
  obtain ⟨hexpected, hassigned⟩ := hsafe
  have hstream := h.connected hconnected
  have hcalled : Sound ((impl.call .getNextStreamId).call .submitRequest) :=
    (h.call _ hstream).call _ hstream
  cases hid : submission.assigned with
  | none =>
    refine Or.inl ⟨_, rfl, hcalled.of_eq rfl ?_ rfl rfl⟩
    exact StreamTable.releaseEntry_acquireEntry hexpected
  | some id =>
    have hfresh := hassigned id hid
    have hopened : Sound { (impl.call .getNextStreamId).call .submitRequest with
        table := impl.table.acquireEntry id } :=
      { own := h.own
        connected := h.connected
        callers := h.callers
        undone := fun _ _ _ => hconnected
        waits := h.waits.acquireEntry id
        calls := hcalled.calls }
    have htable : (impl.table.acquireEntry submission.expected).renumber submission.expected id =
        impl.table.acquireEntry id := StreamTable.renumber_acquireEntry hexpected
    refine Or.inr ⟨id, _, rfl, ?_⟩
    dsimp only [Impl.call]
    rw [htable]
    obtain ⟨hlink, -, htable', hcallers⟩ := pumpOutput_frame
      { (impl.call .getNextStreamId).call .submitRequest with
        table := impl.table.acquireEntry id } submission.output
    refine ⟨hopened.pumpOutput _, ?_, ?_, ?_⟩
    · exact (congrArg Link.connected hlink).trans hconnected
    · refine (congrArg (StreamTable.find · id) htable').trans ?_
      exact StreamTable.find_acquireEntry_self hfresh
    · have hsame := congrArg (fun callers : List Caller =>
        id ∈ (callers.filterMap Caller.awaited).map Prod.fst) hcallers
      exact fun hmem => h.waits.not_mem_of_find_eq_none hfresh (hsame.mp hmem)

/-- The request of a new stream waits for the response. -/
theorem Sound.awaitResponse (h : Sound impl) (hfind : impl.table.find id = some { id })
    (hnobody : id ∉ impl.awaited.map Prod.fst) :
    Sound (impl.awaitResponse options caller { id }) := by
  have hregister := h.waits.register hnobody hfind rfl rfl
  have hregistered : Sound { impl with table := impl.table.register id } :=
    h.of_table hregister.tail.1 fun e he hdone => ⟨e, he, hdone⟩
  unfold Impl.awaitResponse
  simp only [Bool.false_eq_true, if_false]
  split_ifs
  · exact Sound.fail (hregistered.of_eq rfl rfl rfl rfl)
  · refine hregistered.suspend ⟨fun _ hk => (by cases hk), fun hwaits => (by cases hwaits)⟩
      fun pair hpair => ?_
    obtain rfl := Option.some.inj hpair
    exact ⟨hregister.awaits _ List.mem_cons_self, hnobody⟩

theorem Sound.submit {submission : Submission} (h : Sound impl)
    (hconnected : impl.link.connected = true)
    (hsafe : if impl.link.goawayReceived = true then impl.AtRest else impl.Fresh submission) :
    Sound (impl.submit options caller submission) := by
  unfold Impl.submit
  rcases h.submitStream_cases options hconnected hsafe with
    ⟨impl', heq, hsound⟩ | ⟨id, impl', heq, hsound, hlive, hfind, hnobody⟩
  · rw [heq]
    exact Sound.fail (hsound.of_eq rfl rfl rfl rfl)
  · rw [heq]
    simp only [hfind]
    cases caller.mode with
    | callback handler =>
      exact
        { own := hsound.own
          connected := hsound.connected
          callers := hsound.callers
          undone := fun _ _ _ => hlive
          waits := hsound.waits.update hnobody fun _ => rfl
          calls := hsound.calls }
    | awaits => exact hsound.awaitResponse hfind hnobody
    | preconnect => exact hsound.awaitResponse hfind hnobody

theorem Sound.slotPass {submission : Submission} (h : Sound impl)
    (hready : impl.link.connected = true ∨ impl.link.stopping = true)
    (hsafe : impl.SubmitsSafely options submission) :
    Sound (impl.slotPass options caller submission) := by
  unfold Impl.slotPass
  dsimp only
  split_ifs with hstopping hgrants
  · exact h.fail
  all_goals have hconnected := hready.resolve_right hstopping
  · have hbase : Sound { impl with
        admission := { impl.admission with activeStreams := impl.admission.activeStreams + 1 } } :=
      h.of_eq rfl rfl rfl rfl
    exact hbase.submit hconnected (hsafe hgrants)
  · exact Sound.fail (h.of_eq rfl rfl rfl rfl)
  · have hbase : Sound { impl with admission := impl.admission.enqueueStream } :=
      h.of_eq rfl rfl rfl rfl
    exact hbase.suspend ⟨fun _ hk => (by cases hk), fun _ => Or.inl hconnected⟩
      fun _ hpair => (by cases hpair)

/-- A request that makes a pass once the session is connected. -/
def Caller.Submits (caller : Caller) : Prop := caller.mode ≠ .preconnect ∧ caller.cancelled = false

theorem Sound.afterConnected {submission : Submission} (h : Sound impl)
    (hconnected : impl.link.connected = true)
    (hsafe : caller.Submits → impl.SubmitsSafely options submission) :
    Sound (impl.afterConnected options caller submission) := by
  unfold Impl.afterConnected
  split_ifs with hmode hcancelled hstopping
  · exact h
  · exact h.fail
  all_goals
    have hpass := hsafe ⟨hmode, by simpa using hcancelled⟩
    exact Sound.slotPass (h.of_eq rfl rfl rfl rfl) (Or.inl hconnected) hpass

/-! ### Connecting -/

/-- An attempt that finds no session object creates its own. -/
theorem Sound.startConnect (h : Sound impl) (hnone : impl.link.session = none) :
    Sound (impl.startConnect caller) := by
  have hclosed : impl.link.stream = none := by
    cases hstream : impl.link.stream with
    | none => rfl
    | some k =>
      rw [h.own k hstream] at hnone
      cases hnone
  refine Sound.suspend ⟨fun k hk => ?_, h.connected, fun c hc => ⟨fun k hk => ?_,
    (h.callers c hc).slot⟩, h.undone, h.waits, h.calls⟩ ⟨fun k hk => ?_, fun hwaits => ?_⟩
    fun _ hpair => (by cases hpair)
  · rw [hclosed] at hk
    cases hk
  · rw [(h.callers c hc).attempt k hk] at hnone
    cases hnone
  · rw [← hk, hnone]
    rfl
  · cases hwaits

theorem Sound.ensureConnected {submission : Submission} (h : Sound impl)
    (hsafe : impl.link.connected = true → caller.Submits →
      impl.SubmitsSafely options submission)
    (hstart : impl.link.connected = false → impl.link.connecting = false →
      if impl.link.goawayReceived = true then impl.AtRest else impl.link.session = none) :
    Sound (impl.ensureConnected options caller submission) := by
  unfold Impl.ensureConnected
  split_ifs with hconnected hconnecting hgoaway
  · exact h.afterConnected hconnected (hsafe hconnected)
  · have hbase : Sound { impl with admission := impl.admission.enqueueConnect } :=
      h.of_eq rfl rfl rfl rfl
    exact hbase.suspend ⟨fun _ hk => (by cases hk), fun hwaits => (by cases hwaits)⟩
      fun _ hpair => (by cases hpair)
  all_goals
    have hfree := hstart (by simpa using hconnected) (by simpa using hconnecting)
    simp only [hgoaway, if_true] at hfree
  · exact (h.closeConnection hfree).startConnect rfl
  · exact h.startConnect (by simpa using hfree)

theorem finishConnect_frame (impl : Impl) (output : Bytes) :
    (impl.finishConnect output).link =
        { impl.link with connected := true, connecting := false } ∧
      (impl.finishConnect output).admission = impl.admission.notifyConnectWaiters ∧
      (impl.finishConnect output).table = impl.table ∧
      (impl.finishConnect output).callers = impl.callers := by
  obtain ⟨hlink, hadmission, htable, hcallers⟩ :=
    pumpOutput_frame (impl.call .submitSettings) output
  unfold Impl.finishConnect Impl.notifyConnectWaiters
  dsimp only
  rw [hlink, hadmission, htable, hcallers]
  exact ⟨rfl, rfl, rfl, rfl⟩

theorem Sound.finishConnect {output : Bytes} (h : Sound impl)
    (hstream : impl.link.stream.isSome = true) : Sound (impl.finishConnect output) := by
  have hpumped := (h.call .submitSettings hstream).pumpOutput output
  obtain ⟨hlink, -, htable, hcallers⟩ := finishConnect_frame impl output
  exact
    { own := by rw [hlink]; exact h.own
      connected := by rw [hlink]; exact fun _ => hstream
      callers := by
        rw [hlink, hcallers]
        exact fun c hc => ⟨(h.callers c hc).attempt, fun _ => Or.inl rfl⟩
      undone := by rw [hlink]; exact fun _ _ _ => rfl
      waits := by rw [Impl.awaited, htable, hcallers]; exact h.waits
      calls := hpumped.calls }

/-- What makes a submission safe is the same before and after the connect is finished. -/
theorem submitsSafely_finishConnect {output : Bytes} {submission : Submission}
    (h : impl.SubmitsSafely options submission) :
    (impl.finishConnect output).SubmitsSafely options submission := by
  obtain ⟨hlink, hadmission, htable, hcallers⟩ := finishConnect_frame impl output
  unfold Impl.SubmitsSafely Impl.grants Impl.AtRest Impl.Fresh at h ⊢
  rw [hlink, hadmission, htable, hcallers]
  exact h

/-! ### The loops -/

theorem Sound.readPass {generation : Nat} (h : Sound impl) : Sound (impl.readPass generation) := by
  unfold Impl.readPass
  split_ifs <;> exact h.of_eq rfl rfl rfl rfl

theorem Sound.writePass {generation : Nat} (h : Sound impl) :
    Sound (impl.writePass generation) := by
  unfold Impl.writePass
  dsimp only
  split_ifs <;> exact h.of_eq rfl rfl rfl rfl

theorem Sound.loopFailure {loop : Loop} {aborted : Bool} (h : Sound impl) :
    Sound (impl.loopFailure options loop aborted) := by
  unfold Impl.loopFailure
  split_ifs
  · exact h
  · exact h.failAllStreams.shutdownNow

/-! ### Steps and runs -/

/-- The steps that keep the session. -/
def KeepsSession (options : SessionOptions) (impl : Impl) : Action → Prop
  | .request mode _ submission =>
    (impl.link.connected = true → mode ≠ .preconnect → impl.SubmitsSafely options submission) ∧
      (impl.link.connected = false → impl.link.connecting = false →
        -- A session object that is left over is used for the new connection.
        if impl.link.goawayReceived = true then impl.AtRest else impl.link.session = none)
  | .connectResumed i submission =>
    impl.link.connected = true → ∀ c ∈ impl.callers[i]?, c.Submits →
      (impl.without i).SubmitsSafely options submission
  | .resolved i => ∀ c ∈ impl.callers[i]?, c.cancelled = true → (impl.without i).AtRest
  | .established i alpn _ submission => ∀ c ∈ impl.callers[i]?,
    if alpn = true then
      c.phase.attempt = impl.link.stream ∧
        (c.Submits → (impl.without i).SubmitsSafely options submission)
    else (impl.without i).AtRest
  | .connectFailed i => (impl.without i).AtRest
  | .slotResumed i submission => (impl.without i).SubmitsSafely options submission
  | .readData i _ _ _ => ∀ loop ∈ impl.io.readLoops[i]?, loop.transport = impl.link.stream
  | .reset => impl.link.stopping = false → impl.AtRest
  | .resetIfIdle => impl.idle = true → impl.link.stopping = false → impl.AtRest
  | _ => True

/-- The connect attempt that owns the session has a transport. -/
theorem Sound.openLink {attempt : Nat} (h : Sound impl)
    (hsession : impl.link.session = some attempt) :
    Sound { impl with link := { impl.link with stream := some attempt } } where
  own := fun k hk => by
    cases hk
    exact hsession
  connected := fun _ => rfl
  callers := fun c hc => ⟨(h.callers c hc).attempt, (h.callers c hc).slot⟩
  undone := h.undone
  waits := h.waits
  calls := h.calls

/-- A request that waits for a response is taken out together with its waiter. -/
theorem Sound.takeWaiting {w : Nat} (h : Sound impl) (hcaller : impl.callers[i]? = some caller)
    (hphase : caller.phase = .responseWait id w) :
    Sound { impl.without i with table := (impl.without i).table.unregister id } ∧
      impl.table.Awaits (id, w) ∧ id ∉ (impl.without i).awaited.map Prod.fst := by
  obtain ⟨hbase, -, hawaited⟩ := h.without hcaller
  obtain ⟨hawaits, hnobody⟩ := hawaited (id, w) (by simp [Caller.awaited, hphase])
  exact ⟨hbase.of_table (hbase.waits.unregister hnobody) fun e he hdone => ⟨e, he, hdone⟩,
    hawaits, hnobody⟩

/-- A step that keeps the session leaves it sound. -/
theorem Sound.step {action : Action} (h : Sound impl) (hok : KeepsSession options impl action)
    (hstep : step options impl action = some impl') : Sound impl' := by
  cases action with
  | request mode request submission =>
    obtain rfl := Option.some.inj hstep
    exact h.ensureConnected (fun hconnected hsubmits => hok.1 hconnected hsubmits.1) hok.2
  | connectResumed i submission =>
    obtain ⟨caller, base, w, htake, -, hresult⟩ := step_connectResumed hstep
    obtain ⟨hcaller, rfl⟩ := without_of_takeCaller htake
    obtain ⟨hbase, -, -⟩ := h.without hcaller
    rcases hresult with ⟨hconnected, rfl⟩ | ⟨-, rfl⟩
    · exact hbase.afterConnected hconnected (hok hconnected caller hcaller)
    · exact hbase.fail
  | connectAborted i =>
    obtain ⟨caller, base, w, htake, -, -, rfl⟩ := step_connectAborted hstep
    obtain ⟨hcaller, rfl⟩ := without_of_takeCaller htake
    exact Sound.fail ((h.without hcaller).1.of_eq rfl rfl rfl rfl)
  | resolved i =>
    obtain ⟨caller, base, attempt, htake, hphase, rfl⟩ := step_resolved hstep
    obtain ⟨hcaller, rfl⟩ := without_of_takeCaller htake
    obtain ⟨hbase, hfits, -⟩ := h.without hcaller
    have hsession : impl.link.session = some attempt :=
      hfits.attempt attempt (by simp [hphase, Phase.attempt])
    have hopened := hbase.openLink hsession
    dsimp only
    split_ifs with hcancelled
    · exact hopened.connectFailure (hok caller hcaller hcancelled)
    · refine hopened.suspend ⟨fun k hk => ?_, fun hwaits => (by cases hwaits)⟩
        fun _ hpair => (by cases hpair)
      cases hk
      exact hsession
  | established i alpn output submission =>
    obtain ⟨caller, base, attempt, htake, hphase, hresult⟩ := step_established hstep
    obtain ⟨hcaller, rfl⟩ := without_of_takeCaller htake
    obtain ⟨hbase, -, -⟩ := h.without hcaller
    have hguard := hok caller hcaller
    rcases hresult with ⟨rfl, rfl⟩ | ⟨rfl, rfl⟩
    · obtain ⟨hstream, hsafe⟩ := hguard
      have hsome : impl.link.stream.isSome = true := by
        rw [← hstream, hphase]
        rfl
      refine (hbase.finishConnect hsome).afterConnected ?_ fun hsubmits =>
        submitsSafely_finishConnect (hsafe hsubmits)
      rw [(finishConnect_frame _ _).1]
    · exact hbase.connectFailure hguard
  | connectFailed i =>
    obtain ⟨caller, base, attempt, htake, -, rfl⟩ := step_connectFailed hstep
    obtain ⟨hcaller, rfl⟩ := without_of_takeCaller htake
    exact (h.without hcaller).1.connectFailure hok
  | slotResumed i submission =>
    obtain ⟨caller, base, w, htake, hphase, -, rfl⟩ := step_slotResumed hstep
    obtain ⟨hcaller, rfl⟩ := without_of_takeCaller htake
    obtain ⟨hbase, hfits, -⟩ := h.without hcaller
    exact hbase.slotPass (hfits.slot (by simp [hphase, Phase.waitsForSlot])) hok
  | slotExpired i =>
    obtain ⟨caller, base, w, htake, -, -, rfl⟩ := step_slotExpired hstep
    obtain ⟨hcaller, rfl⟩ := without_of_takeCaller htake
    exact (h.without hcaller).1.fail
  | slotAborted i =>
    obtain ⟨caller, base, w, htake, -, -, rfl⟩ := step_slotAborted hstep
    obtain ⟨hcaller, rfl⟩ := without_of_takeCaller htake
    exact Sound.fail ((h.without hcaller).1.of_eq rfl rfl rfl rfl)
  | responseResumed i output =>
    obtain ⟨caller, base, id, w, htake, hphase, hresult⟩ := step_responseResumed hstep
    obtain ⟨hcaller, rfl⟩ := without_of_takeCaller htake
    obtain ⟨hleft, -, hnobody⟩ := h.takeWaiting hcaller hphase
    rcases hresult with rfl | ⟨hundone, rfl⟩
    · have hreleased := hleft.of_table (hleft.waits.releaseEntry hnobody) fun e he hdone =>
        ⟨e, undone_of_releaseEntry he, hdone⟩
      exact hreleased.of_eq rfl rfl rfl rfl
    · refine (hleft.cancelStream hnobody fun entry hentry => ?_).of_eq rfl rfl rfl rfl
      exact h.undone entry (StreamTable.mem_of_find hentry) (hundone entry hentry)
  | responseAborted i output =>
    obtain ⟨caller, base, id, w, htake, hphase, hsleeps, rfl⟩ := step_responseAborted hstep
    obtain ⟨hcaller, rfl⟩ := without_of_takeCaller htake
    obtain ⟨hleft, hawaits, hnobody⟩ := h.takeWaiting hcaller hphase
    refine (hleft.cancelStream hnobody fun entry hentry => ?_).of_eq rfl rfl rfl rfl
    -- The waiter has not been woken, so the stream is not done.
    obtain ⟨-, entry', hentry', -, hwaits⟩ := hawaits
    obtain rfl := Option.some.inj (hentry.symm.trans hentry')
    exact h.undone entry (StreamTable.mem_of_find hentry') (hwaits hsleeps).1
  | cancelSignal i =>
    obtain ⟨caller, base, htake, rfl⟩ := step_cancelSignal hstep
    obtain ⟨hcaller, rfl⟩ := without_of_takeCaller htake
    -- The request stays where it is suspended.
    obtain ⟨hbase, hfits, hawaited⟩ := h.without hcaller
    have hagain : Sound ((impl.without i).suspend { caller with cancelled := true } caller.phase) :=
      hbase.suspend ⟨hfits.attempt, hfits.slot⟩ hawaited
    exact hagain
  | readLoopStarts i =>
    obtain ⟨io, generation, rfl⟩ := step_readLoopStarts hstep
    exact Sound.readPass (h.of_eq rfl rfl rfl rfl)
  | readData i frames fatal output =>
    obtain ⟨loop, hloop, hreading, io, base, rfl, hresult⟩ := step_readData hstep
    have hstream : impl.link.stream.isSome = true := hok loop hloop ▸ hreading
    have hio : Sound { impl with io } := h.of_eq rfl rfl rfl rfl
    have hframes := (hio.call .memRecv hstream).foldl_onFrame options frames
    rcases hresult with rfl | rfl
    · exact hframes.of_eq rfl rfl rfl rfl
    · exact (hframes.pumpOutput output).readPass
  | readError i aborted =>
    obtain ⟨loop, -, io, rfl⟩ := step_readError hstep
    have hio : Sound { impl with io } := h.of_eq rfl rfl rfl rfl
    exact hio.loopFailure.of_eq rfl rfl rfl rfl
  | writeLoopStarts i =>
    obtain ⟨io, generation, rfl⟩ := step_writeLoopStarts hstep
    exact Sound.writePass (h.of_eq rfl rfl rfl rfl)
  | written i =>
    obtain ⟨io, generation, rfl⟩ := step_written hstep
    exact Sound.writePass (h.of_eq rfl rfl rfl rfl)
  | writeError i aborted =>
    obtain ⟨loop, -, io, rfl⟩ := step_writeError hstep
    have hio : Sound { impl with io } := h.of_eq rfl rfl rfl rfl
    exact hio.loopFailure.of_eq rfl rfl rfl rfl
  | expireStreams ids output =>
    obtain rfl := Option.some.inj hstep
    exact h.expireStreams
  | reset =>
    obtain rfl := Option.some.inj hstep
    exact h.resetNow hok
  | resetIfIdle =>
    simp only [H2.step] at hstep
    split_ifs at hstep with hidle
    obtain rfl := Option.some.inj hstep
    exact h.resetNow (hok hidle)
  | shutdown =>
    obtain rfl := Option.some.inj hstep
    exact h.shutdownNow

/-- A run whose steps keep the session calls the protocol engine only while the session
object of the current connection is there. -/
theorem present_of_keepsSession (options : SessionOptions) (actions : List Action)
    (hok : Along (step options) (KeepsSession options) {} actions)
    (hrun : exec (step options) {} actions = some impl) : impl.Present :=
  have hsound : Sound impl :=
    invariant_of_along (fun _ _ _ (h : Sound _) hok hstep => h.step hok hstep) sound_empty hok hrun
  hsound.calls

/-- What the engine does for the first and the second request of a connection. -/
def submission (id : Nat) : Submission := { expected := id, assigned := some id, output := [] }

/-- Two requests share a connection that allows only one stream at a time. -/
def oneStream : List Action :=
  [.request .awaits {} (submission 1), .resolved 0, .established 0 true [] (submission 1),
    .request .awaits {} (submission 3), .readLoopStarts 0, .readData 0 [.endStream 1] false [],
    .responseResumed 0 [], .slotResumed 0 (submission 3)]

theorem present_of_keepsSession_oneStream :
    ∃ impl, exec (step { maxConcurrentStreams := 1 }) {} oneStream = some impl ∧
      impl.calls.length = 10 ∧ impl.Present := by
  refine ⟨_, rfl, rfl, present_of_keepsSession { maxConcurrentStreams := 1 } oneStream ?_ rfl⟩
  refine .cons ⟨fun h => absurd h (by decide), fun _ _ => rfl⟩ rfl <| .cons ?_ rfl <|
    .cons ?_ rfl <| .cons ⟨fun _ _ h => absurd h (by decide), fun h => absurd h (by decide)⟩ rfl <|
      .cons trivial rfl <| .cons ?_ rfl <| .cons trivial rfl <| .cons ?_ rfl trivial
  · rintro caller ⟨⟩ hcancelled
    cases hcancelled
  · rintro caller ⟨⟩
    exact ⟨rfl, fun _ _ => ⟨rfl, fun id hid => by cases hid; rfl⟩⟩
  · rintro loop ⟨⟩
    rfl
  · exact fun _ => ⟨rfl, fun id hid => by cases hid; rfl⟩

/-- A request is in line for a slot when the session is reset. It is woken, finds a slot
free, and asks the deleted session for a stream identifier. -/
theorem absent_after_reset :
    ¬ ∀ (options : SessionOptions) (actions : List Action) (impl : Impl),
      exec (step options) {} actions = some impl → impl.Present := by
  intro h
  have hpresent := h { maxConcurrentStreams := 1 }
    [.request .awaits {} (submission 1), .resolved 0, .established 0 true [] (submission 1),
      .request .awaits {} (submission 3), .reset, .slotResumed 1 (submission 3)] _ rfl
  obtain ⟨attempt, hsession, -⟩ := hpresent
    { function := .getNextStreamId, session := none, stream := none } (by decide)
  cases hsession

end HttpClient.H2
