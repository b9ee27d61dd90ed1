import HttpClient.H2.SessionPresence

/-!
# The moves of a session

A step of the session runs one coroutine up to its next suspension point. It is a
sequence of moves, each of which changes one thing: the running coroutine takes a place in
a line, is granted a slot, opens a stream, and so on. What the running coroutine owns
meanwhile is in its hand.

An invariant of all moves, stated for a session and a hand, holds after every step. Some
invariants need to know more than a step says by itself, and some need to know that certain
moves do not occur; the guards tell which.

## Main definitions

* `Hand` — what the running coroutine owns
* `Guards`, `Move` — one move
* `Impl.opening`, `Impl.disconnects` — the submission a step makes, and whether it ends
  the connection

## Main results

* `moves_step` — every step is a sequence of moves
* `invariant_of_moves` — what every move keeps, a sequence of moves keeps
-/

set_option autoImplicit false

namespace HttpClient.H2

open Semantics Text

/-! ### Hands and moves -/

/-- Whether a suspended request owns a stream slot. -/
def Phase.holdsSlot : Phase → Bool
  | .responseWait _ _ => true
  | _ => false

inductive Hand where
  /-- No request is running. -/
  | nothing
  /-- A request before its pass of the slot loop. -/
  | running (caller : Caller)
  /-- A request that owns a slot. -/
  | holding (caller : Caller)
  /-- It has opened a stream. -/
  | opened (caller : Caller) (id : Nat)
  /-- A request that has waited for the response of a stream. -/
  | awaiting (caller : Caller) (id waiter : Nat)
  /-- Its stream is gone, its slot is not. -/
  | leaving
  /-- A request that is about to fail. -/
  | failing (caller : Caller)
  /-- All streams have failed, and the session has stopped or is about to. -/
  | broken
  /-- The request has ended or is suspended. -/
  | ended

def Hand.of (caller : Caller) : Hand :=
  match caller.phase with
  | .responseWait id w => .awaiting caller id w
  | _ => .running caller

/-- Nobody is left who owns a slot when the connection ends. -/
def Impl.Unowned (impl : Impl) : Prop :=
  (∀ c ∈ impl.callers, c.phase.holdsSlot = false) ∧
    ∀ e ∈ impl.table.entries, e.callbackMode = true → e.done = false

/-- What is known of the moves of a step, and what may happen in it. -/
structure Guards where
  /-- The identifiers of new streams are not in the table. -/
  fresh : Prop
  /-- The connection ends only while nobody else owns a slot. -/
  alone : Prop
  /-- No request leaves the line before it is woken. -/
  tidy : Prop
  /-- A slot may be released, or the limit changed. -/
  wakes : Prop
  /-- The wait for a slot may time out. -/
  expires : Impl → Caller → Prop
  /-- The limit may be set. -/
  limits : Impl → Nat → Prop

/-- What moves elsewhere leave alone. -/
def Impl.view (impl : Impl) : Admission × StreamTable × List Caller × List Nat × Bool :=
  (impl.admission, impl.table, impl.callers, impl.handled, impl.link.stopping)

inductive Move (options : SessionOptions) (g : Guards) : Impl × Hand → Impl × Hand → Prop
  | elsewhere {impl impl' : Impl} {hand : Hand} (h : impl'.view = impl.view) :
    Move options g (impl, hand) (impl', hand)
  /-- Without fresh identifiers nothing is known of the table. -/
  | blur {impl : Impl} {hand : Hand} {table : StreamTable} (h : ¬ g.fresh) :
    Move options g (impl, hand) ({ impl with table }, hand)
  | notify {impl : Impl} {caller : Caller} :
    Move options g (impl, .running caller)
      ({ impl with admission := impl.admission.notifyConnectWaiters }, .running caller)
  | take {impl : Impl} {i : Nat} {caller : Caller} (h : impl.callers[i]? = some caller)
      (hwoken : g.tidy → ∀ w, caller.phase = .slotWait w →
        (impl.admission.waiters w).woken = true) :
    Move options g (impl, .nothing) (impl.without i, .of caller)
  | signal {impl : Impl} {i : Nat} {caller : Caller} (h : impl.callers[i]? = some caller)
      (hmode : ∀ handler, caller.mode ≠ .callback handler) :
    Move options g (impl, .nothing)
      ({ impl with callers := (impl.without i).callers ++ [{ caller with cancelled := true }] },
        .ended)
  | connect {impl : Impl} {caller : Caller} {phase : Phase} {attempt : Nat}
      (h : caller.phase.waitsForSlot = false) (hphase : phase.attempt = some attempt) :
    Move options g (impl, .running caller) (impl.suspend caller phase, .ended)
  | queueConnect {impl : Impl} {caller : Caller} (h : caller.phase.waitsForSlot = false) :
    Move options g (impl, .running caller)
      ({ impl with admission := impl.admission.enqueueConnect }.suspend caller
        (.connectWait impl.admission.nextWaiter), .ended)
  | leaveConnect {impl : Impl} {caller : Caller} {w : Nat} (h : caller.phase = .connectWait w) :
    Move options g (impl, .running caller)
      ({ impl with admission :=
        { impl.admission.cancelWaiter w with
          connectWaiters := impl.admission.connectWaiters.filter (· ≠ w) } }, .failing caller)
  | queue {impl : Impl} {caller : Caller} (hgrants : impl.grants options = false)
      (hstopping : impl.link.stopping = false) :
    Move options g (impl, .running caller)
      ({ impl with admission := impl.admission.enqueueStream }.suspend caller
        (.slotWait impl.admission.nextWaiter), .ended)
  /-- A request queues though its cancellation has been signalled. -/
  | straggle {impl : Impl} {caller : Caller} (hgrants : impl.grants options = false) :
    Move options g (impl, .running caller)
      ({ impl with admission := impl.admission.enqueueStream }, .failing caller)
  | leaveLine {impl : Impl} {caller : Caller} {w : Nat} (h : caller.phase = .slotWait w)
      (hwoken : (impl.admission.waiters w).woken = false) :
    Move options g (impl, .running caller)
      ({ impl with admission :=
        { impl.admission.cancelWaiter w with
          streamWaiters := impl.admission.streamWaiters.filter (· ≠ w) } }, .failing caller)
  | expire {impl : Impl} {caller : Caller} (h : g.expires impl caller) :
    Move options g (impl, .running caller) (impl, .failing caller)
  | giveUp {impl : Impl} {caller : Caller}
      (h : impl.grants options = false ∨ caller.phase.waitsForSlot = false) :
    Move options g (impl, .running caller) (impl, .failing caller)
  | fail {impl : Impl} {caller : Caller} :
    Move options g (impl, .failing caller) (impl.fail caller, .ended)
  | grant {impl : Impl} {caller : Caller} (h : impl.grants options = true) :
    Move options g (impl, .running caller)
      ({ impl with admission :=
        { impl.admission with activeStreams := impl.admission.activeStreams + 1 } },
        .holding caller)
  | release {impl : Impl} {caller : Caller} (h : g.wakes) :
    Move options g (impl, .holding caller) (impl.releaseStreamSlot options, .failing caller)
  | openStream {impl : Impl} {caller : Caller} {id : Nat}
      (h : g.fresh → impl.table.find id = none) :
    Move options g (impl, .holding caller)
      ({ impl with table := impl.table.acquireEntry id }, .opened caller id)
  | handOver {impl : Impl} {caller : Caller} {id handler : Nat}
      (h : caller.mode = .callback handler) :
    Move options g (impl, .opened caller id)
      ({ impl with table := impl.table.update id fun entry =>
        { entry with callbackMode := true, handler := some handler } }, .ended)
  | awaitStream {impl : Impl} {caller : Caller} {id : Nat}
      (h : ∀ handler, caller.mode ≠ .callback handler) :
    Move options g (impl, .opened caller id)
      ({ impl with table := impl.table.register id }.suspend caller
        (.responseWait id impl.table.nextWaiter), .ended)
  | abandon {impl : Impl} {caller : Caller} {id : Nat} :
    Move options g (impl, .opened caller id)
      ({ impl with table := impl.table.register id }, .holding caller)
  | forget {impl : Impl} {caller : Caller} {id : Nat} (h : ¬ g.fresh) :
    Move options g (impl, .opened caller id) (impl, .holding caller)
  | retire {impl : Impl} {caller : Caller} {id w : Nat} :
    Move options g (impl, .awaiting caller id w)
      ({ impl with table := (impl.table.unregister id).releaseEntry id }, .leaving)
  | cancel {impl : Impl} {caller : Caller} {id w : Nat} :
    Move options g (impl, .awaiting caller id w)
      ({ impl with table :=
        (((impl.table.unregister id).markDone id).wake id).releaseEntry id }, .leaving)
  | vanish {impl : Impl} {caller : Caller} {id w : Nat} (h : impl.table.find id = none) :
    Move options g (impl, .awaiting caller id w)
      ({ impl with table := impl.table.unregister id }, .leaving)
  | leave {impl : Impl} (h : g.wakes) :
    Move options g (impl, .leaving) (impl.releaseStreamSlot options, .ended)
  | complete {impl : Impl} {entry : StreamEntry} (h : g.wakes)
      (hfind : impl.table.find entry.id = some entry) :
    Move options g (impl, .nothing) (impl.completeEntry options entry, .nothing)
  | failAll {impl : Impl} (h : g.wakes) :
    Move options g (impl, .nothing) (impl.failAllStreams options, .broken)
  | stopped {impl : Impl} (h : impl.link.stopping = true) :
    Move options g (impl, .broken) (impl, .nothing)
  | limit {impl : Impl} {value : Nat} (h : g.wakes) (hlimit : g.limits impl value) :
    Move options g (impl, .nothing)
      (impl.onFrame options (.maxConcurrentStreams value), .nothing)
  | close {impl : Impl} {hand : Hand} (h : g.alone → impl.Unowned)
      (hhand : hand = .nothing ∨ ∃ caller, hand = .running caller ∧
        caller.phase.waitsForSlot = false) :
    Move options g (impl, hand) (impl.closeConnection options, hand)
  /-- A request closes a connection that is going away, and gives its slot back. -/
  | closeHeld {impl : Impl} {caller : Caller} (h : g.alone → impl.Unowned) :
    Move options g (impl, .holding caller)
      ((impl.closeConnection options).releaseStreamSlot options, .failing caller)
  | stop {impl : Impl} {hand : Hand} (h : g.alone → impl.Unowned)
      (hhand : hand = .nothing ∨ hand = .broken) :
    Move options g (impl, hand)
      ({ impl with link := { impl.link with stopping := true } }.disconnect options, .nothing)

abbrev Moves (options : SessionOptions) (g : Guards) : Impl × Hand → Impl × Hand → Prop :=
  Relation.ReflTransGen (Move options g)

variable {options : SessionOptions} {g : Guards} {impl impl' : Impl} {hand : Hand}
  {caller : Caller} {i id : Nat}

/-- What every move keeps, a sequence of moves keeps. -/
theorem invariant_of_moves {Inv : Impl × Hand → Prop}
    (hmove : ∀ s t, Inv s → Move options g s t → Inv t) {s t : Impl × Hand} (hs : Inv s)
    (h : Moves options g s t) : Inv t := by
  induction h with
  | refl => exact hs
  | tail _ hlast ih => exact hmove _ _ ih hlast

theorem moves_elsewhere (h : impl'.view = impl.view) :
    Moves options g (impl, hand) (impl', hand) :=
  .single (.elsewhere h)

theorem moves_view {before : Impl × Hand} (hmoves : Moves options g before (impl, hand))
    (h : impl'.view = impl.view) : Moves options g before (impl', hand) :=
  hmoves.tail (.elsewhere h)

theorem moves_fail (h : impl.grants options = false ∨ caller.phase.waitsForSlot = false) :
    Moves options g (impl, .running caller) (impl.fail caller, .ended) :=
  .head (.giveUp h) (.single .fail)

/-! ### Output and streams -/

@[simp] theorem view_call (function : EngineFunction) : (impl.call function).view = impl.view :=
  rfl

@[simp] theorem view_pumpOutput (output : Bytes) : (impl.pumpOutput output).view = impl.view := by
  unfold Impl.pumpOutput
  split_ifs
  · rfl
  · dsimp only
    split_ifs <;> rfl

@[simp] theorem view_endRead : impl.endRead.view = impl.view := rfl

@[simp] theorem view_endWrite : impl.endWrite.view = impl.view := rfl

@[simp] theorem view_readPass (generation : Nat) : (impl.readPass generation).view = impl.view := by
  unfold Impl.readPass
  split_ifs <;> rfl

@[simp] theorem view_writePass (generation : Nat) :
    (impl.writePass generation).view = impl.view := by
  unfold Impl.writePass
  dsimp only
  split_ifs <;> rfl

theorem moves_completeStream (hwakes : g.wakes) (impl : Impl) (id : Nat) :
    Moves options g (impl, .nothing) (impl.completeStream options id, .nothing) := by
  unfold Impl.completeStream
  cases hfind : impl.table.find id with
  | none => exact .refl
  | some entry =>
    have hid := StreamTable.find_eq_some_id hfind
    exact .single (.complete hwakes (hid ▸ hfind))

theorem moves_expireStream (hwakes : g.wakes) (state : Impl × Bool) (id : Nat) :
    Moves options g (state.1, .nothing) ((Impl.expireStream options state id).1, .nothing) := by
  unfold Impl.expireStream
  cases hfind : state.1.table.find id with
  | none => exact .refl
  | some entry =>
    have hid := StreamTable.find_eq_some_id hfind
    have hfound : (state.1.call .submitRstStream).table.find entry.id = some entry := hid ▸ hfind
    have hcalled : Moves options g (state.1, .nothing)
        (state.1.call .submitRstStream, .nothing) := moves_elsewhere rfl
    dsimp only
    split_ifs
    · exact .refl
    · exact hcalled.tail (.complete hwakes hfound)

theorem moves_expireStreams (hwakes : g.wakes) (impl : Impl) (ids : List Nat) (output : Bytes) :
    Moves options g (impl, .nothing) (impl.expireStreams options ids output, .nothing) := by
  have hfold : ∀ (ids : List Nat) (state : Impl × Bool), Moves options g (state.1, .nothing)
      ((ids.foldl (Impl.expireStream options) state).1, .nothing) := by
    intro ids
    induction ids with
    | nil => exact fun _ => .refl
    | cons id ids ih => exact fun state => (moves_expireStream hwakes state id).trans (ih _)
  have hmoves := hfold ids (impl, false)
  unfold Impl.expireStreams
  dsimp only
  split_ifs
  · exact moves_view hmoves (view_pumpOutput output)
  · exact hmoves

/-- The frames of a read, one after another. -/
def Impl.deliver (options : SessionOptions) (impl : Impl) (frame : Frame) : Option Impl :=
  some (impl.onFrame options frame)

/-- Where a frame sets the limit, it may. -/
def Guards.Admits (g : Guards) (impl : Impl) (frame : Frame) : Prop :=
  ∀ value, frame = .maxConcurrentStreams value → g.limits impl value

theorem moves_onFrame (hwakes : g.wakes) {frame : Frame} (h : g.Admits impl frame) :
    Moves options g (impl, .nothing) (impl.onFrame options frame, .nothing) := by
  cases frame with
  | maxConcurrentStreams value => exact .single (.limit hwakes (h value rfl))
  | endStream id => exact moves_completeStream hwakes impl id
  | rstStream id => exact moves_completeStream hwakes impl id
  | goaway => exact moves_elsewhere rfl

theorem moves_frames (hwakes : g.wakes) {frames : List Frame}
    (h : Along (Impl.deliver options) g.Admits impl frames) :
    Moves options g (impl, .nothing) (frames.foldl (Impl.onFrame options) impl, .nothing) := by
  induction frames generalizing impl with
  | nil => exact .refl
  | cons frame frames ih => exact (moves_onFrame hwakes h.1).trans (ih (h.2 _ rfl))

theorem moves_cancelStream (impl : Impl) (caller : Caller) (id w : Nat) (output : Bytes) :
    Moves options g (impl, .awaiting caller id w)
      ({ impl with table := impl.table.unregister id }.cancelStream id output, .leaving) := by
  unfold Impl.cancelStream
  split
  case h_1 hfind => exact .single (.vanish hfind)
  case h_2 => exact .head (.elsewhere rfl) (.head .cancel (moves_elsewhere (view_pumpOutput _)))

/-! ### Getting a slot and submitting -/

/-- A submission throws, or opens a stream. -/
theorem moves_submitStream (hwakes : g.wakes) {submission : Submission}
    (hfresh : g.fresh → impl.link.goawayReceived = false → impl.Fresh submission)
    (halone : g.alone → impl.link.goawayReceived = true → impl.Unowned) :
    (∃ impl', impl.submitStream options submission = (none, impl') ∧
      Moves options g (impl, .holding caller)
        (impl'.releaseStreamSlot options, .failing caller)) ∨
    ∃ id impl', impl.submitStream options submission = (some id, impl') ∧
      Moves options g (impl, .holding caller) (impl', .opened caller id) ∧
      (g.fresh → impl'.table.find id = some { id }) := by
  unfold Impl.submitStream
  cases hgoaway : impl.link.goawayReceived with
  | true => exact Or.inl ⟨_, rfl, .single (.closeHeld fun hg => halone hg hgoaway)⟩
  | false =>
    rw [if_neg Bool.false_ne_true]
    cases hid : submission.assigned with
    | none =>
      have hcalled : Moves options g (impl, .holding caller)
          ((impl.call .getNextStreamId).call .submitRequest, .holding caller) :=
        moves_elsewhere rfl
      -- The entry is released again.
      have htable : Moves options g (impl, .holding caller)
          ({ (impl.call .getNextStreamId).call .submitRequest with
            table := (impl.table.acquireEntry submission.expected).releaseEntry
              submission.expected }, .holding caller) := by
        by_cases hg : g.fresh
        · rw [StreamTable.releaseEntry_acquireEntry (hfresh hg hgoaway).1]
          exact hcalled
        · exact hcalled.tail (.blur hg)
      exact Or.inl ⟨_, rfl, htable.tail (.release hwakes)⟩
    | some id =>
      refine Or.inr ⟨id, _, rfl, ?_, fun hg => ?_⟩
      · have hopened : Moves options g (impl, .holding caller)
            ({ impl with table := impl.table.acquireEntry id }, .opened caller id) :=
          .single (.openStream fun hg => (hfresh hg hgoaway).2 id hid)
        have htable : Moves options g (impl, .holding caller)
            ({ (impl.call .getNextStreamId).call .submitRequest with
              table := (impl.table.acquireEntry submission.expected).renumber
                submission.expected id }, .opened caller id) := by
          by_cases hg : g.fresh
          · rw [StreamTable.renumber_acquireEntry (hfresh hg hgoaway).1]
            exact moves_view hopened rfl
          · exact moves_view (hopened.tail (.blur hg)) rfl
        exact moves_view htable (view_pumpOutput _)
      · obtain ⟨hexpected, hassigned⟩ := hfresh hg hgoaway
        obtain ⟨-, -, htable, -⟩ := pumpOutput_frame
          { (impl.call .getNextStreamId).call .submitRequest with
            table := (impl.table.acquireEntry submission.expected).renumber
              submission.expected id } submission.output
        refine (congrArg (StreamTable.find · id) htable).trans ?_
        dsimp only
        rw [StreamTable.renumber_acquireEntry hexpected]
        exact StreamTable.find_acquireEntry_self (hassigned id hid)

theorem fail_of_not_callback (hmode : ∀ handler, caller.mode ≠ .callback handler) :
    impl.fail caller = impl := by
  unfold Impl.fail
  cases h : caller.mode with
  | callback handler => exact absurd h (hmode handler)
  | awaits => rfl
  | preconnect => rfl

theorem moves_awaitResponse (hwakes : g.wakes) {entry : StreamEntry}
    (hmode : ∀ handler, caller.mode ≠ .callback handler) (hid : entry.id = id)
    (hfresh : g.fresh → entry.done = false) :
    Moves options g (impl, .opened caller id)
      (impl.awaitResponse options caller entry, .ended) := by
  subst hid
  unfold Impl.awaitResponse
  dsimp only
  split_ifs with hdone hcancelled
  · have hold : ¬ g.fresh := fun hg => by simp [hfresh hg] at hdone
    have hreleased : Moves options g (impl, .opened caller entry.id)
        ({ impl with table := impl.table.releaseEntry entry.id }, .holding caller) :=
      .head (.forget hold) (.single (.blur hold))
    have hends := (hreleased.tail (.release hwakes)).tail .fail
    rwa [fail_of_not_callback hmode] at hends
  · exact .head .abandon (.head (.release hwakes) (.single .fail))
  · exact .single (.awaitStream hmode)

/-- What is known when a request with a slot submits its stream. -/
structure Guards.Submits (g : Guards) (impl : Impl) (submission : Submission) : Prop where
  wakes : g.wakes
  fresh : g.fresh → impl.link.goawayReceived = false → impl.Fresh submission
  alone : g.alone → impl.link.goawayReceived = true → impl.Unowned

theorem moves_submit {submission : Submission} (h : g.Submits impl submission) :
    Moves options g (impl, .holding caller) (impl.submit options caller submission, .ended) := by
  unfold Impl.submit
  rcases moves_submitStream h.wakes h.fresh h.alone with
    ⟨after, heq, hmoves⟩ | ⟨id, after, heq, hmoves, hfind⟩
  · rw [heq]
    exact hmoves.tail .fail
  · rw [heq]
    dsimp only
    cases hentry : after.table.find id with
    | none =>
      have hold : ¬ g.fresh := fun hg => by simp [hfind hg] at hentry
      dsimp only
      exact ((hmoves.tail (.forget hold)).tail (.release h.wakes)).tail .fail
    | some entry =>
      have hid := StreamTable.find_eq_some_id hentry
      have hundone : g.fresh → entry.done = false := fun hg => by
        rw [← Option.some.inj ((hfind hg).symm.trans hentry)]
      have hawaits : (∀ handler, caller.mode ≠ .callback handler) →
          Moves options g (impl, .holding caller)
            (after.awaitResponse options caller entry, .ended) :=
        fun hmode => hmoves.trans (moves_awaitResponse h.wakes hmode hid hundone)
      cases hmode : caller.mode with
      | callback handler => exact hmoves.tail (.handOver hmode)
      | awaits => exact hawaits (by simp [hmode])
      | preconnect => exact hawaits (by simp [hmode])

theorem moves_slotPass {submission : Submission}
    (h : impl.grants options = true → g.Submits impl submission) :
    Moves options g (impl, .running caller)
      (impl.slotPass options caller submission, .ended) := by
  unfold Impl.slotPass
  dsimp only
  split_ifs with hstopping hgrants hcancelled
  · exact moves_fail (Or.inl (by simp [Impl.grants, hstopping]))
  · obtain ⟨hwakes, hfresh, halone⟩ := h hgrants
    exact .head (.grant hgrants) (moves_submit ⟨hwakes, hfresh, halone⟩)
  · have hno : impl.grants options = false := by simpa using hgrants
    exact .head (.straggle hno) (.single .fail)
  · have hno : impl.grants options = false := by simpa using hgrants
    exact .single (.queue hno (by simpa using hstopping))

theorem moves_afterConnected {submission : Submission} (hphase : caller.phase.waitsForSlot = false)
    (h : caller.Submits → impl.grants options = true → g.Submits impl submission) :
    Moves options g (impl, .running caller)
      (impl.afterConnected options caller submission, .ended) := by
  unfold Impl.afterConnected
  dsimp only
  split_ifs with hmode hcancelled hstopping
  · have hfails : Moves options g (impl, .running caller) (impl.fail caller, .ended) :=
      moves_fail (Or.inr hphase)
    rwa [fail_of_not_callback (by simp [hmode])] at hfails
  · exact moves_fail (Or.inr hphase)
  all_goals
    have hpass : ∀ rejected, Moves options g (impl, .running caller)
        ({ impl with rejected }.slotPass options caller submission, .ended) := by
      intro rejected
      have hcounted : Moves options g (impl, .running caller)
          ({ impl with rejected }, .running caller) := moves_elsewhere rfl
      refine hcounted.trans (moves_slotPass fun hgrants => ?_)
      obtain ⟨hwakes, hfresh, halone⟩ := h ⟨hmode, by simpa using hcancelled⟩ hgrants
      exact ⟨hwakes, hfresh, halone⟩
    exact hpass _

/-! ### Connecting -/

theorem moves_startConnect (hphase : caller.phase.waitsForSlot = false) :
    Moves options g (impl, .running caller) (impl.startConnect caller, .ended) := by
  have hlink : ∀ link : Link, link.stopping = impl.link.stopping →
      Moves options g (impl, .running caller) ({ impl with link }, .running caller) := by
    refine fun link hsame => moves_elsewhere ?_
    simp [Impl.view, hsame]
  unfold Impl.startConnect
  dsimp only
  refine (hlink { impl.link with
    connecting := true
    ioGeneration := impl.link.ioGeneration + 1
    attempts := impl.link.attempts + 1
    session := impl.link.session.or (some impl.link.attempts) } rfl).tail ?_
  exact .connect hphase rfl

theorem moves_connectFailure (hphase : caller.phase.waitsForSlot = false)
    (halone : g.alone → impl.Unowned) :
    Moves options g (impl, .running caller) (impl.connectFailure options caller, .ended) := by
  have hnotify : ∀ impl : Impl, Moves options g (impl, .running caller)
      (impl.notifyConnectWaiters, .running caller) :=
    fun impl => .head .notify (moves_elsewhere rfl)
  have hclosed := (hnotify impl).tail (.close halone (Or.inr ⟨caller, rfl, hphase⟩))
  exact (hclosed.trans (hnotify _)).trans (moves_fail (Or.inr hphase))

theorem moves_finishConnect (output : Bytes) :
    Moves options g (impl, .running caller) (impl.finishConnect output, .running caller) := by
  have hpumped : Moves options g (impl, .running caller)
      ((impl.call .submitSettings).pumpOutput output, .running caller) :=
    .head (.elsewhere rfl) (moves_elsewhere (view_pumpOutput _))
  unfold Impl.finishConnect
  exact moves_view ((moves_view hpumped rfl).tail .notify) rfl

theorem moves_ensureConnected {submission : Submission}
    (hphase : caller.phase.waitsForSlot = false)
    (h : impl.link.connected = true → caller.Submits → impl.grants options = true →
      g.Submits impl submission)
    (halone : g.alone → impl.link.connected = false → impl.link.connecting = false →
      impl.link.goawayReceived = true → impl.Unowned) :
    Moves options g (impl, .running caller)
      (impl.ensureConnected options caller submission, .ended) := by
  unfold Impl.ensureConnected
  split_ifs with hconnected hconnecting hgoaway
  · exact moves_afterConnected hphase (h hconnected)
  · exact .single (.queueConnect hphase)
  · have hclose : g.alone → impl.Unowned := fun hg =>
      halone hg (by simpa using hconnected) (by simpa using hconnecting) hgoaway
    exact .head (.close hclose (Or.inr ⟨caller, rfl, hphase⟩)) (moves_startConnect hphase)
  · exact moves_startConnect hphase

/-! ### Steps -/

/-- The submission that a step makes, if it grants a slot. -/
def Impl.opening (options : SessionOptions) (impl : Impl) : Action → Option Submission
  | .request mode _ submission =>
    if impl.link.connected && decide (mode ≠ .preconnect) && impl.grants options then
      some submission
    else none
  | .connectResumed i submission =>
    if impl.link.connected && impl.grants options &&
        impl.callers[i]?.any fun c => decide (c.mode ≠ .preconnect) && !c.cancelled then
      some submission
    else none
  | .established i alpn _ submission =>
    if alpn && impl.grants options &&
        impl.callers[i]?.any fun c => decide (c.mode ≠ .preconnect) && !c.cancelled then
      some submission
    else none
  | .slotResumed _ submission => if impl.grants options then some submission else none
  | _ => none

/-- Whether a shutdown has still something to do. -/
def Impl.stops (impl : Impl) : Bool := !(impl.link.stopping && impl.link.stream.isNone)

theorem stops_of_not (h : ¬ (impl.link.stopping && impl.link.stream.isNone) = true) :
    impl.stops = true := by
  rw [Impl.stops, Bool.not_eq_true']
  exact Bool.eq_false_iff.mpr h

/-- Whether a step ends the connection. -/
def Impl.disconnects (options : SessionOptions) (impl : Impl) (action : Action) : Bool :=
  impl.link.goawayReceived && (impl.opening options action).isSome ||
  match action with
  | .request .. => impl.link.goawayReceived && !impl.link.connected && !impl.link.connecting
  | .resolved i => impl.callers[i]?.any Caller.cancelled
  | .established _ alpn _ _ => !alpn
  | .connectFailed _ => true
  | .readError i aborted =>
    impl.stops && impl.io.readLoops[i]?.any fun loop => !impl.superseded loop aborted
  | .writeError i aborted =>
    impl.stops && impl.io.writeLoops[i]?.any fun loop => !impl.superseded loop aborted
  | .reset => !impl.link.stopping
  | .resetIfIdle => !impl.link.stopping && impl.idle
  | .shutdown => impl.stops
  | _ => false

/-- The steps in which a slot may be released, or the limit set. -/
def Action.wakes : Action → Bool
  | .request _ _ _ | .connectResumed _ _ | .established _ _ _ _ | .slotResumed _ _
  | .responseResumed _ _ | .responseAborted _ _ | .readData _ _ _ _ | .readError _ _
  | .writeError _ _ | .expireStreams _ _ => true
  | _ => false

/-- What the running coroutine owns when a step begins. -/
def Action.starts : Action → Hand
  | .request mode made _ =>
    .running { mode, request := made, cancelled := false, phase := .connectWait 0 }
  | _ => .nothing

/-- What is known of a step. -/
structure Guards.Allows (g : Guards) (options : SessionOptions) (impl : Impl) (action : Action) :
    Prop where
  wakes : action.wakes = true → g.wakes
  tidy : g.tidy → action.wakes = true
  fresh : g.fresh → impl.link.goawayReceived = false →
    ∀ submission ∈ impl.opening options action, impl.Fresh submission
  alone : g.alone → impl.disconnects options action = true → impl.Unowned
  expires : ∀ i caller, action = .slotExpired i → impl.callers[i]? = some caller →
    g.expires (impl.without i) caller
  limits : ∀ i frames fatal output, action = .readData i frames fatal output →
    ∀ base : Impl, base.view = impl.view → Along (Impl.deliver options) g.Admits base frames

theorem Impl.Unowned.without (h : impl.Unowned) (i : Nat) : (impl.without i).Unowned :=
  ⟨fun c hc => h.1 c (List.mem_of_mem_eraseIdx hc), h.2⟩

theorem Impl.Unowned.failAllStreams (h : impl.Unowned) :
    (impl.failAllStreams options).Unowned := by
  refine ⟨h.1, fun e he hmode => ?_⟩
  obtain ⟨entry, hentry, rfl⟩ := List.mem_map.mp he
  have hkept := (List.mem_filter.mp hentry).2
  have hundone := h.2 entry (List.mem_of_mem_filter hentry) hmode
  rw [hundone, show entry.callbackMode = true from hmode] at hkept
  cases hkept

theorem finishConnect_keeps (options : SessionOptions) (impl : Impl) (output : Bytes) :
    (impl.finishConnect output).link.goawayReceived = impl.link.goawayReceived ∧
      (impl.finishConnect output).table = impl.table ∧
      (impl.finishConnect output).callers = impl.callers ∧
      (impl.finishConnect output).grants options = impl.grants options := by
  obtain ⟨hlink, hadmission, htable, hcallers⟩ := finishConnect_frame impl output
  refine ⟨by rw [hlink], htable, hcallers, ?_⟩
  unfold Impl.grants Admission.streamLimit
  rw [hlink, hadmission]
  rfl

/-- What the two loops do when an operation fails. -/
theorem moves_loopFailure (hwakes : g.wakes) {loop : Loop} {aborted : Bool}
    (halone : g.alone → impl.stops = true → impl.superseded loop aborted = false →
      impl.Unowned) :
    Moves options g (impl, .nothing) (impl.loopFailure options loop aborted, .nothing) := by
  unfold Impl.loopFailure Impl.shutdownNow
  split_ifs with hsuperseded hstopped
  · exact .refl
  · have hstopping : impl.link.stopping = true := (Bool.and_eq_true_iff.mp hstopped).1
    exact .head (.failAll hwakes) (.single (.stopped hstopping))
  · have hunowned : g.alone → (impl.failAllStreams options).Unowned := fun hg =>
      (halone hg (stops_of_not hstopped) (by simpa using hsuperseded)).failAllStreams
    exact .head (.failAll hwakes) (.single (.stop hunowned (Or.inr rfl)))

theorem moves_shutdownNow (halone : g.alone → impl.stops = true → impl.Unowned) :
    Moves options g (impl, .nothing) (impl.shutdownNow options, .nothing) := by
  unfold Impl.shutdownNow
  split_ifs with hstopped
  · exact .refl
  · exact .single (.stop (fun hg => halone hg (stops_of_not hstopped)) (Or.inl rfl))

theorem moves_resetNow (halone : g.alone → impl.link.stopping = false → impl.Unowned) :
    Moves options g (impl, .nothing) (impl.resetNow options, .nothing) := by
  unfold Impl.resetNow
  split_ifs with hstopping
  · exact .refl
  · have hlive : impl.link.stopping = false := by simpa using hstopping
    have hcounted : Moves options g (impl, .nothing)
        ({ impl with link := { impl.link with ioGeneration := impl.link.ioGeneration + 1 } },
          .nothing) := moves_elsewhere rfl
    exact hcounted.tail (.close (fun hg => halone hg hlive) (Or.inl rfl))

theorem unowned_of_view (hview : impl'.view = impl.view) (h : impl.Unowned) : impl'.Unowned := by
  simp only [Impl.view, Prod.mk.injEq] at hview
  exact ⟨hview.2.2.1 ▸ h.1, hview.2.1 ▸ h.2⟩

theorem of_eq_running (hphase : caller.phase.holdsSlot = false) :
    Hand.of caller = .running caller := by
  unfold Hand.of
  cases h : caller.phase with
  | responseWait id w => simp [h, Phase.holdsSlot] at hphase
  | _ => rfl

/-- A request that does not wait for a response is taken out to run. -/
theorem moves_takeCaller {base : Impl} (htake : impl.takeCaller i = some (caller, base))
    (hphase : caller.phase.holdsSlot = false)
    (hwoken : g.tidy → ∀ w, caller.phase = .slotWait w →
      (impl.admission.waiters w).woken = true) :
    Moves options g (impl, .nothing) (base, .running caller) := by
  obtain ⟨hcaller, rfl⟩ := without_of_takeCaller htake
  rw [← of_eq_running hphase]
  exact .single (.take hcaller hwoken)

/-- A request that waits for a response is taken out to run. -/
theorem moves_takeWaiting {base : Impl} {w : Nat}
    (htake : impl.takeCaller i = some (caller, base)) (hphase : caller.phase = .responseWait id w) :
    Moves options g (impl, .nothing) (base, .awaiting caller id w) := by
  obtain ⟨hcaller, rfl⟩ := without_of_takeCaller htake
  have hof : Hand.of caller = .awaiting caller id w := by simp [Hand.of, hphase]
  rw [← hof]
  exact .single (.take hcaller fun _ v hv => by simp [hphase] at hv)

theorem Guards.Allows.submits {action : Action} {submission : Submission} {base : Impl}
    (h : g.Allows options impl action) (hwakes : action.wakes = true)
    (hopening : impl.opening options action = some submission)
    (hgoaway : base.link.goawayReceived = impl.link.goawayReceived)
    (htable : base.table = impl.table) (hunowned : impl.Unowned → base.Unowned) :
    g.Submits base submission where
  wakes := h.wakes hwakes
  fresh hg hlive := by
    have hfresh := h.fresh hg (hgoaway ▸ hlive) submission hopening
    rwa [Impl.Fresh, htable]
  alone hg hends := by
    refine hunowned (h.alone hg ?_)
    unfold Impl.disconnects
    simp [hopening, hgoaway ▸ hends]

/-- A request that neither owns a slot nor waits for one is taken out to run. -/
theorem moves_takeConnecting {base : Impl} (htake : impl.takeCaller i = some (caller, base))
    (hholds : caller.phase.holdsSlot = false) (hwaits : caller.phase.waitsForSlot = false) :
    Moves options g (impl, .nothing) (base, .running caller) := by
  refine moves_takeCaller htake hholds fun _ w hw => ?_
  rw [hw] at hwaits
  cases hwaits

/-! ### The steps of a request -/

section Requests

variable {submission : Submission} {output : Bytes}

theorem moves_request {mode : Mode} {made : Request}
    (h : g.Allows options impl (.request mode made submission))
    (hstep : step options impl (.request mode made submission) = some impl') :
    Moves options g (impl, (Action.request mode made submission).starts) (impl', .ended) := by
  obtain rfl := Option.some.inj hstep
  have hphase : ({ mode, request := made, cancelled := false, phase := .connectWait 0 } :
      Caller).phase.waitsForSlot = false := rfl
  refine moves_ensureConnected hphase ?_ ?_
  · intro hconnected hsubmits hgrants
    have hopening : impl.opening options (.request mode made submission) = some submission := by
      unfold Impl.opening
      simp [hconnected, hgrants, hsubmits.1]
    exact h.submits rfl hopening rfl rfl id
  · intro hg hconnected hconnecting hgoaway
    exact h.alone hg (by unfold Impl.disconnects; simp [hconnected, hconnecting, hgoaway])

theorem moves_connectResumed (h : g.Allows options impl (.connectResumed i submission))
    (hstep : step options impl (.connectResumed i submission) = some impl') :
    Moves options g (impl, .nothing) (impl', .ended) := by
  obtain ⟨caller, base, w, htake, hphase, hcase⟩ := step_connectResumed hstep
  obtain ⟨hcaller, rfl⟩ := without_of_takeCaller htake
  have hwaits : caller.phase.waitsForSlot = false := by rw [hphase]; rfl
  have htaken : Moves options g (impl, .nothing) (impl.without i, .running caller) :=
    moves_takeConnecting htake (by rw [hphase]; rfl) hwaits
  refine htaken.trans ?_
  rcases hcase with ⟨hconnected, rfl⟩ | ⟨-, rfl⟩
  · refine moves_afterConnected hwaits fun hsubmits hgrants => ?_
    have hlink : impl.link.connected = true := hconnected
    have hgrants' : impl.grants options = true := hgrants
    have hopening : impl.opening options (.connectResumed i submission) = some submission := by
      unfold Impl.opening
      simp [hlink, hgrants', hcaller, hsubmits.1, hsubmits.2]
    exact h.submits rfl hopening rfl rfl fun hunowned => hunowned.without i
  · exact moves_fail (Or.inr hwaits)

theorem moves_connectAborted (hstep : step options impl (.connectAborted i) = some impl') :
    Moves options g (impl, .nothing) (impl', .ended) := by
  obtain ⟨caller, base, w, htake, hphase, -, rfl⟩ := step_connectAborted hstep
  have htaken : Moves options g (impl, .nothing) (base, .running caller) :=
    moves_takeConnecting htake (by rw [hphase]; rfl) (by rw [hphase]; rfl)
  exact (htaken.tail (.leaveConnect hphase)).tail .fail

theorem moves_resolved (h : g.Allows options impl (.resolved i))
    (hstep : step options impl (.resolved i) = some impl') :
    Moves options g (impl, .nothing) (impl', .ended) := by
  obtain ⟨caller, base, attempt, htake, hphase, rfl⟩ := step_resolved hstep
  obtain ⟨hcaller, rfl⟩ := without_of_takeCaller htake
  have hwaits : caller.phase.waitsForSlot = false := by rw [hphase]; rfl
  have htaken : Moves options g (impl, .nothing) (impl.without i, .running caller) :=
    moves_takeConnecting htake (by rw [hphase]; rfl) hwaits
  have hlinked : Moves options g (impl, .nothing)
      ({ impl.without i with link := { (impl.without i).link with stream := some attempt } },
        .running caller) := moves_view htaken rfl
  refine hlinked.trans ?_
  dsimp only
  split_ifs with hcancelled
  · refine moves_connectFailure hwaits fun hg => ?_
    have hunowned := h.alone hg (by unfold Impl.disconnects; simp [hcaller, hcancelled])
    exact unowned_of_view rfl (hunowned.without i)
  · exact .single (.connect hwaits rfl)

theorem moves_established {alpn : Bool}
    (h : g.Allows options impl (.established i alpn output submission))
    (hstep : step options impl (.established i alpn output submission) = some impl') :
    Moves options g (impl, .nothing) (impl', .ended) := by
  obtain ⟨caller, base, attempt, htake, hphase, hcase⟩ := step_established hstep
  obtain ⟨hcaller, rfl⟩ := without_of_takeCaller htake
  have hwaits : caller.phase.waitsForSlot = false := by rw [hphase]; rfl
  have htaken : Moves options g (impl, .nothing) (impl.without i, .running caller) :=
    moves_takeConnecting htake (by rw [hphase]; rfl) hwaits
  refine htaken.trans ?_
  rcases hcase with ⟨rfl, rfl⟩ | ⟨rfl, rfl⟩
  · refine (moves_finishConnect output).trans (moves_afterConnected hwaits ?_)
    intro hsubmits hgrants
    -- the preface does not change what is submitted, nor whether there is a slot
    obtain ⟨hgoaway, htable, hcallers, hsame⟩ :=
      finishConnect_keeps options (impl.without i) output
    have hgrants' : impl.grants options = true := hsame.symm.trans hgrants
    have hopening : impl.opening options (.established i true output submission) =
        some submission := by
      unfold Impl.opening
      simp [hgrants', hcaller, hsubmits.1, hsubmits.2]
    refine h.submits rfl hopening hgoaway htable fun hunowned => ?_
    exact ⟨hcallers ▸ (hunowned.without i).1, htable ▸ hunowned.2⟩
  · exact moves_connectFailure hwaits fun hg =>
      (h.alone hg (by unfold Impl.disconnects; simp)).without i

theorem moves_connectFailed (h : g.Allows options impl (.connectFailed i))
    (hstep : step options impl (.connectFailed i) = some impl') :
    Moves options g (impl, .nothing) (impl', .ended) := by
  obtain ⟨caller, base, attempt, htake, hphase, rfl⟩ := step_connectFailed hstep
  have hholds : caller.phase.holdsSlot = false := by
    rcases hphase with hphase | hphase <;> rw [hphase] <;> rfl
  have hwaits : caller.phase.waitsForSlot = false := by
    rcases hphase with hphase | hphase <;> rw [hphase] <;> rfl
  have htaken : Moves options g (impl, .nothing) (base, .running caller) :=
    moves_takeConnecting htake hholds hwaits
  obtain ⟨-, rfl⟩ := without_of_takeCaller htake
  exact htaken.trans (moves_connectFailure hwaits fun hg =>
    (h.alone hg (by unfold Impl.disconnects; simp)).without i)

theorem moves_slotResumed (h : g.Allows options impl (.slotResumed i submission))
    (hstep : step options impl (.slotResumed i submission) = some impl') :
    Moves options g (impl, .nothing) (impl', .ended) := by
  obtain ⟨caller, base, w, htake, hphase, hwoken, rfl⟩ := step_slotResumed hstep
  obtain ⟨hcaller, rfl⟩ := without_of_takeCaller htake
  have htaken : Moves options g (impl, .nothing) (impl.without i, .running caller) := by
    refine moves_takeCaller htake (by rw [hphase]; rfl) fun _ v hv => ?_
    -- the waiter it waits on is the one that has been woken
    obtain rfl := Phase.slotWait.inj (hphase.symm.trans hv)
    exact hwoken
  refine htaken.trans (moves_slotPass fun hgrants => ?_)
  have hgrants' : impl.grants options = true := hgrants
  have hopening : impl.opening options (.slotResumed i submission) = some submission := by
    unfold Impl.opening
    simp [hgrants']
  exact h.submits rfl hopening rfl rfl fun hunowned => hunowned.without i

theorem moves_slotExpired (h : g.Allows options impl (.slotExpired i))
    (hstep : step options impl (.slotExpired i) = some impl') :
    Moves options g (impl, .nothing) (impl', .ended) := by
  obtain ⟨caller, base, w, htake, hphase, -, rfl⟩ := step_slotExpired hstep
  have htaken : Moves options g (impl, .nothing) (base, .running caller) :=
    moves_takeCaller htake (by rw [hphase]; rfl) fun hg =>
      absurd (h.tidy hg) Bool.false_ne_true
  obtain ⟨hcaller, rfl⟩ := without_of_takeCaller htake
  exact (htaken.tail (.expire (h.expires i caller rfl hcaller))).tail .fail

theorem moves_slotAborted (h : g.Allows options impl (.slotAborted i))
    (hstep : step options impl (.slotAborted i) = some impl') :
    Moves options g (impl, .nothing) (impl', .ended) := by
  obtain ⟨caller, base, w, htake, hphase, hwait, rfl⟩ := step_slotAborted hstep
  simp only [Bool.and_eq_true, Bool.not_eq_true'] at hwait
  have htaken : Moves options g (impl, .nothing) (base, .running caller) :=
    moves_takeCaller htake (by rw [hphase]; rfl) fun hg =>
      absurd (h.tidy hg) Bool.false_ne_true
  exact (htaken.tail (.leaveLine hphase hwait.2)).tail .fail

theorem moves_responseResumed (h : g.Allows options impl (.responseResumed i output))
    (hstep : step options impl (.responseResumed i output) = some impl') :
    Moves options g (impl, .nothing) (impl', .ended) := by
  obtain ⟨caller, base, id, w, htake, hphase, hcase⟩ := step_responseResumed hstep
  have htaken : Moves options g (impl, .nothing) (base, .awaiting caller id w) :=
    moves_takeWaiting htake hphase
  rcases hcase with rfl | ⟨-, rfl⟩
  · exact (htaken.tail .retire).tail (.leave (h.wakes rfl))
  · exact (htaken.trans (moves_cancelStream base caller id w output)).tail (.leave (h.wakes rfl))

theorem moves_responseAborted (h : g.Allows options impl (.responseAborted i output))
    (hstep : step options impl (.responseAborted i output) = some impl') :
    Moves options g (impl, .nothing) (impl', .ended) := by
  obtain ⟨caller, base, id, w, htake, hphase, -, rfl⟩ := step_responseAborted hstep
  have htaken : Moves options g (impl, .nothing) (base, .awaiting caller id w) :=
    moves_takeWaiting htake hphase
  exact (htaken.trans (moves_cancelStream base caller id w output)).tail (.leave (h.wakes rfl))

theorem moves_cancelSignal (hstep : step options impl (.cancelSignal i) = some impl') :
    Moves options g (impl, .nothing) (impl', .ended) := by
  obtain ⟨caller, base, htake, rfl⟩ := step_cancelSignal hstep
  have hmode : ∀ handler, caller.mode ≠ .callback handler := by
    intro handler hmode
    simp [step, htake, hmode] at hstep
  obtain ⟨hcaller, rfl⟩ := without_of_takeCaller htake
  exact .single (.signal hcaller hmode)

end Requests

/-! ### The steps of the connection -/

theorem moves_readData {frames : List Frame} {fatal : Bool} {output : Bytes}
    (h : g.Allows options impl (.readData i frames fatal output))
    (hstep : step options impl (.readData i frames fatal output) = some impl') :
    Moves options g (impl, .nothing) (impl', .nothing) := by
  obtain ⟨loop, -, -, io, base, rfl, hcase⟩ := step_readData hstep
  have hcalled : Moves options g (impl, .nothing)
      ({ impl with io }.call .memRecv, .nothing) := moves_elsewhere rfl
  have hframes := hcalled.trans
    (moves_frames (h.wakes rfl) (h.limits i frames fatal output rfl _ rfl))
  rcases hcase with rfl | rfl
  · exact moves_view hframes view_endRead
  · exact moves_view (moves_view hframes (view_pumpOutput output)) (view_readPass _)

/-- A loop of the connection fails. -/
theorem moves_loopError {action : Action} {loop : Loop} {aborted : Bool}
    (h : g.Allows options impl action) (hwakes : action.wakes = true)
    (hdisconnects : impl.stops = true → impl.superseded loop aborted = false →
      impl.disconnects options action = true) (io : Io) :
    Moves options g (impl, .nothing)
      ({ impl with io }.loopFailure options loop aborted, .nothing) := by
  have hbase : Moves options g (impl, .nothing) ({ impl with io }, .nothing) :=
    moves_elsewhere rfl
  -- the session stops unless the loop served an older connection
  refine hbase.trans (moves_loopFailure (h.wakes hwakes) fun hg hstops hsuperseded => ?_)
  exact h.alone hg (hdisconnects hstops hsuperseded)

theorem moves_readError {aborted : Bool} (h : g.Allows options impl (.readError i aborted))
    (hstep : step options impl (.readError i aborted) = some impl') :
    Moves options g (impl, .nothing) (impl', .nothing) := by
  obtain ⟨loop, hloop, io, rfl⟩ := step_readError hstep
  refine moves_view (moves_loopError h rfl (fun hstops hsuperseded => ?_) io) view_endRead
  unfold Impl.disconnects
  simp [hstops, Option.mem_def.mp hloop, hsuperseded]

theorem moves_writeError {aborted : Bool} (h : g.Allows options impl (.writeError i aborted))
    (hstep : step options impl (.writeError i aborted) = some impl') :
    Moves options g (impl, .nothing) (impl', .nothing) := by
  obtain ⟨loop, hloop, io, rfl⟩ := step_writeError hstep
  refine moves_view (moves_loopError h rfl (fun hstops hsuperseded => ?_) io) view_endWrite
  unfold Impl.disconnects
  simp [hstops, Option.mem_def.mp hloop, hsuperseded]

/-- Every step is a sequence of moves. -/
theorem moves_step {action : Action} (h : g.Allows options impl action)
    (hstep : step options impl action = some impl') :
    ∃ hand, (hand = .nothing ∨ hand = .ended) ∧
      Moves options g (impl, action.starts) (impl', hand) := by
  cases action with
  | request mode made submission => exact ⟨.ended, Or.inr rfl, moves_request h hstep⟩
  | connectResumed i submission => exact ⟨.ended, Or.inr rfl, moves_connectResumed h hstep⟩
  | connectAborted i => exact ⟨.ended, Or.inr rfl, moves_connectAborted hstep⟩
  | resolved i => exact ⟨.ended, Or.inr rfl, moves_resolved h hstep⟩
  | established i alpn output submission =>
    exact ⟨.ended, Or.inr rfl, moves_established h hstep⟩
  | connectFailed i => exact ⟨.ended, Or.inr rfl, moves_connectFailed h hstep⟩
  | slotResumed i submission => exact ⟨.ended, Or.inr rfl, moves_slotResumed h hstep⟩
  | slotExpired i => exact ⟨.ended, Or.inr rfl, moves_slotExpired h hstep⟩
  | slotAborted i => exact ⟨.ended, Or.inr rfl, moves_slotAborted h hstep⟩
  | responseResumed i output => exact ⟨.ended, Or.inr rfl, moves_responseResumed h hstep⟩
  | responseAborted i output => exact ⟨.ended, Or.inr rfl, moves_responseAborted h hstep⟩
  | cancelSignal i => exact ⟨.ended, Or.inr rfl, moves_cancelSignal hstep⟩
  | readLoopStarts i =>
    obtain ⟨io, generation, rfl⟩ := step_readLoopStarts hstep
    exact ⟨.nothing, Or.inl rfl, moves_elsewhere (view_readPass generation)⟩
  | readData i frames fatal output => exact ⟨.nothing, Or.inl rfl, moves_readData h hstep⟩
  | readError i aborted => exact ⟨.nothing, Or.inl rfl, moves_readError h hstep⟩
  | writeLoopStarts i =>
    obtain ⟨io, generation, rfl⟩ := step_writeLoopStarts hstep
    exact ⟨.nothing, Or.inl rfl, moves_elsewhere (view_writePass generation)⟩
  | written i =>
    obtain ⟨io, generation, rfl⟩ := step_written hstep
    exact ⟨.nothing, Or.inl rfl, moves_elsewhere (view_writePass generation)⟩
  | writeError i aborted => exact ⟨.nothing, Or.inl rfl, moves_writeError h hstep⟩
  | expireStreams ids output =>
    obtain rfl := Option.some.inj hstep
    exact ⟨.nothing, Or.inl rfl, moves_expireStreams (h.wakes rfl) impl ids output⟩
  | reset =>
    obtain rfl := Option.some.inj hstep
    refine ⟨.nothing, Or.inl rfl, moves_resetNow fun hg hlive => ?_⟩
    exact h.alone hg (by unfold Impl.disconnects; simp [hlive])
  | resetIfIdle =>
    simp only [step] at hstep
    split_ifs at hstep with hidle
    obtain rfl := Option.some.inj hstep
    refine ⟨.nothing, Or.inl rfl, moves_resetNow fun hg hlive => ?_⟩
    exact h.alone hg (by unfold Impl.disconnects; simp [hlive, hidle])
  | shutdown =>
    obtain rfl := Option.some.inj hstep
    refine ⟨.nothing, Or.inl rfl, moves_shutdownNow fun hg hstops => ?_⟩
    exact h.alone hg (by unfold Impl.disconnects; simp [hstops])

end HttpClient.H2
