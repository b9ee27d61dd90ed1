import Mathlib.Logic.Relation
import HttpClient.H2.SessionMoves

/-!
# The transport of a session and its loops

What keeps a connection alive is a small part of the session: whether it is connected, the
transport and the generation it has, and the two loops with their flags. Most of the code
between two suspension points leaves this part alone. What is left are a few moves: output
is pumped, the connection is given up, a connect attempt starts, sets its transport and
finishes. The steps of the loops themselves are apart, for they end with the loop going on
or ending.

## Main definitions

* `Wiring`, `Impl.wiring` — the part of a session that concerns its transport
* `Wiring.pump`, `Wiring.disconnect`, `Wiring.connect` — what the code does to it
* `WireMove` — one move of a step that is not a loop's

## Main results

* `wireMoves_step` — a step that is not a loop's is a sequence of such moves
* `wiring_readLoopStarts`, `wiring_readData`, `wiring_readError`, `wiring_writeLoopStarts`,
  `wiring_written`, `wiring_writeError` — the steps of the loops
-/

set_option autoImplicit false

namespace HttpClient.H2

open Text

variable {options : SessionOptions} {impl impl' : Impl} {caller : Caller} {i : Nat}
  {submission : Submission} {output : Bytes}

/-! ### The wiring and its moves -/

/-- What a session has of its connection, apart from the protocol. -/
structure Wiring where
  connected : Bool
  stopping : Bool
  ioGeneration : Nat
  stream : Option Nat
  io : Io

def Impl.wiring (impl : Impl) : Wiring where
  connected := impl.link.connected
  stopping := impl.link.stopping
  ioGeneration := impl.link.ioGeneration
  stream := impl.link.stream
  io := impl.io

namespace Wiring

/-- Whether a loop of the generation goes on. -/
def serves (w : Wiring) (generation : Nat) : Bool :=
  !w.stopping && generation == w.ioGeneration && w.stream.isSome

/-- Output is queued, and a write loop started if none is running. -/
def pump (w : Wiring) (output : Bytes) : Wiring :=
  if w.stopping || w.stream.isNone then w
  else
    let io := { w.io with pendingWrite := w.io.pendingWrite ++ output }
    if io.writing || io.pendingWrite.isEmpty then { w with io }
    else
      let loop : Loop := { generation := w.ioGeneration }
      { w with io := { io with writing := true, writeLoops := io.writeLoops ++ [loop] } }

/-- The transport is retired and the connection given up. -/
def disconnect (w : Wiring) (stopping : Bool) (ioGeneration : Nat) : Wiring where
  connected := false
  stopping := stopping
  ioGeneration := ioGeneration
  stream := none
  io :=
    { w.io with
      activeWrite := [], pendingWrite := [], writing := false
      retired := w.io.retired ++ w.stream.toList }

/-- A connect attempt has finished; a read loop is started. -/
def connect (w : Wiring) : Wiring :=
  let loop : Loop := { generation := w.ioGeneration }
  { w with
    connected := true
    io := { w.io with reading := true, readLoops := w.io.readLoops ++ [loop] } }

def takeRead (w : Wiring) (i : Nat) : Wiring :=
  { w with io := { w.io with readLoops := w.io.readLoops.eraseIdx i } }

def takeWrite (w : Wiring) (i : Nat) : Wiring :=
  { w with io := { w.io with writeLoops := w.io.writeLoops.eraseIdx i } }

def endRead (w : Wiring) : Wiring :=
  { w with io := { w.io with reading := false }.releaseClosedStreams }

def endWrite (w : Wiring) : Wiring :=
  { w with io := { w.io with writing := false }.releaseClosedStreams }

/-- The read loop suspends in a read, or ends. -/
def readPass (w : Wiring) (generation : Nat) : Wiring :=
  if w.serves generation then
    let loop : Loop := { generation, transport := w.stream }
    { w with io := { w.io with readLoops := w.io.readLoops ++ [loop] } }
  else w.endRead

/-- The write loop suspends in a write, or ends. -/
def writePass (w : Wiring) (generation : Nat) : Wiring :=
  if w.serves generation then
    let io :=
      if w.io.activeWrite.isEmpty then
        { w.io with activeWrite := w.io.pendingWrite, pendingWrite := [] }
      else w.io
    if io.activeWrite.isEmpty then { w with io := { io with writing := false } }
    else
      let loop : Loop := { generation, transport := w.stream }
      { w with io := { io with writeLoops := io.writeLoops ++ [loop] } }
  else w.endWrite

end Wiring

theorem Wiring.readLoops_pump {w : Wiring} : (w.pump output).io.readLoops = w.io.readLoops := by
  unfold pump
  dsimp only
  split_ifs <;> rfl

/-- One move of a step that is not a loop's. `closes` tells when the step may give the
connection up, `connects` when it may finish a connect attempt. -/
inductive WireMove (closes connects : Wiring → Prop) : Wiring → Wiring → Prop
  | pump (w : Wiring) (output : Bytes) : WireMove closes connects w (w.pump output)
  | disconnect (w : Wiring) (stopping : Bool) (ioGeneration : Nat) (h : closes w) :
    WireMove closes connects w (w.disconnect stopping ioGeneration)
  /-- A connect attempt starts. -/
  | attempt (w : Wiring) (ioGeneration : Nat) (h : w.connected = false) :
    WireMove closes connects w { w with ioGeneration }
  /-- It sets its transport. -/
  | opened (w : Wiring) (stream : Nat) :
    WireMove closes connects w { w with stream := some stream }
  | connect (w : Wiring) (h : connects w) : WireMove closes connects w w.connect

abbrev WireMoves (closes connects : Wiring → Prop) : Wiring → Wiring → Prop :=
  Relation.ReflTransGen (WireMove closes connects)

/-! ### What leaves the wiring alone -/

namespace Impl

@[simp] theorem wiring_call {function : EngineFunction} :
    (impl.call function).wiring = impl.wiring := rfl

@[simp] theorem wiring_suspend {phase : Phase} : (impl.suspend caller phase).wiring = impl.wiring :=
  rfl

@[simp] theorem wiring_fail : (impl.fail caller).wiring = impl.wiring := by
  unfold fail
  cases caller.mode <;> rfl

@[simp] theorem wiring_releaseStreamSlot : (impl.releaseStreamSlot options).wiring = impl.wiring :=
  rfl

@[simp] theorem wiring_notifyConnectWaiters : impl.notifyConnectWaiters.wiring = impl.wiring := rfl

@[simp] theorem wiring_failAllStreams : (impl.failAllStreams options).wiring = impl.wiring := rfl

theorem wiring_completeEntry {entry : StreamEntry} :
    (impl.completeEntry options entry).wiring = impl.wiring := by
  unfold completeEntry
  split_ifs <;> rfl

theorem wiring_completeStream {id : Nat} :
    (impl.completeStream options id).wiring = impl.wiring := by
  unfold completeStream
  cases impl.table.find id with
  | none => rfl
  | some entry => exact wiring_completeEntry

theorem wiring_expireStream {state : Impl × Bool} {id : Nat} :
    (expireStream options state id).1.wiring = state.1.wiring := by
  unfold expireStream
  cases state.1.table.find id with
  | none => rfl
  | some entry =>
    dsimp only
    split_ifs
    · rfl
    · exact wiring_completeEntry

theorem wiring_foldl_expireStream (options : SessionOptions) (ids : List Nat)
    (state : Impl × Bool) :
    (ids.foldl (expireStream options) state).1.wiring = state.1.wiring := by
  induction ids generalizing state with
  | nil => rfl
  | cons id ids ih => rw [List.foldl_cons, ih, wiring_expireStream]

theorem wiring_foldl_onFrame (frames : List Frame) (impl : Impl) :
    (frames.foldl (onFrame options) impl).wiring = impl.wiring := by
  induction frames generalizing impl with
  | nil => rfl
  | cons frame frames ih =>
    rw [List.foldl_cons, ih]
    cases frame with
    | maxConcurrentStreams value => rfl
    | endStream id => exact wiring_completeStream
    | rstStream id => exact wiring_completeStream
    | goaway => rfl

/-! ### What moves it -/

theorem wiring_pumpOutput : (impl.pumpOutput output).wiring = impl.wiring.pump output := by
  unfold pumpOutput Wiring.pump
  simp only [apply_ite Impl.wiring]
  rfl

theorem wiring_shutdownNow : (impl.shutdownNow options).wiring =
    if impl.stops then impl.wiring.disconnect true impl.link.ioGeneration else impl.wiring := by
  unfold shutdownNow Impl.stops
  cases impl.link.stopping && impl.link.stream.isNone <;> rfl

theorem wiring_readPass {generation : Nat} :
    (impl.readPass generation).wiring = impl.wiring.readPass generation := by
  unfold readPass Wiring.readPass
  rw [apply_ite Impl.wiring]
  rfl

theorem wiring_writePass {generation : Nat} :
    (impl.writePass generation).wiring = impl.wiring.writePass generation := by
  unfold writePass Wiring.writePass
  simp only [apply_ite Impl.wiring]
  rfl

end Impl

/-! ### The steps that are not a loop's -/

section Moves

variable {closes connects : Wiring → Prop}

theorem wireMoves_of_eq (h : impl'.wiring = impl.wiring) :
    WireMoves closes connects impl.wiring impl'.wiring := by
  rw [h]

/-- Output is pumped after something that leaves the wiring alone. -/
theorem wireMoves_pumpOutput {base : Impl} (output : Bytes) (h : base.wiring = impl.wiring) :
    WireMoves closes connects impl.wiring (base.pumpOutput output).wiring := by
  rw [Impl.wiring_pumpOutput, h]
  exact .single (.pump _ _)

theorem wireMoves_closeConnection (options : SessionOptions) (impl : Impl)
    (h : closes impl.wiring) :
    WireMoves closes connects impl.wiring (impl.closeConnection options).wiring :=
  .single (.disconnect _ _ _ h)

theorem wireMoves_shutdownNow (impl : Impl) (h : impl.stops = true → closes impl.wiring) :
    WireMoves closes connects impl.wiring (impl.shutdownNow options).wiring := by
  rw [Impl.wiring_shutdownNow]
  split_ifs with hstops
  · exact .single (.disconnect _ _ _ (h hstops))
  · exact .refl

theorem wireMoves_resetNow (impl : Impl) (h : impl.link.stopping = false → closes impl.wiring) :
    WireMoves closes connects impl.wiring (impl.resetNow options).wiring := by
  unfold Impl.resetNow
  split_ifs with hstopping
  · exact .refl
  · exact .single (.disconnect _ _ _ (h (by simpa using hstopping)))

theorem wireMoves_cancelStream (impl : Impl) (id : Nat) (output : Bytes) :
    WireMoves closes connects impl.wiring (impl.cancelStream id output).wiring := by
  unfold Impl.cancelStream
  cases impl.table.find id with
  | none => exact .refl
  | some entry =>
    refine wireMoves_pumpOutput output ?_
    rfl

theorem wireMoves_expireStreams (impl : Impl) (ids : List Nat) (output : Bytes) :
    WireMoves closes connects impl.wiring (impl.expireStreams options ids output).wiring := by
  have hfold : _ = impl.wiring := Impl.wiring_foldl_expireStream options ids (impl, false)
  unfold Impl.expireStreams
  dsimp only
  split_ifs
  · exact wireMoves_pumpOutput output hfold
  · exact wireMoves_of_eq hfold

theorem wireMoves_submitStream (options : SessionOptions) (impl : Impl) (submission : Submission)
    (h : impl.link.goawayReceived = true → closes impl.wiring) :
    WireMoves closes connects impl.wiring (impl.submitStream options submission).2.wiring := by
  unfold Impl.submitStream
  split_ifs with hgoaway
  · exact wireMoves_closeConnection options impl (h hgoaway)
  · cases submission.assigned with
    | none => exact .refl
    | some id =>
      refine wireMoves_pumpOutput submission.output ?_
      rfl

theorem wiring_awaitResponse {entry : StreamEntry} :
    (impl.awaitResponse options caller entry).wiring = impl.wiring := by
  unfold Impl.awaitResponse
  dsimp only
  split_ifs
  · rfl
  · exact Impl.wiring_fail
  · rfl

theorem wireMoves_submit (impl : Impl)
    (h : impl.link.goawayReceived = true → closes impl.wiring) :
    WireMoves closes connects impl.wiring (impl.submit options caller submission).wiring := by
  have hsubmit : WireMoves closes connects impl.wiring _ :=
    wireMoves_submitStream options impl submission h
  unfold Impl.submit
  split
  case h_1 heq =>
    rw [heq] at hsubmit
    rwa [Impl.wiring_fail]
  case h_2 heq =>
    rw [heq] at hsubmit
    split
    · rwa [Impl.wiring_fail]
    · exact hsubmit
    · rwa [wiring_awaitResponse]

/-- A pass of the slot loop gives the connection up only after a GOAWAY. -/
theorem wireMoves_slotPass (impl : Impl)
    (h : impl.link.goawayReceived = true → impl.grants options = true → closes impl.wiring) :
    WireMoves closes connects impl.wiring (impl.slotPass options caller submission).wiring := by
  unfold Impl.slotPass
  dsimp only
  split_ifs with hstopping hgrants hcancelled
  · exact wireMoves_of_eq Impl.wiring_fail
  · exact wireMoves_submit
      { impl with admission :=
        { impl.admission with activeStreams := impl.admission.activeStreams + 1 } }
      fun hgoaway => h hgoaway hgrants
  · exact wireMoves_of_eq Impl.wiring_fail
  · exact .refl

theorem wireMoves_afterConnected (impl : Impl)
    (h : caller.Submits → impl.link.goawayReceived = true → impl.grants options = true →
      closes impl.wiring) :
    WireMoves closes connects impl.wiring
      (impl.afterConnected options caller submission).wiring := by
  unfold Impl.afterConnected
  split_ifs with hmode hcancelled hstopping
  · exact .refl
  · exact wireMoves_of_eq Impl.wiring_fail
  · have hsubmits : caller.Submits := ⟨hmode, by simpa using hcancelled⟩
    exact wireMoves_slotPass { impl with rejected := impl.rejected + 1 } (h hsubmits)
  · have hsubmits : caller.Submits := ⟨hmode, by simpa using hcancelled⟩
    exact wireMoves_slotPass impl (h hsubmits)

theorem wireMoves_startConnect (impl : Impl) (h : impl.link.connected = false) :
    WireMoves closes connects impl.wiring (impl.startConnect caller).wiring :=
  .single (.attempt _ _ h)

theorem wireMoves_ensureConnected (impl : Impl)
    (hsubmit : caller.Submits → impl.link.connected = true → impl.link.goawayReceived = true →
      impl.grants options = true → closes impl.wiring)
    (hgoaway : impl.link.goawayReceived = true → impl.link.connected = false →
      impl.link.connecting = false → closes impl.wiring) :
    WireMoves closes connects impl.wiring
      (impl.ensureConnected options caller submission).wiring := by
  unfold Impl.ensureConnected
  split_ifs with hconnected hconnecting hleft
  · exact wireMoves_afterConnected impl fun hsubmits => hsubmit hsubmits hconnected
  · exact .refl
  · have hcloses : closes impl.wiring :=
      hgoaway hleft (by simpa using hconnected) (by simpa using hconnecting)
    exact (wireMoves_closeConnection options impl hcloses).trans (wireMoves_startConnect _ rfl)
  · exact wireMoves_startConnect impl (by simpa using hconnected)

theorem wireMoves_connectFailure (impl : Impl) (h : closes impl.wiring) :
    WireMoves closes connects impl.wiring (impl.connectFailure options caller).wiring := by
  unfold Impl.connectFailure
  rw [Impl.wiring_fail]
  exact wireMoves_closeConnection options impl.notifyConnectWaiters h

theorem wireMoves_finishConnect (impl : Impl) (output : Bytes)
    (h : connects (impl.wiring.pump output)) :
    WireMoves closes connects impl.wiring (impl.finishConnect output).wiring := by
  have hcall : (impl.call .submitSettings).wiring = impl.wiring := rfl
  have hpump : WireMoves closes connects impl.wiring _ := wireMoves_pumpOutput output hcall
  refine hpump.tail (.connect _ ?_)
  rw [Impl.wiring_pumpOutput]
  exact h


/-- The steps of the loops. -/
def Action.ofLoop : Action → Bool
  | .readLoopStarts _ | .readData _ _ _ _ | .readError _ _ => true
  | .writeLoopStarts _ | .written _ | .writeError _ _ => true
  | _ => false

/-- The step in which a connect attempt finishes. -/
def Action.finishesConnect : Action → Bool
  | .established _ alpn _ _ => alpn
  | _ => false

theorem wiring_of_takeCaller {base : Impl} (h : impl.takeCaller i = some (caller, base)) :
    base.wiring = impl.wiring := by
  obtain ⟨-, rfl⟩ := takeCaller_eq_some h
  rfl

/-- A request that is taken out to run with the session connected gives the connection up
only in a step that does. -/
theorem disconnects_of_opening {action : Action} (hgoaway : impl.link.goawayReceived = true)
    (hopening : (impl.opening options action).isSome = true) :
    impl.disconnects options action = true := by
  unfold Impl.disconnects
  rw [hgoaway, hopening]
  rfl

/-- A step that is not a loop's is a sequence of moves. A step that gives the connection up
has done nothing to the loops before, unless it has finished a connect attempt. -/
theorem wireMoves_step {action : Action} (hloop : action.ofLoop = false)
    (hcloses : impl.disconnects options action = true →
      ∀ w : Wiring, (action.finishesConnect = false → w.io = impl.io) → closes w)
    (hconnects : action.finishesConnect = true →
      ∀ w : Wiring, w.io.readLoops = impl.io.readLoops → connects w)
    (hstep : step options impl action = some impl') :
    WireMoves closes connects impl.wiring impl'.wiring := by
  cases action with
  | request mode request submission =>
    obtain rfl := Option.some.inj hstep
    refine wireMoves_ensureConnected impl (fun hsubmits hconnected hgoaway hgrants => ?_)
      fun hgoaway hconnected hconnecting => ?_
    · refine hcloses (disconnects_of_opening hgoaway ?_) _ fun _ => rfl
      simp [Impl.opening, hconnected, hgrants, hsubmits.1]
    · refine hcloses ?_ _ fun _ => rfl
      simp [Impl.disconnects, hgoaway, hconnected, hconnecting]
  | connectResumed i submission =>
    obtain ⟨caller, base, w, htake, -, ⟨hconnected, rfl⟩ | ⟨-, rfl⟩⟩ := step_connectResumed hstep
    · rw [← wiring_of_takeCaller htake]
      refine wireMoves_afterConnected base fun hsubmits hgoaway hgrants => ?_
      obtain ⟨hcaller, rfl⟩ := takeCaller_eq_some htake
      have hconnected : impl.link.connected = true := hconnected
      have hgrants : impl.grants options = true := hgrants
      refine hcloses (disconnects_of_opening hgoaway ?_) _ fun _ => rfl
      simp [Impl.opening, hconnected, hgrants, hcaller, hsubmits.1, hsubmits.2]
    · exact wireMoves_of_eq (Impl.wiring_fail.trans (wiring_of_takeCaller htake))
  | connectAborted i =>
    obtain ⟨caller, base, w, htake, -, -, rfl⟩ := step_connectAborted hstep
    have hbase := wiring_of_takeCaller htake
    exact wireMoves_of_eq (Impl.wiring_fail.trans hbase)
  | resolved i =>
    obtain ⟨caller, base, attempt, htake, -, rfl⟩ := step_resolved hstep
    obtain ⟨hcaller, rfl⟩ := takeCaller_eq_some htake
    have hopen : WireMoves closes connects impl.wiring _ := .single (.opened impl.wiring attempt)
    dsimp only
    split_ifs with hcancelled
    · refine hopen.trans (wireMoves_connectFailure
        { impl with
          link := { impl.link with stream := some attempt }
          callers := impl.callers.eraseIdx i } (hcloses ?_ _ fun _ => rfl))
      simp [Impl.disconnects, Impl.opening, hcaller, hcancelled]
    · exact hopen
  | established i alpn output submission =>
    obtain ⟨caller, base, attempt, htake, -, ⟨rfl, rfl⟩ | ⟨rfl, rfl⟩⟩ := step_established hstep
    · rw [← wiring_of_takeCaller htake]
      have hreaders : (base.wiring.pump output).io.readLoops = impl.io.readLoops := by
        rw [wiring_of_takeCaller htake]
        exact Wiring.readLoops_pump
      refine (wireMoves_finishConnect base output (hconnects rfl _ hreaders)).trans
        (wireMoves_afterConnected _ fun hsubmits hgoaway hgrants => ?_)
      obtain ⟨hkeptGoaway, -, -, hkeptGrants⟩ := finishConnect_keeps options base output
      rw [hkeptGoaway] at hgoaway
      rw [hkeptGrants] at hgrants
      obtain ⟨hcaller, rfl⟩ := takeCaller_eq_some htake
      have hgrants : impl.grants options = true := hgrants
      refine hcloses (disconnects_of_opening hgoaway ?_) _ fun hnot =>
        absurd hnot.symm Bool.false_ne_true
      simp [Impl.opening, hgrants, hcaller, hsubmits.1, hsubmits.2]
    · rw [← wiring_of_takeCaller htake]
      refine wireMoves_connectFailure base (hcloses ?_ _ fun _ => ?_)
      · simp [Impl.disconnects]
      · exact congrArg Wiring.io (wiring_of_takeCaller htake)
  | connectFailed i =>
    obtain ⟨caller, base, attempt, htake, -, rfl⟩ := step_connectFailed hstep
    rw [← wiring_of_takeCaller htake]
    refine wireMoves_connectFailure base (hcloses ?_ _ fun _ => ?_)
    · simp [Impl.disconnects]
    · exact congrArg Wiring.io (wiring_of_takeCaller htake)
  | slotResumed i submission =>
    obtain ⟨caller, base, w, htake, -, -, rfl⟩ := step_slotResumed hstep
    rw [← wiring_of_takeCaller htake]
    refine wireMoves_slotPass base fun hgoaway hgrants => ?_
    obtain ⟨-, rfl⟩ := takeCaller_eq_some htake
    have hgrants : impl.grants options = true := hgrants
    refine hcloses (disconnects_of_opening hgoaway ?_) _ fun _ => rfl
    simp [Impl.opening, hgrants]
  | slotExpired i =>
    obtain ⟨caller, base, w, htake, -, -, rfl⟩ := step_slotExpired hstep
    exact wireMoves_of_eq (Impl.wiring_fail.trans (wiring_of_takeCaller htake))
  | slotAborted i =>
    obtain ⟨caller, base, w, htake, -, -, rfl⟩ := step_slotAborted hstep
    have hbase := wiring_of_takeCaller htake
    exact wireMoves_of_eq (Impl.wiring_fail.trans hbase)
  | responseResumed i output =>
    obtain ⟨caller, base, id, w, htake, -, rfl | ⟨-, rfl⟩⟩ := step_responseResumed hstep
    · have hbase := wiring_of_takeCaller htake
      exact wireMoves_of_eq hbase
    · rw [← wiring_of_takeCaller htake]
      exact wireMoves_cancelStream { base with table := base.table.unregister id } id output
  | responseAborted i output =>
    obtain ⟨caller, base, id, w, htake, -, -, rfl⟩ := step_responseAborted hstep
    rw [← wiring_of_takeCaller htake]
    exact wireMoves_cancelStream { base with table := base.table.unregister id } id output
  | cancelSignal i =>
    obtain ⟨caller, base, htake, rfl⟩ := step_cancelSignal hstep
    have hbase := wiring_of_takeCaller htake
    exact wireMoves_of_eq hbase
  | expireStreams ids output =>
    obtain rfl := Option.some.inj hstep
    exact wireMoves_expireStreams impl ids output
  | reset =>
    obtain rfl := Option.some.inj hstep
    refine wireMoves_resetNow impl fun hstopping => hcloses ?_ _ fun _ => rfl
    simp [Impl.disconnects, hstopping]
  | resetIfIdle =>
    simp only [H2.step] at hstep
    split_ifs at hstep with hidle
    obtain rfl := Option.some.inj hstep
    refine wireMoves_resetNow impl fun hstopping => hcloses ?_ _ fun _ => rfl
    simp [Impl.disconnects, hstopping, hidle]
  | shutdown =>
    obtain rfl := Option.some.inj hstep
    refine wireMoves_shutdownNow impl fun hstops => hcloses ?_ _ fun _ => rfl
    simp [Impl.disconnects, hstops]
  | readLoopStarts i => cases hloop
  | readData i frames fatal output => cases hloop
  | readError i aborted => cases hloop
  | writeLoopStarts i => cases hloop
  | written i => cases hloop
  | writeError i aborted => cases hloop

end Moves

/-! ### The steps of the loops -/

theorem wiring_of_takeReadLoop {loop : Loop} {base : Impl}
    (h : impl.takeReadLoop i = some (loop, base)) :
    impl.io.readLoops[i]? = some loop ∧ base.wiring = impl.wiring.takeRead i ∧
      base.link = impl.link := by
  obtain ⟨l, hl, hpair⟩ := Option.map_eq_some_iff.mp h
  obtain ⟨rfl, rfl⟩ := Prod.mk.inj hpair
  exact ⟨hl, rfl, rfl⟩

theorem wiring_of_takeWriteLoop {loop : Loop} {base : Impl}
    (h : impl.takeWriteLoop i = some (loop, base)) :
    impl.io.writeLoops[i]? = some loop ∧ base.wiring = impl.wiring.takeWrite i ∧
      base.link = impl.link := by
  obtain ⟨l, hl, hpair⟩ := Option.map_eq_some_iff.mp h
  obtain ⟨rfl, rfl⟩ := Prod.mk.inj hpair
  exact ⟨hl, rfl, rfl⟩

/-- A loop whose operation has failed gives the connection up, unless the connection was
replaced or there is nothing left of it. -/
theorem wiring_loopFailure {loop : Loop} {aborted : Bool} :
    (impl.loopFailure options loop aborted).wiring =
      if !impl.superseded loop aborted && impl.stops then
        impl.wiring.disconnect true impl.link.ioGeneration
      else impl.wiring := by
  unfold Impl.loopFailure
  cases hsuperseded : impl.superseded loop aborted with
  | true => rfl
  | false =>
    simp only [Bool.false_eq_true, if_false, Bool.not_false, Bool.true_and]
    rw [Impl.wiring_shutdownNow]
    rfl

theorem wiring_readLoopStarts (h : step options impl (.readLoopStarts i) = some impl') :
    ∃ loop, impl.io.readLoops[i]? = some loop ∧
      impl'.wiring = (impl.wiring.takeRead i).readPass loop.generation := by
  obtain ⟨⟨loop, base⟩, htake, h⟩ := Option.bind_eq_some_iff.mp h
  obtain ⟨hloop, hbase, -⟩ := wiring_of_takeReadLoop htake
  dsimp only at h
  split_ifs at h with hstarts
  refine ⟨loop, hloop, ?_⟩
  rw [← Option.some.inj h, Impl.wiring_readPass, hbase]

/-- After a read the loop goes on, unless the engine has failed. -/
theorem wiring_readData {frames : List Frame} {fatal : Bool} {output : Bytes}
    (h : step options impl (.readData i frames fatal output) = some impl') :
    ∃ loop, impl.io.readLoops[i]? = some loop ∧
      impl'.wiring =
        if fatal then (impl.wiring.takeRead i).endRead
        else ((impl.wiring.takeRead i).pump output).readPass loop.generation := by
  obtain ⟨⟨loop, base⟩, htake, h⟩ := Option.bind_eq_some_iff.mp h
  obtain ⟨hloop, hbase, -⟩ := wiring_of_takeReadLoop htake
  have hframes : (frames.foldl (Impl.onFrame options) (base.call .memRecv)).wiring =
      impl.wiring.takeRead i := (Impl.wiring_foldl_onFrame frames _).trans hbase
  dsimp only at h
  split_ifs at h with hreading hfatal
  · refine ⟨loop, hloop, ?_⟩
    rw [← Option.some.inj h, if_pos hfatal, ← hframes]
    rfl
  · refine ⟨loop, hloop, ?_⟩
    rw [← Option.some.inj h, if_neg hfatal, Impl.wiring_readPass, Impl.wiring_pumpOutput, hframes]

theorem wiring_readError {aborted : Bool}
    (h : step options impl (.readError i aborted) = some impl') :
    ∃ loop, impl.io.readLoops[i]? = some loop ∧
      impl'.wiring =
        if !impl.superseded loop aborted && impl.stops then
          ((impl.wiring.takeRead i).disconnect true impl.link.ioGeneration).endRead
        else (impl.wiring.takeRead i).endRead := by
  obtain ⟨⟨loop, base⟩, htake, h⟩ := Option.bind_eq_some_iff.mp h
  obtain ⟨hloop, hbase, hlink⟩ := wiring_of_takeReadLoop htake
  dsimp only at h
  split_ifs at h with hreading
  refine ⟨loop, hloop, ?_⟩
  have hfailure : (base.loopFailure options loop aborted).wiring = _ := wiring_loopFailure
  rw [Impl.superseded, Impl.stops, hlink, hbase] at hfailure
  rw [← Option.some.inj h, ← apply_ite Wiring.endRead]
  exact congrArg Wiring.endRead hfailure

theorem wiring_writeLoopStarts (h : step options impl (.writeLoopStarts i) = some impl') :
    ∃ loop, impl.io.writeLoops[i]? = some loop ∧
      impl'.wiring = (impl.wiring.takeWrite i).writePass loop.generation := by
  obtain ⟨⟨loop, base⟩, htake, h⟩ := Option.bind_eq_some_iff.mp h
  obtain ⟨hloop, hbase, -⟩ := wiring_of_takeWriteLoop htake
  dsimp only at h
  split_ifs at h with hstarts
  refine ⟨loop, hloop, ?_⟩
  rw [← Option.some.inj h, Impl.wiring_writePass, hbase]

/-- The bytes of a completed write are dropped. -/
def Wiring.written (w : Wiring) : Wiring := { w with io := { w.io with activeWrite := [] } }

theorem wiring_written (h : step options impl (.written i) = some impl') :
    ∃ loop, impl.io.writeLoops[i]? = some loop ∧
      impl'.wiring = (impl.wiring.takeWrite i).written.writePass loop.generation := by
  obtain ⟨⟨loop, base⟩, htake, h⟩ := Option.bind_eq_some_iff.mp h
  obtain ⟨hloop, hbase, -⟩ := wiring_of_takeWriteLoop htake
  dsimp only at h
  split_ifs at h with hwriting
  refine ⟨loop, hloop, ?_⟩
  rw [← Option.some.inj h, Impl.wiring_writePass, ← hbase]
  rfl

theorem wiring_writeError {aborted : Bool}
    (h : step options impl (.writeError i aborted) = some impl') :
    ∃ loop, impl.io.writeLoops[i]? = some loop ∧
      impl'.wiring =
        if !impl.superseded loop aborted && impl.stops then
          ((impl.wiring.takeWrite i).disconnect true impl.link.ioGeneration).endWrite
        else (impl.wiring.takeWrite i).endWrite := by
  obtain ⟨⟨loop, base⟩, htake, h⟩ := Option.bind_eq_some_iff.mp h
  obtain ⟨hloop, hbase, hlink⟩ := wiring_of_takeWriteLoop htake
  dsimp only at h
  split_ifs at h with hwriting
  refine ⟨loop, hloop, ?_⟩
  have hfailure : (base.loopFailure options loop aborted).wiring = _ := wiring_loopFailure
  rw [Impl.superseded, Impl.stops, hlink, hbase] at hfailure
  rw [← Option.some.inj h, ← apply_ite Wiring.endWrite]
  exact congrArg Wiring.endWrite hfailure

end HttpClient.H2
