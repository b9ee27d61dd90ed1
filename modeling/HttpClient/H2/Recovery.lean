import HttpClient.H2.Session

/-!
# Losing a connection

A session that loses its connection should be able to open another one: a request that
has just been told that the session is connected should be granted a slot or queue for
one. Only a shutdown should turn it away.

The flag that says that the session is shut down is set in one place besides an
explicit shutdown: when a read or a write of a loop fails, other than by the end of a
connection that has been replaced. It is never cleared. So the session recovers in the
runs in which no read and no write fails in this way.

## Main definitions

* `Recoverable` — the session is not shut down, and no request has been turned away
* `LosesNothing` — the steps other than a shutdown and such a failure

## Main results

* `recoverable_of_losesNothing` — runs of these steps keep the session recoverable
* `rejected_after_eof` — the session is lost with its first connection
-/

set_option autoImplicit false

namespace HttpClient.H2

open Semantics Text

variable {options : SessionOptions} {impl impl' : Impl} {caller : Caller} {i : Nat}

/-- What a session must keep to recover from the loss of a connection. -/
def Impl.life (impl : Impl) : Bool × Nat := (impl.link.stopping, impl.rejected)

/-! ### What leaves the session alive -/

namespace Impl

@[simp] theorem life_call {function : EngineFunction} : (impl.call function).life = impl.life :=
  rfl

@[simp] theorem life_suspend {phase : Phase} : (impl.suspend caller phase).life = impl.life := rfl

@[simp] theorem life_fail : (impl.fail caller).life = impl.life := by
  unfold fail
  cases caller.mode <;> rfl

@[simp] theorem life_releaseStreamSlot : (impl.releaseStreamSlot options).life = impl.life := rfl

@[simp] theorem life_notifyConnectWaiters : impl.notifyConnectWaiters.life = impl.life := rfl

@[simp] theorem life_failAllStreams : (impl.failAllStreams options).life = impl.life := rfl

@[simp] theorem life_disconnect : (impl.disconnect options).life = impl.life := rfl

@[simp] theorem life_closeConnection : (impl.closeConnection options).life = impl.life := rfl

@[simp] theorem life_resetNow : (impl.resetNow options).life = impl.life := by
  unfold resetNow
  split_ifs <;> rfl

@[simp] theorem life_pumpOutput {output : Bytes} : (impl.pumpOutput output).life = impl.life := by
  unfold pumpOutput
  dsimp only
  split_ifs <;> rfl

@[simp] theorem life_completeEntry {entry : StreamEntry} :
    (impl.completeEntry options entry).life = impl.life := by
  unfold completeEntry
  split_ifs <;> rfl

@[simp] theorem life_completeStream {id : Nat} :
    (impl.completeStream options id).life = impl.life := by
  unfold completeStream
  cases impl.table.find id with
  | none => rfl
  | some entry => exact life_completeEntry

@[simp] theorem life_cancelStream {id : Nat} {output : Bytes} :
    (impl.cancelStream id output).life = impl.life := by
  unfold cancelStream
  cases impl.table.find id with
  | none => rfl
  | some entry => exact life_pumpOutput

theorem life_expireStream {state : Impl × Bool} {id : Nat} :
    (expireStream options state id).1.life = state.1.life := by
  unfold expireStream
  cases state.1.table.find id with
  | none => rfl
  | some entry =>
    dsimp only
    split_ifs
    · rfl
    · exact life_completeEntry

theorem life_foldl_expireStream (options : SessionOptions) (ids : List Nat) (state : Impl × Bool) :
    (ids.foldl (expireStream options) state).1.life = state.1.life := by
  induction ids generalizing state with
  | nil => rfl
  | cons id ids ih => rw [List.foldl_cons, ih, life_expireStream]

@[simp] theorem life_expireStreams {ids : List Nat} {output : Bytes} :
    (impl.expireStreams options ids output).life = impl.life := by
  have hfold := life_foldl_expireStream options ids (impl, false)
  unfold expireStreams
  dsimp only
  split_ifs
  · rw [life_pumpOutput, hfold]
  · exact hfold

theorem life_onFrame (frame : Frame) : (impl.onFrame options frame).life = impl.life := by
  cases frame with
  | maxConcurrentStreams value => rfl
  | endStream id => exact life_completeStream
  | rstStream id => exact life_completeStream
  | goaway => rfl

theorem life_foldl_onFrame (frames : List Frame) (impl : Impl) :
    (frames.foldl (onFrame options) impl).life = impl.life := by
  induction frames generalizing impl with
  | nil => rfl
  | cons frame frames ih => rw [List.foldl_cons, ih, life_onFrame]

theorem life_submitStream (options : SessionOptions) (impl : Impl) (submission : Submission) :
    (impl.submitStream options submission).2.life = impl.life := by
  unfold submitStream
  split_ifs
  · exact life_closeConnection
  · cases submission.assigned with
    | none => rfl
    | some id => exact life_pumpOutput

@[simp] theorem life_awaitResponse {entry : StreamEntry} :
    (impl.awaitResponse options caller entry).life = impl.life := by
  unfold awaitResponse
  split_ifs
  · rfl
  · exact life_fail
  · rfl

@[simp] theorem life_submit {submission : Submission} :
    (impl.submit options caller submission).life = impl.life := by
  have hsubmit := life_submitStream options impl submission
  unfold submit
  split
  case h_1 heq =>
    rw [heq] at hsubmit
    rw [life_fail, life_releaseStreamSlot, hsubmit]
  case h_2 heq =>
    rw [heq] at hsubmit
    split
    · rw [life_fail, life_releaseStreamSlot, hsubmit]
    · exact hsubmit
    · rw [life_awaitResponse, hsubmit]

@[simp] theorem life_slotPass {submission : Submission} :
    (impl.slotPass options caller submission).life = impl.life := by
  unfold slotPass
  dsimp only
  split_ifs
  · exact life_fail
  · exact life_submit
  · exact life_fail
  · rfl

/-- The first pass of a request turns it away only after a shutdown. -/
theorem life_afterConnected {submission : Submission} (h : impl.link.stopping = false) :
    (impl.afterConnected options caller submission).life = impl.life := by
  unfold afterConnected
  simp only [h, Bool.false_eq_true, if_false]
  split_ifs
  · rfl
  · exact life_fail
  · exact life_slotPass

@[simp] theorem life_startConnect : (impl.startConnect caller).life = impl.life := rfl

theorem life_ensureConnected {submission : Submission} (h : impl.link.stopping = false) :
    (impl.ensureConnected options caller submission).life = impl.life := by
  unfold ensureConnected
  split_ifs
  · exact life_afterConnected h
  · rfl
  · rfl
  · rfl

@[simp] theorem life_connectFailure : (impl.connectFailure options caller).life = impl.life :=
  life_fail

@[simp] theorem life_finishConnect {output : Bytes} :
    (impl.finishConnect output).life = impl.life :=
  life_pumpOutput

@[simp] theorem life_readPass {generation : Nat} : (impl.readPass generation).life = impl.life := by
  unfold readPass
  split_ifs <;> rfl

@[simp] theorem life_writePass {generation : Nat} :
    (impl.writePass generation).life = impl.life := by
  unfold writePass
  dsimp only
  split_ifs <;> rfl

theorem life_loopFailure {loop : Loop} {aborted : Bool} (h : impl.superseded loop aborted = true) :
    (impl.loopFailure options loop aborted).life = impl.life := by
  rw [loopFailure, if_pos h]

end Impl

/-! ### Steps -/

/-- The session is not shut down, and no request has been turned away. -/
def Recoverable (impl : Impl) : Prop := impl.link.stopping = false ∧ impl.rejected = 0

theorem recoverable_iff : Recoverable impl ↔ impl.life = (false, 0) := by
  unfold Recoverable Impl.life
  rw [Prod.mk.injEq]

theorem Recoverable.of_life (h : Recoverable impl) (hlife : impl'.life = impl.life) :
    Recoverable impl' :=
  recoverable_iff.mpr (hlife.trans (recoverable_iff.mp h))

/-- Taking a request out leaves the session alive. -/
theorem Recoverable.of_takeCaller (h : Recoverable impl)
    (htake : impl.takeCaller i = some (caller, impl')) : Recoverable impl' := by
  obtain ⟨-, rfl⟩ := takeCaller_eq_some htake
  exact h

/-- The steps that do not shut the session down: neither an explicit shutdown nor the
failure of a read or a write, unless the connection it belongs to has been replaced. -/
def LosesNothing (impl : Impl) : Action → Prop
  | .shutdown => False
  | .readError i aborted => ∀ loop ∈ impl.io.readLoops[i]?, impl.superseded loop aborted = true
  | .writeError i aborted => ∀ loop ∈ impl.io.writeLoops[i]?, impl.superseded loop aborted = true
  | _ => True

theorem Recoverable.step {action : Action} (h : Recoverable impl)
    (hok : LosesNothing impl action) (hstep : step options impl action = some impl') :
    Recoverable impl' := by
  cases action with
  | request mode request submission =>
    obtain rfl := Option.some.inj hstep
    exact h.of_life (Impl.life_ensureConnected h.1)
  | connectResumed i submission =>
    obtain ⟨caller, base, w, htake, -, ⟨-, rfl⟩ | ⟨-, rfl⟩⟩ := step_connectResumed hstep
    · have hbase := h.of_takeCaller htake
      exact hbase.of_life (Impl.life_afterConnected hbase.1)
    · exact (h.of_takeCaller htake).of_life Impl.life_fail
  | connectAborted i =>
    obtain ⟨caller, base, w, htake, -, -, rfl⟩ := step_connectAborted hstep
    exact (h.of_takeCaller htake).of_life Impl.life_fail
  | resolved i =>
    obtain ⟨caller, base, attempt, htake, -, rfl⟩ := step_resolved hstep
    refine (h.of_takeCaller htake).of_life ?_
    dsimp only
    split_ifs
    · exact Impl.life_connectFailure
    · rfl
  | established i alpn output submission =>
    obtain ⟨caller, base, attempt, htake, -, ⟨-, rfl⟩ | ⟨-, rfl⟩⟩ := step_established hstep
    · have hconnected : Recoverable (base.finishConnect output) :=
        (h.of_takeCaller htake).of_life Impl.life_finishConnect
      exact hconnected.of_life (Impl.life_afterConnected hconnected.1)
    · exact (h.of_takeCaller htake).of_life Impl.life_connectFailure
  | connectFailed i =>
    obtain ⟨caller, base, attempt, htake, -, rfl⟩ := step_connectFailed hstep
    exact (h.of_takeCaller htake).of_life Impl.life_connectFailure
  | slotResumed i submission =>
    obtain ⟨caller, base, w, htake, -, -, rfl⟩ := step_slotResumed hstep
    exact (h.of_takeCaller htake).of_life Impl.life_slotPass
  | slotExpired i =>
    obtain ⟨caller, base, w, htake, -, -, rfl⟩ := step_slotExpired hstep
    exact (h.of_takeCaller htake).of_life Impl.life_fail
  | slotAborted i =>
    obtain ⟨caller, base, w, htake, -, -, rfl⟩ := step_slotAborted hstep
    exact (h.of_takeCaller htake).of_life Impl.life_fail
  | responseResumed i output =>
    obtain ⟨caller, base, id, w, htake, -, rfl | ⟨-, rfl⟩⟩ := step_responseResumed hstep
    · exact (h.of_takeCaller htake).of_life rfl
    · exact (h.of_takeCaller htake).of_life Impl.life_cancelStream
  | responseAborted i output =>
    obtain ⟨caller, base, id, w, htake, -, -, rfl⟩ := step_responseAborted hstep
    exact (h.of_takeCaller htake).of_life Impl.life_cancelStream
  | cancelSignal i =>
    obtain ⟨caller, base, htake, rfl⟩ := step_cancelSignal hstep
    exact (h.of_takeCaller htake).of_life rfl
  | readLoopStarts i =>
    obtain ⟨io, generation, rfl⟩ := step_readLoopStarts hstep
    exact h.of_life Impl.life_readPass
  | readData i frames fatal output =>
    obtain ⟨loop, -, -, io, base, rfl, hread⟩ := step_readData hstep
    have hbase : Recoverable
        (frames.foldl (Impl.onFrame options) ({ impl with io }.call .memRecv)) :=
      h.of_life (Impl.life_foldl_onFrame frames _)
    rcases hread with rfl | rfl
    · exact hbase
    · exact hbase.of_life (Impl.life_readPass.trans Impl.life_pumpOutput)
  | readError i aborted =>
    obtain ⟨loop, hloop, io, rfl⟩ := step_readError hstep
    exact h.of_life (Impl.life_loopFailure (hok loop hloop))
  | writeLoopStarts i =>
    obtain ⟨io, generation, rfl⟩ := step_writeLoopStarts hstep
    exact h.of_life Impl.life_writePass
  | written i =>
    obtain ⟨io, generation, rfl⟩ := step_written hstep
    exact h.of_life Impl.life_writePass
  | writeError i aborted =>
    obtain ⟨loop, hloop, io, rfl⟩ := step_writeError hstep
    exact h.of_life (Impl.life_loopFailure (hok loop hloop))
  | expireStreams ids output =>
    obtain rfl := Option.some.inj hstep
    exact h.of_life Impl.life_expireStreams
  | reset =>
    obtain rfl := Option.some.inj hstep
    exact h.of_life Impl.life_resetNow
  | resetIfIdle =>
    simp only [H2.step] at hstep
    split_ifs at hstep
    obtain rfl := Option.some.inj hstep
    exact h.of_life Impl.life_resetNow
  | shutdown => exact hok.elim

/-! ### Runs -/

/-- In a run without such a failure, no request that finds the session connected is
turned away. -/
theorem recoverable_of_losesNothing (options : SessionOptions) (actions : List Action)
    (hok : Along (step options) LosesNothing {} actions)
    (hrun : exec (step options) {} actions = some impl) : impl.rejected = 0 :=
  have hlive : Recoverable impl :=
    invariant_of_along (fun _ _ _ (h : Recoverable _) hok hstep => h.step hok hstep) ⟨rfl, rfl⟩
      hok hrun
  hlive.2

/-- What the engine does for the first request of a connection. -/
def firstSubmission : Submission := { expected := 1, assigned := some 1, output := [] }

/-- A connection is reset, and the read that is then aborted belongs to an older
generation; the next request connects again. -/
def resetAndReconnect : List Action :=
  [.request .awaits {} firstSubmission, .resolved 0, .established 0 true [] firstSubmission,
    .readLoopStarts 0, .reset, .responseResumed 0 [], .request .awaits {} firstSubmission,
    .readError 0 true, .resolved 0, .established 0 true [] firstSubmission]

theorem recoverable_of_losesNothing_resetAndReconnect :
    ∃ impl, exec (step {}) {} resetAndReconnect = some impl ∧ impl.rejected = 0 := by
  refine ⟨_, rfl, recoverable_of_losesNothing {} resetAndReconnect ?_ rfl⟩
  refine .cons trivial rfl <| .cons trivial rfl <| .cons trivial rfl <| .cons trivial rfl <|
    .cons trivial rfl <| .cons trivial rfl <| .cons trivial rfl <| .cons ?_ rfl <|
      .cons trivial rfl <| .cons trivial rfl trivial
  rintro loop ⟨⟩
  rfl

/-- The server closes the connection. The next request opens another one, is told that
the session is connected, and is then turned away. -/
theorem rejected_after_eof :
    ¬ ∀ (options : SessionOptions) (actions : List Action) (impl : Impl),
      .shutdown ∉ actions → exec (step options) {} actions = some impl → impl.rejected = 0 := by
  intro h
  have hnone := h {}
    [.request .awaits {} firstSubmission, .resolved 0, .established 0 true [] firstSubmission,
      .readLoopStarts 0, .readError 0 false, .responseResumed 0 [],
      .request .awaits {} firstSubmission, .resolved 0, .established 0 true [] firstSubmission]
    _ (by simp) rfl
  exact absurd hnone (by decide)

end HttpClient.H2
