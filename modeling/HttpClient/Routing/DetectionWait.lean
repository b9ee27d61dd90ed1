import HttpClient.Routing.OriginGate
import HttpClient.Semantics.Machine

/-!
# Waiting for a detection

A request that the gate tells to wait has its waiter registered on the gate's strand. It
resumes on its own executor and only then starts to wait on the waiter's timer. To
notify a waiter is to mark it done and to cancel its timer, which ends a wait that has
been started and does nothing to one that starts later.

So a notification must not come between the registration and the start of the wait.

## Main definitions

* `Detection` — the gate, and the requests it has answered
* `Action`, `step` — the steps of the gate and of the requests
* `NotifiesWaiting` — the steps that notify only requests that already wait
* `Detection.Blocked` — a request sleeps although its waiter is done

## Main results

* `not_blocked_of_notifiesWaiting` — in runs of these steps no request is blocked
* `blocked_after_early_notification` — a notification that comes early is lost
-/

set_option autoImplicit false

namespace HttpClient.Routing

open Semantics

/-- Where a request is that has entered the gate. -/
inductive Phase where
  /-- The gate has answered, and the request has not resumed yet. -/
  | decided (decision : GateDecision)
  /-- It has resumed, and will wait. -/
  | resumed (waiter : Nat)
  /-- It is suspended on the timer of its waiter. -/
  | waiting (waiter : Nat)
  /-- The timer has been cancelled. -/
  | woken (waiter : Nat)
  deriving DecidableEq, Repr

/-- The waiter a request was given and has not been woken from. -/
def Phase.waiter : Phase → Option Nat
  | .decided decision => decision.waiter
  | .resumed w | .waiting w => some w
  | .woken _ => none

structure Detection where
  gate : OriginGate := {}
  callers : List Phase := []

namespace Detection

/-- Cancel the timers of the waiters in line. -/
def cancelTimers (waiters : List Nat) : Phase → Phase
  | .waiting w => if w ∈ waiters then .woken w else .waiting w
  | phase => phase

/-- An operation of the gate that notifies. -/
def notify (operation : OriginGate → OriginGate) (state : Detection) : Detection :=
  { gate := operation state.gate
    callers := state.callers.map (cancelTimers state.gate.waiters) }

def setCaller (state : Detection) (i : Nat) (phase : Phase) : Detection :=
  { state with callers := state.callers.set i phase }

end Detection

/-- The steps of the gate and of the requests; requests are named by their position. -/
inductive Action where
  | enter (now : Int)
  | setProtocol (protocol : ProtocolState)
  | markH2Failed (now : Int)
  /-- A request resumes with the decision of the gate. -/
  | resume (i : Nat)
  | startWait (i : Nat)
  /-- A request leaves, because it has been woken or its wait is cancelled. -/
  | leave (i : Nat)

open Detection in
def step (options : GateOptions) (state : Detection) : Action → Option Detection
  | .enter now =>
    let (decision, gate) := state.gate.enter options now
    some { gate, callers := state.callers ++ [.decided decision] }
  | .setProtocol protocol => some (state.notify (OriginGate.setProtocol protocol))
  | .markH2Failed now => some (state.notify (OriginGate.markH2Failed options now))
  | .resume i =>
    match state.callers[i]? with
    | some (.decided { action := .wait, waiter := some w, .. }) =>
      some (state.setCaller i (.resumed w))
    | some (.decided _) => some { state with callers := state.callers.eraseIdx i }
    | _ => none
  | .startWait i =>
    match state.callers[i]? with
    | some (.resumed w) => some (state.setCaller i (.waiting w))
    | _ => none
  | .leave i =>
    match state.callers[i]? with
    | some (.waiting _) | some (.woken _) =>
      some { state with callers := state.callers.eraseIdx i }
    | _ => none

variable {options : GateOptions} {state state' : Detection}

/-- A request is suspended on the timer of a waiter that is done. -/
def Detection.Blocked (state : Detection) : Prop :=
  ∃ w, Phase.waiting w ∈ state.callers ∧ state.gate.done w = true

/-- A request has been given a waiter and has not started to wait. -/
def Phase.Unstarted (phase : Phase) : Prop :=
  phase.waiter.isSome = true ∧ ∀ w, phase ≠ .waiting w

/-- The steps that notify only when every request that will wait has started to. -/
def NotifiesWaiting (state : Detection) : Action → Prop
  | .setProtocol _ | .markH2Failed _ => ∀ phase ∈ state.callers, ¬ phase.Unstarted
  | _ => True

/-- A request that has not been woken is in line, and its waiter is not done. -/
def Detection.Registered (state : Detection) : Prop :=
  ∀ phase ∈ state.callers, ∀ w, phase.waiter = some w →
    w ∈ state.gate.waiters ∧ state.gate.done w = false

theorem Detection.Registered.not_blocked (h : state.Registered) : ¬ state.Blocked := by
  rintro ⟨w, hmem, hdone⟩
  have hundone := (h _ hmem w rfl).2
  rw [hdone] at hundone
  cases hundone

/-- Entering leaves those in line in line. -/
theorem OriginGate.enter_registered {gate : OriginGate} {now : Int} {w : Nat}
    (hmem : w ∈ gate.waiters) (hdone : gate.done w = false) :
    w ∈ (gate.enter options now).2.waiters ∧ (gate.enter options now).2.done w = false := by
  rcases gate.enter_cases options now with ⟨hsame, -⟩ | ⟨hstart, -⟩ | ⟨hwait, -⟩
  · rw [hsame]
    exact ⟨hmem, hdone⟩
  · rw [hstart]
    exact ⟨hmem, hdone⟩
  · rw [hwait]
    refine ⟨List.mem_append_left _ hmem, ?_⟩
    by_cases hnew : w = gate.nextWaiter
    · simp [OriginGate.addWaiter, hnew]
    · simpa [OriginGate.addWaiter, Function.update_of_ne hnew] using hdone

/-- The waiter that entering hands out is in line. -/
theorem OriginGate.enter_waiter {gate : OriginGate} {now : Int} {w : Nat}
    (h : (gate.enter options now).1.waiter = some w) :
    w ∈ (gate.enter options now).2.waiters ∧ (gate.enter options now).2.done w = false := by
  rcases gate.enter_cases options now with ⟨-, hnone⟩ | ⟨hstart, -⟩ | ⟨hwait, -⟩
  · rw [hnone] at h
    cases h
  · rw [hstart] at h
    cases h
  · rw [hwait] at h ⊢
    obtain rfl := Option.some.inj h
    exact ⟨by simp [OriginGate.addWaiter], by simp [OriginGate.addWaiter]⟩

/-- A notification finds all who are in line waiting, and wakes them. -/
theorem Detection.Registered.notify (h : state.Registered)
    (hstarted : ∀ phase ∈ state.callers, ¬ phase.Unstarted)
    (operation : OriginGate → OriginGate) : (state.notify operation).Registered := by
  intro phase hphase w hw
  obtain ⟨before, hbefore, rfl⟩ := List.mem_map.mp hphase
  have hline := h before hbefore
  have hwaits := hstarted before hbefore
  exfalso
  cases before with
  | decided decision =>
    refine hwaits ⟨?_, fun v hv => by cases hv⟩
    have hsome : decision.waiter = some w := hw
    simp [Phase.waiter, hsome]
  | resumed v => exact hwaits ⟨rfl, fun u hu => by cases hu⟩
  | waiting v =>
    have hmem := (hline v rfl).1
    simp [Detection.cancelTimers, hmem, Phase.waiter] at hw
  | woken v => cases hw

theorem Detection.Registered.step {action : Action} (h : state.Registered)
    (hok : NotifiesWaiting state action) (hstep : step options state action = some state') :
    state'.Registered := by
  cases action with
  | enter now =>
    obtain rfl := Option.some.inj hstep
    intro phase hphase w hw
    rcases List.mem_append.mp hphase with hold | hnew
    · obtain ⟨hmem, hdone⟩ := h phase hold w hw
      exact OriginGate.enter_registered hmem hdone
    · rw [List.mem_singleton.mp hnew] at hw
      exact OriginGate.enter_waiter hw
  | setProtocol protocol =>
    obtain rfl := Option.some.inj hstep
    exact h.notify hok _
  | markH2Failed now =>
    obtain rfl := Option.some.inj hstep
    exact h.notify hok _
  | resume i =>
    simp only [Routing.step] at hstep
    split at hstep
    case h_1 w _ hat =>
      obtain rfl := Option.some.inj hstep
      intro phase hphase v hv
      rcases List.mem_or_eq_of_mem_set hphase with hold | rfl
      · exact h phase hold v hv
      · exact h _ (List.mem_of_getElem? hat) v hv
    case h_2 =>
      obtain rfl := Option.some.inj hstep
      exact fun phase hphase => h phase (List.mem_of_mem_eraseIdx hphase)
    case h_3 => cases hstep
  | startWait i =>
    simp only [Routing.step] at hstep
    split at hstep
    case h_1 w hat =>
      obtain rfl := Option.some.inj hstep
      intro phase hphase v hv
      rcases List.mem_or_eq_of_mem_set hphase with hold | rfl
      · exact h phase hold v hv
      · exact h _ (List.mem_of_getElem? hat) v hv
    case h_2 => cases hstep
  | leave i =>
    simp only [Routing.step] at hstep
    split at hstep
    case h_3 => cases hstep
    all_goals
      obtain rfl := Option.some.inj hstep
      exact fun phase hphase => h phase (List.mem_of_mem_eraseIdx hphase)

/-- In a run that notifies only requests that already wait, no request sleeps on a waiter
that is done. -/
theorem not_blocked_of_notifiesWaiting (options : GateOptions) (actions : List Action)
    (hok : Along (step options) NotifiesWaiting {} actions)
    (hrun : exec (step options) {} actions = some state) : ¬ state.Blocked :=
  have hregistered : state.Registered :=
    invariant_of_along (fun _ _ _ (h : Detection.Registered _) hok hstep => h.step hok hstep)
      (fun _ h => absurd h List.not_mem_nil) hok hrun
  hregistered.not_blocked

/-- The second of two requests waits for the first one's detection. -/
def waitInTime : List Action :=
  [.enter 0, .enter 0, .resume 1, .startWait 1, .setProtocol .h2Available, .leave 1]

theorem not_blocked_of_notifiesWaiting_waitInTime :
    ∃ state, exec (step {}) {} waitInTime = some state ∧ ¬ state.Blocked := by
  refine ⟨_, rfl, not_blocked_of_notifiesWaiting {} waitInTime ?_ rfl⟩
  refine .cons trivial rfl <| .cons trivial rfl <| .cons trivial rfl <| .cons trivial rfl <|
    .cons ?_ rfl <| .cons trivial rfl trivial
  intro phase hphase hunstarted
  have hmem : phase ∈ [Phase.decided { action := .detect }, Phase.waiting 0] := hphase
  rcases List.mem_cons.mp hmem with rfl | hwaits
  · exact absurd hunstarted.1 (by decide)
  · exact hunstarted.2 0 (List.mem_singleton.mp hwaits)

/-- The detection ends before the second request has resumed. Its timer is cancelled
before it waits on it, and it sleeps for ever. -/
theorem blocked_after_early_notification :
    ¬ ∀ (options : GateOptions) (actions : List Action) (state : Detection),
      exec (step options) {} actions = some state → ¬ state.Blocked := by
  intro h
  refine h {} [.enter 0, .enter 0, .setProtocol .h2Available, .resume 1, .startWait 1] _ rfl
    ⟨0, ?_, rfl⟩
  exact List.mem_cons_of_mem _ List.mem_cons_self

end HttpClient.Routing
