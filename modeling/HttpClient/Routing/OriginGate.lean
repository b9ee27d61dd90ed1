import Mathlib.Logic.Function.Basic
import Mathlib.Tactic.SplitIfs

/-!
# The gate of an origin

Requests that may choose their protocol pass the gate of their origin. The first one
detects the protocol; those that come while it does so are told to wait, up to a limit.
When the protocol is known, or the detection has failed, all who wait are notified.

All operations run on the gate's strand, one after the other. Waiters are shared
objects; they live in a heap and are named by numbers. Every detection that starts is
counted, so that what is left of an earlier detection can be told from a later one.

## Main definitions

* `ProtocolState`, `GateAction`, `GateDecision` — what the gate knows and answers
* `OriginGate` — the state of the gate
* `OriginGate.enter`, `OriginGate.setProtocol`, `OriginGate.markH2Failed` — its operations
* `OriginGate.Open` — no detection is running and nobody is left waiting

## Main results

* `OriginGate.Sound.enter`, `OriginGate.Sound.notified` — who is not in line is notified
* `OriginGate.Sound.setProtocol_open` — the end of a detection opens the gate
-/

set_option autoImplicit false

namespace HttpClient.Routing

inductive ProtocolState where
  | unknown
  | detecting
  | h2Available
  | h1Only
  | h2FailedRecently
  deriving DecidableEq, Repr

inductive GateAction where
  | useH1
  | useH2
  | detect
  | wait
  deriving DecidableEq, Repr

inductive DetectionOverflowPolicy where
  | fallbackH1
  | waitForDetection
  deriving DecidableEq, Repr

structure GateOptions where
  originWaiterLimit : Nat := 32
  detectionOverflowPolicy : DetectionOverflowPolicy := .fallbackH1
  /-- In ticks of the clock. -/
  h2FailureTtl : Int := 30000000000

structure GateDecision where
  action : GateAction
  waiter : Option Nat := none
  overflowFallback : Bool := false
  deriving DecidableEq, Repr

structure OriginGate where
  protocol : ProtocolState := .unknown
  retryAfter : Int := 0
  /-- The waiters in line. -/
  waiters : List Nat := []
  sawH2Origin : Bool := false
  evictionBlocked : Bool := false
  /-- Which waiters have been notified. -/
  done : Nat → Bool := fun _ => false
  nextWaiter : Nat := 0
  /-- How many detections have been started. -/
  detections : Nat := 0

namespace OriginGate

variable {options : GateOptions} {now : Int} {gate : OriginGate}

def startDetection (gate : OriginGate) : GateDecision × OriginGate :=
  ({ action := .detect },
    { gate with
      protocol := .detecting
      evictionBlocked := true
      detections := gate.detections + 1 })

/-- Register a new waiter. -/
def addWaiter (gate : OriginGate) : GateDecision × OriginGate :=
  let w := gate.nextWaiter
  ({ action := .wait, waiter := some w },
    { gate with
      waiters := gate.waiters ++ [w]
      done := Function.update gate.done w false
      nextWaiter := w + 1 })

def enter (options : GateOptions) (now : Int) (gate : OriginGate) : GateDecision × OriginGate :=
  match gate.protocol with
  | .h2Available => ({ action := .useH2 }, gate)
  | .h1Only => ({ action := .useH1 }, gate)
  | .h2FailedRecently =>
    if now < gate.retryAfter then ({ action := .useH1 }, gate) else gate.startDetection
  | .detecting =>
    if options.originWaiterLimit ≤ gate.waiters.length ∧
        options.detectionOverflowPolicy ≠ .waitForDetection then
      ({ action := .useH1, overflowFallback := true }, gate)
    else gate.addWaiter
  | .unknown => gate.startDetection

/-- All waiters in line are done; their timers are cancelled. -/
def notifyWaiters (gate : OriginGate) : OriginGate :=
  { gate with
    done := fun w => gate.done w || decide (w ∈ gate.waiters)
    waiters := [] }

def setProtocol (protocol : ProtocolState) (gate : OriginGate) : OriginGate :=
  { { gate with protocol, retryAfter := 0 }.notifyWaiters with evictionBlocked := false }

def markH2Failed (options : GateOptions) (now : Int) (gate : OriginGate) : OriginGate :=
  { { gate with
      protocol := .h2FailedRecently
      retryAfter := now + options.h2FailureTtl }.notifyWaiters with evictionBlocked := false }

def recordH2Origin (gate : OriginGate) : OriginGate := { gate with sawH2Origin := true }

/-- A request is let through, or it starts a detection, or it is told to wait for the
one that is running. -/
theorem enter_cases (options : GateOptions) (now : Int) (gate : OriginGate) :
    ((gate.enter options now).2 = gate ∧ (gate.enter options now).1.waiter = none) ∨
      (gate.enter options now = gate.startDetection ∧ gate.protocol ≠ .detecting) ∨
      (gate.enter options now = gate.addWaiter ∧ gate.protocol = .detecting) := by
  unfold enter
  split
  case h_1 => exact Or.inl ⟨rfl, rfl⟩
  case h_2 => exact Or.inl ⟨rfl, rfl⟩
  case h_3 hfailed =>
    split_ifs
    · exact Or.inl ⟨rfl, rfl⟩
    · exact Or.inr (Or.inl ⟨rfl, by simp [hfailed]⟩)
  case h_4 hdetecting =>
    split_ifs
    · exact Or.inl ⟨rfl, rfl⟩
    · exact Or.inr (Or.inr ⟨rfl, hdetecting⟩)
  case h_5 hunknown => exact Or.inr (Or.inl ⟨rfl, by simp [hunknown]⟩)

/-! ### What the gate keeps -/

/-- Whoever was told to wait is in line or has been notified. -/
def Sound (gate : OriginGate) : Prop :=
  ∀ w < gate.nextWaiter, w ∈ gate.waiters ∨ gate.done w = true

/-- No detection is running, and whoever was told to wait has been notified. -/
def Open (gate : OriginGate) : Prop :=
  gate.protocol ≠ .detecting ∧ gate.waiters = [] ∧ gate.evictionBlocked = false ∧
    ∀ w < gate.nextWaiter, gate.done w = true

theorem sound_empty : Sound {} := fun _ h => absurd h (Nat.not_lt_zero _)

theorem Sound.addWaiter (h : gate.Sound) : gate.addWaiter.2.Sound := by
  intro w hw
  by_cases hnew : w = gate.nextWaiter
  · exact Or.inl (by simp [OriginGate.addWaiter, hnew])
  · have hold : w < gate.nextWaiter := Nat.lt_of_le_of_ne (Nat.lt_succ_iff.mp hw) hnew
    simpa [OriginGate.addWaiter, Function.update_of_ne hnew, hnew] using h w hold

theorem Sound.startDetection (h : gate.Sound) : gate.startDetection.2.Sound := h

theorem Sound.enter (h : gate.Sound) : (gate.enter options now).2.Sound := by
  rcases gate.enter_cases options now with ⟨hsame, -⟩ | ⟨hstart, -⟩ | ⟨hwait, -⟩
  · rw [hsame]
    exact h
  · rw [hstart]
    exact h.startDetection
  · rw [hwait]
    exact h.addWaiter

theorem Sound.notified (h : gate.Sound) :
    ∀ w < gate.nextWaiter, gate.notifyWaiters.done w = true := by
  intro w hw
  rcases h w hw with hmem | hdone
  · simp [notifyWaiters, hmem]
  · simp [notifyWaiters, hdone]

theorem Sound.setProtocol_open {protocol : ProtocolState} (h : gate.Sound)
    (hprotocol : protocol ≠ .detecting) : (gate.setProtocol protocol).Open :=
  ⟨hprotocol, rfl, rfl, h.notified⟩

theorem Sound.markH2Failed_open (h : gate.Sound) : (gate.markH2Failed options now).Open :=
  ⟨fun hd => (by cases hd), rfl, rfl, h.notified⟩

theorem Open.sound (h : gate.Open) : gate.Sound := fun w hw => Or.inr (h.2.2.2 w hw)

/-- An open gate stays open until another detection starts. -/
theorem Open.enter (h : gate.Open) :
    (gate.enter options now).2 = gate ∨
      (gate.enter options now).2.detections = gate.detections + 1 := by
  rcases gate.enter_cases options now with ⟨hsame, -⟩ | ⟨hstart, -⟩ | ⟨-, hdetecting⟩
  · exact Or.inl hsame
  · exact Or.inr (by rw [hstart]; rfl)
  · exact absurd hdetecting h.1

end OriginGate

end HttpClient.Routing
