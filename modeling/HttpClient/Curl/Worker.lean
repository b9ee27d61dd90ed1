import Mathlib.Algebra.Group.Nat.Defs
import HttpClient.Request
import HttpClient.Semantics.Machine

/-!
# The worker of the curl client

`CurlHttpClient` hands every request to one thread. A caller puts the request into a queue and
writes to an eventfd; the worker moves what is queued to libcurl, sleeps in `epoll_wait`, passes
on what the loop reports, and fulfils the promises of the transfers that are complete. A shutdown
sets a flag and writes to the eventfd too; the worker leaves its loop when it finds the flag set
and nothing queued or active.

Callers and the worker meet at one lock, at the flag and at the eventfd. What the worker does
between two of these is one step. The requests are numbered in the order in which they are
queued. What libcurl and the kernel answer is an input of the steps: which transfers are complete
and how, and which errors there are. The sockets that the loop watches are left to `Watch`.

## Main definitions

* `Worker` — the queue, the active transfers, the flag and where the worker is
* `Worker.wakeWorkerLocked`, `Worker.failAll`, `Worker.addEasy` — the functions of the source
* `Action`, `Worker.step` — the steps of the callers and of the worker
-/

set_option autoImplicit false

namespace HttpClient.Curl

open Semantics Text

/-! ### The state -/

/-- What `epoll_wait` reports. -/
inductive LoopEvent where
  | wake
  | timer
  | curlSocket (sock : Int)
  deriving DecidableEq, Repr

/-- From where the queue is drained and complete transfers are read: the top of the loop, or an
event, with the events after it. -/
inductive Place where
  | top
  | event (rest : List LoopEvent)
  deriving DecidableEq, Repr

inductive Phase where
  /-- `curl_multi_init` -/
  | starting
  /-- The descriptors are about to be created. -/
  | opening
  /-- `multi_` is about to be set. -/
  | publishing
  | draining (place : Place)
  /-- A request has been taken from the queue. -/
  | adding (place : Place) (ticket : Nat)
  | reading (place : Place)
  /-- The flag is about to be loaded. -/
  | loading
  /-- The flag was set, and the lock is about to be taken. -/
  | checking
  /-- In `epoll_wait`. -/
  | polling
  | handling (events : List LoopEvent)
  /-- `curl_multi_socket_action` is about to be called for an event. -/
  | acting (rest : List LoopEvent)
  /-- `fail_all` is about to be called, after which the worker leaves or goes on. -/
  | failing (error : Bytes) (leaves : Bool)
  /-- `multi_` is about to be cleared. -/
  | leaving
  /-- The descriptors are about to be closed. -/
  | closing
  | ended
  deriving DecidableEq, Repr

structure Worker where
  queue : List Nat := []
  /-- The transfers that libcurl has. -/
  active : List Nat := []
  /-- The promises that have been fulfilled. -/
  answered : List (Nat × Response) := []
  submitted : Nat := 0
  stop : Bool := false
  /-- A shutdown has set the flag and has not woken the worker yet. -/
  notifying : Bool := false
  /-- `multi_` is set. -/
  multi : Bool := false
  /-- The count of the eventfd, once it is open. -/
  wakeFd : Option Nat := none
  /-- The calls of `curl_multi_wakeup`. -/
  multiWakeups : Nat := 0
  phase : Phase := .starting
  /-- How many requests there had been when the worker decided to leave. -/
  closedAt : Option Nat := none
  deriving DecidableEq, Repr

/-- What becomes of a request that is handed to libcurl. -/
inductive AddResult where
  | noHandle
  | refused (error : Bytes)
  | added
  deriving DecidableEq, Repr

inductive Action where
  /-- A caller puts a request into the queue. -/
  | submit
  /-- A caller sets the flag. -/
  | shutdown
  /-- The caller that has set the flag wakes the worker. -/
  | notify
  | start (ok : Bool)
  /-- An error may come after the eventfd has been opened. -/
  | openFds (error : Option (Bytes × Bool))
  | publish (error : Option Bytes)
  | drain
  | add (result : AddResult)
  | complete (ticket : Nat) (response : Response)
  | readDone
  | load
  | check
  | poll (events : List LoopEvent)
  | interrupted
  | pollError (error : Bytes)
  | handle
  | act (error : Option Bytes)
  | fail
  | leave
  | close
  deriving DecidableEq, Repr

namespace Worker

/-! ### The functions of the worker -/

/-- A write to an eventfd whose count is at its maximum fails and leaves it. -/
def wakeWorkerLocked (s : Worker) : Worker :=
  match s.wakeFd with
  | some count => { s with wakeFd := some (if count < 2 ^ 64 - 2 then count + 1 else count) }
  -- `curl_multi_wakeup` ends a `curl_multi_poll`, not an `epoll_wait`
  | none => if s.multi then { s with multiWakeups := s.multiWakeups + 1 } else s

/-- Fulfil a promise. -/
def answer (s : Worker) (ticket : Nat) (response : Response) : Worker :=
  { s with answered := s.answered ++ [(ticket, response)] }

/-- Fulfil the promises of all that is queued with an error. -/
def failAll (error : Bytes) (s : Worker) : Worker :=
  { s with
    queue := []
    answered := s.answered ++ s.queue.map fun ticket => (ticket, { error }) }

def addEasy (ticket : Nat) (result : AddResult) (s : Worker) : Worker :=
  match result with
  | .noHandle => s.answer ticket { error := str "curl_easy_init failed" }
  | .refused error => s.answer ticket { error }
  | .added => { s with active := s.active ++ [ticket] }

/-- One round of `drain_queue`. -/
def drainQueue (place : Place) (s : Worker) : Worker :=
  match s.queue with
  | ticket :: queue => { s with queue, phase := .adding place ticket }
  | [] =>
    { s with
      phase := match place with
        | .top => .reading .top
        | .event rest => .acting rest }

/-- After the last transfer that is complete. -/
def readDone (place : Place) (s : Worker) : Worker :=
  { s with
    phase := match place with
      | .top => .loading
      | .event rest => .handling rest }

/-- The next event of those that have been reported. -/
def handle (events : List LoopEvent) (s : Worker) : Worker :=
  match events with
  | [] => { s with phase := .draining .top }
  -- reading the eventfd sets its count to zero
  | .wake :: rest => { s with wakeFd := s.wakeFd.map fun _ => 0, phase := .draining (.event rest) }
  | .timer :: rest => { s with phase := .acting rest }
  | .curlSocket _ :: rest => { s with phase := .acting rest }

/-- Under the lock: leave if there is nothing left to do. -/
def checkStop (s : Worker) : Worker :=
  if s.queue = [] ∧ s.active = [] then { s with phase := .leaving, closedAt := some s.submitted }
  else { s with phase := .polling }

def step (s : Worker) : Action → Option Worker
  | .submit =>
    some { s with queue := s.queue ++ [s.submitted], submitted := s.submitted + 1 }.wakeWorkerLocked
  | .shutdown => some (if s.stop then s else { s with stop := true, notifying := true })
  | .notify => if s.notifying then some { s with notifying := false }.wakeWorkerLocked else none
  | .start ok =>
    match s.phase with
    | .starting =>
      some { s with
        phase := if ok then .opening else .failing (str "curl_multi_init failed") true }
    | _ => none
  | .openFds error =>
    match s.phase with
    | .opening =>
      match error with
      | none => some { s with wakeFd := some 0, phase := .publishing }
      | some (error, opened) =>
        some { s with
          wakeFd := if opened then some 0 else none
          phase := .failing error true }
    | _ => none
  | .publish error =>
    match s.phase with
    | .publishing =>
      some { s with
        multi := true
        phase := match error with
          | none => .draining .top
          | some error => .failing error false }
    | _ => none
  | .drain =>
    match s.phase with
    | .draining place => some (s.drainQueue place)
    | _ => none
  | .add result =>
    match s.phase with
    | .adding place ticket => some { s.addEasy ticket result with phase := .draining place }
    | _ => none
  | .complete ticket response =>
    match s.phase with
    | .reading _ =>
      if ticket ∈ s.active then
        some { s.answer ticket response with active := s.active.erase ticket }
      else none
    | _ => none
  | .readDone =>
    match s.phase with
    | .reading place => some (s.readDone place)
    | _ => none
  | .load =>
    match s.phase with
    | .loading => some { s with phase := if s.stop then .checking else .polling }
    | _ => none
  | .check =>
    match s.phase with
    | .checking => some s.checkStop
    | _ => none
  | .poll events =>
    match s.phase with
    | .polling =>
      -- the eventfd is reported while its count is not zero
      if events ≠ [] ∧ (.wake ∈ events → s.wakeFd ≠ some 0) then
        some { s with phase := .handling events }
      else none
    | _ => none
  | .interrupted =>
    match s.phase with
    | .polling => some { s with phase := .draining .top }
    | _ => none
  | .pollError error =>
    match s.phase with
    | .polling => some { s with phase := .failing error true }
    | _ => none
  | .handle =>
    match s.phase with
    | .handling events => some (s.handle events)
    | _ => none
  | .act error =>
    match s.phase with
    | .acting rest =>
      some { s with
        phase := match error with
          | none => .reading (.event rest)
          | some error => .failing error false }
    | _ => none
  | .fail =>
    match s.phase with
    | .failing error leaves =>
      some { s.failAll error with phase := if leaves then .leaving else .draining .top }
    | _ => none
  | .leave =>
    match s.phase with
    | .leaving => some { s with multi := false, phase := .closing }
    | _ => none
  | .close =>
    match s.phase with
    | .closing => some { s with wakeFd := none, phase := .ended }
    | _ => none

end Worker

/-! ### What a step does -/

/-- The branches of a step. -/
inductive Move (s : Worker) : Worker → Prop where
  | submit :
    Move s
      { s with queue := s.queue ++ [s.submitted], submitted := s.submitted + 1 }.wakeWorkerLocked
  | shutdown (hstop : s.stop = false) : Move s { s with stop := true, notifying := true }
  | shutdownAgain (hstop : s.stop = true) : Move s s
  | notify (hnotifying : s.notifying = true) :
    Move s { s with notifying := false }.wakeWorkerLocked
  | started (hphase : s.phase = .starting) : Move s { s with phase := .opening }
  | notStarted (error : Bytes) (hphase : s.phase = .starting) :
    Move s { s with phase := .failing error true }
  | opened (hphase : s.phase = .opening) : Move s { s with wakeFd := some 0, phase := .publishing }
  | notOpened (error : Bytes) (wakeFd : Option Nat) (hphase : s.phase = .opening) :
    Move s { s with wakeFd, phase := .failing error true }
  | published (hphase : s.phase = .publishing) :
    Move s { s with multi := true, phase := .draining .top }
  | publishedFailing (error : Bytes) (hphase : s.phase = .publishing) :
    Move s { s with multi := true, phase := .failing error false }
  | taken (place : Place) (ticket : Nat) (queue : List Nat) (hphase : s.phase = .draining place)
      (hqueue : s.queue = ticket :: queue) :
    Move s { s with queue, phase := .adding place ticket }
  | drainedTop (hphase : s.phase = .draining .top) (hqueue : s.queue = []) :
    Move s { s with phase := .reading .top }
  | drainedEvent (rest : List LoopEvent) (hphase : s.phase = .draining (.event rest)) :
    Move s { s with phase := .acting rest }
  | refused (place : Place) (ticket : Nat) (response : Response)
      (hphase : s.phase = .adding place ticket) :
    Move s { s.answer ticket response with phase := .draining place }
  | added (place : Place) (ticket : Nat) (hphase : s.phase = .adding place ticket) :
    Move s { s with active := s.active ++ [ticket], phase := .draining place }
  | completed (place : Place) (ticket : Nat) (response : Response)
      (hphase : s.phase = .reading place) (hactive : ticket ∈ s.active) :
    Move s { s.answer ticket response with active := s.active.erase ticket }
  | readTop (hphase : s.phase = .reading .top) : Move s { s with phase := .loading }
  | readEvent (rest : List LoopEvent) (hphase : s.phase = .reading (.event rest)) :
    Move s { s with phase := .handling rest }
  | loadedStop (hphase : s.phase = .loading) (hstop : s.stop = true) :
    Move s { s with phase := .checking }
  | loaded (hphase : s.phase = .loading) (hstop : s.stop = false) :
    Move s { s with phase := .polling }
  | closed (hphase : s.phase = .checking) (hqueue : s.queue = []) (hactive : s.active = []) :
    Move s { s with phase := .leaving, closedAt := some s.submitted }
  | stayed (hphase : s.phase = .checking) (hleft : ¬ (s.queue = [] ∧ s.active = [])) :
    Move s { s with phase := .polling }
  | polled (events : List LoopEvent) (hphase : s.phase = .polling) :
    Move s { s with phase := .handling events }
  | interrupted (hphase : s.phase = .polling) : Move s { s with phase := .draining .top }
  | pollFailed (error : Bytes) (hphase : s.phase = .polling) :
    Move s { s with phase := .failing error true }
  | handled (hphase : s.phase = .handling []) : Move s { s with phase := .draining .top }
  | woken (rest : List LoopEvent) (hphase : s.phase = .handling (.wake :: rest)) :
    Move s { s with wakeFd := s.wakeFd.map fun _ => 0, phase := .draining (.event rest) }
  | actsNext (event : LoopEvent) (rest : List LoopEvent)
      (hphase : s.phase = .handling (event :: rest)) : Move s { s with phase := .acting rest }
  | acted (rest : List LoopEvent) (hphase : s.phase = .acting rest) :
    Move s { s with phase := .reading (.event rest) }
  | actFailed (rest : List LoopEvent) (error : Bytes) (hphase : s.phase = .acting rest) :
    Move s { s with phase := .failing error false }
  | failed (error : Bytes) (hphase : s.phase = .failing error true) :
    Move s { s.failAll error with phase := .leaving }
  | failedOnce (error : Bytes) (hphase : s.phase = .failing error false) :
    Move s { s.failAll error with phase := .draining .top }
  | left (hphase : s.phase = .leaving) : Move s { s with multi := false, phase := .closing }
  | fdsClosed (hphase : s.phase = .closing) : Move s { s with wakeFd := none, phase := .ended }

namespace Worker

variable {s s' : Worker} {action : Action}

theorem drainQueue_move {place : Place} (hphase : s.phase = .draining place) :
    Move s (s.drainQueue place) := by
  unfold drainQueue
  split
  case h_1 ticket queue hqueue => exact .taken place ticket queue hphase hqueue
  case h_2 hqueue =>
    cases place with
    | top => exact .drainedTop hphase hqueue
    | event rest => exact .drainedEvent rest hphase

theorem addEasy_move {place : Place} {ticket : Nat} (hphase : s.phase = .adding place ticket)
    (result : AddResult) :
    Move s { s.addEasy ticket result with phase := .draining place } := by
  cases result with
  | noHandle => exact .refused place ticket _ hphase
  | refused error => exact .refused place ticket _ hphase
  | added => exact .added place ticket hphase

theorem handle_move {events : List LoopEvent} (hphase : s.phase = .handling events) :
    Move s (s.handle events) := by
  match events with
  | [] => exact .handled hphase
  | .wake :: rest => exact .woken rest hphase
  | .timer :: rest => exact .actsNext .timer rest hphase
  | .curlSocket sock :: rest => exact .actsNext (.curlSocket sock) rest hphase

theorem checkStop_move (hphase : s.phase = .checking) : Move s s.checkStop := by
  rw [checkStop]
  split_ifs with hleft
  · exact .closed hphase hleft.1 hleft.2
  · exact .stayed hphase hleft

/-- Every step takes one of the branches. -/
theorem step_move (h : s.step action = some s') : Move s s' := by
  unfold step at h
  cases action with
  | submit =>
    obtain rfl := Option.some.inj h
    exact .submit
  | shutdown =>
    obtain rfl := Option.some.inj h
    split_ifs with hstop
    · exact .shutdownAgain hstop
    · exact .shutdown (by simpa using hstop)
  | notify =>
    dsimp only at h
    split_ifs at h with hnotifying
    obtain rfl := Option.some.inj h
    exact .notify hnotifying
  | start ok =>
    dsimp only at h
    split at h
    case h_1 hphase =>
      obtain rfl := Option.some.inj h
      cases ok with
      | true => exact .started hphase
      | false => exact .notStarted _ hphase
    case h_2 => cases h
  | openFds error =>
    dsimp only at h
    split at h
    case h_1 hphase =>
      cases error with
      | none =>
        obtain rfl := Option.some.inj h
        exact .opened hphase
      | some error =>
        obtain rfl := Option.some.inj h
        exact .notOpened error.1 _ hphase
    case h_2 => cases h
  | publish error =>
    dsimp only at h
    split at h
    case h_1 hphase =>
      obtain rfl := Option.some.inj h
      cases error with
      | none => exact .published hphase
      | some error => exact .publishedFailing error hphase
    case h_2 => cases h
  | drain =>
    dsimp only at h
    split at h
    case h_1 place hphase =>
      obtain rfl := Option.some.inj h
      exact drainQueue_move hphase
    case h_2 => cases h
  | add result =>
    dsimp only at h
    split at h
    case h_1 place ticket hphase =>
      obtain rfl := Option.some.inj h
      exact addEasy_move hphase result
    case h_2 => cases h
  | complete ticket response =>
    dsimp only at h
    split at h
    case h_1 place hphase =>
      split_ifs at h with hactive
      obtain rfl := Option.some.inj h
      exact .completed place ticket response hphase hactive
    case h_2 => cases h
  | readDone =>
    dsimp only at h
    split at h
    case h_1 place hphase =>
      obtain rfl := Option.some.inj h
      cases place with
      | top => exact .readTop hphase
      | event rest => exact .readEvent rest hphase
    case h_2 => cases h
  | load =>
    dsimp only at h
    split at h
    case h_1 hphase =>
      obtain rfl := Option.some.inj h
      split_ifs with hstop
      · exact .loadedStop hphase hstop
      · exact .loaded hphase (by simpa using hstop)
    case h_2 => cases h
  | check =>
    dsimp only at h
    split at h
    case h_1 hphase =>
      obtain rfl := Option.some.inj h
      exact checkStop_move hphase
    case h_2 => cases h
  | poll events =>
    dsimp only at h
    split at h
    case h_1 hphase =>
      split_ifs at h
      obtain rfl := Option.some.inj h
      exact .polled events hphase
    case h_2 => cases h
  | interrupted =>
    dsimp only at h
    split at h
    case h_1 hphase =>
      obtain rfl := Option.some.inj h
      exact .interrupted hphase
    case h_2 => cases h
  | pollError error =>
    dsimp only at h
    split at h
    case h_1 hphase =>
      obtain rfl := Option.some.inj h
      exact .pollFailed error hphase
    case h_2 => cases h
  | handle =>
    dsimp only at h
    split at h
    case h_1 events hphase =>
      obtain rfl := Option.some.inj h
      exact handle_move hphase
    case h_2 => cases h
  | act error =>
    dsimp only at h
    split at h
    case h_1 rest hphase =>
      obtain rfl := Option.some.inj h
      cases error with
      | none => exact .acted rest hphase
      | some error => exact .actFailed rest error hphase
    case h_2 => cases h
  | fail =>
    dsimp only at h
    split at h
    case h_1 error leaves hphase =>
      obtain rfl := Option.some.inj h
      cases leaves with
      | true => exact .failed error hphase
      | false => exact .failedOnce error hphase
    case h_2 => cases h
  | leave =>
    dsimp only at h
    split at h
    case h_1 hphase =>
      obtain rfl := Option.some.inj h
      exact .left hphase
    case h_2 => cases h
  | close =>
    dsimp only at h
    split at h
    case h_1 hphase =>
      obtain rfl := Option.some.inj h
      exact .fdsClosed hphase
    case h_2 => cases h

/-- What every branch keeps holds in every state that is reached. -/
theorem invariant_of_moves {Inv : Worker → Prop} (hmove : ∀ s t, Inv s → Move s t → Inv t)
    {t : Worker} (hs : Inv s) (hreach : Reaches step s t) : Inv t :=
  invariant_of_reaches (fun s _ t h hstep => hmove s t h (step_move hstep)) hs hreach

@[simp] theorem answer_phase (s : Worker) (ticket : Nat) (response : Response) :
    (s.answer ticket response).phase = s.phase := rfl

@[simp] theorem answer_closedAt (s : Worker) (ticket : Nat) (response : Response) :
    (s.answer ticket response).closedAt = s.closedAt := rfl

@[simp] theorem failAll_closedAt (s : Worker) (error : Bytes) :
    (s.failAll error).closedAt = s.closedAt := rfl

/-! ### Waking the worker -/

/-- Waking the worker changes nothing but the count of the eventfd, or wakes libcurl. -/
theorem wakeWorkerLocked_eq (s : Worker) :
    ∃ wakeFd multiWakeups, s.wakeWorkerLocked = { s with wakeFd, multiWakeups } := by
  unfold wakeWorkerLocked
  split
  case h_1 => exact ⟨_, s.multiWakeups, rfl⟩
  case h_2 hfd =>
    split_ifs
    · exact ⟨s.wakeFd, _, rfl⟩
    · exact ⟨s.wakeFd, s.multiWakeups, rfl⟩

@[simp] theorem wakeWorkerLocked_queue (s : Worker) : s.wakeWorkerLocked.queue = s.queue := by
  obtain ⟨wakeFd, multiWakeups, heq⟩ := s.wakeWorkerLocked_eq
  rw [heq]

@[simp] theorem wakeWorkerLocked_active (s : Worker) : s.wakeWorkerLocked.active = s.active := by
  obtain ⟨wakeFd, multiWakeups, heq⟩ := s.wakeWorkerLocked_eq
  rw [heq]

@[simp] theorem wakeWorkerLocked_answered (s : Worker) :
    s.wakeWorkerLocked.answered = s.answered := by
  obtain ⟨wakeFd, multiWakeups, heq⟩ := s.wakeWorkerLocked_eq
  rw [heq]

@[simp] theorem wakeWorkerLocked_submitted (s : Worker) :
    s.wakeWorkerLocked.submitted = s.submitted := by
  obtain ⟨wakeFd, multiWakeups, heq⟩ := s.wakeWorkerLocked_eq
  rw [heq]

@[simp] theorem wakeWorkerLocked_stop (s : Worker) : s.wakeWorkerLocked.stop = s.stop := by
  obtain ⟨wakeFd, multiWakeups, heq⟩ := s.wakeWorkerLocked_eq
  rw [heq]

@[simp] theorem wakeWorkerLocked_notifying (s : Worker) :
    s.wakeWorkerLocked.notifying = s.notifying := by
  obtain ⟨wakeFd, multiWakeups, heq⟩ := s.wakeWorkerLocked_eq
  rw [heq]

@[simp] theorem wakeWorkerLocked_phase (s : Worker) : s.wakeWorkerLocked.phase = s.phase := by
  obtain ⟨wakeFd, multiWakeups, heq⟩ := s.wakeWorkerLocked_eq
  rw [heq]

@[simp] theorem wakeWorkerLocked_closedAt (s : Worker) :
    s.wakeWorkerLocked.closedAt = s.closedAt := by
  obtain ⟨wakeFd, multiWakeups, heq⟩ := s.wakeWorkerLocked_eq
  rw [heq]

end Worker

end HttpClient.Curl
