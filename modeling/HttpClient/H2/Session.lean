import Mathlib.Data.List.AList
import Mathlib.Logic.Function.Basic
import Mathlib.Tactic.SplitIfs
import HttpClient.Request
import HttpClient.Semantics.Machine

/-!
# One HTTP/2 session

A session keeps one connection to an origin and runs many requests over it. All its
coroutines run on one strand: the code between two suspension points is one step, and
the steps of different coroutines interleave in any order.

A request first needs the connection: it finds the session connected, waits for the
attempt of another request, or makes an attempt itself. Then it needs a stream slot,
for which it may have to queue. Then it submits its stream and waits for the response.
A read loop and a write loop serve the connection, each tagged with the generation of
the connection it was started for.

The protocol engine is not modelled. What it returns, the frames it delivers and the
bytes it wants to send are inputs of the actions; every call into it is logged together
with the session object and the transport that are current when the call is made.
Session objects and transports are named by the connect attempt that created them.

## Main definitions

* `Link`, `Admission`, `StreamTable`, `Io` — the parts of the state
* `Impl` — the state of the machine
* `Impl.closeConnection`, `Impl.shutdownNow`, `Impl.submitStream`, `Impl.slotPass`,
  `Impl.ensureConnected` — the code between suspension points
* `Action`, `step` — the steps of the machine
-/

set_option autoImplicit false

namespace HttpClient.H2

open Text

structure SessionOptions where
  maxConcurrentStreams : Nat := 128

/-! ### The connection -/

/-- The flags of a session, and what it holds of a connection. -/
structure Link where
  connected : Bool := false
  connecting : Bool := false
  stopping : Bool := false
  goawayReceived : Bool := false
  ioGeneration : Nat := 0
  /-- The number of connect attempts so far, from which attempts are named. -/
  attempts : Nat := 0
  /-- The session object, named by the attempt that created it. -/
  session : Option Nat := none
  /-- The transport, named by the attempt that created it. -/
  stream : Option Nat := none
  deriving DecidableEq, Repr

/-! ### Waiting for a connection or a stream slot -/

structure Waiter where
  woken : Bool := false
  cancelled : Bool := false
  deriving DecidableEq, Repr

def wakeWaiter (waiters : Nat → Waiter) (w : Nat) : Nat → Waiter :=
  if (waiters w).cancelled then waiters
  else Function.update waiters w { waiters w with woken := true }

/-- The stream slots in use and the requests in line for a slot or the connection. -/
structure Admission where
  activeStreams : Nat := 0
  peerMaxConcurrentStreams : Nat := 100
  streamWaiters : List Nat := []
  connectWaiters : List Nat := []
  waiters : Nat → Waiter := fun _ => {}
  nextWaiter : Nat := 0

namespace Admission

def streamLimit (options : SessionOptions) (admission : Admission) : Nat :=
  min (max 1 options.maxConcurrentStreams) (max 1 admission.peerMaxConcurrentStreams)

/-- Drop cancelled waiters from the line until one is found to wake. -/
def wakeNext (waiters : Nat → Waiter) : List Nat → (Nat → Waiter) × List Nat
  | [] => (waiters, [])
  | w :: line =>
    if (waiters w).cancelled then wakeNext waiters line else (wakeWaiter waiters w, line)

def wakeStreamWaiters (options : SessionOptions) (admission : Admission) : Admission :=
  if admission.activeStreams < admission.streamLimit options then
    let (waiters, streamWaiters) := wakeNext admission.waiters admission.streamWaiters
    { admission with waiters, streamWaiters }
  else admission

def wakeAllStreamWaiters (admission : Admission) : Admission :=
  { admission with
    waiters := admission.streamWaiters.foldl wakeWaiter admission.waiters
    streamWaiters := [] }

def notifyConnectWaiters (admission : Admission) : Admission :=
  { admission with
    waiters := admission.connectWaiters.foldl wakeWaiter admission.waiters
    connectWaiters := [] }

def releaseStreamSlot (options : SessionOptions) (admission : Admission) : Admission :=
  { admission with activeStreams := admission.activeStreams - 1 }.wakeStreamWaiters options

/-- Queue a new waiter for a stream slot. -/
def enqueueStream (admission : Admission) : Admission :=
  { admission with
    waiters := Function.update admission.waiters admission.nextWaiter {}
    nextWaiter := admission.nextWaiter + 1
    streamWaiters := admission.streamWaiters ++ [admission.nextWaiter] }

/-- Queue a new waiter for the connection. -/
def enqueueConnect (admission : Admission) : Admission :=
  { admission with
    waiters := Function.update admission.waiters admission.nextWaiter {}
    nextWaiter := admission.nextWaiter + 1
    connectWaiters := admission.connectWaiters ++ [admission.nextWaiter] }

/-- A wait is cancelled. -/
def cancelWaiter (admission : Admission) (w : Nat) : Admission :=
  { admission with
    waiters := Function.update admission.waiters w { admission.waiters w with cancelled := true } }

end Admission

/-! ### The streams -/

/-- A stream in use. In callback mode its request is not suspended on a waiter but has
left a handler. -/
structure StreamEntry where
  id : Nat
  done : Bool := false
  callbackMode : Bool := false
  handler : Option Nat := none
  deriving DecidableEq, Repr

/-- The streams in use and the waiters of the requests that wait for a response. Such a
waiter is never cancelled, so all there is to it is whether it has been woken. -/
structure StreamTable where
  entries : List StreamEntry := []
  stateWaiters : AList fun _ : Nat => Nat := ∅
  woken : Nat → Bool := fun _ => false
  nextWaiter : Nat := 0

namespace StreamTable

def find (table : StreamTable) (id : Nat) : Option StreamEntry :=
  table.entries.find? fun entry => decide (entry.id = id)

/-- Update the first entry with an identifier. -/
def updateFirst (id : Nat) (f : StreamEntry → StreamEntry) : List StreamEntry → List StreamEntry
  | [] => []
  | entry :: entries =>
    if entry.id = id then f entry :: entries else entry :: updateFirst id f entries

def update (table : StreamTable) (id : Nat) (f : StreamEntry → StreamEntry) : StreamTable :=
  { table with entries := updateFirst id f table.entries }

def acquireEntry (table : StreamTable) (id : Nat) : StreamTable :=
  { table with entries := table.entries ++ [{ id }] }

def releaseEntry (table : StreamTable) (id : Nat) : StreamTable :=
  { table with entries := table.entries.eraseP fun entry => decide (entry.id = id) }

/-- The engine has assigned another identifier than the one it announced. -/
def renumber (table : StreamTable) (expected id : Nat) : StreamTable :=
  if id = expected then table else table.update expected fun entry => { entry with id }

/-- Wake the request that waits for a stream, if there is one. -/
def wake (table : StreamTable) (id : Nat) : StreamTable :=
  match table.stateWaiters.lookup id with
  | none => table
  | some w => { table with woken := Function.update table.woken w true }

def markDone (table : StreamTable) (id : Nat) : StreamTable :=
  table.update id fun entry => { entry with done := true }

/-- Register a new waiter for a stream. -/
def register (table : StreamTable) (id : Nat) : StreamTable :=
  { table with
    stateWaiters := table.stateWaiters.insert id table.nextWaiter
    woken := Function.update table.woken table.nextWaiter false
    nextWaiter := table.nextWaiter + 1 }

def unregister (table : StreamTable) (id : Nat) : StreamTable :=
  { table with stateWaiters := table.stateWaiters.erase id }

/-- The streams in callback mode that a failure of the connection ends. -/
def failing (table : StreamTable) : List StreamEntry :=
  table.entries.filter fun entry => !entry.done && entry.callbackMode

/-- All streams that are not done fail: those in callback mode are released, for the
others the waiting requests are woken. -/
def failAll (table : StreamTable) : StreamTable :=
  { table with
    entries := (table.entries.filter fun entry => entry.done || !entry.callbackMode).map
      fun entry => { entry with done := true }
    woken := fun w => table.woken w || table.entries.any fun entry =>
      !entry.done && !entry.callbackMode &&
        decide (table.stateWaiters.lookup entry.id = some w) }

end StreamTable

/-! ### Reading and writing -/

/-- A read or write loop: the generation it serves and, once it is suspended, the
transport it reads from or writes to. -/
structure Loop where
  generation : Nat
  transport : Option Nat := none
  deriving DecidableEq, Repr

structure Io where
  reading : Bool := false
  writing : Bool := false
  activeWrite : Bytes := []
  pendingWrite : Bytes := []
  readLoops : List Loop := []
  writeLoops : List Loop := []
  /-- Closed transports, kept for operations that still refer to them. -/
  retired : List Nat := []

def Io.releaseClosedStreams (io : Io) : Io :=
  if io.reading || io.writing then io else { io with retired := [] }

/-! ### The requests -/

/-- How a request was made: by a coroutine that awaits the response, with a handler, or
only to open the connection. -/
inductive Mode where
  | awaits
  | callback (handler : Nat)
  | preconnect
  deriving DecidableEq, Repr

/-- Where a request is suspended. -/
inductive Phase where
  | connectWait (waiter : Nat)
  | resolving (attempt : Nat)
  /-- Connecting, setting up a tunnel, or in a handshake. -/
  | establishing (attempt : Nat)
  | slotWait (waiter : Nat)
  | responseWait (id waiter : Nat)
  deriving DecidableEq, Repr

/-- A suspended request. -/
structure Caller where
  mode : Mode
  request : Request
  /-- Whether the coroutine's cancellation has been signalled. -/
  cancelled : Bool
  phase : Phase

/-! ### The state -/

/-- The functions of the protocol engine. -/
inductive EngineFunction where
  | submitSettings
  | getNextStreamId
  | submitRequest
  | submitRstStream
  | memSend
  | memRecv
  deriving DecidableEq, Repr

/-- A call into the protocol engine, with the session object it is made on and the
transport that is current. -/
structure EngineCall where
  function : EngineFunction
  session : Option Nat
  stream : Option Nat
  deriving DecidableEq, Repr

structure Impl where
  link : Link := {}
  admission : Admission := {}
  table : StreamTable := {}
  io : Io := {}
  callers : List Caller := []
  calls : List EngineCall := []
  /-- How many requests found `stopping_` set in their first pass of the slot loop, after they
  had been told that the session is connected. Later passes are not counted. -/
  rejected : Nat := 0
  /-- The handlers that have been invoked. -/
  handled : List Nat := []

/-- What the engine does when a request is submitted: the identifier it announces, the
one it assigns unless it fails, and the output it then has. -/
structure Submission where
  expected : Nat
  assigned : Option Nat
  output : Bytes

namespace Impl

def call (impl : Impl) (function : EngineFunction) : Impl :=
  { impl with
    calls := impl.calls ++
      [{ function, session := impl.link.session, stream := impl.link.stream }] }

def suspend (impl : Impl) (caller : Caller) (phase : Phase) : Impl :=
  { impl with callers := impl.callers ++ [{ caller with phase }] }

/-- A request ends with an error. -/
def fail (impl : Impl) (caller : Caller) : Impl :=
  match caller.mode with
  | .callback handler => { impl with handled := impl.handled ++ [handler] }
  | .awaits | .preconnect => impl

def releaseStreamSlot (options : SessionOptions) (impl : Impl) : Impl :=
  { impl with admission := impl.admission.releaseStreamSlot options }

def notifyConnectWaiters (impl : Impl) : Impl :=
  { impl with
    link := { impl.link with connecting := false }
    admission := impl.admission.notifyConnectWaiters }

/-! ### Ending a connection -/

def failAllStreams (options : SessionOptions) (impl : Impl) : Impl :=
  -- the slots of the failing streams are given back before anybody in line is woken
  let failing := impl.table.failing
  let activeStreams := impl.admission.activeStreams - failing.length
  { impl with
    table := impl.table.failAll
    admission := { impl.admission with activeStreams }.wakeStreamWaiters options
    handled := impl.handled ++ failing.filterMap StreamEntry.handler }

/-- What `close_connection` and `shutdown_now` have in common: the transport is retired,
everybody in line for a slot is woken and all streams fail. -/
def disconnect (options : SessionOptions) (impl : Impl) : Impl :=
  { impl with
    link := { impl.link with
      connected := false, connecting := false, goawayReceived := false, stream := none }
    io := { impl.io with
      activeWrite := [], pendingWrite := [], writing := false
      retired := impl.io.retired ++ impl.link.stream.toList }
    admission := { impl.admission with activeStreams := 0 }.wakeAllStreamWaiters
  }.failAllStreams options

def closeConnection (options : SessionOptions) (impl : Impl) : Impl :=
  let impl := impl.disconnect options
  { impl with
    link := { impl.link with session := none }
    admission := { impl.admission with peerMaxConcurrentStreams := 100 } }

/-- The session object outlives a shutdown. -/
def shutdownNow (options : SessionOptions) (impl : Impl) : Impl :=
  if impl.link.stopping && impl.link.stream.isNone then impl
  else { impl with link := { impl.link with stopping := true } }.disconnect options

def resetNow (options : SessionOptions) (impl : Impl) : Impl :=
  if impl.link.stopping then impl
  else
    { impl with link := { impl.link with ioGeneration := impl.link.ioGeneration + 1 }
    }.closeConnection options

def idle (impl : Impl) : Bool :=
  !impl.link.connecting && impl.admission.activeStreams == 0 &&
    impl.admission.streamWaiters.isEmpty && impl.table.stateWaiters.entries.isEmpty

/-! ### Output and streams -/

/-- Drain the engine's output and start a write loop for it if none is running. -/
def pumpOutput (impl : Impl) (output : Bytes) : Impl :=
  if impl.link.stopping || impl.link.stream.isNone then impl
  else
    let impl := impl.call .memSend
    let io := { impl.io with pendingWrite := impl.io.pendingWrite ++ output }
    -- a running loop takes the new output after its write
    if io.writing || io.pendingWrite.isEmpty then { impl with io }
    else
      let loop : Loop := { generation := impl.link.ioGeneration }
      { impl with io := { io with writing := true, writeLoops := io.writeLoops ++ [loop] } }

/-- A stream in callback mode ends: its entry and its slot are released. -/
def finishCallback (options : SessionOptions) (impl : Impl) (entry : StreamEntry) : Impl :=
  let impl := { impl with table := impl.table.releaseEntry entry.id }.releaseStreamSlot options
  { impl with handled := impl.handled ++ entry.handler.toList }

/-- Mark a stream done and tell its request. -/
def completeEntry (options : SessionOptions) (impl : Impl) (entry : StreamEntry) : Impl :=
  if entry.callbackMode then impl.finishCallback options entry
  else { impl with table := (impl.table.markDone entry.id).wake entry.id }

def completeStream (options : SessionOptions) (impl : Impl) (id : Nat) : Impl :=
  match impl.table.find id with
  | none => impl
  | some entry => impl.completeEntry options entry

def cancelStream (impl : Impl) (id : Nat) (output : Bytes) : Impl :=
  match impl.table.find id with
  | none => impl
  | some _ =>
    let impl := impl.call .submitRstStream
    { impl with table := ((impl.table.markDone id).wake id).releaseEntry id }.pumpOutput output

/-- A deadline of a stream has passed; the flag says whether any stream has expired. -/
def expireStream (options : SessionOptions) (state : Impl × Bool) (id : Nat) : Impl × Bool :=
  match state.1.table.find id with
  | none => state
  | some entry =>
    if entry.done then state
    else ((state.1.call .submitRstStream).completeEntry options entry, true)

def expireStreams (options : SessionOptions) (impl : Impl) (ids : List Nat) (output : Bytes) :
    Impl :=
  let (impl, expiredAny) := ids.foldl (expireStream options) (impl, false)
  if expiredAny then impl.pumpOutput output else impl

/-! ### Getting a slot and submitting -/

/-- Open a stream for a request, or throw. -/
def submitStream (options : SessionOptions) (impl : Impl) (submission : Submission) :
    Option Nat × Impl :=
  if impl.link.goawayReceived then (none, impl.closeConnection options)
  else
    let impl := impl.call .getNextStreamId
    -- the entry is acquired before the engine accepts the request
    let impl := { impl with table := impl.table.acquireEntry submission.expected }
    let impl := impl.call .submitRequest
    match submission.assigned with
    | none => (none, { impl with table := impl.table.releaseEntry submission.expected })
    | some id =>
      (some id, { impl with table := impl.table.renumber submission.expected id }.pumpOutput
        submission.output)

/-- Wait for the response. The wait of a coroutine whose cancellation has been signalled
throws at once; its stream and its waiter stay. -/
def awaitResponse (options : SessionOptions) (impl : Impl) (caller : Caller)
    (entry : StreamEntry) : Impl :=
  if entry.done then
    { impl with table := impl.table.releaseEntry entry.id }.releaseStreamSlot options
  else
    let w := impl.table.nextWaiter
    let impl := { impl with table := impl.table.register entry.id }
    if caller.cancelled then (impl.releaseStreamSlot options).fail caller
    else impl.suspend caller (.responseWait entry.id w)

/-- A request has been granted a slot. -/
def submit (options : SessionOptions) (impl : Impl) (caller : Caller) (submission : Submission) :
    Impl :=
  match impl.submitStream options submission with
  -- the guard of the slot gives it back when the submission throws
  | (none, impl) => (impl.releaseStreamSlot options).fail caller
  | (some id, impl) =>
    match impl.table.find id, caller.mode with
    | none, _ => (impl.releaseStreamSlot options).fail caller
    -- from here on the stream owns the slot and the handler
    | some _, .callback handler =>
      { impl with
        table := impl.table.update id fun entry =>
          { entry with callbackMode := true, handler := some handler } }
    | some entry, _ => impl.awaitResponse options caller entry

/-- Whether a pass of the slot loop grants a slot. -/
def grants (options : SessionOptions) (impl : Impl) : Bool :=
  !impl.link.stopping && decide (impl.admission.activeStreams < impl.admission.streamLimit options)

/-- One pass of the slot loop. The wait of a coroutine whose cancellation has been
signalled throws at once; its waiter stays in line. -/
def slotPass (options : SessionOptions) (impl : Impl) (caller : Caller)
    (submission : Submission) : Impl :=
  if impl.link.stopping then impl.fail caller
  else if impl.grants options then
    let activeStreams := impl.admission.activeStreams + 1
    { impl with admission := { impl.admission with activeStreams } }.submit options caller
      submission
  else
    let w := impl.admission.nextWaiter
    let impl := { impl with admission := impl.admission.enqueueStream }
    if caller.cancelled then impl.fail caller else impl.suspend caller (.slotWait w)

/-- A request has found the session connected and makes its first pass of the slot
loop, unless its cancellation has been signalled. -/
def afterConnected (options : SessionOptions) (impl : Impl) (caller : Caller)
    (submission : Submission) : Impl :=
  if caller.mode = .preconnect then impl
  else if caller.cancelled then impl.fail caller
  else
    let rejected := if impl.link.stopping then impl.rejected + 1 else impl.rejected
    { impl with rejected }.slotPass options caller submission

/-! ### Connecting -/

/-- Start a connect attempt. A session object that is still there is used again. -/
def startConnect (impl : Impl) (caller : Caller) : Impl :=
  let attempt := impl.link.attempts
  { impl with
    link := { impl.link with
      connecting := true
      ioGeneration := impl.link.ioGeneration + 1
      attempts := attempt + 1
      session := impl.link.session.or (some attempt) }
  }.suspend caller (.resolving attempt)

def ensureConnected (options : SessionOptions) (impl : Impl) (caller : Caller)
    (submission : Submission) : Impl :=
  if impl.link.connected then impl.afterConnected options caller submission
  else if impl.link.connecting then
    { impl with admission := impl.admission.enqueueConnect }.suspend caller
      (.connectWait impl.admission.nextWaiter)
  else if impl.link.goawayReceived then (impl.closeConnection options).startConnect caller
  else impl.startConnect caller

/-- A connect attempt throws: first the guard and then the handler notify those who
wait for it. -/
def connectFailure (options : SessionOptions) (impl : Impl) (caller : Caller) : Impl :=
  ((impl.notifyConnectWaiters.closeConnection options).notifyConnectWaiters).fail caller

/-- The handshake is done. -/
def finishConnect (impl : Impl) (output : Bytes) : Impl :=
  let impl := (impl.call .submitSettings).pumpOutput output
  let impl := { impl with link := { impl.link with connected := true } }.notifyConnectWaiters
  let loop : Loop := { generation := impl.link.ioGeneration }
  { impl with io := { impl.io with reading := true, readLoops := impl.io.readLoops ++ [loop] } }

/-! ### The loops -/

/-- Whether a loop still serves the connection. -/
def serves (impl : Impl) (generation : Nat) : Bool :=
  !impl.link.stopping && generation == impl.link.ioGeneration && impl.link.stream.isSome

def endRead (impl : Impl) : Impl :=
  { impl with io := { impl.io with reading := false }.releaseClosedStreams }

def endWrite (impl : Impl) : Impl :=
  { impl with io := { impl.io with writing := false }.releaseClosedStreams }

/-- The read loop up to its next read. -/
def readPass (impl : Impl) (generation : Nat) : Impl :=
  if impl.serves generation then
    let loop : Loop := { generation, transport := impl.link.stream }
    { impl with io := { impl.io with readLoops := impl.io.readLoops ++ [loop] } }
  else impl.endRead

/-- The write loop up to its next write. -/
def writePass (impl : Impl) (generation : Nat) : Impl :=
  if impl.serves generation then
    let io :=
      if impl.io.activeWrite.isEmpty then
        { impl.io with activeWrite := impl.io.pendingWrite, pendingWrite := [] }
      else impl.io
    -- with nothing to write the loop ends; the next output starts another one
    if io.activeWrite.isEmpty then { impl with io := { io with writing := false } }
    else
      let loop : Loop := { generation, transport := impl.link.stream }
      { impl with io := { io with writeLoops := io.writeLoops ++ [loop] } }
  else impl.endWrite

/-- Whether a failed operation of a loop is only the end of an older connection. -/
def superseded (impl : Impl) (loop : Loop) (aborted : Bool) : Bool :=
  decide (loop.generation ≠ impl.link.ioGeneration) && aborted

/-- An operation of a loop fails: unless it was the end of an older connection, all
streams fail and the session shuts down. -/
def loopFailure (options : SessionOptions) (impl : Impl) (loop : Loop) (aborted : Bool) : Impl :=
  if impl.superseded loop aborted then impl
  else (impl.failAllStreams options).shutdownNow options

/-! ### Taking a coroutine out to run it -/

def takeCaller (impl : Impl) (i : Nat) : Option (Caller × Impl) :=
  impl.callers[i]?.map fun caller => (caller, { impl with callers := impl.callers.eraseIdx i })

def takeReadLoop (impl : Impl) (i : Nat) : Option (Loop × Impl) :=
  impl.io.readLoops[i]?.map fun loop =>
    (loop, { impl with io := { impl.io with readLoops := impl.io.readLoops.eraseIdx i } })

def takeWriteLoop (impl : Impl) (i : Nat) : Option (Loop × Impl) :=
  impl.io.writeLoops[i]?.map fun loop =>
    (loop, { impl with io := { impl.io with writeLoops := impl.io.writeLoops.eraseIdx i } })

end Impl

/-! ### The machine -/

/-- A received frame, as far as the session acts on it. -/
inductive Frame where
  | maxConcurrentStreams (value : Nat)
  /-- The end of a response. -/
  | endStream (id : Nat)
  | rstStream (id : Nat)
  | goaway
  deriving DecidableEq, Repr

def Impl.onFrame (options : SessionOptions) (impl : Impl) : Frame → Impl
  | .maxConcurrentStreams value =>
    { impl with
      admission := { impl.admission with
        peerMaxConcurrentStreams := max 1 value }.wakeStreamWaiters options }
  | .endStream id | .rstStream id => impl.completeStream options id
  | .goaway => { impl with link := { impl.link with goawayReceived := true } }

/-- The steps of the machine. Callers and loops are named by their position. A step that
may submit a request carries what the engine does then. -/
inductive Action where
  | request (mode : Mode) (request : Request) (submission : Submission)
  /-- A woken connect waiter resumes. -/
  | connectResumed (i : Nat) (submission : Submission)
  /-- A cancelled wait for the connection ends. -/
  | connectAborted (i : Nat)
  | resolved (i : Nat)
  /-- The last handshake is done; `alpn` says whether it negotiated `h2`. -/
  | established (i : Nat) (alpn : Bool) (output : Bytes) (submission : Submission)
  | connectFailed (i : Nat)
  /-- A woken stream waiter resumes. -/
  | slotResumed (i : Nat) (submission : Submission)
  /-- The wait for a slot ends because the pool timeout has expired. -/
  | slotExpired (i : Nat)
  /-- A cancelled wait for a slot ends. -/
  | slotAborted (i : Nat)
  /-- A request whose stream is done resumes. -/
  | responseResumed (i : Nat) (output : Bytes)
  /-- A cancelled wait for a response ends. -/
  | responseAborted (i : Nat) (output : Bytes)
  /-- The cancellation of the request's coroutine is signalled. -/
  | cancelSignal (i : Nat)
  | readLoopStarts (i : Nat)
  /-- A read completes; `fatal` says that the engine reports an error after the frames. -/
  | readData (i : Nat) (frames : List Frame) (fatal : Bool) (output : Bytes)
  | readError (i : Nat) (aborted : Bool)
  | writeLoopStarts (i : Nat)
  | written (i : Nat)
  | writeError (i : Nat) (aborted : Bool)
  /-- The deadline timer fires for these streams. -/
  | expireStreams (ids : List Nat) (output : Bytes)
  | reset
  | resetIfIdle
  | shutdown

open Impl in
/-- One step of the machine; `none` if the action is not enabled. -/
def step (options : SessionOptions) (impl : Impl) : Action → Option Impl
  | .request mode request submission =>
    let caller : Caller := { mode, request, cancelled := false, phase := .connectWait 0 }
    some (impl.ensureConnected options caller submission)
  | .connectResumed i submission => do
    let (caller, impl) ← impl.takeCaller i
    let .connectWait w := caller.phase | none
    if (impl.admission.waiters w).woken then
      if impl.link.connected then some (impl.afterConnected options caller submission)
      else some (impl.fail caller)
    else none
  | .connectAborted i => do
    let (caller, impl) ← impl.takeCaller i
    let .connectWait w := caller.phase | none
    if caller.cancelled && !(impl.admission.waiters w).woken then
      let admission := impl.admission.cancelWaiter w
      let connectWaiters := admission.connectWaiters.filter (· ≠ w)
      some ({ impl with admission := { admission with connectWaiters } }.fail caller)
    else none
  | .resolved i => do
    let (caller, impl) ← impl.takeCaller i
    let .resolving attempt := caller.phase | none
    let impl := { impl with link := { impl.link with stream := some attempt } }
    if caller.cancelled then some (impl.connectFailure options caller)
    else some (impl.suspend caller (.establishing attempt))
  | .established i alpn output submission => do
    let (caller, impl) ← impl.takeCaller i
    let .establishing _ := caller.phase | none
    if alpn then some ((impl.finishConnect output).afterConnected options caller submission)
    else some (impl.connectFailure options caller)
  | .connectFailed i => do
    let (caller, impl) ← impl.takeCaller i
    match caller.phase with
    | .resolving _ | .establishing _ => some (impl.connectFailure options caller)
    | _ => none
  | .slotResumed i submission => do
    let (caller, impl) ← impl.takeCaller i
    let .slotWait w := caller.phase | none
    if (impl.admission.waiters w).woken then some (impl.slotPass options caller submission)
    else none
  | .slotExpired i => do
    let (caller, impl) ← impl.takeCaller i
    let .slotWait _ := caller.phase | none
    -- The waiter stays in line.
    if 0 < caller.request.effectiveTimeout Timeout.poolMs then some (impl.fail caller) else none
  | .slotAborted i => do
    let (caller, impl) ← impl.takeCaller i
    let .slotWait w := caller.phase | none
    if caller.cancelled && !(impl.admission.waiters w).woken then
      let admission := impl.admission.cancelWaiter w
      let streamWaiters := admission.streamWaiters.filter (· ≠ w)
      some ({ impl with admission := { admission with streamWaiters } }.fail caller)
    else none
  | .responseResumed i output => do
    let (caller, impl) ← impl.takeCaller i
    let .responseWait id w := caller.phase | none
    if impl.table.woken w then
      let impl := { impl with table := impl.table.unregister id }
      match impl.table.find id with
      | some { done := true, .. } =>
        some ({ impl with table := impl.table.releaseEntry id }.releaseStreamSlot options)
      | _ => some ((impl.cancelStream id output).releaseStreamSlot options)
    else none
  | .responseAborted i output => do
    let (caller, impl) ← impl.takeCaller i
    let .responseWait id w := caller.phase | none
    if caller.cancelled && !impl.table.woken w then
      let impl := { impl with table := impl.table.unregister id }
      some ((impl.cancelStream id output).releaseStreamSlot options)
    else none
  | .cancelSignal i => do
    let (caller, impl) ← impl.takeCaller i
    match caller.mode with
    | .callback _ => none
    | .awaits | .preconnect =>
      some { impl with callers := impl.callers ++ [{ caller with cancelled := true }] }
  | .readLoopStarts i => do
    let (loop, impl) ← impl.takeReadLoop i
    if loop.transport.isNone then some (impl.readPass loop.generation) else none
  | .readData i frames fatal output => do
    let (loop, impl) ← impl.takeReadLoop i
    if loop.transport.isSome then
      let impl := frames.foldl (onFrame options) (impl.call .memRecv)
      if fatal then some impl.endRead
      else some ((impl.pumpOutput output).readPass loop.generation)
    else none
  | .readError i aborted => do
    let (loop, impl) ← impl.takeReadLoop i
    if loop.transport.isSome then some (impl.loopFailure options loop aborted).endRead else none
  | .writeLoopStarts i => do
    let (loop, impl) ← impl.takeWriteLoop i
    if loop.transport.isNone then some (impl.writePass loop.generation) else none
  | .written i => do
    let (loop, impl) ← impl.takeWriteLoop i
    if loop.transport.isSome then
      some ({ impl with io := { impl.io with activeWrite := [] } }.writePass loop.generation)
    else none
  | .writeError i aborted => do
    let (loop, impl) ← impl.takeWriteLoop i
    if loop.transport.isSome then some (impl.loopFailure options loop aborted).endWrite else none
  | .expireStreams ids output => some (impl.expireStreams options ids output)
  | .reset => some (impl.resetNow options)
  | .resetIfIdle => if impl.idle then some (impl.resetNow options) else none
  | .shutdown => some (impl.shutdownNow options)

/-! ### What each step does -/

variable {options : SessionOptions} {impl impl' : Impl} {i : Nat}

theorem takeCaller_eq_some {caller : Caller} {base : Impl}
    (h : impl.takeCaller i = some (caller, base)) :
    impl.callers[i]? = some caller ∧ base = { impl with callers := impl.callers.eraseIdx i } := by
  obtain ⟨c, hc, hpair⟩ := Option.map_eq_some_iff.mp h
  obtain ⟨rfl, rfl⟩ := Prod.mk.inj hpair
  exact ⟨hc, rfl⟩

theorem takeReadLoop_eq_some {loop : Loop} {base : Impl}
    (h : impl.takeReadLoop i = some (loop, base)) :
    loop ∈ impl.io.readLoops[i]? ∧ ∃ io, base = { impl with io } := by
  obtain ⟨l, hl, hpair⟩ := Option.map_eq_some_iff.mp h
  obtain ⟨rfl, rfl⟩ := Prod.mk.inj hpair
  exact ⟨hl, _, rfl⟩

theorem takeWriteLoop_eq_some {loop : Loop} {base : Impl}
    (h : impl.takeWriteLoop i = some (loop, base)) :
    loop ∈ impl.io.writeLoops[i]? ∧ ∃ io, base = { impl with io } := by
  obtain ⟨l, hl, hpair⟩ := Option.map_eq_some_iff.mp h
  obtain ⟨rfl, rfl⟩ := Prod.mk.inj hpair
  exact ⟨hl, _, rfl⟩

theorem step_connectResumed {submission : Submission}
    (h : step options impl (.connectResumed i submission) = some impl') :
    ∃ caller base w, impl.takeCaller i = some (caller, base) ∧ caller.phase = .connectWait w ∧
      (base.link.connected = true ∧ impl' = base.afterConnected options caller submission ∨
        base.link.connected = false ∧ impl' = base.fail caller) := by
  obtain ⟨⟨caller, base⟩, htake, h⟩ := Option.bind_eq_some_iff.mp h
  cases hphase : caller.phase with
  | connectWait w =>
    simp only [hphase] at h
    split_ifs at h with hwoken hconnected
    · exact ⟨caller, base, w, htake, hphase, Or.inl ⟨hconnected, (Option.some.inj h).symm⟩⟩
    · exact ⟨caller, base, w, htake, hphase,
        Or.inr ⟨by simpa using hconnected, (Option.some.inj h).symm⟩⟩
  | _ => simp [hphase] at h

theorem step_connectAborted (h : step options impl (.connectAborted i) = some impl') :
    ∃ caller base w, impl.takeCaller i = some (caller, base) ∧
      caller.phase = .connectWait w ∧
      (caller.cancelled && !(base.admission.waiters w).woken) = true ∧
      impl' = { base with admission :=
        { base.admission.cancelWaiter w with
          connectWaiters := base.admission.connectWaiters.filter (· ≠ w) } }.fail caller := by
  obtain ⟨⟨caller, base⟩, htake, h⟩ := Option.bind_eq_some_iff.mp h
  cases hphase : caller.phase with
  | connectWait w =>
    simp only [hphase] at h
    split_ifs at h with hwait
    exact ⟨caller, base, w, htake, hphase, hwait, (Option.some.inj h).symm⟩
  | _ => simp [hphase] at h

theorem step_resolved (h : step options impl (.resolved i) = some impl') :
    ∃ caller base attempt, impl.takeCaller i = some (caller, base) ∧
      caller.phase = .resolving attempt ∧
      impl' =
        let base := { base with link := { base.link with stream := some attempt } }
        if caller.cancelled then base.connectFailure options caller
        else base.suspend caller (.establishing attempt) := by
  obtain ⟨⟨caller, base⟩, htake, h⟩ := Option.bind_eq_some_iff.mp h
  cases hphase : caller.phase with
  | resolving attempt =>
    refine ⟨caller, base, attempt, htake, hphase, ?_⟩
    simp only [hphase] at h
    dsimp only
    split_ifs at h ⊢ <;> exact (Option.some.inj h).symm
  | _ => simp [hphase] at h

theorem step_established {alpn : Bool} {output : Bytes} {submission : Submission}
    (h : step options impl (.established i alpn output submission) = some impl') :
    ∃ caller base attempt, impl.takeCaller i = some (caller, base) ∧
      caller.phase = .establishing attempt ∧
      (alpn = true ∧
          impl' = (base.finishConnect output).afterConnected options caller submission ∨
        alpn = false ∧ impl' = base.connectFailure options caller) := by
  obtain ⟨⟨caller, base⟩, htake, h⟩ := Option.bind_eq_some_iff.mp h
  cases hphase : caller.phase with
  | establishing attempt =>
    refine ⟨caller, base, attempt, htake, hphase, ?_⟩
    simp only [hphase] at h
    cases alpn with
    | true => exact Or.inl ⟨rfl, (Option.some.inj h).symm⟩
    | false => exact Or.inr ⟨rfl, (Option.some.inj h).symm⟩
  | _ => simp [hphase] at h

theorem step_connectFailed (h : step options impl (.connectFailed i) = some impl') :
    ∃ caller base attempt, impl.takeCaller i = some (caller, base) ∧
      (caller.phase = .resolving attempt ∨ caller.phase = .establishing attempt) ∧
      impl' = base.connectFailure options caller := by
  obtain ⟨⟨caller, base⟩, htake, h⟩ := Option.bind_eq_some_iff.mp h
  cases hphase : caller.phase with
  | resolving attempt =>
    simp only [hphase] at h
    exact ⟨caller, base, attempt, htake, Or.inl hphase, (Option.some.inj h).symm⟩
  | establishing attempt =>
    simp only [hphase] at h
    exact ⟨caller, base, attempt, htake, Or.inr hphase, (Option.some.inj h).symm⟩
  | _ => simp [hphase] at h

theorem step_slotResumed {submission : Submission}
    (h : step options impl (.slotResumed i submission) = some impl') :
    ∃ caller base w, impl.takeCaller i = some (caller, base) ∧ caller.phase = .slotWait w ∧
      (base.admission.waiters w).woken = true ∧
      impl' = base.slotPass options caller submission := by
  obtain ⟨⟨caller, base⟩, htake, h⟩ := Option.bind_eq_some_iff.mp h
  cases hphase : caller.phase with
  | slotWait w =>
    simp only [hphase] at h
    split_ifs at h with hwoken
    exact ⟨caller, base, w, htake, hphase, hwoken, (Option.some.inj h).symm⟩
  | _ => simp [hphase] at h

theorem step_slotExpired (h : step options impl (.slotExpired i) = some impl') :
    ∃ caller base w, impl.takeCaller i = some (caller, base) ∧ caller.phase = .slotWait w ∧
      0 < caller.request.effectiveTimeout Timeout.poolMs ∧ impl' = base.fail caller := by
  obtain ⟨⟨caller, base⟩, htake, h⟩ := Option.bind_eq_some_iff.mp h
  cases hphase : caller.phase with
  | slotWait w =>
    simp only [hphase] at h
    split_ifs at h with htimeout
    exact ⟨caller, base, w, htake, hphase, htimeout, (Option.some.inj h).symm⟩
  | _ => simp [hphase] at h

theorem step_slotAborted (h : step options impl (.slotAborted i) = some impl') :
    ∃ caller base w, impl.takeCaller i = some (caller, base) ∧ caller.phase = .slotWait w ∧
      (caller.cancelled && !(base.admission.waiters w).woken) = true ∧
      impl' = { base with admission :=
        { base.admission.cancelWaiter w with
          streamWaiters := base.admission.streamWaiters.filter (· ≠ w) } }.fail caller := by
  obtain ⟨⟨caller, base⟩, htake, h⟩ := Option.bind_eq_some_iff.mp h
  cases hphase : caller.phase with
  | slotWait w =>
    simp only [hphase] at h
    split_ifs at h with hwait
    exact ⟨caller, base, w, htake, hphase, hwait, (Option.some.inj h).symm⟩
  | _ => simp [hphase] at h

theorem step_responseResumed {output : Bytes}
    (h : step options impl (.responseResumed i output) = some impl') :
    ∃ caller base id w, impl.takeCaller i = some (caller, base) ∧
      caller.phase = .responseWait id w ∧
      (impl' = { base with
            table := (base.table.unregister id).releaseEntry id }.releaseStreamSlot options ∨
        (∀ entry, base.table.find id = some entry → entry.done = false) ∧
          impl' = ({ base with table := base.table.unregister id }.cancelStream id
            output).releaseStreamSlot options) := by
  obtain ⟨⟨caller, base⟩, htake, h⟩ := Option.bind_eq_some_iff.mp h
  cases hphase : caller.phase with
  | responseWait id w =>
    simp only [hphase] at h
    split_ifs at h with hwoken
    refine ⟨caller, base, id, w, htake, hphase, ?_⟩
    split at h
    · exact Or.inl (Option.some.inj h).symm
    case h_2 hundone =>
      refine Or.inr ⟨fun entry hentry => ?_, (Option.some.inj h).symm⟩
      by_contra hdone
      refine hundone entry.id entry.callbackMode entry.handler ?_
      rw [← Bool.not_eq_false entry.done |>.mp hdone]
      exact hentry
  | _ => simp [hphase] at h

theorem step_responseAborted {output : Bytes}
    (h : step options impl (.responseAborted i output) = some impl') :
    ∃ caller base id w, impl.takeCaller i = some (caller, base) ∧
      caller.phase = .responseWait id w ∧ base.table.woken w = false ∧
      impl' = ({ base with table := base.table.unregister id }.cancelStream id
        output).releaseStreamSlot options := by
  obtain ⟨⟨caller, base⟩, htake, h⟩ := Option.bind_eq_some_iff.mp h
  cases hphase : caller.phase with
  | responseWait id w =>
    simp only [hphase] at h
    split_ifs at h with hwait
    simp only [Bool.and_eq_true, Bool.not_eq_true'] at hwait
    exact ⟨caller, base, id, w, htake, hphase, hwait.2, (Option.some.inj h).symm⟩
  | _ => simp [hphase] at h

theorem step_cancelSignal (h : step options impl (.cancelSignal i) = some impl') :
    ∃ caller base, impl.takeCaller i = some (caller, base) ∧
      impl' = { base with callers := base.callers ++ [{ caller with cancelled := true }] } := by
  obtain ⟨⟨caller, base⟩, htake, h⟩ := Option.bind_eq_some_iff.mp h
  refine ⟨caller, base, htake, ?_⟩
  cases hmode : caller.mode <;> simp [hmode] at h <;> exact h.symm

theorem step_readLoopStarts (h : step options impl (.readLoopStarts i) = some impl') :
    ∃ io generation, impl' = { impl with io }.readPass generation := by
  obtain ⟨⟨loop, base⟩, htake, h⟩ := Option.bind_eq_some_iff.mp h
  obtain ⟨-, io, rfl⟩ := takeReadLoop_eq_some htake
  dsimp only at h
  split_ifs at h
  exact ⟨io, _, (Option.some.inj h).symm⟩

theorem step_readData {frames : List Frame} {fatal : Bool} {output : Bytes}
    (h : step options impl (.readData i frames fatal output) = some impl') :
    ∃ loop ∈ impl.io.readLoops[i]?, loop.transport.isSome = true ∧
      ∃ io base, base = frames.foldl (Impl.onFrame options) ({ impl with io }.call .memRecv) ∧
        (impl' = base.endRead ∨
          impl' = (base.pumpOutput output).readPass loop.generation) := by
  obtain ⟨⟨loop, base⟩, htake, h⟩ := Option.bind_eq_some_iff.mp h
  obtain ⟨hloop, io, rfl⟩ := takeReadLoop_eq_some htake
  refine ⟨loop, hloop, ?_⟩
  dsimp only at h
  split_ifs at h with hreading
  · exact ⟨hreading, io, _, rfl, Or.inl (Option.some.inj h).symm⟩
  · exact ⟨hreading, io, _, rfl, Or.inr (Option.some.inj h).symm⟩

theorem step_readError {aborted : Bool}
    (h : step options impl (.readError i aborted) = some impl') :
    ∃ loop ∈ impl.io.readLoops[i]?, ∃ io,
      impl' = ({ impl with io }.loopFailure options loop aborted).endRead := by
  obtain ⟨⟨loop, base⟩, htake, h⟩ := Option.bind_eq_some_iff.mp h
  obtain ⟨hloop, io, rfl⟩ := takeReadLoop_eq_some htake
  dsimp only at h
  split_ifs at h
  exact ⟨loop, hloop, io, (Option.some.inj h).symm⟩

theorem step_writeLoopStarts (h : step options impl (.writeLoopStarts i) = some impl') :
    ∃ io generation, impl' = { impl with io }.writePass generation := by
  obtain ⟨⟨loop, base⟩, htake, h⟩ := Option.bind_eq_some_iff.mp h
  obtain ⟨-, io, rfl⟩ := takeWriteLoop_eq_some htake
  dsimp only at h
  split_ifs at h
  exact ⟨io, _, (Option.some.inj h).symm⟩

theorem step_written (h : step options impl (.written i) = some impl') :
    ∃ io generation, impl' = { impl with io }.writePass generation := by
  obtain ⟨⟨loop, base⟩, htake, h⟩ := Option.bind_eq_some_iff.mp h
  obtain ⟨-, io, rfl⟩ := takeWriteLoop_eq_some htake
  dsimp only at h
  split_ifs at h
  exact ⟨_, _, (Option.some.inj h).symm⟩

theorem step_writeError {aborted : Bool}
    (h : step options impl (.writeError i aborted) = some impl') :
    ∃ loop ∈ impl.io.writeLoops[i]?, ∃ io,
      impl' = ({ impl with io }.loopFailure options loop aborted).endWrite := by
  obtain ⟨⟨loop, base⟩, htake, h⟩ := Option.bind_eq_some_iff.mp h
  obtain ⟨hloop, io, rfl⟩ := takeWriteLoop_eq_some htake
  dsimp only at h
  split_ifs at h
  exact ⟨loop, hloop, io, (Option.some.inj h).symm⟩

end HttpClient.H2
