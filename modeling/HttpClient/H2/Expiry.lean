import HttpClient.H2.Deadlines
import HttpClient.H2.Session
import HttpClient.Semantics.KeyedList

/-!
# What an expiry does

When the deadline timer fires, `expire_streams` takes the entries that are due from the heap
and ends their streams: each gets the error of its deadline, is reset, and is counted. A
stream in callback mode then leaves the table, its slot is given back and its response goes to
its handler; for any other the waiting request is woken.

The heap is cleaned only at its front. A deadline that is moved or removed leaves its entry
behind, and so does a stream that ends. What the loop looks up by an identifier is the first
stream of the table that has it.

The timer itself is left to `Deadlines`: here an expiry may come at any time. What a handler
does when it is invoked, and the output that is sent after the loop, are not modelled.

## Main definitions

* `OpenStream`, `TimedTable` — the streams, their deadlines and the heap
* `TimedTable.expireStreams` — the loop
* `TimeoutEvent`, `TimedTable.step` — what happens to the table
* `OpenStream.Due` — a stream that an expiry is to end
* `TimesOut` — the expiry ends a list of streams, each once, and nothing else

## Main results

* `TimedTable.Covers.step` — the heap keeps all deadlines while identifiers are not used twice
* `Covered.timesOut` — with such a heap the loop is a scan of all streams
* `expires_exactly` — runs in which identifiers are not used twice
* `hidden_stream_not_expired` — a stream whose identifier an abandoned one still has
-/

set_option autoImplicit false

namespace HttpClient.H2

open Semantics Text

/-! ### Streams -/

/-- A stream in use, with its deadlines and the handler of its request. No deadline is the
maximal time of the source. -/
structure OpenStream extends StreamState where
  handler : Option Nat := none
  deadline : Option Int
  writeDeadline : Option Int
  readDeadline : Option Int := none
  readTimeout : Int
  deriving DecidableEq

namespace OpenStream

def key (stream : OpenStream) : Nat := stream.id

/-- What the deadlines of a stream are about. -/
def timed (stream : OpenStream) : TimedStream :=
  { id := stream.id
    done := stream.done
    callbackMode := stream.callbackMode
    deadline := stream.deadline
    writeDeadline := stream.writeDeadline
    readDeadline := stream.readDeadline
    readTimeout := stream.readTimeout }

def deadlineFor (stream : OpenStream) (kind : DeadlineKind) : Option Int :=
  stream.timed.deadlineFor kind

def setError (error : Bytes) (stream : OpenStream) : OpenStream :=
  { stream with toStreamState := stream.toStreamState.setError error }

def markDone (stream : OpenStream) : OpenStream :=
  { stream with toStreamState := stream.toStreamState.markDone }

/-- A failure ends a stream that is not done. -/
def fail (error : Bytes) (stream : OpenStream) : OpenStream :=
  if stream.done then stream else (stream.setError error).markDone

/-- The stream ends with the error of a deadline. -/
def timeOut (kind : DeadlineKind) (stream : OpenStream) : OpenStream :=
  (stream.setError (timeoutMessage kind)).markDone

/-- What a handler is given. -/
def answer (stream : OpenStream) : Response := { stream.response with httpVersion := 3 }

end OpenStream

/-- The streams of a session in the order in which the index finds them, and the heap as the
list of its entries in the order in which they are popped. -/
structure TimedTable where
  now : Int := 0
  streams : List OpenStream := []
  heap : List DeadlineEntry := []
  stateWaiters : AList fun _ : Nat => Nat := ∅
  nextWaiter : Nat := 0
  /-- The waiters that have been woken. -/
  woken : List Nat := []
  admission : Admission := {}
  streamsTimedOut : Nat := 0
  /-- The streams that have been reset by this side. -/
  resets : List Nat := []
  /-- The handlers that have been invoked, with their responses. -/
  handled : List (Nat × Response) := []

namespace TimedTable

def find (table : TimedTable) (id : Nat) : Option OpenStream :=
  KeyedList.find OpenStream.key id table.streams

def update (table : TimedTable) (id : Nat) (f : OpenStream → OpenStream) : TimedTable :=
  { table with streams := KeyedList.modify OpenStream.key id f table.streams }

def release (table : TimedTable) (id : Nat) : TimedTable :=
  { table with streams := KeyedList.remove OpenStream.key id table.streams }

def releaseStreamSlot (options : SessionOptions) (table : TimedTable) : TimedTable :=
  { table with admission := table.admission.releaseStreamSlot options }

/-- Wake the request that waits for a stream, if there is one. -/
def wake (table : TimedTable) (id : Nat) : TimedTable :=
  { table with woken := table.woken ++ (table.stateWaiters.lookup id).toList }

def submitRstStream (table : TimedTable) (id : Nat) : TimedTable :=
  { table with resets := table.resets ++ [id] }

/-! ### Deadlines -/

def addDeadline (table : TimedTable) (streamId : Nat) (kind : DeadlineKind) :
    Option Int → TimedTable
  | none => table
  | some deadline =>
    let entry : DeadlineEntry := { deadline, streamId, kind }
    { table with heap := table.heap.orderedInsert DeadlineEntry.notAfter entry }

def isCurrent (table : TimedTable) (entry : DeadlineEntry) : Bool :=
  TimedStream.isCurrent (table.streams.map OpenStream.timed) entry

/-- Drop the entries at the front of the heap that are not current. -/
def pruneDeadlineHeap (table : TimedTable) : TimedTable :=
  { table with heap := table.heap.dropWhile fun entry => !table.isCurrent entry }

/-- A stream in callback mode ends: its entry and its slot are released. -/
def finishCallback (options : SessionOptions) (table : TimedTable) (stream : OpenStream) :
    TimedTable :=
  let table := (table.release stream.id).releaseStreamSlot options
  let call := stream.handler.map fun handler => (handler, stream.answer)
  { table with handled := table.handled ++ call.toList }

/-- An entry that was popped from the heap. -/
def expireEntry (options : SessionOptions) (table : TimedTable) (entry : DeadlineEntry) :
    TimedTable :=
  match table.find entry.streamId with
  | none => table
  | some stream =>
    -- the entry may be left of a stream that has ended, or of a deadline that was moved
    if stream.done then table
    else if stream.deadlineFor entry.kind ≠ some entry.deadline then table
    else
      let stream := stream.timeOut entry.kind
      let table := table.update entry.streamId (.timeOut entry.kind)
      let table := { table with streamsTimedOut := table.streamsTimedOut + 1 }
      let table := table.submitRstStream entry.streamId
      if stream.callbackMode then table.finishCallback options stream
      else table.wake entry.streamId

theorem heap_expireEntry (options : SessionOptions) (table : TimedTable) (entry : DeadlineEntry) :
    (table.expireEntry options entry).heap = table.heap := by
  rw [expireEntry]
  cases table.find entry.streamId with
  | none => rfl
  | some stream =>
    dsimp only
    split_ifs <;> rfl

/-- The loop of `expire_streams`. -/
def expireStreams (options : SessionOptions) (table : TimedTable) (now : Int) : TimedTable :=
  match _hheap : table.pruneDeadlineHeap.heap with
  | [] => table.pruneDeadlineHeap
  | front :: heap =>
    -- no entry is before the front
    if now < front.deadline then table.pruneDeadlineHeap
    else ({ table with heap }.expireEntry options front).expireStreams options now
termination_by table.heap.length
decreasing_by
  rw [heap_expireEntry]
  have hle : table.pruneDeadlineHeap.heap.length ≤ table.heap.length :=
    (List.dropWhile_sublist _).length_le
  rw [_hheap, List.length_cons] at hle
  exact hle

/-! ### Requests and frames -/

/-- `submit_stream`: the deadlines of a stream are added when it has been submitted. -/
def submitStream (table : TimedTable) (id : Nat) (request : Request) : TimedTable :=
  let deadline := some (table.now + request.effectiveTimeout Timeout.totalMs)
  let writeDeadline := some (table.now + request.effectiveTimeout Timeout.writeMs)
  let stream : OpenStream :=
    { id
      storeBody := request.storeResponseBody
      storeHeaders := request.storeResponseHeaders
      deadline
      writeDeadline
      readTimeout := request.effectiveTimeout Timeout.readMs }
  (({ table with streams := table.streams ++ [stream] }.addDeadline id .total deadline).addDeadline
    id .write writeDeadline).pruneDeadlineHeap

/-- A request submits its stream and leaves its handler, or waits for the response. What it
finds under the identifier is what the table has first. -/
def submit (options : SessionOptions) (table : TimedTable) (id : Nat) (request : Request)
    (handler : Option Nat) : TimedTable :=
  let table := table.submitStream id request
  match table.find id with
  | none => table
  | some stream =>
    match handler with
    | some handler =>
      table.update id fun stream => { stream with callbackMode := true, handler := some handler }
    | none =>
      if stream.done then (table.release id).releaseStreamSlot options
      else
        { table with
          stateWaiters := table.stateWaiters.insert id table.nextWaiter
          nextWaiter := table.nextWaiter + 1 }

/-- The part that `on_header` and `on_data` share: the read timeout starts again. -/
def startRead (table : TimedTable) (stream : OpenStream) : TimedTable :=
  if 0 < stream.readTimeout then
    let readDeadline := some (table.now + stream.readTimeout)
    ((table.update stream.id fun stream => { stream with readDeadline }).addDeadline stream.id .read
      readDeadline).pruneDeadlineHeap
  else table

def onHeader (table : TimedTable) (id : Nat) (name value : Bytes) : TimedTable :=
  match table.find id with
  | none => table
  | some stream =>
    ((table.update id fun stream => { stream with writeDeadline := none }).startRead stream).update
      id fun stream => { stream with toStreamState := stream.toStreamState.onHeader name value }

def onData (table : TimedTable) (id : Nat) (data : Bytes) : TimedTable :=
  match table.find id with
  | none => table
  | some stream =>
    (table.startRead stream).update id fun stream =>
      { stream with toStreamState := stream.toStreamState.onData data }

def completeStream (options : SessionOptions) (table : TimedTable) (id : Nat) : TimedTable :=
  match table.find id with
  | none => table
  | some stream =>
    let table := table.update id .markDone
    if stream.callbackMode then table.finishCallback options stream.markDone else table.wake id

def cancelStream (table : TimedTable) (id : Nat) (reason : Bytes) : TimedTable :=
  match table.find id with
  | none => table
  | some _ =>
    (((table.update id fun stream => (stream.setError reason).markDone).submitRstStream id).wake
      id).release id

/-! ### Failures -/

/-- All streams that are not done fail. Those in callback mode are then released by their
identifiers. -/
def failAllStreams (options : SessionOptions) (table : TimedTable) (error : Bytes) : TimedTable :=
  let failing := table.streams.filter fun stream => !stream.done && stream.callbackMode
  let waiting := table.streams.filter fun stream => !stream.done && !stream.callbackMode
  let wakes : List Nat := waiting.filterMap fun stream => table.stateWaiters.lookup stream.id
  let failed :=
    { table with
      streams := table.streams.map (OpenStream.fail error)
      woken := table.woken ++ wakes }
  let released := failing.foldl (fun table stream => table.release stream.id) failed
  let activeStreams := table.admission.activeStreams - failing.length
  let answers : List (Nat × Response) := failing.filterMap fun stream =>
    stream.handler.map fun handler => (handler, (stream.fail error).response)
  { released with
    admission := { table.admission with activeStreams }.wakeStreamWaiters options
    handled := table.handled ++ answers }

/-- What `close_connection` and `shutdown_now` have in common. -/
def disconnect (options : SessionOptions) (table : TimedTable) (error : Bytes) : TimedTable :=
  { table with
    heap := []
    admission := { table.admission with activeStreams := 0 }.wakeAllStreamWaiters
  }.failAllStreams options error

end TimedTable

inductive TimeoutEvent where
  | pass (time : Nat)
  | submit (id : Nat) (request : Request) (handler : Option Nat)
  | header (id : Nat) (name value : Bytes)
  | data (id : Nat) (data : Bytes)
  | endStream (id : Nat)
  | rstStream (id : Nat)
  /-- The request of a stream resumes when its waiter has been woken. -/
  | resume (id : Nat)
  /-- The wait for a response is cancelled. -/
  | abort (id : Nat)
  /-- A loop fails. -/
  | failAll (error : Bytes)
  | close (error : Bytes)
  | shutdown
  /-- What requests do with slots and in line for them. -/
  | slots (admission : Admission)
  /-- The wait of the timer was aborted. -/
  | aborted
  | expired

open TimedTable in
/-- One event; `none` if it is not enabled. -/
def TimedTable.step (options : SessionOptions) (table : TimedTable) :
    TimeoutEvent → Option TimedTable
  | .pass time => some { table with now := table.now + time }
  | .submit id request handler => some (table.submit options id request handler)
  | .header id name value => some (table.onHeader id name value)
  | .data id data => some (table.onData id data)
  | .endStream id => some (table.completeStream options id)
  | .rstStream id =>
    some ((table.update id (.setError (str "h2 stream reset"))).completeStream options id)
  | .resume id => do
    let w ← table.stateWaiters.lookup id
    if w ∈ table.woken then
      let table := { table with stateWaiters := table.stateWaiters.erase id }
      match table.find id with
      | some { done := true, .. } => some ((table.release id).releaseStreamSlot options)
      | _ => some ((table.cancelStream id (str "h2 stream timeout")).releaseStreamSlot options)
    else none
  | .abort id => do
    let w ← table.stateWaiters.lookup id
    if w ∈ table.woken then none
    else
      let table := { table with stateWaiters := table.stateWaiters.erase id }
      some ((table.cancelStream id (str "h2 stream cancelled")).releaseStreamSlot options)
  | .failAll error => some (table.failAllStreams options error)
  | .close error =>
    let table := table.disconnect options error
    some { table with admission := { table.admission with peerMaxConcurrentStreams := 100 } }
  | .shutdown => some (table.disconnect options (str "h2 shutdown"))
  | .slots admission => some { table with admission }
  | .aborted => some table.pruneDeadlineHeap
  | .expired => some (table.expireStreams options table.now).pruneDeadlineHeap

/-! ### What an expiry is to do -/

/-- A stream that is not done and has a deadline at or before a time. -/
def OpenStream.Due (stream : OpenStream) (now : Int) : Prop :=
  stream.done = false ∧ ∃ kind, ∃ deadline ≤ now, stream.deadlineFor kind = some deadline

/-- What is left of a stream when others, or it, time out. -/
def outcome (expired : List (OpenStream × DeadlineKind)) (stream : OpenStream) :
    Option OpenStream :=
  match expired.find? fun x => decide (x.1.id = stream.id) with
  | none => some stream
  | some (_, kind) => if stream.callbackMode then none else some (stream.timeOut kind)

/-- The call of the handler of a stream that times out, and the waiter it wakes if it is not in
callback mode. -/
def handlerCall (x : OpenStream × DeadlineKind) : Option (Nat × Response) :=
  if x.1.callbackMode then
    x.1.handler.map fun handler => (handler, (x.1.timeOut x.2).answer)
  else none

def wokenWaiter (table : TimedTable) (x : OpenStream × DeadlineKind) : Option Nat :=
  if x.1.callbackMode then none else table.stateWaiters.lookup x.1.id

/-- Streams end by a deadline, in this order and nothing else: each is reset and counted once,
and its request is told once, by its handler, with its slot given back, or by its waiter. -/
structure Ends (options : SessionOptions) (table : TimedTable)
    (expired : List (OpenStream × DeadlineKind)) (table' : TimedTable) : Prop where
  streams : table'.streams = table.streams.filterMap (outcome expired)
  resets : table'.resets = table.resets ++ expired.map fun x => x.1.id
  counted : table'.streamsTimedOut = table.streamsTimedOut + expired.length
  handled : table'.handled = table.handled ++ expired.filterMap handlerCall
  woken : table'.woken = table.woken ++ expired.filterMap (wokenWaiter table)
  slots : table'.admission =
    (Admission.releaseStreamSlot options)^[expired.countP fun x => x.1.callbackMode]
      table.admission
  stateWaiters : table'.stateWaiters = table.stateWaiters
  clock : table'.now = table.now

/-- The streams that are due end, each once, by a deadline that is due and that no other of its
deadlines is before. -/
structure TimesOut (options : SessionOptions) (table : TimedTable) (now : Int)
    (expired : List (OpenStream × DeadlineKind)) (table' : TimedTable) : Prop where
  exact : ∀ stream, (∃ kind, (stream, kind) ∈ expired) ↔ stream ∈ table.streams ∧ stream.Due now
  once : (expired.map fun x => x.1.id).Nodup
  kinds : ∀ stream kind, (stream, kind) ∈ expired → ∃ deadline ≤ now,
    stream.deadlineFor kind = some deadline ∧
      ∀ other later, stream.deadlineFor other = some later → deadline ≤ later
  handlers : ∀ x ∈ expired, x.1.callbackMode = true → (handlerCall x).isSome = true
  ends : Ends options table expired table'

/-- A stream is not submitted under an identifier that a stream of the table has. -/
def FreshId (table : TimedTable) : TimeoutEvent → Prop
  | .submit id _ _ => ∀ stream ∈ table.streams, stream.id ≠ id
  | _ => True

instance (table : TimedTable) : ∀ event, Decidable (FreshId table event)
  | .submit _ _ _ => inferInstanceAs (Decidable (∀ _ ∈ _, _))
  | .pass _ | .header .. | .data .. | .endStream _ | .rstStream _ | .resume _ | .abort _ |
    .failAll _ | .close _ | .shutdown | .slots _ | .aborted | .expired => isTrue trivial

/-! ### The heap -/

variable {options : SessionOptions} {table table' : TimedTable} {stream : OpenStream} {id : Nat}
  {entry : DeadlineEntry} {heap : List DeadlineEntry} {streams streams' : List OpenStream}
  {expired : List (OpenStream × DeadlineKind)} {now : Int}

/-- The heap has every deadline of a stream that is not done, and every stream in callback mode
has its handler. -/
structure TimedTable.Covers (table : TimedTable) : Prop where
  covered : Covered (table.streams.map OpenStream.timed) table.heap
  handled : ∀ stream ∈ table.streams, stream.callbackMode = true → stream.handler.isSome = true

theorem distinct_timed :
    H2.Distinct (streams.map OpenStream.timed) ↔ KeyedList.Distinct OpenStream.key streams := by
  rw [H2.Distinct, List.map_map]
  exact Iff.rfl

/-- The deadlines are covered if each is an old one or has been added. -/
theorem Covered.change {heap' : List DeadlineEntry}
    (h : Covered (streams.map OpenStream.timed) heap)
    (hdistinct : KeyedList.Distinct OpenStream.key streams')
    (hsorted : heap'.Pairwise DeadlineEntry.notAfter) (hsub : heap ⊆ heap')
    (hold : ∀ stream ∈ streams', stream.done = false → ∀ kind deadline,
      stream.deadlineFor kind = some deadline →
        (∃ old ∈ streams, old.done = false ∧ old.id = stream.id ∧
          old.deadlineFor kind = some deadline) ∨
        { deadline, streamId := stream.id, kind } ∈ heap') :
    Covered (streams'.map OpenStream.timed) heap' := by
  refine ⟨distinct_timed.mpr hdistinct, hsorted, fun timed hmem hdone kind deadline hdeadline => ?_⟩
  obtain ⟨stream, hstream, rfl⟩ := List.mem_map.mp hmem
  rcases hold stream hstream hdone kind deadline hdeadline with
    ⟨old, hmem, hdone', hid, hsame⟩ | hadded
  · -- the entry of an old deadline is still there
    apply hsub
    have hentry := h.covered old.timed (List.mem_map_of_mem hmem) hdone' kind deadline hsame
    change { deadline, streamId := old.id, kind } ∈ heap at hentry
    rw [hid] at hentry
    exact hentry
  · exact hadded

namespace TimedTable

theorem isCurrent_iff :
    table.isCurrent entry = true ↔ ∃ stream, table.find entry.streamId = some stream ∧
      stream.done = false ∧ stream.deadlineFor entry.kind = some entry.deadline := by
  have hfind : TimedStream.find (table.streams.map OpenStream.timed) entry.streamId =
      (table.find entry.streamId).map OpenStream.timed :=
    KeyedList.find_map TimedStream.id fun _ => rfl
  rw [isCurrent, TimedStream.isCurrent_iff, hfind]
  constructor
  · rintro ⟨timed, hsome, hdone, hdeadline⟩
    obtain ⟨stream, hstream, rfl⟩ := Option.map_eq_some_iff.mp hsome
    exact ⟨stream, hstream, hdone, hdeadline⟩
  · rintro ⟨stream, hstream, hdone, hdeadline⟩
    exact ⟨stream.timed, by rw [hstream]; rfl, hdone, hdeadline⟩

namespace Covers

theorem distinct (h : table.Covers) : KeyedList.Distinct OpenStream.key table.streams :=
  distinct_timed.mp h.covered.distinct

theorem of_eq (h : table.Covers) (hstreams : table'.streams = table.streams)
    (hheap : table'.heap = table.heap) : table'.Covers := by
  constructor
  · rw [hstreams, hheap]
    exact h.covered
  · rw [hstreams]
    exact h.handled

theorem prune (h : table.Covers) : table.pruneDeadlineHeap.Covers := ⟨h.covered.prune, h.handled⟩

theorem addDeadline (h : table.Covers) (streamId : Nat) (kind : DeadlineKind)
    (deadline : Option Int) : (table.addDeadline streamId kind deadline).Covers := by
  cases deadline with
  | none => exact h
  | some deadline =>
    refine ⟨h.covered.change h.distinct (h.covered.sorted.orderedInsert _ _) ?_ ?_, h.handled⟩
    · intro entry hentry
      exact (List.mem_orderedInsert DeadlineEntry.notAfter).mpr (.inr hentry)
    · intro stream hmem hdone kind deadline hdeadline
      exact .inl ⟨stream, hmem, hdone, rfl, hdeadline⟩

/-- An update that sets no deadline. -/
theorem update {f : OpenStream → OpenStream} (h : table.Covers) (hid : ∀ s, (f s).id = s.id)
    (hdone : ∀ s, (f s).done = false → s.done = false)
    (hdeadline : ∀ s kind deadline, (f s).deadlineFor kind = some deadline →
      s.deadlineFor kind = some deadline)
    (hhandler : ∀ s : OpenStream, (s.callbackMode = true → s.handler.isSome = true) →
      (f s).callbackMode = true → (f s).handler.isSome = true) :
    (table.update id f).Covers := by
  constructor
  · refine h.covered.change (h.distinct.modify hid) h.covered.sorted (List.Subset.refl _) ?_
    intro stream hmem hopen kind deadline hsome
    obtain ⟨old, hold, rfl⟩ := h.distinct.mem_modify_iff.mp hmem
    split_ifs at hopen hsome ⊢
    · exact .inl ⟨old, hold, hdone old hopen, (hid old).symm, hdeadline old kind deadline hsome⟩
    · exact .inl ⟨old, hold, hopen, rfl, hsome⟩
  · intro stream hmem hcallback
    obtain ⟨old, hold, rfl⟩ := h.distinct.mem_modify_iff.mp hmem
    split_ifs at hcallback ⊢
    · exact hhandler old (h.handled old hold) hcallback
    · exact h.handled old hold hcallback

theorem release (h : table.Covers) (id : Nat) : (table.release id).Covers := by
  have hsub : (table.release id).streams.Sublist table.streams := List.eraseP_sublist
  constructor
  · refine h.covered.change h.distinct.remove h.covered.sorted (List.Subset.refl _) ?_
    intro stream hmem hopen kind deadline hsome
    exact .inl ⟨stream, hsub.subset hmem, hopen, rfl, hsome⟩
  · exact fun stream hmem => h.handled stream (hsub.subset hmem)

/-- The streams that are left, and none of them is new or has another deadline. -/
theorem keep (h : table.Covers) (hstreams : table'.streams.Sublist table.streams)
    (hheap : table'.heap = table.heap) : table'.Covers := by
  constructor
  · rw [hheap]
    refine h.covered.change (h.distinct.sublist (hstreams.map _)) h.covered.sorted
      (List.Subset.refl _) ?_
    intro stream hmem hopen kind deadline hsome
    exact .inl ⟨stream, hstreams.subset hmem, hopen, rfl, hsome⟩
  · exact fun stream hmem => h.handled stream (hstreams.subset hmem)

/-! ### Requests and frames -/

theorem finishCallback (h : table.Covers) (stream : OpenStream) :
    (table.finishCallback options stream).Covers :=
  (h.release stream.id).of_eq rfl rfl

theorem cancelStream (h : table.Covers) (id : Nat) (reason : Bytes) :
    (table.cancelStream id reason).Covers := by
  rw [TimedTable.cancelStream]
  cases table.find id with
  | none => exact h
  | some stream =>
    have hdone : (table.update id fun stream => (stream.setError reason).markDone).Covers :=
      h.update (fun _ => rfl) (fun _ hopen => by cases hopen) (fun _ _ _ hsome => hsome)
        fun _ hhandler => hhandler
    exact (hdone.release id).of_eq rfl rfl

theorem completeStream (h : table.Covers) (id : Nat) :
    (table.completeStream options id).Covers := by
  rw [TimedTable.completeStream]
  cases table.find id with
  | none => exact h
  | some stream =>
    have hdone : (table.update id .markDone).Covers :=
      h.update (fun _ => rfl) (fun _ hopen => by cases hopen) (fun _ _ _ hsome => hsome)
        fun _ hhandler => hhandler
    dsimp only
    split_ifs
    · exact hdone.finishCallback stream.markDone
    · exact hdone.of_eq rfl rfl

/-- The deadlines of a new stream are added. -/
theorem submitStream (h : table.Covers) (request : Request)
    (hfresh : ∀ stream ∈ table.streams, stream.id ≠ id) :
    (table.submitStream id request).Covers := by
  have hadded := (h.addDeadline id .total
    (some (table.now + request.effectiveTimeout Timeout.totalMs))).addDeadline id .write
    (some (table.now + request.effectiveTimeout Timeout.writeMs))
  apply prune
  constructor
  · refine hadded.covered.change (h.distinct.concat hfresh) hadded.covered.sorted
      (List.Subset.refl _) ?_
    intro stream hmem hopen kind deadline hsome
    rcases List.mem_append.mp hmem with hold | hnew
    · exact .inl ⟨stream, hold, hopen, rfl, hsome⟩
    · -- the new stream has a total and a write deadline
      obtain rfl := List.mem_singleton.mp hnew
      right
      apply (List.mem_orderedInsert DeadlineEntry.notAfter).mpr
      cases kind with
      | total =>
        obtain rfl := Option.some.inj hsome
        exact .inr ((List.mem_orderedInsert DeadlineEntry.notAfter).mpr (.inl rfl))
      | write =>
        obtain rfl := Option.some.inj hsome
        exact .inl rfl
      | read => cases hsome
  · intro stream hmem hcallback
    rcases List.mem_append.mp hmem with hold | hnew
    · exact h.handled stream hold hcallback
    · obtain rfl := List.mem_singleton.mp hnew
      cases hcallback

theorem submit (h : table.Covers) (request : Request) (handler : Option Nat)
    (hfresh : ∀ stream ∈ table.streams, stream.id ≠ id) :
    (table.submit options id request handler).Covers := by
  have hsubmitted := h.submitStream request hfresh
  rw [TimedTable.submit]
  cases (table.submitStream id request).find id with
  | none => exact hsubmitted
  | some stream =>
    cases handler with
    | some handler =>
      exact hsubmitted.update (fun _ => rfl) (fun _ hopen => hopen) (fun _ _ _ hsome => hsome)
        fun _ _ _ => rfl
    | none =>
      dsimp only
      split_ifs
      · exact (hsubmitted.release id).of_eq rfl rfl
      · exact hsubmitted.of_eq rfl rfl

/-- The read timeout of a stream starts again. -/
theorem startRead (h : table.Covers) (stream : OpenStream) : (table.startRead stream).Covers := by
  rw [TimedTable.startRead]
  split_ifs
  · have hadded := h.addDeadline stream.id .read (some (table.now + stream.readTimeout))
    apply prune
    constructor
    · refine hadded.covered.change (h.distinct.modify fun _ => rfl) hadded.covered.sorted
        (List.Subset.refl _) ?_
      intro s hmem hopen kind deadline hsome
      obtain ⟨old, hold, rfl⟩ := h.distinct.mem_modify_iff.mp hmem
      split_ifs at hopen hsome ⊢ with hid
      · -- of this stream only the read deadline is new
        cases kind with
        | read =>
          obtain rfl := Option.some.inj hsome
          refine .inr ((List.mem_orderedInsert DeadlineEntry.notAfter).mpr (.inl ?_))
          change DeadlineEntry.mk _ old.id _ = _
          rw [show old.id = stream.id from hid]
        | total => exact .inl ⟨old, hold, hopen, rfl, hsome⟩
        | write => exact .inl ⟨old, hold, hopen, rfl, hsome⟩
      · exact .inl ⟨old, hold, hopen, rfl, hsome⟩
    · intro s hmem hcallback
      obtain ⟨old, hold, rfl⟩ := h.distinct.mem_modify_iff.mp hmem
      split_ifs at hcallback ⊢
      · exact h.handled old hold hcallback
      · exact h.handled old hold hcallback
  · exact h

/-- Something is added to the response of a stream. -/
theorem respond {f : StreamState → StreamState} (h : table.Covers) (hid : ∀ s, (f s).id = s.id)
    (hdone : ∀ s, (f s).done = s.done) (hcallback : ∀ s, (f s).callbackMode = s.callbackMode) :
    (table.update id fun s => { s with toStreamState := f s.toStreamState }).Covers := by
  refine h.update (fun s => hid s.toStreamState) ?_ ?_ ?_
  · intro s hopen
    exact (hdone s.toStreamState).symm.trans hopen
  · intro s kind deadline hsome
    cases kind <;> exact hsome
  · intro s hhandler hset
    exact hhandler ((hcallback s.toStreamState).symm.trans hset)

theorem onHeader (h : table.Covers) (id : Nat) (name value : Bytes) :
    (table.onHeader id name value).Covers := by
  rw [TimedTable.onHeader]
  cases table.find id with
  | none => exact h
  | some stream =>
    have hwritten : (table.update id fun s => { s with writeDeadline := none }).Covers := by
      refine h.update (fun _ => rfl) (fun _ hopen => hopen) (fun s kind deadline hsome => ?_)
        fun _ hhandler => hhandler
      cases kind with
      | total => exact hsome
      | write => cases hsome
      | read => exact hsome
    apply (hwritten.startRead stream).respond
    all_goals
      intro s
      rw [StreamState.onHeader]
      split_ifs <;> rfl

theorem onData (h : table.Covers) (id : Nat) (data : Bytes) : (table.onData id data).Covers := by
  rw [TimedTable.onData]
  cases table.find id with
  | none => exact h
  | some stream =>
    apply (h.startRead stream).respond
    all_goals
      intro s
      rw [StreamState.onData]
      split_ifs <;> rfl

/-! ### Failures -/

theorem foldl_release (h : table.Covers) (released : List OpenStream) :
    (released.foldl (fun table stream => table.release stream.id) table).Covers := by
  induction released generalizing table with
  | nil => exact h
  | cons stream released ih => exact ih (h.release stream.id)

end Covers

/-- When the streams have failed all that are left are done, so any heap will do. -/
theorem covers_failAllStreams (hdistinct : KeyedList.Distinct OpenStream.key table.streams)
    (hsorted : table.heap.Pairwise DeadlineEntry.notAfter)
    (hhandled : ∀ stream ∈ table.streams, stream.callbackMode = true →
      stream.handler.isSome = true) (error : Bytes) :
    (table.failAllStreams options error).Covers := by
  have hkey : OpenStream.key ∘ OpenStream.fail error = OpenStream.key := by
    funext s
    rw [Function.comp_apply, OpenStream.fail]
    split_ifs <;> rfl
  have hfailed : Covers { table with streams := table.streams.map (OpenStream.fail error) } := by
    constructor
    · refine ⟨distinct_timed.mpr ?_, hsorted, ?_⟩
      · rw [KeyedList.Distinct, List.map_map, hkey]
        exact hdistinct
      · intro timed hmem hopen
        obtain ⟨failed, hfailed, rfl⟩ := List.mem_map.mp hmem
        obtain ⟨stream, -, rfl⟩ := List.mem_map.mp hfailed
        have hdone : (stream.fail error).done = true := by
          rw [OpenStream.fail]
          split_ifs with hdone
          · exact hdone
          · rfl
        exact absurd (hdone.symm.trans hopen) (by decide)
    · intro failed hmem hcallback
      obtain ⟨stream, hstream, rfl⟩ := List.mem_map.mp hmem
      rw [OpenStream.fail] at hcallback ⊢
      split_ifs at hcallback ⊢
      · exact hhandled stream hstream hcallback
      · exact hhandled stream hstream hcallback
  have hwoken : ∀ woken, Covers
      { table with
        streams := table.streams.map (OpenStream.fail error)
        woken := woken } :=
    fun _ => hfailed.of_eq rfl rfl
  exact ((hwoken _).foldl_release _).of_eq rfl rfl

theorem Covers.disconnect (h : table.Covers) (error : Bytes) :
    (table.disconnect options error).Covers := by
  apply covers_failAllStreams
  · exact h.distinct
  · exact List.Pairwise.nil
  · exact h.handled

end TimedTable

/-! ### Streams that time out -/

theorem outcome_nil : outcome [] stream = some stream := rfl

theorem outcome_of_not_mem (hout : stream.id ∉ expired.map fun x => x.1.id) :
    outcome expired stream = some stream := by
  have hnone : expired.find? (fun x => decide (x.1.id = stream.id)) = none := by
    apply List.find?_eq_none.mpr
    intro x hx hid
    exact hout (List.mem_map.mpr ⟨x, hx, of_decide_eq_true hid⟩)
  rw [outcome, hnone]

theorem outcome_cons_of_eq {x : OpenStream × DeadlineKind} (hid : x.1.id = stream.id) :
    outcome (x :: expired) stream =
      if stream.callbackMode then none else some (stream.timeOut x.2) := by
  have hfirst : (x :: expired).find? (fun x => decide (x.1.id = stream.id)) = some x :=
    List.find?_cons_of_pos (decide_eq_true hid)
  rw [outcome, hfirst]

theorem outcome_cons_of_ne {x : OpenStream × DeadlineKind} (hid : x.1.id ≠ stream.id) :
    outcome (x :: expired) stream = outcome expired stream := by
  rw [outcome, List.find?_cons_of_neg (by simpa using hid), outcome]

/-- What is left of a stream is the stream itself or it with an error. -/
theorem outcome_cases {left : OpenStream} (hout : outcome expired stream = some left) :
    left = stream ∧ stream.id ∉ (expired.map fun x => x.1.id) ∨
      ∃ kind, left = stream.timeOut kind := by
  rw [outcome] at hout
  split at hout
  case h_1 hnone =>
    refine .inl ⟨(Option.some.inj hout).symm, fun hmem => ?_⟩
    obtain ⟨x, hx, hid⟩ := List.mem_map.mp hmem
    exact List.find?_eq_none.mp hnone x hx (decide_eq_true hid)
  case h_2 kind _ =>
    split_ifs at hout
    exact .inr ⟨kind, (Option.some.inj hout).symm⟩

theorem key_of_outcome {left : OpenStream} (hout : outcome expired stream = some left) :
    left.key = stream.key := by
  rcases outcome_cases hout with ⟨rfl, -⟩ | ⟨kind, rfl⟩
  · rfl
  · rfl

theorem mode_of_outcome {left : OpenStream} (hout : outcome expired stream = some left) :
    left.callbackMode = stream.callbackMode ∧ left.handler = stream.handler := by
  rcases outcome_cases hout with ⟨rfl, -⟩ | ⟨kind, rfl⟩
  · exact ⟨rfl, rfl⟩
  · exact ⟨rfl, rfl⟩

/-- The streams that are left and not done are those that have not ended. -/
theorem mem_outcome_iff (hopen : stream.done = false) :
    stream ∈ streams.filterMap (outcome expired) ↔
      stream ∈ streams ∧ stream.id ∉ (expired.map fun x => x.1.id) := by
  constructor
  · intro hmem
    obtain ⟨old, hold, hout⟩ := List.mem_filterMap.mp hmem
    rcases outcome_cases hout with ⟨rfl, hother⟩ | ⟨kind, rfl⟩
    · exact ⟨hold, hother⟩
    · cases hopen
  · rintro ⟨hmem, hother⟩
    exact List.mem_filterMap.mpr ⟨stream, hmem, outcome_of_not_mem hother⟩

theorem filterMap_singleton {α β : Type*} {g : α → Option β} {a : α} :
    [a].filterMap g = (g a).toList := by
  cases ha : g a with
  | none => rw [List.filterMap_cons_none ha]; rfl
  | some b => rw [List.filterMap_cons_some ha]; rfl

namespace Ends

theorem refl (options : SessionOptions) (table : TimedTable) : Ends options table [] table where
  streams := by
    rw [List.filterMap_congr fun stream _ => outcome_nil]
    exact List.filterMap_some.symm
  resets := (List.append_nil _).symm
  counted := rfl
  handled := (List.append_nil _).symm
  woken := (List.append_nil _).symm
  slots := rfl
  stateWaiters := rfl
  clock := rfl

/-- One stream ends, and then others. -/
theorem cons {x : OpenStream × DeadlineKind} {middle : TimedTable}
    (hfirst : Ends options table [x] middle) (hrest : Ends options middle expired table')
    (hother : x.1.id ∉ expired.map fun x => x.1.id) : Ends options table (x :: expired) table' where
  streams := by
    rw [hrest.streams, hfirst.streams, List.filterMap_filterMap]
    apply List.filterMap_congr
    intro stream _
    by_cases hid : x.1.id = stream.id
    · -- what is left of the first one is not ended again
      rw [outcome_cons_of_eq hid, outcome_cons_of_eq hid]
      split_ifs
      · rfl
      · apply outcome_of_not_mem
        rw [← show x.1.id = (stream.timeOut x.2).id from hid]
        exact hother
    · rw [outcome_cons_of_ne hid, outcome_cons_of_ne hid,
        outcome_nil]
      rfl
  resets := by
    rw [hrest.resets, hfirst.resets, List.append_assoc]
    rfl
  counted := by
    rw [hrest.counted, hfirst.counted, List.length_singleton, List.length_cons]
    omega
  handled := by
    rw [hrest.handled, hfirst.handled, List.append_assoc, ← List.filterMap_append]
    rfl
  woken := by
    have hsame : wokenWaiter middle = wokenWaiter table := by
      funext y
      rw [wokenWaiter, wokenWaiter, hfirst.stateWaiters]
    rw [hrest.woken, hfirst.woken, hsame, List.append_assoc, ← List.filterMap_append]
    rfl
  slots := by
    rw [hrest.slots, hfirst.slots, ← Function.iterate_add_apply, Nat.add_comm,
      ← List.countP_append]
    rfl
  stateWaiters := hrest.stateWaiters.trans hfirst.stateWaiters
  clock := hrest.clock.trans hfirst.clock

end Ends

namespace TimedTable

/-- What is left of the streams when one of them times out: the others, and it if it is not in
callback mode. -/
theorem outcome_singleton (hdistinct : KeyedList.Distinct OpenStream.key table.streams)
    (hmem : stream ∈ table.streams) (kind : DeadlineKind) {s : OpenStream}
    (hs : s ∈ table.streams) :
    outcome [(stream, kind)] s =
      if s.key = stream.id then if stream.callbackMode then none else some (s.timeOut kind)
      else some s := by
  split_ifs with hsame hcallback
  · obtain rfl := hdistinct.eq_of_key hs hmem hsame
    rw [outcome_cons_of_eq rfl, if_pos hcallback]
  · obtain rfl := hdistinct.eq_of_key hs hmem hsame
    rw [outcome_cons_of_eq rfl, if_neg hcallback]
  · rw [outcome_cons_of_ne fun heq => hsame heq.symm]
    rfl

/-- A stream in callback mode leaves the table. -/
theorem remove_timeOut (hdistinct : KeyedList.Distinct OpenStream.key table.streams)
    (hmem : stream ∈ table.streams) (kind : DeadlineKind) (hcallback : stream.callbackMode = true) :
    KeyedList.remove OpenStream.key stream.id
        (KeyedList.modify OpenStream.key stream.id (.timeOut kind) table.streams) =
      table.streams.filterMap (outcome [(stream, kind)]) := by
  have hkey : ∀ s, OpenStream.key (OpenStream.timeOut kind s) = OpenStream.key s := fun _ => rfl
  rw [KeyedList.remove_modify hkey, hdistinct.remove_eq_filter, ← List.filterMap_eq_filter]
  apply List.filterMap_congr
  intro s hs
  rw [outcome_singleton hdistinct hmem kind hs, if_pos hcallback]
  by_cases hsame : s.key = stream.id
  · rw [if_pos hsame, Option.guard_eq_none_iff.mpr (by simpa using hsame)]
  · rw [if_neg hsame, Option.guard_eq_some_iff.mpr ⟨rfl, by simpa using hsame⟩]

/-- Any other stream stays, with its error. -/
theorem modify_timeOut (hdistinct : KeyedList.Distinct OpenStream.key table.streams)
    (hmem : stream ∈ table.streams) (kind : DeadlineKind)
    (hcallback : ¬ stream.callbackMode = true) :
    KeyedList.modify OpenStream.key stream.id (.timeOut kind) table.streams =
      table.streams.filterMap (outcome [(stream, kind)]) := by
  rw [hdistinct.modify_eq_map, ← List.filterMap_eq_map]
  apply List.filterMap_congr
  intro s hs
  rw [outcome_singleton hdistinct hmem kind hs, if_neg hcallback]
  exact apply_ite some _ _ _

/-- Popping a current entry ends its stream. -/
theorem ends_expireEntry (hdistinct : KeyedList.Distinct OpenStream.key table.streams)
    (hfind : table.find entry.streamId = some stream) (hdone : stream.done = false)
    (hdeadline : stream.deadlineFor entry.kind = some entry.deadline) :
    Ends options table [(stream, entry.kind)] (table.expireEntry options entry) := by
  obtain ⟨hmem, hid⟩ := KeyedList.mem_of_find hfind
  change stream.id = entry.streamId at hid
  rw [expireEntry, hfind]
  dsimp only
  rw [if_neg (by rw [hdone]; exact Bool.false_ne_true), if_neg (not_not_intro hdeadline)]
  split_ifs with hcallback
  · change stream.callbackMode = true at hcallback
    constructor
    · rw [← remove_timeOut hdistinct hmem entry.kind hcallback, hid]
      change KeyedList.remove OpenStream.key stream.id (KeyedList.modify OpenStream.key
        entry.streamId (.timeOut entry.kind) table.streams) = _
      rw [hid]
    · rw [← hid]
      rfl
    · rfl
    · rw [filterMap_singleton, handlerCall, if_pos hcallback]
      rfl
    · rw [filterMap_singleton, wokenWaiter, if_pos hcallback]
      exact (List.append_nil _).symm
    · rw [List.countP_singleton, if_pos hcallback]
      rfl
    · rfl
    · rfl
  · change ¬ stream.callbackMode = true at hcallback
    constructor
    · rw [← modify_timeOut hdistinct hmem entry.kind hcallback, hid]
      rfl
    · rw [← hid]
      rfl
    · rfl
    · rw [filterMap_singleton, handlerCall, if_neg hcallback]
      exact (List.append_nil _).symm
    · rw [filterMap_singleton, wokenWaiter, if_neg hcallback]
      change table.woken ++ _ = _
      rw [← hid]
      rfl
    · rw [List.countP_singleton, if_neg hcallback]
      rfl
    · rfl
    · rfl

/-- An entry that is current after pruning is at the front of the heap. -/
theorem isCurrent_front {front : DeadlineEntry}
    (hheap : table.pruneDeadlineHeap.heap = front :: heap) : table.isCurrent front = true := by
  have hdropped : table.heap.dropWhile (fun entry => !table.isCurrent entry) = front :: heap :=
    hheap
  have hfront := List.head?_dropWhile_not (fun entry => !table.isCurrent entry) table.heap
  rw [hdropped] at hfront
  simpa using hfront

/-- When streams have ended, the entries of the others cover what is left. -/
theorem Covers.ends (h : table.Covers) (hends : Ends options table expired table')
    (hsorted : table'.heap.Pairwise DeadlineEntry.notAfter)
    (hheap : ∀ entry ∈ table.heap, entry.streamId ∉ (expired.map fun x => x.1.id) →
      entry ∈ table'.heap) : table'.Covers := by
  constructor
  · rw [hends.streams]
    refine ⟨distinct_timed.mpr (h.distinct.filterMap fun _ _ hout => key_of_outcome hout), hsorted,
      fun timed hmem hopen kind deadline hdeadline => ?_⟩
    obtain ⟨left, hleft, rfl⟩ := List.mem_map.mp hmem
    obtain ⟨hold, hother⟩ := (mem_outcome_iff hopen).mp hleft
    have hentry := h.covered.covered left.timed (List.mem_map_of_mem hold) hopen kind deadline
      hdeadline
    exact hheap _ hentry hother
  · rw [hends.streams]
    intro left hleft hcallback
    obtain ⟨stream, hmem, hout⟩ := List.mem_filterMap.mp hleft
    obtain ⟨hmode, hhandler⟩ := mode_of_outcome hout
    rw [hhandler]
    exact h.handled stream hmem (hmode.symm.trans hcallback)

/-! ### The loop -/

theorem handlerCall_isSome {x : OpenStream × DeadlineKind} (hhandler : x.1.handler.isSome = true)
    (hcallback : x.1.callbackMode = true) : (handlerCall x).isSome = true := by
  rw [handlerCall, if_pos hcallback, Option.isSome_map]
  exact hhandler

/-- If no entry is due, no stream is. -/
theorem Covers.timesOut_nil (h : table.Covers)
    (hlater : ∀ entry ∈ table.pruneDeadlineHeap.heap, now < entry.deadline) :
    TimesOut options table now [] table.pruneDeadlineHeap where
  exact stream := by
    refine iff_of_false (fun ⟨_, hmem⟩ => List.not_mem_nil hmem) ?_
    rintro ⟨hmem, hopen, kind, deadline, hdue, hdeadline⟩
    have hentry := h.prune.covered.covered stream.timed (List.mem_map_of_mem hmem) hopen kind
      deadline hdeadline
    exact Int.not_lt.mpr hdue (hlater _ hentry)
  once := List.nodup_nil
  kinds _ _ hmem := absurd hmem List.not_mem_nil
  handlers _ hmem := absurd hmem List.not_mem_nil
  ends := { Ends.refl options table with }

/-- The stream of the front ends, and then those that are due without it. -/
theorem Covers.timesOut_cons {middle : TimedTable} (h : table.Covers)
    (hmem : stream ∈ table.streams) (hdone : stream.done = false)
    (hdeadline : stream.deadlineFor entry.kind = some entry.deadline) (hdue : entry.deadline ≤ now)
    (hearliest : ∀ other later, stream.deadlineFor other = some later → entry.deadline ≤ later)
    (hends : Ends options table [(stream, entry.kind)] middle)
    (hrest : TimesOut options middle now expired table') :
    TimesOut options table now ((stream, entry.kind) :: expired) table' := by
  -- what is due in the rest is what is due and has another identifier
  have hmiddle : ∀ s, s.Due now → (s ∈ middle.streams ↔ s ∈ table.streams ∧ s.id ≠ stream.id) := by
    intro s hs
    rw [hends.streams, mem_outcome_iff hs.1, List.map_singleton, List.mem_singleton]
  have hother : stream.id ∉ expired.map fun x => x.1.id := by
    intro hin
    obtain ⟨⟨s, kind⟩, hx, hid⟩ := List.mem_map.mp hin
    obtain ⟨hs, hsdue⟩ := (hrest.exact s).mp ⟨kind, hx⟩
    exact ((hmiddle s hsdue).mp hs).2 hid
  have hexact : ∀ s, (∃ kind, (s, kind) ∈ (stream, entry.kind) :: expired) ↔
      s ∈ table.streams ∧ s.Due now := by
    intro s
    constructor
    · rintro ⟨kind, hx⟩
      rcases List.mem_cons.mp hx with heq | hx
      · obtain ⟨rfl, rfl⟩ := Prod.mk.inj heq
        exact ⟨hmem, hdone, _, _, hdue, hdeadline⟩
      · obtain ⟨hs, hsdue⟩ := (hrest.exact s).mp ⟨kind, hx⟩
        exact ⟨((hmiddle s hsdue).mp hs).1, hsdue⟩
    · rintro ⟨hs, hsdue⟩
      by_cases hid : s.id = stream.id
      · -- the table has one stream with this identifier
        obtain rfl := h.distinct.eq_of_key hs hmem hid
        exact ⟨_, List.mem_cons_self⟩
      · obtain ⟨kind, hx⟩ := (hrest.exact s).mpr ⟨(hmiddle s hsdue).mpr ⟨hs, hid⟩, hsdue⟩
        exact ⟨kind, List.mem_cons_of_mem _ hx⟩
  refine ⟨hexact, List.nodup_cons.mpr ⟨hother, hrest.once⟩, ?_, ?_, hends.cons hrest.ends hother⟩
  · intro s kind hx
    rcases List.mem_cons.mp hx with heq | hx
    · obtain ⟨rfl, rfl⟩ := Prod.mk.inj heq
      exact ⟨_, hdue, hdeadline, hearliest⟩
    · exact hrest.kinds s kind hx
  · intro x hx hcallback
    exact handlerCall_isSome (h.handled x.1 ((hexact x.1).mp ⟨x.2, hx⟩).1 hcallback) hcallback

theorem expireStreams_of_nil (hheap : table.pruneDeadlineHeap.heap = []) :
    table.expireStreams options now = table.pruneDeadlineHeap := by
  rw [expireStreams]
  split
  case h_1 => rfl
  case h_2 hfront =>
    rw [hheap] at hfront
    cases hfront

theorem expireStreams_of_later {front : DeadlineEntry}
    (hheap : table.pruneDeadlineHeap.heap = front :: heap) (hlater : now < front.deadline) :
    table.expireStreams options now = table.pruneDeadlineHeap := by
  rw [expireStreams]
  split
  case h_1 => rfl
  case h_2 hfront =>
    obtain ⟨rfl, rfl⟩ := List.cons.inj (hheap.symm.trans hfront)
    exact if_pos hlater

theorem expireStreams_of_due {front : DeadlineEntry}
    (hheap : table.pruneDeadlineHeap.heap = front :: heap) (hdue : ¬ now < front.deadline) :
    table.expireStreams options now =
      ({ table with heap }.expireEntry options front).expireStreams options now := by
  rw [expireStreams]
  split
  case h_1 hnil =>
    rw [hheap] at hnil
    cases hnil
  case h_2 hfront =>
    obtain ⟨rfl, rfl⟩ := List.cons.inj (hheap.symm.trans hfront)
    exact if_neg hdue

/-- With a heap that has every deadline, the loop ends what a scan of all streams would. -/
theorem Covers.expireStreams (h : table.Covers) (options : SessionOptions) (now : Int) :
    (∃ expired, TimesOut options table now expired (table.expireStreams options now)) ∧
      (table.expireStreams options now).Covers := by
  induction table using TimedTable.expireStreams.induct options now with
  | case1 table hheap =>
    -- the heap is used up
    rw [expireStreams_of_nil hheap]
    refine ⟨⟨[], h.timesOut_nil fun entry hentry => ?_⟩, h.prune⟩
    rw [hheap] at hentry
    exact absurd hentry List.not_mem_nil
  | case2 table front heap hheap hlater =>
    rw [expireStreams_of_later hheap hlater]
    refine ⟨⟨[], h.timesOut_nil fun entry hentry => ?_⟩, h.prune⟩
    -- the front of the heap is the earliest entry
    have hsorted := h.prune.covered.sorted
    rw [hheap] at hentry hsorted
    rcases List.mem_cons.mp hentry with rfl | hrest
    · exact hlater
    · exact Int.lt_of_lt_of_le hlater ((List.pairwise_cons.mp hsorted).1 entry hrest)
  | case3 table front heap hheap hdue ih =>
    -- the stream of the front ends, and the rest of the heap covers what is left
    rw [expireStreams_of_due hheap hdue]
    obtain ⟨stream, hfind, hdone, hdeadline⟩ := isCurrent_iff.mp (isCurrent_front hheap)
    obtain ⟨hmem, hid⟩ := KeyedList.mem_of_find hfind
    change stream.id = front.streamId at hid
    have hpopped : Ends options { table with heap } [(stream, front.kind)]
        ({ table with heap }.expireEntry options front) :=
      ends_expireEntry h.distinct hfind hdone hdeadline
    have hends : Ends options table [(stream, front.kind)]
        ({ table with heap }.expireEntry options front) :=
      { hpopped with }
    have hsorted := h.prune.covered.sorted
    have hcovered := h.prune.covered.covered stream.timed (List.mem_map_of_mem hmem) hdone
    rw [hheap] at hsorted hcovered
    obtain ⟨hfront, htail⟩ := List.pairwise_cons.mp hsorted
    have hmiddle : ({ table with heap }.expireEntry options front).Covers := by
      have hpruned : Ends options table.pruneDeadlineHeap [(stream, front.kind)]
          ({ table with heap }.expireEntry options front) := { hends with }
      refine h.prune.ends hpruned ?_ ?_
      · rw [heap_expireEntry]
        exact htail
      · intro entry hentry hother
        rw [heap_expireEntry]
        rw [hheap] at hentry
        rcases List.mem_cons.mp hentry with rfl | hin
        · exact absurd (List.mem_singleton.mpr hid.symm) hother
        · exact hin
    obtain ⟨⟨expired, hrest⟩, hcovers⟩ := ih hmiddle
    -- every other deadline of the stream has its entry behind the front
    refine ⟨⟨_, h.timesOut_cons hmem hdone hdeadline (Int.not_lt.mp hdue) ?_ hends hrest⟩, hcovers⟩
    intro other later hother
    rcases List.mem_cons.mp (hcovered other later hother) with heq | hin
    · exact (congrArg DeadlineEntry.deadline heq).ge
    · exact hfront _ hin

/-! ### Runs -/

theorem Covers.step {event : TimeoutEvent} (h : table.Covers) (hfresh : FreshId table event)
    (hstep : table.step options event = some table') : table'.Covers := by
  cases event with
  | pass time =>
    obtain rfl := Option.some.inj hstep
    exact h.of_eq rfl rfl
  | submit id request handler =>
    obtain rfl := Option.some.inj hstep
    exact h.submit request handler hfresh
  | header id name value =>
    obtain rfl := Option.some.inj hstep
    exact h.onHeader id name value
  | data id data =>
    obtain rfl := Option.some.inj hstep
    exact h.onData id data
  | endStream id =>
    obtain rfl := Option.some.inj hstep
    exact h.completeStream id
  | rstStream id =>
    obtain rfl := Option.some.inj hstep
    have hreset : (table.update id (.setError (str "h2 stream reset"))).Covers :=
      h.update (fun _ => rfl) (fun _ hopen => hopen) (fun _ _ _ hsome => hsome)
        fun _ hhandler => hhandler
    exact hreset.completeStream id
  | resume id =>
    obtain ⟨w, -, hstep⟩ := Option.bind_eq_some_iff.mp hstep
    split_ifs at hstep
    have hsame : Covers { table with stateWaiters := table.stateWaiters.erase id } :=
      h.of_eq rfl rfl
    -- the request takes the response of a stream that is done, and cancels any other
    dsimp only at hstep
    split at hstep
    · obtain rfl := Option.some.inj hstep
      exact (hsame.release id).of_eq rfl rfl
    · obtain rfl := Option.some.inj hstep
      exact (hsame.cancelStream id _).of_eq rfl rfl
  | abort id =>
    obtain ⟨w, -, hstep⟩ := Option.bind_eq_some_iff.mp hstep
    split_ifs at hstep
    obtain rfl := Option.some.inj hstep
    have hsame : Covers { table with stateWaiters := table.stateWaiters.erase id } :=
      h.of_eq rfl rfl
    exact (hsame.cancelStream id _).of_eq rfl rfl
  | failAll error =>
    obtain rfl := Option.some.inj hstep
    exact covers_failAllStreams h.distinct h.covered.sorted h.handled error
  | close error =>
    obtain rfl := Option.some.inj hstep
    have hclosed : (table.disconnect options error).Covers := h.disconnect error
    exact hclosed.of_eq rfl rfl
  | shutdown =>
    obtain rfl := Option.some.inj hstep
    exact h.disconnect _
  | slots admission =>
    obtain rfl := Option.some.inj hstep
    exact h.of_eq rfl rfl
  | aborted =>
    obtain rfl := Option.some.inj hstep
    exact h.prune
  | expired =>
    obtain rfl := Option.some.inj hstep
    exact (h.expireStreams options table.now).2.prune

theorem covers_empty : Covers {} :=
  ⟨⟨List.nodup_nil, List.Pairwise.nil, fun _ hmem => absurd hmem List.not_mem_nil⟩,
    fun _ hmem => absurd hmem List.not_mem_nil⟩

end TimedTable

/-- In a run in which no stream is submitted under an identifier that the table still has, an
expiry at any time ends exactly the streams that are due, each once. -/
theorem expires_exactly (options : SessionOptions) (events : List TimeoutEvent) (now : Int)
    (hok : Along (TimedTable.step options) FreshId {} events)
    (hrun : exec (TimedTable.step options) {} events = some table) :
    ∃ expired, TimesOut options table now expired (table.expireStreams options now) := by
  have hcovers : table.Covers :=
    invariant_of_along (fun _ _ _ (h : TimedTable.Covers _) hfresh hstep => h.step hfresh hstep)
      TimedTable.covers_empty hok hrun
  exact (hcovers.expireStreams options now).1

/-- A request that awaits its response and one with a handler; the response of the second
begins, so that its read deadline counts and its write deadline no longer does. -/
def twoTimeouts : List TimeoutEvent :=
  [.submit 1 { timeoutMs := 1000 } none, .submit 3 { timeoutMs := 5000 } (some 7),
    .header 3 (str ":status") (str "200"), .pass 2000]

theorem expires_exactly_twoTimeouts :
    ∃ table, exec (TimedTable.step {}) {} twoTimeouts = some table ∧ table.streams.length = 2 ∧
      ∃ expired, TimesOut {} table 2000 expired (table.expireStreams {} 2000) := by
  have hok : Along (TimedTable.step {}) FreshId {} twoTimeouts := by decide
  obtain ⟨table, hrun, hstreams⟩ : ∃ table, exec (TimedTable.step {}) {} twoTimeouts =
      some table ∧ table.streams.length = 2 := ⟨_, rfl, rfl⟩
  exact ⟨table, hrun, hstreams, expires_exactly {} twoTimeouts 2000 hok hrun⟩

/-- The second request is given its slot after its cancellation has been signalled: its wait
throws at once and its stream stays. The session is reset. On the next connection the second
stream has the same identifier. -/
def abandonedStream : List TimeoutEvent :=
  [.submit 1 {} none, .endStream 1, .resume 1, .submit 3 {} none, .close (str "h2 reset"),
    .submit 1 {} none, .submit 3 { timeoutMs := 1000 } (some 7), .pass 2000]

/-- The handler is left to the stream that was abandoned, and the new stream does not expire. -/
theorem hidden_stream_not_expired :
    ∃ table, exec (TimedTable.step {}) {} abandonedStream = some table ∧
      ¬ ∃ expired, TimesOut {} table table.now expired (table.expireStreams {} table.now) := by
  obtain ⟨table, hrun, hnow, hresets, ⟨front, heap, hheap, hlater⟩, stream, hmem, hdue⟩ :
      ∃ table, exec (TimedTable.step {}) {} abandonedStream = some table ∧ table.now = 2000 ∧
        table.resets = [] ∧
        (∃ front heap, table.pruneDeadlineHeap.heap = front :: heap ∧ 2000 < front.deadline) ∧
        ∃ stream ∈ table.streams, stream.Due 2000 :=
    ⟨_, rfl, rfl, rfl, ⟨_, _, rfl, by decide⟩, _, .tail _ (.tail _ (.head _)), rfl, .total, 1000,
      by decide, rfl⟩
  refine ⟨table, hrun, ?_⟩
  rw [hnow, TimedTable.expireStreams_of_later hheap hlater]
  rintro ⟨expired, h⟩
  -- nothing is reset, so nothing has ended, but the new stream is due
  have hnone : table.resets ++ (expired.map fun x => x.1.id) = table.resets := h.ends.resets.symm
  obtain rfl := List.map_eq_nil_iff.mp (List.append_right_eq_self.mp hnone)
  obtain ⟨kind, hin⟩ := (h.exact stream).mpr ⟨hmem, hdue⟩
  exact List.not_mem_nil hin

end HttpClient.H2
