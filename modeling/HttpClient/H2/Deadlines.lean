import Mathlib.Data.List.Sort
import HttpClient.H2.Responses

/-!
# The deadlines of the streams

The deadlines of all streams share one timer. They are kept in a heap, from which
entries that are no longer current are pruned when they come to the front. Arming the
timer sets it to the front of the heap, unless it is armed already. So a deadline that is
added while the timer is armed for a later time is not waited for.

A wait of the timer lasts until its callback runs. Between the expiry, or a cancellation,
and the callback other code may run; the flag says only whether the next arming may set
the timer again.

## Main definitions

* `SteadyTimer` — the timer, its wait and the callbacks that are due
* `TimedStream`, `Deadlines` — the deadlines of the streams, the heap and the flag
* `DeadlineEvent`, `Deadlines.step` — what happens to them
* `Deadlines.ArmedInTime` — the timer waits for no later than the earliest deadline
* `NotEarlier` — deadlines are not added before the time the timer is armed for

## Main results

* `Covered.prune`, `Covered.expireStreams` — the heap has every current deadline
* `Deadlines.Sound.step` — one event
* `timer_armed_in_time` — runs of such events
* `short_deadline_missed` — a stream with a short timeout after one with a long timeout
-/

set_option autoImplicit false

namespace HttpClient.H2

open Semantics

/-! ### The timer -/

/-- A wait that is over and whose callback has not run yet. -/
inductive Completion where
  | expired (expiry : Int)
  | aborted
  deriving DecidableEq, Repr

/-- A timer of the event loop. -/
structure SteadyTimer where
  expiry : Int := 0
  waiting : Bool := false
  completions : List Completion := []
  deriving DecidableEq, Repr

namespace SteadyTimer

def cancel (timer : SteadyTimer) : SteadyTimer :=
  if timer.waiting then
    { timer with waiting := false, completions := timer.completions ++ [.aborted] }
  else timer

/-- Set a new time. This cancels a wait for the time before. -/
def expiresAt (timer : SteadyTimer) (expiry : Int) : SteadyTimer :=
  { timer.cancel with expiry }

def asyncWait (timer : SteadyTimer) : SteadyTimer := { timer with waiting := true }

/-- A wait until `expiry` has been started and its callback has not run. -/
def Pending (timer : SteadyTimer) (expiry : Int) : Prop :=
  (timer.waiting = true ∧ timer.expiry = expiry) ∨ .expired expiry ∈ timer.completions

instance (timer : SteadyTimer) (expiry : Int) : Decidable (timer.Pending expiry) :=
  inferInstanceAs (Decidable (_ ∨ _))

end SteadyTimer

/-! ### Streams and their deadlines -/

/-- A stream in use. No deadline is the maximal time of the source. -/
structure TimedStream where
  id : Nat
  done : Bool := false
  callbackMode : Bool := false
  deadline : Option Int
  writeDeadline : Option Int
  readDeadline : Option Int := none
  readTimeout : Int
  deriving DecidableEq, Repr

def TimedStream.deadlineFor (stream : TimedStream) : DeadlineKind → Option Int
  | .total => stream.deadline
  | .write => stream.writeDeadline
  | .read => stream.readDeadline

structure DeadlineEntry where
  deadline : Int
  streamId : Nat
  kind : DeadlineKind
  deriving DecidableEq, Repr

/-- The order of the heap. -/
def DeadlineEntry.notAfter (a b : DeadlineEntry) : Prop := a.deadline ≤ b.deadline

instance : DecidableRel DeadlineEntry.notAfter := fun a b =>
  inferInstanceAs (Decidable (a.deadline ≤ b.deadline))

instance : IsTrans DeadlineEntry DeadlineEntry.notAfter :=
  ⟨fun _ _ _ hab hbc => le_trans (α := Int) hab hbc⟩

instance : Std.Total DeadlineEntry.notAfter := ⟨fun a b => le_total a.deadline b.deadline⟩

/-- The deadlines of a session. The heap is kept as the list of its entries in the order
in which they are popped, the streams in the order in which the index finds them. -/
structure Deadlines where
  now : Int := 0
  streams : List TimedStream := []
  heap : List DeadlineEntry := []
  timer : SteadyTimer := {}
  armed : Bool := false
  deriving DecidableEq, Repr

namespace TimedStream

def find (streams : List TimedStream) (id : Nat) : Option TimedStream :=
  streams.find? fun stream => decide (stream.id = id)

/-- Update the first stream with an identifier. -/
def updateFirst (id : Nat) (f : TimedStream → TimedStream) : List TimedStream → List TimedStream
  | [] => []
  | stream :: streams =>
    if stream.id = id then f stream :: streams else stream :: updateFirst id f streams

def erase (streams : List TimedStream) (id : Nat) : List TimedStream :=
  streams.eraseP fun stream => decide (stream.id = id)

/-- An entry of the heap is current if its stream is in use, not done, and still has that
deadline. -/
def isCurrent (streams : List TimedStream) (entry : DeadlineEntry) : Bool :=
  match find streams entry.streamId with
  | none => false
  | some stream => !stream.done && stream.deadlineFor entry.kind == some entry.deadline

/-- A stream is done; in callback mode it leaves the table. -/
def finish (streams : List TimedStream) (id : Nat) : List TimedStream :=
  match find streams id with
  | none => streams
  | some stream =>
    if stream.callbackMode then erase streams id
    else updateFirst id (fun stream => { stream with done := true }) streams

end TimedStream

namespace Deadlines

open TimedStream

def addDeadline (state : Deadlines) (streamId : Nat) (kind : DeadlineKind) :
    Option Int → Deadlines
  | none => state
  | some deadline =>
    let entry : DeadlineEntry := { deadline, streamId, kind }
    { state with heap := state.heap.orderedInsert DeadlineEntry.notAfter entry }

/-- Drop the entries at the front of the heap that are not current. -/
def pruneDeadlineHeap (state : Deadlines) : Deadlines :=
  { state with heap := state.heap.dropWhile fun entry => !isCurrent state.streams entry }

def armDeadlineTimer (state : Deadlines) : Deadlines :=
  let state := state.pruneDeadlineHeap
  match state.heap with
  | [] => state
  | front :: _ =>
    -- an armed timer is left alone, though the front may be earlier than its time
    if state.armed then state
    else
      { state with
        armed := true
        timer := (state.timer.expiresAt front.deadline).asyncWait }

/-- The loop of `expire_streams`. An entry at the front is pruned if it is not current;
else, if it is due, it is popped and its stream is done. -/
def expireLoop (now : Int) :
    List DeadlineEntry → List TimedStream → List DeadlineEntry × List TimedStream
  | [], streams => ([], streams)
  | front :: heap, streams =>
    if isCurrent streams front then
      -- the front is the earliest entry, so none behind it is due
      if now < front.deadline then (front :: heap, streams)
      else expireLoop now heap (finish streams front.streamId)
    else expireLoop now heap streams

def expireStreams (state : Deadlines) : Deadlines :=
  let (heap, streams) := expireLoop state.now state.heap state.streams
  { state with heap, streams }

/-- `submit_stream` under a new identifier. -/
def submitStream (state : Deadlines) (id : Nat) (request : Request) (callbackMode : Bool) :
    Deadlines :=
  let deadline := some (state.now + request.effectiveTimeout Timeout.totalMs)
  let writeDeadline := some (state.now + request.effectiveTimeout Timeout.writeMs)
  let stream : TimedStream :=
    { id
      callbackMode
      deadline
      writeDeadline
      readTimeout := request.effectiveTimeout Timeout.readMs }
  (({ state with streams := state.streams ++ [stream] }.addDeadline id .total deadline).addDeadline
    id .write writeDeadline).armDeadlineTimer

/-- The part that `on_header` and `on_data` share: the read timeout starts again. -/
def startRead (state : Deadlines) (stream : TimedStream) : Deadlines :=
  if 0 < stream.readTimeout then
    let readDeadline := some (state.now + stream.readTimeout)
    ({ state with
        streams := updateFirst stream.id (fun stream => { stream with readDeadline })
          state.streams }.addDeadline stream.id .read readDeadline).armDeadlineTimer
  else state

def onHeader (state : Deadlines) (id : Nat) : Deadlines :=
  match find state.streams id with
  | none => state
  | some stream =>
    { state with
      streams := updateFirst id (fun stream => { stream with writeDeadline := none })
        state.streams }.startRead stream

def onData (state : Deadlines) (id : Nat) : Deadlines :=
  match find state.streams id with
  | none => state
  | some stream => state.startRead stream

/-- `close_connection` and `shutdown_now`: all streams fail, and those in callback mode
leave the table. -/
def closeConnection (state : Deadlines) : Deadlines :=
  let leaves := fun stream : TimedStream => !stream.done && stream.callbackMode
  { state with
    streams := (state.streams.filter fun stream => !leaves stream).map fun stream =>
      { stream with done := true }
    heap := []
    timer := state.timer.cancel
    armed := false }

/-- The callback of the timer, for a wait that is over. -/
def timerCallback (state : Deadlines) (completion : Completion) : Deadlines :=
  -- the next arming may set the timer, also when the wait was aborted
  let state := { state with armed := false }
  match completion with
  | .expired _ => state.expireStreams.armDeadlineTimer
  | .aborted => state.armDeadlineTimer

end Deadlines

inductive DeadlineEvent where
  | pass (time : Nat)
  | submit (id : Nat) (request : Request) (callbackMode : Bool)
  /-- A header of a response. -/
  | header (id : Nat)
  | data (id : Nat)
  /-- The end of a stream or its reset. -/
  | complete (id : Nat)
  /-- A stream leaves the table: the request of a done stream resumes, or it gives up. -/
  | leave (id : Nat)
  | close
  /-- The time of the timer has come. -/
  | fire
  /-- The callback of a wait that is over runs. -/
  | callback (i : Nat)

/-- One event; `none` if it is not enabled. -/
def Deadlines.step (state : Deadlines) : DeadlineEvent → Option Deadlines
  | .pass time => some { state with now := state.now + time }
  | .submit id request callbackMode => some (state.submitStream id request callbackMode)
  | .header id => some (state.onHeader id)
  | .data id => some (state.onData id)
  | .complete id => some { state with streams := TimedStream.finish state.streams id }
  | .leave id => some { state with streams := TimedStream.erase state.streams id }
  | .close => some state.closeConnection
  | .fire =>
    let timer := state.timer
    if timer.waiting = true ∧ timer.expiry ≤ state.now then
      some
        { state with
          timer :=
            { timer with
              waiting := false
              completions := timer.completions ++ [.expired timer.expiry] } }
    else none
  | .callback i => do
    let completion ← state.timer.completions[i]?
    let timer := { state.timer with completions := state.timer.completions.eraseIdx i }
    some ({ state with timer }.timerCallback completion)

/-! ### What is to hold -/

/-- A deadline of a stream in use that is not done. -/
def Deadlines.Current (state : Deadlines) (deadline : Int) : Prop :=
  ∃ stream ∈ state.streams, stream.done = false ∧
    ∃ kind, stream.deadlineFor kind = some deadline

/-- If there is a current deadline, a wait is pending that ends no later than any. -/
def Deadlines.ArmedInTime (state : Deadlines) : Prop :=
  (∃ deadline, state.Current deadline) →
    ∃ expiry, state.timer.Pending expiry ∧ ∀ deadline, state.Current deadline → expiry ≤ deadline

/-- While the timer is armed, deadlines are only added at or after the time it is set to;
and a stream is only submitted under an identifier that no stream in use has. -/
def NotEarlier (state : Deadlines) : DeadlineEvent → Prop
  | .submit id request _ =>
    (∀ stream ∈ state.streams, stream.id ≠ id) ∧ (state.armed = true →
      state.timer.expiry ≤ state.now + request.effectiveTimeout Timeout.totalMs ∧
      state.timer.expiry ≤ state.now + request.effectiveTimeout Timeout.writeMs)
  | .header id | .data id => ∀ stream ∈ TimedStream.find state.streams id,
    0 < stream.readTimeout → state.armed = true →
      state.timer.expiry ≤ state.now + stream.readTimeout
  | _ => True

instance (state : Deadlines) : ∀ event, Decidable (NotEarlier state event)
  | .submit _ _ _ => inferInstanceAs (Decidable (_ ∧ _))
  | .header _ | .data _ => inferInstanceAs (Decidable (∀ _ ∈ _, _))
  | .pass _ | .complete _ | .leave _ | .close | .fire | .callback _ => isTrue trivial

/-! ### The streams in use -/

variable {state state' : Deadlines} {streams : List TimedStream} {stream : TimedStream}
  {heap : List DeadlineEntry} {entry : DeadlineEntry}

/-- No two streams in use have one identifier. -/
def Distinct (streams : List TimedStream) : Prop := (streams.map TimedStream.id).Nodup

namespace TimedStream

theorem find_of_mem (hdistinct : Distinct streams) (hmem : stream ∈ streams) :
    find streams stream.id = some stream := by
  induction streams with
  | nil => exact absurd hmem List.not_mem_nil
  | cons head streams ih =>
    obtain ⟨hhead, hrest⟩ := List.nodup_cons.mp hdistinct
    rcases List.mem_cons.mp hmem with rfl | hmem
    · simp [find]
    · have hne : head.id ≠ stream.id := fun heq => hhead (heq ▸ List.mem_map_of_mem hmem)
      simpa [find, hne] using ih hrest hmem

/-- The streams after an update are the others and the one that is updated. -/
theorem mem_updateFirst {id : Nat} {f : TimedStream → TimedStream} (hdistinct : Distinct streams)
    (hmem : stream ∈ updateFirst id f streams) :
    (stream ∈ streams ∧ stream.id ≠ id) ∨ ∃ old ∈ streams, old.id = id ∧ stream = f old := by
  induction streams with
  | nil => exact absurd hmem List.not_mem_nil
  | cons head streams ih =>
    obtain ⟨hhead, hrest⟩ := List.nodup_cons.mp hdistinct
    rw [updateFirst] at hmem
    split_ifs at hmem with hid
    · rcases List.mem_cons.mp hmem with rfl | hmem
      · exact Or.inr ⟨head, List.mem_cons_self, hid, rfl⟩
      · refine Or.inl ⟨List.mem_cons_of_mem _ hmem, fun heq => hhead ?_⟩
        rw [hid, ← heq]
        exact List.mem_map_of_mem hmem
    · rcases List.mem_cons.mp hmem with rfl | hmem
      · exact Or.inl ⟨List.mem_cons_self, hid⟩
      · rcases ih hrest hmem with ⟨hold, hne⟩ | ⟨old, hold, hid', rfl⟩
        · exact Or.inl ⟨List.mem_cons_of_mem _ hold, hne⟩
        · exact Or.inr ⟨old, List.mem_cons_of_mem _ hold, hid', rfl⟩

theorem map_id_updateFirst {id : Nat} {f : TimedStream → TimedStream}
    (hid : ∀ stream, (f stream).id = stream.id) (streams : List TimedStream) :
    (updateFirst id f streams).map TimedStream.id = streams.map TimedStream.id := by
  induction streams with
  | nil => rfl
  | cons head streams ih =>
    rw [updateFirst]
    split_ifs with hhead
    · rw [List.map_cons, List.map_cons, hid]
    · rw [List.map_cons, List.map_cons, ih]

theorem distinct_updateFirst {f : TimedStream → TimedStream} (hdistinct : Distinct streams)
    (id : Nat) (hid : ∀ stream, (f stream).id = stream.id) :
    Distinct (updateFirst id f streams) := by
  unfold Distinct
  rw [map_id_updateFirst hid]
  exact hdistinct

theorem distinct_erase (hdistinct : Distinct streams) (id : Nat) : Distinct (erase streams id) :=
  hdistinct.sublist (List.eraseP_sublist.map _)

theorem mem_erase {id : Nat} (hdistinct : Distinct streams) (hmem : stream ∈ erase streams id) :
    stream ∈ streams ∧ stream.id ≠ id := by
  refine ⟨List.mem_of_mem_eraseP hmem, ?_⟩
  induction streams with
  | nil => exact absurd hmem List.not_mem_nil
  | cons head streams ih =>
    obtain ⟨hhead, hrest⟩ := List.nodup_cons.mp hdistinct
    by_cases hid : head.id = id
    · have hmem' : stream ∈ streams := by simpa [erase, hid] using hmem
      intro heq
      apply hhead
      rw [hid, ← heq]
      exact List.mem_map_of_mem hmem'
    · have hmem' : stream ∈ head :: erase streams id := by simpa [erase, hid] using hmem
      rcases List.mem_cons.mp hmem' with rfl | hmem'
      · exact hid
      · exact ih hrest hmem'

theorem distinct_finish (hdistinct : Distinct streams) (id : Nat) :
    Distinct (finish streams id) := by
  unfold finish
  cases find streams id with
  | none => exact hdistinct
  | some stream =>
    dsimp only
    split_ifs with hcallback
    · exact distinct_erase hdistinct id
    · exact distinct_updateFirst hdistinct id fun _ => rfl

/-- The streams that are not done after one is finished are the others. -/
theorem mem_finish {id : Nat} (hdistinct : Distinct streams) (hmem : stream ∈ finish streams id)
    (hdone : stream.done = false) : stream ∈ streams ∧ stream.id ≠ id := by
  unfold finish at hmem
  cases hfind : find streams id with
  | none =>
    rw [hfind] at hmem
    have hne := List.find?_eq_none.mp hfind stream hmem
    exact ⟨hmem, by simpa using hne⟩
  | some found =>
    simp only [hfind] at hmem
    split_ifs at hmem with hcallback
    · exact mem_erase hdistinct hmem
    · rcases mem_updateFirst hdistinct hmem with hold | ⟨old, -, -, rfl⟩
      · exact hold
      · exact absurd hdone (by simp)

theorem isCurrent_iff :
    isCurrent streams entry = true ↔ ∃ stream, find streams entry.streamId = some stream ∧
      stream.done = false ∧ stream.deadlineFor entry.kind = some entry.deadline := by
  unfold isCurrent
  cases hfind : find streams entry.streamId with
  | none => simp
  | some stream => simp

end TimedStream

open TimedStream

/-- The heap has every current deadline. -/
structure Covered (streams : List TimedStream) (heap : List DeadlineEntry) : Prop where
  distinct : Distinct streams
  sorted : heap.Pairwise DeadlineEntry.notAfter
  covered : ∀ stream ∈ streams, stream.done = false → ∀ kind deadline,
    stream.deadlineFor kind = some deadline →
      { deadline, streamId := stream.id, kind } ∈ heap

/-- If every stream that is not done has been there with its deadlines, the heap still
covers them. -/
theorem Covered.of_streams {streams' : List TimedStream} (h : Covered streams heap)
    (hdistinct : Distinct streams')
    (hold : ∀ stream ∈ streams', stream.done = false → ∃ old ∈ streams, old.done = false ∧
      stream.id = old.id ∧ ∀ kind deadline, stream.deadlineFor kind = some deadline →
        old.deadlineFor kind = some deadline) :
    Covered streams' heap := by
  refine ⟨hdistinct, h.sorted, fun stream hmem hdone kind deadline hdeadline => ?_⟩
  obtain ⟨old, hmem', hdone', hid, hsame⟩ := hold stream hmem hdone
  rw [hid]
  exact h.covered old hmem' hdone' kind deadline (hsame kind deadline hdeadline)

theorem Covered.erase (h : Covered streams heap) (id : Nat) : Covered (erase streams id) heap :=
  h.of_streams (distinct_erase h.distinct id) fun stream hmem hdone =>
    ⟨stream, (mem_erase h.distinct hmem).1, hdone, rfl, fun _ _ hdeadline => hdeadline⟩

theorem Covered.finish (h : Covered streams heap) (id : Nat) :
    Covered (finish streams id) heap :=
  h.of_streams (distinct_finish h.distinct id) fun stream hmem hdone =>
    ⟨stream, (mem_finish h.distinct hmem hdone).1, hdone, rfl, fun _ _ hdeadline => hdeadline⟩

/-! ### Pruning and expiring -/

/-- An entry at the front that is not current covers nothing. -/
theorem Covered.dropFront (h : Covered streams (entry :: heap))
    (hcurrent : isCurrent streams entry = false) : Covered streams heap := by
  refine ⟨h.distinct, h.sorted.of_cons, fun stream hmem hdone kind deadline hdeadline => ?_⟩
  rcases List.mem_cons.mp (h.covered stream hmem hdone kind deadline hdeadline) with rfl | hrest
  · have hfind := find_of_mem h.distinct hmem
    have htrue : isCurrent streams { deadline, streamId := stream.id, kind } = true :=
      isCurrent_iff.mpr ⟨stream, hfind, hdone, hdeadline⟩
    exact absurd (hcurrent.symm.trans htrue) Bool.false_ne_true
  · exact hrest

theorem Covered.prune (h : Covered streams heap) :
    Covered streams (heap.dropWhile fun entry => !isCurrent streams entry) := by
  -- an entry that is dropped from the front is not current, so it covers nothing
  induction heap with
  | nil => exact h
  | cons entry heap ih =>
    cases hcurrent : isCurrent streams entry with
    | true => simpa [List.dropWhile_cons, hcurrent] using h
    | false => simpa [List.dropWhile_cons, hcurrent] using ih (h.dropFront hcurrent)

/-- An entry at the front that is popped when its stream is done. -/
theorem Covered.popFront (h : Covered streams (entry :: heap)) :
    Covered (TimedStream.finish streams entry.streamId) heap := by
  refine ⟨distinct_finish h.distinct _, h.sorted.of_cons,
    fun stream hmem hdone kind deadline hdeadline => ?_⟩
  -- a stream that is still not done is another one than that of the entry
  obtain ⟨hmem', hne⟩ := mem_finish h.distinct hmem hdone
  rcases List.mem_cons.mp (h.covered stream hmem' hdone kind deadline hdeadline) with rfl | hrest
  · exact absurd rfl hne
  · exact hrest

theorem Covered.expireLoop (now : Int) (h : Covered streams heap) :
    Covered (Deadlines.expireLoop now heap streams).2
      (Deadlines.expireLoop now heap streams).1 := by
  induction heap generalizing streams with
  | nil => exact h
  | cons front heap ih =>
    rw [Deadlines.expireLoop]
    -- the front is not due, or its stream expires, or it is out of date
    split_ifs with hcurrent hdue
    · exact h
    · exact ih h.popFront
    · exact ih (h.dropFront (by simpa using hcurrent))

/-! ### Adding a deadline and arming the timer -/

namespace Deadlines

theorem mem_addDeadline {streamId : Nat} {kind : DeadlineKind} {deadline : Int} :
    entry ∈ (state.addDeadline streamId kind (some deadline)).heap ↔
      entry = { deadline, streamId, kind } ∨ entry ∈ state.heap :=
  List.mem_orderedInsert DeadlineEntry.notAfter

theorem sorted_addDeadline {streamId : Nat} {kind : DeadlineKind} {deadline : Option Int}
    (h : state.heap.Pairwise DeadlineEntry.notAfter) :
    (state.addDeadline streamId kind deadline).heap.Pairwise DeadlineEntry.notAfter := by
  cases deadline with
  | none => exact h
  | some deadline => exact h.orderedInsert _ _

/-- The timer is set to a time no later than all deadlines of the heap, and waits. -/
def Waits (state : Deadlines) : Prop :=
  state.timer.Pending state.timer.expiry ∧
    ∀ entry ∈ state.heap, state.timer.expiry ≤ entry.deadline

/-- The state between two events. -/
structure Sound (state : Deadlines) : Prop where
  covers : Covered state.streams state.heap
  idle : state.armed = false → state.heap = []
  waits : state.armed = true → state.Waits

theorem sound_empty : Sound {} :=
  ⟨⟨List.nodup_nil, List.Pairwise.nil, fun _ h => absurd h List.not_mem_nil⟩, fun _ => rfl,
    fun h => absurd h Bool.false_ne_true⟩

/-- Arming the timer when it is not armed sets it to the earliest deadline; when it is
armed it must wait for no later a time already. -/
theorem Sound.arm (hcovers : Covered state.streams state.heap)
    (hwaits : state.armed = true → state.Waits) : state.armDeadlineTimer.Sound := by
  have hpruned : Covered state.pruneDeadlineHeap.streams state.pruneDeadlineHeap.heap :=
    hcovers.prune
  have hsub : ∀ entry ∈ state.pruneDeadlineHeap.heap, entry ∈ state.heap :=
    fun entry hmem => (List.dropWhile_sublist _).subset hmem
  unfold armDeadlineTimer
  dsimp only
  cases hheap : state.pruneDeadlineHeap.heap with
  | nil =>
    refine ⟨hpruned, fun _ => hheap, fun harmed => ⟨(hwaits harmed).1, fun entry hmem => ?_⟩⟩
    exact (hwaits harmed).2 entry (hsub entry hmem)
  | cons front rest =>
    dsimp only
    split_ifs with harmed
    · refine ⟨hpruned, fun hunarmed => ?_, fun harmed => ⟨(hwaits harmed).1, fun entry hmem => ?_⟩⟩
      · exact absurd (hunarmed.symm.trans harmed) Bool.false_ne_true
      · exact (hwaits harmed).2 entry (hsub entry hmem)
    · rw [hheap] at hpruned
      refine ⟨hpruned, fun hunarmed => absurd hunarmed (by simp),
        fun _ => ⟨Or.inl ⟨rfl, rfl⟩, ?_⟩⟩
      -- The front of the heap is the earliest.
      intro entry hmem
      rcases List.mem_cons.mp hmem with rfl | hrest
      · exact le_rfl
      · exact (List.pairwise_cons.mp hpruned.sorted).1 entry hrest

/-! ### One event -/

theorem Sound.submitStream {id : Nat} {request : Request} {callbackMode : Bool} (h : state.Sound)
    (hfresh : ∀ stream ∈ state.streams, stream.id ≠ id)
    (hlater : state.armed = true →
      state.timer.expiry ≤ state.now + request.effectiveTimeout Timeout.totalMs ∧
      state.timer.expiry ≤ state.now + request.effectiveTimeout Timeout.writeMs) :
    (state.submitStream id request callbackMode).Sound := by
  refine Sound.arm ⟨?_, ?_, fun stream hmem hdone kind deadline hdeadline => ?_⟩
    fun harmed => ⟨?_, ?_⟩
  · have hold := h.covers.distinct
    unfold Distinct at hold ⊢
    simp only [addDeadline, List.map_append, List.map_cons, List.map_nil]
    refine List.nodup_append.mpr ⟨hold, List.nodup_singleton _, ?_⟩
    intro a ha b hb
    obtain ⟨stream, hmem, rfl⟩ := List.mem_map.mp ha
    rw [List.mem_singleton.mp hb]
    exact hfresh stream hmem
  · exact sorted_addDeadline (sorted_addDeadline h.covers.sorted)
  · rw [mem_addDeadline, mem_addDeadline]
    rcases List.mem_append.mp hmem with hold | hnew
    · exact Or.inr (Or.inr (h.covers.covered stream hold hdone kind deadline hdeadline))
    · obtain rfl := List.mem_singleton.mp hnew
      cases kind with
      | total =>
        obtain rfl := Option.some.inj hdeadline
        exact Or.inr (Or.inl rfl)
      | write =>
        obtain rfl := Option.some.inj hdeadline
        exact Or.inl rfl
      | read => exact absurd hdeadline (by simp [TimedStream.deadlineFor])
  · exact (h.waits harmed).1
  · intro entry hmem
    rw [mem_addDeadline, mem_addDeadline] at hmem
    rcases hmem with rfl | rfl | hold
    · exact (hlater harmed).2
    · exact (hlater harmed).1
    · exact (h.waits harmed).2 entry hold

theorem Sound.startRead (h : state.Sound)
    (hlater : 0 < stream.readTimeout → state.armed = true →
      state.timer.expiry ≤ state.now + stream.readTimeout) :
    (state.startRead stream).Sound := by
  unfold Deadlines.startRead
  split_ifs with htimeout
  · refine Sound.arm ⟨?_, ?_, fun s hmem hdone kind deadline hdeadline => ?_⟩
      fun harmed => ⟨(h.waits harmed).1, ?_⟩
    · exact distinct_updateFirst h.covers.distinct _ fun _ => rfl
    · exact sorted_addDeadline h.covers.sorted
    · rw [mem_addDeadline]
      rcases mem_updateFirst h.covers.distinct hmem with ⟨hold, -⟩ | ⟨old, hold, hid, rfl⟩
      · exact Or.inr (h.covers.covered s hold hdone kind deadline hdeadline)
      · cases kind with
        | read =>
          obtain rfl := Option.some.inj hdeadline
          exact Or.inl (by rw [← hid])
        | total => exact Or.inr (h.covers.covered old hold hdone .total deadline hdeadline)
        | write => exact Or.inr (h.covers.covered old hold hdone .write deadline hdeadline)
    · intro entry hmem
      rw [mem_addDeadline] at hmem
      rcases hmem with rfl | hold
      · exact hlater htimeout harmed
      · exact (h.waits harmed).2 entry hold
  · exact h

/-- The write timeout ends with the first header. -/
theorem Sound.endWrite (h : state.Sound) (id : Nat) :
    Sound
      { state with
        streams := updateFirst id (fun stream => { stream with writeDeadline := none })
          state.streams } := by
  refine ⟨h.covers.of_streams (distinct_updateFirst h.covers.distinct id fun _ => rfl) ?_, h.idle,
    h.waits⟩
  intro stream hmem hdone
  rcases mem_updateFirst h.covers.distinct hmem with ⟨hold, -⟩ | ⟨old, hold, -, rfl⟩
  · exact ⟨stream, hold, hdone, rfl, fun _ _ hdeadline => hdeadline⟩
  · refine ⟨old, hold, hdone, rfl, fun kind deadline hdeadline => ?_⟩
    cases kind with
    | total => exact hdeadline
    | write => exact absurd hdeadline (by simp [TimedStream.deadlineFor])
    | read => exact hdeadline

theorem Sound.closeConnection (h : state.Sound) : state.closeConnection.Sound := by
  refine ⟨⟨?_, List.Pairwise.nil, fun stream hmem hdone => ?_⟩, fun _ => rfl,
    fun harmed => absurd harmed Bool.false_ne_true⟩
  · have hids : (state.closeConnection.streams.map TimedStream.id).Sublist
        (state.streams.map TimedStream.id) := by
      have hsame : state.closeConnection.streams.map TimedStream.id =
          (state.streams.filter fun stream => !(!stream.done && stream.callbackMode)).map
            TimedStream.id := List.map_map
      rw [hsame]
      exact List.filter_sublist.map _
    exact h.covers.distinct.sublist hids
  · obtain ⟨old, -, rfl⟩ := List.mem_map.mp hmem
    exact absurd hdone (by simp)

/-- Whatever wait is over, its callback arms the timer anew. -/
theorem Sound.timerCallback (hcovers : Covered state.streams state.heap)
    (completion : Completion) : (state.timerCallback completion).Sound := by
  cases completion with
  | expired expiry =>
    exact Sound.arm (hcovers.expireLoop state.now) fun harmed => absurd harmed Bool.false_ne_true
  | aborted => exact Sound.arm hcovers fun harmed => absurd harmed Bool.false_ne_true

theorem Sound.step {event : DeadlineEvent} (h : state.Sound) (hok : NotEarlier state event)
    (hstep : state.step event = some state') : state'.Sound := by
  cases event with
  | pass time =>
    obtain rfl := Option.some.inj hstep
    exact ⟨h.covers, h.idle, h.waits⟩
  | submit id request callbackMode =>
    obtain rfl := Option.some.inj hstep
    exact h.submitStream hok.1 hok.2
  | header id =>
    obtain rfl := Option.some.inj hstep
    unfold Deadlines.onHeader
    cases hfind : find state.streams id with
    | none => exact h
    | some stream => exact (h.endWrite id).startRead (hok stream hfind)
  | data id =>
    obtain rfl := Option.some.inj hstep
    unfold Deadlines.onData
    cases hfind : find state.streams id with
    | none => exact h
    | some stream => exact h.startRead (hok stream hfind)
  | complete id =>
    obtain rfl := Option.some.inj hstep
    exact ⟨h.covers.finish id, h.idle, h.waits⟩
  | leave id =>
    obtain rfl := Option.some.inj hstep
    exact ⟨h.covers.erase id, h.idle, h.waits⟩
  | close =>
    obtain rfl := Option.some.inj hstep
    exact h.closeConnection
  | fire =>
    simp only [Deadlines.step] at hstep
    split_ifs at hstep with hdue
    obtain rfl := Option.some.inj hstep
    refine ⟨h.covers, h.idle, fun harmed => ⟨Or.inr ?_, (h.waits harmed).2⟩⟩
    exact List.mem_append_right _ List.mem_cons_self
  | callback i =>
    obtain ⟨completion, -, hstep⟩ := Option.bind_eq_some_iff.mp hstep
    obtain rfl := Option.some.inj hstep
    apply Sound.timerCallback
    exact h.covers

/-- A current deadline is in the heap, so the timer is armed and waits for no later a
time. -/
theorem Sound.armedInTime (h : state.Sound) : state.ArmedInTime := by
  have hheap : ∀ deadline, state.Current deadline → ∃ entry ∈ state.heap,
      entry.deadline = deadline := by
    rintro deadline ⟨stream, hmem, hdone, kind, hdeadline⟩
    exact ⟨_, h.covers.covered stream hmem hdone kind deadline hdeadline, rfl⟩
  rintro ⟨deadline, hcurrent⟩
  obtain ⟨entry, hmem, -⟩ := hheap deadline hcurrent
  have harmed : state.armed = true := by
    cases harmed : state.armed with
    | true => rfl
    | false =>
      rw [h.idle harmed] at hmem
      exact absurd hmem List.not_mem_nil
  obtain ⟨hpending, hle⟩ := h.waits harmed
  refine ⟨state.timer.expiry, hpending, fun deadline hcurrent => ?_⟩
  obtain ⟨entry, hmem, rfl⟩ := hheap deadline hcurrent
  exact hle entry hmem

end Deadlines

/-- In a run that adds no deadline before the time the timer is armed for, the timer
always waits for no later than the earliest current deadline. -/
theorem timer_armed_in_time (events : List DeadlineEvent)
    (hok : Along Deadlines.step NotEarlier {} events)
    (hrun : exec Deadlines.step {} events = some state) : state.ArmedInTime := by
  have hsound : state.Sound :=
    invariant_of_along (fun _ _ _ (h : Deadlines.Sound _) hok hstep => h.step hok hstep)
      Deadlines.sound_empty hok hrun
  exact hsound.armedInTime

/-- A response that begins late and then stalls until the total timeout of its stream. -/
def stalledResponse : List DeadlineEvent :=
  [.submit 1 { timeoutMs := 5000, timeout := { readMs := 1000 } } false, .pass 4500, .header 1,
    .data 1, .pass 500, .fire, .callback 0]

theorem timer_armed_in_time_stalledResponse :
    ∃ state, exec Deadlines.step {} stalledResponse = some state ∧ state.now = 5000 ∧
      state.ArmedInTime := by
  have hok : Along Deadlines.step NotEarlier {} stalledResponse := by decide +kernel
  obtain ⟨state, hrun, hnow⟩ : ∃ state, exec Deadlines.step {} stalledResponse = some state ∧
      state.now = 5000 := ⟨_, rfl, rfl⟩
  exact ⟨state, hrun, hnow, timer_armed_in_time stalledResponse hok hrun⟩

/-- A stream with a timeout of ten seconds, then one with a timeout of one second. -/
def longThenShort : List DeadlineEvent :=
  [.submit 1 { timeoutMs := 10000 } false, .submit 3 { timeoutMs := 1000 } false]

/-- The timer stays set to the deadline of the first stream. -/
theorem short_deadline_missed :
    ∃ state, exec Deadlines.step {} longThenShort = some state ∧ ¬ state.ArmedInTime := by
  refine ⟨_, rfl, fun hintime => ?_⟩
  obtain ⟨expiry, hpending, hle⟩ :=
    hintime ⟨1000, _, List.mem_cons_of_mem _ List.mem_cons_self, rfl, .total, rfl⟩
  have hcurrent := hle 1000 ⟨_, List.mem_cons_of_mem _ List.mem_cons_self, rfl, .total, rfl⟩
  rcases hpending with ⟨-, hexpiry⟩ | hmem
  · have hten : (10000 : Int) = expiry := hexpiry
    omega
  · exact absurd hmem List.not_mem_nil

end HttpClient.H2
