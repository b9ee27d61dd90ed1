import HttpClient.Request
import HttpClient.Semantics.Machine

/-!
# The response of a stream

The frames of a response fill in the response of its stream, and the end of the stream, a
reset, a deadline or a failure of the connection makes the stream done. A stream in callback
mode then leaves the table at once and its response goes to the handler. Otherwise the
response stays in the table until the request resumes and takes it.

Until then it should not change. Deadlines and failures of the connection leave a done
stream alone; the callbacks for frames do not look whether it is done.

## Main definitions

* `StreamState`, `Streams` — the streams, and the responses that have been returned
* `ResponseEvent`, `Streams.step` — what happens to them
* `SparesDone` — the events that write nothing to the response of a done stream

## Main results

* `Streams.Final.step` — such an event leaves completed responses alone
* `returned_as_completed` — runs of such events
* `reset_after_end` — a reset after the end of a response makes it an error
-/

set_option autoImplicit false

namespace HttpClient.H2

open Semantics Text

/-! ### Streams and their responses -/

inductive DeadlineKind where
  | total
  | write
  | read
  deriving DecidableEq, Repr

def timeoutMessage : DeadlineKind → Bytes
  | .total => str "h2 stream timeout"
  | .write => str "h2 write timeout"
  | .read => str "h2 read timeout"

/-- The digits of a status, up to the first other character. -/
def parseStatus (value : Bytes) : Nat :=
  (value.takeWhile isDigit).foldl (fun status c => status * 10 + (c.toNat - 48)) 0

/-- A stream in use. Its response is kept as it was when the stream became done. -/
structure StreamState where
  id : Nat
  storeBody : Bool := true
  storeHeaders : Bool := true
  callbackMode : Bool := false
  response : Response := {}
  done : Bool := false
  atCompletion : Option Response := none
  deriving DecidableEq

namespace StreamState

def onHeader (name value : Bytes) (stream : StreamState) : StreamState :=
  let response := stream.response
  if name = str ":status" then
    { stream with response := { response with status := parseStatus value } }
  else if stream.storeHeaders then
    { stream with
      response := { response with headers := response.headers ++ [headerLine name value] } }
  else stream

def onData (data : Bytes) (stream : StreamState) : StreamState :=
  let response := stream.response
  if stream.storeBody then
    { stream with response := { response with body := response.body ++ data } }
  else stream

def setError (error : Bytes) (stream : StreamState) : StreamState :=
  { stream with response := { stream.response with error } }

def markDone (stream : StreamState) : StreamState :=
  { stream with done := true, atCompletion := stream.atCompletion.or (some stream.response) }

end StreamState

/-- A response that was given to a request or its handler, and the response that its stream
had when it became done. -/
structure Returned where
  response : Response
  atCompletion : Option Response
  deriving DecidableEq

def StreamState.returned (stream : StreamState) : Returned :=
  { response := stream.response, atCompletion := stream.atCompletion }

structure Streams where
  streams : List StreamState := []
  returned : List Returned := []

namespace Streams

def find (table : Streams) (id : Nat) : Option StreamState :=
  table.streams.find? fun stream => decide (stream.id = id)

/-- Update the first stream with an identifier. -/
def updateFirst (id : Nat) (f : StreamState → StreamState) : List StreamState → List StreamState
  | [] => []
  | stream :: streams =>
    if stream.id = id then f stream :: streams else stream :: updateFirst id f streams

def update (table : Streams) (id : Nat) (f : StreamState → StreamState) : Streams :=
  { table with streams := updateFirst id f table.streams }

def erase (table : Streams) (id : Nat) : Streams :=
  { table with streams := table.streams.eraseP fun stream => decide (stream.id = id) }

/-- A stream leaves the table with its response. -/
def give (table : Streams) (stream : StreamState) : Streams :=
  { table.erase stream.id with returned := table.returned ++ [stream.returned] }

def completeStream (table : Streams) (id : Nat) : Streams :=
  match table.find id with
  | none => table
  | some stream =>
    if stream.callbackMode then table.give stream.markDone else table.update id .markDone

/-- A deadline of a stream has passed. -/
def expireStream (table : Streams) (id : Nat) (kind : DeadlineKind) : Streams :=
  match table.find id with
  | none => table
  | some stream =>
    if stream.done then table
    else (table.update id (.setError (timeoutMessage kind))).completeStream id

/-- All streams that are not done fail; those in callback mode leave the table. -/
def failAllStreams (table : Streams) (error : Bytes) : Streams :=
  let fail := fun stream : StreamState =>
    if stream.done then stream else (stream.setError error).markDone
  let leaves := fun stream : StreamState => !stream.done && stream.callbackMode
  { streams := (table.streams.filter fun stream => !leaves stream).map fail
    returned := table.returned ++ (table.streams.filter leaves).map fun stream =>
      (fail stream).returned }

end Streams

inductive ResponseEvent where
  /-- A stream is submitted, with what its request wants to keep. -/
  | submit (id : Nat) (storeBody storeHeaders callbackMode : Bool)
  /-- A header of a response. -/
  | header (id : Nat) (name value : Bytes)
  | data (id : Nat) (data : Bytes)
  | endStream (id : Nat)
  | rstStream (id : Nat)
  | expire (id : Nat) (kind : DeadlineKind)
  /-- The connection fails or is closed. -/
  | failAll (error : Bytes)
  /-- The request of a done stream resumes. -/
  | resume (id : Nat)
  /-- The request of a stream gives up, and ends with an error of its own. -/
  | cancel (id : Nat)

/-- One event; `none` if it is not enabled. -/
def Streams.step (table : Streams) : ResponseEvent → Option Streams
  | .submit id storeBody storeHeaders callbackMode =>
    some { table with
      streams := table.streams ++ [{ id, storeBody, storeHeaders, callbackMode }] }
  | .header id name value => some (table.update id (.onHeader name value))
  | .data id data => some (table.update id (.onData data))
  | .endStream id => some (table.completeStream id)
  | .rstStream id =>
    some ((table.update id (.setError (str "h2 stream reset"))).completeStream id)
  | .expire id kind => some (table.expireStream id kind)
  | .failAll error => some (table.failAllStreams error)
  | .resume id => do
    let stream ← table.find id
    if stream.done && !stream.callbackMode then some (table.give stream) else none
  | .cancel id => some (table.erase id)

/-! ### Completed responses -/

variable {table table' : Streams} {stream : StreamState} {id : Nat}

/-- A stream has a completed response once it is done, and this is its response. -/
def StreamState.Final (stream : StreamState) : Prop :=
  stream.atCompletion = if stream.done then some stream.response else none

def Returned.Final (returned : Returned) : Prop :=
  returned.atCompletion = some returned.response

structure Streams.Final (table : Streams) : Prop where
  streams : ∀ stream ∈ table.streams, stream.Final
  returned : ∀ returned ∈ table.returned, returned.Final

/-- What an event writes to the response of a stream that is done is what is there
already. -/
def SparesDone (table : Streams) : ResponseEvent → Prop
  | .header id name _ => ∀ stream ∈ table.find id, stream.done = true →
    name ≠ str ":status" ∧ stream.storeHeaders = false
  | .data id data => ∀ stream ∈ table.find id, stream.done = true →
    stream.storeBody = false ∨ data = []
  | .rstStream id => ∀ stream ∈ table.find id, stream.done = true →
    stream.response.error = str "h2 stream reset"
  | _ => True

theorem StreamState.Final.markDone (h : stream.Final) : stream.markDone.Final := by
  unfold StreamState.Final at *
  cases hdone : stream.done with
  | false => simp [StreamState.markDone, h, hdone]
  | true => simp [StreamState.markDone, h, hdone]

theorem StreamState.Final.returned (h : stream.Final) (hdone : stream.done = true) :
    stream.returned.Final := by
  unfold StreamState.Final at h
  rw [hdone, if_pos rfl] at h
  exact h

/-- An update that leaves the response of a done stream alone. -/
theorem StreamState.Final.update {f : StreamState → StreamState} (h : stream.Final)
    (hdone : (f stream).done = stream.done)
    (hcompletion : (f stream).atCompletion = stream.atCompletion)
    (hresponse : stream.done = true → (f stream).response = stream.response) :
    (f stream).Final := by
  unfold StreamState.Final at *
  rw [hdone, hcompletion, h]
  cases hd : stream.done with
  | false => rfl
  | true => rw [hresponse hd]

theorem Streams.forall_updateFirst {p : StreamState → Prop} {f : StreamState → StreamState}
    {streams : List StreamState} (h : ∀ stream ∈ streams, p stream)
    (hf : ∀ stream, streams.find? (fun stream => decide (stream.id = id)) = some stream →
      p (f stream)) : ∀ stream ∈ Streams.updateFirst id f streams, p stream := by
  induction streams with
  | nil => exact fun stream hmem => absurd hmem List.not_mem_nil
  | cons s streams ih =>
    intro stream hmem
    rw [Streams.updateFirst] at hmem
    split_ifs at hmem with hid
    · rcases List.mem_cons.mp hmem with rfl | hmem
      · exact hf s (by simp [hid])
      · exact h stream (List.mem_cons_of_mem _ hmem)
    · rcases List.mem_cons.mp hmem with rfl | hmem
      · exact h stream List.mem_cons_self
      · refine ih (fun s hs => h s (List.mem_cons_of_mem _ hs)) (fun s hs => hf s ?_) stream hmem
        rw [List.find?_cons_of_neg (by simpa using hid)]
        exact hs

/-! ### Events -/

theorem Streams.Final.update {f : StreamState → StreamState} (h : table.Final)
    (hf : ∀ stream, table.find id = some stream → stream.Final → (f stream).Final) :
    (table.update id f).Final := by
  refine ⟨Streams.forall_updateFirst h.streams fun stream hfind => ?_, h.returned⟩
  exact hf stream hfind (h.streams stream (List.mem_of_find?_eq_some hfind))

theorem Streams.Final.erase (h : table.Final) (id : Nat) : (table.erase id).Final :=
  ⟨fun stream hmem => h.streams stream (List.mem_of_mem_eraseP hmem), h.returned⟩

/-- A done stream leaves the table with its completed response. -/
theorem Streams.Final.give (h : table.Final) (hfinal : stream.Final) (hdone : stream.done = true) :
    (table.give stream).Final := by
  refine ⟨(h.erase stream.id).streams, fun returned hmem => ?_⟩
  rcases List.mem_append.mp hmem with hmem | hmem
  · exact h.returned returned hmem
  · rw [List.mem_singleton.mp hmem]
    exact hfinal.returned hdone

theorem Streams.Final.completeStream (h : table.Final) (id : Nat) :
    (table.completeStream id).Final := by
  unfold Streams.completeStream
  cases hfind : table.find id with
  | none => exact h
  | some stream =>
    have hfinal := h.streams stream (List.mem_of_find?_eq_some hfind)
    dsimp only
    split_ifs
    · exact h.give hfinal.markDone rfl
    · exact h.update fun stream _ hfinal => hfinal.markDone

/-- An error is written to a stream that is not done, or that has it already. -/
theorem StreamState.Final.setError {error : Bytes} (h : stream.Final)
    (hsame : stream.done = true → stream.response.error = error) :
    (stream.setError error).Final := by
  refine h.update rfl rfl fun hdone => ?_
  unfold StreamState.setError
  dsimp only
  rw [← hsame hdone]

theorem Streams.Final.expireStream (h : table.Final) (id : Nat) (kind : DeadlineKind) :
    (table.expireStream id kind).Final := by
  unfold Streams.expireStream
  cases hfind : table.find id with
  | none => exact h
  | some stream =>
    dsimp only
    split_ifs with hdone
    · exact h
    · refine Streams.Final.completeStream (h.update fun found hfound hfinal => ?_) id
      obtain rfl := Option.some.inj (hfind.symm.trans hfound)
      exact hfinal.setError fun hd => absurd hd hdone

theorem Streams.Final.failAllStreams (h : table.Final) (error : Bytes) :
    (table.failAllStreams error).Final := by
  have hfail : ∀ stream ∈ table.streams,
      (if stream.done then stream else (stream.setError error).markDone).Final := by
    intro stream hmem
    have hfinal := h.streams stream hmem
    split_ifs with hdone
    · exact hfinal
    · exact (hfinal.setError fun hd => absurd hd hdone).markDone
  refine ⟨fun stream hmem => ?_, fun returned hmem => ?_⟩
  · obtain ⟨before, hbefore, rfl⟩ := List.mem_map.mp hmem
    exact hfail before (List.mem_of_mem_filter hbefore)
  · rcases List.mem_append.mp hmem with hmem | hmem
    · exact h.returned returned hmem
    · obtain ⟨before, hbefore, rfl⟩ := List.mem_map.mp hmem
      obtain ⟨hmem, hleaves⟩ := List.mem_filter.mp hbefore
      simp only [Bool.and_eq_true, Bool.not_eq_true'] at hleaves
      refine (hfail before hmem).returned ?_
      rw [hleaves.1]
      rfl

theorem Streams.Final.step {event : ResponseEvent} (h : table.Final)
    (hok : SparesDone table event) (hstep : table.step event = some table') : table'.Final := by
  cases event with
  | submit id storeBody storeHeaders callbackMode =>
    obtain rfl := Option.some.inj hstep
    refine ⟨fun stream hmem => ?_, h.returned⟩
    rcases List.mem_append.mp hmem with hmem | hmem
    · exact h.streams stream hmem
    · obtain rfl := List.mem_singleton.mp hmem
      rfl
  | header id name value =>
    obtain rfl := Option.some.inj hstep
    refine h.update fun stream hfind hfinal => ?_
    refine hfinal.update ?_ ?_ fun hdone => ?_ <;> unfold StreamState.onHeader
    · split_ifs <;> rfl
    · split_ifs <;> rfl
    · obtain ⟨hname, hskips⟩ := hok stream hfind hdone
      simp [hname, hskips]
  | data id data =>
    obtain rfl := Option.some.inj hstep
    refine h.update fun stream hfind hfinal => ?_
    refine hfinal.update ?_ ?_ fun hdone => ?_ <;> unfold StreamState.onData
    · split_ifs <;> rfl
    · split_ifs <;> rfl
    · rcases hok stream hfind hdone with hskips | rfl
      · simp [hskips]
      · simp
  | endStream id =>
    obtain rfl := Option.some.inj hstep
    exact h.completeStream id
  | rstStream id =>
    obtain rfl := Option.some.inj hstep
    exact Streams.Final.completeStream
      (h.update fun stream hfind hfinal => hfinal.setError (hok stream hfind)) id
  | expire id kind =>
    obtain rfl := Option.some.inj hstep
    exact h.expireStream id kind
  | failAll error =>
    obtain rfl := Option.some.inj hstep
    exact h.failAllStreams error
  | resume id =>
    obtain ⟨stream, hfind, hstep⟩ := Option.bind_eq_some_iff.mp hstep
    split_ifs at hstep with hdone
    obtain rfl := Option.some.inj hstep
    have hfinal := h.streams stream (List.mem_of_find?_eq_some hfind)
    exact h.give hfinal (Bool.and_eq_true_iff.mp hdone).1
  | cancel id =>
    obtain rfl := Option.some.inj hstep
    exact h.erase id

/-- In a run of events that spare done streams, every response that is returned is the one
its stream had when it became done. -/
theorem returned_as_completed (events : List ResponseEvent) (table : Streams)
    (hok : Along Streams.step SparesDone {} events)
    (hexec : exec Streams.step {} events = some table) :
    ∀ returned ∈ table.returned, returned.atCompletion = some returned.response := by
  have hempty : Streams.Final {} :=
    ⟨fun _ hmem => absurd hmem List.not_mem_nil, fun _ hmem => absurd hmem List.not_mem_nil⟩
  have hfinal : table.Final :=
    invariant_of_along (fun _ _ _ h hok hstep => h.step hok hstep) hempty hok hexec
  exact hfinal.returned

instance (event : ResponseEvent) : Decidable (SparesDone table event) := by
  cases event <;> unfold SparesDone <;> infer_instance

/-- A response with a body, and one that is cut short by a deadline. -/
def twoResponses : List ResponseEvent :=
  [.submit 1 true true false, .submit 3 true true true, .header 1 (str ":status") (str "200"),
    .data 1 (str "hello"), .endStream 1, .expire 3 .read, .failAll (str "h2 reset"), .resume 1]

theorem returned_as_completed_twoResponses :
    ∃ table, exec Streams.step {} twoResponses = some table ∧ table.returned.length = 2 ∧
      ∀ returned ∈ table.returned, returned.atCompletion = some returned.response :=
  ⟨_, rfl, by decide +kernel,
    returned_as_completed twoResponses _ (by decide +kernel) rfl⟩

/-- The server ends its response and then resets the stream, as it may to stop an upload it
does not need. The request finds an error in a response that was complete without one. -/
theorem reset_after_end :
    ¬ ∀ (events : List ResponseEvent) (table : Streams),
      exec Streams.step {} events = some table →
        ∀ returned ∈ table.returned, returned.atCompletion = some returned.response := by
  intro h
  have hcomplete := h [.submit 1 true true false, .header 1 (str ":status") (str "200"),
    .endStream 1, .rstStream 1, .resume 1] _ rfl
  exact absurd hcomplete (by decide +kernel)

end HttpClient.H2
