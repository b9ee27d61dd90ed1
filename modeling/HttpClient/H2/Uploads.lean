import HttpClient.H2.Session
import HttpClient.Semantics.Machine

/-!
# Request bodies on one connection

The body of a request is kept in the entry of its stream, in a table whose entries are
used again. The engine is given a pointer to the body in the entry and asks for the bytes
of the body through this pointer, one DATA frame after the other, until the body ends or
the stream is reset.

The end of the response releases the entry, but does not reset the stream. A server may
end its response before it has read the request, and then the engine goes on asking through
a pointer into an entry that may belong to another stream by then. The pointer is also
lost when the table grows beyond the capacity that is reserved for it.

The engine assigns the stream identifiers it announces, so the branch of the source for
another identifier is not taken. A connection that is closed deletes the engine, after which
no body is read.

## Main definitions

* `BodySource`, `BodySource.onDataSourceRead` — a body and the callback that reads it
* `StreamStorage` — the entries of the streams, the index and the free entries
* `Upload` — a pointer the engine holds, with what it has read through it
* `Uploads`, `BodyEvent`, `Uploads.step` — the table and the engine of a connection
* `Uploads.Unmixed` — the engine has read of each body a prefix, and nothing else
* `ReadsOwnBody` — what is read is read from the entry of its own stream

## Main results

* `StreamStorage.KeptBelow` — the entries of older streams keep their bodies
* `Uploads.Apart.step` — one event
* `bodies_never_mixed` — runs of such events
* `upload_reads_next_body` — a response that ends before the upload
-/

set_option autoImplicit false

namespace HttpClient.H2

open Semantics Text

/-! ### Bodies -/

/-- A body and how much of it has been read. -/
structure BodySource where
  body : Bytes := []
  sharedBody : Option Bytes := none
  offset : Nat := 0
  offset_le : offset ≤ (sharedBody.getD body).length := by exact Nat.zero_le _
  deriving DecidableEq, Repr

namespace BodySource

def view (source : BodySource) : Bytes := source.sharedBody.getD source.body

/-- What has not been read yet. -/
def left (source : BodySource) : Bytes := source.view.drop source.offset

/-- The body a request is uploaded from. A shared body comes first here, while
`Request.bodyView` prefers the other one. -/
def ofRequest (request : Request) : BodySource :=
  match request.sharedBody with
  | some shared => { sharedBody := some shared }
  | none => { body := request.body }

/-- Read at most `length` bytes. -/
def next (source : BodySource) (length : Nat) : Bytes × BodySource :=
  let remaining := source.view.length - source.offset
  let n := min length remaining
  (source.left.take n,
    { source with
      offset := source.offset + n
      offset_le := by
        have h : source.offset ≤ source.view.length := source.offset_le
        change source.offset + min length (source.view.length - source.offset) ≤
          source.view.length
        omega })

/-- The callback of the engine: the bytes, whether the body ends with them, and the body
afterwards. A null pointer is an empty body. -/
def onDataSourceRead (body : Option BodySource) (length : Nat) :
    Bytes × Bool × Option BodySource :=
  match body with
  | none => ([], true, none)
  | some body =>
    let (bytes, body) := body.next length
    (bytes, decide (body.view.length ≤ body.offset), some body)

theorem length_left (source : BodySource) :
    source.left.length = source.view.length - source.offset := by
  simp [left]

@[simp] theorem view_next (source : BodySource) (length : Nat) :
    (source.next length).2.view = source.view := rfl

/-- What is read and what is left after it are what was left before. -/
theorem next_append_left (source : BodySource) (length : Nat) :
    (source.next length).1 ++ (source.next length).2.left = source.left := by
  simp only [next, left, view]
  rw [← List.drop_drop, List.take_append_drop]

/-- The offset advances by what is read. -/
theorem offset_next (source : BodySource) (length : Nat) :
    (source.next length).2.offset = source.offset + (source.next length).1.length := by
  have h := source.length_left
  simp only [next, List.length_take]
  omega

/-- Where nothing is left nothing is read, and the body stays as it is. -/
theorem next_of_left_eq_nil {source : BodySource} (h : source.left = []) (length : Nat) :
    source.next length = ([], source) := by
  have hlength : source.view.length - source.offset = 0 := by
    rw [← source.length_left, h, List.length_nil]
  obtain ⟨body, sharedBody, offset, hoffset⟩ := source
  simp only [next, hlength, h, Nat.min_zero, List.take_nil, Nat.add_zero]

/-- The body of a request starts with what the request says it is, unless the request
carries another shared body. -/
theorem left_ofRequest_prefix {request : Request}
    (h : ∀ shared ∈ request.sharedBody, shared <+: request.bodyView) :
    (ofRequest request).left <+: request.bodyView := by
  unfold ofRequest
  cases hshared : request.sharedBody with
  | some shared => exact h shared hshared
  | none =>
    by_cases hbody : request.body = []
    · simp [left, view, hbody]
    · simp [left, view, Request.bodyView, hbody]

@[simp] theorem offset_ofRequest (request : Request) : (ofRequest request).offset = 0 := by
  unfold ofRequest
  cases request.sharedBody <;> rfl

end BodySource

/-! ### The table of the streams -/

/-- An entry of the table. -/
structure StoredStream where
  id : Nat := 0
  inUse : Bool := false
  done : Bool := false
  callbackMode : Bool := false
  bodySource : BodySource := {}
  deriving DecidableEq, Repr

def StoredStream.resetForReuse (entry : StoredStream) : StoredStream :=
  { entry with done := false, callbackMode := false, bodySource := {} }

structure StreamIndexEntry where
  streamId : Nat
  index : Nat
  deriving DecidableEq, Repr

/-- The entries, the index by stream identifier and the free entries, the one that is used
first in front. The entries are moved when there are more than the capacity; `moves` counts
how often this has happened. -/
structure StreamStorage where
  streams : List StoredStream := []
  streamIndex : List StreamIndexEntry := []
  freeStreamIndices : List Nat := []
  capacity : Nat := 0
  moves : Nat := 0
  deriving DecidableEq, Repr

namespace StreamStorage

def reserve (table : StreamStorage) (capacity : Nat) : StreamStorage :=
  if capacity ≤ table.capacity then table
  else { table with capacity, moves := table.moves + 1 }

/-- Add an entry, in a larger storage when this one is full. How much larger it is, is left to
the library. -/
def pushBack (grow : Nat → Nat) (table : StreamStorage) (entry : StoredStream) : StreamStorage :=
  { if table.streams.length < table.capacity then table
    else
      { table with
        capacity := max (table.streams.length + 1) (grow table.capacity)
        moves := table.moves + 1 } with
    streams := table.streams ++ [entry] }

def modifyEntry (table : StreamStorage) (i : Nat) (f : StoredStream → StoredStream) :
    StreamStorage :=
  { table with streams := table.streams.modify i f }

/-- Whether an entry is the one of a stream. -/
def holds (table : StreamStorage) (i id : Nat) : Bool :=
  table.streams[i]?.any fun entry => entry.inUse && decide (entry.id = id)

/-- The entry of a stream. An index entry that is out of date is dropped. -/
def findStreamEntry (table : StreamStorage) (id : Nat) : StreamStorage × Option Nat :=
  match table.streamIndex.find? fun entry => decide (entry.streamId = id) with
  | none => (table, none)
  | some found =>
    if table.holds found.index id then (table, some found.index)
    else
      ({ table with
          streamIndex := table.streamIndex.eraseP fun entry => decide (entry.streamId = id) },
        none)

/-- Remove the first index entry of a stream, whose place the last one takes. -/
def eraseStreamIndex (table : StreamStorage) (id : Nat) : StreamStorage :=
  match table.streamIndex.findIdx? fun entry => decide (entry.streamId = id),
      table.streamIndex.getLast? with
  | some i, some back =>
    { table with streamIndex := (table.streamIndex.set i back).dropLast }
  | _, _ => table

/-- The first free entry that is not in use, and the free entries after it. -/
def takeFree (streams : List StoredStream) : List Nat → Option Nat × List Nat
  | [] => (none, [])
  | i :: free =>
    if streams[i]?.any fun entry => !entry.inUse then (some i, free) else takeFree streams free

/-- A new entry for a stream, and where it is. -/
def acquireStreamEntry (grow : Nat → Nat) (table : StreamStorage) (id : Nat) :
    StreamStorage × Nat :=
  match takeFree table.streams table.freeStreamIndices with
  | (some i, free) =>
    ({ table.modifyEntry i fun entry => { entry with id, inUse := true }.resetForReuse with
        freeStreamIndices := free
        streamIndex := table.streamIndex ++ [⟨id, i⟩] }, i)
  | (none, free) =>
    ({ table.pushBack grow { id, inUse := true } with
        freeStreamIndices := free
        streamIndex := table.streamIndex ++ [⟨id, table.streams.length⟩] },
      table.streams.length)

/-- The part of a submission before the engine is called: a new entry with the body of the
request. -/
def openStream (grow : Nat → Nat) (table : StreamStorage) (id : Nat) (request : Request) :
    StreamStorage × Nat :=
  let (table, i) := table.acquireStreamEntry grow id
  if request.bodyView ≠ [] then
    (table.modifyEntry i fun entry => { entry with bodySource := .ofRequest request }, i)
  else (table, i)

def releaseStreamEntry (table : StreamStorage) (id : Nat) : StreamStorage :=
  match table.findStreamEntry id with
  | (table, none) => table
  | (table, some i) =>
    { (table.eraseStreamIndex id).modifyEntry i fun entry =>
        { entry.resetForReuse with id := 0, inUse := false } with
      freeStreamIndices := i :: table.freeStreamIndices }

/-- Change the entry of a stream, if it has one. -/
def updateStream (table : StreamStorage) (id : Nat) (f : StoredStream → StoredStream) :
    StreamStorage :=
  match table.findStreamEntry id with
  | (table, none) => table
  | (table, some i) => table.modifyEntry i f

/-- The entry of a stream as it is. -/
def stream (table : StreamStorage) (id : Nat) : Option StoredStream :=
  match table.findStreamEntry id with
  | (_, none) => none
  | (table, some i) => table.streams[i]?

def markDone (table : StreamStorage) (id : Nat) : StreamStorage :=
  table.updateStream id fun entry => { entry with done := true }

/-- The response of a stream is complete. A request that waits for it releases the entry
when it resumes. -/
def completeStream (table : StreamStorage) (id : Nat) : StreamStorage :=
  match table.stream id with
  | none => (table.findStreamEntry id).1
  | some entry =>
    if entry.callbackMode then (table.markDone id).releaseStreamEntry id
    else table.markDone id

end StreamStorage

/-! ### The engine -/

/-- The body upload of a stream: the pointer the engine holds, an entry of the table as it
was stored after so many moves, and what it has read through it. -/
structure Upload where
  stream : Nat
  /-- The body given to `submitStream`. -/
  given : Bytes
  moves : Nat
  index : Nat
  produced : Bytes := []
  /-- The body has not ended and the stream has not been reset. -/
  reading : Bool := true
  deriving DecidableEq, Repr

/-- The table and the engine of one connection. -/
structure Uploads where
  table : StreamStorage
  nextStreamId : Nat := 1
  uploads : List Upload := []
  deriving DecidableEq, Repr

namespace Uploads

/-- A new engine. The table may still have entries of the connections before. -/
def connect (options : SessionOptions) (table : StreamStorage) : Uploads :=
  { table := table.reserve
      (max 32 (options.maxConcurrentStreams + options.maxConcurrentStreams / 4 + 16)) }

def updateUpload (state : Uploads) (stream : Nat) (f : Upload → Upload) : Uploads :=
  { state with
    uploads := state.uploads.map fun upload =>
      if upload.stream = stream then f upload else upload }

/-- The stream is reset, by the server or with a RST_STREAM frame, which the engine sends
before any DATA frame. -/
def resetStream (state : Uploads) (stream : Nat) : Uploads :=
  state.updateUpload stream fun upload => { upload with reading := false }

/-- Submit a request. It has a body if `bodyView` says so. -/
def submitStream (grow : Nat → Nat) (state : Uploads) (request : Request)
    (callbackMode accepted : Bool) : Uploads :=
  let id := state.nextStreamId
  let (table, i) := state.table.openStream grow id request
  if accepted then
    { table :=
        if callbackMode then table.updateStream id fun entry => { entry with callbackMode }
        else table
      nextStreamId := id + 2
      uploads :=
        -- the pointer the engine gets is into the table as it is stored now
        if request.bodyView ≠ [] then
          state.uploads ++
            [{ stream := id, given := request.bodyView, moves := table.moves, index := i }]
        else state.uploads }
  else
    -- the engine refuses the request and keeps no pointer
    { state with table := table.releaseStreamEntry id }

/-- What a pointer of the engine points to. After the entries have been moved it is memory
that has been given back, with contents `freed`. -/
def target (state : Uploads) (upload : Upload) (freed : BodySource) : Option BodySource :=
  if upload.moves = state.table.moves then
    state.table.streams[upload.index]?.map StoredStream.bodySource
  else some freed

/-- Store a body through a pointer of the engine. -/
def store (state : Uploads) (upload : Upload) : Option BodySource → Uploads
  | none => state
  | some bodySource =>
    if upload.moves = state.table.moves then
      { state with
        table := state.table.modifyEntry upload.index fun entry => { entry with bodySource } }
    else
      -- the offset goes to memory that is not the table's
      state

/-- The engine asks for at most `length` more bytes of the body of a stream. -/
def readData (state : Uploads) (stream length : Nat) (freed : BodySource) : Option Uploads :=
  (state.uploads.find? fun upload => decide (upload.stream = stream) && upload.reading).map
    fun upload =>
      let (bytes, eof, body) :=
        BodySource.onDataSourceRead (state.target upload freed) length
      (state.store upload body).updateUpload stream fun upload =>
        { upload with produced := upload.produced ++ bytes, reading := !eof }

def cancelStream (state : Uploads) (id : Nat) : Uploads :=
  match state.table.stream id with
  | none => { state with table := (state.table.findStreamEntry id).1 }
  | some _ =>
    { state.resetStream id with table := (state.table.markDone id).releaseStreamEntry id }

/-- A deadline of a stream has passed. In callback mode the entry is released at once. -/
def expireStream (state : Uploads) (id : Nat) : Uploads :=
  match state.table.stream id with
  | none => { state with table := (state.table.findStreamEntry id).1 }
  | some entry =>
    -- a deadline of a stream that is done is out of date
    if entry.done then state
    else { state.resetStream id with table := state.table.completeStream id }

/-- The request that waits for a stream resumes. -/
def resume (state : Uploads) (id : Nat) : Uploads :=
  match state.table.stream id with
  | none => state.cancelStream id
  | some entry =>
    if entry.done then { state with table := state.table.releaseStreamEntry id }
    else state.cancelStream id

end Uploads

/-- What happens to the streams of a connection. -/
inductive BodyEvent where
  | submit (request : Request) (callbackMode accepted : Bool)
  | readData (stream length : Nat) (freed : BodySource)
  | endStream (id : Nat)
  | rstStream (id : Nat)
  | expire (id : Nat)
  | cancel (id : Nat)
  | resume (id : Nat)
  deriving Repr

def Uploads.step (grow : Nat → Nat) (state : Uploads) : BodyEvent → Option Uploads
  | .submit request callbackMode accepted =>
    some (state.submitStream grow request callbackMode accepted)
  | .readData stream length freed => state.readData stream length freed
  -- the engine is not told that the entry is released, and goes on reading
  | .endStream id => some { state with table := state.table.completeStream id }
  | .rstStream id =>
    some { state.resetStream id with table := state.table.completeStream id }
  | .expire id => some (state.expireStream id)
  | .cancel id => some (state.cancelStream id)
  | .resume id => some (state.resume id)

/-! ### The property and the condition -/

/-- What has been produced for a stream is a prefix of its body. As long as the stream has
its entry, the body there has advanced by that much, not by what was read for others. -/
def Uploads.Unmixed (state : Uploads) : Prop :=
  ∀ upload ∈ state.uploads, upload.produced <+: upload.given ∧
    ∀ entry ∈ state.table.streams[upload.index]?, entry.inUse = true →
      entry.id = upload.stream → entry.bodySource.offset = upload.produced.length

instance (state : Uploads) : Decidable state.Unmixed :=
  inferInstanceAs (Decidable (∀ upload ∈ state.uploads, _ ∧ ∀ entry ∈ _, _ → _ → _))

/-- The pointer of a stream still points to the entry of the stream, or to one from which
nothing is left to read. -/
def Uploads.PointsToOwn (state : Uploads) (stream : Nat) : Prop :=
  ∀ upload ∈ state.uploads, upload.stream = stream →
    upload.moves = state.table.moves ∧
      ∀ entry ∈ state.table.streams[upload.index]?,
        (entry.inUse = true ∧ entry.id = stream) ∨ entry.bodySource.left = []

/-- The condition on a step. Of two bodies in one request, which the setters do not leave
there, the shared one begins the other. -/
def ReadsOwnBody (state : Uploads) : BodyEvent → Prop
  | .submit request _ _ => ∀ shared ∈ request.sharedBody, shared <+: request.bodyView
  | .readData stream _ _ => state.PointsToOwn stream
  | _ => True

instance (state : Uploads) (stream : Nat) : Decidable (state.PointsToOwn stream) :=
  inferInstanceAs (Decidable (∀ upload ∈ state.uploads, _ → _ ∧ ∀ entry ∈ _, _ ∨ _))

instance (state : Uploads) (event : BodyEvent) : Decidable (ReadsOwnBody state event) :=
  match event with
  | .submit request _ _ =>
    inferInstanceAs (Decidable (∀ shared ∈ request.sharedBody, shared <+: request.bodyView))
  | .readData stream _ _ => inferInstanceAs (Decidable (state.PointsToOwn stream))
  | .endStream _ | .rstStream _ | .expire _ | .cancel _ | .resume _ => isTrue trivial

/-! ### The operations of the table -/

namespace StreamStorage

/-- The entries in use of the streams below `bound` were there before, with the same
bodies. -/
def KeptBelow (bound : Nat) (before after : List StoredStream) : Prop :=
  ∀ (i : Nat) (entry : StoredStream), after[i]? = some entry → entry.inUse = true →
    entry.id < bound → ∃ old, before[i]? = some old ∧ old.inUse = true ∧
      old.id = entry.id ∧ old.bodySource = entry.bodySource

variable {bound : Nat} {streams before after : List StoredStream} (grow : Nat → Nat)
  (table : StreamStorage)

theorem KeptBelow.refl (bound : Nat) (streams : List StoredStream) :
    KeptBelow bound streams streams := fun _ entry hentry huse _ =>
  ⟨entry, hentry, huse, rfl, rfl⟩

theorem KeptBelow.trans {middle : List StoredStream} (h : KeptBelow bound before middle)
    (h' : KeptBelow bound middle after) : KeptBelow bound before after := by
  intro i entry hentry huse hid
  obtain ⟨mid, hmid, hmiduse, hmidid, hmidbody⟩ := h' i entry hentry huse hid
  obtain ⟨old, hold, holduse, holdid, holdbody⟩ := h i mid hmid hmiduse (hmidid ▸ hid)
  exact ⟨old, hold, holduse, holdid.trans hmidid, holdbody.trans hmidbody⟩

/-- A change of one entry that keeps its body, or that leaves it unused or to a stream from
`bound` on. -/
theorem keptBelow_modify (i : Nat) (f : StoredStream → StoredStream)
    (h : ∀ entry, streams[i]? = some entry → (f entry).inUse = true →
      (f entry).id < bound → entry.inUse = true ∧ entry.id = (f entry).id ∧
        entry.bodySource = (f entry).bodySource) :
    KeptBelow bound streams (streams.modify i f) := by
  intro j entry hentry huse hid
  by_cases hij : i = j
  · -- the changed entry
    subst hij
    obtain ⟨old, hold, rfl⟩ : ∃ old, streams[i]? = some old ∧ f old = entry := by
      simpa using hentry
    obtain ⟨holduse, holdid, holdbody⟩ := h old hold huse hid
    exact ⟨old, hold, holduse, holdid, holdbody⟩
  · rw [List.getElem?_modify_ne _ _ hij] at hentry
    exact KeptBelow.refl bound streams j entry hentry huse hid

@[simp] theorem streams_pushBack (entry : StoredStream) :
    (table.pushBack grow entry).streams = table.streams ++ [entry] := rfl

@[simp] theorem streams_modifyEntry (i : Nat) (f : StoredStream → StoredStream) :
    (table.modifyEntry i f).streams = table.streams.modify i f := rfl

@[simp] theorem streams_findStreamEntry (id : Nat) :
    (table.findStreamEntry id).1.streams = table.streams := by
  unfold findStreamEntry
  split
  · rfl
  · split <;> rfl

@[simp] theorem streams_eraseStreamIndex (id : Nat) :
    (table.eraseStreamIndex id).streams = table.streams := by
  unfold eraseStreamIndex
  split <;> rfl

/-- A change of the entry of a stream that keeps its body. -/
theorem keptBelow_updateStream (id : Nat) (f : StoredStream → StoredStream)
    (h : ∀ entry, (f entry).inUse = true → (f entry).id < bound →
      entry.inUse = true ∧ entry.id = (f entry).id ∧
        entry.bodySource = (f entry).bodySource) :
    KeptBelow bound table.streams (table.updateStream id f).streams := by
  have hfind := table.streams_findStreamEntry id
  unfold updateStream
  rcases hresult : table.findStreamEntry id with ⟨table', found⟩
  rw [hresult] at hfind
  cases found with
  | none => exact hfind ▸ KeptBelow.refl bound _
  | some i => exact hfind ▸ keptBelow_modify i f fun entry _ => h entry

theorem keptBelow_markDone (id : Nat) :
    KeptBelow bound table.streams (table.markDone id).streams :=
  table.keptBelow_updateStream id _ fun _ huse _ => ⟨huse, rfl, rfl⟩

theorem keptBelow_releaseStreamEntry (id : Nat) :
    KeptBelow bound table.streams (table.releaseStreamEntry id).streams := by
  have hfind := table.streams_findStreamEntry id
  unfold releaseStreamEntry
  rcases hresult : table.findStreamEntry id with ⟨table', found⟩
  rw [hresult] at hfind
  cases found with
  | none => exact hfind ▸ KeptBelow.refl bound _
  | some i =>
    -- the entry that is released is not in use any more
    have hkept : KeptBelow bound table'.streams
        ((table'.eraseStreamIndex id).modifyEntry i fun entry =>
          { entry.resetForReuse with id := 0, inUse := false }).streams := by
      rw [streams_modifyEntry, streams_eraseStreamIndex]
      exact keptBelow_modify i _ fun _ _ huse => nomatch huse
    exact hfind ▸ hkept

theorem keptBelow_completeStream (id : Nat) :
    KeptBelow bound table.streams (table.completeStream id).streams := by
  unfold completeStream
  cases table.stream id with
  | none => exact table.streams_findStreamEntry id ▸ KeptBelow.refl bound _
  | some entry =>
    dsimp only
    split
    · exact (table.keptBelow_markDone id).trans (keptBelow_releaseStreamEntry _ id)
    · exact table.keptBelow_markDone id

/-- What a new entry takes is an entry of the table. -/
theorem lt_length_of_takeFree {free rest : List Nat} {i : Nat}
    (h : takeFree streams free = (some i, rest)) : i < streams.length := by
  induction free with
  | nil => cases h
  | cons j free ih =>
    unfold takeFree at h
    by_cases hfree : (streams[j]?.any fun entry => !entry.inUse) = true
    · rw [if_pos hfree] at h
      obtain ⟨rfl, rfl⟩ : j = i ∧ free = rest := by simpa using h
      by_contra hlength
      rw [List.getElem?_eq_none (Nat.le_of_not_lt hlength)] at hfree
      cases hfree
    · rw [if_neg hfree] at h
      exact ih h

/-- The new entry of a stream. -/
theorem acquired_entry (id : Nat) :
    (table.acquireStreamEntry grow id).1.streams[(table.acquireStreamEntry grow id).2]? =
      some { id, inUse := true } := by
  unfold acquireStreamEntry
  rcases htake : takeFree table.streams table.freeStreamIndices with ⟨found, free⟩
  cases found with
  | none => simp
  | some i =>
    have hlength := lt_length_of_takeFree htake
    simp [List.getElem?_eq_getElem hlength, StoredStream.resetForReuse]

/-- A new entry is one of the table that is not in use, or it is added at the end. -/
theorem keptBelow_acquireStreamEntry {id : Nat} (hid : bound ≤ id) :
    KeptBelow bound table.streams (table.acquireStreamEntry grow id).1.streams := by
  unfold acquireStreamEntry
  rcases takeFree table.streams table.freeStreamIndices with ⟨found, free⟩
  cases found with
  | some i =>
    refine keptBelow_modify i _ fun _ _ _ hlt => ?_
    exact absurd hlt (Nat.not_lt.mpr hid)
  | none =>
    intro i entry hentry huse hlt
    have hentry' : (table.streams ++ [{ id, inUse := true }])[i]? = some entry := hentry
    rw [List.getElem?_append] at hentry'
    by_cases hi : i < table.streams.length
    · rw [if_pos hi] at hentry'
      exact KeptBelow.refl bound _ i entry hentry' huse hlt
    · -- the entry at the end belongs to the new stream
      rw [if_neg hi] at hentry'
      have hmem := List.mem_of_getElem? hentry'
      rw [List.mem_singleton] at hmem
      subst hmem
      exact absurd hlt (Nat.not_lt.mpr hid)

theorem keptBelow_openStream {id : Nat} (hid : bound ≤ id) (request : Request) :
    KeptBelow bound table.streams (table.openStream grow id request).1.streams := by
  have hacquired := table.acquired_entry grow id
  have hkept := table.keptBelow_acquireStreamEntry grow hid
  unfold openStream
  rcases hresult : table.acquireStreamEntry grow id with ⟨acquired, i⟩
  rw [hresult] at hacquired hkept
  dsimp only at hacquired ⊢
  split
  · -- the body goes to the entry of the new stream
    refine hkept.trans (keptBelow_modify i _ fun entry hentry _ hlt => ?_)
    obtain rfl := Option.some.inj (hacquired.symm.trans hentry)
    exact absurd hlt (Nat.not_lt.mpr hid)
  · exact hkept

theorem opened_entry (id : Nat) {request : Request} (hbody : request.bodyView ≠ []) :
    (table.openStream grow id request).1.streams[(table.openStream grow id request).2]? =
      some { id, inUse := true, bodySource := .ofRequest request } := by
  have hacquired := table.acquired_entry grow id
  unfold openStream
  rcases hresult : table.acquireStreamEntry grow id with ⟨acquired, i⟩
  rw [hresult] at hacquired
  dsimp only at hacquired ⊢
  rw [if_pos hbody, streams_modifyEntry, List.getElem?_modify, hacquired]
  simp

end StreamStorage

/-! ### The invariant -/

/-- What has been produced and what is left in the entry make up a beginning of the body. -/
structure Upload.Matches (upload : Upload) (source : BodySource) : Prop where
  append_left : upload.produced ++ source.left <+: upload.given
  offset_eq : source.offset = upload.produced.length

namespace Uploads

/-- The uploads of a connection are apart. -/
structure Apart (state : Uploads) : Prop where
  fresh : ∀ upload ∈ state.uploads, upload.stream < state.nextStreamId
  distinct : (state.uploads.map Upload.stream).Nodup
  produced : ∀ upload ∈ state.uploads, upload.produced <+: upload.given
  own : ∀ upload ∈ state.uploads, ∀ entry, state.table.streams[upload.index]? = some entry →
    entry.inUse = true → entry.id = upload.stream → upload.Matches entry.bodySource

variable {state : Uploads} {table : StreamStorage} {upload other : Upload} {grow : Nat → Nat}

theorem Apart.unmixed (h : state.Apart) : state.Unmixed := by
  intro upload hupload
  refine ⟨h.produced upload hupload, fun entry hentry huse hid => ?_⟩
  exact (h.own upload hupload entry hentry huse hid).offset_eq

theorem Apart.connect (options : SessionOptions) (table : StreamStorage) :
    (connect options table).Apart where
  fresh := by simp [Uploads.connect]
  distinct := List.nodup_nil
  produced := by simp [Uploads.connect]
  own := by simp [Uploads.connect]

/-- A stream has one upload. -/
theorem Apart.eq_of_stream (h : state.Apart) (hupload : upload ∈ state.uploads)
    (hother : other ∈ state.uploads) (hstream : upload.stream = other.stream) :
    upload = other :=
  List.inj_on_of_nodup_map h.distinct hupload hother hstream

/-- The table may change where the older streams keep their bodies. -/
theorem Apart.withTable (h : state.Apart)
    (hkept : StreamStorage.KeptBelow state.nextStreamId state.table.streams table.streams) :
    Apart { state with table } where
  fresh := h.fresh
  distinct := h.distinct
  produced := h.produced
  own := by
    intro upload hupload entry hentry huse hid
    have hlt : entry.id < state.nextStreamId := hid ▸ h.fresh upload hupload
    obtain ⟨old, hold, holduse, holdid, holdbody⟩ :=
      hkept upload.index entry hentry huse hlt
    exact holdbody ▸ h.own upload hupload old hold holduse (holdid.trans hid)

/-- One upload changes, and the table. -/
theorem Apart.updateUpload (h : state.Apart) (stream : Nat) (f : Upload → Upload)
    (hstream : ∀ upload, (f upload).stream = upload.stream)
    (hupdated : ∀ upload ∈ state.uploads, upload.stream = stream →
      (f upload).produced <+: (f upload).given ∧
        ∀ entry, table.streams[(f upload).index]? = some entry → entry.inUse = true →
          entry.id = stream → (f upload).Matches entry.bodySource)
    (hothers : ∀ upload ∈ state.uploads, upload.stream ≠ stream →
      ∀ entry, table.streams[upload.index]? = some entry → entry.inUse = true →
        entry.id = upload.stream → upload.Matches entry.bodySource) :
    Apart { state.updateUpload stream f with table } := by
  refine ⟨?_, ?_, ?_, ?_⟩
  · intro upload hupload
    obtain ⟨old, hold, rfl⟩ := List.mem_map.mp hupload
    have hlt := h.fresh old hold
    split
    · exact (hstream old).symm ▸ hlt
    · exact hlt
  · have hstreams : (state.updateUpload stream f).uploads.map Upload.stream =
        state.uploads.map Upload.stream := by
      simp only [Uploads.updateUpload, List.map_map]
      refine List.map_congr_left fun upload _ => ?_
      rw [Function.comp_apply]
      split
      · exact hstream upload
      · rfl
    exact hstreams ▸ h.distinct
  · intro upload hupload
    obtain ⟨old, hold, rfl⟩ := List.mem_map.mp hupload
    by_cases hid : old.stream = stream
    · rw [if_pos hid]
      exact (hupdated old hold hid).1
    · rw [if_neg hid]
      exact h.produced old hold
  · intro upload hupload
    obtain ⟨old, hold, rfl⟩ := List.mem_map.mp hupload
    by_cases hid : old.stream = stream
    · rw [if_pos hid, hstream, hid]
      exact (hupdated old hold hid).2
    · rw [if_neg hid]
      exact hothers old hold hid

/-- A reset changes nothing that has been produced. -/
theorem Apart.resetStream (h : state.Apart) (stream : Nat) :
    (state.resetStream stream).Apart :=
  h.updateUpload stream _ (fun _ => rfl)
    (fun upload hupload hid => ⟨h.produced upload hupload, fun entry hentry huse hentryid =>
      have hmatches := h.own upload hupload entry hentry huse (hentryid.trans hid.symm)
      ⟨hmatches.append_left, hmatches.offset_eq⟩⟩)
    (fun upload hupload _ => h.own upload hupload)

theorem Apart.cancelStream (h : state.Apart) (id : Nat) : (state.cancelStream id).Apart := by
  unfold Uploads.cancelStream
  cases state.table.stream id with
  | none =>
    exact h.withTable (state.table.streams_findStreamEntry id ▸ .refl _ _)
  | some entry =>
    have hkept : StreamStorage.KeptBelow state.nextStreamId state.table.streams
        ((state.table.markDone id).releaseStreamEntry id).streams :=
      (state.table.keptBelow_markDone id).trans
        (StreamStorage.keptBelow_releaseStreamEntry _ id)
    exact (h.resetStream id).withTable hkept

theorem Apart.expireStream (h : state.Apart) (id : Nat) : (state.expireStream id).Apart := by
  unfold Uploads.expireStream
  cases state.table.stream id with
  | none =>
    exact h.withTable (state.table.streams_findStreamEntry id ▸ .refl _ _)
  | some entry =>
    dsimp only
    split
    · exact h
    · exact (h.resetStream id).withTable (state.table.keptBelow_completeStream id)

theorem Apart.resume (h : state.Apart) (id : Nat) : (state.resume id).Apart := by
  unfold Uploads.resume
  cases state.table.stream id with
  | none => exact h.cancelStream id
  | some entry =>
    dsimp only
    split
    · exact h.withTable (state.table.keptBelow_releaseStreamEntry id)
    · exact h.cancelStream id

/-! ### Submissions -/

theorem Apart.nextStream (h : state.Apart) :
    Apart { state with nextStreamId := state.nextStreamId + 2 } where
  fresh upload hupload := Nat.lt_add_right 2 (h.fresh upload hupload)
  distinct := h.distinct
  produced := h.produced
  own := h.own

/-- The upload of a new stream. -/
theorem Apart.addUpload (h : state.Apart) (hstream : upload.stream = state.nextStreamId)
    (hproduced : upload.produced = [])
    (hown : ∀ entry, state.table.streams[upload.index]? = some entry → entry.inUse = true →
      entry.id = upload.stream → upload.Matches entry.bodySource) :
    Apart { state with
      nextStreamId := state.nextStreamId + 2
      uploads := state.uploads ++ [upload] } := by
  refine ⟨?_, ?_, ?_, ?_⟩
  · intro other hother
    rcases List.mem_append.mp hother with hold | hnew
    · exact h.nextStream.fresh other hold
    · obtain rfl := List.mem_singleton.mp hnew
      exact hstream ▸ Nat.lt_add_of_pos_right (by decide)
  · rw [List.map_append, List.map_singleton]
    refine h.distinct.append (List.nodup_singleton _) ?_
    -- the streams before have smaller identifiers
    intro id hid hnew
    obtain ⟨old, hold, rfl⟩ := List.mem_map.mp hid
    rw [List.mem_singleton, hstream] at hnew
    exact absurd hnew (h.fresh old hold).ne
  · intro other hother
    rcases List.mem_append.mp hother with hold | hnew
    · exact h.produced other hold
    · obtain rfl := List.mem_singleton.mp hnew
      exact hproduced ▸ List.nil_prefix
  · intro other hother
    rcases List.mem_append.mp hother with hold | hnew
    · exact h.own other hold
    · obtain rfl := List.mem_singleton.mp hnew
      exact hown

theorem Apart.submitStream {request : Request} (h : state.Apart)
    (hshared : ∀ shared ∈ request.sharedBody, shared <+: request.bodyView)
    (callbackMode accepted : Bool) :
    (state.submitStream grow request callbackMode accepted).Apart := by
  have hopen := state.table.keptBelow_openStream grow (Nat.le_refl state.nextStreamId) request
  have hentry (hbody : request.bodyView ≠ []) :=
    state.table.opened_entry grow state.nextStreamId hbody
  simp only [Uploads.submitStream]
  rcases hresult : state.table.openStream grow state.nextStreamId request with ⟨opened, i⟩
  rw [hresult] at hopen hentry
  dsimp only at hopen hentry ⊢
  by_cases haccepted : accepted = true
  · rw [if_pos haccepted]
    -- the callback mode is set in the entry of the stream, whose body stays
    have hmode : ∀ bound, StreamStorage.KeptBelow bound opened.streams
        (if callbackMode = true then opened.updateStream state.nextStreamId fun entry =>
          { entry with callbackMode } else opened).streams := by
      intro bound
      split
      · exact opened.keptBelow_updateStream _ _ fun _ huse _ => ⟨huse, rfl, rfl⟩
      · exact .refl _ _
    have htable := h.withTable (hopen.trans (hmode _))
    by_cases hbody : request.bodyView = []
    · simp only [hbody, ne_eq, not_true_eq_false, if_false]
      exact htable.nextStream
    · simp only [hbody, ne_eq, not_false_eq_true, if_true]
      refine htable.addUpload rfl rfl fun entry hnew huse hid => ?_
      obtain ⟨old, hold, -, -, hsource⟩ :=
        hmode (entry.id + 1) i entry hnew huse (Nat.lt_succ_self _)
      obtain rfl := Option.some.inj ((hentry hbody).symm.trans hold)
      rw [← hsource]
      exact ⟨BodySource.left_ofRequest_prefix hshared, BodySource.offset_ofRequest request⟩
  · rw [if_neg haccepted]
    exact h.withTable (hopen.trans (opened.keptBelow_releaseStreamEntry _))

/-! ### Reading -/

/-- A read from the entry of the stream itself. -/
theorem Apart.readOwn (h : state.Apart) {entry : StoredStream} (hupload : upload ∈ state.uploads)
    (hentry : state.table.streams[upload.index]? = some entry) (huse : entry.inUse = true)
    (hid : entry.id = upload.stream) (length : Nat) (reading : Bool) :
    Apart { state.updateUpload upload.stream fun old =>
        { old with produced := old.produced ++ (entry.bodySource.next length).1, reading } with
      table := state.table.modifyEntry upload.index fun old =>
        { old with bodySource := (entry.bodySource.next length).2 } } := by
  have hmatches := h.own upload hupload entry hentry huse hid
  have happend : (upload.produced ++ (entry.bodySource.next length).1) ++
      (entry.bodySource.next length).2.left = upload.produced ++ entry.bodySource.left := by
    rw [List.append_assoc, BodySource.next_append_left]
  refine h.updateUpload upload.stream _ (fun _ => rfl) ?_ ?_
  · -- the upload of the stream: what was left has been split
    intro other hother hstream
    obtain rfl := h.eq_of_stream hother hupload hstream
    refine ⟨?_, fun after hafter _ _ => ⟨?_, ?_⟩⟩
    · exact (List.prefix_append _ _).trans (happend ▸ hmatches.append_left)
    all_goals
      obtain rfl : { entry with bodySource := (entry.bodySource.next length).2 } = after := by
        simpa [List.getElem?_modify, hentry] using hafter
    · exact happend ▸ hmatches.append_left
    · rw [BodySource.offset_next, hmatches.offset_eq, List.length_append]
  · -- the others have other entries
    intro other hother hstream after hafter hafteruse hafterid
    by_cases hindex : upload.index = other.index
    · obtain rfl : { entry with bodySource := (entry.bodySource.next length).2 } = after := by
        simpa [List.getElem?_modify, hindex ▸ hentry, hindex] using hafter
      exact absurd (hafterid.symm.trans hid) hstream
    · rw [StreamStorage.streams_modifyEntry, List.getElem?_modify_ne _ _ hindex] at hafter
      exact h.own other hother after hafter hafteruse hafterid

/-- A read that finds nothing, in an entry that may be another stream's. -/
theorem Apart.readNothing (h : state.Apart) (stream : Nat) (reading : Bool) :
    (state.updateUpload stream fun old =>
      { old with produced := old.produced ++ [], reading }).Apart := by
  refine h.updateUpload stream _ (fun _ => rfl) ?_ fun other hother _ => h.own other hother
  intro other hother hstream
  rw [List.append_nil]
  refine ⟨h.produced other hother, fun entry hentry huse hid => ?_⟩
  have hmatches := h.own other hother entry hentry huse (hid.trans hstream.symm)
  exact ⟨hmatches.append_left, hmatches.offset_eq⟩

theorem Apart.readData {after : Uploads} {stream length : Nat} {freed : BodySource}
    (h : state.Apart) (hown : state.PointsToOwn stream)
    (hread : state.readData stream length freed = some after) : after.Apart := by
  obtain ⟨upload, hfind, rfl⟩ := Option.map_eq_some_iff.mp hread
  have hupload := List.mem_of_find?_eq_some hfind
  have hstream : upload.stream = stream := by
    have hfound := List.find?_some hfind
    simp only [Bool.and_eq_true, decide_eq_true_eq] at hfound
    exact hfound.1
  obtain ⟨hmoves, hentries⟩ := hown upload hupload hstream
  have htarget : state.target upload freed =
      state.table.streams[upload.index]?.map StoredStream.bodySource := if_pos hmoves
  rw [htarget]
  cases hentry : state.table.streams[upload.index]? with
  | none => exact h.readNothing stream false
  | some entry =>
    simp only [Option.map_some, BodySource.onDataSourceRead, store, hmoves, if_true]
    rcases hentries entry hentry with ⟨huse, hid⟩ | hleft
    · subst hstream
      exact h.readOwn hupload hentry huse hid length _
    · -- the entry stays as it is, whosever it is
      rw [BodySource.next_of_left_eq_nil hleft]
      have hkept : StreamStorage.KeptBelow state.nextStreamId state.table.streams
          (state.table.modifyEntry upload.index fun old =>
            { old with bodySource := entry.bodySource }).streams := by
        refine StreamStorage.keptBelow_modify _ _ fun old hold huse _ => ?_
        obtain rfl := Option.some.inj (hold.symm.trans hentry)
        exact ⟨huse, rfl, rfl⟩
      exact (h.withTable hkept).readNothing stream _

/-- The step lemma: what happens to one stream leaves the uploads apart. -/
theorem Apart.step {after : Uploads} {event : BodyEvent} (h : state.Apart)
    (hreads : ReadsOwnBody state event) (hstep : state.step grow event = some after) :
    after.Apart := by
  cases event with
  | readData stream length freed => exact h.readData hreads hstep
  | submit request callbackMode accepted =>
    obtain rfl := Option.some.inj hstep
    exact h.submitStream hreads callbackMode accepted
  | endStream id =>
    obtain rfl := Option.some.inj hstep
    exact h.withTable (state.table.keptBelow_completeStream id)
  | rstStream id =>
    obtain rfl := Option.some.inj hstep
    exact (h.resetStream id).withTable (state.table.keptBelow_completeStream id)
  | expire id =>
    obtain rfl := Option.some.inj hstep
    exact h.expireStream id
  | cancel id =>
    obtain rfl := Option.some.inj hstep
    exact h.cancelStream id
  | resume id =>
    obtain rfl := Option.some.inj hstep
    exact h.resume id

end Uploads

/-! ### Runs -/

/-- Request bodies are not mixed on a connection on which every body is read from the entry
of its own stream: what is produced for a stream is a prefix of its body, and no body
advances with another. The table may hold entries of the connections before. -/
theorem bodies_never_mixed {grow : Nat → Nat} {options : SessionOptions} {table : StreamStorage}
    {events : List BodyEvent} {state : Uploads}
    (hreads : Along (Uploads.step grow) ReadsOwnBody (Uploads.connect options table) events)
    (hrun : exec (Uploads.step grow) (Uploads.connect options table) events = some state) :
    state.Unmixed := by
  have hstart : (Uploads.connect options table).Apart := .connect options table
  have hstep : ∀ (before : Uploads) (event : BodyEvent) (after : Uploads), before.Apart →
      ReadsOwnBody before event → before.step grow event = some after → after.Apart := by
    intro before event after happart hown hafter
    exact happart.step hown hafter
  have happart : state.Apart := invariant_of_along hstep hstart hreads hrun
  exact happart.unmixed

def upload (body : String) : Request := { method := str "POST", body := str body }

/-- Two bodies are read in turn. The first response ends before its upload, which goes on
before the entry is used again. -/
def earlyResponse : List BodyEvent :=
  [.submit (upload "first") true true, .submit (upload "second") false true,
    .readData 1 3 {}, .readData 3 4 {}, .readData 1 1 {}, .endStream 1, .readData 1 9 {},
    .readData 3 9 {}, .endStream 3, .resume 3, .submit (upload "third") true true,
    .readData 5 2 {}]

theorem bodies_never_mixed_earlyResponse :
    ∃ state : Uploads,
      exec (Uploads.step (2 * ·)) (Uploads.connect {} {}) earlyResponse = some state ∧
        state.uploads.map Upload.produced = [str "firs", str "second", str "th"] ∧
          state.Unmixed := by
  have hreads :
      Along (Uploads.step (2 * ·)) ReadsOwnBody (Uploads.connect {} {}) earlyResponse := by
    decide +kernel
  obtain ⟨state, hrun, hproduced⟩ :
      ∃ state, exec (Uploads.step (2 * ·)) (Uploads.connect {} {}) earlyResponse = some state ∧
        state.uploads.map Upload.produced = [str "firs", str "second", str "th"] :=
    ⟨_, rfl, by decide +kernel⟩
  exact ⟨state, hrun, hproduced, bodies_never_mixed hreads hrun⟩

/-- The response ends before the upload, the entry goes to the next request, and the engine
reads the first body on from there. -/
def reusedEntry : List BodyEvent :=
  [.submit (upload "first") true true, .readData 1 3 {}, .endStream 1,
    .submit (upload "second") true true, .readData 1 4 {}, .readData 3 9 {}]

/-- The first stream gets the beginning of the second body, the second only what remains. -/
theorem upload_reads_next_body :
    ∃ state : Uploads,
      exec (Uploads.step (2 * ·)) (Uploads.connect {} {}) reusedEntry = some state ∧
        state.uploads.map Upload.produced = [str "firseco", str "nd"] ∧
          ¬ state.Unmixed := by
  refine ⟨_, rfl, ?_, ?_⟩
  · decide +kernel
  · decide +kernel

end HttpClient.H2
