import HttpClient.H2.Uploads
import HttpClient.Semantics.Enumerates
import HttpClient.Semantics.KeyedList

/-!
# The entries of the streams and their index

The streams of a session are kept in entries that are used again. Beside the entries stand an
index, which has the position of each stream, and the list of the positions that are free. The
index is searched from its front; what is removed from it gives its place to the last element, and
an element that is out of date is dropped by the search that comes across it.

The ledger of a run has, for each stream, the position its caller was given and what has been
written there since. It is kept by the calls alone: whatever was in an entry before, a stream
starts with the initial state. The entries agree with the ledger throughout as long as no
identifier is given to two streams at once, so that the index never has an element out of date.

## Main definitions

* `StreamSlots` — the entries, the index and the free positions
* `StreamSlots.findStreamEntry`, `StreamSlots.acquireStreamEntry`,
  `StreamSlots.releaseStreamEntry`, `StreamSlots.renumber` — the operations of the source
* `SlotCall`, `SlotBook`, `SlotBook.step` — runs of the operations, with their ledger
* `Represents`, `StreamTable.call` — the streams of a session as `StreamTable` has them

## Main results

* `SlotBook.Sound.step` — one call keeps the index, the free positions and the ledger in step
* `stream_slots_sound` — runs of such calls
* `streamTable_find_eq` — what a session finds is what is in the entries
-/

set_option autoImplicit false

namespace HttpClient.H2

open Semantics Text

/-! ### Entries -/

namespace StreamSlots

/-- A response with what was measured. -/
structure MeasuredResponse extends Response where
  totalTimeSec : Float := 0.0
  namelookupTimeSec : Float := 0.0
  connectTimeSec : Float := 0.0
  appconnectTimeSec : Float := 0.0
  pretransferTimeSec : Float := 0.0
  starttransferTimeSec : Float := 0.0
  numConnects : Nat := 0
  primaryIp : Bytes := []

theorem zero_le_body : 0 ≤ ((none : Option Bytes).getD []).length := Nat.zero_le _

/-- The body of a request without one. -/
def noBody : BodySource :=
  { body := [], sharedBody := none, offset := 0, offset_le := zero_le_body }

/-- The state of a stream. The handlers are numbered; time points and durations are ticks of the
clock. -/
structure StreamState where
  response : MeasuredResponse := {}
  done : Bool := false
  storeBody : Bool := true
  storeHeaders : Bool := true
  onBodyChunk : Option Nat := none
  callbackMode : Bool := false
  bodySource : BodySource := noBody
  hasBodySource : Bool := false
  deadline : Int := 0
  writeDeadline : Int := 0
  readDeadline : Int := 0
  writeTimeout : Int := 0
  readTimeout : Int := 0
  responseStarted : Bool := false
  start : Int := 0
  handler : Option Nat := none

def StreamState.resetForReuse (state : StreamState) : StreamState :=
  { state with
    response := { state.response with
      status := 0
      body := []
      headers := []
      error := []
      finalUrl := []
      redirectCount := 0
      totalTimeSec := 0.0
      namelookupTimeSec := 0.0
      connectTimeSec := 0.0
      appconnectTimeSec := 0.0
      pretransferTimeSec := 0.0
      starttransferTimeSec := 0.0
      numConnects := 0
      httpVersion := 0
      reusedConnection := false
      primaryIp := [] }
    done := false
    storeBody := true
    storeHeaders := true
    onBodyChunk := none
    callbackMode := false
    bodySource := { body := [], sharedBody := none, offset := 0, offset_le := zero_le_body }
    hasBodySource := false
    deadline := 0
    writeDeadline := 0
    readDeadline := 0
    writeTimeout := 0
    readTimeout := 0
    responseStarted := false
    start := 0
    handler := none }

/-- Nothing of the stream before is left. -/
@[simp] theorem StreamState.resetForReuse_eq (state : StreamState) : state.resetForReuse = {} := rfl

structure StreamEntry where
  id : Int := 0
  inUse : Bool := false
  state : StreamState := {}

structure StreamIndexEntry where
  streamId : Int := 0
  index : Nat := 0
  deriving DecidableEq, Repr

end StreamSlots

/-- The entries, the index and the free positions, of which the one at the back stands first
here. -/
structure StreamSlots where
  streams : List StreamSlots.StreamEntry := []
  streamIndex : List StreamSlots.StreamIndexEntry := []
  freeStreamIndices : List Nat := []

namespace StreamSlots

/-- Drop the first index element of a stream; those behind it move up. -/
def dropStale (slots : StreamSlots) (streamId : Int) : StreamSlots :=
  { slots with
    streamIndex := slots.streamIndex.eraseP fun element => decide (element.streamId = streamId) }

/-- The position of a stream. An index element that is out of date is dropped. -/
def findStreamEntry (slots : StreamSlots) (streamId : Int) : StreamSlots × Option Nat :=
  match slots.streamIndex.find? fun element => decide (element.streamId = streamId) with
  | none => (slots, none)
  | some element =>
    match slots.streams[element.index]? with
    | none => (slots.dropStale streamId, none)
    | some entry =>
      if !entry.inUse || entry.id ≠ streamId then (slots.dropStale streamId, none)
      else (slots, some element.index)

/-- Remove the first index element of a stream, whose place the last one takes. -/
def eraseStreamIndex (slots : StreamSlots) (streamId : Int) : StreamSlots :=
  { slots with
    streamIndex := swapErase (fun element => decide (element.streamId = streamId))
      slots.streamIndex }

/-- Change the entry at a position. -/
def modifyEntry (slots : StreamSlots) (position : Nat) (f : StreamEntry → StreamEntry) :
    StreamSlots :=
  { slots with streams := slots.streams.modify position f }

/-- Take free positions until one is in fact not in use. -/
def takeFree (streams : List StreamEntry) : List Nat → Option Nat × List Nat
  | [] => (none, [])
  | index :: free =>
    if streams[index]?.any fun entry => !entry.inUse then (some index, free)
    else takeFree streams free

/-- An entry for a stream, and its position. -/
def acquireStreamEntry (slots : StreamSlots) (streamId : Int) : StreamSlots × Nat :=
  match takeFree slots.streams slots.freeStreamIndices with
  | (some index, free) =>
    ({ streams := slots.streams.modify index fun entry =>
          { id := streamId, inUse := true, state := entry.state.resetForReuse }
       streamIndex := slots.streamIndex ++ [{ streamId, index }]
       freeStreamIndices := free }, index)
  | (none, free) =>
    ({ streams := slots.streams ++ [{ id := streamId, inUse := true, state := {} }]
       streamIndex := slots.streamIndex ++ [{ streamId, index := slots.streams.length }]
       freeStreamIndices := free }, slots.streams.length)

def releaseStreamEntry (slots : StreamSlots) (streamId : Int) : StreamSlots :=
  match slots.findStreamEntry streamId with
  | (slots, none) => slots
  | (slots, some position) =>
    { (slots.eraseStreamIndex streamId).modifyEntry position fun entry =>
        { id := 0, inUse := false, state := entry.state.resetForReuse } with
      freeStreamIndices := position :: slots.freeStreamIndices }

/-- The part of `submit_stream` after the engine has assigned an identifier: the entry that was
acquired for the expected one moves to it. -/
def renumber (slots : StreamSlots) (expectedStreamId streamId : Int) : StreamSlots × Option Nat :=
  if streamId ≠ expectedStreamId then
    match slots.findStreamEntry expectedStreamId with
    | (slots, some position) =>
      let slots := (slots.eraseStreamIndex expectedStreamId).modifyEntry position fun entry =>
        { entry with id := streamId }
      ({ slots with
          streamIndex := slots.streamIndex ++ [{ streamId, index := position }] }, some position)
    | (slots, none) =>
      let (slots, position) := slots.acquireStreamEntry streamId
      (slots, some position)
  else (slots, none)

/-- The state of a stream changes in its entry, which is found before. -/
def writeStream (slots : StreamSlots) (streamId : Int) (state : StreamState) : StreamSlots :=
  match slots.findStreamEntry streamId with
  | (slots, none) => slots
  | (slots, some position) => slots.modifyEntry position fun entry => { entry with state }

end StreamSlots

/-! ### Runs -/

/-- What the caller was given for a stream, and what has been written there since. -/
structure Held where
  position : Nat
  state : StreamSlots.StreamState := {}

/-- The entries and the ledger. -/
structure SlotBook where
  slots : StreamSlots := {}
  ledger : Int → Option Held := fun _ => none

/-- The calls, for identifiers of a type. All that fails when a connection is closed is written
and released stream by stream. -/
inductive SlotCall (ι : Type) where
  | acquire (streamId : ι)
  | release (streamId : ι)
  | find (streamId : ι)
  | renumber (expectedStreamId streamId : ι)
  | write (streamId : ι) (state : StreamSlots.StreamState)

namespace SlotBook

/-- What a stream holds goes over to another identifier. -/
def transfer (book : SlotBook) (expectedStreamId streamId : Int) : Int → Option Held :=
  if streamId = expectedStreamId then book.ledger
  else
    match book.ledger expectedStreamId with
    | some held =>
      Function.update (Function.update book.ledger expectedStreamId none) streamId (some held)
    | none =>
      -- the caller is given a new entry
      Function.update book.ledger streamId
        ((book.slots.renumber expectedStreamId streamId).2.map fun position => { position })

def step (book : SlotBook) : SlotCall Int → Option SlotBook
  | .acquire streamId =>
    let (slots, position) := book.slots.acquireStreamEntry streamId
    some { slots, ledger := Function.update book.ledger streamId (some { position }) }
  | .release streamId =>
    some
      { slots := book.slots.releaseStreamEntry streamId
        ledger := Function.update book.ledger streamId none }
  | .find streamId => some { book with slots := (book.slots.findStreamEntry streamId).1 }
  | .renumber expectedStreamId streamId =>
    some
      { slots := (book.slots.renumber expectedStreamId streamId).1
        ledger := book.transfer expectedStreamId streamId }
  | .write streamId state =>
    some
      { slots := book.slots.writeStream streamId state
        ledger := Function.update book.ledger streamId
          ((book.ledger streamId).map fun held => { held with state }) }

/-- An identifier that is given to a stream is not in use. -/
def FreshCall (book : SlotBook) : SlotCall Int → Prop
  | .acquire streamId => book.ledger streamId = none
  | .renumber expectedStreamId streamId =>
    streamId ≠ expectedStreamId → book.ledger streamId = none
  | .release _ | .find _ | .write _ _ => True

instance (book : SlotBook) (call : SlotCall Int) : Decidable (book.FreshCall call) :=
  match call with
  | .acquire streamId => inferInstanceAs (Decidable (book.ledger streamId = none))
  | .renumber expectedStreamId streamId =>
    inferInstanceAs (Decidable (streamId ≠ expectedStreamId → book.ledger streamId = none))
  | .release _ | .find _ | .write _ _ => isTrue trivial

end SlotBook

/-! ### The index and the ledger -/

namespace StreamSlots

variable {slots before after : StreamSlots} {ledger : Int → Option Held} {id : Int} {held : Held}
  {position : Nat} {entry : StreamEntry}

/-- The entry at the position of an index element is in use for its stream. -/
def Holds (slots : StreamSlots) (element : StreamIndexEntry) : Prop :=
  ∃ entry, slots.streams[element.index]? = some entry ∧ entry.inUse = true ∧
    entry.id = element.streamId

/-- There is an entry at the position, and it is not in use. -/
def Unused (slots : StreamSlots) (position : Nat) : Prop :=
  ∃ entry, slots.streams[position]? = some entry ∧ entry.inUse = false

/-- The entries in use are those in the ledger. -/
def Agrees (slots : StreamSlots) (ledger : Int → Option Held) : Prop :=
  ∀ id held, ledger id = some held ↔
    slots.streams[held.position]? = some { id, inUse := true, state := held.state }

/-- The index element of a stream that holds a position. -/
def indexEntry (id : Int) (held : Held) : StreamIndexEntry :=
  { streamId := id, index := held.position }

/-- The position of an index element is that of its stream. -/
def Positioned (ledger : Int → Option Held) : StreamIndexEntry → Prop :=
  IsRecord StreamIndexEntry.streamId indexEntry ledger

theorem positioned_iff {element : StreamIndexEntry} : Positioned ledger element ↔
    ∃ held, ledger element.streamId = some held ∧ held.position = element.index := by
  rw [Positioned, isRecord_iff]
  refine exists_congr fun held => and_congr_right fun _ => ?_
  exact ⟨congrArg StreamIndexEntry.index, fun heq => by rw [indexEntry, heq]⟩

theorem Agrees.holds_iff (h : slots.Agrees ledger) {element : StreamIndexEntry} :
    slots.Holds element ↔ Positioned ledger element := by
  rw [positioned_iff]
  constructor
  · rintro ⟨⟨entryId, inUse, state⟩, hentry, huse, hid⟩
    obtain rfl : inUse = true := huse
    obtain rfl : entryId = element.streamId := hid
    exact ⟨{ position := element.index, state }, (h _ _).mpr hentry, rfl⟩
  · rintro ⟨held, hheld, hposition⟩
    exact ⟨_, hposition ▸ (h _ _).mp hheld, rfl, rfl⟩

/-- No two streams have one position. -/
theorem Agrees.eq_of_position (h : slots.Agrees ledger) {id' : Int} {held' : Held}
    (hheld : ledger id = some held) (hheld' : ledger id' = some held')
    (hposition : held'.position = held.position) : id' = id ∧ held' = held := by
  have hentry := (h _ _).mp hheld
  have hentry' := (h _ _).mp hheld'
  rw [hposition, hentry] at hentry'
  obtain ⟨hid, -, hstate⟩ := StreamEntry.mk.inj (Option.some.inj hentry')
  obtain ⟨position, state⟩ := held
  obtain ⟨position', state'⟩ := held'
  obtain rfl : position' = position := hposition
  obtain rfl : state = state' := hstate
  exact ⟨hid.symm, rfl⟩

/-- A search of the index finds the position in the ledger. -/
theorem find?_streamIndex (h : Enumerates slots.streamIndex (Positioned ledger)) (id : Int) :
    slots.streamIndex.find? (fun element => decide (element.streamId = id)) =
      (ledger id).map (indexEntry id) :=
  h.find?_record (fun _ _ => rfl) id

/-- A stream that is removed leaves the index. -/
theorem enumerates_swapErase (h : Enumerates slots.streamIndex (Positioned ledger))
    (hheld : ledger id = some held) :
    Enumerates (swapErase (fun element => decide (element.streamId = id)) slots.streamIndex)
      (Positioned (Function.update ledger id none)) := by
  have hfind := find?_streamIndex h id
  rw [hheld, Option.map_some] at hfind
  exact (h.of_perm (perm_swapErase hfind)).tail_record fun _ _ => rfl

/-- A stream that is added comes last in the index. -/
theorem enumerates_concat {index : List StreamIndexEntry} (h : Enumerates index (Positioned ledger))
    (hnone : ledger id = none) (held : Held) :
    Enumerates (index ++ [indexEntry id held])
      (Positioned (Function.update ledger id (some held))) :=
  h.concat_record (fun _ _ => rfl) hnone held

/-- What is written into the entry of a stream leaves its position. -/
theorem positioned_write (hheld : ledger id = some held) (state : StreamState)
    {element : StreamIndexEntry} :
    Positioned ledger element ↔
      Positioned (Function.update ledger id (some { held with state })) element := by
  by_cases hid : element.streamId = id
  · rw [Positioned, Positioned, isRecord_update_self hid, IsRecord, hid, hheld]
    rfl
  · exact (isRecord_update_of_ne hid).symm

/-! ### One entry changes -/

/-- There is one other entry, at a position. -/
def Puts (before after : List StreamEntry) (position : Nat) (entry : StreamEntry) : Prop :=
  ∀ other, after[other]? = if other = position then some entry else before[other]?

theorem puts_modify {streams : List StreamEntry} (f : StreamEntry → StreamEntry)
    (h : streams[position]? = some entry) :
    Puts streams (streams.modify position f) position (f entry) := by
  intro other
  by_cases hother : other = position
  · subst hother
    rw [if_pos rfl, List.getElem?_modify_eq, h]
    rfl
  · rw [if_neg hother, List.getElem?_modify_ne _ _ (Ne.symm hother)]

theorem puts_concat (streams : List StreamEntry) (entry : StreamEntry) :
    Puts streams (streams ++ [entry]) streams.length entry := by
  intro other
  by_cases hother : other = streams.length
  · subst hother
    rw [if_pos rfl, List.getElem?_concat_length]
  · rw [if_neg hother]
    by_cases hlt : other < streams.length
    · exact List.getElem?_append_left hlt
    · have hout : (streams ++ [entry]).length ≤ other := by
        rw [List.length_append, List.length_singleton]
        omega
      rw [List.getElem?_eq_none hout, List.getElem?_eq_none (Nat.le_of_not_lt hlt)]

theorem Puts.unused_iff (h : Puts before.streams after.streams position entry) {other : Nat} :
    after.Unused other ↔
      (other = position ∧ entry.inUse = false) ∨ (other ≠ position ∧ before.Unused other) := by
  rw [Unused, h other]
  by_cases hother : other = position
  · simp [hother]
  · simp [hother, Unused]

theorem not_unused (h : slots.streams[position]? = some entry) (huse : entry.inUse = true) :
    ¬ slots.Unused position := by
  rintro ⟨entry', hentry', hfree⟩
  obtain rfl := Option.some.inj (h.symm.trans hentry')
  exact Bool.false_ne_true (hfree.symm.trans huse)

/-- A position in use stays in use. -/
theorem Puts.unused_congr {old : StreamEntry}
    (h : Puts before.streams after.streams position entry) (huse : entry.inUse = true)
    (hold : before.streams[position]? = some old) (holduse : old.inUse = true) (other : Nat) :
    before.Unused other ↔ after.Unused other := by
  rw [h.unused_iff, huse]
  constructor
  · exact fun hother => Or.inr ⟨fun heq => not_unused hold holduse (heq ▸ hother), hother⟩
  · rintro (⟨-, hfalse⟩ | hother)
    · exact absurd hfalse.symm Bool.false_ne_true
    · exact hother.2

/-- A position is given to a stream that had none, or it is its own. -/
theorem Agrees.put (h : before.Agrees ledger)
    (hput : Puts before.streams after.streams held.position
      { id, inUse := true, state := held.state })
    (hown : ∀ id' held', ledger id' = some held' → (id' = id ↔ held'.position = held.position)) :
    after.Agrees (Function.update ledger id (some held)) := by
  intro id' held'
  rw [hput]
  by_cases hid : id' = id
  · subst hid
    rw [Function.update_self, Option.some.injEq]
    split
    · rename_i hposition
      obtain ⟨position, state⟩ := held
      obtain ⟨position', state'⟩ := held'
      obtain rfl : position' = position := hposition
      simp
    · rename_i hposition
      refine iff_of_false (fun heq => hposition (congrArg Held.position heq.symm)) fun hentry => ?_
      exact hposition ((hown id' held' ((h id' held').mpr hentry)).mp rfl)
  · rw [Function.update_of_ne hid]
    split
    · rename_i hposition
      refine iff_of_false (fun hheld => hid ((hown id' held' hheld).mpr hposition)) fun hentry => ?_
      exact hid (StreamEntry.mk.inj (Option.some.inj hentry)).1.symm
    · exact h id' held'

/-- The position of a stream is given back. -/
theorem Agrees.clear (h : before.Agrees ledger) (hheld : ledger id = some held)
    (hput : Puts before.streams after.streams held.position entry) (hfree : entry.inUse = false) :
    after.Agrees (Function.update ledger id none) := by
  intro id' held'
  rw [hput]
  by_cases hposition : held'.position = held.position
  · rw [if_pos hposition]
    refine iff_of_false (fun hheld' => ?_) fun hentry => ?_
    · by_cases hid : id' = id
      · rw [hid, Function.update_self] at hheld'
        exact absurd hheld' (Option.some_ne_none held').symm
      · rw [Function.update_of_ne hid] at hheld'
        exact hid (h.eq_of_position hheld hheld' hposition).1
    · rw [Option.some.inj hentry] at hfree
      exact Bool.false_ne_true hfree.symm
  · rw [if_neg hposition, ← h id' held']
    by_cases hid : id' = id
    · rw [hid, Function.update_self, hheld]
      refine iff_of_false (Option.some_ne_none held').symm fun heq => ?_
      exact hposition (congrArg Held.position (Option.some.inj heq)).symm
    · rw [Function.update_of_ne hid]

/-! ### The operations -/

/-- A stream is found where the ledger has it, and no index element is dropped. -/
theorem findStreamEntry_eq (hindex : Enumerates slots.streamIndex (Positioned ledger))
    (h : slots.Agrees ledger) (id : Int) :
    slots.findStreamEntry id = (slots, (ledger id).map Held.position) := by
  rw [findStreamEntry, find?_streamIndex hindex]
  cases hheld : ledger id with
  | none => rfl
  | some held =>
    rw [Option.map_some, Option.map_some]
    dsimp only [indexEntry]
    rw [(h id held).mp hheld]
    simp

/-- What an acquisition gives the caller. -/
structure Acquired (slots : StreamSlots) (id : Int) (result : StreamSlots × Nat) : Prop where
  puts : Puts slots.streams result.1.streams result.2 { id, inUse := true }
  index : result.1.streamIndex = slots.streamIndex ++ [{ streamId := id, index := result.2 }]
  wasFree : ∀ entry, slots.streams[result.2]? = some entry → entry.inUse = false
  free : Enumerates result.1.freeStreamIndices fun position =>
    slots.Unused position ∧ position ≠ result.2

theorem acquired_acquireStreamEntry (h : Enumerates slots.freeStreamIndices slots.Unused)
    (id : Int) : Acquired slots id (slots.acquireStreamEntry id) := by
  rw [acquireStreamEntry]
  cases hfree : slots.freeStreamIndices with
  | nil =>
    rw [hfree] at h
    have hnone : ∀ entry, ¬ slots.streams[slots.streams.length]? = some entry := by simp
    exact
      { puts := puts_concat slots.streams _
        index := rfl
        wasFree := fun entry hentry => absurd hentry (hnone entry)
        free := h.congr fun position => by
          refine (and_iff_left_of_imp ?_).symm
          rintro ⟨entry, hentry, -⟩ rfl
          exact hnone entry hentry }
  | cons index free =>
    -- what is listed as free is free, so that no position is passed over
    rw [hfree] at h
    obtain ⟨⟨entry, hentry, huse⟩, hrest⟩ := enumerates_cons_iff.mp h
    have htake : takeFree slots.streams (index :: free) = (some index, free) := by
      rw [takeFree, hentry, if_pos]
      simp [huse]
    rw [htake]
    exact
      { puts := puts_modify _ hentry
        index := rfl
        wasFree := fun entry' hentry' => by
          obtain rfl := Option.some.inj (hentry.symm.trans hentry')
          exact huse
        free := hrest }

section Found

variable (hfind : slots.findStreamEntry id = (slots, some position))
  (hentry : slots.streams[position]? = some entry)

include hfind hentry

theorem releaseStreamEntry_found :
    Puts slots.streams (slots.releaseStreamEntry id).streams position {} ∧
      (slots.releaseStreamEntry id).streamIndex =
        swapErase (fun element => decide (element.streamId = id)) slots.streamIndex ∧
      (slots.releaseStreamEntry id).freeStreamIndices = position :: slots.freeStreamIndices := by
  rw [releaseStreamEntry, hfind]
  exact ⟨puts_modify _ hentry, rfl, rfl⟩

theorem renumber_found {id' : Int} (hne : id' ≠ id) :
    Puts slots.streams (slots.renumber id id').1.streams position { entry with id := id' } ∧
      (slots.renumber id id').1.streamIndex =
        swapErase (fun element => decide (element.streamId = id)) slots.streamIndex ++
          [{ streamId := id', index := position }] ∧
      (slots.renumber id id').1.freeStreamIndices = slots.freeStreamIndices := by
  rw [renumber, if_pos hne, hfind]
  exact ⟨puts_modify _ hentry, rfl, rfl⟩

theorem writeStream_found (state : StreamState) :
    Puts slots.streams (slots.writeStream id state).streams position { entry with state } ∧
      (slots.writeStream id state).streamIndex = slots.streamIndex ∧
      (slots.writeStream id state).freeStreamIndices = slots.freeStreamIndices := by
  rw [writeStream, hfind]
  exact ⟨puts_modify _ hentry, rfl, rfl⟩

end Found

end StreamSlots

namespace SlotBook

open StreamSlots

/-- The index has the streams in use, the free positions are those of the others, and the
entries are what the ledger has. -/
structure Sound (book : SlotBook) : Prop where
  index : Enumerates book.slots.streamIndex (Positioned book.ledger)
  free : Enumerates book.slots.freeStreamIndices book.slots.Unused
  agrees : book.slots.Agrees book.ledger

variable {book : SlotBook} {id : Int} {held : Held}

theorem sound_initial : Sound {} where
  index := .nil fun element helement => helement.ne_none rfl
  free := .nil fun position => by
    rintro ⟨entry, hentry, -⟩
    exact absurd hentry (by simp)
  agrees id held := iff_of_false (Option.some_ne_none held).symm (by simp)

namespace Sound

theorem findStreamEntry (h : book.Sound) (id : Int) :
    book.slots.findStreamEntry id = (book.slots, (book.ledger id).map Held.position) :=
  findStreamEntry_eq h.index h.agrees id

theorem acquire (h : book.Sound) (hnone : book.ledger id = none) :
    Sound
      { slots := (book.slots.acquireStreamEntry id).1
        ledger := Function.update book.ledger id
          (some { position := (book.slots.acquireStreamEntry id).2 }) } := by
  have hacquired := acquired_acquireStreamEntry h.free id
  refine ⟨?_, hacquired.free.congr fun position => ?_, h.agrees.put hacquired.puts ?_⟩
  · rw [hacquired.index]
    exact enumerates_concat h.index hnone { position := (book.slots.acquireStreamEntry id).2 }
  · rw [hacquired.puts.unused_iff]
    simp [and_comm]
  · -- the position belongs to no stream
    intro id' held' hheld'
    refine iff_of_false (fun hid => ?_) fun hposition => ?_
    · rw [hid, hnone] at hheld'
      exact absurd hheld' (Option.some_ne_none held').symm
    · have hentry := (h.agrees id' held').mp hheld'
      rw [hposition] at hentry
      exact Bool.false_ne_true (hacquired.wasFree _ hentry).symm

theorem release (h : book.Sound) (id : Int) :
    Sound
      { slots := book.slots.releaseStreamEntry id
        ledger := Function.update book.ledger id none } := by
  have hfind := h.findStreamEntry id
  cases hheld : book.ledger id with
  | none =>
    have hsame : Function.update book.ledger id none = book.ledger := by
      rw [← hheld, Function.update_eq_self]
    rw [hheld] at hfind
    rw [releaseStreamEntry, hfind, hsame]
    exact h
  | some held =>
    rw [hheld] at hfind
    have hentry := (h.agrees id held).mp hheld
    obtain ⟨hput, hindex, hfree⟩ := releaseStreamEntry_found hfind hentry
    refine ⟨?_, ?_, h.agrees.clear hheld hput rfl⟩
    · rw [hindex]
      exact enumerates_swapErase h.index hheld
    · -- the position was in use until then
      rw [hfree]
      refine (h.free.cons (not_unused hentry rfl)).congr fun position => ?_
      rw [hput.unused_iff]
      by_cases hposition : position = held.position
      · simp [hposition]
      · simp [hposition]

/-- The entry of one stream becomes that of another, which has none. -/
theorem transfer (h : book.Sound) {id' : Int} (hne : id' ≠ id) (hheld : book.ledger id = some held)
    (hnone : book.ledger id' = none) :
    Sound
      { slots := (book.slots.renumber id id').1
        ledger := Function.update (Function.update book.ledger id none) id' (some held) } := by
  have hfind := h.findStreamEntry id
  rw [hheld] at hfind
  have hentry := (h.agrees id held).mp hheld
  obtain ⟨hput, hindex, hfree⟩ := renumber_found hfind hentry hne
  have hnone' : Function.update book.ledger id none id' = none := by
    rw [Function.update_of_ne hne, hnone]
  refine ⟨?_, ?_, ?_⟩
  · rw [hindex]
    exact enumerates_concat (enumerates_swapErase h.index hheld) hnone' held
  · rw [hfree]
    exact h.free.congr (hput.unused_congr rfl hentry rfl)
  · -- in between, the position belongs to no stream
    have hclear : Puts book.slots.streams
        (book.slots.modifyEntry held.position fun _ => {}).streams held.position {} :=
      puts_modify _ hentry
    have hagain : Puts (book.slots.modifyEntry held.position fun _ => {}).streams
        (book.slots.renumber id id').1.streams held.position
        { id := id', inUse := true, state := held.state } := by
      intro other
      rw [hput other]
      split
      · rfl
      · rename_i hother
        rw [hclear other, if_neg hother]
    have hagrees := h.agrees.clear hheld hclear rfl
    refine hagrees.put hagain fun id'' held'' hheld'' => iff_of_false (fun hid => ?_) fun hpos => ?_
    · rw [hid, hnone'] at hheld''
      exact absurd hheld'' (Option.some_ne_none held'').symm
    · have hempty := (hagrees id'' held'').mp hheld''
      rw [hpos, hclear held.position, if_pos rfl] at hempty
      exact Bool.false_ne_true (congrArg StreamSlots.StreamEntry.inUse (Option.some.inj hempty))

theorem write (h : book.Sound) (id : Int) (state : StreamSlots.StreamState) :
    Sound
      { slots := book.slots.writeStream id state
        ledger := Function.update book.ledger id
          ((book.ledger id).map fun held => { held with state }) } := by
  have hfind := h.findStreamEntry id
  cases hheld : book.ledger id with
  | none =>
    have hsame : Function.update book.ledger id none = book.ledger := by
      rw [← hheld, Function.update_eq_self]
    rw [hheld] at hfind
    rw [writeStream, hfind, Option.map_none]
    dsimp only
    rw [Option.map_none, hsame]
    exact h
  | some held =>
    rw [hheld] at hfind
    have hentry := (h.agrees id held).mp hheld
    obtain ⟨hput, hindex, hfree⟩ := writeStream_found hfind hentry state
    rw [Option.map_some]
    refine ⟨?_, ?_, h.agrees.put hput fun id' held' hheld' => ⟨fun hid => ?_, fun hpos => ?_⟩⟩
    · rw [hindex]
      exact h.index.congr fun element => positioned_write hheld state
    · rw [hfree]
      exact h.free.congr (hput.unused_congr rfl hentry rfl)
    · rw [hid, hheld] at hheld'
      rw [← Option.some.inj hheld']
    · exact (h.agrees.eq_of_position hheld hheld' hpos).1

/-- One call. -/
theorem step (h : book.Sound) {call : SlotCall Int} (hfresh : book.FreshCall call)
    {after : SlotBook}
    (hstep : book.step call = some after) : after.Sound := by
  cases call with
  | acquire streamId =>
    obtain rfl := Option.some.inj hstep
    exact h.acquire hfresh
  | release streamId =>
    obtain rfl := Option.some.inj hstep
    exact h.release streamId
  | find streamId =>
    obtain rfl := Option.some.inj hstep
    rw [h.findStreamEntry]
    exact h
  | renumber expectedStreamId streamId =>
    obtain rfl := Option.some.inj hstep
    rw [SlotBook.transfer]
    by_cases hne : streamId ≠ expectedStreamId
    · rw [if_neg hne]
      have hnone := hfresh hne
      cases hheld : book.ledger expectedStreamId with
      | some held => exact h.transfer hne hheld hnone
      | none =>
        -- without an entry for the identifier that was expected, a new one is taken
        have hfind := h.findStreamEntry expectedStreamId
        rw [hheld] at hfind
        rw [renumber, if_pos hne, hfind]
        exact h.acquire hnone
    · rw [if_pos (not_not.mp hne), renumber, if_neg hne]
      exact h
  | write streamId state =>
    obtain rfl := Option.some.inj hstep
    exact h.write streamId state

end Sound

end SlotBook

open StreamSlots in
/-- In every run in which no identifier in use is given to another stream, the index has one
element for each entry in use, with its identifier and position, and the free list has every other
position once. A stream is found at the position its caller was given, with what has been written
there since, and no other is found. An entry that is used again starts with the initial state. -/
theorem stream_slots_sound {calls : List (SlotCall Int)} {book : SlotBook}
    (hfresh : Along SlotBook.step SlotBook.FreshCall {} calls)
    (hexec : exec SlotBook.step {} calls = some book) :
    Enumerates book.slots.streamIndex book.slots.Holds ∧
      Enumerates book.slots.freeStreamIndices book.slots.Unused ∧
      (∀ id, book.slots.findStreamEntry id = (book.slots, (book.ledger id).map Held.position)) ∧
      (∀ id held, book.ledger id = some held →
        book.slots.streams[held.position]? =
          some { id, inUse := true, state := held.state }) ∧
      ∀ id, (book.slots.acquireStreamEntry id).1.streams[(book.slots.acquireStreamEntry id).2]? =
        some { id, inUse := true, state := {} } := by
  have h : book.Sound :=
    invariant_of_along (fun _ _ _ h hok hstep => h.step hok hstep) SlotBook.sound_initial hfresh
      hexec
  refine ⟨h.index.congr fun element => h.agrees.holds_iff.symm, h.free, h.findStreamEntry, ?_, ?_⟩
  · exact fun id held hheld => (h.agrees id held).mp hheld
  · intro id
    rw [(acquired_acquireStreamEntry h.free id).puts, if_pos rfl]

/-- Two streams, of which the first is released and its entry given to a third, while the second
gets another identifier. -/
def reusingCalls : List (SlotCall Int) :=
  [.acquire 1, .acquire 3, .write 1 { done := true }, .release 1, .renumber 3 5, .acquire 7]

theorem stream_slots_sound_reused : ∃ book, exec SlotBook.step {} reusingCalls = some book ∧
    book.slots.findStreamEntry 7 = (book.slots, some 0) ∧
    book.slots.findStreamEntry 5 = (book.slots, some 1) ∧
    book.slots.findStreamEntry 3 = (book.slots, none) := by
  have hfresh : Along SlotBook.step SlotBook.FreshCall {} reusingCalls := by decide
  obtain ⟨-, -, hfind, -⟩ := stream_slots_sound hfresh rfl
  exact ⟨_, rfl, hfind 7, hfind 5, hfind 3⟩

/-! ### The streams of a session -/

/-- An entry as a session has it. -/
def Held.listed (id : Nat) (held : Held) : StreamEntry :=
  { id
    done := held.state.done
    callbackMode := held.state.callbackMode
    handler := held.state.handler }

def StreamEntry.written (state : StreamSlots.StreamState) (entry : StreamEntry) : StreamEntry :=
  { entry with
    done := state.done
    callbackMode := state.callbackMode
    handler := state.handler }

/-- The session has the streams of the ledger. -/
def Represents (ledger : Int → Option Held) (table : StreamTable) : Prop :=
  Enumerates table.entries (IsRecord StreamEntry.id Held.listed fun id : Nat => ledger id)

/-- The calls as operations of a session. -/
def StreamTable.call (table : StreamTable) : SlotCall Nat → StreamTable
  | .acquire streamId => table.acquireEntry streamId
  | .release streamId => table.releaseEntry streamId
  | .find _ => table
  | .renumber expectedStreamId streamId => table.renumber expectedStreamId streamId
  | .write streamId state =>
    table.update streamId (StreamEntry.written state)

/-- The identifiers a session assigns are not negative. -/
def SlotCall.cast : SlotCall Nat → SlotCall Int
  | .acquire streamId => .acquire streamId
  | .release streamId => .release streamId
  | .find streamId => .find streamId
  | .renumber expectedStreamId streamId => .renumber expectedStreamId streamId
  | .write streamId state => .write streamId state

/-- An identifier is given to a stream that is there, and is not in use. -/
def SlotBook.SubmittedCall (book : SlotBook) (call : SlotCall Int) : Prop :=
  book.FreshCall call ∧ ∀ expectedStreamId streamId, call = .renumber expectedStreamId streamId →
    streamId ≠ expectedStreamId → book.ledger expectedStreamId ≠ none

section Represents

variable {id : Nat}

theorem updateFirst_eq_modify (id : Nat) (f : StreamEntry → StreamEntry)
    (entries : List StreamEntry) :
    StreamTable.updateFirst id f entries = KeyedList.modify StreamEntry.id id f entries := by
  induction entries with
  | nil => rfl
  | cons entry entries ih => rw [StreamTable.updateFirst, KeyedList.modify, ih]

variable {ledger : Int → Option Held} {table : StreamTable}

theorem natCast_injective : Function.Injective fun id : Nat => (id : Int) :=
  fun _ _ h => Int.ofNat_inj.mp h

theorem update_natCast (ledger : Int → Option Held) (id : Nat) (o : Option Held) :
    (fun other : Nat => Function.update ledger (id : Int) o other) =
      Function.update (fun other : Nat => ledger other) id o :=
  Function.update_comp_eq_of_injective ledger natCast_injective id o

theorem update_none {id : Int} (h : ledger id = none) :
    Function.update ledger id none = ledger := by
  rw [← h, Function.update_eq_self]

namespace Represents

theorem find (h : Represents ledger table) (id : Nat) :
    table.find id = (ledger id).map (Held.listed id) :=
  h.find?_record (fun _ _ => rfl) id

theorem acquire (h : Represents ledger table) (hnone : ledger id = none) (position : Nat) :
    Represents (Function.update ledger (id : Int) (some { position })) (table.acquireEntry id) := by
  rw [Represents, update_natCast]
  exact h.concat_record (fun _ _ => rfl) hnone { position }

/-- A release leaves the other streams. -/
theorem release (h : Represents ledger table) (id : Nat) :
    Represents (Function.update ledger (id : Int) none) (table.releaseEntry id) := by
  have hfind := h.find id
  cases hheld : ledger id with
  | none =>
    rw [hheld] at hfind
    have hsame : table.releaseEntry id = table := by
      rw [StreamTable.releaseEntry]
      exact congrArg (fun entries => { table with entries }) (KeyedList.remove_eq_self hfind)
    rw [update_none hheld, hsame]
    exact h
  | some held =>
    rw [hheld] at hfind
    rw [Represents, update_natCast]
    exact (h.of_perm (KeyedList.perm_remove hfind)).tail_record fun _ _ => rfl

/-- An update makes the stream what another identifier holds from then on. -/
theorem update (h : Represents ledger table) {held held' : Held} {id' : Nat}
    (hheld : ledger id = some held) (hnone : id' ≠ id → ledger id' = none)
    {f : StreamEntry → StreamEntry} (hf : f (held.listed id) = held'.listed id') :
    Represents (Function.update (Function.update ledger (id : Int) none) (id' : Int) (some held'))
      (table.update id f) := by
  have hfind := h.find id
  rw [hheld] at hfind
  have hperm := KeyedList.perm_modify hfind f
  rw [← updateFirst_eq_modify, hf] at hperm
  have hothers := h.release id
  rw [Represents, update_natCast]
  have hfree : Function.update ledger (id : Int) none (id' : Int) = none := by
    by_cases hid : id' = id
    · rw [hid, Function.update_self]
    · rw [Function.update_of_ne (natCast_injective.ne hid), hnone hid]
  refine (hothers.concat_record (fun _ _ => rfl) hfree held').of_perm ?_
  exact (List.perm_append_singleton _ _).trans hperm.symm

/-- One call. -/
theorem step {book after : SlotBook} (h : Represents book.ledger table) {call : SlotCall Nat}
    (hok : book.SubmittedCall call.cast)
    (hstep : book.step call.cast = some after) :
    Represents after.ledger (table.call call) := by
  obtain ⟨hfresh, hthere⟩ := hok
  cases call with
  | acquire streamId =>
    obtain rfl := Option.some.inj hstep
    exact h.acquire hfresh _
  | release streamId =>
    obtain rfl := Option.some.inj hstep
    exact h.release streamId
  | find streamId =>
    obtain rfl := Option.some.inj hstep
    exact h
  | renumber expectedStreamId streamId =>
    obtain rfl := Option.some.inj hstep
    change Represents (book.transfer expectedStreamId streamId)
      (table.renumber expectedStreamId streamId)
    rw [SlotBook.transfer, StreamTable.renumber]
    by_cases hid : streamId = expectedStreamId
    · rw [if_pos hid, if_pos (congrArg _ hid)]
      exact h
    · have hne : (streamId : Int) ≠ expectedStreamId := natCast_injective.ne hid
      rw [if_neg hid, if_neg hne]
      cases hheld : book.ledger expectedStreamId with
      | none => exact absurd hheld (hthere _ _ rfl hne)
      | some held => exact h.update hheld (fun _ => hfresh hne) rfl
  | write streamId state =>
    obtain rfl := Option.some.inj hstep
    change Represents (Function.update book.ledger (streamId : Int)
      ((book.ledger streamId).map fun held => { held with state })) (table.update streamId _)
    cases hheld : book.ledger streamId with
    | none =>
      have hfind := h.find streamId
      rw [hheld] at hfind
      rw [Option.map_none, update_none hheld, StreamTable.update, updateFirst_eq_modify,
        KeyedList.modify_eq_self hfind]
      exact h
    | some held =>
      have hwritten : (held.listed streamId).written state =
          Held.listed streamId { held with state } := rfl
      have hupdate := h.update hheld (fun hne => absurd rfl hne) hwritten
      rw [Function.update_idem] at hupdate
      exact hupdate

/-- A run of calls. -/
theorem run {book after : SlotBook} (h : Represents book.ledger table) {calls : List (SlotCall Nat)}
    (hok : Along SlotBook.step SlotBook.SubmittedCall book (calls.map SlotCall.cast))
    (hexec : exec SlotBook.step book (calls.map SlotCall.cast) = some after) :
    Represents after.ledger (calls.foldl StreamTable.call table) := by
  induction calls generalizing book table with
  | nil =>
    obtain rfl := Option.some.inj hexec
    exact h
  | cons call calls ih =>
    obtain ⟨next, hnext, hrest⟩ := exec_cons_eq_some.mp hexec
    exact ih (h.step hok.1 hnext) (hok.2 next hnext) hrest

end Represents

/-- What a session finds for a stream is what is in its entry. -/
theorem streamTable_find_eq {calls : List (SlotCall Nat)} {book : SlotBook}
    (hok : Along SlotBook.step SlotBook.SubmittedCall {} (calls.map SlotCall.cast))
    (hexec : exec SlotBook.step {} (calls.map SlotCall.cast) = some book)
    (id : Nat) :
    (calls.foldl StreamTable.call {}).find id =
      (book.slots.findStreamEntry id).2.bind fun position =>
        book.slots.streams[position]?.map fun entry =>
          Held.listed id { position, state := entry.state } := by
  have hrepresents : Represents (SlotBook.ledger {}) {} := .nil fun entry h => h.ne_none rfl
  have hsound : book.Sound :=
    invariant_of_along (fun _ _ _ h hok hstep => h.step hok.1 hstep) SlotBook.sound_initial hok
      hexec
  rw [(hrepresents.run hok hexec).find, hsound.findStreamEntry]
  cases hheld : book.ledger id with
  | none => rfl
  | some held =>
    rw [Option.map_some, Option.map_some, Option.bind_some, (hsound.agrees _ _).mp hheld]
    rfl

end Represents

end HttpClient.H2
