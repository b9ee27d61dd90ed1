import HttpClient.H2.StreamSlots

/-!
# The streams of the uploads

The uploads of a session are kept in the entries of its streams. `StreamStorage` has the bodies
that are sent and where the storage moves, `StreamSlots` all of the state of a stream. Both find,
take and release the same entries, so that what holds of the index of the one holds of the other.

## Main definitions

* `StreamStorage.SameSlots` — the same streams are in the same entries
* `StreamStorage.call` — the calls of a run, as operations on the bodies

## Main results

* `StreamStorage.SameSlots.step`, `StreamStorage.SameSlots.run` — the two stay alike
* `storage_find_eq` — an upload is found where its caller was given it
-/

set_option autoImplicit false

namespace HttpClient.H2

open Semantics

/-! ### Two tables of one session -/

/-- Which stream an entry is for, whatever is in it. -/
def StoredStream.owner (entry : StoredStream) : Int × Bool := (entry.id, entry.inUse)

def StreamSlots.StreamEntry.owner (entry : StreamSlots.StreamEntry) : Int × Bool :=
  (entry.id, entry.inUse)

def StreamIndexEntry.cast (element : StreamIndexEntry) : StreamSlots.StreamIndexEntry :=
  { streamId := element.streamId, index := element.index }

/-- A table with the bodies of the streams has the entries of one with all of their state. -/
structure StreamStorage.SameSlots (table : StreamStorage) (slots : StreamSlots) : Prop where
  streams : slots.streams.map StreamSlots.StreamEntry.owner = table.streams.map StoredStream.owner
  streamIndex : slots.streamIndex = table.streamIndex.map StreamIndexEntry.cast
  freeStreamIndices : slots.freeStreamIndices = table.freeStreamIndices

def StoredStream.written (state : StreamSlots.StreamState) (entry : StoredStream) : StoredStream :=
  { entry with
    done := state.done
    callbackMode := state.callbackMode
    bodySource := state.bodySource }

namespace StreamStorage

/-- The calls as operations of a table with bodies. There every stream has the identifier its
caller expects. -/
def call (grow : Nat → Nat) (table : StreamStorage) : SlotCall Nat → StreamStorage
  | .acquire streamId => (table.acquireStreamEntry grow streamId).1
  | .release streamId => table.releaseStreamEntry streamId
  | .find streamId => (table.findStreamEntry streamId).1
  | .renumber _ _ => table
  | .write streamId state =>
    table.updateStream streamId (StoredStream.written state)

end StreamStorage

/-- The engine assigns the identifier that is expected. -/
def SlotCall.Expected : SlotCall Nat → Prop
  | .renumber expectedStreamId streamId => streamId = expectedStreamId
  | .acquire _ | .release _ | .find _ | .write _ _ => True

/-- Entries with the same images that are changed in the same way have the same images. -/
theorem map_modify_eq {α β γ : Type} {k : α → γ} {k' : β → γ} {f : α → α} {f' : β → β}
    (hf : ∀ a b, k a = k' b → k (f a) = k' (f' b)) {l : List α} {l' : List β}
    (h : l.map k = l'.map k') (i : Nat) : (l.modify i f).map k = (l'.modify i f').map k' := by
  induction l generalizing l' i with
  | nil =>
    obtain rfl := List.map_eq_nil_iff.mp h.symm
    rw [List.modify_nil, List.modify_nil]
    rfl
  | cons a l ih =>
    obtain ⟨b, l', rfl, hab, hl⟩ := List.map_eq_cons_iff.mp h.symm
    cases i with
    | zero =>
      rw [List.modify_zero_cons, List.modify_zero_cons, List.map_cons, List.map_cons,
        hf a b hab.symm, hl]
    | succ i =>
      rw [List.modify_succ_cons, List.modify_succ_cons, List.map_cons, List.map_cons, hab,
        ih hl.symm]

/-- The test of the source, as one condition on the entry. -/
theorem StreamSlots.findStreamEntry_eq_any (slots : StreamSlots) (id : Int) :
    slots.findStreamEntry id =
      match slots.streamIndex.find? fun element => decide (element.streamId = id) with
      | none => (slots, none)
      | some element =>
        if slots.streams[element.index]?.any fun entry => entry.owner == (id, true) then
          (slots, some element.index)
        else (slots.dropStale id, none) := by
  rw [findStreamEntry]
  cases slots.streamIndex.find? fun element => decide (element.streamId = id) with
  | none => rfl
  | some element =>
    cases hentry : slots.streams[element.index]? with
    | none => simp [hentry]
    | some entry =>
      obtain ⟨entryId, inUse, state⟩ := entry
      cases inUse <;> by_cases hid : entryId = id <;>
        simp [hentry, StreamEntry.owner, hid]

/-! ### The operations -/

namespace StreamStorage

theorem holds_eq (table : StreamStorage) (i id : Nat) :
    table.holds i id = table.streams[i]?.any fun entry => entry.owner == ((id : Int), true) := by
  rw [holds]
  congr 1
  funext entry
  rw [Bool.eq_iff_iff]
  simp only [Bool.and_eq_true, decide_eq_true_eq, StoredStream.owner, beq_iff_eq, Prod.mk.injEq,
    Int.ofNat_inj, and_comm]

namespace SameSlots

variable {table : StreamStorage} {slots : StreamSlots} {id : Nat} {grow : Nat → Nat}

theorem empty (capacity : Nat) : SameSlots { capacity } {} := ⟨rfl, rfl, rfl⟩

theorem any_eq (h : table.SameSlots slots) (p : Int × Bool → Bool) (i : Nat) :
    (slots.streams[i]?.any fun entry => p entry.owner) =
      table.streams[i]?.any fun entry => p entry.owner := by
  have hi : slots.streams[i]?.map StreamSlots.StreamEntry.owner =
      table.streams[i]?.map StoredStream.owner := by
    rw [← List.getElem?_map, h.streams, List.getElem?_map]
  have hany := congrArg (Option.any p) hi
  rwa [Option.any_map, Option.any_map] at hany

theorem comp_cast (id : Nat) :
    (fun element : StreamSlots.StreamIndexEntry => decide (element.streamId = (id : Int))) ∘
        StreamIndexEntry.cast =
      fun element => decide (element.streamId = id) := by
  funext element
  exact decide_eq_decide.mpr Int.ofNat_inj

theorem find (h : table.SameSlots slots) (id : Nat) :
    (table.findStreamEntry id).1.SameSlots (slots.findStreamEntry id).1 ∧
      (slots.findStreamEntry id).2 = (table.findStreamEntry id).2 := by
  rw [StreamSlots.findStreamEntry_eq_any, findStreamEntry, h.streamIndex, List.find?_map, comp_cast]
  cases table.streamIndex.find? fun element => decide (element.streamId = id) with
  | none => exact ⟨h, rfl⟩
  | some element =>
    have hany := h.any_eq (fun owner => owner == ((id : Int), true)) element.index
    have hholds := table.holds_eq element.index id
    dsimp only [Option.map_some, StreamIndexEntry.cast]
    rw [hany, hholds]
    by_cases howner : (table.streams[element.index]?.any fun entry =>
        entry.owner == ((id : Int), true)) = true
    · rw [if_pos howner, if_pos howner]
      exact ⟨h, rfl⟩
    · -- the element is out of date, and dropped from both
      rw [if_neg howner, if_neg howner]
      refine ⟨⟨h.streams, ?_, h.freeStreamIndices⟩, rfl⟩
      dsimp only [StreamSlots.dropStale]
      rw [h.streamIndex, List.eraseP_map, comp_cast]

theorem erase (h : table.SameSlots slots) (id : Nat) :
    (table.eraseStreamIndex id).SameSlots (slots.eraseStreamIndex id) := by
  have hindex : (slots.eraseStreamIndex id).streamIndex =
      (table.eraseStreamIndex id).streamIndex.map StreamIndexEntry.cast := by
    dsimp only [StreamSlots.eraseStreamIndex]
    rw [swapErase, h.streamIndex, List.findIdx?_map, comp_cast, List.getLast?_map,
      eraseStreamIndex]
    cases table.streamIndex.findIdx? fun element => decide (element.streamId = id) with
    | none => rfl
    | some i =>
      cases table.streamIndex.getLast? with
      | none => rfl
      | some back =>
        dsimp only [Option.map_some]
        rw [List.map_dropLast, List.map_set]
  have hsame : (table.eraseStreamIndex id).streams = table.streams ∧
      (table.eraseStreamIndex id).freeStreamIndices = table.freeStreamIndices := by
    rw [eraseStreamIndex]
    split
    · exact ⟨rfl, rfl⟩
    · exact ⟨rfl, rfl⟩
  exact ⟨hsame.1 ▸ h.streams, hindex, hsame.2 ▸ h.freeStreamIndices⟩

/-- The entry at a position changes in both. -/
theorem modify (h : table.SameSlots slots) (i : Nat) {f : StoredStream → StoredStream}
    {f' : StreamSlots.StreamEntry → StreamSlots.StreamEntry}
    (hf : ∀ entry stored, entry.owner = stored.owner → (f' entry).owner = (f stored).owner) :
    (table.modifyEntry i f).SameSlots (slots.modifyEntry i f') where
  streams := map_modify_eq hf h.streams i
  streamIndex := h.streamIndex
  freeStreamIndices := h.freeStreamIndices

theorem takeFree_eq (h : table.SameSlots slots) (free : List Nat) :
    StreamSlots.takeFree slots.streams free = takeFree table.streams free := by
  induction free with
  | nil => rfl
  | cons i free ih =>
    have hany := h.any_eq (fun owner => !owner.2) i
    rw [StreamSlots.takeFree, takeFree, ih]
    exact if_congr (iff_of_eq (congrArg (· = true) hany)) rfl rfl

theorem acquire (h : table.SameSlots slots) (id : Nat) :
    (table.acquireStreamEntry grow id).1.SameSlots (slots.acquireStreamEntry id).1 ∧
      (slots.acquireStreamEntry id).2 = (table.acquireStreamEntry grow id).2 := by
  rw [StreamSlots.acquireStreamEntry, acquireStreamEntry, h.freeStreamIndices, h.takeFree_eq]
  have hlength : slots.streams.length = table.streams.length := by
    rw [← List.length_map StreamSlots.StreamEntry.owner, h.streams, List.length_map]
  rcases takeFree table.streams table.freeStreamIndices with ⟨_ | i, free⟩
  · -- an entry at the end, where the storage may move
    dsimp only
    refine ⟨⟨?_, ?_, rfl⟩, hlength⟩
    · dsimp only [pushBack]
      rw [List.map_append, List.map_append, h.streams]
      rfl
    · rw [h.streamIndex, hlength, List.map_append]
      rfl
  · dsimp only
    refine ⟨⟨?_, ?_, rfl⟩, rfl⟩
    · exact (h.modify i fun _ _ _ => rfl).streams
    · rw [h.streamIndex, List.map_append]
      rfl

theorem release (h : table.SameSlots slots) (id : Nat) :
    (table.releaseStreamEntry id).SameSlots (slots.releaseStreamEntry id) := by
  obtain ⟨hsame, hposition⟩ := h.find id
  rw [StreamSlots.releaseStreamEntry, releaseStreamEntry]
  rcases hslots : slots.findStreamEntry id with ⟨slots', position⟩
  rcases htable : table.findStreamEntry id with ⟨table', position'⟩
  rw [hslots, htable] at hsame hposition
  obtain rfl : position = position' := hposition
  cases position with
  | none => exact hsame
  | some position =>
    have hreset : ((table'.eraseStreamIndex id).modifyEntry position fun entry =>
          { entry.resetForReuse with id := 0, inUse := false }).SameSlots
        ((slots'.eraseStreamIndex id).modifyEntry position fun entry =>
          { id := 0, inUse := false, state := entry.state.resetForReuse }) :=
      (hsame.erase id).modify position fun _ _ _ => rfl
    exact ⟨hreset.streams, hreset.streamIndex, congrArg (position :: ·) hsame.freeStreamIndices⟩

/-- What is written about a stream leaves it in its entry. -/
theorem write (h : table.SameSlots slots) (id : Nat) {f : StoredStream → StoredStream}
    (hf : ∀ stored, (f stored).owner = stored.owner) (state : StreamSlots.StreamState) :
    (table.updateStream id f).SameSlots (slots.writeStream id state) := by
  obtain ⟨hsame, hposition⟩ := h.find id
  rw [StreamSlots.writeStream, updateStream]
  rcases hslots : slots.findStreamEntry id with ⟨slots', position⟩
  rcases htable : table.findStreamEntry id with ⟨table', position'⟩
  rw [hslots, htable] at hsame hposition
  obtain rfl : position = position' := hposition
  cases position with
  | none => exact hsame
  | some position =>
    exact hsame.modify position fun _ stored howner => howner.trans (hf stored).symm

/-- One call. -/
theorem step {book after : SlotBook} (h : table.SameSlots book.slots) {call : SlotCall Nat}
    (hok : call.Expected) (hstep : book.step call.cast = some after) :
    (table.call grow call).SameSlots after.slots := by
  cases call with
  | acquire streamId =>
    obtain rfl := Option.some.inj hstep
    exact (h.acquire streamId).1
  | release streamId =>
    obtain rfl := Option.some.inj hstep
    exact h.release streamId
  | find streamId =>
    obtain rfl := Option.some.inj hstep
    exact (h.find streamId).1
  | renumber expectedStreamId streamId =>
    obtain rfl : streamId = expectedStreamId := hok
    obtain rfl := Option.some.inj hstep
    dsimp only [StreamSlots.renumber]
    rw [if_neg (not_not_intro rfl)]
    exact h
  | write streamId state =>
    obtain rfl := Option.some.inj hstep
    have howner : ∀ entry : StoredStream, (entry.written state).owner = entry.owner := fun _ => rfl
    exact h.write streamId howner state

/-- A run of calls. -/
theorem run {book after : SlotBook} (h : table.SameSlots book.slots) {calls : List (SlotCall Nat)}
    (hok : ∀ call ∈ calls, call.Expected)
    (hexec : exec SlotBook.step book (calls.map SlotCall.cast) = some after) :
    (calls.foldl (StreamStorage.call grow) table).SameSlots after.slots := by
  induction calls generalizing book table with
  | nil =>
    obtain rfl := Option.some.inj hexec
    exact h
  | cons call calls ih =>
    obtain ⟨next, hnext, hrest⟩ := exec_cons_eq_some.mp hexec
    obtain ⟨hcall, hcalls⟩ := List.forall_mem_cons.mp hok
    exact ih (h.step hcall hnext) hcalls hrest

end SameSlots

end StreamStorage

/-- The uploads find the entry of a stream where its caller was given it. -/
theorem storage_find_eq {calls : List (SlotCall Nat)} {book : SlotBook} (grow : Nat → Nat)
    (capacity : Nat)
    (hexpected : ∀ call ∈ calls, call.Expected)
    (hfresh : Along SlotBook.step SlotBook.FreshCall {} (calls.map SlotCall.cast))
    (hexec : exec SlotBook.step {} (calls.map SlotCall.cast) = some book) (id : Nat) :
    ((calls.foldl (StreamStorage.call grow) { capacity }).findStreamEntry id).2 =
      (book.ledger id).map Held.position := by
  have hsame : (calls.foldl (StreamStorage.call grow) { capacity }).SameSlots book.slots :=
    .run (.empty capacity) hexpected hexec
  have hsound : book.Sound :=
    invariant_of_along (fun _ _ _ h hok hstep => h.step hok hstep) SlotBook.sound_initial hfresh
      hexec
  rw [← (hsame.find id).2, hsound.findStreamEntry]

end HttpClient.H2
