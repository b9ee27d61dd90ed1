import HttpClient.H2.Responses

/-!
# What the handler of a stream is given

A stream with a body chunk handler hands on every piece of data that arrives for it and is
not empty, and appends it to the body of its response if that is to be stored. A stream
identifier is not used twice, so the pieces that were handed on since the stream was
submitted are its body, for as long as the stream is in the table.

## Main definitions

* `Streams.fed`, `Streams.fedBy` — what an event, and a run, hands to the handler of a stream
* `Stored` — the stream holds the given body, if it is in the table

## Main results

* `body_eq_fedBy` — the body of a stream is what its handler has been given
-/

set_option autoImplicit false

namespace HttpClient.H2

open Semantics Text

/-- What an event hands to the handler of a stream. -/
def Streams.fed (id : Nat) (table : Streams) : ResponseEvent → List Bytes
  | .data other data => if other = id ∧ (table.find id).isSome ∧ data ≠ [] then [data] else []
  | _ => []

/-- What a run hands to the handler of a stream, in order. -/
def Streams.fedBy (id : Nat) : Streams → List ResponseEvent → List Bytes
  | _, [] => []
  | table, event :: events =>
    table.fed id event ++
      match table.step event with
      | none => []
      | some after => fedBy id after events

/-- The streams with an identifier. -/
def Streams.own (id : Nat) (table : Streams) : List StreamState :=
  table.streams.filter fun stream => decide (stream.id = id)

/-- At most one stream has the identifier; it stores its body, and holds this one. -/
def Stored (id : Nat) (body : Bytes) (table : Streams) : Prop :=
  table.own id = [] ∨
    ∃ stream, table.own id = [stream] ∧ stream.storeBody = true ∧ stream.response.body = body

/-- The event submits a stream of the identifier. -/
def ResponseEvent.Submits (id : Nat) : ResponseEvent → Prop
  | .submit other _ _ _ => other = id
  | _ => False

variable {table after : Streams} {stream : StreamState} {id other : Nat} {body : Bytes}

theorem Streams.find_eq_head (table : Streams) (id : Nat) :
    table.find id = (table.own id).head? :=
  List.head?_filter.symm

/-! ### The streams with an identifier -/

theorem filter_updateFirst {f : StreamState → StreamState}
    (hid : ∀ stream, (f stream).id = stream.id) (streams : List StreamState) :
    (Streams.updateFirst other f streams).filter (fun stream => decide (stream.id = id)) =
      if other = id then
        Streams.updateFirst id f (streams.filter fun stream => decide (stream.id = id))
      else streams.filter fun stream => decide (stream.id = id) := by
  induction streams with
  | nil =>
    split
    · rfl
    · rfl
  | cons stream streams ih =>
    rw [Streams.updateFirst]
    by_cases hother : stream.id = other
    · rw [if_pos hother]
      by_cases hsame : other = id
      · simp [hid, hother, hsame, Streams.updateFirst]
      · simp [hid, hother, hsame]
    · rw [if_neg hother, List.filter_cons, List.filter_cons, ih]
      by_cases hown : stream.id = id
      · have hdiffers : other ≠ id := fun h => hother (hown.trans h.symm)
        simp [hown, hdiffers]
      · simp [hown]

theorem own_update {f : StreamState → StreamState} (hid : ∀ stream, (f stream).id = stream.id) :
    (table.update other f).own id =
      if other = id then Streams.updateFirst id f (table.own id) else table.own id :=
  filter_updateFirst hid table.streams

theorem own_erase (table : Streams) (id other : Nat) :
    (table.erase other).own id = if other = id then (table.own id).tail else table.own id := by
  unfold Streams.own Streams.erase
  induction table.streams with
  | nil =>
    split
    · rfl
    · rfl
  | cons stream streams ih =>
    dsimp only at ih ⊢
    by_cases hother : stream.id = other
    · rw [List.eraseP_cons_of_pos (by simpa using hother)]
      by_cases hsame : other = id
      · simp [hother, hsame]
      · simp [hother, hsame]
    · rw [List.eraseP_cons_of_neg (by simpa using hother), List.filter_cons, List.filter_cons, ih]
      by_cases hown : stream.id = id
      · have hdiffers : other ≠ id := fun h => hother (hown.trans h.symm)
        simp [hown, hdiffers]
      · simp [hown]

/-! ### Events -/

/-- An update of a stream that is not the one, or that leaves its body as it is. -/
theorem Stored.update {f : StreamState → StreamState} (h : Stored id body table)
    (hid : ∀ stream, (f stream).id = stream.id)
    (hstore : ∀ stream, (f stream).storeBody = stream.storeBody)
    (hbody : ∀ stream, (f stream).response.body = stream.response.body) :
    Stored id body (table.update other f) := by
  by_cases hother : other = id
  · rcases h with hnone | ⟨stream, hone, hstored, hheld⟩
    · left
      rw [own_update hid, if_pos hother, hnone]
      rfl
    · have hstream : stream.id = id := by
        have hmem : stream ∈ table.own id := by simp [hone]
        simpa using (List.mem_filter.mp hmem).2
      refine .inr ⟨f stream, ?_, (hstore stream).trans hstored, (hbody stream).trans hheld⟩
      rw [own_update hid, if_pos hother, hone]
      simp [Streams.updateFirst, hstream]
  · rw [Stored, own_update hid, if_neg hother]
    exact h

theorem Stored.erase (h : Stored id body table) (other : Nat) :
    Stored id body (table.erase other) := by
  rw [Stored, own_erase]
  by_cases hother : other = id
  · rw [if_pos hother]
    rcases h with hnone | ⟨stream, hone, -, -⟩
    · exact .inl (by simp [hnone])
    · exact .inl (by simp [hone])
  · rw [if_neg hother]
    exact h

theorem Stored.completeStream (h : Stored id body table) (other : Nat) :
    Stored id body (table.completeStream other) := by
  rw [Streams.completeStream]
  cases table.find other with
  | none => exact h
  | some stream =>
    dsimp only
    split
    · exact h.erase _
    · exact h.update (fun _ => rfl) (fun _ => rfl) fun _ => rfl

theorem Stored.setError (h : Stored id body table) (other : Nat) (error : Bytes) :
    Stored id body (table.update other (.setError error)) :=
  h.update (fun _ => rfl) (fun _ => rfl) fun _ => rfl

theorem Stored.header (h : Stored id body table) (other : Nat) (name value : Bytes) :
    Stored id body (table.update other (.onHeader name value)) := by
  refine h.update (fun stream => ?_) (fun stream => ?_) fun stream => ?_
  all_goals
    rw [StreamState.onHeader]
    split
    · rfl
    · split
      · rfl
      · rfl

theorem Stored.failAllStreams (h : Stored id body table) (error : Bytes) :
    Stored id body (table.failAllStreams error) := by
  let fail : StreamState → StreamState := fun stream =>
    if stream.done then stream else (stream.setError error).markDone
  let stays : StreamState → Bool := fun stream => !(!stream.done && stream.callbackMode)
  have hid : ∀ stream, (fail stream).id = stream.id := by
    intro stream
    dsimp only [fail]
    split
    · rfl
    · rfl
  have hown : (table.failAllStreams error).own id = ((table.own id).filter stays).map fail := by
    change ((table.streams.filter stays).map fail).filter _ = _
    rw [List.filter_map, List.filter_filter, Streams.own, List.filter_filter]
    simp only [Function.comp_def, hid, Bool.and_comm]
  rcases h with hnone | ⟨stream, hone, hstored, hheld⟩
  · exact .inl (by rw [hown, hnone]; rfl)
  · by_cases hstays : stays stream = true
    · refine .inr ⟨fail stream, by simp [hown, hone, hstays], ?_, ?_⟩
      · dsimp only [fail]
        split
        · exact hstored
        · exact hstored
      · dsimp only [fail]
        split
        · exact hheld
        · exact hheld
    · exact .inl (by simp [hown, hone, hstays])

/-- Data of the stream is appended to its body. -/
theorem Stored.data (h : Stored id body table) (data : Bytes) :
    Stored id (body ++ (table.fed id (.data other data)).flatten)
      (table.update other (.onData data)) := by
  have hid : ∀ stream, (StreamState.onData data stream).id = stream.id := by
    intro stream
    rw [StreamState.onData]
    split
    · rfl
    · rfl
  by_cases hother : other = id
  · rcases h with hnone | ⟨stream, hone, hstored, hheld⟩
    · left
      rw [own_update hid, if_pos hother, hnone]
      rfl
    · have hstream : stream.id = id := by
        have hmem : stream ∈ table.own id := by simp [hone]
        simpa using (List.mem_filter.mp hmem).2
      have hfed : (table.fed id (.data other data)).flatten = data := by
        by_cases hempty : data = []
        · simp [Streams.fed, hempty]
        · simp [Streams.fed, Streams.find_eq_head, hother, hone, hempty]
      refine .inr ⟨stream.onData data, ?_, ?_, ?_⟩
      · rw [own_update hid, if_pos hother, hone]
        simp [Streams.updateFirst, hstream]
      · simp [StreamState.onData, hstored]
      · simp [StreamState.onData, hstored, hheld, hfed]
  · have hfed : table.fed id (.data other data) = [] := by simp [Streams.fed, hother]
    rw [hfed, List.flatten_nil, List.append_nil, Stored, own_update hid, if_neg hother]
    exact h

/-- The step lemma: what the stream holds grows by what its handler is given. -/
theorem Stored.step {event : ResponseEvent} (h : Stored id body table) (honce : ¬ event.Submits id)
    (hstep : table.step event = some after) :
    Stored id (body ++ (table.fed id event).flatten) after := by
  cases event with
  | submit other storeBody storeHeaders callbackMode =>
    have hother : ¬ other = id := honce
    have hown : after.own id = table.own id := by
      obtain rfl := Option.some.inj hstep
      rw [Streams.own, List.filter_append]
      simp [Streams.own, hother]
    simpa [Stored, Streams.fed, hown] using h
  | header other name value =>
    obtain rfl := Option.some.inj hstep
    simpa [Streams.fed] using h.header other name value
  | data other data =>
    obtain rfl := Option.some.inj hstep
    exact h.data data
  | endStream other =>
    obtain rfl := Option.some.inj hstep
    simpa [Streams.fed] using h.completeStream other
  | rstStream other =>
    obtain rfl := Option.some.inj hstep
    simpa [Streams.fed] using (h.setError other _).completeStream other
  | expire other kind =>
    obtain rfl := Option.some.inj hstep
    have hexpired : Stored id body (table.expireStream other kind) := by
      rw [Streams.expireStream]
      cases table.find other with
      | none => exact h
      | some stream =>
        dsimp only
        split
        · exact h
        · exact (h.setError other _).completeStream other
    simpa [Streams.fed] using hexpired
  | failAll error =>
    obtain rfl := Option.some.inj hstep
    simpa [Streams.fed] using h.failAllStreams error
  | resume other =>
    obtain ⟨stream, -, hgive⟩ := Option.bind_eq_some_iff.mp hstep
    split at hgive
    · obtain rfl := Option.some.inj hgive
      have hgiven : Stored id body (table.give stream) := h.erase stream.id
      simpa [Streams.fed] using hgiven
    · cases hgive
  | cancel other =>
    obtain rfl := Option.some.inj hstep
    simpa [Streams.fed] using h.erase other

/-! ### Runs -/

/-- The run lemma: on the events. -/
theorem Stored.run {events : List ResponseEvent} (h : Stored id body table)
    (honce : ∀ event ∈ events, ¬ event.Submits id)
    (hexec : exec Streams.step table events = some after) :
    Stored id (body ++ (table.fedBy id events).flatten) after := by
  induction events generalizing table body with
  | nil =>
    obtain rfl := Option.some.inj hexec
    simpa [Streams.fedBy] using h
  | cons event events ih =>
    obtain ⟨next, hnext, hrest⟩ := exec_cons_eq_some.mp hexec
    have hstep := h.step (honce event List.mem_cons_self) hnext
    have hrun := ih hstep (fun other hother => honce other (List.mem_cons_of_mem _ hother)) hrest
    simpa [Streams.fedBy, hnext, List.append_assoc] using hrun

/-- As long as a stream is in the table, its body is what its handler has been given since it
was submitted. -/
theorem body_eq_fedBy {events : List ResponseEvent} {storeHeaders callbackMode : Bool}
    (hfresh : table.find id = none) (honce : ∀ event ∈ events, ¬ event.Submits id)
    (hexec : exec Streams.step table (.submit id true storeHeaders callbackMode :: events) =
      some after)
    (hfind : after.find id = some stream) :
    stream.response.body =
      (table.fedBy id (.submit id true storeHeaders callbackMode :: events)).flatten := by
  obtain ⟨submitted, hsubmitted, hrest⟩ := exec_cons_eq_some.mp hexec
  have hnone : table.own id = [] := by
    rw [Streams.find_eq_head] at hfresh
    exact List.head?_eq_none_iff.mp hfresh
  have hstart : Stored id [] submitted := by
    obtain rfl := Option.some.inj hsubmitted
    refine .inr ⟨{ id, storeHeaders, callbackMode }, ?_, rfl, rfl⟩
    change (table.streams ++ _).filter _ = _
    rw [List.filter_append]
    simpa [Streams.own] using hnone
  have hstored := hstart.run honce hrest
  rw [Streams.find_eq_head] at hfind
  rcases hstored with hgone | ⟨other, hone, -, hheld⟩
  · rw [hgone] at hfind
    cases hfind
  · rw [hone] at hfind
    obtain rfl := Option.some.inj hfind
    simpa [Streams.fedBy, Streams.fed, hsubmitted] using hheld

end HttpClient.H2
