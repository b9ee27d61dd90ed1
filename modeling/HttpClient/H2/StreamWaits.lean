import HttpClient.H2.Session

/-!
# Waiting for a response

A request that has submitted a stream waits until its waiter is woken. Until then the
stream is in the table, not done and not in callback mode, and the table knows the
waiter. So whatever makes the stream done, completion, expiry, cancellation or the
failure of the connection, wakes the request.

The invariant is about a table and the pairs of stream and waiter that requests are
suspended on. Every operation of the table keeps it.

## Main definitions

* `StreamTable.Awaits` — a request may be suspended on a stream and a waiter
* `StreamTable.Waits` — all these pairs are sound, and no stream has two of them

## Main results

* `StreamTable.Waits.failAll`, `StreamTable.Waits.markDone_wake` — done streams wake
* `StreamTable.Waits.register` — a new stream, and the waiter of its request
* `StreamTable.Waits.finish` — the request and its stream leave
-/

set_option autoImplicit false

namespace HttpClient.H2

namespace StreamTable

variable {table table' : StreamTable} {id id' : Nat} {entry : StreamEntry}
  {entries : List StreamEntry} {pair : Nat × Nat} {pairs : List (Nat × Nat)}

/-! ### Looking up -/

theorem find_eq_some_id (h : table.find id = some entry) : entry.id = id := by
  have hid := List.find?_some h
  simpa using hid

theorem mem_of_find (h : table.find id = some entry) : entry ∈ table.entries :=
  List.mem_of_find?_eq_some h

/-- Updates keep identifiers, so they do not affect other streams. -/
theorem find_updateFirst_of_ne {f : StreamEntry → StreamEntry} (hf : ∀ e, (f e).id = e.id)
    (hne : id' ≠ id) :
    (updateFirst id f entries).find? (fun e => decide (e.id = id')) =
      entries.find? fun e => decide (e.id = id') := by
  induction entries with
  | nil => rfl
  | cons e entries ih =>
    rw [updateFirst]
    split_ifs with heq
    · have hother : ¬ e.id = id' := fun h => hne (h.symm.trans heq)
      simp [hf, hother]
    · by_cases hid : e.id = id' <;> simp [hid, ih]

theorem find_updateFirst_self {f : StreamEntry → StreamEntry} (hf : ∀ e, (f e).id = e.id) :
    (updateFirst id f entries).find? (fun e => decide (e.id = id)) =
      (entries.find? fun e => decide (e.id = id)).map f := by
  induction entries with
  | nil => rfl
  | cons e entries ih =>
    rw [updateFirst]
    split_ifs with heq
    · simp [hf, heq]
    · simp [heq, ih]

theorem find_update_of_ne {f : StreamEntry → StreamEntry} (hf : ∀ e, (f e).id = e.id)
    (hne : id' ≠ id) : (table.update id f).find id' = table.find id' :=
  find_updateFirst_of_ne hf hne

theorem find_update_self {f : StreamEntry → StreamEntry} (hf : ∀ e, (f e).id = e.id) :
    (table.update id f).find id = (table.find id).map f :=
  find_updateFirst_self hf

theorem find_markDone_self (h : table.find id = some entry) :
    (table.markDone id).find id = some { entry with done := true } := by
  unfold markDone
  rw [find_update_self (fun _ => by rfl), h, Option.map_some]

theorem find_markDone_of_ne (hne : id' ≠ id) : (table.markDone id).find id' = table.find id' :=
  find_update_of_ne (fun _ => rfl) hne

/-- A stream that is not in callback mode survives a failure of the connection. -/
theorem find_failAll (h : table.find id = some entry) (hmode : entry.callbackMode = false) :
    table.failAll.find id = some { entry with done := true } := by
  unfold failAll find at *
  dsimp only
  rw [List.find?_map, List.find?_filter]
  have hsame : table.entries.find? (fun e => decide ((e.done || !e.callbackMode) = true ∧
      decide (e.id = id) = true)) = some entry := by
    obtain ⟨hid, before, after, hentries, hbefore⟩ := List.find?_eq_some_iff_append.mp h
    rw [List.find?_eq_some_iff_append]
    refine ⟨by simp [hmode, hid], before, after, hentries, fun e he => ?_⟩
    have hother := hbefore e he
    simp_all
  have hcomp : (fun e : StreamEntry => decide ((e.done || !e.callbackMode) = true ∧
      ((fun e => decide (e.id = id)) ∘ fun e => { e with done := true }) e = true)) =
      fun e => decide ((e.done || !e.callbackMode) = true ∧ decide (e.id = id) = true) := rfl
  rw [hcomp, hsame]
  rfl

theorem mem_updateFirst {f : StreamEntry → StreamEntry}
    (h : entry ∈ updateFirst id f entries) : entry ∈ entries ∨ ∃ e ∈ entries, entry = f e := by
  induction entries with
  | nil => exact absurd h List.not_mem_nil
  | cons e entries ih =>
    rw [updateFirst] at h
    split_ifs at h
    · rcases List.mem_cons.mp h with rfl | h
      · exact Or.inr ⟨e, List.mem_cons_self, rfl⟩
      · exact Or.inl (List.mem_cons_of_mem _ h)
    · rcases List.mem_cons.mp h with rfl | h
      · exact Or.inl List.mem_cons_self
      · rcases ih h with hmem | ⟨e', hmem, rfl⟩
        · exact Or.inl (List.mem_cons_of_mem _ hmem)
        · exact Or.inr ⟨e', List.mem_cons_of_mem _ hmem, rfl⟩

theorem find_releaseEntry_of_ne (hne : id' ≠ id) :
    (table.releaseEntry id).find id' = table.find id' := by
  unfold releaseEntry find
  induction table.entries with
  | nil => rfl
  | cons e entries ih =>
    by_cases hid : e.id = id
    · have hother : ¬ e.id = id' := fun h => hne (h.symm.trans hid)
      simp [hid, Ne.symm hne]
    · by_cases hid' : e.id = id' <;> simp_all

/-- A stream that was just opened is found if its identifier was not in use. -/
theorem find_acquireEntry_self (h : table.find id = none) :
    (table.acquireEntry id).find id = some { id } := by
  unfold acquireEntry find at *
  simp [List.find?_append, h]

theorem find_acquireEntry_of_some (h : table.find id' = some entry) :
    (table.acquireEntry id).find id' = some entry := by
  unfold acquireEntry find at *
  simp [List.find?_append, h]

theorem updateFirst_append_of_find_eq_none {f : StreamEntry → StreamEntry}
    {entries' : List StreamEntry} (h : entries.find? (fun e => decide (e.id = id)) = none) :
    updateFirst id f (entries ++ entries') = entries ++ updateFirst id f entries' := by
  induction entries with
  | nil => rfl
  | cons e entries ih =>
    rw [List.find?_cons] at h
    by_cases hid : e.id = id
    · simp [hid] at h
    · simp only [hid, decide_false] at h
      rw [List.cons_append, updateFirst, if_neg hid, ih h, List.cons_append]

/-- Opening a stream under the identifier that was announced and then renumbering it is
opening it under the assigned one. -/
theorem renumber_acquireEntry {expected : Nat} (h : table.find expected = none) :
    (table.acquireEntry expected).renumber expected id = table.acquireEntry id := by
  unfold renumber
  split_ifs with heq
  · rw [heq]
  · unfold update acquireEntry
    rw [updateFirst_append_of_find_eq_none h]
    simp [updateFirst]

/-- Opening a stream whose submission fails leaves the table as it was. -/
theorem releaseEntry_acquireEntry (h : table.find id = none) :
    (table.acquireEntry id).releaseEntry id = table := by
  have hnone : ∀ e ∈ table.entries, ¬ decide (e.id = id) = true := by
    simpa [find] using h
  unfold acquireEntry releaseEntry
  simp [List.eraseP_append_right _ hnone]

/-! ### Being awaited -/

/-- A request may be suspended on a stream and a waiter: the stream is in the table, and
if it is done the waiter has been woken. -/
def Awaits (table : StreamTable) (pair : Nat × Nat) : Prop :=
  pair.2 < table.nextWaiter ∧
    ∃ entry, table.find pair.1 = some entry ∧ entry.callbackMode = false ∧
      (table.woken pair.2 = false →
        entry.done = false ∧ table.stateWaiters.lookup pair.1 = some pair.2)

/-- What does not touch a stream leaves it awaited. -/
theorem Awaits.frame (h : table.Awaits pair) (hnext : table.nextWaiter ≤ table'.nextWaiter)
    (hfind : ∀ entry, table.find pair.1 = some entry → table'.find pair.1 = some entry)
    (hwoken : table'.woken pair.2 = false → table.woken pair.2 = false)
    (hlookup : table'.stateWaiters.lookup pair.1 = table.stateWaiters.lookup pair.1) :
    table'.Awaits pair := by
  obtain ⟨hlt, entry, hentry, hmode, hwaits⟩ := h
  refine ⟨hlt.trans_le hnext, entry, hfind entry hentry, hmode, fun hsleeps => ?_⟩
  rw [hlookup]
  exact hwaits (hwoken hsleeps)

/-- The pairs that requests are suspended on. -/
structure Waits (table : StreamTable) (pairs : List (Nat × Nat)) : Prop where
  awaits : ∀ pair ∈ pairs, table.Awaits pair
  distinct : (pairs.map Prod.fst).Nodup

theorem Waits.perm {pairs' : List (Nat × Nat)} (h : table.Waits pairs) (hperm : pairs.Perm pairs') :
    table.Waits pairs' :=
  ⟨fun pair hpair => h.awaits pair (hperm.mem_iff.mpr hpair),
    (hperm.map Prod.fst).nodup_iff.mp h.distinct⟩

theorem Waits.tail (h : table.Waits (pair :: pairs)) :
    table.Waits pairs ∧ pair.1 ∉ pairs.map Prod.fst :=
  ⟨⟨fun p hp => h.awaits p (List.mem_cons_of_mem _ hp), (List.nodup_cons.mp h.distinct).2⟩,
    (List.nodup_cons.mp h.distinct).1⟩

theorem Waits.concat (h : table.Waits pairs) (hpair : table.Awaits pair)
    (hnobody : pair.1 ∉ pairs.map Prod.fst) : table.Waits (pairs ++ [pair]) := by
  have hcons : table.Waits (pair :: pairs) := by
    refine ⟨fun p hp => ?_, List.nodup_cons.mpr ⟨hnobody, h.distinct⟩⟩
    rcases List.mem_cons.mp hp with rfl | hp
    · exact hpair
    · exact h.awaits p hp
  exact hcons.perm (List.perm_append_singleton pair pairs).symm

theorem ne_of_not_mem {pair : Nat × Nat} (h : id ∉ pairs.map Prod.fst) (hpair : pair ∈ pairs) :
    pair.1 ≠ id :=
  fun heq => h (heq ▸ List.mem_map_of_mem hpair)

/-- No request waits for a stream that is not in the table. -/
theorem Waits.not_mem_of_find_eq_none (h : table.Waits pairs) (hnone : table.find id = none) :
    id ∉ pairs.map Prod.fst := by
  intro hmem
  obtain ⟨pair, hpair, rfl⟩ := List.mem_map.mp hmem
  obtain ⟨-, entry, hentry, -⟩ := h.awaits pair hpair
  rw [hnone] at hentry
  cases hentry

/-- No request waits for a stream in callback mode. -/
theorem Waits.not_mem_of_callbackMode (h : table.Waits pairs) (hfind : table.find id = some entry)
    (hmode : entry.callbackMode = true) : id ∉ pairs.map Prod.fst := by
  intro hmem
  obtain ⟨pair, hpair, rfl⟩ := List.mem_map.mp hmem
  obtain ⟨-, entry', hentry, hmode', -⟩ := h.awaits pair hpair
  obtain rfl := Option.some.inj (hfind.symm.trans hentry)
  rw [hmode] at hmode'
  cases hmode'

/-! ### The operations of the table -/

theorem Waits.releaseEntry (h : table.Waits pairs) (hid : id ∉ pairs.map Prod.fst) :
    (table.releaseEntry id).Waits pairs := by
  refine ⟨fun pair hpair => (h.awaits pair hpair).frame le_rfl (fun entry hentry => ?_)
    (fun hsleeps => hsleeps) rfl, h.distinct⟩
  rw [find_releaseEntry_of_ne (ne_of_not_mem hid hpair)]
  exact hentry

theorem Waits.unregister (h : table.Waits pairs) (hid : id ∉ pairs.map Prod.fst) :
    (table.unregister id).Waits pairs :=
  ⟨fun _ hpair => (h.awaits _ hpair).frame le_rfl (fun _ hentry => hentry)
    (fun hsleeps => hsleeps) (AList.lookup_erase_ne (ne_of_not_mem hid hpair)), h.distinct⟩

theorem Waits.acquireEntry (h : table.Waits pairs) (id : Nat) :
    (table.acquireEntry id).Waits pairs :=
  ⟨fun pair hpair => (h.awaits pair hpair).frame le_rfl
    (fun _ hentry => find_acquireEntry_of_some hentry) (fun hsleeps => hsleeps) rfl, h.distinct⟩

/-- An update of a stream that nobody waits for. -/
theorem Waits.update {f : StreamEntry → StreamEntry} (h : table.Waits pairs)
    (hid : id ∉ pairs.map Prod.fst) (hf : ∀ e, (f e).id = e.id) :
    (table.update id f).Waits pairs := by
  refine ⟨fun pair hpair => (h.awaits pair hpair).frame le_rfl (fun entry hentry => ?_)
    (fun hsleeps => hsleeps) rfl, h.distinct⟩
  rw [find_update_of_ne hf (ne_of_not_mem hid hpair)]
  exact hentry

/-- A stream that becomes done wakes the request that waits for it. -/
theorem Waits.markDone_wake (h : table.Waits pairs) (id : Nat) :
    ((table.markDone id).wake id).Waits pairs := by
  refine ⟨fun pair hpair => ?_, h.distinct⟩
  have hkeep : ∀ w, ((table.markDone id).wake id).woken w = false → table.woken w = false := by
    intro w hsleeps
    unfold wake at hsleeps
    split at hsleeps
    · exact hsleeps
    · by_contra hwoken
      simp_all [Function.update_apply, markDone, StreamTable.update]
  have hlookup : ((table.markDone id).wake id).stateWaiters = table.stateWaiters := by
    unfold wake
    split <;> rfl
  have hfind : ((table.markDone id).wake id).find = (table.markDone id).find := by
    unfold wake
    split <;> rfl
  have hnext : ((table.markDone id).wake id).nextWaiter = table.nextWaiter := by
    unfold wake
    split <;> rfl
  by_cases hid : pair.1 = id
  · -- The waiter is registered unless it has been woken before.
    obtain ⟨hlt, entry, hentry, hmode, hwaits⟩ := h.awaits pair hpair
    refine ⟨hnext ▸ hlt, { entry with done := true }, ?_, hmode, fun hsleeps => ?_⟩
    · rw [hfind, hid]
      exact find_markDone_self (hid ▸ hentry)
    · have hregistered := (hwaits (hkeep _ hsleeps)).2
      rw [hid] at hregistered
      simp [wake, markDone, StreamTable.update, hregistered] at hsleeps
  · refine (h.awaits pair hpair).frame hnext.ge (fun entry hentry => ?_) (hkeep _) (by rw [hlookup])
    rw [hfind, find_markDone_of_ne hid]
    exact hentry

/-- All streams become done and wake the requests that wait for them. -/
theorem Waits.failAll (h : table.Waits pairs) : table.failAll.Waits pairs := by
  refine ⟨fun pair hpair => ?_, h.distinct⟩
  obtain ⟨hlt, entry, hentry, hmode, hwaits⟩ := h.awaits pair hpair
  refine ⟨hlt, _, find_failAll hentry hmode, hmode, fun hsleeps => ?_⟩
  simp only [StreamTable.failAll, Bool.or_eq_false_iff] at hsleeps
  obtain ⟨hbefore, hnobody⟩ := hsleeps
  obtain ⟨hundone, hregistered⟩ := hwaits hbefore
  have hwakes := List.any_eq_false.mp hnobody entry (mem_of_find hentry)
  rw [← find_eq_some_id hentry] at hregistered
  simp [hundone, hmode, hregistered] at hwakes

theorem done_of_mem_failAll (h : entry ∈ table.failAll.entries) : entry.done = true := by
  obtain ⟨e, -, rfl⟩ := List.mem_map.mp h
  rfl

/-- The request of a new stream registers a waiter. -/
theorem Waits.register (h : table.Waits pairs) (hid : id ∉ pairs.map Prod.fst)
    (hfind : table.find id = some entry) (hdone : entry.done = false)
    (hmode : entry.callbackMode = false) :
    (table.register id).Waits ((id, table.nextWaiter) :: pairs) := by
  refine ⟨fun pair hpair => ?_, List.nodup_cons.mpr ⟨hid, h.distinct⟩⟩
  rcases List.mem_cons.mp hpair with rfl | hpair
  · exact ⟨Nat.lt_succ_self _, entry, hfind, hmode, fun _ => ⟨hdone, AList.lookup_insert _⟩⟩
  · have hlt := (h.awaits pair hpair).1
    refine (h.awaits pair hpair).frame (Nat.le_succ _) (fun _ hentry => hentry) (fun hsleeps => ?_)
      (AList.lookup_insert_ne (ne_of_not_mem hid hpair))
    simpa [StreamTable.register, Function.update_of_ne hlt.ne] using hsleeps

end StreamTable

end HttpClient.H2
