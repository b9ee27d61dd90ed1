import Mathlib.Data.List.Perm.Basic

/-!
# Queues of waiters that are told to look again

A coroutine that does not find what it needs leaves an entry in a queue and waits. Whoever
provides something takes the first entry out of the queue and wakes its waiter. That is a hint
and hands over nothing: when the waiter runs it looks again, and it may be too late.

A waiter may be cancelled, before or after it has been woken. It runs then, and looks once more;
if it finds nothing it does not wait again, but leaves with an exception, and its entry is left
behind without a waiter. Such entries are passed over.

## Main definitions

* `Waiter`, `WaitQueue` — the queue, and the waiters that have been taken out of it
* `park`, `wakeOne`, `wakeMany`, `wakeAll` — the operations of those who wait and who provide
* `cancel`, `leave` — a waiter is cancelled, a waiter runs
* `WaitQueue.Covers` — enough waiters have been woken for what there is
* `WaitQueue.tasks` — what is waited for

## Main results

* `Covers.wakeOne`, `Covers.wakeMany`, `Covers.leave`, `Covers.cancel` — what each operation does
  to it
* `tasks_park`, `tasks_wakeOne`, `tasks_cancel`, `tasks_leave` — only who leaves stops waiting
-/

set_option autoImplicit false

namespace HttpClient.Semantics

structure Waiter (β : Type*) where
  task : β
  cancelled : Bool := false

structure WaitQueue (β : Type*) where
  /-- The first entry comes first. The waiter of an entry that is `none` has gone. -/
  entries : List (Option (Waiter β)) := []
  /-- The waiters that have been taken out and have not run since. -/
  woken : List (Waiter β) := []

/-- Where a waiter is. -/
inductive WaitPlace where
  | queued (i : Nat)
  | woken (i : Nat)

namespace WaitQueue

variable {β : Type*}

/-- Wait at the end of the queue. One who has been cancelled leaves instead. -/
def park (w : Waiter β) (q : WaitQueue β) : WaitQueue β :=
  { q with entries := q.entries ++ [if w.cancelled then none else some w] }

/-- Take out entries up to the first one that has a waiter, and wake this one. -/
def wakeFrom (woken : List (Waiter β)) : List (Option (Waiter β)) → WaitQueue β
  | [] => { entries := [], woken }
  | none :: entries => wakeFrom woken entries
  | some w :: entries => { entries, woken := woken ++ [w] }

def wakeOne (q : WaitQueue β) : WaitQueue β := wakeFrom q.woken q.entries

def wakeMany : Nat → WaitQueue β → WaitQueue β
  | 0, q => q
  | n + 1, q => wakeMany n q.wakeOne

def wakeAll (q : WaitQueue β) : WaitQueue β :=
  { entries := [], woken := q.woken ++ q.entries.filterMap id }

/-- A waiter is cancelled. It keeps its entry until it runs. -/
def cancel (place : WaitPlace) (q : WaitQueue β) : Option (WaitQueue β) :=
  match place with
  | .queued i =>
    match q.entries[i]? with
    | some (some w) =>
      some { q with entries := q.entries.set i (some { w with cancelled := true }) }
    | _ => none
  | .woken i =>
    match q.woken[i]? with
    | some w => some { q with woken := q.woken.set i { w with cancelled := true } }
    | none => none

/-- A waiter that has been woken or cancelled runs. -/
def leave (place : WaitPlace) (q : WaitQueue β) : Option (Waiter β × WaitQueue β) :=
  match place with
  | .queued i =>
    match q.entries[i]? with
    | some (some w) =>
      if w.cancelled then some (w, { q with entries := q.entries.set i none }) else none
    | _ => none
  | .woken i =>
    match q.woken[i]? with
    | some w => some (w, { q with woken := q.woken.eraseIdx i })
    | none => none

/-- Somebody is left in the queue. -/
def Occupied (q : WaitQueue β) : Prop := ∃ w, some w ∈ q.entries

/-- While anybody is left in the queue, at least `n` waiters that have been taken out of it are
about to run. -/
def Covers (n : Nat) (q : WaitQueue β) : Prop := q.Occupied → n ≤ q.woken.length

/-- What is waited for, by those in the queue and by those who have been taken out. -/
def tasks (q : WaitQueue β) : List β := (q.entries.filterMap id ++ q.woken).map Waiter.task

variable {q q' : WaitQueue β} {w : Waiter β} {place : WaitPlace} {m n : Nat}

theorem covers_zero (q : WaitQueue β) : q.Covers 0 := fun _ => Nat.zero_le _

theorem Covers.mono (h : q.Covers n) (hle : m ≤ n) : q.Covers m := fun hwaits =>
  Nat.le_trans hle (h hwaits)

/-- Either there is nobody to wake, or the first waiter is woken. -/
theorem wakeFrom_cases (woken : List (Waiter β)) (entries : List (Option (Waiter β))) :
    wakeFrom woken entries = { entries := [], woken } ∨
      ∃ w skipped rest, entries = skipped ++ some w :: rest ∧
        wakeFrom woken entries = { entries := rest, woken := woken ++ [w] } := by
  induction entries with
  | nil => exact Or.inl rfl
  | cons entry entries ih =>
    cases entry with
    | some w => exact Or.inr ⟨w, [], entries, rfl, rfl⟩
    | none =>
      rcases ih with hnobody | ⟨w, skipped, rest, hsplit, heq⟩
      · exact Or.inl hnobody
      · exact Or.inr ⟨w, none :: skipped, rest, congrArg (none :: ·) hsplit, heq⟩

theorem Occupied.of_wakeOne (h : q.wakeOne.Occupied) : q.Occupied := by
  obtain ⟨w, hmem⟩ := h
  unfold WaitQueue.wakeOne at hmem
  rcases wakeFrom_cases q.woken q.entries with hnobody | ⟨w', skipped, rest, hsplit, heq⟩
  · rw [hnobody] at hmem
    exact absurd hmem List.not_mem_nil
  · rw [heq] at hmem
    refine ⟨w, ?_⟩
    rw [hsplit]
    exact List.mem_append_right _ (List.mem_cons_of_mem _ hmem)

theorem Occupied.of_cancel (hcancel : q.cancel place = some q') (h : q'.Occupied) :
    q.Occupied := by
  cases place with
  | queued i =>
    simp only [WaitQueue.cancel] at hcancel
    split at hcancel
    · rename_i w hget
      exact ⟨w, List.mem_of_getElem? hget⟩
    · cases hcancel
  | woken i =>
    simp only [WaitQueue.cancel] at hcancel
    split at hcancel
    · obtain rfl := Option.some.inj hcancel
      exact h
    · cases hcancel

theorem Occupied.of_leave (hleave : q.leave place = some (w, q')) (h : q'.Occupied) :
    q.Occupied := by
  cases place with
  | queued i =>
    simp only [WaitQueue.leave] at hleave
    split at hleave
    · rename_i w' hget
      exact ⟨w', List.mem_of_getElem? hget⟩
    · cases hleave
  | woken i =>
    simp only [WaitQueue.leave] at hleave
    split at hleave
    · obtain ⟨-, rfl⟩ := Prod.mk.inj (Option.some.inj hleave)
      exact h
    · cases hleave

/-- Waking the first waiter makes up for one thing more. -/
theorem Covers.wakeOne (h : q.Covers n) : q.wakeOne.Covers (n + 1) := by
  intro hoccupied
  have hwoken := h hoccupied.of_wakeOne
  unfold WaitQueue.wakeOne at hoccupied ⊢
  rcases wakeFrom_cases q.woken q.entries with hnobody | ⟨w, skipped, rest, -, heq⟩
  · rw [hnobody] at hoccupied
    obtain ⟨w, hmem⟩ := hoccupied
    exact absurd hmem List.not_mem_nil
  · rw [heq]
    change n + 1 ≤ (q.woken ++ [w]).length
    rw [List.length_append, List.length_singleton]
    exact Nat.succ_le_succ hwoken

theorem Covers.wakeMany (h : q.Covers n) (k : Nat) : (q.wakeMany k).Covers (n + k) := by
  induction k generalizing q n with
  | zero => exact h
  | succ k ih =>
    have hrest := ih h.wakeOne
    rwa [Nat.add_right_comm, Nat.add_assoc] at hrest

/-- Whoever has been woken can run. -/
theorem exists_leave_woken {i : Nat} (hi : i < q.woken.length) :
    ∃ w q', q.leave (.woken i) = some (w, q') := by
  simp only [WaitQueue.leave, List.getElem?_eq_getElem hi]
  exact ⟨_, _, rfl⟩

/-- What `leave` does to those who have been woken: at most one of them runs. -/
theorem length_woken_leave (hleave : q.leave place = some (w, q')) :
    q.woken.length - 1 ≤ q'.woken.length := by
  cases place with
  | queued i =>
    simp only [WaitQueue.leave] at hleave
    split at hleave
    · split at hleave
      · obtain ⟨-, rfl⟩ := Prod.mk.inj (Option.some.inj hleave)
        exact Nat.sub_le _ 1
      · cases hleave
    · cases hleave
  | woken i =>
    simp only [WaitQueue.leave] at hleave
    split at hleave
    · rename_i w' hget
      obtain ⟨-, rfl⟩ := Prod.mk.inj (Option.some.inj hleave)
      obtain ⟨hi, -⟩ := List.getElem?_eq_some_iff.mp hget
      exact Nat.le_of_eq (List.length_eraseIdx_of_lt hi).symm
    · cases hleave

theorem length_woken_cancel (hcancel : q.cancel place = some q') :
    q'.woken.length = q.woken.length := by
  cases place with
  | queued i =>
    simp only [WaitQueue.cancel] at hcancel
    split at hcancel
    · obtain rfl := Option.some.inj hcancel
      rfl
    · cases hcancel
  | woken i =>
    simp only [WaitQueue.cancel] at hcancel
    split at hcancel
    · obtain rfl := Option.some.inj hcancel
      exact List.length_set
    · cases hcancel

/-- A waiter that runs has been woken for one thing at most. -/
theorem Covers.leave (h : q.Covers n) (hleave : q.leave place = some (w, q')) :
    q'.Covers (n - 1) := by
  intro hoccupied
  have hwoken := h (hoccupied.of_leave hleave)
  exact Nat.le_trans (Nat.sub_le_sub_right hwoken 1) (length_woken_leave hleave)

theorem Covers.cancel (h : q.Covers n) (hcancel : q.cancel place = some q') : q'.Covers n := by
  intro hoccupied
  rw [length_woken_cancel hcancel]
  exact h (hoccupied.of_cancel hcancel)

/-! ### What is waited for -/

theorem tasks_park (w : Waiter β) (q : WaitQueue β) :
    (q.park w).tasks.Perm (q.tasks ++ if w.cancelled then [] else [w.task]) := by
  unfold park tasks
  cases w.cancelled with
  | true => simp
  | false =>
    simp only [Bool.false_eq_true, if_false, List.filterMap_append, List.map_append,
      List.append_assoc]
    exact List.Perm.append_left _ List.perm_append_comm

/-- Whoever is woken waits for the same as before. -/
theorem tasks_wakeOne (q : WaitQueue β) : q.wakeOne.tasks.Perm q.tasks := by
  unfold wakeOne
  obtain ⟨entries, woken⟩ := q
  induction entries with
  | nil => exact .refl _
  | cons entry entries ih =>
    cases entry with
    | none => exact ih
    | some w =>
      change ((entries.filterMap id ++ (woken ++ [w])).map Waiter.task).Perm
        ((w :: (entries.filterMap id ++ woken)).map Waiter.task)
      rw [← List.append_assoc]
      exact List.Perm.map _ (List.perm_append_singleton w _)

/-- Replacing an element of a list by another one that is waited for likewise. -/
theorem map_set_of_eq {γ δ : Type*} {f : γ → δ} {l : List γ} {i : Nat} {a b : γ}
    (hget : l[i]? = some a) (hf : f b = f a) : (l.set i b).map f = l.map f := by
  obtain ⟨hi, rfl⟩ := List.getElem?_eq_some_iff.mp hget
  have hmap : i < (l.map f).length := by rwa [List.length_map]
  have hself : f l[i] = (l.map f)[i] := (List.getElem_map f).symm
  rw [List.map_set, hf, hself, List.set_getElem_self hmap]

theorem tasks_cancel (h : q.cancel place = some q') : q'.tasks = q.tasks := by
  cases place with
  | queued i =>
    simp only [WaitQueue.cancel] at h
    split at h
    · rename_i w hget
      obtain rfl := Option.some.inj h
      unfold tasks
      have hentries : ∀ entries : List (Option (Waiter β)), (entries.filterMap id).map Waiter.task =
          (entries.map (Option.map Waiter.task)).filterMap id := by
        intro entries
        rw [List.map_filterMap, List.filterMap_map]
        rfl
      rw [List.map_append, List.map_append, hentries, hentries,
        map_set_of_eq hget (b := some { w with cancelled := true }) rfl]
    · cases h
  | woken i =>
    simp only [WaitQueue.cancel] at h
    split at h
    · rename_i w hget
      obtain rfl := Option.some.inj h
      unfold tasks
      rw [List.map_append, List.map_append,
        map_set_of_eq hget (b := { w with cancelled := true }) rfl]
    · cases h

/-- Clearing an entry removes its waiter. -/
theorem filterMap_set_none {entries : List (Option (Waiter β))} {i : Nat}
    (hget : entries[i]? = some (some w)) :
    (w :: (entries.set i none).filterMap id).Perm (entries.filterMap id) := by
  induction entries generalizing i with
  | nil => cases hget
  | cons entry entries ih =>
    cases i with
    | zero =>
      obtain rfl := Option.some.inj hget
      exact .refl _
    | succ i =>
      have hrest := ih hget
      cases entry with
      | none => exact hrest
      | some other => exact (List.Perm.swap other w _).trans (hrest.cons other)

/-- A waiter that runs is not waiting any more. -/
theorem tasks_leave (h : q.leave place = some (w, q')) : (w.task :: q'.tasks).Perm q.tasks := by
  cases place with
  | queued i =>
    simp only [WaitQueue.leave] at h
    split at h
    · rename_i w' hget
      split at h
      · obtain ⟨rfl, rfl⟩ := Prod.mk.inj (Option.some.inj h)
        exact ((filterMap_set_none hget).append_right q.woken).map Waiter.task
      · cases h
    · cases h
  | woken i =>
    simp only [WaitQueue.leave] at h
    split at h
    · rename_i w' hget
      obtain ⟨rfl, rfl⟩ := Prod.mk.inj (Option.some.inj h)
      obtain ⟨hi, rfl⟩ := List.getElem?_eq_some_iff.mp hget
      have hwoken := List.getElem_cons_eraseIdx_perm hi
      have hsplit := (hwoken.append_left (q.entries.filterMap id)).map Waiter.task
      exact (List.perm_middle.symm.map Waiter.task).trans hsplit
    · cases h

end WaitQueue

end HttpClient.Semantics
