import HttpClient.Semantics.Tally

/-!
# Objects that are shared with their own threads

An object has threads of its own. It is shared by an owner outside and by tasks that run on these
threads, and it is destroyed by whoever gives up the last reference, on the thread where that
happens. The destructor joins the threads of the object. If a task has given up the last reference
the thread would have to join itself, and the program is terminated.

So everything depends on what shares the object when the owner gives it up.

## Main definitions

* `SharingTask`, `SharedOwner` — the tasks and the object
* `SharedOwner.letGo`, `SharedOwner.leave` — the owner and a task give up their references
* `SharedOwner.Sound` — what has become of the object, from what the owner has left behind

## Main results

* `Sound.share`, `Sound.move`, `Sound.letGo`, `Sound.leave` — one lemma for each operation
* `Sound.selfJoined_iff` — when a thread has to join itself
-/

set_option autoImplicit false

namespace HttpClient.Semantics

inductive TaskPhase where
  /-- In the queue of its thread, or suspended. -/
  | waiting
  | running
  /-- Done, and about to give up its reference. -/
  | leaving
  | over
  deriving DecidableEq, Repr

/-- A task that shares an object. -/
structure SharingTask where
  thread : Nat
  phase : TaskPhase
  deriving DecidableEq, Repr

def SharingTask.shares (task : SharingTask) : Bool := task.phase != .over

/-- The task is what its thread works on. -/
def SharingTask.occupies (task : SharingTask) : Bool :=
  task.phase == .running || task.phase == .leaving

inductive Fate where
  | alive
  | destroyed
  /-- A thread of the object has been about to join itself. -/
  | selfJoined
  deriving DecidableEq, Repr

structure SharedOwner where
  /-- The owner outside has its reference. -/
  held : Bool := true
  tasks : List SharingTask := []
  fate : Fate := .alive
  /-- How many tasks have shared the object when the owner has given it up. -/
  leftTo : Option Nat := none
  deriving DecidableEq, Repr

namespace SharedOwner

def sharers (o : SharedOwner) : Nat := o.tasks.countP SharingTask.shares

/-- The thread works on a task. -/
def busy (o : SharedOwner) (thread : Nat) : Bool :=
  o.tasks.any fun task => task.thread == thread && task.occupies

/-- One more task that shares the object. -/
def share (o : SharedOwner) (task : SharingTask) : SharedOwner :=
  { o with tasks := o.tasks ++ [task] }

/-- A task goes from one phase into another. -/
def move (o : SharedOwner) (i : Nat) (source target : TaskPhase) : Option SharedOwner :=
  match o.tasks[i]? with
  | none => none
  | some task =>
    if task.phase = source then some { o with tasks := o.tasks.set i { task with phase := target } }
    else none

/-- The owner gives up its reference. -/
def letGo (o : SharedOwner) : SharedOwner :=
  { o with
    held := false
    fate := if o.sharers = 0 then .destroyed else o.fate
    leftTo := some o.sharers }

/-- What becomes of the object when a task has given up its reference. With `own` the destructor
would join the thread of the task. -/
def settle (own : Bool) (o : SharedOwner) : SharedOwner :=
  if o.held = false ∧ o.sharers = 0 then
    { o with fate := if own then .selfJoined else .destroyed }
  else o

/-- A task gives up its reference. -/
def leave (own : Bool) (o : SharedOwner) (i : Nat) : Option SharedOwner :=
  (o.move i .leaving .over).map (settle own)

/-- What has become of the object, from what shares it and from what the owner has left behind. -/
structure Sound (own : Bool) (o : SharedOwner) : Prop where
  held_iff : o.held = true ↔ o.leftTo = none
  fate_eq : o.fate =
    match o.leftTo with
    | none => .alive
    | some n =>
      if 0 < o.sharers then .alive else if 0 < n ∧ own = true then .selfJoined else .destroyed
  /-- What has been left to nobody is shared by nobody later. -/
  left_zero : o.leftTo = some 0 → o.sharers = 0

variable {own : Bool} {o o' : SharedOwner} {i : Nat} {source target : TaskPhase}
  {task : SharingTask}

theorem sound_start (own : Bool) : Sound own {} where
  held_iff := by simp
  fate_eq := rfl
  left_zero := nofun

/-! ### What an operation changes -/

@[simp] theorem tasks_settle (own : Bool) (o : SharedOwner) :
    (settle own o).tasks = o.tasks := by
  rw [settle]
  split <;> rfl

theorem move_eq_some (h : o.move i source target = some o') :
    ∃ task, o.tasks[i]? = some task ∧ task.phase = source ∧
      o' = { o with tasks := o.tasks.set i { task with phase := target } } := by
  rw [move] at h
  cases htask : o.tasks[i]? with
  | none => rw [htask] at h; cases h
  | some task =>
    rw [htask] at h
    dsimp only at h
    split at h
    · rename_i hphase
      exact ⟨task, rfl, hphase, (Option.some.inj h).symm⟩
    · cases h

theorem sharers_share (o : SharedOwner) (hshares : task.shares = true) :
    (o.share task).sharers = o.sharers + 1 := by
  simp [sharers, share, List.countP_append, hshares]

/-- A task that goes on keeps its reference. -/
theorem sharers_move (h : o.move i source target = some o') (hsource : source ≠ .over)
    (htarget : target ≠ .over) : o'.sharers = o.sharers := by
  obtain ⟨task, htask, rfl, rfl⟩ := move_eq_some h
  have hcount := countP_set_add SharingTask.shares { task with phase := target } htask
  simp only [SharingTask.shares, bne_iff_ne, ne_eq, hsource, htarget, not_false_eq_true,
    if_true] at hcount
  exact Nat.add_right_cancel hcount

theorem sharers_move_over (h : o.move i .leaving .over = some o') :
    o'.sharers + 1 = o.sharers := by
  obtain ⟨task, htask, hphase, rfl⟩ := move_eq_some h
  have hcount := countP_set_add SharingTask.shares { task with phase := .over } htask
  simp only [SharingTask.shares, hphase] at hcount
  exact hcount

theorem leave_eq_some (h : o.leave own i = some o') :
    o'.held = o.held ∧ o'.leftTo = o.leftTo ∧ o'.sharers + 1 = o.sharers ∧
      o'.fate = if o.held = false ∧ o'.sharers = 0 then
        if own then .selfJoined else .destroyed else o.fate := by
  obtain ⟨u, hmove, rfl⟩ := Option.map_eq_some_iff.mp h
  have hcount := sharers_move_over hmove
  obtain ⟨task, -, -, hu⟩ := move_eq_some hmove
  have hheld : u.held = o.held := by rw [hu]
  have hleft : u.leftTo = o.leftTo := by rw [hu]
  have hfate : u.fate = o.fate := by rw [hu]
  rw [settle, ← hheld]
  split
  · rename_i hlast
    exact ⟨rfl, hleft, hcount, (if_pos hlast).symm⟩
  · rename_i hlast
    exact ⟨rfl, hleft, hcount, hfate⟩

/-! ### The operations -/

/-- A task can be given a reference as long as there is one. -/
theorem Sound.share (h : o.Sound own) (halive : o.fate = .alive) (hshares : task.shares = true) :
    (o.share task).Sound own where
  held_iff := h.held_iff
  fate_eq := by
    have hfate : (o.share task).fate = .alive := halive
    rw [hfate]
    cases hleft : (o.share task).leftTo with
    | none => rfl
    | some n =>
      have hpos : 0 < (o.share task).sharers := by rw [sharers_share o hshares]; omega
      exact (if_pos hpos).symm
  left_zero := by
    intro hleft
    have hzero := h.left_zero hleft
    have hfate := h.fate_eq
    have hleft' : o.leftTo = some 0 := hleft
    -- nobody is left who could have given the reference
    simp [hleft', hzero, halive] at hfate

theorem Sound.move (h : o.Sound own) (hmove : o.move i source target = some o')
    (hsource : source ≠ .over) (htarget : target ≠ .over) : o'.Sound own := by
  have hcount := sharers_move hmove hsource htarget
  obtain ⟨task, -, -, rfl⟩ := move_eq_some hmove
  exact {
    held_iff := h.held_iff
    fate_eq := by rw [hcount]; exact h.fate_eq
    left_zero := by rw [hcount]; exact h.left_zero }

theorem Sound.alive_of_held (h : o.Sound own) (hheld : o.held = true) : o.fate = .alive := by
  rw [h.fate_eq, h.held_iff.mp hheld]

theorem Sound.letGo (h : o.Sound own) (hheld : o.held = true) : o.letGo.Sound own where
  held_iff := by simp [SharedOwner.letGo]
  fate_eq := by
    have halive := h.alive_of_held hheld
    have hsharers : o.letGo.sharers = o.sharers := rfl
    rw [hsharers]
    change (if o.sharers = 0 then Fate.destroyed else o.fate) = _
    by_cases hzero : o.sharers = 0
    · simp [SharedOwner.letGo, hzero]
    · have hpos : 0 < o.sharers := Nat.pos_of_ne_zero hzero
      simp [SharedOwner.letGo, hzero, hpos, halive]
  left_zero := fun hleft => Option.some.inj hleft

/-- What is shared has not been destroyed. -/
theorem Sound.alive (h : o.Sound own) (hpos : 0 < o.sharers) : o.fate = .alive := by
  rw [h.fate_eq]
  split
  · rfl
  · exact if_pos hpos

theorem Sound.leave (h : o.Sound own) (hleave : o.leave own i = some o') : o'.Sound own := by
  obtain ⟨hheld, hleft, hcount, hfate⟩ := leave_eq_some hleave
  have hpos : 0 < o.sharers := by omega
  -- the task that leaves still shares the object
  have hnone : o.leftTo ≠ some 0 := fun hleft => Nat.ne_of_gt hpos (h.left_zero hleft)
  rw [h.alive hpos] at hfate
  exact {
    held_iff := by rw [hheld, hleft]; exact h.held_iff
    fate_eq := by
      rw [hfate, hleft]
      cases hn : o.leftTo with
      | none => rw [h.held_iff.mpr hn]; simp
      | some n =>
        have hfalse : o.held = false := by
          rw [← Bool.not_eq_true, h.held_iff, hn]
          exact Option.some_ne_none n
        have hn0 : 0 < n := by
          rw [Nat.pos_iff_ne_zero]
          rintro rfl
          exact hnone hn
        by_cases hzero : o'.sharers = 0
        · simp [hfalse, hzero, hn0]
        · simp [hzero, Nat.pos_of_ne_zero hzero]
    left_zero := by
      intro hzero
      rw [hleft] at hzero
      exact absurd hzero hnone }

/-- A thread has to join itself when the owner has left the object to tasks, and all are over. -/
theorem Sound.selfJoined_iff (h : o.Sound own) :
    o.fate = .selfJoined ↔ own = true ∧ (∃ n, o.leftTo = some n ∧ 0 < n) ∧ o.sharers = 0 := by
  rw [h.fate_eq]
  cases hleft : o.leftTo with
  | none => simp
  | some n =>
    by_cases hpos : 0 < o.sharers
    · simp [hpos, Nat.ne_of_gt hpos]
    · have hzero : o.sharers = 0 := Nat.eq_zero_of_not_pos hpos
      -- all tasks are over, and the owner has left some of them behind or none
      cases own <;> simp [hzero, Nat.pos_iff_ne_zero]

end SharedOwner

end HttpClient.Semantics
