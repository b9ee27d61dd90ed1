import HttpClient.Semantics.Machine
import HttpClient.Semantics.SharedOwner
import Mathlib.Data.List.Basic

/-!
# The life of a client

A client shares its `Impl` with the coroutines of the requests that it has spawned on its
`io_context`. With no `io_context` given it has one of its own, with a thread. The `Impl` has a
client for HTTP/1.1 as a member, whose own `Impl` is shared in the same way with coroutines on the
threads of its shards: the requests that are sent by a coroutine of the client or, on the fast
path, by the caller, and the maintenance while it runs.

Nothing keeps the caller from destroying the client while a request is in flight. Even a request
that is waited for is in flight for a while after its answer. The coroutine then destroys the
`Impl`, on the thread that the destructor joins. `shutdown` stops the `io_context` of the client:
what has been spawned on it and has not ended is never resumed, and keeps the `Impl` for ever.

## Main definitions

* `ClientLife` — the two shared objects
* `LifeAction`, `ClientLife.step` — the steps

## Main results

* `client_aborts_iff` — when the process is terminated
* `shutdown_strands` — what a shutdown leaves behind
-/

set_option autoImplicit false

namespace HttpClient

open Semantics

/-- The `Impl` of the client, and that of its HTTP/1.1 client. -/
structure ClientLife where
  impl : SharedOwner := {}
  h1 : SharedOwner := {}
  /-- The `io_context` that the client owns has been stopped. -/
  stopped : Bool := false
  deriving DecidableEq, Repr

inductive LifeAction where
  /-- A request is spawned on the `io_context`, whose threads are the caller's if it is. -/
  | spawn (thread : Nat)
  /-- A request goes to the HTTP/1.1 client at once. -/
  | submitH1 (shard : Nat)
  /-- A request of the client that runs is sent by HTTP/1.1. -/
  | sendH1 (i shard : Nat)
  | resume (i : Nat)
  | suspend (i : Nat)
  /-- The handler is called. -/
  | answer (i : Nat)
  /-- The coroutine ends, and with it its reference. -/
  | leave (i : Nat)
  | resumeH1 (i : Nat)
  | suspendH1 (i : Nat)
  | answerH1 (i : Nat)
  | leaveH1 (i : Nat)
  /-- The maintenance of a shard locks its weak reference. -/
  | maintain (shard : Nat)
  | shutdown
  /-- The client is destroyed. -/
  | letGo
  deriving DecidableEq, Repr

namespace ClientLife

/-- A thread has joined itself in a destructor, which must not throw. -/
def Aborted (s : ClientLife) : Prop := s.impl.fate = .selfJoined ∨ s.h1.fate = .selfJoined

instance (s : ClientLife) : Decidable s.Aborted :=
  inferInstanceAs (Decidable (_ ∨ _))

/-- A task of an object goes on if its thread has nothing else to do. -/
def resumed (o : SharedOwner) (i : Nat) : Option SharedOwner :=
  match o.tasks[i]? with
  | none => none
  | some task => if o.busy task.thread then none else o.move i .waiting .running

/-- With the `Impl` its members are destroyed. -/
def release (s : ClientLife) : ClientLife :=
  if s.impl.fate = .destroyed then { s with h1 := s.h1.letGo } else s

/-- A step of the client; `owned` says that it has an `io_context` of its own. -/
def step (owned : Bool) (s : ClientLife) (action : LifeAction) : Option ClientLife :=
  if s.Aborted then none
  else
    match action with
    | .spawn thread =>
      if s.impl.held then
        some { s with impl := s.impl.share ⟨if owned then 0 else thread, .waiting⟩ }
      else none
    | .submitH1 shard =>
      if s.impl.held then some { s with h1 := s.h1.share ⟨shard, .waiting⟩ } else none
    | .sendH1 i shard =>
      match s.impl.tasks[i]? with
      | some ⟨_, .running⟩ => some { s with h1 := s.h1.share ⟨shard, .waiting⟩ }
      | _ => none
    | .resume i =>
      if s.stopped then none else (resumed s.impl i).map fun impl => { s with impl }
    | .suspend i => (s.impl.move i .running .waiting).map fun impl => { s with impl }
    | .answer i => (s.impl.move i .running .leaving).map fun impl => { s with impl }
    | .leave i => (s.impl.leave owned i).map fun impl => release { s with impl }
    | .resumeH1 i => (resumed s.h1 i).map fun h1 => { s with h1 }
    | .suspendH1 i => (s.h1.move i .running .waiting).map fun h1 => { s with h1 }
    | .answerH1 i => (s.h1.move i .running .leaving).map fun h1 => { s with h1 }
    | .leaveH1 i => (s.h1.leave true i).map fun h1 => { s with h1 }
    | .maintain shard =>
      if s.h1.fate = .alive ∧ s.h1.busy shard = false then
        some { s with h1 := s.h1.share ⟨shard, .leaving⟩ }
      else none
    | .shutdown => if s.impl.held then some { s with stopped := s.stopped || owned } else none
    | .letGo => if s.impl.held then some (release { s with impl := s.impl.letGo }) else none

/-! ### What a step does -/

variable {owned : Bool} {s t u : ClientLife} {action : LifeAction}

/-- What a step does to the two objects. -/
inductive Effect (owned : Bool) (s : ClientLife) : LifeAction → ClientLife → Prop where
  | share {action : LifeAction} (task : SharingTask) (hshares : task.shares = true)
      (hheld : s.impl.held = true) : Effect owned s action { s with impl := s.impl.share task }
  | shareH1 {action : LifeAction} (task : SharingTask) (hshares : task.shares = true)
      (halive : s.impl.held = true ∨ 0 < s.impl.sharers ∨ s.h1.fate = .alive) :
      Effect owned s action { s with h1 := s.h1.share task }
  | move {action : LifeAction} {i : Nat} {source target : TaskPhase} {impl : SharedOwner}
      (hmove : s.impl.move i source target = some impl) (hsource : source ≠ .over)
      (htarget : target ≠ .over) (hwaiting : source = .waiting → s.stopped = false) :
      Effect owned s action { s with impl }
  | moveH1 {action : LifeAction} {i : Nat} {source target : TaskPhase} {h1 : SharedOwner}
      (hmove : s.h1.move i source target = some h1) (hsource : source ≠ .over)
      (htarget : target ≠ .over) : Effect owned s action { s with h1 }
  | leave {action : LifeAction} {i : Nat} {impl : SharedOwner}
      (hleave : s.impl.leave owned i = some impl) : Effect owned s action (release { s with impl })
  | leaveH1 {action : LifeAction} {i : Nat} {h1 : SharedOwner}
      (hleave : s.h1.leave true i = some h1) : Effect owned s action { s with h1 }
  | stop {action : LifeAction} (stopped : Bool) (hstopped : s.stopped = true → stopped = true) :
      Effect owned s action { s with stopped }
  | letGo (hheld : s.impl.held = true) :
      Effect owned s .letGo (release { s with impl := s.impl.letGo })

theorem move_of_resumed {o o' : SharedOwner} {i : Nat} (h : resumed o i = some o') :
    o.move i .waiting .running = some o' := by
  rw [resumed] at h
  split at h
  · cases h
  · split at h
    · cases h
    · exact h

theorem effect_of_step (h : s.step owned action = some t) :
    ¬ s.Aborted ∧ Effect owned s action t := by
  unfold step at h
  split at h
  · cases h
  · rename_i halive
    refine ⟨halive, ?_⟩
    cases action with
    | spawn thread =>
      dsimp only at h
      split at h
      · rename_i hheld
        exact Option.some.inj h ▸ .share _ rfl hheld
      · cases h
    | submitH1 shard =>
      dsimp only at h
      split at h
      · rename_i hheld
        exact Option.some.inj h ▸ .shareH1 _ rfl (.inl hheld)
      · cases h
    | sendH1 i shard =>
      dsimp only at h
      split at h
      · rename_i thread htask
        have hpos : 0 < s.impl.sharers := countP_pos_of_getElem? htask rfl
        exact Option.some.inj h ▸ .shareH1 _ rfl (.inr (.inl hpos))
      · cases h
    | resume i =>
      dsimp only at h
      split at h
      · cases h
      · rename_i hrunning
        obtain ⟨impl, himpl, rfl⟩ := Option.map_eq_some_iff.mp h
        exact .move (move_of_resumed himpl) (by decide) (by decide)
          fun _ => Bool.not_eq_true _ ▸ hrunning
    | suspend i =>
      obtain ⟨impl, himpl, rfl⟩ := Option.map_eq_some_iff.mp h
      exact .move himpl (by decide) (by decide) nofun
    | answer i =>
      obtain ⟨impl, himpl, rfl⟩ := Option.map_eq_some_iff.mp h
      exact .move himpl (by decide) (by decide) nofun
    | leave i =>
      obtain ⟨impl, himpl, rfl⟩ := Option.map_eq_some_iff.mp h
      exact .leave himpl
    | resumeH1 i =>
      obtain ⟨h1, hh1, rfl⟩ := Option.map_eq_some_iff.mp h
      exact .moveH1 (move_of_resumed hh1) (by decide) (by decide)
    | suspendH1 i =>
      obtain ⟨h1, hh1, rfl⟩ := Option.map_eq_some_iff.mp h
      exact .moveH1 hh1 (by decide) (by decide)
    | answerH1 i =>
      obtain ⟨h1, hh1, rfl⟩ := Option.map_eq_some_iff.mp h
      exact .moveH1 hh1 (by decide) (by decide)
    | leaveH1 i =>
      obtain ⟨h1, hh1, rfl⟩ := Option.map_eq_some_iff.mp h
      exact .leaveH1 hh1
    | maintain shard =>
      dsimp only at h
      split at h
      · rename_i hfree
        exact Option.some.inj h ▸ .shareH1 _ rfl (.inr (.inr hfree.1))
      · cases h
    | shutdown =>
      dsimp only at h
      split at h
      · exact Option.some.inj h ▸ .stop _ fun hstopped => by rw [hstopped]; rfl
      · cases h
    | letGo =>
      dsimp only at h
      split at h
      · rename_i hheld
        exact Option.some.inj h ▸ .letGo hheld
      · cases h

/-! ### The invariant -/

/-- The client has the `Impl` for HTTP/1.1 as long as it has not been destroyed itself. -/
structure Sound (owned : Bool) (s : ClientLife) : Prop where
  impl : s.impl.Sound owned
  h1 : s.h1.Sound true
  h1_held : s.h1.held = true ↔ s.impl.fate ≠ .destroyed

theorem sound_start (owned : Bool) : Sound owned {} where
  impl := SharedOwner.sound_start owned
  h1 := SharedOwner.sound_start true
  h1_held := by decide

@[simp] theorem release_impl (s : ClientLife) : (release s).impl = s.impl := by
  rw [release]
  split <;> rfl

@[simp] theorem release_stopped (s : ClientLife) : (release s).stopped = s.stopped := by
  rw [release]
  split <;> rfl

theorem sound_release (himpl : s.impl.Sound owned) (hh1 : s.h1.Sound true)
    (hheld : s.h1.held = true) : (release s).Sound owned := by
  rw [release]
  split
  · rename_i hdestroyed
    exact {
      impl := himpl
      h1 := hh1.letGo hheld
      h1_held := by simp [SharedOwner.letGo, hdestroyed] }
  · rename_i hkept
    exact { impl := himpl, h1 := hh1, h1_held := by simp [hheld, hkept] }

/-- While the `Impl` of the client is alive so is the other one. -/
theorem Sound.h1_alive (h : s.Sound owned) (halive : s.impl.fate = .alive) :
    s.h1.held = true ∧ s.h1.fate = .alive := by
  have hheld : s.h1.held = true := h.h1_held.mpr (by rw [halive]; decide)
  exact ⟨hheld, h.h1.alive_of_held hheld⟩

theorem Sound.effect (h : s.Sound owned) (heffect : Effect owned s action t) : t.Sound owned := by
  cases heffect with
  | share task hshares hheld =>
    exact { h with impl := h.impl.share (h.impl.alive_of_held hheld) hshares }
  | shareH1 task hshares halive =>
    -- whoever hands out the reference has one, or has just locked a weak one
    have hfate : s.h1.fate = .alive := by
      rcases halive with hheld | hpos | hfate
      · exact (h.h1_alive (h.impl.alive_of_held hheld)).2
      · exact (h.h1_alive (h.impl.alive hpos)).2
      · exact hfate
    exact { h with h1 := h.h1.share hfate hshares }
  | @move _ i source target impl hmove hsource htarget hwaiting =>
    have hfate : impl.fate = s.impl.fate := by
      obtain ⟨task, -, -, rfl⟩ := SharedOwner.move_eq_some hmove
      rfl
    exact {
      impl := h.impl.move hmove hsource htarget
      h1 := h.h1
      h1_held := by rw [hfate]; exact h.h1_held }
  | @moveH1 _ i source target h1 hmove hsource htarget =>
    have hheld : h1.held = s.h1.held := by
      obtain ⟨task, -, -, rfl⟩ := SharedOwner.move_eq_some hmove
      rfl
    exact {
      impl := h.impl
      h1 := h.h1.move hmove hsource htarget
      h1_held := by rw [hheld]; exact h.h1_held }
  | leave hleave =>
    obtain ⟨-, -, hcount, -⟩ := SharedOwner.leave_eq_some hleave
    -- the coroutine that leaves has shared the `Impl` until now
    have halive := h.h1_alive (h.impl.alive (by omega))
    exact sound_release (h.impl.leave hleave) h.h1 halive.1
  | leaveH1 hleave =>
    obtain ⟨hheld, -⟩ := SharedOwner.leave_eq_some hleave
    exact {
      impl := h.impl
      h1 := h.h1.leave hleave
      h1_held := by rw [hheld]; exact h.h1_held }
  | stop stopped hstopped => exact { h with }
  | letGo hheld =>
    have halive := h.h1_alive (h.impl.alive_of_held hheld)
    exact sound_release (h.impl.letGo hheld) h.h1 halive.1

theorem Sound.step (h : s.Sound owned) (hstep : s.step owned action = some t) : t.Sound owned :=
  h.effect (effect_of_step hstep).2

theorem sound_of_reaches (hreach : Reaches (step owned) {} s) : s.Sound owned :=
  invariant_of_reaches (fun _ _ _ h hstep => h.step hstep) (sound_start owned) hreach

/-! ### The reference from outside -/

/-- The step leaves the reference from outside as it is, or it is given up. -/
def GivesUpAtMost (o o' : SharedOwner) : Prop :=
  o'.leftTo = o.leftTo ∨ o.leftTo = none ∧ o'.leftTo = some o.sharers

theorem givesUpAtMost_impl (h : s.Sound owned) (hstep : s.step owned action = some t) :
    GivesUpAtMost s.impl t.impl := by
  cases (effect_of_step hstep).2 with
  | share task hshares hheld => exact .inl rfl
  | shareH1 task hshares halive => exact .inl rfl
  | move hmove hsource htarget hwaiting =>
    obtain ⟨task, -, -, rfl⟩ := SharedOwner.move_eq_some hmove
    exact .inl rfl
  | moveH1 hmove hsource htarget => exact .inl rfl
  | leave hleave =>
    rw [release_impl]
    exact .inl (SharedOwner.leave_eq_some hleave).2.1
  | leaveH1 hleave => exact .inl rfl
  | stop stopped hstopped => exact .inl rfl
  | letGo hheld =>
    rw [release_impl]
    exact .inr ⟨h.impl.held_iff.mp hheld, rfl⟩

theorem givesUpAtMost_release (hh1 : s.h1.Sound true) (hheld : s.h1.held = true) :
    GivesUpAtMost s.h1 (release s).h1 := by
  rw [release]
  split
  · exact .inr ⟨hh1.held_iff.mp hheld, rfl⟩
  · exact .inl rfl

theorem givesUpAtMost_h1 (h : s.Sound owned) (hstep : s.step owned action = some t) :
    GivesUpAtMost s.h1 t.h1 := by
  cases (effect_of_step hstep).2 with
  | share task hshares hheld => exact .inl rfl
  | shareH1 task hshares halive => exact .inl rfl
  | move hmove hsource htarget hwaiting => exact .inl rfl
  | moveH1 hmove hsource htarget =>
    obtain ⟨task, -, -, rfl⟩ := SharedOwner.move_eq_some hmove
    exact .inl rfl
  | leave hleave =>
    obtain ⟨-, -, hcount, -⟩ := SharedOwner.leave_eq_some hleave
    exact givesUpAtMost_release h.h1 (h.h1_alive (h.impl.alive (by omega))).1
  | leaveH1 hleave => exact .inl (SharedOwner.leave_eq_some hleave).2.1
  | stop stopped hstopped => exact .inl rfl
  | letGo hheld =>
    exact givesUpAtMost_release h.h1 (h.h1_alive (h.impl.alive_of_held hheld)).1

/-- In the run the reference from outside has been given up while tasks shared the object. -/
def LeftBusy (owned : Bool) (o : ClientLife → SharedOwner) (actions : List LifeAction) : Prop :=
  ∃ before action after t u, actions = before ++ action :: after ∧
    exec (step owned) {} before = some t ∧ t.step owned action = some u ∧
    (o t).held = true ∧ (o u).held = false ∧ 0 < (o t).sharers

section Left

variable {o : ClientLife → SharedOwner} {own : Bool} {actions : List LifeAction}

/-- What has been left behind stays on record. -/
theorem leftTo_kept
    (hchange : ∀ s a t, s.Sound owned → s.step owned a = some t → GivesUpAtMost (o s) (o t))
    {n : Nat} (hs : s.Sound owned) (hleft : (o s).leftTo = some n)
    (hrun : exec (step owned) s actions = some t) : (o t).leftTo = some n := by
  have hstep : ∀ (s : ClientLife) a t, s.Sound owned ∧ (o s).leftTo = some n →
      s.step owned a = some t → t.Sound owned ∧ (o t).leftTo = some n := by
    rintro s a t ⟨hs, hleft⟩ hstep
    refine ⟨hs.step hstep, ?_⟩
    rcases hchange s a t hs hstep with hsame | ⟨hnone, -⟩
    · rw [hsame, hleft]
    · rw [hleft] at hnone
      cases hnone
  exact (invariant_of_reaches hstep ⟨hs, hleft⟩ ⟨actions, hrun⟩).2

theorem leftBusy_iff
    (hchange : ∀ s a t, s.Sound owned → s.step owned a = some t → GivesUpAtMost (o s) (o t))
    (hsound : ∀ s : ClientLife, s.Sound owned → (o s).Sound own) (hstart : (o {}).leftTo = none)
    (hrun : exec (step owned) {} actions = some s) :
    LeftBusy owned o actions ↔ ∃ n, (o s).leftTo = some n ∧ 0 < n := by
  constructor
  · rintro ⟨before, action, after, t, u, rfl, ht, hu, hheld, hfree, hpos⟩
    have htsound := sound_of_reaches ⟨before, ht⟩
    obtain ⟨v, hv, hafter⟩ := exec_append_eq_some.mp hrun
    obtain rfl := Option.some.inj (ht.symm.trans hv)
    obtain ⟨w, hw, hafter⟩ := exec_cons_eq_some.mp hafter
    obtain rfl := Option.some.inj (hu.symm.trans hw)
    have hnone := ((hsound t htsound).held_iff).mp hheld
    -- the step has put on record what was left behind
    have hsome : (o u).leftTo ≠ none := by
      rw [Ne, ← (hsound u (htsound.step hu)).held_iff, hfree]
      decide
    refine ⟨(o t).sharers, ?_, hpos⟩
    rcases hchange t action u htsound hu with hsame | ⟨-, hleft⟩
    · exact absurd (hsame.trans hnone) hsome
    · exact leftTo_kept hchange (htsound.step hu) hleft hafter
  · rintro ⟨n, hn, hpos⟩
    -- the record was made in one of the steps
    obtain ⟨before, action, after, t, u, rfl, ht, hu, hafter, hnone, hsome⟩ :=
      exists_step_of_exec (P := fun s => (o s).leftTo ≠ none) hrun (by simp [hstart])
        (by rw [hn]; exact Option.some_ne_none n)
    have htsound := sound_of_reaches ⟨before, ht⟩
    have hheld := ((hsound t htsound).held_iff).mpr (not_not.mp hnone)
    have hfree : (o u).held = false := by
      rw [← Bool.not_eq_true, (hsound u (htsound.step hu)).held_iff]
      exact hsome
    refine ⟨before, action, after, t, u, rfl, ht, hu, hheld, hfree, ?_⟩
    rcases hchange t action u htsound hu with hsame | ⟨-, hleft⟩
    · exact absurd (hsame.trans (not_not.mp hnone)) hsome
    · have hkept := leftTo_kept hchange (htsound.step hu) hleft hafter
      rw [hn] at hkept
      rw [← Option.some.inj hkept]
      exact hpos

end Left

/-- The answer of a request reaches its caller, who destroys the client at once: the coroutine is
not over yet, and has the last reference. -/
def askAndLetGo : List LifeAction := [.spawn 0, .resume 0, .answer 0, .letGo, .leave 0]

/-- A move of another kind leaves the tasks that wait where they are. -/
theorem waits_after_move {o o' : SharedOwner} {i j thread : Nat} {source target : TaskPhase}
    (hmove : o.move j source target = some o') (hsource : source ≠ .waiting)
    (htask : o.tasks[i]? = some ⟨thread, .waiting⟩) : o'.tasks[i]? = some ⟨thread, .waiting⟩ := by
  obtain ⟨task, hother, hphase, rfl⟩ := SharedOwner.move_eq_some hmove
  have hne : j ≠ i := by
    rintro rfl
    rw [htask] at hother
    obtain rfl := Option.some.inj hother
    exact hsource hphase.symm
  rw [List.getElem?_set_ne hne]
  exact htask

theorem waits_after_stop {i thread : Nat} (hstep : s.step owned action = some t)
    (hstop : s.stopped = true) (htask : s.impl.tasks[i]? = some ⟨thread, .waiting⟩) :
    t.stopped = true ∧ t.impl.tasks[i]? = some ⟨thread, .waiting⟩ := by
  cases (effect_of_step hstep).2 with
  | share task hshares hheld =>
    have hi : i < s.impl.tasks.length := (List.getElem?_eq_some_iff.mp htask).1
    refine ⟨hstop, ?_⟩
    rw [SharedOwner.share, List.getElem?_append_left hi]
    exact htask
  | shareH1 task hshares halive => exact ⟨hstop, htask⟩
  | move hmove hsource htarget hwaiting =>
    -- no task that waits is resumed on a loop that has been stopped
    refine ⟨hstop, waits_after_move hmove (fun h => ?_) htask⟩
    rw [hwaiting h] at hstop
    cases hstop
  | moveH1 hmove hsource htarget => exact ⟨hstop, htask⟩
  | leave hleave =>
    obtain ⟨impl, hmove, rfl⟩ := Option.map_eq_some_iff.mp hleave
    rw [release_stopped, release_impl, SharedOwner.tasks_settle]
    -- the task that leaves does not wait
    exact ⟨hstop, waits_after_move hmove (by decide) htask⟩
  | leaveH1 hleave => exact ⟨hstop, htask⟩
  | stop stopped hstopped => exact ⟨hstopped hstop, htask⟩
  | letGo hheld =>
    rw [release_stopped, release_impl]
    exact ⟨hstop, htask⟩

/-- Once the `io_context` of the client has been stopped, a request that waits on it is never
answered. It keeps both objects for ever, with the threads of the HTTP/1.1 client. -/
theorem shutdown_strands {i thread : Nat} (hs : Reaches (step owned) {} s)
    (hstop : s.stopped = true) (htask : s.impl.tasks[i]? = some ⟨thread, .waiting⟩)
    (ht : Reaches (step owned) s t) :
    t.impl.tasks[i]? = some ⟨thread, .waiting⟩ ∧ t.impl.fate = .alive ∧ t.h1.fate = .alive := by
  have hstep : ∀ (s : ClientLife) a t,
      s.Sound owned ∧ s.stopped = true ∧ s.impl.tasks[i]? = some ⟨thread, .waiting⟩ →
        s.step owned a = some t →
          t.Sound owned ∧ t.stopped = true ∧ t.impl.tasks[i]? = some ⟨thread, .waiting⟩ :=
    fun _ _ _ h hstep => ⟨h.1.step hstep, waits_after_stop hstep h.2.1 h.2.2⟩
  obtain ⟨hsound, -, htask⟩ :=
    invariant_of_reaches hstep ⟨sound_of_reaches hs, hstop, htask⟩ ht
  have halive := hsound.impl.alive (countP_pos_of_getElem? htask rfl)
  exact ⟨htask, halive, (hsound.h1_alive halive).2⟩

/-- A client that is shut down and destroyed while a request of its own is in flight. -/
theorem shutdown_strands_letGo :
    ∃ t, exec (step true) {} [.spawn 0, .shutdown, .letGo] = some t ∧ t.impl.fate = .alive ∧
      t.h1.fate = .alive :=
  have hs : Reaches (step true) {}
      { impl := ⟨true, [⟨0, .waiting⟩], .alive, none⟩, stopped := true } :=
    ⟨[.spawn 0, .shutdown], by decide⟩
  have hrun : exec (step true)
      { impl := ⟨true, [⟨0, .waiting⟩], .alive, none⟩, stopped := true } [.letGo] =
      some { impl := ⟨false, [⟨0, .waiting⟩], .alive, some 1⟩, stopped := true } := by decide
  ⟨_, by decide, (shutdown_strands hs rfl (i := 0) rfl ⟨_, hrun⟩).2⟩

end ClientLife

end HttpClient
