import HttpClient.Asyncx.WaitFor

/-!
# Running a job in a thread pool

`run_in_pool` posts a job to a pool. When the job is done it stores its outcome and posts a
wake-up to the executor of the coroutine, which sets the timer of the coroutine to the present.
So a wait that begins after the wake-up is over at once: no wake-up is lost.

The coroutine waits only if the job is not done when it looks. Once it resumes it takes what is
stored to be the outcome. But a cancellation of the coroutine ends the wait too.

## Main definitions

* `PoolState` — what the job and the coroutine share
* `RunInPool`, `PoolAction`, `RunInPool.step` — the job, its wake-up and the coroutine
* `RunInPool.Honest` — the coroutine ends as its job has ended, or cancelled
* `RunInPool.ResumedDone` — when it resumes the job is done

## Main results

* `RunInPool.Sound.step` — what every step keeps
* `run_in_pool_attended` — a coroutine that waits is going to be woken
* `run_in_pool_honest_iff` — the runs in which `run_in_pool` is honest
* `run_in_pool_takes_nothing` — a run in which it takes a value that is not there
-/

set_option autoImplicit false

namespace HttpClient.Asyncx

open Semantics

variable {α ε : Type}

/-! ### The coroutine and its job -/

structure PoolState (α ε : Type) where
  value : Option α := none
  error : Option ε := none
  done : Bool := false

/-- What the job stores when it is done. -/
def PoolState.store : Except ε α → PoolState α ε
  | .ok value => { value := some value, done := true }
  | .error error => { error := some error, done := true }

/-- How the coroutine ends that reads the state. -/
def PoolState.endWith (isVoid : Bool) (state : PoolState α ε) : Ending α ε :=
  match state.error with
  | some error => .throws error
  | none => endOf isVoid state.value

inductive PoolPhase (α ε : Type) where
  /-- The coroutine has posted the job. -/
  | posted
  /-- It has found that the job is not done. -/
  | unready
  | waiting
  /-- The wait is over, and the coroutine is about to resume. -/
  | woken
  | ended (ending : Ending α ε)

structure RunInPool (α ε : Type) where
  /-- The outcome of the job, once it is done. -/
  job : Option (Except ε α) := none
  state : PoolState α ε := {}
  /-- The job is done and still has to post the wake-up. -/
  toPost : Bool := false
  /-- The wake-up has been posted and has not run. -/
  wakeUp : Bool := false
  /-- The time of the timer has come. -/
  expired : Bool := false
  cancelled : Bool := false
  phase : PoolPhase α ε := .posted

inductive PoolAction (α ε : Type) where
  /-- The job is done, in a thread of the pool. -/
  | finish (outcome : Except ε α)
  | postWakeUp
  /-- The wake-up runs on the executor of the coroutine. -/
  | runWakeUp
  /-- The coroutine looks whether the job is done. -/
  | check
  | wait
  /-- The cancellation of the coroutine is signalled. -/
  | cancel
  | resume

namespace RunInPool

/-- The coroutine reads what is stored. -/
def read (isVoid : Bool) (s : RunInPool α ε) : RunInPool α ε :=
  { s with phase := .ended (s.state.endWith isVoid) }

/-- End a wait that has begun. -/
def endWait (s : RunInPool α ε) : RunInPool α ε :=
  match s.phase with
  | .waiting => { s with phase := .woken }
  | _ => s

def step (isVoid : Bool) (s : RunInPool α ε) : PoolAction α ε → Option (RunInPool α ε)
  | .finish outcome =>
    match s.job with
    | none => some { s with job := some outcome, state := .store outcome, toPost := true }
    | some _ => none
  | .postWakeUp => if s.toPost then some { s with toPost := false, wakeUp := true } else none
  | .runWakeUp =>
    if s.wakeUp then some { s with wakeUp := false, expired := true }.endWait else none
  | .check =>
    match s.phase with
    | .posted => some (if s.state.done then s.read isVoid else { s with phase := .unready })
    | _ => none
  | .wait =>
    match s.phase with
    | .unready =>
      -- the wait of a coroutine that has been cancelled throws at once
      if s.cancelled then some { s with phase := .ended .cancelled }
      -- a timer that has expired does not let it wait
      else some { s with phase := if s.expired then .woken else .waiting }
    | _ => none
  | .cancel => some { s with cancelled := true }.endWait
  | .resume =>
    match s.phase with
    | .woken => some (s.read isVoid)
    | _ => none

/-! ### What is to hold -/

/-- The coroutine has returned the value of the job, thrown the exception of the job, or thrown
because it was cancelled. -/
def Honest (s : RunInPool α ε) : Prop :=
  match s.phase with
  | .ended (.returns value) => s.job = some (.ok value)
  | .ended .finishes => ∃ value, s.job = some (.ok value)
  | .ended (.throws error) => s.job = some (.error error)
  | .ended .cancelled => s.cancelled = true
  | .ended .timesOut | .ended .takesNothing => False
  | _ => True

/-- When the coroutine resumes the job is done. -/
def ResumedDone (s : RunInPool α ε) : PoolAction α ε → Prop
  | .resume => s.state.done = true
  | _ => True

instance (s : RunInPool α ε) : ∀ action, Decidable (s.ResumedDone action)
  | .resume => inferInstanceAs (Decidable (_ = true))
  | .finish _ | .postWakeUp | .runWakeUp | .check | .wait | .cancel => isTrue trivial

/-- Somebody is going to wake the coroutine: the job, when it is done, or its wake-up. -/
def Attended (s : RunInPool α ε) : Prop := s.job = none ∨ s.toPost = true ∨ s.wakeUp = true

/-- The state is that of the job, and a coroutine that waits is going to be woken. -/
structure Sound (s : RunInPool α ε) : Prop where
  stored : s.state = s.job.elim {} PoolState.store
  awaited : s.expired = true ∨ s.Attended
  waits : s.phase = .waiting → s.expired = false

/-! ### Steps -/

variable {isVoid : Bool} {s s' : RunInPool α ε} {action : PoolAction α ε}

theorem step_finish {outcome : Except ε α} (h : s.step isVoid (.finish outcome) = some s') :
    s.job = none ∧
      s' = { s with job := some outcome, state := .store outcome, toPost := true } := by
  unfold step at h
  dsimp only at h
  split at h
  case h_1 hnone => exact ⟨hnone, (Option.some.inj h).symm⟩
  case h_2 => cases h

theorem step_postWakeUp (h : s.step isVoid .postWakeUp = some s') :
    s.toPost = true ∧ s' = { s with toPost := false, wakeUp := true } := by
  unfold step at h
  dsimp only at h
  split_ifs at h with hpost
  exact ⟨hpost, (Option.some.inj h).symm⟩

theorem step_runWakeUp (h : s.step isVoid .runWakeUp = some s') :
    s.wakeUp = true ∧ s' = endWait { s with wakeUp := false, expired := true } := by
  unfold step at h
  dsimp only at h
  split_ifs at h with hwake
  exact ⟨hwake, (Option.some.inj h).symm⟩

theorem step_check (h : s.step isVoid .check = some s') :
    s.phase = .posted ∧
      (s.state.done = true ∧ s' = s.read isVoid ∨ s' = { s with phase := .unready }) := by
  unfold step at h
  dsimp only at h
  split at h
  case h_1 hposted =>
    refine ⟨hposted, ?_⟩
    obtain rfl := Option.some.inj h
    split_ifs with hdone
    · exact .inl ⟨hdone, rfl⟩
    · exact .inr rfl
  case h_2 => cases h

theorem step_wait (h : s.step isVoid .wait = some s') :
    s.phase = .unready ∧
      (s.cancelled = true ∧ s' = { s with phase := .ended .cancelled } ∨
        s.expired = true ∧ s' = { s with phase := .woken } ∨
        s.expired = false ∧ s' = { s with phase := .waiting }) := by
  unfold step at h
  dsimp only at h
  split at h
  case h_1 hunready =>
    refine ⟨hunready, ?_⟩
    split_ifs at h with hcancelled hexpired
    · exact .inl ⟨hcancelled, (Option.some.inj h).symm⟩
    · exact .inr (.inl ⟨hexpired, (Option.some.inj h).symm⟩)
    · exact .inr (.inr ⟨by simpa using hexpired, (Option.some.inj h).symm⟩)
  case h_2 => cases h

theorem step_resume (h : s.step isVoid .resume = some s') :
    s.phase = .woken ∧ s' = s.read isVoid := by
  unfold step at h
  dsimp only at h
  split at h
  case h_1 hwoken => exact ⟨hwoken, (Option.some.inj h).symm⟩
  case h_2 => cases h

/-- Ending a wait changes nothing but the phase. -/
theorem endWait_cases (s : RunInPool α ε) :
    s.phase = .waiting ∧ s.endWait = { s with phase := .woken } ∨
      s.phase ≠ .waiting ∧ s.endWait = s := by
  rw [endWait]
  split
  case h_1 hwaiting => exact .inl ⟨hwaiting, rfl⟩
  case h_2 hother => exact .inr ⟨hother, rfl⟩

theorem sound_start : Sound ({} : RunInPool α ε) :=
  ⟨rfl, .inr (.inl rfl), fun h => by cases h⟩

namespace Sound

/-- A step of the coroutine that does not begin to wait. -/
theorem withPhase (h : s.Sound) {phase : PoolPhase α ε} (hphase : phase ≠ .waiting) :
    Sound { s with phase } :=
  ⟨h.stored, h.awaited, fun hwaiting => absurd hwaiting hphase⟩

theorem endWait (h : s.Sound) : s.endWait.Sound := by
  rcases endWait_cases s with ⟨-, heq⟩ | ⟨-, heq⟩
  · -- it no longer waits
    rw [heq]
    exact h.withPhase fun hwoken => by cases hwoken
  · rw [heq]
    exact h

theorem step (h : s.Sound) (hstep : s.step isVoid action = some s') : s'.Sound := by
  cases action with
  | finish outcome =>
    obtain ⟨-, rfl⟩ := step_finish hstep
    exact ⟨rfl, .inr (.inr (.inl rfl)), h.waits⟩
  | postWakeUp =>
    obtain ⟨-, rfl⟩ := step_postWakeUp hstep
    exact ⟨h.stored, .inr (.inr (.inr rfl)), h.waits⟩
  | runWakeUp =>
    obtain ⟨-, rfl⟩ := step_runWakeUp hstep
    -- the wake-up sets the timer, and ends a wait that has begun
    rcases endWait_cases { s with wakeUp := false, expired := true } with ⟨-, heq⟩ | ⟨hnot, heq⟩
    · rw [heq]
      exact ⟨h.stored, .inl rfl, fun hwoken => by cases hwoken⟩
    · rw [heq]
      exact ⟨h.stored, .inl rfl, fun hwaiting => absurd hwaiting hnot⟩
  | check =>
    obtain ⟨-, ⟨-, rfl⟩ | rfl⟩ := step_check hstep
    · exact h.withPhase fun hended => by cases hended
    · exact h.withPhase fun hunready => by cases hunready
  | wait =>
    obtain ⟨-, ⟨-, rfl⟩ | ⟨-, rfl⟩ | ⟨hexpired, rfl⟩⟩ := step_wait hstep
    · exact h.withPhase fun hended => by cases hended
    · exact h.withPhase fun hwoken => by cases hwoken
    · exact ⟨h.stored, h.awaited, fun _ => hexpired⟩
  | cancel =>
    obtain rfl := Option.some.inj hstep
    have hcancelled : Sound { s with cancelled := true } := ⟨h.stored, h.awaited, h.waits⟩
    exact hcancelled.endWait
  | resume =>
    obtain ⟨-, rfl⟩ := step_resume hstep
    exact h.withPhase fun hended => by cases hended

/-- What is read is true if and only if the job is done. -/
theorem honest_read_iff (h : s.Sound) : (s.read isVoid).Honest ↔ s.state.done = true := by
  have hstored := h.stored
  cases hjob : s.job with
  | none =>
    -- nothing is stored, so there is no value to take
    rw [hjob, Option.elim_none] at hstored
    rw [read, Honest, hstored]
    refine iff_of_false ?_ Bool.false_ne_true
    cases isVoid with
    | true =>
      rintro ⟨value, hvalue⟩
      rw [hjob] at hvalue
      cases hvalue
    | false => exact fun hnothing => hnothing
  | some outcome =>
    rw [hjob, Option.elim_some] at hstored
    rw [read, Honest, hstored]
    cases outcome with
    | ok value =>
      refine iff_of_true ?_ rfl
      cases isVoid with
      | true => exact ⟨value, hjob⟩
      | false => exact hjob
    | error error => exact iff_of_true hjob rfl

end Sound

/-- What a coroutine has ended with stays true. -/
theorem Honest.mono (h : s.Honest) (hphase : s'.phase = s.phase)
    (hjob : ∀ outcome, s.job = some outcome → s'.job = some outcome)
    (hcancelled : s.cancelled = true → s'.cancelled = true) : s'.Honest := by
  rw [Honest] at h ⊢
  rw [hphase]
  split at h
  · exact hjob _ h
  · exact h.imp fun _ => hjob _
  · exact hjob _ h
  · exact hcancelled h
  · exact h
  · exact h
  · trivial

/-- Every step but a resumption keeps the coroutine honest. -/
theorem resumedDone_iff_honest (hsound : s.Sound) (h : s.Honest)
    (hstep : s.step isVoid action = some s') : s.ResumedDone action ↔ s'.Honest := by
  cases action with
  | finish outcome =>
    obtain ⟨hnone, rfl⟩ := step_finish hstep
    refine iff_of_true trivial (h.mono rfl (fun o ho => ?_) fun hc => hc)
    rw [hnone] at ho
    cases ho
  | postWakeUp =>
    obtain ⟨-, rfl⟩ := step_postWakeUp hstep
    exact iff_of_true trivial (h.mono rfl (fun _ ho => ho) fun hc => hc)
  | runWakeUp =>
    obtain ⟨-, rfl⟩ := step_runWakeUp hstep
    refine iff_of_true trivial ?_
    rcases endWait_cases { s with wakeUp := false, expired := true } with ⟨-, heq⟩ | ⟨-, heq⟩
    · rw [heq]
      trivial
    · rw [heq]
      exact h.mono rfl (fun _ ho => ho) fun hc => hc
  | check =>
    refine iff_of_true trivial ?_
    -- here it reads only if the job is done
    obtain ⟨-, ⟨hdone, rfl⟩ | rfl⟩ := step_check hstep
    · exact hsound.honest_read_iff.mpr hdone
    · trivial
  | wait =>
    refine iff_of_true trivial ?_
    obtain ⟨-, ⟨hcancelled, rfl⟩ | ⟨-, rfl⟩ | ⟨-, rfl⟩⟩ := step_wait hstep
    · exact hcancelled
    · trivial
    · trivial
  | cancel =>
    obtain rfl := Option.some.inj hstep
    refine iff_of_true trivial ?_
    rcases endWait_cases { s with cancelled := true } with ⟨-, heq⟩ | ⟨-, heq⟩
    · rw [heq]
      trivial
    · rw [heq]
      exact h.mono rfl (fun _ ho => ho) fun _ => rfl
  | resume =>
    obtain ⟨-, rfl⟩ := step_resume hstep
    exact hsound.honest_read_iff.symm

end RunInPool

/-- In every run a coroutine that waits is going to be woken by its job or the wake-up. -/
theorem run_in_pool_attended (isVoid : Bool) {s : RunInPool α ε}
    (hreach : Reaches (RunInPool.step isVoid) {} s) (hwaiting : s.phase = .waiting) :
    s.Attended := by
  have hsound : s.Sound :=
    invariant_of_reaches (fun _ _ _ h hstep => RunInPool.Sound.step h hstep)
      RunInPool.sound_start hreach
  -- it would not have begun to wait on a timer that has expired
  refine hsound.awaited.resolve_left fun hexpired => ?_
  rw [hsound.waits hwaiting] at hexpired
  cases hexpired

/-- In every state of a run `run_in_pool` is honest, if and only if the job is done whenever it
resumes. -/
theorem run_in_pool_honest_iff (isVoid : Bool) (actions : List (PoolAction α ε))
    {s : RunInPool α ε} (hrun : exec (RunInPool.step isVoid) {} actions = some s) :
    Along (RunInPool.step isVoid) RunInPool.ResumedDone {} actions ↔
      ∀ before after t, actions = before ++ after →
        exec (RunInPool.step isVoid) {} before = some t → t.Honest := by
  refine along_iff_throughout_of_invariant (fun _ _ _ h hstep => RunInPool.Sound.step h hstep)
    ?_ RunInPool.sound_start trivial hrun
  intro s action t hs h hstep
  exact RunInPool.resumedDone_iff_honest hs h hstep

/-- The job is done while the coroutine is about to wait, and the coroutine is cancelled when
the wake-up has been posted. -/
def doneBeforeWait : List (PoolAction Nat String) :=
  [.check, .finish (.ok 7), .postWakeUp, .wait, .cancel, .runWakeUp, .resume]

theorem run_in_pool_honest_doneBeforeWait :
    ∃ s, exec (RunInPool.step false) {} doneBeforeWait = some s ∧
      s.phase = .ended (.returns 7) ∧ s.Honest :=
  ⟨_, rfl, rfl,
    (run_in_pool_honest_iff false doneBeforeWait rfl).mp (by decide) doneBeforeWait [] _ rfl rfl⟩

/-- The coroutine is cancelled while the job runs: it takes a value that is not there, or
returns as if the job were done. -/
theorem run_in_pool_takes_nothing :
    (∃ s, exec (RunInPool.step false) ({} : RunInPool Nat String)
        [.check, .wait, .cancel, .resume] = some s ∧
      s.phase = .ended .takesNothing ∧ s.state.done = false) ∧
    ∃ s, exec (RunInPool.step true) ({} : RunInPool Unit String)
        [.check, .wait, .cancel, .resume] = some s ∧
      s.phase = .ended .finishes ∧ s.state.done = false :=
  ⟨⟨_, rfl, rfl, rfl⟩, _, rfl, rfl, rfl⟩

end HttpClient.Asyncx
