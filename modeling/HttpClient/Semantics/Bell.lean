import HttpClient.Semantics.Machine

/-!
# Bells that wake one sleeper

One coroutine waits on a timer that never expires; whoever is to wake it cancels the timer.
A flag is put up with the cancellation, and while it is up nobody cancels the timer again.
Cancelling a timer on which nobody waits has no effect. So a bell that is rung before the
wait has begun is lost: the flag is up, the coroutine sleeps, and nothing ever wakes it.

A machine has a bell if each of its steps moves the bell in one of the ways described here.
Whether its coroutine can sleep for ever is then a question about single steps.

## Main definitions

* `Bell`, `Bell.ring`, `Bell.Move` — a bell and what may happen to it
* `Bell.Lost` — the flag is up and the coroutine waits
* `SleepsThrough` — the coroutine waits for something that has come about, for ever

## Main results

* `Bell.Lost.move` — a lost bell stays lost
* `sleepsThrough_iff_not_along` — the runs after which the coroutine sleeps for ever
-/

set_option autoImplicit false

namespace HttpClient.Semantics

/-- Where the coroutine is. -/
inductive Sleeper where
  | before
  | waiting
  /-- The timer has been cancelled, and the coroutine is about to resume. -/
  | woken
  | over
  deriving DecidableEq, Repr

structure Bell where
  sleeper : Sleeper := .before
  rung : Bool := false
  deriving DecidableEq, Repr

namespace Bell

/-- Put up the flag and cancel the timer, unless the flag is up already. -/
def ring (bell : Bell) : Bell :=
  if bell.rung then bell
  else
    { sleeper :=
        match bell.sleeper with
        | .waiting => .woken
        | sleeper => sleeper
      rung := true }

/-- What may happen to a bell in one step. -/
inductive Move : Bell → Bell → Prop
  | stay (bell : Bell) : Move bell bell
  | ring (bell : Bell) : Move bell bell.ring
  | wait (bell : Bell) (h : bell.sleeper ≠ .waiting) :
      Move bell { bell with sleeper := .waiting }
  | rearm (bell : Bell) (h : bell.sleeper = .woken) :
      Move bell { sleeper := .waiting, rung := false }
  | stop (bell : Bell) (h : bell.sleeper ≠ .waiting) :
      Move bell { bell with sleeper := .over }

/-- The coroutine waits and nobody is going to wake it. -/
def Lost (bell : Bell) : Prop := bell.sleeper = .waiting ∧ bell.rung = true

instance (bell : Bell) : Decidable bell.Lost := inferInstanceAs (Decidable (_ ∧ _))

variable {bell bell' : Bell}

theorem ring_of_rung (h : bell.rung = true) : bell.ring = bell := if_pos h

@[simp] theorem rung_ring (bell : Bell) : bell.ring.rung = true := by
  unfold ring
  split
  · assumption
  · rfl

/-- Only a coroutine that waits notices that the bell is rung. -/
theorem sleeper_ring (h : bell.sleeper ≠ .waiting) : bell.ring.sleeper = bell.sleeper := by
  unfold ring
  split
  · rfl
  · dsimp only
    split
    · rename_i hwaiting
      exact absurd hwaiting h
    · rfl

theorem sleeper_ring_eq_before (h : bell.ring.sleeper = .before) : bell.sleeper = .before := by
  by_cases hwaiting : bell.sleeper = .waiting
  · unfold ring at h
    split at h
    · exact h
    · simp [hwaiting] at h
  · rwa [sleeper_ring hwaiting] at h

theorem sleeper_ring_eq_before_iff : bell.ring.sleeper = .before ↔ bell.sleeper = .before :=
  ⟨sleeper_ring_eq_before, fun h => (sleeper_ring (by simp [h])).trans h⟩

theorem sleeper_ring_eq_over : bell.ring.sleeper = .over ↔ bell.sleeper = .over := by
  by_cases hwaiting : bell.sleeper = .waiting
  · unfold ring
    split
    · exact Iff.rfl
    · simp [hwaiting]
  · rw [sleeper_ring hwaiting]

/-- Ringing a bell that is not lost leaves nobody waiting. -/
theorem not_lost_ring (h : ¬ bell.Lost) : ¬ bell.ring.Lost := by
  rintro ⟨hwaiting, -⟩
  unfold ring at hwaiting
  split at hwaiting
  · rename_i hrung
    exact h ⟨hwaiting, hrung⟩
  · dsimp only at hwaiting
    split at hwaiting
    · cases hwaiting
    · rename_i hother
      exact hother hwaiting

theorem Lost.move (h : bell.Lost) (hmove : Move bell bell') : bell' = bell := by
  cases hmove with
  | stay => rfl
  | ring => exact ring_of_rung h.2
  | wait hnot => exact absurd h.1 hnot
  | rearm hwoken => exact absurd (h.1.symm.trans hwoken) (by decide)
  | stop hnot => exact absurd h.1 hnot

end Bell

variable {σ α : Type*} {step : σ → α → Option σ} {bell : σ → Bell} {due : σ → Prop} {s t : σ}

/-- Every step moves the bell. -/
def Rings (step : σ → α → Option σ) (bell : σ → Bell) : Prop :=
  ∀ s a t, step s a = some t → Bell.Move (bell s) (bell t)

/-- The coroutine waits though what it waits for has come about, and none of the steps that
are left wakes it. -/
structure SleepsThrough (step : σ → α → Option σ) (bell : σ → Bell) (due : σ → Prop) (s : σ) :
    Prop where
  waiting : (bell s).sleeper = .waiting
  due : due s
  unwoken : ∀ t, Reaches step s t → (bell t).sleeper = .waiting

/-- A lost bell stays lost in every run. -/
theorem Rings.lost (hrings : Rings step bell) (h : (bell s).Lost) (hreach : Reaches step s t) :
    (bell t).Lost := by
  have hstep : ∀ u a v, (bell u).Lost → step u a = some v → (bell v).Lost := by
    intro u a v hlost hstep
    rw [hlost.move (hrings u a v hstep)]
    exact hlost
  exact invariant_of_reaches hstep h hreach

theorem Rings.sleepsThrough_of_lost (hrings : Rings step bell) (hlost : (bell s).Lost)
    (hdue : due s) : SleepsThrough step bell due s :=
  ⟨hlost.1, hdue, fun _ hreach => (hrings.lost hlost hreach).1⟩

/-- If the coroutine never waits for something that has come about as long as the flag is
down, it sleeps through it exactly when the bell is lost. -/
theorem Rings.sleepsThrough_iff (hrings : Rings step bell)
    (hawake : (bell s).sleeper = .waiting → (bell s).rung = false → ¬ due s) :
    SleepsThrough step bell due s ↔ due s ∧ (bell s).Lost := by
  constructor
  · intro h
    cases hrung : (bell s).rung with
    | true => exact ⟨h.due, h.waiting, hrung⟩
    | false => exact absurd h.due (hawake h.waiting hrung)
  · rintro ⟨hdue, hlost⟩
    exact hrings.sleepsThrough_of_lost hlost hdue

/-- If the steps that satisfy `ok` are those that do not lose the bell, the coroutine sleeps
through what it waits for exactly in the runs with a step that does not. -/
theorem sleepsThrough_iff_not_along {ok : σ → α → Prop} {Inv : σ → Prop}
    (hrings : Rings step bell)
    (hinv : ∀ s a t, Inv s → step s a = some t → Inv t)
    (hok : ∀ s a t, Inv s → ¬ (bell s).Lost → step s a = some t → (ok s a ↔ ¬ (bell t).Lost))
    (hawake : ∀ s, Inv s → (bell s).sleeper = .waiting → (bell s).rung = false → ¬ due s)
    {as : List α} (hs : Inv s) (hgood : ¬ (bell s).Lost) (hexec : exec step s as = some t) :
    SleepsThrough step bell due t ↔ due t ∧ ¬ Along step ok s as := by
  have hafter : Inv t := invariant_of_reaches hinv hs ⟨as, hexec⟩
  have hlost : Along step ok s as ↔ ¬ (bell t).Lost :=
    along_iff_of_absorbing hinv
      (fun u a v h hstep => hrings.lost h ⟨[a], by simp [exec, hstep]⟩) hok hs hgood hexec
  rw [hrings.sleepsThrough_iff (hawake t hafter), hlost, Decidable.not_not]

end HttpClient.Semantics
