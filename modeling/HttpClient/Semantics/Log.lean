import HttpClient.Semantics.Machine

/-!
# Machines that write a log

What an observer sees of a run is not always in the state the run ends in. A machine may be
given a log, to which every step appends what there is to see of it; the log decides nothing.

## Main definitions

* `logged step emits` — the machine whose states carry a log

## Main results

* `logged_eq_some`, `exec_of_logged` — a logged run is a run
* `invariant_of_logged` — what every step preserves of a state and its log
-/

set_option autoImplicit false

namespace HttpClient.Semantics

variable {σ α ω : Type*} {step : σ → α → Option σ} {emits : σ → α → List ω} {s t : σ} {a : α}
  {log log' : List ω} {as : List α}

/-- Every step appends to the log what there is to see of it. -/
def logged (step : σ → α → Option σ) (emits : σ → α → List ω) (s : σ × List ω) (a : α) :
    Option (σ × List ω) :=
  (step s.1 a).map fun t => (t, s.2 ++ emits s.1 a)

theorem logged_eq_some :
    logged step emits (s, log) a = some (t, log') ↔
      step s a = some t ∧ log' = log ++ emits s a := by
  unfold logged
  rw [Option.map_eq_some_iff]
  constructor
  · rintro ⟨u, hstep, hpair⟩
    obtain ⟨rfl, rfl⟩ := Prod.mk.inj hpair
    exact ⟨hstep, rfl⟩
  · rintro ⟨hstep, rfl⟩
    exact ⟨t, hstep, rfl⟩

theorem exec_of_logged (h : exec (logged step emits) (s, log) as = some (t, log')) :
    exec step s as = some t := by
  induction as generalizing s log with
  | nil =>
    obtain ⟨rfl, -⟩ := Prod.mk.inj (Option.some.inj h)
    rfl
  | cons a as ih =>
    obtain ⟨⟨u, log''⟩, hstep, hrest⟩ := exec_cons_eq_some.mp h
    exact exec_cons_eq_some.mpr ⟨u, (logged_eq_some.mp hstep).1, ih hrest⟩

/-- The run rule for a state and its log. -/
theorem invariant_of_logged {Inv : σ → List ω → Prop}
    (hstep : ∀ s log a t, Inv s log → step s a = some t → Inv t (log ++ emits s a))
    (hs : Inv s log) (h : exec (logged step emits) (s, log) as = some (t, log')) :
    Inv t log' := by
  have hkept : ∀ (u : σ × List ω) a v, Inv u.1 u.2 → logged step emits u a = some v →
      Inv v.1 v.2 := by
    intro u a v hu hv
    obtain ⟨hmove, hlog⟩ := logged_eq_some.mp hv
    rw [hlog]
    exact hstep u.1 u.2 a v.1 hu hmove
  have hreach : Reaches (logged step emits) (s, log) (t, log') := ⟨as, h⟩
  exact invariant_of_reaches hkept hs hreach

end HttpClient.Semantics
