import Mathlib.Logic.Relation

/-!
# Labelled machines and guarded runs

A machine is a partial step function: `step s a = some t` when action `a` is
enabled in state `s` and leads to `t`. A run is a list of actions executed one
after the other. Properties of runs are proved from one fact about a single step:
an invariant that holds initially and is preserved by every step holds in every
state a run reaches.

Some invariants are only preserved by steps that satisfy a condition on the state
they are taken from. `Along ok` says that every step of a run satisfies `ok`, and
the rules below are stated relative to it; the unconditional rules are the case
`ok = True`.

## Main definitions

* `exec step s as` — the state the run `as` leads to, if every action was enabled
* `Along step ok s as` — every step of the run satisfies `ok` where it is taken
* `Reaches step s t` — some run leads from `s` to `t`

## Main results

* `invariant_of_along` — an invariant of the guarded steps holds after a guarded run
* `invariant_of_reaches` — an invariant of all steps holds in every reachable state
* `exec_rel` — machines whose steps stay related have related runs
* `along_iff_of_absorbing` — the guarded runs are those that keep clear of a trap
* `along_iff_throughout`, `along_iff_throughout_of_invariant` — the guarded runs are those in
  which a property holds throughout
-/

set_option autoImplicit false

namespace HttpClient.Semantics

variable {σ α : Type*} {step : σ → α → Option σ}

/-- The state that executing the actions `as` from `s` leads to. -/
def exec (step : σ → α → Option σ) : σ → List α → Option σ
  | s, [] => some s
  | s, a :: as => (step s a).bind fun t => exec step t as

@[simp] theorem exec_nil (s : σ) : exec step s [] = some s := rfl

theorem exec_cons_eq_some {s t : σ} {a : α} {as : List α} :
    exec step s (a :: as) = some t ↔ ∃ u, step s a = some u ∧ exec step u as = some t := by
  simp [exec, Option.bind_eq_some_iff]

/-- A run in two parts. -/
theorem exec_append_eq_some {s t : σ} {as bs : List α} :
    exec step s (as ++ bs) = some t ↔ ∃ u, exec step s as = some u ∧ exec step u bs = some t := by
  induction as generalizing s with
  | nil => simp
  | cons a as ih =>
    rw [List.cons_append, exec_cons_eq_some]
    constructor
    · rintro ⟨u, hu, hrest⟩
      obtain ⟨v, hv, hlast⟩ := ih.mp hrest
      exact ⟨v, exec_cons_eq_some.mpr ⟨u, hu, hv⟩, hlast⟩
    · rintro ⟨v, hv, hlast⟩
      obtain ⟨u, hu, hrest⟩ := exec_cons_eq_some.mp hv
      exact ⟨u, hu, ih.mpr ⟨v, hrest, hlast⟩⟩

/-- Every step of the run `as` from `s` satisfies `ok` in the state it is taken from. -/
def Along (step : σ → α → Option σ) (ok : σ → α → Prop) : σ → List α → Prop
  | _, [] => True
  | s, a :: as => ok s a ∧ ∀ t, step s a = some t → Along step ok t as

instance decidableAlong {ok : σ → α → Prop} [∀ s a, Decidable (ok s a)] :
    ∀ (s : σ) (as : List α), Decidable (Along step ok s as)
  | _, [] => isTrue trivial
  | s, a :: as =>
    have : Decidable (∀ t, step s a = some t → Along step ok t as) :=
      match step s a with
      | none => isTrue fun _ h => nomatch h
      | some t =>
        have : Decidable (Along step ok t as) := decidableAlong t as
        decidable_of_iff (Along step ok t as) (by simp)
    inferInstanceAs (Decidable (ok s a ∧ ∀ t, step s a = some t → Along step ok t as))

/-- A guarded run of an enabled action and the actions after it. -/
theorem Along.cons {ok : σ → α → Prop} {s t : σ} {a : α} {as : List α} (hok : ok s a)
    (hstep : step s a = some t) (h : Along step ok t as) : Along step ok s (a :: as) := by
  refine ⟨hok, fun u hu => ?_⟩
  obtain rfl := Option.some.inj (hstep.symm.trans hu)
  exact h

/-- What holds of every action of a run holds along it. -/
theorem Along.and_mem {ok : σ → α → Prop} {P : α → Prop} {s : σ} {as : List α}
    (h : Along step ok s as) (hmem : ∀ a ∈ as, P a) :
    Along step (fun s a => ok s a ∧ P a) s as := by
  induction as generalizing s with
  | nil => trivial
  | cons a as ih =>
    refine ⟨⟨h.1, hmem a List.mem_cons_self⟩, fun t ht => ?_⟩
    exact ih (h.2 t ht) fun b hb => hmem b (List.mem_cons_of_mem a hb)

/-- A run may be guarded by a weaker condition. -/
theorem Along.mono {ok ok' : σ → α → Prop} (himp : ∀ s a, ok s a → ok' s a) {s : σ}
    {as : List α} (h : Along step ok s as) : Along step ok' s as := by
  induction as generalizing s with
  | nil => trivial
  | cons a as ih => exact ⟨himp s a h.1, fun t ht => ih (h.2 t ht)⟩

/-- A guarded run up to one of its actions, and that action. -/
theorem Along.split {ok : σ → α → Prop} {s t : σ} {before after : List α} {a : α}
    (h : Along step ok s (before ++ a :: after)) (ht : exec step s before = some t) :
    Along step ok s before ∧ ok t a := by
  induction before generalizing s with
  | nil =>
    obtain rfl := Option.some.inj ht
    exact ⟨trivial, h.1⟩
  | cons b before ih =>
    obtain ⟨u, hu, hrest⟩ := exec_cons_eq_some.mp ht
    obtain ⟨hbefore, hlast⟩ := ih (h.2 u hu) hrest
    exact ⟨.cons h.1 hu hbefore, hlast⟩

/-- The run rule: what every guarded step preserves, every guarded run preserves. -/
theorem invariant_of_along {ok : σ → α → Prop} {Inv : σ → Prop}
    (hstep : ∀ s a t, Inv s → ok s a → step s a = some t → Inv t)
    {s t : σ} {as : List α} (hs : Inv s) (hok : Along step ok s as)
    (hexec : exec step s as = some t) : Inv t := by
  induction as generalizing s with
  | nil =>
    obtain rfl := Option.some.inj hexec
    exact hs
  | cons a as ih =>
    obtain ⟨u, hu, hrest⟩ := exec_cons_eq_some.mp hexec
    exact ih (hstep s a u hs hok.1 hu) (hok.2 u hu) hrest

/-- With an invariant of the guarded steps at hand, a run may be guarded by a condition that
implies the other one only where the invariant holds. -/
theorem Along.mono_of_guarded {ok ok' : σ → α → Prop} {Inv : σ → Prop}
    (hinv : ∀ s a t, Inv s → ok s a → step s a = some t → Inv t)
    (himp : ∀ s a, Inv s → ok s a → ok' s a) {s : σ} {as : List α} (hs : Inv s)
    (h : Along step ok s as) : Along step ok' s as := by
  induction as generalizing s with
  | nil => trivial
  | cons a as ih => exact ⟨himp s a hs h.1, fun t ht => ih (hinv s a t hs h.1 ht) (h.2 t ht)⟩

/-- The same with an invariant of all steps. -/
theorem Along.mono_of_invariant {ok ok' : σ → α → Prop} {Inv : σ → Prop}
    (hinv : ∀ s a t, Inv s → step s a = some t → Inv t)
    (himp : ∀ s a, Inv s → ok s a → ok' s a) {s : σ} {as : List α} (hs : Inv s)
    (h : Along step ok s as) : Along step ok' s as :=
  h.mono_of_guarded (fun s a t hi _ => hinv s a t hi) himp hs

/-- Some run leads from `s` to `t`. -/
def Reaches (step : σ → α → Option σ) (s t : σ) : Prop := ∃ as, exec step s as = some t

theorem along_of_forall {ok : σ → α → Prop} (h : ∀ s a, ok s a) (s : σ) (as : List α) :
    Along step ok s as := by
  induction as generalizing s with
  | nil => trivial
  | cons a as ih => exact ⟨h s a, fun t _ => ih t⟩

/-- The reachability rule: an invariant of every step holds in every reachable state. -/
theorem invariant_of_reaches {Inv : σ → Prop}
    (hstep : ∀ s a t, Inv s → step s a = some t → Inv t)
    {s t : σ} (hs : Inv s) (h : Reaches step s t) : Inv t := by
  obtain ⟨as, hexec⟩ := h
  have hok : Along step (fun _ _ => True) s as := along_of_forall (fun _ _ => trivial) s as
  exact invariant_of_along (fun s a t hi _ => hstep s a t hi) hs hok hexec

/-- What does not hold at first and holds after a run has come about in one of its steps. -/
theorem exists_step_of_exec {P : σ → Prop} {s t : σ} {as : List α}
    (hexec : exec step s as = some t) (hs : ¬ P s) (ht : P t) :
    ∃ before a after u v, as = before ++ a :: after ∧ exec step s before = some u ∧
      step u a = some v ∧ exec step v after = some t ∧ ¬ P u ∧ P v := by
  induction as generalizing s with
  | nil =>
    obtain rfl := Option.some.inj hexec
    exact absurd ht hs
  | cons a as ih =>
    obtain ⟨u, hu, hrest⟩ := exec_cons_eq_some.mp hexec
    by_cases hPu : P u
    · exact ⟨[], a, as, s, u, rfl, rfl, hu, hrest, hs, hPu⟩
    · obtain ⟨before, b, after, v, w, rfl, hv, hw, hafter, hPv, hPw⟩ := ih hrest hPu
      exact ⟨a :: before, b, after, v, w, rfl, exec_cons_eq_some.mpr ⟨u, hu, hv⟩, hw, hafter, hPv,
        hPw⟩

/-- Machines whose steps stay related have related runs. -/
theorem exec_rel {τ : Type*} {step' : τ → α → Option τ} {R : σ → τ → Prop}
    (hstep : ∀ s t a, R s t → Option.Rel R (step s a) (step' t a)) {s : σ} {t : τ} (h : R s t)
    (as : List α) : Option.Rel R (exec step s as) (exec step' t as) := by
  induction as generalizing s t with
  | nil => exact .some h
  | cons a as ih =>
    have hfirst := hstep s t a h
    rw [exec, exec]
    generalize step s a = next at hfirst ⊢
    generalize step' t a = next' at hfirst ⊢
    cases hfirst with
    | some hnext => exact ih hnext
    | none => exact .none

/-- If the steps that satisfy `ok` are those that keep clear of something that cannot be
undone, the runs of such steps are those that keep clear of it. -/
theorem along_iff_of_absorbing {ok : σ → α → Prop} {Inv Bad : σ → Prop}
    (hinv : ∀ s a t, Inv s → step s a = some t → Inv t)
    (habsorb : ∀ s a t, Bad s → step s a = some t → Bad t)
    (hok : ∀ s a t, Inv s → ¬ Bad s → step s a = some t → (ok s a ↔ ¬ Bad t))
    {s t : σ} {as : List α} (hs : Inv s) (hgood : ¬ Bad s) (hexec : exec step s as = some t) :
    Along step ok s as ↔ ¬ Bad t := by
  induction as generalizing s with
  | nil =>
    obtain rfl := Option.some.inj hexec
    exact iff_of_true trivial hgood
  | cons a as ih =>
    obtain ⟨u, hu, hrest⟩ := exec_cons_eq_some.mp hexec
    have hfirst := hok s a u hs hgood hu
    by_cases hbad : Bad u
    · have hstill : Bad t := invariant_of_reaches habsorb hbad ⟨as, hrest⟩
      exact iff_of_false (fun h => hfirst.mp h.1 hbad) (fun h => h hstill)
    · rw [← ih (hinv s a u hs hu) hbad hrest]
      exact ⟨fun h => h.2 u hu, fun h => h.cons (hfirst.mpr hbad) hu⟩

/-- If among the steps that satisfy `guard` those that satisfy `ok` are the ones that keep `P`,
the guarded runs of such steps are those that satisfy `P` in every state they reach on the way. -/
theorem along_iff_throughout_of_along {guard ok : σ → α → Prop} {P : σ → Prop}
    (hok : ∀ s a t, P s → guard s a → step s a = some t → (ok s a ↔ P t))
    {s t : σ} {as : List α} (hs : P s) (hguard : Along step guard s as)
    (hexec : exec step s as = some t) :
    Along step ok s as ↔
      ∀ before after u, as = before ++ after → exec step s before = some u → P u := by
  induction as generalizing s with
  | nil =>
    refine iff_of_true trivial fun before after u hsplit hu => ?_
    obtain ⟨rfl, -⟩ := List.append_eq_nil_iff.mp hsplit.symm
    obtain rfl := Option.some.inj hu
    exact hs
  | cons a as ih =>
    obtain ⟨u, hu, hrest⟩ := exec_cons_eq_some.mp hexec
    have hfirst := hok s a u hs hguard.1 hu
    constructor
    · intro h before after v hsplit hv
      have hPu : P u := hfirst.mp h.1
      cases before with
      | nil =>
        obtain rfl := Option.some.inj hv
        exact hs
      | cons b before =>
        obtain ⟨rfl, htail⟩ := List.cons.inj hsplit
        obtain ⟨w, hw, hv⟩ := exec_cons_eq_some.mp hv
        obtain rfl := Option.some.inj (hu.symm.trans hw)
        exact (ih hPu (hguard.2 u hu) hrest).mp (h.2 u hu) before after v htail hv
    · intro h
      have hPu : P u := h [a] as u rfl (exec_cons_eq_some.mpr ⟨u, hu, rfl⟩)
      refine Along.cons (hfirst.mpr hPu) hu ((ih hPu (hguard.2 u hu) hrest).mpr ?_)
      intro before after v htail hv
      refine h (a :: before) after v (by rw [htail, List.cons_append]) ?_
      exact exec_cons_eq_some.mpr ⟨u, hu, hv⟩

/-- The same, with an invariant of all steps at hand. -/
theorem along_iff_throughout_of_guarded {guard ok : σ → α → Prop} {Inv P : σ → Prop}
    (hinv : ∀ s a t, Inv s → step s a = some t → Inv t)
    (hok : ∀ s a t, Inv s → P s → guard s a → step s a = some t → (ok s a ↔ P t))
    {s t : σ} {as : List α} (hs : Inv s) (hP : P s) (hguard : Along step guard s as)
    (hexec : exec step s as = some t) :
    Along step ok s as ↔
      ∀ before after u, as = before ++ after → exec step s before = some u → P u := by
  have hboth : ∀ s a t, Inv s ∧ P s → guard s a → step s a = some t → (ok s a ↔ Inv t ∧ P t) := by
    rintro s a t ⟨hs, hP⟩ hguarded hstep
    rw [and_iff_right (hinv s a t hs hstep)]
    exact hok s a t hs hP hguarded hstep
  rw [along_iff_throughout_of_along hboth ⟨hs, hP⟩ hguard hexec]
  refine forall₃_congr fun before after u => forall₂_congr fun _ hbefore => ?_
  exact and_iff_right (invariant_of_reaches hinv hs ⟨before, hbefore⟩)

/-- If the steps that satisfy `ok` are those that keep `P`, the runs of such steps are those
that satisfy `P` in every state they reach on the way. -/
theorem along_iff_throughout {ok : σ → α → Prop} {P : σ → Prop}
    (hok : ∀ s a t, P s → step s a = some t → (ok s a ↔ P t))
    {s t : σ} {as : List α} (hs : P s) (hexec : exec step s as = some t) :
    Along step ok s as ↔
      ∀ before after u, as = before ++ after → exec step s before = some u → P u :=
  along_iff_throughout_of_along (fun s a t hP _ => hok s a t hP) hs
    (along_of_forall (fun _ _ => trivial) s as : Along step (fun _ _ => True) s as) hexec

/-- The same, with an invariant of all steps at hand. -/
theorem along_iff_throughout_of_invariant {ok : σ → α → Prop} {Inv P : σ → Prop}
    (hinv : ∀ s a t, Inv s → step s a = some t → Inv t)
    (hok : ∀ s a t, Inv s → P s → step s a = some t → (ok s a ↔ P t))
    {s t : σ} {as : List α} (hs : Inv s) (hP : P s) (hexec : exec step s as = some t) :
    Along step ok s as ↔
      ∀ before after u, as = before ++ after → exec step s before = some u → P u :=
  along_iff_throughout_of_guarded hinv (fun s a t hs hP _ => hok s a t hs hP) hs hP
    (along_of_forall (fun _ _ => trivial) s as : Along step (fun _ _ => True) s as) hexec

end HttpClient.Semantics
