import Mathlib.Data.List.Basic

/-!
# Calls that may throw

A call changes a state and returns a value or throws; what it has done to the state
before it throws stays done. These facts about calls compose along `>>=`:

* `Keeps P x` — `P` holds after the call, however it ends, if it held before
* `Ensures P Q E x` — besides, what the call returns satisfies `Q`, and what it throws `E`
* `Returns Q x`, `Throws x` — from every state the call returns a value that satisfies `Q`, or
  from every state it throws
* `Yields P Q x` — from a state that satisfies `P`, a value that is returned and the state left
  satisfy `Q`
* `Makes log x new r` — from every state the call ends with `r`, and appends `new` to
  the log kept in the state
* `Judged log good P x` — what the call logs and how it ends is `good` exactly if `P`

The rules for `Keeps` are those of an invariant. `Makes` and `Judged` describe calls whose
course does not depend on the state they start from. The rules for `Judged` compute the
condition `P` of a sequence from its parts, from the last to the first.

## Main results

* `Keeps.bind` — a sequence keeps what its parts keep
* `Ensures.bind` — the part that goes on may rely on what the first part returns
* `Makes.bind`, `Makes.bind_error` — the logs of a sequence are appended, up to the first
  part that throws
* `Judged.bind`, `Judged.iff` — the condition of a sequence, and what it says of a run
-/

set_option autoImplicit false

namespace HttpClient.Semantics

variable {ε σ τ α β : Type}

/-- A call that may throw an `ε` and works on a state `σ`. -/
abbrev Call (ε σ α : Type) := ExceptT ε (StateM σ) α

namespace Call

/-- How the call ends, and the state it leaves. -/
def outcome (x : Call ε σ α) (s : σ) : Except ε α × σ := (x.run.run s).run

variable {x : Call ε σ α} {f : α → Call ε σ β} {s t : σ}

@[simp] theorem outcome_pure (a : α) (s : σ) :
    outcome (pure a : Call ε σ α) s = (.ok a, s) := rfl

@[simp] theorem outcome_throw (e : ε) (s : σ) :
    outcome (throw e : Call ε σ α) s = (.error e, s) := rfl

@[simp] theorem outcome_modify (g : σ → σ) (s : σ) :
    outcome (modify g : Call ε σ Unit) s = (.ok (), g s) := rfl

@[simp] theorem outcome_get (s : σ) : outcome (get : Call ε σ σ) s = (.ok s, s) := rfl

theorem outcome_bind_ok {a : α} (h : x.outcome s = (.ok a, t)) :
    (x >>= f).outcome s = (f a).outcome t := by
  simp only [outcome, ExceptT.run_bind, StateT.run_bind, Id.run_bind] at h ⊢
  rw [h]

theorem outcome_bind_error {e : ε} (h : x.outcome s = (.error e, t)) :
    (x >>= f).outcome s = (.error e, t) := by
  simp only [outcome, ExceptT.run_bind, StateT.run_bind, Id.run_bind] at h ⊢
  rw [h]
  rfl

/-- A sequence returns exactly if its parts do, one after the other. -/
theorem outcome_bind_eq_ok_iff {b : β} {u : σ} :
    (x >>= f).outcome s = (.ok b, u) ↔
      ∃ a t, x.outcome s = (.ok a, t) ∧ (f a).outcome t = (.ok b, u) := by
  constructor
  · intro h
    cases hout : x.outcome s with
    | mk result t =>
      cases result with
      | ok a => exact ⟨a, t, rfl, (outcome_bind_ok hout).symm.trans h⟩
      | error e => cases (outcome_bind_error hout).symm.trans h
  · rintro ⟨a, t, hx, hf⟩
    rw [outcome_bind_ok hx, hf]

/-- A call behind a guard returns only if the guard does not throw. -/
theorem outcome_guard_eq_ok_iff {p : Prop} [Decidable p] {e : ε} {a : α} :
    (if p then throw e else x).outcome s = (.ok a, t) ↔ ¬p ∧ x.outcome s = (.ok a, t) := by
  by_cases hp : p
  · simp [hp]
  · simp [hp]

theorem outcome_map_snd (g : α → β) (s : σ) : ((g <$> x).outcome s).2 = (x.outcome s).2 := by
  rw [map_eq_pure_bind]
  cases hout : x.outcome s with
  | mk result t =>
    cases result with
    | ok a => rw [outcome_bind_ok hout, outcome_pure]
    | error e => rw [outcome_bind_error hout]

theorem outcome_map_fst (g : α → β) (s : σ) :
    ((g <$> x).outcome s).1 = (x.outcome s).1.map g := by
  rw [map_eq_pure_bind]
  cases hout : x.outcome s with
  | mk result t =>
    cases result with
    | ok a =>
      rw [outcome_bind_ok hout]
      rfl
    | error e =>
      rw [outcome_bind_error hout]
      rfl

/-! ### What a call keeps -/

/-- `P` holds after the call if it held before, also when the call throws. -/
def Keeps (P : σ → Prop) (x : Call ε σ α) : Prop := ∀ s, P s → P (x.outcome s).2

variable {P : σ → Prop}

theorem Keeps.pure (a : α) : Keeps P (pure a : Call ε σ α) := fun _ h => h

theorem Keeps.throw (e : ε) : Keeps P (throw e : Call ε σ α) := fun _ h => h

theorem Keeps.get : Keeps P (get : Call ε σ σ) := fun _ h => h

theorem Keeps.modify {g : σ → σ} (h : ∀ s, P s → P (g s)) :
    Keeps P (modify g : Call ε σ Unit) := h

/-- What holds after the first part holds at the end, if the rest keeps it. -/
theorem outcome_bind_of_keeps (h : P (x.outcome s).2) (hf : ∀ a, Keeps P (f a)) :
    P ((x >>= f).outcome s).2 := by
  cases hout : x.outcome s with
  | mk result t =>
    rw [hout] at h
    cases result with
    | ok a =>
      rw [outcome_bind_ok hout]
      exact hf a t h
    | error e =>
      rw [outcome_bind_error hout]
      exact h

theorem Keeps.bind (hx : Keeps P x) (hf : ∀ a, Keeps P (f a)) : Keeps P (x >>= f) :=
  fun s hs => outcome_bind_of_keeps (hx s hs) hf

theorem Keeps.map (hx : Keeps P x) (g : α → β) : Keeps P (g <$> x) := by
  rw [map_eq_pure_bind]
  exact hx.bind fun a => Keeps.pure (g a)

theorem Keeps.ofExcept (r : Except ε α) : Keeps P (ofExcept r : Call ε σ α) := by
  cases r with
  | ok a => exact Keeps.pure a
  | error e => exact Keeps.throw e

/-! ### What a call ensures -/

/-- `P` is kept; a value that is returned satisfies `Q`, an exception `E`. -/
def Ensures (P : σ → Prop) (Q : α → Prop) (E : ε → Prop) (x : Call ε σ α) : Prop :=
  ∀ s, P s → P (x.outcome s).2 ∧ (∀ a, (x.outcome s).1 = .ok a → Q a) ∧
    ∀ e, (x.outcome s).1 = .error e → E e

variable {Q : α → Prop} {R : β → Prop} {E : ε → Prop}

theorem Ensures.pure {a : α} (h : Q a) : Ensures P Q E (pure a : Call ε σ α) := by
  refine fun s hs => ⟨hs, fun b hb => ?_, fun e he => ?_⟩
  · cases hb
    exact h
  · cases he

theorem Ensures.throw {e : ε} (h : E e) : Ensures P Q E (throw e : Call ε σ α) := by
  refine fun s hs => ⟨hs, fun b hb => ?_, fun e he => ?_⟩
  · cases hb
  · cases he
    exact h

/-- What is read of the state satisfies what is kept. -/
theorem Ensures.get : Ensures P P E (get : Call ε σ σ) := by
  refine fun s hs => ⟨hs, fun t ht => ?_, fun e he => ?_⟩
  · cases ht
    exact hs
  · cases he

theorem Ensures.set {s : σ} (h : P s) : Ensures P (fun _ => True) E (set s : Call ε σ PUnit) := by
  refine fun _ _ => ⟨h, fun _ _ => trivial, fun e he => ?_⟩
  cases he

theorem Ensures.modify {g : σ → σ} (h : ∀ s, P s → P (g s)) :
    Ensures P (fun _ => True) E (modify g : Call ε σ Unit) := by
  refine fun s hs => ⟨h s hs, fun _ _ => trivial, fun e he => ?_⟩
  cases he

theorem Ensures.ofExcept {r : Except ε α} (hok : ∀ a, r = .ok a → Q a)
    (herror : ∀ e, r = .error e → E e) : Ensures P Q E (ofExcept r : Call ε σ α) := by
  cases r with
  | ok a => exact Ensures.pure (hok a rfl)
  | error e => exact Ensures.throw (herror e rfl)

theorem Ensures.bind (hx : Ensures P Q E x) (hf : ∀ a, Q a → Ensures P R E (f a)) :
    Ensures P R E (x >>= f) := by
  intro s hs
  obtain ⟨hafter, hvalue, herror⟩ := hx s hs
  cases hout : x.outcome s with
  | mk result t =>
    rw [hout] at hafter hvalue herror
    cases result with
    | ok a =>
      rw [outcome_bind_ok hout]
      exact hf a (hvalue a rfl) t hafter
    | error e =>
      rw [outcome_bind_error hout]
      refine ⟨hafter, fun b hb => ?_, fun e' he => ?_⟩
      · cases hb
      · cases he
        exact herror e rfl

/-- What goes on keeps an invariant, relying on what the first part returns. -/
theorem Ensures.bind_keeps (hx : Ensures P Q E x) (hf : ∀ a, Q a → Keeps P (f a)) :
    Keeps P (x >>= f) := by
  intro s hs
  obtain ⟨hafter, hvalue, -⟩ := hx s hs
  cases hout : x.outcome s with
  | mk result t =>
    rw [hout] at hafter hvalue
    cases result with
    | ok a =>
      rw [outcome_bind_ok hout]
      exact hf a (hvalue a rfl) t hafter
    | error e =>
      rw [outcome_bind_error hout]
      exact hafter

theorem Ensures.mono {Q' : α → Prop} {E' : ε → Prop} (hx : Ensures P Q E x)
    (hvalue : ∀ a, Q a → Q' a) (herror : ∀ e, E e → E' e) : Ensures P Q' E' x := fun s hs =>
  ⟨(hx s hs).1, fun a ha => hvalue a ((hx s hs).2.1 a ha),
    fun e he => herror e ((hx s hs).2.2 e he)⟩

/-! ### Calls that return and calls that throw -/

/-- From every state the call returns, and what it returns satisfies `Q`. -/
def Returns (Q : α → Prop) (x : Call ε σ α) : Prop := ∀ s, ∃ a t, x.outcome s = (.ok a, t) ∧ Q a

/-- From every state the call throws. -/
def Throws (x : Call ε σ α) : Prop := ∀ s, ∃ e t, x.outcome s = (.error e, t)

theorem Returns.pure {a : α} (h : Q a) : Returns Q (pure a : Call ε σ α) := fun s => ⟨a, s, rfl, h⟩

theorem Returns.get : Returns (fun _ => True) (get : Call ε σ σ) := fun s => ⟨s, s, rfl, trivial⟩

theorem Returns.set {s : σ} : Returns (fun _ => True) (set s : Call ε σ PUnit) :=
  fun _ => ⟨⟨⟩, s, rfl, trivial⟩

theorem Returns.modify {g : σ → σ} : Returns (fun _ => True) (modify g : Call ε σ Unit) :=
  fun s => ⟨(), g s, rfl, trivial⟩

theorem Returns.ofExcept {r : Except ε α} (h : ∃ a, r = .ok a ∧ Q a) :
    Returns Q (ofExcept r : Call ε σ α) := by
  obtain ⟨a, rfl, ha⟩ := h
  exact Returns.pure ha

theorem Returns.bind (hx : Returns Q x) (hf : ∀ a, Q a → Returns R (f a)) :
    Returns R (x >>= f) := by
  intro s
  obtain ⟨a, t, hout, ha⟩ := hx s
  rw [outcome_bind_ok hout]
  exact hf a ha t

theorem Returns.mono {Q' : α → Prop} (hx : Returns Q x) (h : ∀ a, Q a → Q' a) :
    Returns Q' x := by
  intro s
  obtain ⟨a, t, hout, ha⟩ := hx s
  exact ⟨a, t, hout, h a ha⟩

theorem Throws.ofExcept {r : Except ε α} (h : ∃ e, r = .error e) :
    Throws (ofExcept r : Call ε σ α) := by
  obtain ⟨e, rfl⟩ := h
  exact fun s => ⟨e, s, rfl⟩

/-- What follows an exception is not run. -/
theorem Throws.bind (hx : Throws x) : Throws (x >>= f) := by
  intro s
  obtain ⟨e, t, hout⟩ := hx s
  exact ⟨e, t, outcome_bind_error hout⟩

theorem Returns.bind_throws (hx : Returns Q x) (hf : ∀ a, Q a → Throws (f a)) :
    Throws (x >>= f) := by
  intro s
  obtain ⟨a, t, hout, ha⟩ := hx s
  rw [outcome_bind_ok hout]
  exact hf a ha t

/-! ### What a call yields -/

/-- From a state that satisfies `P`, a value that is returned and the state left satisfy `Q`. -/
def Yields (P : σ → Prop) (Q : α → σ → Prop) (x : Call ε σ α) : Prop :=
  ∀ s, P s → ∀ a t, x.outcome s = (.ok a, t) → Q a t

variable {Y : α → σ → Prop} {Z : β → σ → Prop}

theorem Yields.pure {a : α} (h : ∀ s, P s → Y a s) : Yields P Y (pure a : Call ε σ α) := by
  intro s hs b t hout
  cases hout
  exact h s hs

theorem Yields.modify {g : σ → σ} {W : Unit → σ → Prop} (h : ∀ s, P s → W () (g s)) :
    Yields P W (modify g : Call ε σ Unit) := by
  intro s hs a t hout
  cases hout
  exact h s hs

theorem Yields.ofExcept {r : Except ε α} (h : ∀ a, r = .ok a → ∀ s, P s → Y a s) :
    Yields P Y (ofExcept r : Call ε σ α) := by
  cases r with
  | ok a => exact Yields.pure (h a rfl)
  | error e =>
    intro s _ a t hout
    cases hout

theorem Yields.bind (hx : Yields P Y x) (hf : ∀ a, Yields (Y a) Z (f a)) :
    Yields P Z (x >>= f) := by
  intro s hs b u hbind
  cases hout : x.outcome s with
  | mk result t =>
    cases result with
    | ok a =>
      rw [outcome_bind_ok hout] at hbind
      exact hf a t (hx s hs a t hout) b u hbind
    | error e =>
      rw [outcome_bind_error hout] at hbind
      cases hbind

/-- A weaker condition before, and a stronger one after. -/
theorem Yields.mono {P' : σ → Prop} {Y' : α → σ → Prop} (hx : Yields P Y x)
    (hbefore : ∀ s, P' s → P s) (hafter : ∀ a t, Y a t → Y' a t) : Yields P' Y' x :=
  fun s hs a t hout => hafter a t (hx s (hbefore s hs) a t hout)

/-! ### What a call logs -/

/-- From every state, the call ends with `r` and appends `new` to the log. -/
def Makes (log : σ → List τ) (x : Call ε σ α) (new : List τ) (r : Except ε α) : Prop :=
  ∀ s, ∃ t, x.outcome s = (r, t) ∧ log t = log s ++ new

variable {log : σ → List τ}

theorem Makes.pure (a : α) : Makes log (pure a : Call ε σ α) [] (.ok a) :=
  fun s => ⟨s, rfl, (List.append_nil _).symm⟩

theorem Makes.throw (e : ε) : Makes log (throw e : Call ε σ α) [] (.error e) :=
  fun s => ⟨s, rfl, (List.append_nil _).symm⟩

theorem Makes.modify {g : σ → σ} {new : List τ} (h : ∀ s, log (g s) = log s ++ new) :
    Makes log (modify g : Call ε σ Unit) new (.ok ()) :=
  fun s => ⟨g s, rfl, h s⟩

theorem Makes.bind {new new' : List τ} {a : α} {r : Except ε β} (hx : Makes log x new (.ok a))
    (hf : Makes log (f a) new' r) : Makes log (x >>= f) (new ++ new') r := by
  intro s
  obtain ⟨t, hout, hlog⟩ := hx s
  obtain ⟨u, hout', hlog'⟩ := hf t
  refine ⟨u, (outcome_bind_ok hout).trans hout', ?_⟩
  rw [hlog', hlog, List.append_assoc]

theorem Makes.bind_error {new : List τ} {e : ε} (hx : Makes log x new (.error e)) :
    Makes log (x >>= f) new (.error e) := by
  intro s
  obtain ⟨t, hout, hlog⟩ := hx s
  exact ⟨t, outcome_bind_error hout, hlog⟩

/-- A part that logs nothing does not show. -/
theorem Makes.bind_silent {new : List τ} {a : α} {r : Except ε β} (hx : Makes log x [] (.ok a))
    (hf : Makes log (f a) new r) : Makes log (x >>= f) new r := hx.bind hf

/-- After a part that logs, one that only returns. -/
theorem Makes.bind_return {new : List τ} {a : α} {r : Except ε β} (hx : Makes log x new (.ok a))
    (hf : Makes log (f a) [] r) : Makes log (x >>= f) new r := by
  have h := hx.bind hf
  rwa [List.append_nil] at h

/-! ### Judging a call by its log and its end -/

/-- What the call logs and how it ends is `good` exactly if `P`. -/
def Judged (log : σ → List τ) (good : List τ → Except ε α → Prop) (P : Prop)
    (x : Call ε σ α) : Prop :=
  ∃ new r, Makes log x new r ∧ (good new r ↔ P)

variable {good : List τ → Except ε α → Prop} {good' : List τ → Except ε β → Prop}
variable {Q R : Prop}

theorem Judged.congr (h : Judged log good Q x) (hiff : Q ↔ R) : Judged log good R x := by
  rwa [propext hiff] at h

theorem Judged.pure {a : α} (h : good [] (.ok a) ↔ Q) :
    Judged log good Q (pure a : Call ε σ α) :=
  ⟨[], .ok a, Makes.pure a, h⟩

theorem Judged.bind {new : List τ} {a : α} (hx : Makes log x new (.ok a))
    (hf : Judged log (fun rest r => good' (new ++ rest) r) Q (f a)) :
    Judged log good' Q (x >>= f) := by
  obtain ⟨rest, r, hmakes, hgood⟩ := hf
  exact ⟨new ++ rest, r, hx.bind hmakes, hgood⟩

theorem Judged.bind_error {new : List τ} {e : ε} (hx : Makes log x new (.error e))
    (h : good' new (.error e) ↔ Q) : Judged log good' Q (x >>= f) :=
  ⟨new, .error e, hx.bind_error, h⟩

/-- A part that logs nothing does not show. -/
theorem Judged.bind_silent {a : α} (hx : Makes log x [] (.ok a))
    (hf : Judged log good' Q (f a)) : Judged log good' Q (x >>= f) :=
  Judged.bind hx hf

/-- Where an exception is good in itself, only the value matters. -/
theorem Judged.ofExcept {r : Except ε α} {p : α → Prop} (hthrow : ∀ e, good' [] (.error e))
    (hf : ∀ a, r = .ok a → Judged log good' (p a) (f a)) :
    Judged log good' (∀ a, r = .ok a → p a) (ofExcept r >>= f) := by
  cases r with
  | ok a =>
    refine Judged.bind_silent (Makes.pure a) ((hf a rfl).congr ?_)
    constructor
    · intro hp b hb
      cases hb
      exact hp
    · exact fun h => h a rfl
  | error e =>
    refine Judged.bind_error (Makes.throw e) ⟨fun _ a ha => ?_, fun _ => hthrow e⟩
    cases ha

/-- The judgement of a run from any state. -/
theorem Judged.iff (h : Judged log good Q x) (s : σ) :
    (∃ new, log (x.outcome s).2 = log s ++ new ∧ good new (x.outcome s).1) ↔ Q := by
  obtain ⟨new, r, hmakes, hgood⟩ := h
  obtain ⟨t, hout, hlog⟩ := hmakes s
  rw [hout, ← hgood]
  constructor
  · rintro ⟨other, hother, hgood⟩
    rwa [List.append_cancel_left (hlog.symm.trans hother)]
  · exact fun hnew => ⟨new, hlog, hnew⟩

end Call

end HttpClient.Semantics
