import HttpClient.H2.SessionChoice
import HttpClient.Semantics.Machine
import HttpClient.Semantics.Tally

/-!
# How many sessions of a group are in use

A group has a fixed number of sessions. With `auto_shards` only the first ones are used: more with
many requests in flight, fewer after a time with few. The number in use is an atomic of its own.
Requests raise it and the maintenance lowers it under the lock of the groups; `preconnect` raises
it without. Each of them loads the number, decides and stores, and the others may come in between.

So a store may undo another one. But whatever is stored is between one and the number of the
sessions, since everyone keeps to these bounds with what has been loaded.

## Main definitions

* `wantedImpls` — how many sessions are to be in use
* `ActiveImpls`, `RequestStage`, `Maintenance` — the group, its requests, and the maintenance
* `ScalingAction`, `ActiveImpls.step` — the loads, the decisions and the stores
* `ActiveImpls.Sound` — what every step keeps

## Main results

* `Sound.step` — one step of a request, of the maintenance or of `preconnect`
* `sessions_in_use` — the number in use, the requests in flight and what they are posted to
-/

set_option autoImplicit false

namespace HttpClient.H2

open Semantics

/-! ### The group -/

structure ScalingOptions where
  autoShards : Bool := false
  autoPrewarmSessions : Bool := true
  sessionsPerOrigin : Nat := 1
  maxConcurrentStreams : Nat := 128
  /-- Times are in milliseconds. -/
  autoScaleUpInterval : Int := 25
  autoScaleDownIdleTtl : Int := 60000

/-- The target of `active_impl_count`. -/
def wantedImpls (impls current inflight : Nat) : Nat :=
  if 256 ≤ inflight then min impls 4
  else if 128 ≤ inflight then min impls 3
  else if 64 ≤ inflight then min impls 2
  else current

/-- Where a request is that has been counted as in flight. -/
inductive RequestStage where
  | counted (inflight : Nat)
  /-- About to take the lock; the time has been read. -/
  | wanting (target : Nat) (urgent : Bool) (now : Int)
  | holding (target : Nat) (urgent : Bool) (now : Int)
  /-- With the lock, the number in use has been loaded. -/
  | loaded (target : Nat) (urgent : Bool) (now : Int) (current : Nat)
  | raised (previous : Nat)
  | decided (previous active : Nat)
  | posted (impl : Nat)
  deriving DecidableEq, Repr

inductive Maintenance where
  | idle
  | holding (now : Int)
  /-- The number in use has been loaded. -/
  | lowering (now : Int) (current : Nat)
  deriving DecidableEq, Repr

structure ActiveImpls where
  impls : Nat
  active : Nat
  inflight : Nat := 0
  next : Nat := 0
  lastScaleUp : Int := 0
  lastBusy : Int := 0
  /-- `groups_mu_` is held. -/
  locked : Bool := false
  requests : List RequestStage := []
  maintenance : Maintenance := .idle
  /-- The stores that calls of `preconnect` are about to make. -/
  preconnects : List Nat := []
  /-- The sessions that have been told to connect ahead of requests. -/
  prewarmed : List Nat := []
  /-- The sessions that have been told to reset if they are idle. -/
  resets : List Nat := []
  deriving DecidableEq, Repr

inductive ScalingAction where
  | request
  | load (i : Nat) (now : Int)
  | lock (i : Nat)
  | loadLocked (i : Nat)
  | raise (i : Nat)
  | settle (i : Nat)
  | choose (i : Nat) (idle : Nat → Bool)
      (slotsRead connectingRead connectedRead : Nat → ImplSnapshot)
  | finish (i : Nat)
  | preconnect (count : Nat)
  | storePreconnect (i : Nat)
  | maintain (now : Int)
  | maintainLoad
  | lower (idle : Nat → Bool)

namespace ActiveImpls

/-- A group that is created at `now`. -/
def start (options : ScalingOptions) (now : Int) : ActiveImpls :=
  let impls := max 1 options.sessionsPerOrigin
  { impls, active := if options.autoShards then 1 else impls, lastBusy := now }

/-! ### Requests -/

/-- `active_impl_count` up to the lock. -/
def activeImplCount (options : ScalingOptions) (s : ActiveImpls) (inflight : Nat) (now : Int) :
    RequestStage :=
  if !options.autoShards then .decided s.impls s.impls
  else
    let target := wantedImpls s.impls s.active inflight
    if target ≤ s.active then .decided (max 1 s.active) (max 1 s.active)
    else .wanting target (decide (128 ≤ inflight)) now

/-- The store under the lock, with the number that has been loaded there. -/
def raise (options : ScalingOptions) (target : Nat) (urgent : Bool) (now : Int) (current : Nat)
    (s : ActiveImpls) : ActiveImpls :=
  if current < target ∧ (urgent ∨ options.autoScaleUpInterval ≤ now - s.lastScaleUp) then
    { s with
      active := if urgent then target else min target (current + 1)
      lastScaleUp := now
      lastBusy := now }
  else s

/-- The sessions that `prewarm_active_impls` tells to connect. -/
def prewarmActiveImpls (options : ScalingOptions) (impls previous active : Nat)
    (idle : Nat → Bool) : List Nat :=
  if !options.autoShards || !options.autoPrewarmSessions || decide (active ≤ previous) then []
  else ((List.range (min active impls)).drop previous).filter idle

/-! ### The maintenance -/

/-- The sessions that the maintenance tells to reset, where `wanted` are left in use. -/
def resetIfIdle (impls wanted : Nat) (idle : Nat → Bool) : List Nat :=
  ((List.range impls).drop wanted).filter idle

/-- The part of `run_maintenance` before the load of the number in use. -/
def maintain (options : ScalingOptions) (now : Int) (s : ActiveImpls) : ActiveImpls :=
  if 8 < s.inflight then { s with lastBusy := now }
  else if now - s.lastBusy < options.autoScaleDownIdleTtl then s
  else { s with locked := true, maintenance := .holding now }

def maintainLoad (now : Int) (s : ActiveImpls) : ActiveImpls :=
  if s.active ≤ 1 then { s with locked := false, maintenance := .idle }
  else { s with maintenance := .lowering now s.active }

def lower (now : Int) (current : Nat) (idle : Nat → Bool) (s : ActiveImpls) : ActiveImpls :=
  { s with
    active := current - 1
    lastBusy := now
    resets := s.resets ++ resetIfIdle s.impls (current - 1) idle
    locked := false
    maintenance := .idle }

def step (options : ScalingOptions) (s : ActiveImpls) : ScalingAction → Option ActiveImpls
  | .request =>
    some { s with
      inflight := s.inflight + 1, requests := s.requests ++ [.counted (s.inflight + 1)] }
  | .load i now =>
    match s.requests[i]? with
    | some (.counted inflight) =>
      some { s with requests := s.requests.set i (s.activeImplCount options inflight now) }
    | _ => none
  | .lock i =>
    match s.requests[i]? with
    | some (.wanting target urgent now) =>
      if s.locked then none
      else some { s with
        locked := true, requests := s.requests.set i (.holding target urgent now) }
    | _ => none
  | .loadLocked i =>
    match s.requests[i]? with
    | some (.holding target urgent now) =>
      some { s with requests := s.requests.set i (.loaded target urgent now s.active) }
    | _ => none
  | .raise i =>
    match s.requests[i]? with
    | some (.loaded target urgent now current) =>
      some { s.raise options target urgent now current with
        requests := s.requests.set i (.raised current) }
    | _ => none
  | .settle i =>
    match s.requests[i]? with
    | some (.raised previous) =>
      some { s with
        locked := false
        requests := s.requests.set i (.decided (max 1 previous) (max 1 s.active)) }
    | _ => none
  | .choose i idle slotsRead connectingRead connectedRead =>
    match s.requests[i]? with
    | some (.decided previous active) =>
      some { s with
        next := (s.next + 1) % 2 ^ 64
        prewarmed := s.prewarmed ++ prewarmActiveImpls options s.impls previous active idle
        requests := s.requests.set i (.posted (chooseImplIndex options.maxConcurrentStreams s.impls
          active s.next slotsRead connectingRead connectedRead)) }
    | _ => none
  | .finish i =>
    match s.requests[i]? with
    | some (.posted _) =>
      some { s with inflight := s.inflight - 1, requests := s.requests.eraseIdx i }
    | _ => none
  | .preconnect count =>
    let target := min (max 1 count) s.impls
    some (if options.autoShards && decide (s.active < target) then
        { s with preconnects := s.preconnects ++ [target] }
      else s)
  | .storePreconnect i =>
    match s.preconnects[i]? with
    | some target => some { s with active := target, preconnects := s.preconnects.eraseIdx i }
    | none => none
  | .maintain now =>
    if options.autoShards && !s.locked then some (s.maintain options now) else none
  | .maintainLoad =>
    match s.maintenance with
    | .holding now => some (s.maintainLoad now)
    | _ => none
  | .lower idle =>
    match s.maintenance with
    | .lowering now current => some (s.lower now current idle)
    | _ => none

/-! ### What every step keeps -/

/-- What a request is about to store keeps to the bounds. -/
def Fits (options : ScalingOptions) (impls : Nat) : RequestStage → Prop
  | .wanting target _ _ | .holding target _ _ | .loaded target _ _ _ =>
    options.autoShards = true ∧ 1 ≤ target ∧ target ≤ impls
  | .posted impl => impl < impls
  | _ => True

structure Sound (options : ScalingOptions) (s : ActiveImpls) : Prop where
  impls : s.impls = max 1 options.sessionsPerOrigin
  active : 1 ≤ s.active ∧ s.active ≤ s.impls
  fixed : options.autoShards = false → s.active = s.impls
  inflight : s.inflight = s.requests.length
  requests : ∀ stage ∈ s.requests, Fits options s.impls stage
  preconnects : ∀ target ∈ s.preconnects, options.autoShards = true ∧ 1 ≤ target ∧ target ≤ s.impls
  maintenance : s.maintenance ≠ .idle → options.autoShards = true
  lowering : ∀ now current, s.maintenance = .lowering now current → 1 < current ∧ current ≤ s.impls
  prewarmed : ∀ i ∈ s.prewarmed, i < s.impls
  resets : ∀ i ∈ s.resets, 1 ≤ i ∧ i < s.impls

variable {options : ScalingOptions} {s t : ActiveImpls} {action : ScalingAction}

theorem sound_start (options : ScalingOptions) (now : Int) :
    (start options now).Sound options where
  impls := rfl
  active := by
    rw [start]
    dsimp only
    split_ifs <;> omega
  fixed h := by
    rw [start]
    dsimp only
    rw [if_neg (by simpa using h)]
  inflight := rfl
  requests := by simp [start]
  preconnects := by simp [start]
  maintenance h := absurd rfl h
  lowering now current h := by cases h
  prewarmed := by simp [start]
  resets := by simp [start]

theorem wantedImpls_bounds {impls current : Nat} (himpls : 1 ≤ impls) (hcurrent : 1 ≤ current)
    (hle : current ≤ impls) (inflight : Nat) :
    1 ≤ wantedImpls impls current inflight ∧ wantedImpls impls current inflight ≤ impls := by
  rw [wantedImpls]
  split_ifs <;> omega

/-- A request goes on to another stage. -/
theorem Sound.setStage (h : s.Sound options) {stage : RequestStage} (i : Nat)
    (hfits : Fits options s.impls stage) :
    Sound options { s with requests := s.requests.set i stage } :=
  { h with
    inflight := by rw [h.inflight, List.length_set]
    requests := fun other hother => by
      rcases List.mem_or_eq_of_mem_set hother with hold | rfl
      · exact h.requests other hold
      · exact hfits }

/-- The number in use is stored. -/
theorem Sound.store (h : s.Sound options) (hauto : options.autoShards = true) {active : Nat}
    (hactive : 1 ≤ active ∧ active ≤ s.impls) : Sound options { s with active } :=
  { h with
    active := hactive
    fixed := fun hnot => absurd (hnot.symm.trans hauto) Bool.false_ne_true }

theorem Sound.withLock (h : s.Sound options) (locked : Bool) : Sound options { s with locked } :=
  { h with }

theorem fits_activeImplCount (h : s.Sound options) (inflight : Nat) (now : Int) :
    Fits options s.impls (s.activeImplCount options inflight now) := by
  unfold activeImplCount
  split_ifs with hauto
  · trivial
  · dsimp only
    split_ifs
    · trivial
    · obtain ⟨hle, hge⟩ := h.active
      exact ⟨by simpa using hauto, wantedImpls_bounds (hle.trans hge) hle hge inflight⟩

theorem Sound.raise (h : s.Sound options) {target current : Nat} {urgent : Bool} {now : Int}
    (hfits : Fits options s.impls (.loaded target urgent now current)) :
    (s.raise options target urgent now current).Sound options ∧
      (s.raise options target urgent now current).impls = s.impls ∧
        (s.raise options target urgent now current).requests = s.requests := by
  obtain ⟨hauto, hone, hle⟩ := hfits
  unfold ActiveImpls.raise
  split
  case isTrue =>
    refine ⟨?_, rfl, rfl⟩
    -- at once to the target, or by one session
    have hstore : 1 ≤ (if urgent then target else min target (current + 1)) ∧
        (if urgent then target else min target (current + 1)) ≤ s.impls := by
      split_ifs <;> omega
    exact { h.store hauto hstore with }
  case isFalse => exact ⟨h, rfl, rfl⟩

theorem mem_prewarmActiveImpls {impls previous active i : Nat} {idle : Nat → Bool}
    (h : i ∈ prewarmActiveImpls options impls previous active idle) : i < impls := by
  unfold prewarmActiveImpls at h
  split_ifs at h
  · cases h
  · have hmem := List.mem_of_mem_drop (List.mem_of_mem_filter h)
    exact (List.mem_range.mp hmem).trans_le (Nat.min_le_right ..)

theorem mem_resetIfIdle {impls wanted i : Nat} {idle : Nat → Bool}
    (h : i ∈ resetIfIdle impls wanted idle) : wanted ≤ i ∧ i < impls := by
  have hmem := List.mem_of_mem_filter h
  rw [List.range_eq_range', List.drop_range', List.mem_range'_1] at hmem
  omega

theorem Sound.maintain (h : s.Sound options) (hauto : options.autoShards = true) (now : Int) :
    (s.maintain options now).Sound options := by
  unfold ActiveImpls.maintain
  split_ifs
  · exact { h with }
  · exact h
  · exact { h with maintenance := fun _ => hauto, lowering := fun _ _ hlow => by cases hlow }

theorem Sound.maintainLoad (h : s.Sound options) {now : Int}
    (hholding : s.maintenance = .holding now) : (s.maintainLoad now).Sound options := by
  have hauto := h.maintenance (by rw [hholding]; simp)
  unfold ActiveImpls.maintainLoad
  split_ifs with hone
  · exact { h with
      maintenance := fun hnot => absurd rfl hnot, lowering := fun _ _ hlow => by cases hlow }
  · refine { h with maintenance := fun _ => hauto, lowering := fun _ current hlow => ?_ }
    obtain ⟨-, rfl⟩ := Maintenance.lowering.inj hlow
    exact ⟨Nat.lt_of_not_le hone, h.active.2⟩

theorem Sound.lower (h : s.Sound options) {now : Int} {current : Nat}
    (hlowering : s.maintenance = .lowering now current) (idle : Nat → Bool) :
    (s.lower now current idle).Sound options := by
  have hauto := h.maintenance (by rw [hlowering]; simp)
  obtain ⟨hone, hle⟩ := h.lowering now current hlowering
  have hstore : Sound options { s with active := current - 1 } :=
    h.store hauto ⟨by omega, by omega⟩
  refine { hstore with
    maintenance := fun hnot => absurd rfl hnot, lowering := fun _ _ hlow => by cases hlow
    resets := fun i hi => ?_ }
  rcases List.mem_append.mp hi with hold | hnew
  · exact h.resets i hold
  · -- the first session stays in use
    obtain ⟨hwanted, hlt⟩ := mem_resetIfIdle hnew
    exact ⟨by omega, hlt⟩

theorem Sound.step (h : s.Sound options) (hstep : s.step options action = some t) :
    t.Sound options := by
  unfold ActiveImpls.step at hstep
  cases action with
  | request =>
    obtain rfl := Option.some.inj hstep
    refine { h with inflight := by simp [h.inflight], requests := fun stage hstage => ?_ }
    rcases List.mem_append.mp hstage with hold | hnew
    · exact h.requests stage hold
    · rw [List.mem_singleton.mp hnew]
      trivial
  | load i now =>
    dsimp only at hstep
    split at hstep
    case h_1 inflight hget =>
      obtain rfl := Option.some.inj hstep
      exact h.setStage i (fits_activeImplCount h inflight now)
    case h_2 => cases hstep
  | lock i =>
    dsimp only at hstep
    split at hstep
    case h_1 target urgent now hget =>
      split_ifs at hstep
      obtain rfl := Option.some.inj hstep
      have hfits := h.requests _ (List.mem_of_getElem? hget)
      exact (h.withLock true).setStage i hfits
    case h_2 => cases hstep
  | loadLocked i =>
    dsimp only at hstep
    split at hstep
    case h_1 target urgent now hget =>
      obtain rfl := Option.some.inj hstep
      have hfits := h.requests _ (List.mem_of_getElem? hget)
      exact h.setStage i hfits
    case h_2 => cases hstep
  | raise i =>
    dsimp only at hstep
    split at hstep
    case h_1 target urgent now current hget =>
      obtain rfl := Option.some.inj hstep
      obtain ⟨hraised, -, hrequests⟩ := h.raise (h.requests _ (List.mem_of_getElem? hget))
      rw [← hrequests]
      exact hraised.setStage i trivial
    case h_2 => cases hstep
  | settle i =>
    dsimp only at hstep
    split at hstep
    case h_1 previous hget =>
      obtain rfl := Option.some.inj hstep
      exact (h.withLock false).setStage i trivial
    case h_2 => cases hstep
  | choose i idle slotsRead connectingRead connectedRead =>
    dsimp only at hstep
    split at hstep
    case h_1 previous active hget =>
      obtain rfl := Option.some.inj hstep
      have himpls : 0 < s.impls := h.active.1.trans h.active.2
      -- the window of the choice lies within the group
      have hchosen : Fits options s.impls (.posted (chooseImplIndex options.maxConcurrentStreams
          s.impls active s.next slotsRead connectingRead connectedRead)) :=
        chooseImplIndex_lt.trans_le (choiceWindow_le himpls active)
      refine { h.setStage i hchosen with prewarmed := fun j hj => ?_ }
      exact (List.mem_append.mp hj).elim (h.prewarmed j) mem_prewarmActiveImpls
    case h_2 => cases hstep
  | finish i =>
    dsimp only at hstep
    split at hstep
    case h_1 impl hget =>
      obtain rfl := Option.some.inj hstep
      have hlt := (List.getElem?_eq_some_iff.mp hget).1
      exact { h with
        inflight := by rw [h.inflight, List.length_eraseIdx_of_lt hlt]
        requests := fun stage hstage => h.requests stage (List.mem_of_mem_eraseIdx hstage) }
    case h_2 => cases hstep
  | preconnect count =>
    obtain rfl := Option.some.inj hstep
    split_ifs with hraise
    · refine { h with preconnects := fun target htarget => ?_ }
      rw [Bool.and_eq_true, decide_eq_true_eq] at hraise
      rcases List.mem_append.mp htarget with hold | hnew
      · exact h.preconnects target hold
      · rw [List.mem_singleton.mp hnew]
        exact ⟨hraise.1, by omega, Nat.min_le_right ..⟩
    · exact h
  | storePreconnect i =>
    dsimp only at hstep
    split at hstep
    case h_1 target hget =>
      obtain rfl := Option.some.inj hstep
      obtain ⟨hauto, htarget⟩ := h.preconnects target (List.mem_of_getElem? hget)
      exact { h.store hauto htarget with
        preconnects := fun other hother => h.preconnects other (List.mem_of_mem_eraseIdx hother) }
    case h_2 => cases hstep
  | maintain now =>
    dsimp only at hstep
    split_ifs at hstep with hauto
    obtain rfl := Option.some.inj hstep
    exact h.maintain (Bool.and_eq_true_iff.mp hauto).1 now
  | maintainLoad =>
    dsimp only at hstep
    split at hstep
    case h_1 now hholding =>
      obtain rfl := Option.some.inj hstep
      exact h.maintainLoad hholding
    case h_2 => cases hstep
  | lower idle =>
    dsimp only at hstep
    split at hstep
    case h_1 now current hlowering =>
      obtain rfl := Option.some.inj hstep
      exact h.lower hlowering idle
    case h_2 => cases hstep

/-! ### The lock -/

/-- The request holds the lock. -/
def holds : RequestStage → Bool
  | .holding .. | .loaded .. | .raised _ => true
  | _ => false

/-- One thread at most holds the lock, and what it has loaded is still what is stored. -/
structure Exclusive (s : ActiveImpls) : Prop where
  holders : s.requests.countP holds + (if s.maintenance = .idle then 0 else 1) =
    if s.locked then 1 else 0
  loaded : ∀ target urgent now current, .loaded target urgent now current ∈ s.requests →
    s.active = current
  lowering : ∀ now current, s.maintenance = .lowering now current → s.active = current

theorem exclusive_start (options : ScalingOptions) (now : Int) : (start options now).Exclusive :=
  ⟨rfl, fun _ _ _ _ h => (by cases h), fun _ _ h => (by cases h)⟩

namespace Exclusive

/-- A request that goes on without taking or releasing the lock. -/
theorem setStage (h : s.Exclusive) {i : Nat} {stage : RequestStage} (stage' : RequestStage)
    (hget : s.requests[i]? = some stage) (hholds : holds stage' = holds stage)
    (hloaded : ∀ target urgent now current, stage' = .loaded target urgent now current →
      s.active = current) :
    Exclusive { s with requests := s.requests.set i stage' } := by
  refine ⟨?_, fun target urgent now current hmem => ?_, h.lowering⟩
  · have hset := countP_set_add holds stage' hget
    rw [hholds, Nat.add_right_cancel_iff] at hset
    exact hset ▸ h.holders
  · rcases List.mem_or_eq_of_mem_set hmem with hold | hnew
    · exact h.loaded target urgent now current hold
    · exact hloaded target urgent now current hnew.symm

/-- While a request holds the lock, the maintenance does not, and no other request. -/
theorem of_holds (h : s.Exclusive) {i : Nat} {stage : RequestStage}
    (hget : s.requests[i]? = some stage) (hholds : holds stage = true) :
    s.locked = true ∧ s.maintenance = .idle ∧ s.requests.countP holds = 1 := by
  have hpos := countP_pos_of_getElem? hget hholds
  have hsum := h.holders
  by_cases hlocked : s.locked = true
  · by_cases hidle : s.maintenance = .idle
    · rw [if_pos hidle, if_pos hlocked] at hsum
      exact ⟨hlocked, hidle, hsum⟩
    · rw [if_neg hidle, if_pos hlocked] at hsum
      omega
  · rw [if_neg hlocked] at hsum
    omega

/-- While the maintenance holds the lock, no request does. -/
theorem of_maintenance (h : s.Exclusive) (hbusy : s.maintenance ≠ .idle) :
    s.locked = true ∧ s.requests.countP holds = 0 := by
  have hsum := h.holders
  rw [if_neg hbusy] at hsum
  by_cases hlocked : s.locked = true
  · rw [if_pos hlocked] at hsum
    exact ⟨hlocked, by omega⟩
  · rw [if_neg hlocked] at hsum
    omega

/-- While the lock is free, nobody holds it. -/
theorem of_unlocked (h : s.Exclusive) (hfree : s.locked = false) :
    s.maintenance = .idle ∧ s.requests.countP holds = 0 := by
  have hsum := h.holders
  have hnot : ¬ s.locked = true := by simp [hfree]
  rw [if_neg hnot] at hsum
  by_cases hidle : s.maintenance = .idle
  · exact ⟨hidle, by omega⟩
  · rw [if_neg hidle] at hsum
    omega

/-- Without a holder there is nobody who has loaded the number. -/
theorem not_loaded {l : List RequestStage} (hnone : l.countP holds = 0) {target : Nat}
    {urgent : Bool} {now : Int} {current : Nat} (hmem : .loaded target urgent now current ∈ l) :
    False :=
  List.countP_eq_zero.mp hnone _ hmem rfl

/-- The holder stores and still holds the lock. -/
theorem raise (h : s.Exclusive) {options : ScalingOptions} {i target current : Nat} {urgent : Bool}
    {now : Int} (hget : s.requests[i]? = some (.loaded target urgent now current)) :
    Exclusive { s.raise options target urgent now current with
      requests := s.requests.set i (.raised current) } := by
  obtain ⟨hlocked, hidle, hone⟩ := h.of_holds hget rfl
  have hadd := countP_set_add holds (.raised current) hget
  have hset : (s.requests.set i (.raised current)).countP holds = s.requests.countP holds :=
    Nat.add_right_cancel hadd
  have hraised : .raised current ∈ s.requests.set i (.raised current) :=
    List.mem_set (List.getElem?_eq_some_iff.mp hget).1 _
  -- nobody else has loaded the number
  have hloaded : ∀ target urgent now current',
      .loaded target urgent now current' ∈ s.requests.set i (.raised current) → False := by
    intro target urgent now current' hmem
    have heq := eq_of_countP_le_one (hset.trans hone).le hmem hraised rfl rfl
    cases heq
  unfold ActiveImpls.raise
  split
  · refine ⟨?_, fun t u n c hmem => (hloaded t u n c hmem).elim, fun n c hlow => ?_⟩
    · exact hset.symm ▸ h.holders
    · exact absurd (hidle.symm.trans hlow) (by simp)
  · refine ⟨?_, fun t u n c hmem => (hloaded t u n c hmem).elim, fun n c hlow => ?_⟩
    · exact hset.symm ▸ h.holders
    · exact absurd (hidle.symm.trans hlow) (by simp)

theorem maintain (h : s.Exclusive) {options : ScalingOptions} {now : Int}
    (hfree : s.locked = false) : (s.maintain options now).Exclusive := by
  obtain ⟨hidle, hnone⟩ := h.of_unlocked hfree
  unfold ActiveImpls.maintain
  split_ifs
  · exact ⟨h.holders, h.loaded, h.lowering⟩
  · exact h
  · refine ⟨?_, h.loaded, fun _ _ hlow => by cases hlow⟩
    dsimp only
    rw [hnone, if_neg (by simp), if_pos rfl]

theorem maintainLoad (h : s.Exclusive) {now : Int} (hholding : s.maintenance = .holding now) :
    (s.maintainLoad now).Exclusive := by
  obtain ⟨hlocked, hnone⟩ := h.of_maintenance (by rw [hholding]; simp)
  unfold ActiveImpls.maintainLoad
  split_ifs
  · refine ⟨?_, h.loaded, fun _ _ hlow => by cases hlow⟩
    dsimp only
    rw [hnone, if_pos rfl, if_neg Bool.false_ne_true]
  · refine ⟨?_, h.loaded, fun _ _ hlow => (Maintenance.lowering.inj hlow).2⟩
    dsimp only
    rw [hnone, if_neg (by simp), if_pos hlocked]

theorem lower (h : s.Exclusive) {now : Int} {current : Nat}
    (hlowering : s.maintenance = .lowering now current) (idle : Nat → Bool) :
    (s.lower now current idle).Exclusive := by
  obtain ⟨-, hnone⟩ := h.of_maintenance (by rw [hlowering]; simp)
  refine ⟨?_, fun _ _ _ _ hmem => (not_loaded hnone hmem).elim, fun _ _ hlow => by cases hlow⟩
  unfold ActiveImpls.lower
  dsimp only
  rw [hnone, if_pos rfl, if_neg Bool.false_ne_true]

end Exclusive

/-- A step other than the store of `preconnect`. -/
theorem Exclusive.step (h : s.Exclusive) (hother : ∀ i, action ≠ .storePreconnect i)
    (hstep : s.step options action = some t) : t.Exclusive := by
  unfold ActiveImpls.step at hstep
  cases action with
  | request =>
    obtain rfl := Option.some.inj hstep
    refine ⟨?_, fun target urgent now current hmem => ?_, h.lowering⟩
    · have hcount : (s.requests ++ [RequestStage.counted (s.inflight + 1)]).countP holds =
          s.requests.countP holds := by simp [holds]
      exact hcount.symm ▸ h.holders
    · rcases List.mem_append.mp hmem with hold | hnew
      · exact h.loaded target urgent now current hold
      · cases List.mem_singleton.mp hnew
  | load i now =>
    dsimp only at hstep
    split at hstep
    case h_1 inflight hget =>
      obtain rfl := Option.some.inj hstep
      refine h.setStage _ hget ?_ fun target urgent now current heq => ?_
      · unfold activeImplCount
        dsimp only
        split_ifs <;> rfl
      · unfold activeImplCount at heq
        dsimp only at heq
        split_ifs at heq
    case h_2 => cases hstep
  | lock i =>
    dsimp only at hstep
    split at hstep
    case h_1 target urgent now hget =>
      split_ifs at hstep with hlocked
      obtain rfl := Option.some.inj hstep
      obtain ⟨hidle, hnone⟩ := h.of_unlocked (by simpa using hlocked)
      -- the lock was free, so that this request is its only holder
      have hset := countP_set_add holds (.holding target urgent now) hget
      refine ⟨?_, fun target' urgent' now' current hmem => ?_, h.lowering⟩
      · dsimp only
        rw [if_pos hidle, if_pos rfl]
        simpa [holds, hnone] using hset
      · rcases List.mem_or_eq_of_mem_set hmem with hold | hnew
        · exact h.loaded target' urgent' now' current hold
        · cases hnew
    case h_2 => cases hstep
  | loadLocked i =>
    dsimp only at hstep
    split at hstep
    case h_1 target urgent now hget =>
      obtain rfl := Option.some.inj hstep
      exact h.setStage _ hget rfl fun _ _ _ _ heq => (RequestStage.loaded.inj heq).2.2.2
    case h_2 => cases hstep
  | raise i =>
    dsimp only at hstep
    split at hstep
    case h_1 target urgent now current hget =>
      obtain rfl := Option.some.inj hstep
      exact h.raise hget
    case h_2 => cases hstep
  | settle i =>
    dsimp only at hstep
    split at hstep
    case h_1 previous hget =>
      obtain rfl := Option.some.inj hstep
      obtain ⟨hlocked, hidle, hone⟩ := h.of_holds hget rfl
      -- its only holder gives the lock back
      have hset := countP_set_add holds (.decided (max 1 previous) (max 1 s.active)) hget
      have hnone : (s.requests.set i
          (.decided (max 1 previous) (max 1 s.active))).countP holds = 0 := by
        simpa [holds, hone] using hset
      refine ⟨?_, fun _ _ _ _ hmem => (not_loaded hnone hmem).elim, h.lowering⟩
      dsimp only
      rw [hnone, if_pos hidle, if_neg Bool.false_ne_true]
    case h_2 => cases hstep
  | choose i idle slotsRead connectingRead connectedRead =>
    dsimp only at hstep
    split at hstep
    case h_1 previous active hget =>
      obtain rfl := Option.some.inj hstep
      have hset := h.setStage (.posted (chooseImplIndex options.maxConcurrentStreams s.impls active
        s.next slotsRead connectingRead connectedRead)) hget rfl fun _ _ _ _ heq => by cases heq
      exact ⟨hset.holders, hset.loaded, hset.lowering⟩
    case h_2 => cases hstep
  | finish i =>
    dsimp only at hstep
    split at hstep
    case h_1 impl hget =>
      obtain rfl := Option.some.inj hstep
      -- a request that is posted does not hold the lock
      have herase : (s.requests.eraseIdx i).countP holds = s.requests.countP holds :=
        countP_eraseIdx_add holds hget
      refine ⟨herase.symm ▸ h.holders, fun target urgent now current hmem => ?_, h.lowering⟩
      exact h.loaded target urgent now current (List.mem_of_mem_eraseIdx hmem)
    case h_2 => cases hstep
  | preconnect count =>
    obtain rfl := Option.some.inj hstep
    split_ifs
    · exact ⟨h.holders, h.loaded, h.lowering⟩
    · exact h
  -- `preconnect` stores without the lock
  | storePreconnect i => exact absurd rfl (hother i)
  | maintain now =>
    dsimp only at hstep
    split_ifs at hstep with hauto
    obtain rfl := Option.some.inj hstep
    exact h.maintain (by simpa using (Bool.and_eq_true_iff.mp hauto).2)
  | maintainLoad =>
    dsimp only at hstep
    split at hstep
    case h_1 now hholding =>
      obtain rfl := Option.some.inj hstep
      exact h.maintainLoad hholding
    case h_2 => cases hstep
  | lower idle =>
    dsimp only at hstep
    split at hstep
    case h_1 now current hlowering =>
      obtain rfl := Option.some.inj hstep
      exact h.lower hlowering idle
    case h_2 => cases hstep

end ActiveImpls

/-- In every state that is reached: at least one session is in use and no more than there are, and
all of them without `auto_shards`. The requests in flight are counted, and each is posted to a
session of the group. Only the first session is never told to reset. -/
theorem sessions_in_use {options : ScalingOptions} {created : Int} {s : ActiveImpls}
    (hreach : Reaches (ActiveImpls.step options) (.start options created) s) :
    s.impls = max 1 options.sessionsPerOrigin ∧ 1 ≤ s.active ∧ s.active ≤ s.impls ∧
      (options.autoShards = false → s.active = s.impls) ∧ s.inflight = s.requests.length ∧
      (∀ impl, .posted impl ∈ s.requests → impl < s.impls) ∧
      (∀ i ∈ s.prewarmed, i < s.impls) ∧ ∀ i ∈ s.resets, 1 ≤ i ∧ i < s.impls := by
  have h : s.Sound options :=
    invariant_of_reaches (fun _ _ _ hs hstep => ActiveImpls.Sound.step hs hstep)
      (ActiveImpls.sound_start options created) hreach
  exact ⟨h.impls, h.active.1, h.active.2, h.fixed, h.inflight,
    fun impl hposted => h.requests _ hposted, h.prewarmed, h.resets⟩

def fourSessions : ScalingOptions := { autoShards := true, sessionsPerOrigin := 4 }

/-- A call of `preconnect`, and a request. -/
def warmUp : List ScalingAction :=
  [.preconnect 2, .storePreconnect 0, .request, .load 0 0,
    .choose 0 (fun _ => true) (fun _ => {}) (fun i => { connecting := i == 1 }) fun _ => {}]

def warmedUp : ActiveImpls :=
  { impls := 4, active := 2, inflight := 1, next := 1, lastBusy := 20, requests := [.posted 1] }

theorem sessions_in_use_two :
    warmedUp.impls = max 1 fourSessions.sessionsPerOrigin ∧ 1 ≤ warmedUp.active ∧
      warmedUp.active ≤ warmedUp.impls ∧
      (fourSessions.autoShards = false → warmedUp.active = warmedUp.impls) ∧
      warmedUp.inflight = warmedUp.requests.length ∧
      (∀ impl, .posted impl ∈ warmedUp.requests → impl < warmedUp.impls) ∧
      (∀ i ∈ warmedUp.prewarmed, i < warmedUp.impls) ∧
      ∀ i ∈ warmedUp.resets, 1 ≤ i ∧ i < warmedUp.impls :=
  have hrun : exec (ActiveImpls.step fourSessions) (.start fourSessions 20) warmUp =
      some warmedUp := by decide
  sessions_in_use ⟨warmUp, hrun⟩

/-- In every run in which no call of `preconnect` stores a number, nothing that is stored undoes
another store: who has the lock and has loaded the number finds it as it was. -/
theorem loaded_stays_current {options : ScalingOptions} {created : Int}
    {actions : List ScalingAction} {s : ActiveImpls}
    (hrun : exec (ActiveImpls.step options) (.start options created) actions = some s)
    (hnone : ∀ i, .storePreconnect i ∉ actions) :
    (∀ target urgent now current, .loaded target urgent now current ∈ s.requests →
        s.active = current) ∧
      ∀ now current, s.maintenance = .lowering now current → s.active = current := by
  have hok : Along (ActiveImpls.step options) (fun _ a => ∀ i, a ≠ .storePreconnect i)
      (.start options created) actions := by
    have hall : Along (ActiveImpls.step options) (fun _ _ => True) (.start options created)
        actions :=
      along_of_forall (fun _ _ => trivial) _ _
    refine (hall.and_mem fun a ha i heq => ?_).mono fun _ _ h => h.2
    exact hnone i (heq ▸ ha)
  have h : s.Exclusive :=
    invariant_of_along (fun _ _ _ hs hother hstep => ActiveImpls.Exclusive.step hs hother hstep)
      (ActiveImpls.exclusive_start options created) hok hrun
  exact ⟨h.loaded, h.lowering⟩

/-- The last of 64 requests is about to raise the number. -/
def burst : List ScalingAction :=
  List.replicate 64 .request ++ [.load 63 30, .lock 63, .loadLocked 63]

def atRaise : ActiveImpls :=
  { impls := 4, active := 1, inflight := 64, lastBusy := 20, locked := true
    requests := (List.range 63).map (fun i => .counted (i + 1)) ++ [.loaded 2 false 30 1] }

theorem loaded_stays_current_burst :
    (∀ target urgent now current, .loaded target urgent now current ∈ atRaise.requests →
        atRaise.active = current) ∧
      ∀ now current, atRaise.maintenance = .lowering now current → atRaise.active = current :=
  have hrun : exec (ActiveImpls.step fourSessions) (.start fourSessions 20) burst =
      some atRaise := by decide +kernel
  loaded_stays_current hrun (by simp [burst])

/-- The maintenance undoes what a call of `preconnect` stores between its load and its store. -/
def preconnectUndone : List ScalingAction :=
  [.preconnect 2, .storePreconnect 0, .maintain 60000, .maintainLoad, .preconnect 4,
    .storePreconnect 0, .lower fun _ => true]

example : (exec (ActiveImpls.step fourSessions) (.start fourSessions 0) preconnectUndone).map
    ActiveImpls.active = some 1 := by decide

end HttpClient.H2
