import HttpClient.H1.Preconnect
import HttpClient.Semantics.Machine
import HttpClient.Semantics.CompareExchange
import HttpClient.Semantics.Ring

/-!
# The shards in use

With striping the requests of an origin go round the shards that are in use: the hash of the
origin and a counter of all requests are added and taken modulo the number of the shards. Sums of
sizes wrap, so the round is broken where the sum does, unless the number of shards divides the
number of sizes.

With `auto_shards` the number in use grows with the requests in flight. It is an atomic. Requests
and `preconnect` raise it in a loop of compare-and-exchange, which may fail for no reason; the
maintenance of the first shard halves it after a time with few requests, with a load and a store.
A lock keeps the times of the last change only.

## Main definitions

* `pickRequestShard` — the shard of a request
* `wantedShards` — how many shards are to be in use
* `Shards`, `ShardStage`, `Lowering` — the client, its requests, and the maintenance
* `ScalingAction`, `Shards.step` — the loads, the exchanges and the stores

## Main results

* `striping_fair_iff` — when consecutive requests go to each shard once
* `shards_in_use` — the number in use, the requests in flight and where they go
* `raises_kept` — without the maintenance no raise is undone
-/

set_option autoImplicit false

namespace HttpClient.H1

open Semantics Text

/-! ### Striping -/

/-- The shard of a request that has drawn `seq` from the counter. -/
def pickRequestShard (options : ShardingOptions) (hash : Bytes → UInt64)
    (shards active seq : UInt64) (url : ParsedUrl) : UInt64 :=
  if options.stripeOriginsAcrossShards then
    (hash (poolKey url) + seq) % shardLimit options shards active
  else pickShard hash shards url

theorem toNat_pickRequestShard {options : ShardingOptions}
    (hstripe : options.stripeOriginsAcrossShards = true) (hash : Bytes → UInt64)
    (shards active seq : UInt64) (url : ParsedUrl) (i : Nat) :
    (pickRequestShard options hash shards active (seq + .ofNat i) url).toNat =
      ((hash (poolKey url) + seq).toNat + i) % 2 ^ 64 %
        (shardLimit options shards active).toNat := by
  rw [pickRequestShard, if_pos hstripe, UInt64.toNat_mod, ← UInt64.add_assoc, UInt64.toNat_add,
    UInt64.toNat_ofNat', Nat.add_mod_mod]

/-- As many requests of an origin as there are shards in use, with consecutive numbers, go to each
of them once, if and only if the sum of the hash and the numbers does not wrap on the way or the
number of shards divides `2 ^ 64`. -/
theorem striping_fair_iff {options : ShardingOptions}
    (hstripe : options.stripeOriginsAcrossShards = true) (hash : Bytes → UInt64)
    (shards active seq : UInt64) (url : ParsedUrl) :
    ((List.range (shardLimit options shards active).toNat).map fun i =>
        (pickRequestShard options hash shards active (seq + .ofNat i) url).toNat).Perm
        (List.range (shardLimit options shards active).toNat) ↔
      (hash (poolKey url) + seq).toNat + (shardLimit options shards active).toNat ≤ 2 ^ 64 ∨
        (shardLimit options shards active).toNat ∣ 2 ^ 64 := by
  simp only [toNat_pickRequestShard hstripe]
  exact wrapping_perm_iff (UInt64.toNat_lt _)

/-- An origin whose sum wraps within a round of three shards. -/
theorem striping_unfair_three :
    ¬ ((List.range 3).map fun i => (pickRequestShard { stripeOriginsAcrossShards := true }
        (fun _ => 18446744073709551614) 3 1 (0 + .ofNat i)
        { scheme := str "http", host := str "a", port := str "80", target := str "/" }).toNat).Perm
      (List.range 3) :=
  (striping_fair_iff rfl (fun _ => 18446744073709551614) 3 1 0 _).not.mpr (by decide)

/-! ### The number in use -/

structure ShardScaling extends ShardingOptions where
  /-- Times are in milliseconds. -/
  autoScaleUpInterval : Int := 25
  autoScaleDownIdleTtl : Int := 60000

/-- The target of `maybe_expand_auto_shards`. -/
def wantedShards (shards current inflight : Nat) : Nat :=
  if 512 ≤ inflight then min 16 shards
  else if 128 ≤ inflight then min 8 shards
  else if 96 ≤ inflight then min 4 shards
  else if 32 ≤ inflight then min 2 shards
  else current

/-- Where a request is that has been counted. -/
inductive ShardStage where
  | counted (inflight : Nat)
  /-- About to look under the lock whether the last raise was long ago. -/
  | pacing (target current : Nat) (now : Int)
  /-- In the loop, with what has been loaded. -/
  | raising (target current : Nat)
  /-- About to pick a shard; the request has seen that many in use. -/
  | scaled (seen : Nat)
  | picked (shard : Nat)
  deriving DecidableEq, Repr

/-- Where the maintenance of the first shard is. -/
inductive Lowering where
  | idle
  | loaded (inflight : Nat) (now : Int)
  /-- With the lock, the number in use has been loaded. -/
  | lowering (current : Nat) (now : Int)
  deriving DecidableEq, Repr

structure Shards where
  shards : Nat
  active : Nat := 1
  inflight : Nat := 0
  next : Nat := 0
  lastAutoScaleUp : Int := 0
  lastAutoBusy : Int := 0
  /-- `auto_scale_mu_` is held. -/
  locked : Bool := false
  requests : List ShardStage := []
  maintenance : Lowering := .idle
  /-- The calls of `preconnect` in the loop: the target, and what has been loaded. -/
  preconnects : List (Nat × Nat) := []
  deriving DecidableEq, Repr

inductive ScalingAction where
  | request
  | load (i : Nat) (now : Int)
  | pace (i : Nat)
  /-- A compare-and-exchange, which may fail for no reason. -/
  | exchange (i : Nat) (fails : Bool)
  | pick (i : Nat) (hash : Bytes → UInt64) (url : ParsedUrl)
  | finish (i : Nat)
  | preconnect (count : Nat)
  | exchangePreconnect (i : Nat) (fails : Bool)
  | maintain (now : Int)
  | maintainLock
  | lower

namespace Shards

variable (options : ShardScaling)

/-- The part of `maybe_expand_auto_shards` before the lock. -/
def maybeExpandAutoShards (s : Shards) (inflight : Nat) (now : Int) : ShardStage :=
  if !options.autoShards || decide (s.shards ≤ 1) then .scaled 0
  else
    let target := wantedShards s.shards s.active inflight
    if target ≤ s.active then .scaled target
    else if 128 ≤ inflight then .raising target s.active
    else .pacing target s.active now

/-- After an exchange: back in the loop, or out of it. -/
def raiseStage (target : Nat) (found : Option Nat) : ShardStage :=
  match raiseAgain target found with
  | none => .scaled target
  | some current => .raising target current

def maintainLock (inflight : Nat) (now : Int) (s : Shards) : Shards :=
  if 8 < inflight then { s with lastAutoBusy := now, maintenance := .idle }
  else if now - s.lastAutoBusy < options.autoScaleDownIdleTtl then { s with maintenance := .idle }
  else if 1 < s.active then { s with locked := true, maintenance := .lowering s.active now }
  else { s with maintenance := .idle }

def step (s : Shards) : ScalingAction → Option Shards
  | .request =>
    some { s with
      inflight := s.inflight + 1, requests := s.requests ++ [.counted (s.inflight + 1)] }
  | .load i now =>
    match s.requests[i]? with
    | some (.counted inflight) =>
      some { s with
        requests := s.requests.set i (s.maybeExpandAutoShards options inflight now) }
    | _ => none
  | .pace i =>
    match s.requests[i]? with
    | some (.pacing target current now) =>
      if s.locked then none
      else if now - s.lastAutoScaleUp < options.autoScaleUpInterval then
        some { s with requests := s.requests.set i (.scaled 0) }
      else
        some { s with
          lastAutoScaleUp := now, requests := s.requests.set i (.raising target current) }
    | _ => none
  | .exchange i fails =>
    match s.requests[i]? with
    | some (.raising target current) =>
      let result := compareExchange s.active target current fails
      some { s with
        active := result.1, requests := s.requests.set i (raiseStage target result.2) }
    | _ => none
  | .pick i hash url =>
    match s.requests[i]? with
    | some (.scaled _) =>
      some { s with
        -- only striping draws a number
        next := if options.stripeOriginsAcrossShards then (s.next + 1) % 2 ^ 64 else s.next
        requests := s.requests.set i (.picked (pickRequestShard options.toShardingOptions hash
          (.ofNat s.shards) (.ofNat s.active) (.ofNat s.next) url).toNat) }
    | _ => none
  | .finish i =>
    match s.requests[i]? with
    | some (.picked _) =>
      some { s with inflight := s.inflight - 1, requests := s.requests.eraseIdx i }
    | _ => none
  | .preconnect count =>
    let target := min s.shards (max 1 count)
    some (if options.autoShards && options.stripeOriginsAcrossShards &&
          decide (s.active < target) then
        { s with preconnects := s.preconnects ++ [(target, s.active)] }
      else s)
  | .exchangePreconnect i fails =>
    match s.preconnects[i]? with
    | some (target, current) =>
      let result := compareExchange s.active target current fails
      some { s with
        active := result.1
        preconnects := match raiseStage target result.2 with
          | .raising target current => s.preconnects.set i (target, current)
          | _ => s.preconnects.eraseIdx i }
    | none => none
  | .maintain now =>
    match s.maintenance with
    | .idle =>
      if options.autoShards then some { s with maintenance := .loaded s.inflight now } else none
    | _ => none
  | .maintainLock =>
    match s.maintenance with
    | .loaded inflight now => if s.locked then none else some (s.maintainLock options inflight now)
    | _ => none
  | .lower =>
    match s.maintenance with
    | .lowering current now =>
      some { s with
        active := max 1 (current / 2), lastAutoBusy := now, locked := false, maintenance := .idle }
    | _ => none

/-! ### What every step keeps -/

/-- What a request is about to store, and where it goes. -/
def Fits (shards : Nat) : ShardStage → Prop
  | .pacing target _ _ | .raising target _ => 1 ≤ target ∧ target ≤ shards
  | .picked shard => shard < shards
  | _ => True

structure Sound (n : Nat) (s : Shards) : Prop where
  shards : s.shards = n
  active : 1 ≤ s.active ∧ s.active ≤ n
  inflight : s.inflight = s.requests.length
  requests : ∀ stage ∈ s.requests, Fits n stage
  preconnects : ∀ entry ∈ s.preconnects, 1 ≤ entry.1 ∧ entry.1 ≤ n
  lowering : ∀ current now, s.maintenance = .lowering current now → current ≤ n

/-- A request is in the loop for more than it has loaded, and out of it with what it has seen. -/
def Honest (active : Nat) : ShardStage → Prop
  | .pacing target current _ | .raising target current => current < target
  | .scaled seen => seen ≤ active
  | _ => True

/-- Every raise that is over is still in force. -/
structure Kept (s : Shards) : Prop where
  requests : ∀ stage ∈ s.requests, Honest s.active stage
  preconnects : ∀ entry ∈ s.preconnects, entry.2 < entry.1

variable {options} {n : Nat} {s t : Shards} {action : ScalingAction}

theorem sound_start {n : Nat} (hn : 1 ≤ n) (now : Int) :
    Sound n { shards := n, lastAutoBusy := now } :=
  ⟨rfl, ⟨le_rfl, hn⟩, rfl, by simp, by simp, fun _ _ h => (by cases h)⟩

theorem wantedShards_bounds {current : Nat} (hcurrent : 1 ≤ current) (hle : current ≤ n)
    (inflight : Nat) :
    1 ≤ wantedShards n current inflight ∧ wantedShards n current inflight ≤ n := by
  rw [wantedShards]
  split_ifs <;> omega

/-- A request goes on to another stage. -/
theorem Sound.setStage (h : s.Sound n) {stage : ShardStage} (i : Nat) (hfits : Fits n stage) :
    Sound n { s with requests := s.requests.set i stage } :=
  { h with
    inflight := by rw [h.inflight, List.length_set]
    requests := fun other hother => by
      rcases List.mem_or_eq_of_mem_set hother with hold | rfl
      · exact h.requests other hold
      · exact hfits }

theorem fits_maybeExpandAutoShards (h : s.Sound n) (inflight : Nat) (now : Int) :
    Fits n (s.maybeExpandAutoShards options inflight now) := by
  have hbounds : 1 ≤ wantedShards s.shards s.active inflight ∧
      wantedShards s.shards s.active inflight ≤ n := by
    rw [h.shards]
    exact wantedShards_bounds h.active.1 h.active.2 inflight
  unfold maybeExpandAutoShards
  dsimp only
  split_ifs
  · trivial
  · trivial
  · exact hbounds
  · exact hbounds

theorem fits_raiseStage {target : Nat} (htarget : 1 ≤ target ∧ target ≤ n) (found : Option Nat) :
    Fits n (raiseStage target found) := by
  unfold raiseStage
  split
  case h_1 => trivial
  case h_2 => exact htarget

theorem Sound.exchange (h : s.Sound n) {target : Nat} (htarget : 1 ≤ target ∧ target ≤ n)
    (current : Nat) (fails : Bool) :
    Sound n { s with active := (compareExchange s.active target current fails).1 } := by
  rcases compareExchange_cases s.active target current fails with ⟨heq, -⟩ | heq
  · rw [heq]
    exact { h with active := htarget }
  · rw [heq]
    exact h

theorem Sound.maintainLock (h : s.Sound n) (inflight : Nat) (now : Int) :
    (s.maintainLock options inflight now).Sound n := by
  unfold Shards.maintainLock
  split_ifs
  · exact { h with lowering := fun _ _ hlow => by cases hlow }
  · exact { h with lowering := fun _ _ hlow => by cases hlow }
  · refine { h with lowering := fun current _ hlow => ?_ }
    obtain ⟨rfl, -⟩ := Lowering.lowering.inj hlow
    exact h.active.2
  · exact { h with lowering := fun _ _ hlow => by cases hlow }

theorem pickRequestShard_lt {n : Nat} (hn : 1 ≤ n) (hsize : n < 2 ^ 64) (options : ShardingOptions)
    (hash : Bytes → UInt64) (active seq : UInt64) (url : ParsedUrl) :
    (pickRequestShard options hash (.ofNat n) active seq url).toNat < n := by
  have htoNat : (UInt64.ofNat n).toNat = n := UInt64.toNat_ofNat_of_lt' hsize
  have hpos : (0 : UInt64) < .ofNat n := by
    rw [UInt64.lt_iff_toNat_lt, htoNat]
    exact hn
  unfold pickRequestShard
  split_ifs
  · obtain ⟨hlimit, hle⟩ := shardLimit_range options hpos active
    rw [UInt64.toNat_mod]
    exact (Nat.mod_lt _ hlimit).trans_le (hle.trans_eq htoNat)
  · rw [pickShard, UInt64.toNat_mod, htoNat]
    exact Nat.mod_lt _ hn

theorem Sound.step (hn : n < 2 ^ 64) (h : s.Sound n) (hstep : s.step options action = some t) :
    t.Sound n := by
  unfold Shards.step at hstep
  cases action with
  | request =>
    obtain rfl := Option.some.inj hstep
    refine { h with inflight := by simp [h.inflight], requests := fun stage hstage => ?_ }
    rcases List.mem_append.mp hstage with hold | hnew
    · exact h.requests stage hold
    · rw [List.mem_singleton.mp hnew]
      trivial
  | load i now =>
    dsimp only at hstep
    split at hstep
    case h_1 inflight hget =>
      obtain rfl := Option.some.inj hstep
      exact h.setStage i (fits_maybeExpandAutoShards h inflight now)
    case h_2 => cases hstep
  | pace i =>
    dsimp only at hstep
    split at hstep
    case h_1 target current now hget =>
      have hfits := h.requests _ (List.mem_of_getElem? hget)
      split_ifs at hstep
      · obtain rfl := Option.some.inj hstep
        exact h.setStage i trivial
      · obtain rfl := Option.some.inj hstep
        have hpaced : Sound n { s with lastAutoScaleUp := now } := { h with }
        exact hpaced.setStage i hfits
    case h_2 => cases hstep
  | exchange i fails =>
    dsimp only at hstep
    split at hstep
    case h_1 target current hget =>
      obtain rfl := Option.some.inj hstep
      have htarget := h.requests _ (List.mem_of_getElem? hget)
      exact (h.exchange htarget current fails).setStage i (fits_raiseStage htarget _)
    case h_2 => cases hstep
  | pick i hash url =>
    dsimp only at hstep
    split at hstep
    case h_1 seen hget =>
      obtain rfl := Option.some.inj hstep
      have hpicked := pickRequestShard_lt (h.active.1.trans h.active.2) hn
        options.toShardingOptions hash (.ofNat s.active) (.ofNat s.next) url
      rw [← h.shards] at hpicked
      have hcounted : Sound n { s with
          next := if options.stripeOriginsAcrossShards then (s.next + 1) % 2 ^ 64 else s.next } :=
        { h with }
      exact hcounted.setStage i (h.shards ▸ hpicked)
    case h_2 => cases hstep
  | finish i =>
    dsimp only at hstep
    split at hstep
    case h_1 shard hget =>
      obtain rfl := Option.some.inj hstep
      have hlt := (List.getElem?_eq_some_iff.mp hget).1
      exact { h with
        inflight := by rw [h.inflight, List.length_eraseIdx_of_lt hlt]
        requests := fun stage hstage => h.requests stage (List.mem_of_mem_eraseIdx hstage) }
    case h_2 => cases hstep
  | preconnect count =>
    obtain rfl := Option.some.inj hstep
    split_ifs
    · refine { h with preconnects := fun entry hentry => ?_ }
      rcases List.mem_append.mp hentry with hold | hnew
      · exact h.preconnects entry hold
      · obtain ⟨hone, hle⟩ := h.active
        rw [List.mem_singleton.mp hnew, h.shards]
        exact ⟨by omega, Nat.min_le_left ..⟩
    · exact h
  | exchangePreconnect i fails =>
    dsimp only at hstep
    split at hstep
    case h_1 target current hget =>
      obtain rfl := Option.some.inj hstep
      have htarget := h.preconnects _ (List.mem_of_getElem? hget)
      -- a call that goes on keeps its target, with what it has found
      refine { h.exchange htarget current fails with preconnects := fun entry hentry => ?_ }
      dsimp only at hentry
      have hstage := fits_raiseStage htarget (compareExchange s.active target current fails).2
      split at hentry
      case h_1 target' current' hraise =>
        rw [hraise] at hstage
        rcases List.mem_or_eq_of_mem_set hentry with hold | rfl
        · exact h.preconnects entry hold
        · exact hstage
      case h_2 => exact h.preconnects entry (List.mem_of_mem_eraseIdx hentry)
    case h_2 => cases hstep
  | maintain now =>
    dsimp only at hstep
    split at hstep
    case h_1 =>
      split_ifs at hstep
      obtain rfl := Option.some.inj hstep
      exact { h with lowering := fun _ _ hlow => by cases hlow }
    case h_2 => cases hstep
  | maintainLock =>
    dsimp only at hstep
    split at hstep
    case h_1 inflight now hloaded =>
      split_ifs at hstep
      obtain rfl := Option.some.inj hstep
      exact h.maintainLock inflight now
    case h_2 => cases hstep
  | lower =>
    dsimp only at hstep
    split at hstep
    case h_1 current now hlowering =>
      obtain rfl := Option.some.inj hstep
      -- half of what was loaded is within the bounds, whatever has been stored meanwhile
      have hle := h.lowering current now hlowering
      obtain ⟨hone, hn'⟩ := h.active
      exact { h with
        active := ⟨Nat.le_max_left .., by dsimp only; omega⟩
        lowering := fun _ _ hlow => by cases hlow }
    case h_2 => cases hstep

/-! ### Raises -/

theorem kept_start (n : Nat) (now : Int) : Kept { shards := n, lastAutoBusy := now } :=
  ⟨by simp, by simp⟩

theorem Honest.mono {active active' : Nat} (hle : active ≤ active') {stage : ShardStage}
    (h : Honest active stage) : Honest active' stage := by
  cases stage with
  -- only a request out of the loop depends on what is stored
  | scaled seen => exact Nat.le_trans h hle
  | _ => exact h

/-- A request goes on to another stage, and the number does not fall. -/
theorem Kept.setStage (h : s.Kept) {active : Nat} (hle : s.active ≤ active) {stage : ShardStage}
    (i : Nat) (hstage : Honest active stage) :
    Kept { s with active, requests := s.requests.set i stage } := by
  refine ⟨fun other hother => ?_, h.preconnects⟩
  rcases List.mem_or_eq_of_mem_set hother with hold | rfl
  · exact (h.requests other hold).mono hle
  · exact hstage

theorem honest_maybeExpandAutoShards (inflight : Nat) (now : Int) :
    Honest s.active (s.maybeExpandAutoShards options inflight now) := by
  unfold maybeExpandAutoShards
  dsimp only
  split_ifs with hoff hle
  · exact Nat.zero_le _
  · exact hle
  · exact Nat.lt_of_not_le hle
  · exact Nat.lt_of_not_le hle

/-- An exchange does not lower the number, and the loop is left with the target in use. -/
theorem compareExchange_raises {active target current : Nat} (hraise : current < target)
    (fails : Bool) :
    active ≤ (compareExchange active target current fails).1 ∧
      Honest (compareExchange active target current fails).1
        (raiseStage target (compareExchange active target current fails).2) := by
  refine ⟨le_compareExchange hraise fails, ?_⟩
  unfold raiseStage
  split
  case h_1 hleft => exact le_of_raiseAgain_eq_none hleft
  case h_2 found hstill => exact (raiseAgain_eq_some hstill).2

/-- A step of anyone but the maintenance that lowers the number. -/
theorem Kept.step (h : s.Kept) (hother : action ≠ .lower)
    (hstep : s.step options action = some t) : t.Kept ∧ s.active ≤ t.active := by
  unfold Shards.step at hstep
  cases action with
  | request =>
    obtain rfl := Option.some.inj hstep
    refine ⟨⟨fun stage hstage => ?_, h.preconnects⟩, le_rfl⟩
    rcases List.mem_append.mp hstage with hold | hnew
    · exact h.requests stage hold
    · rw [List.mem_singleton.mp hnew]
      trivial
  | load i now =>
    dsimp only at hstep
    split at hstep
    case h_1 inflight hget =>
      obtain rfl := Option.some.inj hstep
      exact ⟨h.setStage le_rfl i (honest_maybeExpandAutoShards inflight now), le_rfl⟩
    case h_2 => cases hstep
  | pace i =>
    dsimp only at hstep
    split at hstep
    case h_1 target current now hget =>
      have hmore := h.requests _ (List.mem_of_getElem? hget)
      split_ifs at hstep
      · obtain rfl := Option.some.inj hstep
        exact ⟨h.setStage le_rfl i (Nat.zero_le _), le_rfl⟩
      · obtain rfl := Option.some.inj hstep
        have hset : Kept { s with requests := s.requests.set i (.raising target current) } :=
          h.setStage le_rfl i hmore
        exact ⟨⟨hset.requests, hset.preconnects⟩, le_rfl⟩
    case h_2 => cases hstep
  | exchange i fails =>
    dsimp only at hstep
    split at hstep
    case h_1 target current hget =>
      obtain rfl := Option.some.inj hstep
      have hmore : current < target := h.requests _ (List.mem_of_getElem? hget)
      -- the exchange takes place only if it raises what is stored
      obtain ⟨hle, hhonest⟩ := compareExchange_raises hmore fails
      exact ⟨h.setStage hle i hhonest, hle⟩
    case h_2 => cases hstep
  | pick i hash url =>
    dsimp only at hstep
    split at hstep
    case h_1 seen hget =>
      obtain rfl := Option.some.inj hstep
      refine ⟨⟨fun stage hstage => ?_, h.preconnects⟩, le_rfl⟩
      rcases List.mem_or_eq_of_mem_set hstage with hold | rfl
      · exact h.requests stage hold
      · trivial
    case h_2 => cases hstep
  | finish i =>
    dsimp only at hstep
    split at hstep
    case h_1 shard hget =>
      obtain rfl := Option.some.inj hstep
      refine ⟨⟨fun stage hstage => ?_, h.preconnects⟩, le_rfl⟩
      exact h.requests stage (List.mem_of_mem_eraseIdx hstage)
    case h_2 => cases hstep
  | preconnect count =>
    obtain rfl := Option.some.inj hstep
    split_ifs with hraise
    · refine ⟨⟨h.requests, fun entry hentry => ?_⟩, le_rfl⟩
      rw [Bool.and_eq_true, decide_eq_true_eq] at hraise
      rcases List.mem_append.mp hentry with hold | hnew
      · exact h.preconnects entry hold
      · rw [List.mem_singleton.mp hnew]
        exact hraise.2
    · exact ⟨h, le_rfl⟩
  | exchangePreconnect i fails =>
    dsimp only at hstep
    split at hstep
    case h_1 target current hget =>
      obtain rfl := Option.some.inj hstep
      have hmore : current < target := h.preconnects _ (List.mem_of_getElem? hget)
      obtain ⟨hle, hhonest⟩ := compareExchange_raises hmore fails
      refine ⟨⟨fun stage hstage => (h.requests stage hstage).mono hle, fun entry hentry => ?_⟩, hle⟩
      dsimp only at hentry
      split at hentry
      case h_1 target' current' hraise =>
        rw [hraise] at hhonest
        rcases List.mem_or_eq_of_mem_set hentry with hold | rfl
        · exact h.preconnects entry hold
        · exact hhonest
      case h_2 => exact h.preconnects entry (List.mem_of_mem_eraseIdx hentry)
    case h_2 => cases hstep
  | maintain now =>
    dsimp only at hstep
    split at hstep
    case h_1 =>
      split_ifs at hstep
      obtain rfl := Option.some.inj hstep
      exact ⟨⟨h.requests, h.preconnects⟩, le_rfl⟩
    case h_2 => cases hstep
  | maintainLock =>
    dsimp only at hstep
    split at hstep
    case h_1 inflight now hloaded =>
      split_ifs at hstep
      obtain rfl := Option.some.inj hstep
      unfold maintainLock
      split_ifs
      · exact ⟨⟨h.requests, h.preconnects⟩, le_rfl⟩
      · exact ⟨⟨h.requests, h.preconnects⟩, le_rfl⟩
      · exact ⟨⟨h.requests, h.preconnects⟩, le_rfl⟩
      · exact ⟨⟨h.requests, h.preconnects⟩, le_rfl⟩
    case h_2 => cases hstep
  -- the maintenance stores without comparing
  | lower => exact absurd rfl hother

end Shards

/-- In every state that is reached at least one shard is in use and no more than there are, the
requests in flight are counted, and each has picked a shard that there is. -/
theorem shards_in_use {options : ShardScaling} {n : Nat} (hn : 1 ≤ n) (hsize : n < 2 ^ 64)
    {created : Int} {s : Shards}
    (hreach : Reaches (Shards.step options) { shards := n, lastAutoBusy := created } s) :
    1 ≤ s.active ∧ s.active ≤ n ∧ s.inflight = s.requests.length ∧
      ∀ shard, .picked shard ∈ s.requests → shard < n := by
  have h : s.Sound n :=
    invariant_of_reaches (fun _ _ _ hs hstep => Shards.Sound.step hsize hs hstep)
      (Shards.sound_start hn created) hreach
  exact ⟨h.active.1, h.active.2, h.inflight, fun shard hpicked => h.requests _ hpicked⟩

def autoStriping : ShardScaling := { autoShards := true, stripeOriginsAcrossShards := true }

/-- The last of 32 requests comes to the loop. -/
def crowd : List ScalingAction := List.replicate 32 .request ++ [.load 31 25, .pace 31]

/-- Its second exchange does not fail, and it picks a shard. -/
def spread : List ScalingAction :=
  [.exchange 31 true, .exchange 31 false, .pick 31 (fun _ => 7)
    { scheme := str "http", host := str "a", port := str "80", target := str "/" }]

def crowded : Shards :=
  { shards := 4, inflight := 32, lastAutoScaleUp := 25
    requests := (List.range 31).map (fun i => .counted (i + 1)) ++ [.raising 2 1] }

def spreadOut : Shards :=
  { crowded with
    active := 2, next := 1
    requests := (List.range 31).map (fun i => .counted (i + 1)) ++ [.picked 1] }

theorem exec_crowd : exec (Shards.step autoStriping) { shards := 4 } crowd = some crowded := by
  decide +kernel

theorem exec_spread : exec (Shards.step autoStriping) crowded spread = some spreadOut := by
  decide +kernel

theorem shards_in_use_four :
    1 ≤ spreadOut.active ∧ spreadOut.active ≤ 4 ∧
      spreadOut.inflight = spreadOut.requests.length ∧
      ∀ shard, .picked shard ∈ spreadOut.requests → shard < 4 :=
  shards_in_use (by decide) (by decide)
    ⟨crowd ++ spread, exec_append_eq_some.mpr ⟨crowded, exec_crowd, exec_spread⟩⟩

/-- In every run in which the maintenance lowers nothing the number does not fall, and a request
that is about to pick a shard finds as many in use as it has asked for. -/
theorem raises_kept {options : ShardScaling} {n : Nat} {created : Int}
    {before after : List ScalingAction} {s t : Shards}
    (hs : exec (Shards.step options) { shards := n, lastAutoBusy := created } before = some s)
    (ht : exec (Shards.step options) s after = some t) (hnone : .lower ∉ before ++ after) :
    s.active ≤ t.active ∧ ∀ seen, .scaled seen ∈ t.requests → seen ≤ t.active := by
  have hok : ∀ {u : Shards} {actions : List ScalingAction}, .lower ∉ actions →
      Along (Shards.step options) (fun _ a => a ≠ .lower) u actions := by
    intro u actions hmem
    have hall : Along (Shards.step options) (fun _ _ => True) u actions :=
      along_of_forall (fun _ _ => trivial) _ _
    have hne : ∀ a ∈ actions, a ≠ .lower := fun a ha heq => hmem (heq ▸ ha)
    exact (hall.and_mem hne).mono fun _ _ h => h.2
  rw [List.mem_append, not_or] at hnone
  have hstart : s.Kept := invariant_of_along
    (fun _ _ _ hs hother hstep => (Shards.Kept.step hs hother hstep).1)
    (Shards.kept_start n created) (hok hnone.1) hs
  have hstep : ∀ u a v, u.Kept ∧ s.active ≤ u.active → a ≠ .lower →
      Shards.step options u a = some v → v.Kept ∧ s.active ≤ v.active := by
    rintro u a v ⟨hu, hle⟩ hother hv
    obtain ⟨hkept, hmore⟩ := hu.step hother hv
    exact ⟨hkept, hle.trans hmore⟩
  obtain ⟨hkept, hle⟩ := invariant_of_along hstep ⟨hstart, le_rfl⟩ (hok hnone.2) ht
  exact ⟨hle, fun seen hseen => hkept.requests _ hseen⟩

theorem raises_kept_spread :
    crowded.active ≤ spreadOut.active ∧
      ∀ seen, .scaled seen ∈ spreadOut.requests → seen ≤ spreadOut.active :=
  raises_kept exec_crowd exec_spread (by simp [crowd, spread])

end HttpClient.H1
