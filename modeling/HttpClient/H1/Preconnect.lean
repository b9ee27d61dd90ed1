import HttpClient.H1.ShardOrigins
import HttpClient.Semantics.EvenSplit

/-!
# Connecting ahead

Connections can be opened before a request needs them. If origins are striped across shards, the
number of connections is split among the shards that are in use; otherwise the shard of the origin
opens them all.

The number of shards in use is shared with other threads. It is raised to the number that is
wanted and then read again; what is read is a parameter here.

## Main definitions

* `preconnectTargets` — the shards
* `targetCount`, `targetCounts` — what each of them aims at
* `preconnect` — the shards that are told to connect

## Main results

* `preconnect_splits` — the number is split exactly and evenly, without overflow
* `sum_preconnect` — the shards that are told aim at the whole number
-/

set_option autoImplicit false

namespace HttpClient.H1

open Semantics Text

structure ShardingOptions where
  autoShards : Bool := false
  stripeOriginsAcrossShards : Bool := false

/-! ### The targets -/

/-- `pick_shard` -/
def pickShard (hash : Bytes → UInt64) (shards : UInt64) (url : ParsedUrl) : UInt64 :=
  hash (poolKey url) % shards

/-- How many shards take part in striping, where `active` of them are in use. -/
def shardLimit (options : ShardingOptions) (shards active : UInt64) : UInt64 :=
  if options.autoShards then max 1 (min active shards) else shards

def preconnectTargets (options : ShardingOptions) (hash : Bytes → UInt64) (shards active : UInt64)
    (url : ParsedUrl) : List UInt64 :=
  if options.stripeOriginsAcrossShards then
    (List.range (shardLimit options shards active).toNat).map .ofNat
  else [pickShard hash shards url]

/-! ### The split -/

/-- What is left once each shard before the `i`-th is counted with one connection. -/
def remaining (count i : UInt64) : UInt64 := if count > i then count - i else 0

/-- What the `i`-th of `targets` shards aims at. -/
def targetCount (count targets i : UInt64) : UInt64 := (remaining count i + targets - 1) / targets

/-- The numbers that the loop over the targets computes. -/
def targetCounts (count : UInt64) (targets : List UInt64) : List UInt64 :=
  if count = 0 then []
  else (List.range targets.length).map fun i => targetCount count (.ofNat targets.length) (.ofNat i)

/-- The shards that are told to connect, and what each of them aims at. -/
def preconnect (options : ShardingOptions) (hash : Bytes → UInt64) (shards active : UInt64)
    (request : Request) (count : UInt64) : Except Bytes (List (UInt64 × UInt64)) := do
  if count = 0 then return []
  let url ← parseUrl request.url
  let targets := preconnectTargets options hash shards active url
  return (targets.zip (targetCounts count targets)).filter fun target => target.2 ≠ 0

/-! ### Exact arithmetic -/

/-- A sum of sizes that is in range. -/
def checkedAdd (a b : UInt64) : Option UInt64 :=
  if a.toNat + b.toNat < 2 ^ 64 then some (a + b) else none

/-- A difference of sizes that is not negative. -/
def checkedSub (a b : UInt64) : Option UInt64 := if b ≤ a then some (a - b) else none

def checkedRemaining (count i : UInt64) : Option UInt64 :=
  if count > i then checkedSub count i else some 0

/-- `targetCount`, if no step of it leaves the range. -/
def checkedTargetCount (count targets i : UInt64) : Option UInt64 := do
  let rest ← checkedRemaining count i
  let sum ← checkedAdd rest targets
  let rounded ← checkedSub sum 1
  return rounded / targets

theorem checkedAdd_eq {a b : UInt64} (h : a.toNat + b.toNat < 2 ^ 64) :
    checkedAdd a b = some (a + b) ∧ (a + b).toNat = a.toNat + b.toNat := by
  refine ⟨if_pos h, ?_⟩
  rw [UInt64.toNat_add, Nat.mod_eq_of_lt h]

theorem checkedSub_eq {a b : UInt64} (h : b ≤ a) :
    checkedSub a b = some (a - b) ∧ (a - b).toNat = a.toNat - b.toNat :=
  ⟨if_pos h, UInt64.toNat_sub_of_le _ _ h⟩

theorem remaining_eq (count i : UInt64) :
    checkedRemaining count i = some (remaining count i) ∧
      (remaining count i).toNat = count.toNat - i.toNat := by
  rw [checkedRemaining, remaining]
  split
  · rename_i hgt
    exact checkedSub_eq (UInt64.le_of_lt hgt)
  · rename_i hle
    have hcount : count.toNat ≤ i.toNat := UInt64.le_iff_toNat_le.mp (UInt64.not_lt.mp hle)
    exact ⟨rfl, (Nat.sub_eq_zero_of_le hcount).symm⟩

/-- No step overflows, and the number is an even share. -/
theorem targetCount_eq {count targets i : UInt64} (hi : i < targets)
    (h : count.toNat + targets.toNat < 2 ^ 64) :
    checkedTargetCount count targets i = some (targetCount count targets i) ∧
      (targetCount count targets i).toNat = evenShare count.toNat targets.toNat i.toNat := by
  obtain ⟨hremaining, hrest⟩ := remaining_eq count i
  have hpos : i.toNat < targets.toNat := UInt64.lt_iff_toNat_lt.mp hi
  obtain ⟨hadd, hsum⟩ :
      checkedAdd (remaining count i) targets = some (remaining count i + targets) ∧
      (remaining count i + targets).toNat = (remaining count i).toNat + targets.toNat :=
    checkedAdd_eq (by omega)
  -- there is a target, also where nothing remains
  have hone : 1 ≤ remaining count i + targets := by
    rw [UInt64.le_iff_toNat_le, hsum]
    show 1 ≤ _
    omega
  obtain ⟨hsub, hrounded⟩ := checkedSub_eq hone
  constructor
  · rw [checkedTargetCount, hremaining, Option.bind_eq_bind, Option.bind_some, hadd,
      Option.bind_some, hsub]
    rfl
  · rw [targetCount, UInt64.toNat_div, hrounded, hsum, hrest]
    exact div_eq_evenShare hpos count.toNat

/-! ### The whole split -/

theorem toNat_length {count : Nat} {targets : List UInt64} (h : count + targets.length < 2 ^ 64) :
    (UInt64.ofNat targets.length).toNat = targets.length :=
  UInt64.toNat_ofNat_of_lt' (Nat.lt_of_le_of_lt (Nat.le_add_left _ _) h)

/-- The numbers are the even shares. -/
theorem map_toNat_targetCounts {count : UInt64} {targets : List UInt64} (hcount : count ≠ 0)
    (h : count.toNat + targets.length < 2 ^ 64) :
    (targetCounts count targets).map UInt64.toNat =
      (List.range targets.length).map (evenShare count.toNat targets.length) := by
  have hlength := toNat_length h
  rw [targetCounts, if_neg hcount, List.map_map]
  apply List.map_congr_left
  intro i hi
  have hlt : i < targets.length := List.mem_range.mp hi
  have hindex : (UInt64.ofNat i).toNat = i :=
    UInt64.toNat_ofNat_of_lt' (hlt.trans (Nat.lt_of_le_of_lt (Nat.le_add_left _ _) h))
  have hless : UInt64.ofNat i < UInt64.ofNat targets.length := by
    rw [UInt64.lt_iff_toNat_lt, hindex, hlength]
    exact hlt
  have hrange : count.toNat + (UInt64.ofNat targets.length).toNat < 2 ^ 64 := by
    rw [hlength]
    exact h
  have hshare := (targetCount_eq hless hrange).2
  rw [hindex, hlength] at hshare
  exact hshare

theorem sum_targetCounts {count : UInt64} {targets : List UInt64} (hne : targets ≠ [])
    (h : count.toNat + targets.length < 2 ^ 64) :
    ((targetCounts count targets).map UInt64.toNat).sum = count.toNat := by
  by_cases hcount : count = 0
  · rw [targetCounts, if_pos hcount, hcount]
    rfl
  · rw [map_toNat_targetCounts hcount h]
    exact sum_evenShare (List.length_pos_iff.mpr hne) count.toNat

/-- The number is split exactly and evenly, and no step of the arithmetic leaves the range of
`std::size_t`. -/
theorem preconnect_splits {count : UInt64} {targets : List UInt64} (hne : targets ≠ [])
    (h : count.toNat + targets.length < 2 ^ 64) :
    ((targetCounts count targets).map UInt64.toNat).sum = count.toNat ∧
      (∀ x ∈ targetCounts count targets, ∀ y ∈ targetCounts count targets,
        x.toNat ≤ y.toNat + 1) ∧
      ∀ i < UInt64.ofNat targets.length,
        checkedTargetCount count (.ofNat targets.length) i =
          some (targetCount count (.ofNat targets.length) i) := by
  refine ⟨sum_targetCounts hne h, ?_, fun i hi => ?_⟩
  · intro x hx y hy
    by_cases hcount : count = 0
    · rw [targetCounts, if_pos hcount] at hx
      exact absurd hx List.not_mem_nil
    · -- both are even shares
      have hshare : ∀ z ∈ targetCounts count targets, ∃ i,
          evenShare count.toNat targets.length i = z.toNat := by
        intro z hz
        have hmem := List.mem_map_of_mem (f := UInt64.toNat) hz
        rw [map_toNat_targetCounts hcount h] at hmem
        obtain ⟨i, -, hi⟩ := List.mem_map.mp hmem
        exact ⟨i, hi⟩
      obtain ⟨i, hi⟩ := hshare x hx
      obtain ⟨j, hj⟩ := hshare y hy
      rw [← hi, ← hj]
      exact evenShare_le_succ _ _ i j
  · have hrange : count.toNat + (UInt64.ofNat targets.length).toNat < 2 ^ 64 := by
      rw [toNat_length h]
      exact h
    exact (targetCount_eq hi hrange).1

theorem preconnect_splits_three :
    ((targetCounts 7 [0, 1, 2]).map UInt64.toNat).sum = 7 ∧
      (∀ x ∈ targetCounts 7 [0, 1, 2], ∀ y ∈ targetCounts 7 [0, 1, 2], x.toNat ≤ y.toNat + 1) ∧
      ∀ i < 3, checkedTargetCount 7 3 i = some (targetCount 7 3 i) :=
  preconnect_splits (List.cons_ne_nil 0 [1, 2]) (by decide)

/-! ### The shards that are told -/

theorem toNat_max (a b : UInt64) : (max a b).toNat = max a.toNat b.toNat := by
  show (if a ≤ b then b else a).toNat = _
  split
  · rename_i hle
    rw [Nat.max_eq_right (UInt64.le_iff_toNat_le.mp hle)]
  · rename_i hgt
    rw [Nat.max_eq_left (Nat.le_of_not_le (mt UInt64.le_iff_toNat_le.mpr hgt))]

theorem toNat_min (a b : UInt64) : (min a b).toNat = min a.toNat b.toNat := by
  show (if a ≤ b then a else b).toNat = _
  split
  · rename_i hle
    rw [Nat.min_eq_left (UInt64.le_iff_toNat_le.mp hle)]
  · rename_i hgt
    rw [Nat.min_eq_right (Nat.le_of_not_le (mt UInt64.le_iff_toNat_le.mpr hgt))]

theorem shardLimit_range (options : ShardingOptions) {shards : UInt64} (hshards : 0 < shards)
    (active : UInt64) :
    0 < (shardLimit options shards active).toNat ∧
      (shardLimit options shards active).toNat ≤ shards.toNat := by
  have hpos : 0 < shards.toNat := UInt64.lt_iff_toNat_lt.mp hshards
  have hone : (1 : UInt64).toNat = 1 := rfl
  rw [shardLimit]
  split
  · rw [toNat_max, toNat_min, hone]
    omega
  · exact ⟨hpos, Nat.le_refl _⟩

/-- There is a target, and there are no more of them than shards. -/
theorem length_preconnectTargets (options : ShardingOptions) (hash : Bytes → UInt64)
    {shards : UInt64} (hshards : 0 < shards) (active : UInt64) (url : ParsedUrl) :
    0 < (preconnectTargets options hash shards active url).length ∧
      (preconnectTargets options hash shards active url).length ≤ shards.toNat := by
  rw [preconnectTargets]
  split
  · rw [List.length_map, List.length_range]
    exact shardLimit_range options hshards active
  · exact ⟨Nat.one_pos, UInt64.lt_iff_toNat_lt.mp hshards⟩

theorem sum_filter_nonzero (targets : List (UInt64 × UInt64)) :
    ((targets.filter fun target => target.2 ≠ 0).map fun target => target.2.toNat).sum =
      (targets.map fun target => target.2.toNat).sum := by
  induction targets with
  | nil => rfl
  | cons target targets ih =>
    by_cases hzero : target.2 = 0
    · rw [List.filter_cons_of_neg (by simpa using hzero), ih, List.map_cons, List.sum_cons, hzero]
      exact (Nat.zero_add _).symm
    · rw [List.filter_cons_of_pos (by simpa using hzero), List.map_cons, List.map_cons,
        List.sum_cons, List.sum_cons, ih]

/-- The shards that are told aim at the whole number. -/
theorem sum_preconnect {options : ShardingOptions} {hash : Bytes → UInt64}
    {shards active count : UInt64} {request : Request} {told : List (UInt64 × UInt64)}
    (hshards : 0 < shards) (hrange : count.toNat + shards.toNat < 2 ^ 64)
    (h : preconnect options hash shards active request count = .ok told) :
    (told.map fun target => target.2.toNat).sum = count.toNat := by
  rw [preconnect] at h
  split at h
  · rename_i hzero
    obtain rfl := Except.ok.inj h
    rw [hzero]
    rfl
  · cases hurl : parseUrl request.url with
    | error what =>
      rw [hurl] at h
      cases h
    | ok url =>
      rw [hurl] at h
      obtain rfl := Except.ok.inj h
      obtain ⟨hpos, hle⟩ := length_preconnectTargets options hash hshards active url
      set targets := preconnectTargets options hash shards active url
      have hcounts : (targetCounts count targets).length ≤ targets.length := by
        rw [targetCounts]
        split
        · exact Nat.zero_le _
        · rw [List.length_map, List.length_range]
      have hsum : ((targetCounts count targets).map UInt64.toNat).sum = count.toNat :=
        sum_targetCounts (List.length_pos_iff.mp hpos) (by omega)
      rw [sum_filter_nonzero, ← hsum]
      conv_rhs => rw [← List.map_snd_zip hcounts]
      rw [List.map_map]
      rfl

end HttpClient.H1
