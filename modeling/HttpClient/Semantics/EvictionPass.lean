import Mathlib.Data.List.Basic
import Mathlib.Data.List.Count
import Mathlib.Data.List.Nodup
import Mathlib.Tactic.Tauto

/-!
# Eviction passes

A pass goes once through the entries of a cache, the least recently used first. It removes
an entry that is idle when it comes to it if the entry has expired or the cache is over its
limit, and may stop at an entry that it leaves where the cache is within its limit.

What a pass removes depends on what it has removed before. If an entry can have expired only
when all that are used less recently have, this can be said without the pass: an entry is
removed if it is idle and either has expired or would find the cache over its limit once all
idle ones before it are gone, and the pass does not stop before it.

## Main definitions

* `Limit` — how many entries are too many
* `EvictionRule` — what a pass asks of an entry and of the number of entries left
* `EvictionRule.pass` — what a pass removes
* `EvictionRule.Due` — whether an entry is removed, said of the entries before it

## Main results

* `EvictionRule.of_pass_split` — what is removed is idle, and expired or over the limit
* `EvictionRule.mem_pass_iff` — exactly the entries that are due are removed
* `EvictionRule.idle_before_mem_pass` — no idle entry is left in favour of a removed one
* `EvictionRule.pass_of_within` — within the limit, what has expired is removed
* `EvictionRule.within_of_idle` — if all are idle, a pass goes on until the limit is kept
-/

set_option autoImplicit false

namespace HttpClient.Semantics

/-- Which numbers of entries are over the limit, and at which a pass may stop: only within
the limit. -/
structure Limit where
  exceeds : Nat → Bool
  stops : Nat → Bool
  within : ∀ n, stops n = true → exceeds n = false
  mono : ∀ n m, n ≤ m → exceeds n = true → exceeds m = true

/-- Fewer entries are within the limit if more are. -/
theorem Limit.within_of_le (limit : Limit) {n m : Nat} (hle : n ≤ m)
    (hm : limit.exceeds m = false) : limit.exceeds n = false := by
  by_contra hover
  rw [Bool.not_eq_false] at hover
  rw [limit.mono n m hle hover] at hm
  cases hm

/-- No more than `max` entries are to be left; a pass that is not `thorough` stops there. -/
def Limit.above (max : Nat) (thorough : Bool) : Limit where
  exceeds n := decide (max < n)
  stops n := !thorough && decide (n ≤ max)
  within n h := by simp_all
  mono n m hle h := decide_eq_true (Nat.lt_of_lt_of_le (of_decide_eq_true h) hle)

/-- Fewer than `max` entries are to be left. -/
def Limit.reached (max : Nat) : Limit where
  exceeds n := decide (max ≤ n)
  stops n := decide (n < max)
  within _ h := decide_eq_false (Nat.not_le_of_lt (of_decide_eq_true h))
  mono _ _ hle h := decide_eq_true (Nat.le_trans (of_decide_eq_true h) hle)

/-- How a pass decides. -/
structure EvictionRule (α : Type*) extends Limit where
  idle : α → Bool
  expired : α → Bool

namespace EvictionRule

variable {α : Type*} (rule : EvictionRule α)

/-- Whether an entry is removed when `n` entries are left. -/
def removes (n : Nat) (x : α) : Bool := rule.idle x && (rule.expired x || rule.exceeds n)

/-- What a pass through the entries `xs` removes, the least recently used first, with `n`
entries left. -/
def pass : Nat → List α → List α
  | _, [] => []
  | n, x :: xs =>
    if rule.removes n x then x :: pass (n - 1) xs
    else if rule.stops n then []
    else pass n xs

/-- Whether an entry that comes after the entries `before` is removed by a pass that starts
with `n` entries. All idle entries before it are gone by then. -/
structure Due (n : Nat) (before : List α) (x : α) : Prop where
  idle : rule.idle x = true
  removable : rule.expired x = true ∨ rule.exceeds (n - before.countP rule.idle) = true
  /-- The pass does not stop at an entry that is busy. -/
  reached : ∀ first y last, before = first ++ y :: last → rule.idle y = false →
    rule.stops (n - first.countP rule.idle) = false

variable {rule} {n : Nat} {x y : α} {xs before after : List α}

theorem removes_eq_true :
    rule.removes n x = true ↔
      rule.idle x = true ∧ (rule.expired x = true ∨ rule.exceeds n = true) := by
  simp [removes]

theorem pass_cons : rule.pass n (x :: xs) =
    if rule.removes n x then x :: rule.pass (n - 1) xs
    else if rule.stops n then []
    else rule.pass n xs := rfl

theorem pass_cons_of_removes (h : rule.removes n x = true) :
    rule.pass n (x :: xs) = x :: rule.pass (n - 1) xs := by
  rw [pass_cons, if_pos h]

theorem pass_cons_of_stops (h : rule.removes n x = false) (hstop : rule.stops n = true) :
    rule.pass n (x :: xs) = [] := by
  rw [pass_cons, if_neg (Bool.eq_false_iff.mp h), if_pos hstop]

theorem pass_cons_of_goes_on (h : rule.removes n x = false) (hstop : rule.stops n = false) :
    rule.pass n (x :: xs) = rule.pass n xs := by
  rw [pass_cons, if_neg (Bool.eq_false_iff.mp h), if_neg (Bool.eq_false_iff.mp hstop)]

theorem pass_sublist (n : Nat) (xs : List α) : (rule.pass n xs).Sublist xs := by
  induction xs generalizing n with
  | nil => exact List.Sublist.refl []
  | cons x xs ih =>
    by_cases hremoves : rule.removes n x = true
    · rw [pass_cons_of_removes hremoves]
      exact (ih (n - 1)).cons_cons x
    rw [Bool.not_eq_true] at hremoves
    by_cases hstop : rule.stops n = true
    · rw [pass_cons_of_stops hremoves hstop]
      exact List.nil_sublist _
    · rw [pass_cons_of_goes_on hremoves (Bool.eq_false_iff.mpr hstop)]
      exact (ih n).cons x

/-! ### What is removed -/

/-- When an entry is removed it is idle, and it has expired or the entries left by then are
more than the limit allows. -/
theorem of_pass_split {before after : List α}
    (h : rule.pass n xs = before ++ x :: after) :
    rule.idle x = true ∧ (rule.expired x = true ∨ rule.exceeds (n - before.length) = true) := by
  induction xs generalizing n before with
  | nil =>
    exact absurd h.symm (List.append_ne_nil_of_right_ne_nil before (List.cons_ne_nil x after))
  | cons z xs ih =>
    by_cases hremoves : rule.removes n z = true
    · rw [pass_cons_of_removes hremoves] at h
      cases before with
      | nil =>
        obtain ⟨rfl, -⟩ := List.cons.inj h
        exact removes_eq_true.mp hremoves
      | cons first before =>
        have hlater := ih (List.cons.inj h).2
        rwa [Nat.sub_sub, Nat.add_comm 1] at hlater
    rw [Bool.not_eq_true] at hremoves
    by_cases hstop : rule.stops n = true
    · rw [pass_cons_of_stops hremoves hstop] at h
      simp at h
    · rw [pass_cons_of_goes_on hremoves (Bool.eq_false_iff.mpr hstop)] at h
      exact ih h

/-- All entries before an expired one have expired. -/
def Orderly (rule : EvictionRule α) (xs : List α) : Prop :=
  xs.Pairwise fun x y => rule.expired y = true → rule.expired x = true

theorem Orderly.tail (h : rule.Orderly (x :: xs)) : rule.Orderly xs :=
  (List.pairwise_cons.mp h).2

theorem due_cons_of_idle (hidle : rule.idle y = true) :
    rule.Due n (y :: before) x ↔ rule.Due (n - 1) before x := by
  have hcount : ∀ zs : List α, n - (y :: zs).countP rule.idle = n - 1 - zs.countP rule.idle := by
    intro zs
    rw [List.countP_cons_of_pos hidle]
    omega
  constructor
  · intro h
    refine ⟨h.idle, hcount before ▸ h.removable, fun first z last hsplit hz => ?_⟩
    rw [← hcount first]
    exact h.reached (y :: first) z last (by rw [hsplit, List.cons_append]) hz
  · intro h
    refine ⟨h.idle, (hcount before).symm ▸ h.removable, fun first z last hsplit hz => ?_⟩
    cases first with
    | nil =>
      obtain ⟨rfl, -⟩ := List.cons.inj hsplit
      rw [hidle] at hz
      cases hz
    | cons w first =>
      obtain ⟨rfl, htail⟩ := List.cons.inj hsplit
      rw [hcount first]
      exact h.reached first z last htail hz

theorem due_cons_of_busy (hbusy : rule.idle y = false) :
    rule.Due n (y :: before) x ↔ rule.stops n = false ∧ rule.Due n before x := by
  have hcount : ∀ zs : List α, (y :: zs).countP rule.idle = zs.countP rule.idle := by
    intro zs
    rw [List.countP_cons_of_neg (by simp [hbusy])]
  constructor
  · intro h
    refine ⟨h.reached [] y before rfl hbusy, h.idle, hcount before ▸ h.removable, ?_⟩
    intro first z last hsplit hz
    rw [← hcount first]
    exact h.reached (y :: first) z last (by rw [hsplit, List.cons_append]) hz
  · rintro ⟨hgoes, h⟩
    refine ⟨h.idle, (hcount before).symm ▸ h.removable, fun first z last hsplit hz => ?_⟩
    cases first with
    | nil => exact hgoes
    | cons w first =>
      obtain ⟨rfl, htail⟩ := List.cons.inj hsplit
      rw [hcount first]
      exact h.reached first z last htail hz

/-- A pass that leaves an idle entry removes nothing after it. -/
theorem Orderly.not_due_of_kept (h : rule.Orderly (y :: xs)) (hx : x ∈ xs)
    (hkept : rule.removes n y = false) (hidle : rule.idle y = true) (before : List α) (m : Nat)
    (hm : m ≤ n) : ¬ rule.Due m before x := by
  intro hdue
  have hleft : ¬ (rule.expired y = true ∨ rule.exceeds n = true) := fun hor =>
    Bool.eq_false_iff.mp hkept (removes_eq_true.mpr ⟨hidle, hor⟩)
  rcases hdue.removable with hexpired | hover
  · exact hleft (.inl ((List.pairwise_cons.mp h).1 x hx hexpired))
  · exact hleft (.inr (rule.mono _ n (Nat.le_trans (Nat.sub_le _ _) hm) hover))

/-- Exactly the entries that are due are removed. -/
theorem mem_pass_iff (h : rule.Orderly (before ++ x :: after))
    (hnodup : (before ++ x :: after).Nodup) :
    x ∈ rule.pass n (before ++ x :: after) ↔ rule.Due n before x := by
  induction before generalizing n with
  | nil =>
    have hx : x ∉ after := (List.nodup_cons.mp hnodup).1
    have hlater : ∀ m, x ∉ rule.pass m after := fun m hmem =>
      hx ((pass_sublist m after).subset hmem)
    rw [List.nil_append]
    by_cases hremoves : rule.removes n x = true
    · rw [pass_cons_of_removes hremoves]
      obtain ⟨hidle, hor⟩ := removes_eq_true.mp hremoves
      exact iff_of_true List.mem_cons_self ⟨hidle, hor, by simp⟩
    · have hdue : ¬ rule.Due n [] x := fun hdue =>
        hremoves (removes_eq_true.mpr ⟨hdue.idle, hdue.removable⟩)
      rw [Bool.not_eq_true] at hremoves
      refine iff_of_false ?_ hdue
      by_cases hstop : rule.stops n = true
      · rw [pass_cons_of_stops hremoves hstop]
        exact List.not_mem_nil
      · rw [pass_cons_of_goes_on hremoves (Bool.eq_false_iff.mpr hstop)]
        exact hlater n
  | cons y before ih =>
    obtain ⟨hfirst, hrest⟩ := List.nodup_cons.mp hnodup
    have hxmem : x ∈ before ++ x :: after := List.mem_append_right _ List.mem_cons_self
    have hne : x ≠ y := fun heq => hfirst (heq ▸ hxmem)
    have hlater := fun m => ih (n := m) h.tail hrest
    rw [List.cons_append]
    by_cases hremoves : rule.removes n y = true
    · rw [pass_cons_of_removes hremoves, List.mem_cons, or_iff_right hne,
        due_cons_of_idle (removes_eq_true.mp hremoves).1]
      exact hlater (n - 1)
    rw [Bool.not_eq_true] at hremoves
    by_cases hidle : rule.idle y = true
    · -- An idle entry is left: the cache is within its limit and nothing later has expired.
      have hnever := h.not_due_of_kept hxmem hremoves hidle before
      rw [due_cons_of_idle hidle]
      refine iff_of_false ?_ (hnever (n - 1) (Nat.sub_le n 1))
      by_cases hstop : rule.stops n = true
      · rw [pass_cons_of_stops hremoves hstop]
        exact List.not_mem_nil
      · rw [pass_cons_of_goes_on hremoves (Bool.eq_false_iff.mpr hstop)]
        exact fun hmem => hnever n (Nat.le_refl n) ((hlater n).mp hmem)
    · rw [due_cons_of_busy (Bool.eq_false_iff.mpr hidle)]
      by_cases hstop : rule.stops n = true
      · rw [pass_cons_of_stops hremoves hstop, hstop]
        simp
      · rw [pass_cons_of_goes_on hremoves (Bool.eq_false_iff.mpr hstop),
          Bool.eq_false_iff.mpr hstop, eq_self_iff_true, true_and]
        exact hlater n

/-- An idle entry is due if one that comes after it is. -/
theorem Due.earlier {mid : List α} (hmid : rule.Orderly (y :: mid ++ [x]))
    (hdue : rule.Due n (before ++ y :: mid) x) (hidle : rule.idle y = true) :
    rule.Due n before y := by
  refine ⟨hidle, ?_, fun first z last hsplit hz => ?_⟩
  · rcases hdue.removable with hexpired | hover
    · exact .inl ((List.pairwise_cons.mp hmid).1 x (List.mem_append_right _ (by simp)) hexpired)
    · refine .inr (rule.mono _ _ ?_ hover)
      have hle : before.countP rule.idle ≤ (before ++ y :: mid).countP rule.idle := by
        rw [List.countP_append]
        exact Nat.le_add_right _ _
      omega
  · exact hdue.reached first z (last ++ y :: mid) (by rw [hsplit]; simp) hz

/-- No idle entry is left in favour of one that comes after it. -/
theorem idle_before_mem_pass (h : rule.Orderly xs) (hnodup : xs.Nodup) :
    xs.Pairwise fun y x => x ∈ rule.pass n xs → rule.idle y = true →
      y ∈ rule.pass n xs := by
  have hpair : ∀ front back, xs = front ++ back → back.Pairwise fun y x =>
      x ∈ rule.pass n xs → rule.idle y = true → y ∈ rule.pass n xs := by
    intro front back hsplit
    induction back generalizing front with
    | nil => exact .nil
    | cons y back ih =>
      refine List.pairwise_cons.mpr ⟨fun x hx hremoved hidle => ?_, ih (front ++ [y]) ?_⟩
      · obtain ⟨mid, last, rfl⟩ := List.append_of_mem hx
        have hx' : xs = (front ++ y :: mid) ++ x :: last := by rw [hsplit]; simp
        subst hx'
        have hdue := (mem_pass_iff h hnodup).mp hremoved
        rw [List.append_assoc, List.cons_append] at h hnodup ⊢
        apply (mem_pass_iff h hnodup).mpr
        refine hdue.earlier ?_ hidle
        refine List.Pairwise.sublist ?_ (List.pairwise_append.mp h).2.1
        exact List.Sublist.cons_cons y (List.Sublist.append_left (by simp) mid)
      · rw [hsplit, List.append_assoc, List.singleton_append]
  exact hpair [] xs rfl

/-! ### How many are left -/

/-- Within the limit, and if every entry is idle, a pass removes what has expired. -/
theorem pass_of_within (h : rule.Orderly xs) (hidle : ∀ x ∈ xs, rule.idle x = true)
    (hn : rule.exceeds n = false) : rule.pass n xs = xs.filter rule.expired := by
  induction xs generalizing n with
  | nil => rfl
  | cons x xs ih =>
    have hrest : ∀ m, rule.exceeds m = false → rule.pass m xs = xs.filter rule.expired :=
      fun m hm => ih h.tail (fun y hy => hidle y (List.mem_cons_of_mem x hy)) hm
    have hremoves : rule.removes n x = rule.expired x := by
      rw [removes, hidle x List.mem_cons_self, hn, Bool.true_and, Bool.or_false]
    by_cases hexpired : rule.expired x = true
    · rw [pass_cons_of_removes (hremoves.trans hexpired), List.filter_cons_of_pos hexpired,
        hrest _ (rule.within_of_le (Nat.sub_le n 1) hn)]
    · -- Nothing that comes after an entry that has not expired has.
      have hnone : xs.filter rule.expired = [] := List.filter_eq_nil_iff.mpr fun y hy hyexpired =>
        hexpired ((List.pairwise_cons.mp h).1 y hy hyexpired)
      have hfalse : rule.removes n x = false := hremoves.trans (Bool.eq_false_iff.mpr hexpired)
      rw [List.filter_cons_of_neg hexpired, hnone]
      by_cases hstop : rule.stops n = true
      · rw [pass_cons_of_stops hfalse hstop]
      · rw [pass_cons_of_goes_on hfalse (Bool.eq_false_iff.mpr hstop), hrest n hn, hnone]

/-- If every entry is idle, a pass removes entries until the cache is within its limit. -/
theorem within_of_idle (hidle : ∀ x ∈ xs, rule.idle x = true)
    (hend : rule.exceeds (n - xs.length) = false) :
    rule.exceeds (n - (rule.pass n xs).length) = false := by
  induction xs generalizing n with
  | nil => exact hend
  | cons x xs ih =>
    by_cases hremoves : rule.removes n x = true
    · rw [pass_cons_of_removes hremoves, List.length_cons, Nat.add_comm, ← Nat.sub_sub]
      apply ih (fun y hy => hidle y (List.mem_cons_of_mem x hy))
      rwa [Nat.sub_sub, Nat.add_comm]
    · -- An idle entry is left only where the cache is within its limit.
      have hn : rule.exceeds n = false := by
        by_contra hover
        rw [Bool.not_eq_false] at hover
        exact hremoves (removes_eq_true.mpr ⟨hidle x List.mem_cons_self, .inr hover⟩)
      exact rule.within_of_le (Nat.sub_le n _) hn

end EvictionRule

end HttpClient.Semantics
