import Mathlib.Data.List.Nodup
import Mathlib.Data.List.Perm.Subperm
import Mathlib.Data.List.Range
import Mathlib.Data.Nat.ModEq

/-!
# Going round a ring

The indices below `n` can be visited from any start, going on from the last to the first. Each is
visited once.

A counter that wraps at `m` and is taken modulo `n` goes round the ring too, but jumps where it
wraps, unless `n` divides `m`.

A search for the element with the most of something can end early, at the first element that has
enough.

## Main definitions

* `ring` — the indices in the order of the visit
* `scanMost` — the search

## Main results

* `ring_perm` — each index is visited once
* `wrapping_perm_iff` — when a counter that wraps visits each index once
* `scanMost_eq_find` — the search ends at the first element that has enough
* `most_of_scanMost` — if none has enough, it finds one that has the most
-/

set_option autoImplicit false

namespace HttpClient.Semantics

/-! ### The order of the visit -/

/-- The indices below `n` from `start` on. -/
def ring (start n : Nat) : List Nat := (List.range n).map fun offset => (start + offset) % n

theorem mem_ring {start n i : Nat} (h : i ∈ ring start n) : i < n := by
  obtain ⟨offset, hoffset, rfl⟩ := List.mem_map.mp h
  exact Nat.mod_lt _ (Nat.zero_lt_of_lt (List.mem_range.mp hoffset))

theorem nodup_ring (start n : Nat) : (ring start n).Nodup := by
  refine List.Nodup.map_on (fun i hi j hj heq => ?_) List.nodup_range
  rw [List.mem_range] at hi hj
  -- two offsets below `n` with the same remainder are equal
  have hmod : Nat.ModEq n i j := Nat.ModEq.add_left_cancel' start heq
  exact Nat.ModEq.eq_of_lt_of_lt hmod hi hj

theorem ring_perm (start n : Nat) : (ring start n).Perm (List.range n) := by
  refine List.Subperm.perm_of_length_le ?_ (by simp [ring])
  exact (List.subperm_of_subset (nodup_ring start n)) fun i hi => List.mem_range.mpr (mem_ring hi)

theorem mem_ring_iff {start n i : Nat} : i ∈ ring start n ↔ i < n := by
  rw [(ring_perm start n).mem_iff, List.mem_range]

/-! ### Counters that wrap -/

section Wrap

variable {m n v : Nat}

/-- A jump comes back to an index that has been visited. -/
theorem exists_collision (hv : v < m) (hwrap : m < v + n) (hdvd : ¬ n ∣ m) :
    ∃ i < n, ∃ j < n, i ≠ j ∧ (v + i) % m % n = (v + j) % m % n := by
  have hn : 0 < n := by omega
  have hc : 0 < m % n := Nat.pos_of_ne_zero fun h => hdvd (Nat.dvd_of_mod_eq_zero h)
  have hmod : n * (m / n) + m % n = m := Nat.div_add_mod m n
  have hlt : m % n < n := Nat.mod_lt m hn
  -- after the wrap the counter visits `0, 1, ..`; before it, down from `m % n - 1`
  set r := min (m % n - 1) (v + n - m - 1) with hr
  have hr₁ : r ≤ m % n - 1 := Nat.min_le_left ..
  have hr₂ : r ≤ v + n - m - 1 := Nat.min_le_right ..
  have hr₃ : m % n - 1 ≤ r ∨ v + n - m - 1 ≤ r := by omega
  refine ⟨m - v - (m % n - r), by omega, m - v + r, by omega, by omega, ?_⟩
  have hbefore : v + (m - v - (m % n - r)) = n * (m / n) + r := by omega
  have hbelow : n * (m / n) + r < m := by omega
  have hafter : v + (m - v + r) = m + r := by omega
  rw [hbefore, hafter, Nat.mod_eq_of_lt hbelow, Nat.mul_add_mod, Nat.add_mod_left,
    Nat.mod_eq_of_lt (by omega : r < m)]

/-- The counter visits each index once in a window of `n`, if and only if it does not wrap there
or `n` divides the number at which it does. -/
theorem wrapping_perm_iff (hv : v < m) :
    ((List.range n).map fun i => (v + i) % m % n).Perm (List.range n) ↔ v + n ≤ m ∨ n ∣ m := by
  constructor
  · intro hperm
    by_contra hnot
    rw [not_or, Nat.not_le] at hnot
    obtain ⟨i, hi, j, hj, hne, heq⟩ := exists_collision hv hnot.1 hnot.2
    have hnodup := hperm.nodup_iff.mpr List.nodup_range
    exact hne (List.inj_on_of_nodup_map hnodup (List.mem_range.mpr hi) (List.mem_range.mpr hj) heq)
  · intro h
    have hring : (List.range n).map (fun i => (v + i) % m % n) = ring v n := by
      refine List.map_congr_left fun i hi => ?_
      rw [List.mem_range] at hi
      rcases h with hle | hdvd
      · rw [Nat.mod_eq_of_lt (by omega : v + i < m)]
      · exact Nat.mod_mod_of_dvd _ hdvd
    rw [hring]
    exact ring_perm v n

end Wrap

/-! ### The search -/

section Scan

variable {α : Type*} {f : α → Nat} {enough : Nat} {best : Option α} {a b : α} {l : List α}

/-- The element with the most, of those that have any, or the first that has enough. -/
def scanMost (f : α → Nat) (enough : Nat) : Option α → List α → Option α
  | best, [] => best
  | best, a :: l =>
    if best.elim 0 f < f a then
      if enough ≤ f a then some a else scanMost f enough (some a) l
    else scanMost f enough best l

theorem scanMost_nil : scanMost f enough best [] = best := rfl

theorem scanMost_cons : scanMost f enough best (b :: l) =
    if best.elim 0 f < f b then
      if enough ≤ f b then some b else scanMost f enough (some b) l
    else scanMost f enough best l := rfl

/-- The search finds something that is as good as what it starts with. -/
theorem le_of_scanMost (h : scanMost f enough best l = some a) : best.elim 0 f ≤ f a := by
  induction l generalizing best with
  | nil => rw [scanMost_nil] at h; rw [h, Option.elim_some]
  | cons b l ih =>
    rw [scanMost_cons] at h
    split_ifs at h with hmore henough
    · obtain rfl := Option.some.inj h
      exact hmore.le
    · exact hmore.le.trans (ih h)
    · exact ih h

theorem mem_of_scanMost (h : scanMost f enough none l = some a) : a ∈ l ∧ 0 < f a := by
  have hmem : ∀ {best : Option α} {l : List α}, scanMost f enough best l = some a →
      best = some a ∨ a ∈ l ∧ 0 < f a := by
    intro best l h
    induction l generalizing best with
    | nil => exact .inl h
    | cons b l ih =>
      rw [scanMost_cons] at h
      split_ifs at h with hmore henough
      · obtain rfl := Option.some.inj h
        exact .inr ⟨List.mem_cons_self, Nat.zero_lt_of_lt hmore⟩
      · rcases ih h with hb | ⟨hl, hpos⟩
        · obtain rfl := Option.some.inj hb
          exact .inr ⟨List.mem_cons_self, Nat.zero_lt_of_lt hmore⟩
        · exact .inr ⟨List.mem_cons_of_mem b hl, hpos⟩
      · exact (ih h).imp_right fun hl => ⟨List.mem_cons_of_mem b hl.1, hl.2⟩
  exact (hmem h).resolve_left (by simp)

/-- A search that starts with something finds something. -/
theorem scanMost_some_ne_none : scanMost f enough (some b) l ≠ none := by
  induction l generalizing b with
  | nil => exact Option.some_ne_none b
  | cons c l ih =>
    rw [scanMost_cons]
    split_ifs
    · exact Option.some_ne_none c
    · exact ih
    · exact ih

/-- The search finds nothing if nothing has any. -/
theorem scanMost_eq_none_iff : scanMost f enough none l = none ↔ ∀ a ∈ l, f a = 0 := by
  induction l with
  | nil => simp [scanMost_nil]
  | cons b l ih =>
    rw [scanMost_cons, List.forall_mem_cons, Option.elim_none]
    by_cases hb : 0 < f b
    · rw [if_pos hb]
      refine iff_of_false (fun h => ?_) fun h => hb.ne' h.1
      split_ifs at h with henough
      exact scanMost_some_ne_none h
    · rw [if_neg hb, ih, and_iff_right (Nat.eq_zero_of_not_pos hb)]

/-- The search ends at the first element that has enough. -/
theorem scanMost_eq_find (hbest : ∀ a, best = some a → f a < enough)
    (h : ∃ a ∈ l, 0 < f a ∧ enough ≤ f a) :
    scanMost f enough best l = l.find? fun a => decide (0 < f a ∧ enough ≤ f a) := by
  induction l generalizing best with
  | nil =>
    obtain ⟨a, ha, -⟩ := h
    cases ha
  | cons b l ih =>
    rw [scanMost_cons]
    by_cases hb : 0 < f b ∧ enough ≤ f b
    · have hmore : best.elim 0 f < f b := by
        cases best with
        | none => exact hb.1
        | some a => exact (hbest a rfl).trans_le hb.2
      rw [if_pos hmore, if_pos hb.2, List.find?_cons_of_pos (by simpa using hb)]
    · have hrest : ∃ a ∈ l, 0 < f a ∧ enough ≤ f a := by
        obtain ⟨a, ha, hroomy⟩ := h
        rcases List.mem_cons.mp ha with rfl | hl
        · exact absurd hroomy hb
        · exact ⟨a, hl, hroomy⟩
      rw [List.find?_cons_of_neg (by simpa using hb)]
      split_ifs with hmore henough
      · exact absurd ⟨Nat.zero_lt_of_lt hmore, henough⟩ hb
      · refine ih (fun a ha => ?_) hrest
        obtain rfl := Option.some.inj ha
        exact Nat.lt_of_not_le henough
      · exact ih hbest hrest

/-- What the search finds has enough, or nothing has more. -/
theorem most_of_scanMost (h : scanMost f enough best l = some a) :
    enough ≤ f a ∨ ∀ b ∈ l, f b ≤ f a := by
  induction l generalizing best with
  | nil => exact .inr (by simp)
  | cons b l ih =>
    have hle : best.elim 0 f ≤ f a := le_of_scanMost h
    rw [scanMost_cons] at h
    split_ifs at h with hmore henough
    · obtain rfl := Option.some.inj h
      exact .inl henough
    · have hb : f b ≤ f a := le_of_scanMost h
      exact (ih h).imp_right fun hl => List.forall_mem_cons.mpr ⟨hb, hl⟩
    · have hb : f b ≤ f a := (Nat.le_of_not_lt hmore).trans hle
      exact (ih h).imp_right fun hl => List.forall_mem_cons.mpr ⟨hb, hl⟩

end Scan

end HttpClient.Semantics
