import Mathlib.Algebra.GroupWithZero.Nat
import Mathlib.Tactic.SplitIfs

/-!
# Even splits

A number of things is split among some parties as evenly as possible: everyone gets the quotient,
and the first ones get one of the things that are left over.

If the parties are served one after another and each of those before is counted with one thing,
the share of a party is the rounded-up part of the rest.

## Main results

* `sum_evenShare` — nothing is lost
* `evenShare_le_succ` — shares differ by one at most
* `div_eq_evenShare` — the share as a rounded-up quotient
-/

set_option autoImplicit false

namespace HttpClient.Semantics

/-- What the `i`-th of `n` parties gets of `m` things. -/
def evenShare (m n i : Nat) : Nat := m / n + if i < m % n then 1 else 0

theorem evenShare_le_succ (m n i j : Nat) : evenShare m n i ≤ evenShare m n j + 1 := by
  rw [evenShare, evenShare]
  split_ifs <;> omega

/-- What the first `k` parties get. -/
theorem sum_evenShare_range (m n k : Nat) :
    ((List.range k).map (evenShare m n)).sum = k * (m / n) + min k (m % n) := by
  induction k with
  | zero => simp
  | succ k ih =>
    rw [List.range_succ, List.map_append, List.sum_append, ih, List.map_singleton,
      List.sum_singleton, evenShare, Nat.succ_mul]
    split_ifs <;> omega

theorem sum_evenShare {n : Nat} (hn : 0 < n) (m : Nat) :
    ((List.range n).map (evenShare m n)).sum = m := by
  have hrest : m % n < n := Nat.mod_lt m hn
  rw [sum_evenShare_range, Nat.min_eq_right (Nat.le_of_lt hrest), Nat.div_add_mod]

theorem div_eq_evenShare {n i : Nat} (hi : i < n) (m : Nat) :
    (m - i + n - 1) / n = evenShare m n i := by
  have hn : 0 < n := Nat.zero_lt_of_lt hi
  have hrest : m % n < n := Nat.mod_lt m hn
  have hm : n * (m / n) + m % n = m := Nat.div_add_mod m n
  -- the numerator reaches the next multiple of `n` for the first `m % n` parties only
  rw [evenShare]
  apply Nat.div_eq_of_lt_le
  · rw [Nat.add_mul, Nat.mul_comm (m / n)]
    split_ifs <;> omega
  · rw [Nat.succ_mul, Nat.add_mul, Nat.mul_comm (m / n)]
    split_ifs <;> omega

end HttpClient.Semantics
