import Mathlib.Data.List.Nodup
import Mathlib.Logic.Function.Basic

/-!
# Lists that enumerate a set

A list enumerates a predicate if what satisfies the predicate is in the list once, and nothing
else is in it. The order of such a list is of no account. An element may therefore be removed by
giving its place to the last one, without moving those in between.

A ledger has a value for some keys. A list that enumerates the records of the ledger is an index
of it: a search by a key yields the value, and the list is kept up to date by adding and removing
one record at a time.

## Main definitions

* `Enumerates` — a list has what satisfies a predicate, each once
* `swapErase` — remove the first element of a kind, whose place the last one takes
* `IsRecord` — what is recorded of a ledger

## Main results

* `enumerates_cons_iff` — one element, and the others
* `perm_swapErase` — what is removed, and what is left
* `Enumerates.find?_eq_some` — a search for the only element of its kind finds it
* `Enumerates.find?_record`, `Enumerates.concat_record`, `Enumerates.tail_record` — an index
-/

set_option autoImplicit false

namespace HttpClient.Semantics

variable {α : Type*} {P Q : α → Prop} {p : α → Bool} {l l' : List α} {a : α}

/-- What satisfies `P` is in the list once, and nothing else is in it. -/
structure Enumerates (l : List α) (P : α → Prop) : Prop where
  nodup : l.Nodup
  mem_iff : ∀ a, a ∈ l ↔ P a

namespace Enumerates

theorem nil (h : ∀ a, ¬ P a) : Enumerates [] P where
  nodup := List.nodup_nil
  mem_iff a := iff_of_false List.not_mem_nil (h a)

theorem congr (h : Enumerates l P) (hiff : ∀ a, P a ↔ Q a) : Enumerates l Q where
  nodup := h.nodup
  mem_iff a := (h.mem_iff a).trans (hiff a)

theorem of_perm (h : Enumerates l P) (hperm : l.Perm l') : Enumerates l' P where
  nodup := hperm.nodup h.nodup
  mem_iff a := hperm.mem_iff.symm.trans (h.mem_iff a)

end Enumerates

/-- One element, and the others. -/
theorem enumerates_cons_iff :
    Enumerates (a :: l) P ↔ P a ∧ Enumerates l (fun b => P b ∧ b ≠ a) := by
  constructor
  · rintro ⟨hnodup, hmem⟩
    obtain ⟨ha, hl⟩ := List.nodup_cons.mp hnodup
    refine ⟨(hmem a).mp List.mem_cons_self, hl, fun b => ?_⟩
    constructor
    · exact fun hb => ⟨(hmem b).mp (List.mem_cons_of_mem a hb), fun hba => ha (hba ▸ hb)⟩
    · rintro ⟨hPb, hne⟩
      exact (List.mem_cons.mp ((hmem b).mpr hPb)).resolve_left hne
  · rintro ⟨ha, hnodup, hmem⟩
    refine ⟨List.nodup_cons.mpr ⟨fun hl => ((hmem a).mp hl).2 rfl, hnodup⟩, fun b => ?_⟩
    rw [List.mem_cons, hmem]
    by_cases hba : b = a
    · exact iff_of_true (Or.inl hba) (hba ▸ ha)
    · exact ⟨fun h => (h.resolve_left hba).1, fun hb => Or.inr ⟨hb, hba⟩⟩

namespace Enumerates

/-- A new element is added. -/
theorem cons (h : Enumerates l P) (hnew : ¬ P a) :
    Enumerates (a :: l) (fun b => b = a ∨ P b) := by
  refine enumerates_cons_iff.mpr ⟨Or.inl rfl, h.congr fun b => ?_⟩
  constructor
  · exact fun hb => ⟨Or.inr hb, fun hba => hnew (hba ▸ hb)⟩
  · exact fun hb => hb.1.resolve_left hb.2

theorem concat (h : Enumerates l P) (hnew : ¬ P a) :
    Enumerates (l ++ [a]) (fun b => b = a ∨ P b) :=
  (h.cons hnew).of_perm (List.perm_append_singleton a l).symm

/-- A search for the only element of its kind finds it. -/
theorem find?_eq_some (h : Enumerates l P) (ha : P a) (hp : p a = true)
    (honly : ∀ b, P b → p b = true → b = a) : l.find? p = some a := by
  cases hfind : l.find? p with
  | none => exact absurd hp (List.find?_eq_none.mp hfind a ((h.mem_iff a).mpr ha))
  | some b =>
    have hPb : P b := (h.mem_iff b).mp (List.mem_of_find?_eq_some hfind)
    rw [honly b hPb (List.find?_some hfind)]

theorem find?_eq_none (h : Enumerates l P) (hnone : ∀ b, P b → ¬ p b = true) :
    l.find? p = none :=
  List.find?_eq_none.mpr fun b hb => hnone b ((h.mem_iff b).mp hb)

end Enumerates

/-! ### Removal -/

/-- Remove the first element that satisfies `p`. The last element takes its place. -/
def swapErase (p : α → Bool) (l : List α) : List α :=
  match l.findIdx? p, l.getLast? with
  | some i, some back => (l.set i back).dropLast
  | _, _ => l

/-- What is removed, and what is left. -/
theorem perm_swapErase (h : l.find? p = some a) : l.Perm (a :: swapErase p l) := by
  obtain ⟨hpa, before, after, rfl, hbefore⟩ := List.find?_eq_some_iff_append.mp h
  have hfirst : before.findIdx? p = none :=
    List.findIdx?_eq_none_iff.mpr fun b hb => by simpa using hbefore b hb
  have hidx : (before ++ a :: after).findIdx? p = some before.length := by
    rw [List.findIdx?_append, hfirst, List.findIdx?_cons, hpa, Option.none_or]
    simp
  have hset : ∀ back, (before ++ a :: after).set before.length back = before ++ back :: after := by
    intro back
    rw [List.set_append_right _ _ (Nat.le_refl _), Nat.sub_self, List.set_cons_zero]
  rw [swapErase, hidx]
  rcases List.eq_nil_or_concat after with rfl | ⟨middle, back, rfl⟩
  · -- the element is the last one
    rw [List.getLast?_concat]
    dsimp only
    rw [hset, List.dropLast_concat]
    exact List.perm_append_singleton a before
  · simp only [List.concat_eq_append] at hset ⊢
    have hlast : (before ++ a :: (middle ++ [back])).getLast? = some back := by
      rw [← List.cons_append, ← List.append_assoc, List.getLast?_concat]
    have hdrop : (before ++ back :: (middle ++ [back])).dropLast = before ++ back :: middle := by
      rw [← List.cons_append, ← List.append_assoc, List.dropLast_concat]
    have hmove : (middle ++ [back]).Perm (back :: middle) := List.perm_append_singleton back middle
    rw [hlast]
    dsimp only
    rw [hset, hdrop]
    exact List.perm_middle.trans ((hmove.append_left before).cons a)

theorem Enumerates.swapErase (h : Enumerates l P) (hfind : l.find? p = some a) :
    Enumerates (Semantics.swapErase p l) (fun b => P b ∧ b ≠ a) :=
  (enumerates_cons_iff.mp (h.of_perm (perm_swapErase hfind))).2

/-! ### Records of a ledger -/

section Records

variable {κ ν : Type*} [DecidableEq κ] {key : α → κ} {record : κ → ν → α} {ledger : κ → Option ν}
  {k : κ} {v : ν}

/-- The element is what is recorded for its key. -/
def IsRecord (key : α → κ) (record : κ → ν → α) (ledger : κ → Option ν) (a : α) : Prop :=
  (ledger (key a)).map (record (key a)) = some a

omit [DecidableEq κ] in
theorem isRecord_iff : IsRecord key record ledger a ↔
    ∃ v, ledger (key a) = some v ∧ record (key a) v = a :=
  Option.map_eq_some_iff

omit [DecidableEq κ] in
theorem IsRecord.ne_none (h : IsRecord key record ledger a) : ledger (key a) ≠ none := by
  obtain ⟨v, hv, -⟩ := isRecord_iff.mp h
  exact hv ▸ Option.some_ne_none v

theorem isRecord_update_of_ne {o : Option ν} (h : key a ≠ k) :
    IsRecord key record (Function.update ledger k o) a ↔ IsRecord key record ledger a := by
  rw [IsRecord, Function.update_of_ne h, IsRecord]

theorem isRecord_update_self {o : Option ν} (h : key a = k) :
    IsRecord key record (Function.update ledger k o) a ↔ o.map (record k) = some a := by
  rw [IsRecord, h, Function.update_self]

namespace Enumerates

/-- A search by a key finds its record. -/
theorem find?_record (h : Enumerates l (IsRecord key record ledger))
    (hkey : ∀ k v, key (record k v) = k) (k : κ) :
    l.find? (fun a => decide (key a = k)) = (ledger k).map (record k) := by
  cases hk : ledger k with
  | none =>
    refine h.find?_eq_none fun a ha hak => ?_
    obtain rfl := of_decide_eq_true hak
    exact ha.ne_none hk
  | some v =>
    refine h.find?_eq_some ?_ (decide_eq_true (hkey k v)) fun a ha hak => ?_
    · rw [IsRecord, hkey, hk, Option.map_some]
    · obtain rfl := of_decide_eq_true hak
      rw [IsRecord, hk, Option.map_some] at ha
      exact (Option.some.inj ha).symm

/-- A value is entered. -/
theorem concat_record (h : Enumerates l (IsRecord key record ledger))
    (hkey : ∀ k v, key (record k v) = k) (hnone : ledger k = none) (v : ν) :
    Enumerates (l ++ [record k v]) (IsRecord key record (Function.update ledger k (some v))) := by
  have hno : ∀ a, key a = k → ¬ IsRecord key record ledger a :=
    fun a hak ha => ha.ne_none (hak ▸ hnone)
  refine (h.concat (hno _ (hkey k v))).congr fun a => ?_
  by_cases hak : key a = k
  · rw [isRecord_update_self hak, or_iff_left (hno a hak), Option.map_some, Option.some.injEq]
    exact eq_comm
  · rw [isRecord_update_of_ne hak]
    exact or_iff_right fun heq => hak (heq ▸ hkey k v)

/-- A value is struck out. -/
theorem tail_record (h : Enumerates (record k v :: l) (IsRecord key record ledger))
    (hkey : ∀ k v, key (record k v) = k) :
    Enumerates l (IsRecord key record (Function.update ledger k none)) := by
  obtain ⟨hfirst, hrest⟩ := enumerates_cons_iff.mp h
  rw [IsRecord, hkey] at hfirst
  refine hrest.congr fun a => ?_
  by_cases hak : key a = k
  · subst hak
    refine iff_of_false (fun ha => ha.2 ?_) fun ha => ha.ne_none (Function.update_self ..)
    exact Option.some.inj (ha.1.symm.trans hfirst)
  · rw [isRecord_update_of_ne hak]
    exact and_iff_left fun heq => hak (heq ▸ hkey k v)

end Enumerates

end Records

end HttpClient.Semantics
