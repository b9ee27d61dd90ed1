import Mathlib.Data.List.Nodup
import Mathlib.Tactic.SplitIfs

/-!
# Lists that are searched by a key

A table kept as a list, in which a search finds the first element with a key. An update or a
removal by key is of that element. As long as no two elements have one key it is of every
element with the key: then an update is a map and a removal is a filter.

## Main definitions

* `KeyedList.find`, `KeyedList.modify`, `KeyedList.remove` — the first element with a key
* `KeyedList.Distinct` — no two elements have one key

## Main results

* `Distinct.find_of_mem`, `Distinct.find_perm` — a search by the key of an element finds it,
  in any order
* `Distinct.modify_eq_map`, `Distinct.remove_eq_filter` — what an update and a removal are
* `perm_remove`, `perm_modify` — the element that is found, and the others
-/

set_option autoImplicit false

namespace HttpClient.Semantics.KeyedList

variable {α β κ : Type*} [DecidableEq κ] {key : α → κ} {k : κ} {f : α → α} {l : List α} {a b : α}

def find (key : α → κ) (k : κ) (l : List α) : Option α := l.find? fun a => decide (key a = k)

/-- Update the first element with a key. -/
def modify (key : α → κ) (k : κ) (f : α → α) : List α → List α
  | [] => []
  | a :: l => if key a = k then f a :: l else a :: modify key k f l

/-- Remove the first element with a key. -/
def remove (key : α → κ) (k : κ) (l : List α) : List α := l.eraseP fun a => decide (key a = k)

/-- No two elements have one key. -/
def Distinct (key : α → κ) (l : List α) : Prop := (l.map key).Nodup

theorem mem_of_find (hfind : find key k l = some a) : a ∈ l ∧ key a = k := by
  have hkey := List.find?_some hfind
  exact ⟨List.mem_of_find?_eq_some hfind, of_decide_eq_true hkey⟩

theorem find_map (key' : β → κ) {g : α → β} (hkey : ∀ a, key' (g a) = key a) :
    find key' k (l.map g) = (find key k l).map g := by
  rw [find, List.find?_map]
  congr 2
  funext a
  exact congrArg (fun k' => decide (k' = k)) (hkey a)

theorem map_key_modify (hf : ∀ a, key (f a) = key a) : (modify key k f l).map key = l.map key := by
  induction l with
  | nil => rfl
  | cons a l ih =>
    rw [modify]
    split_ifs
    · rw [List.map_cons, List.map_cons, hf]
    · rw [List.map_cons, List.map_cons, ih]

/-- What is removed need not be updated first. -/
theorem remove_modify (hf : ∀ a, key (f a) = key a) :
    remove key k (modify key k f l) = remove key k l := by
  induction l with
  | nil => rfl
  | cons a l ih =>
    rw [modify]
    by_cases hkey : key a = k
    · have hfa : key (f a) = k := (hf a).trans hkey
      rw [if_pos hkey, remove, remove, List.eraseP_cons_of_pos (by simpa using hfa),
        List.eraseP_cons_of_pos (by simpa using hkey)]
    · rw [if_neg hkey, remove, remove, List.eraseP_cons_of_neg (by simpa using hkey),
        List.eraseP_cons_of_neg (by simpa using hkey)]
      exact congrArg (List.cons a) ih

/-- An update that keeps the keys keeps them distinct. -/
theorem Distinct.modify (h : Distinct key l) (hf : ∀ a, key (f a) = key a) :
    Distinct key (modify key k f l) := by
  rw [Distinct, map_key_modify hf]
  exact h

theorem Distinct.remove (h : Distinct key l) : Distinct key (remove key k l) :=
  h.sublist (List.eraseP_sublist.map key)

omit [DecidableEq κ] in
theorem Distinct.filterMap {g : α → Option α} (h : Distinct key l)
    (hg : ∀ a b, g a = some b → key b = key a) : Distinct key (l.filterMap g) := by
  induction l with
  | nil => exact List.nodup_nil
  | cons a l ih =>
    obtain ⟨ha, hl⟩ := List.nodup_cons.mp h
    cases hga : g a with
    | none =>
      rw [List.filterMap_cons_none hga]
      exact ih hl
    | some b =>
      rw [List.filterMap_cons_some hga]
      refine List.nodup_cons.mpr ⟨fun hmem => ha ?_, ih hl⟩
      -- an element behind `b` comes from one behind `a` that has its key
      obtain ⟨c, hc, hkey⟩ := List.mem_map.mp hmem
      obtain ⟨d, hd, hgd⟩ := List.mem_filterMap.mp hc
      rw [← hg a b hga, ← hkey, hg d c hgd]
      exact List.mem_map_of_mem hd

omit [DecidableEq κ] in
theorem Distinct.concat (h : Distinct key l) (hfresh : ∀ b ∈ l, key b ≠ key a) :
    Distinct key (l ++ [a]) := by
  rw [Distinct, List.map_append]
  apply List.Nodup.append h (List.nodup_singleton _)
  intro k hk hka
  obtain ⟨b, hb, rfl⟩ := List.mem_map.mp hk
  exact hfresh b hb (List.mem_singleton.mp hka)

omit [DecidableEq κ] in
theorem Distinct.of_perm {l' : List α} (h : Distinct key l) (hperm : l'.Perm l) :
    Distinct key l' :=
  (hperm.map key).nodup_iff.mpr h

omit [DecidableEq κ] in
/-- Elements with one key are one element. -/
theorem Distinct.eq_of_key (h : Distinct key l) (ha : a ∈ l) (hb : b ∈ l) (hkey : key a = key b) :
    a = b :=
  List.inj_on_of_nodup_map h ha hb hkey

/-- A search by the key of an element finds it. -/
theorem Distinct.find_of_mem (h : Distinct key l) (ha : a ∈ l) : find key (key a) l = some a := by
  cases hfind : find key (key a) l with
  | none =>
    have hne := List.find?_eq_none.mp hfind a ha
    simp at hne
  | some b =>
    obtain ⟨hb, hkey⟩ := mem_of_find hfind
    rw [h.eq_of_key hb ha hkey]

theorem find_cons_self (hkey : key a = k) : find key k (a :: l) = some a := by
  rw [find, List.find?_cons_of_pos (by simpa using hkey)]

theorem find_cons_other (hkey : key a ≠ k) : find key k (a :: l) = find key k l := by
  rw [find, List.find?_cons_of_neg (by simpa using hkey)]
  rfl

theorem find_eq_none (hother : ∀ b ∈ l, key b ≠ k) : find key k l = none :=
  List.find?_eq_none.mpr fun b hb => by simpa using hother b hb

/-- The order of the elements makes no difference to a search. -/
theorem Distinct.find_perm {l' : List α} (h : Distinct key l) (hperm : l'.Perm l) :
    find key k l' = find key k l := by
  cases hfind : find key k l with
  | none =>
    refine find_eq_none fun b hb hkey => ?_
    have hne := List.find?_eq_none.mp hfind b (hperm.mem_iff.mp hb)
    simp [hkey] at hne
  | some a =>
    obtain ⟨ha, rfl⟩ := mem_of_find hfind
    exact (h.of_perm hperm).find_of_mem (hperm.mem_iff.mpr ha)

/-- The element that is found, and the others, which a removal leaves. -/
theorem perm_remove (hfind : find key k l = some a) : l.Perm (a :: remove key k l) := by
  induction l with
  | nil => exact absurd hfind (Option.some_ne_none a).symm
  | cons b l ih =>
    by_cases hkey : key b = k
    · rw [find_cons_self hkey, Option.some.injEq] at hfind
      subst hfind
      rw [remove, List.eraseP_cons_of_pos (by simpa using hkey)]
    · rw [find_cons_other hkey] at hfind
      rw [remove, List.eraseP_cons_of_neg (by simpa using hkey)]
      exact ((ih hfind).cons b).trans (.swap ..)

/-- An update changes the element that is found, and leaves the others. -/
theorem perm_modify (hfind : find key k l = some a) (f : α → α) :
    (modify key k f l).Perm (f a :: remove key k l) := by
  induction l with
  | nil => exact absurd hfind (Option.some_ne_none a).symm
  | cons b l ih =>
    by_cases hkey : key b = k
    · rw [find_cons_self hkey, Option.some.injEq] at hfind
      subst hfind
      rw [modify, if_pos hkey, remove, List.eraseP_cons_of_pos (by simpa using hkey)]
    · rw [find_cons_other hkey] at hfind
      rw [modify, if_neg hkey, remove, List.eraseP_cons_of_neg (by simpa using hkey)]
      exact ((ih hfind).cons b).trans (.swap ..)

theorem remove_eq_self (hfind : find key k l = none) : remove key k l = l :=
  List.eraseP_of_forall_not (List.find?_eq_none.mp hfind)

theorem modify_eq_self (hfind : find key k l = none) (f : α → α) : modify key k f l = l := by
  induction l with
  | nil => rfl
  | cons b l ih =>
    have hkey : key b ≠ k := fun hkey => by simp [find_cons_self hkey] at hfind
    rw [find_cons_other hkey] at hfind
    rw [modify, if_neg hkey, ih hfind]

/-- Leaving elements out leaves out what is found, or nothing. -/
theorem Distinct.find_filter (h : Distinct key l) (p : α → Bool) :
    find key k (l.filter p) = (find key k l).filter p := by
  induction l with
  | nil => rfl
  | cons a l ih =>
    obtain ⟨ha, hl⟩ := List.nodup_cons.mp h
    by_cases hkey : key a = k
    · have hother : ∀ b ∈ l, key b ≠ k := fun b hb hbk =>
        ha (hkey.trans hbk.symm ▸ List.mem_map_of_mem hb)
      rw [find_cons_self hkey]
      cases hp : p a with
      | true => rw [List.filter_cons_of_pos hp, find_cons_self hkey, Option.filter_some_pos hp]
      | false =>
        rw [List.filter_cons_of_neg (by simp [hp]), Option.filter_some_neg (by simp [hp]),
          find_eq_none fun b hb => hother b (List.mem_filter.mp hb).1]
    · rw [find_cons_other hkey, ← ih hl]
      cases hp : p a with
      | true => rw [List.filter_cons_of_pos hp, find_cons_other hkey]
      | false => rw [List.filter_cons_of_neg (by simp [hp])]

omit [DecidableEq κ] in
theorem Distinct.of_sublist {l' : List α} (h : Distinct key l) (hsub : l'.Sublist l) :
    Distinct key l' :=
  List.Nodup.sublist (hsub.map key) h

/-- An update is of every element with the key. -/
theorem Distinct.modify_eq_map (h : Distinct key l) :
    KeyedList.modify key k f l = l.map fun a => if key a = k then f a else a := by
  induction l with
  | nil => rfl
  | cons a l ih =>
    obtain ⟨ha, hl⟩ := List.nodup_cons.mp h
    rw [KeyedList.modify, List.map_cons]
    split_ifs with hkey
    · -- no element behind the one that is updated has the key
      have hother : ∀ b ∈ l, key b ≠ k := fun b hb hbk =>
        ha (hkey.trans hbk.symm ▸ List.mem_map_of_mem hb)
      rw [List.map_congr_left fun b hb => if_neg (hother b hb), List.map_id']
    · rw [ih hl]

/-- A removal is of every element with the key. -/
theorem Distinct.remove_eq_filter (h : Distinct key l) :
    KeyedList.remove key k l = l.filter fun a => decide (key a ≠ k) := by
  induction l with
  | nil => rfl
  | cons a l ih =>
    obtain ⟨ha, hl⟩ := List.nodup_cons.mp h
    by_cases hkey : key a = k
    · have hrest : l.filter (fun b => decide (key b ≠ k)) = l := by
        apply List.filter_eq_self.mpr
        intro b hb
        exact decide_eq_true fun hbk => ha (hkey.trans hbk.symm ▸ List.mem_map_of_mem hb)
      rw [KeyedList.remove, List.eraseP_cons_of_pos (by simpa using hkey),
        List.filter_cons_of_neg (by simpa using hkey), hrest]
    · rw [KeyedList.remove, List.eraseP_cons_of_neg (by simpa using hkey),
        List.filter_cons_of_pos (by simpa using hkey), ← ih hl]
      rfl

theorem Distinct.mem_modify_iff (h : Distinct key l) :
    b ∈ KeyedList.modify key k f l ↔ ∃ a ∈ l, (if key a = k then f a else a) = b := by
  rw [h.modify_eq_map, List.mem_map]

end HttpClient.Semantics.KeyedList
