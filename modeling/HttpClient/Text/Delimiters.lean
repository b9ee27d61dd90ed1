import HttpClient.Text.Encodings

/-!
# Texts around a delimiter

A parser cuts a text where a delimiter occurs first, or last. In a text that is put
together from parts these places are known as soon as the parts on one side do not
contain the delimiter.

## Main definitions

* `upTo`, `onward` — a text up to the first occurrence of a byte, and from there on
* `throughLast`, `afterLast` — a text through the last occurrence, and what is left

## Main results

* `upTo_append_cons`, `onward_append_cons` — the first occurrence stands between two parts
* `findByte_cases` — `findByte` cuts a text into these two
* `rfindByte_append_cons`, `rfindByte_cases` — the last occurrence
* `throughLast_append` — it stands in the second part if there is one
* `find_append` — a search skips a part without the first byte of the pattern
-/

set_option autoImplicit false

namespace HttpClient.Text

/-- The text before the first `b`. -/
def upTo (b : UInt8) (t : Bytes) : Bytes := t.takeWhile (· != b)

/-- The text from the first `b` on. -/
def onward (b : UInt8) (t : Bytes) : Bytes := t.dropWhile (· != b)

/-- The text through the last `b`. -/
def throughLast (b : UInt8) (t : Bytes) : Bytes := (onward b t.reverse).reverse

/-- The text after the last `b`. -/
def afterLast (b : UInt8) (t : Bytes) : Bytes := (upTo b t.reverse).reverse

variable {b : UInt8} {t x y : Bytes}

/-! ### The first occurrence -/

@[simp] theorem upTo_append_onward (b : UInt8) (t : Bytes) : upTo b t ++ onward b t = t :=
  List.takeWhile_append_dropWhile

theorem not_mem_upTo (b : UInt8) (t : Bytes) : b ∉ upTo b t := by
  intro hmem
  have hall : (t.takeWhile (· != b)).all (· != b) = true := List.all_takeWhile
  exact bne_iff_ne.mp (List.all_eq_true.mp hall b hmem) rfl

theorem all_ne (h : b ∉ x) : ∀ a ∈ x, (a != b) = true := by
  intro a ha
  rw [bne_iff_ne]
  rintro rfl
  exact h ha

/-- A part without `b` is passed over. -/
theorem upTo_append (h : b ∉ x) (y : Bytes) : upTo b (x ++ y) = x ++ upTo b y :=
  List.takeWhile_append_of_pos (all_ne h)

theorem onward_append (h : b ∉ x) (y : Bytes) : onward b (x ++ y) = onward b y :=
  List.dropWhile_append_of_pos (all_ne h)

@[simp] theorem upTo_cons_self (b : UInt8) (y : Bytes) : upTo b (b :: y) = [] := by
  simp [upTo]

@[simp] theorem onward_cons_self (b : UInt8) (y : Bytes) : onward b (b :: y) = b :: y := by
  simp [onward]

@[simp] theorem upTo_nil (b : UInt8) : upTo b [] = [] := rfl

@[simp] theorem onward_nil (b : UInt8) : onward b [] = [] := rfl

theorem upTo_append_cons (h : b ∉ x) (y : Bytes) : upTo b (x ++ b :: y) = x := by
  rw [upTo_append h, upTo_cons_self, List.append_nil]

theorem onward_append_cons (h : b ∉ x) (y : Bytes) : onward b (x ++ b :: y) = b :: y := by
  rw [onward_append h, onward_cons_self]

/-- Two texts that agree, and are cut at their first `b`, agree before it and after it. -/
theorem append_cons_inj {x' y' : Bytes} (hx : b ∉ x) (hx' : b ∉ x')
    (h : x ++ b :: y = x' ++ b :: y') : x = x' ∧ y = y' := by
  have hbefore := congrArg (upTo b) h
  have hafter := congrArg (onward b) h
  rw [upTo_append_cons hx, upTo_append_cons hx'] at hbefore
  rw [onward_append_cons hx, onward_append_cons hx'] at hafter
  exact ⟨hbefore, (List.cons.inj hafter).2⟩

theorem upTo_of_not_mem (h : b ∉ t) : upTo b t = t := by
  have hcut := upTo_append h []
  rwa [List.append_nil, upTo_nil, List.append_nil] at hcut

theorem onward_of_not_mem (h : b ∉ t) : onward b t = [] := by
  have hcut := onward_append h []
  rwa [List.append_nil, onward_nil] at hcut

/-- Either there is no `b`, or the text goes on with it. -/
theorem onward_cases (b : UInt8) (t : Bytes) :
    (b ∉ t ∧ onward b t = []) ∨ ∃ y, onward b t = b :: y ∧ t = upTo b t ++ b :: y := by
  by_cases h : b ∈ t
  · obtain ⟨x, y, rfl, hx⟩ := List.eq_append_cons_of_mem h
    refine Or.inr ⟨y, onward_append_cons hx y, ?_⟩
    rw [upTo_append_cons hx]
  · exact Or.inl ⟨h, onward_of_not_mem h⟩

theorem onward_eq_nil : onward b t = [] ↔ b ∉ t := by
  rcases onward_cases b t with ⟨hmem, hnil⟩ | ⟨y, hcons, htext⟩
  · exact iff_of_true hnil hmem
  · rw [hcons]
    refine iff_of_false (List.cons_ne_nil b y) (not_not_intro ?_)
    rw [htext]
    exact List.mem_append_right _ List.mem_cons_self

/-- Beyond a part that has a `b`, nothing is looked at. -/
theorem upTo_append_of_mem (h : b ∈ x) (y : Bytes) : upTo b (x ++ y) = upTo b x := by
  obtain ⟨before, after, rfl, hbefore⟩ := List.eq_append_cons_of_mem h
  rw [List.append_assoc, List.cons_append, upTo_append_cons hbefore, upTo_append_cons hbefore]

theorem onward_append_of_mem (h : b ∈ x) (y : Bytes) : onward b (x ++ y) = onward b x ++ y := by
  obtain ⟨before, after, rfl, hbefore⟩ := List.eq_append_cons_of_mem h
  rw [List.append_assoc, List.cons_append, onward_append_cons hbefore,
    onward_append_cons hbefore, List.cons_append]

@[simp] theorem upTo_onward (b : UInt8) (t : Bytes) : upTo b (onward b t) = [] := by
  rcases onward_cases b t with ⟨-, hnil⟩ | ⟨y, hcons, -⟩
  · rw [hnil, upTo_nil]
  · rw [hcons, upTo_cons_self]

@[simp] theorem onward_onward (b : UInt8) (t : Bytes) : onward b (onward b t) = onward b t := by
  rcases onward_cases b t with ⟨-, hnil⟩ | ⟨y, hcons, -⟩
  · rw [hnil, onward_nil]
  · rw [hcons, onward_cons_self]

theorem findByte_cases (b : UInt8) (t : Bytes) :
    (b ∉ t ∧ findByte b t = none) ∨
      ∃ i, findByte b t = some i ∧ b ∈ t ∧ t.take i = upTo b t ∧ t.drop i = onward b t := by
  induction t with
  | nil => exact Or.inl ⟨List.not_mem_nil, rfl⟩
  | cons c cs ih =>
    rw [findByte]
    by_cases hc : c = b
    · subst hc
      refine Or.inr ⟨0, if_pos rfl, List.mem_cons_self, ?_, ?_⟩
      · rw [upTo_cons_self, List.take_zero]
      · rw [onward_cons_self, List.drop_zero]
    · -- the first byte is another one: the rest decides
      have hskip : b ∉ [c] := by simpa using Ne.symm hc
      have hup : upTo b (c :: cs) = c :: upTo b cs := upTo_append hskip cs
      have hon : onward b (c :: cs) = onward b cs := onward_append hskip cs
      rw [if_neg hc, hup, hon]
      rcases ih with ⟨hmem, hnone⟩ | ⟨i, hsome, hmem, htake, hdrop⟩
      · refine Or.inl ⟨?_, by rw [hnone, Option.map_none]⟩
        simp [hmem, Ne.symm hc]
      · refine Or.inr ⟨i + 1, by rw [hsome, Option.map_some], List.mem_cons_of_mem c hmem, ?_, ?_⟩
        · rw [List.take_succ_cons, htake]
        · rw [List.drop_succ_cons, hdrop]

theorem findByte_isNone_iff : (findByte b t).isNone = true ↔ b ∉ t := by
  rcases findByte_cases b t with ⟨hmem, hnone⟩ | ⟨i, hsome, hmem, -⟩
  · simp [hnone, hmem]
  · simp [hsome, hmem]

theorem findByte_append_cons (h : b ∉ x) (y : Bytes) :
    findByte b (x ++ b :: y) = some x.length := by
  induction x with
  | nil => exact if_pos rfl
  | cons c cs ih =>
    rw [List.mem_cons, not_or] at h
    rw [List.cons_append, findByte, if_neg (Ne.symm h.1), ih h.2, Option.map_some, List.length_cons]

/-! ### The last occurrence -/

theorem rfindByte_of_not_mem (h : b ∉ t) : rfindByte b t = none := by
  cases hfind : rfindByte b t with
  | none => rfl
  | some i =>
    refine absurd ?_ h
    rw [(rfindByte_eq_some hfind).1]
    exact List.mem_append_right _ List.mem_cons_self

theorem rfindByte_append_cons (x : Bytes) (h : b ∉ y) :
    rfindByte b (x ++ b :: y) = some x.length := by
  induction x with
  | nil =>
    rw [List.nil_append, rfindByte, rfindByte_of_not_mem h]
    exact if_pos rfl
  | cons c cs ih => rw [List.cons_append, rfindByte, ih, List.length_cons]

/-- Either there is no `b`, or the text is what stands around the last one. -/
theorem rfindByte_cases (b : UInt8) (t : Bytes) :
    (b ∉ t ∧ rfindByte b t = none) ∨
      ∃ x y, t = x ++ b :: y ∧ b ∉ y ∧ rfindByte b t = some x.length := by
  cases hfind : rfindByte b t with
  | none => exact Or.inl ⟨rfindByte_eq_none hfind, rfl⟩
  | some i =>
    obtain ⟨htext, hlast⟩ := rfindByte_eq_some hfind
    refine Or.inr ⟨t.take i, t.drop (i + 1), htext, hlast, ?_⟩
    rw [← hfind, ← rfindByte_append_cons (t.take i) hlast, ← htext]

@[simp] theorem throughLast_append_afterLast (b : UInt8) (t : Bytes) :
    throughLast b t ++ afterLast b t = t := by
  rw [throughLast, afterLast, ← List.reverse_append, upTo_append_onward, List.reverse_reverse]

theorem throughLast_append_cons (x : Bytes) (h : b ∉ y) :
    throughLast b (x ++ b :: y) = x ++ [b] := by
  have hskip : b ∉ y.reverse := by rwa [List.mem_reverse]
  have hreverse : (x ++ b :: y).reverse = y.reverse ++ b :: x.reverse := by simp
  rw [throughLast, hreverse, onward_append_cons hskip]
  simp

theorem exists_throughLast_eq (h : b ∈ t) : ∃ x, throughLast b t = x ++ [b] := by
  rcases rfindByte_cases b t with ⟨hmem, -⟩ | ⟨x, y, rfl, hlast, -⟩
  · exact absurd h hmem
  · exact ⟨x, throughLast_append_cons x hlast⟩

theorem take_rfindByte {i : Nat} (h : rfindByte b t = some i) :
    t.take (i + 1) = throughLast b t := by
  rcases rfindByte_cases b t with ⟨-, hnone⟩ | ⟨x, y, rfl, hlast, hsome⟩
  · rw [hnone] at h
    cases h
  · rw [hsome] at h
    obtain rfl := Option.some.inj h
    rw [throughLast_append_cons x hlast, List.append_cons]
    exact List.take_left' (by simp)

/-- The last `b` of two parts is in the second one if there is any. -/
theorem throughLast_append (x y : Bytes) :
    throughLast b (x ++ y) = if b ∈ y then x ++ throughLast b y else throughLast b x := by
  rcases rfindByte_cases b y with ⟨hmem, -⟩ | ⟨before, after, rfl, hlast, -⟩
  · have hskip : b ∉ y.reverse := by rwa [List.mem_reverse]
    rw [if_neg hmem, throughLast, throughLast, List.reverse_append, onward_append hskip]
  · rw [if_pos (List.mem_append_right _ List.mem_cons_self), throughLast_append_cons before hlast,
      ← List.append_assoc, throughLast_append_cons _ hlast, List.append_assoc]

/-! ### The first occurrence of a text -/

theorem find_append {c : UInt8} {pat : Bytes} (h : c ∉ x) (y : Bytes) :
    find (c :: pat) (x ++ y) = (find (c :: pat) y).map (· + x.length) := by
  induction x with
  | nil => simp
  | cons a x ih =>
    have hhead : ¬ (c :: pat) <+: a :: (x ++ y) := by
      intro hpre
      exact h ((List.cons_prefix_cons.mp hpre).1 ▸ List.mem_cons_self)
    rw [List.cons_append, find_cons_there hhead, ih fun hmem => h (List.mem_cons_of_mem a hmem)]
    cases find (c :: pat) y with
    | none => rfl
    | some i => simp [Nat.add_assoc]

end HttpClient.Text
