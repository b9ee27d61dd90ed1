import HttpClient.H1.Message
import HttpClient.Text.Delimiters

/-!
# The grammar of HTTP/1.1 requests

A request is a request line, field lines, an empty line and a body. The request line is
method, target and version with a blank between them; a field line is cut at its first colon.
Nothing else delimits: a name may contain any byte but a colon and those that end lines, and
the body is whatever follows the empty line.

A text is a request in at most one way.

## Main definitions

* `RequestField`, `RequestMessage` — what a request consists of
* `FieldLines`, `IsRequest` — the texts that are requests

## Main results

* `IsRequest.unique` — the grammar is unambiguous
-/

set_option autoImplicit false

namespace HttpClient.H1

open Text

/-- A field: its name, and what its line has after the colon. -/
structure RequestField where
  name : Bytes
  text : Bytes
  deriving DecidableEq

/-- A field line without its line end. -/
def RequestField.line (field : RequestField) : Bytes := field.name ++ 58 :: field.text

structure RequestMessage where
  method : Bytes
  target : Bytes
  fields : List RequestField
  body : Bytes
  deriving DecidableEq

/-- A part of the request line: not empty, and with neither blanks nor line ends. -/
def IsWord (s : Bytes) : Prop := s ≠ [] ∧ 32 ∉ s ∧ IsText s

instance (s : Bytes) : Decidable (IsWord s) :=
  inferInstanceAs (Decidable (s ≠ [] ∧ 32 ∉ s ∧ IsText s))

/-- The name that a field line begins with. -/
def IsLineName (s : Bytes) : Prop := s ≠ [] ∧ 58 ∉ s ∧ IsText s

instance (s : Bytes) : Decidable (IsLineName s) :=
  inferInstanceAs (Decidable (s ≠ [] ∧ 58 ∉ s ∧ IsText s))

/-- A text that begins with field lines and an empty line; the body follows. -/
inductive FieldLines : Bytes → List RequestField → Bytes → Prop
  | empty (body : Bytes) : FieldLines (13 :: 10 :: body) [] body
  | line {name text rest body : Bytes} {fields : List RequestField} (hname : IsLineName name)
      (htext : IsText text) (hrest : FieldLines rest fields body) :
      FieldLines (name ++ 58 :: (text ++ 13 :: 10 :: rest)) (⟨name, text⟩ :: fields) body

/-- A text is a request with these parts. -/
inductive IsRequest : Bytes → RequestMessage → Prop
  | intro {method target lines body : Bytes} {fields : List RequestField} (hmethod : IsWord method)
      (htarget : IsWord target) (hlines : FieldLines lines fields body) :
      IsRequest (method ++ 32 :: (target ++ 32 :: (str "HTTP/1.1" ++ 13 :: 10 :: lines)))
        ⟨method, target, fields, body⟩

/-- The block of the lines of some fields, with an empty line after it. -/
theorem fieldLines_renderLines {fields : List RequestField} (body : Bytes)
    (h : ∀ field ∈ fields, IsLineName field.name ∧ IsText field.text) :
    FieldLines (renderLines (fields.map RequestField.line) ++ 13 :: 10 :: body) fields body := by
  induction fields with
  | nil => exact .empty body
  | cons field fields ih =>
    obtain ⟨hname, htext⟩ := h field List.mem_cons_self
    have hrest := ih fun other hother => h other (List.mem_cons_of_mem _ hother)
    rw [List.map_cons, renderLines_cons, RequestField.line]
    simpa using FieldLines.line hname htext hrest

/-- The text begins with a name or a line end, which differ in their first byte. -/
theorem FieldLines.unique {t body body' : Bytes} {fields fields' : List RequestField}
    (h : FieldLines t fields body) (h' : FieldLines t fields' body') :
    fields = fields' ∧ body = body' := by
  induction h generalizing fields' with
  | empty body =>
    generalize ht : 13 :: 10 :: body = t at h'
    cases h' with
    | empty body' =>
      obtain rfl : body = body' := by simpa using ht
      exact ⟨rfl, rfl⟩
    | line hname htext hrest =>
      obtain ⟨c, cs, rfl⟩ := List.exists_cons_of_ne_nil hname.1
      rw [List.cons_append, List.cons.injEq] at ht
      exact absurd ht.1.symm (hname.2.2 c List.mem_cons_self).1
  | @line name text rest body fields hname htext hrest ih =>
    generalize ht : name ++ 58 :: (text ++ 13 :: 10 :: rest) = t at h'
    cases h' with
    | empty body' =>
      obtain ⟨c, cs, rfl⟩ := List.exists_cons_of_ne_nil hname.1
      rw [List.cons_append, List.cons.injEq] at ht
      exact absurd ht.1 (hname.2.2 c List.mem_cons_self).1
    | line hname' htext' hrest' =>
      obtain ⟨rfl, hline⟩ := append_cons_inj hname.2.1 hname'.2.1 ht
      obtain ⟨rfl, hend⟩ := append_cons_inj htext.isLine htext'.isLine hline
      obtain rfl := (List.cons.inj hend).2
      obtain ⟨rfl, rfl⟩ := ih hrest'
      exact ⟨rfl, rfl⟩

/-- A text is a request in at most one way. -/
theorem IsRequest.unique {t : Bytes} {m m' : RequestMessage} (h : IsRequest t m)
    (h' : IsRequest t m') : m = m' := by
  obtain ⟨hmethod, htarget, hlines⟩ := h
  rename_i method target lines body fields
  generalize ht : method ++ 32 :: (target ++ 32 :: (str "HTTP/1.1" ++ 13 :: 10 :: lines)) = t at h'
  obtain ⟨hmethod', htarget', hlines'⟩ := h'
  obtain ⟨rfl, hline⟩ := append_cons_inj hmethod.2.1 hmethod'.2.1 ht
  obtain ⟨rfl, hversion⟩ := append_cons_inj htarget.2.1 htarget'.2.1 hline
  obtain rfl : lines = _ := by simpa using List.append_cancel_left hversion
  obtain ⟨rfl, rfl⟩ := hlines.unique hlines'
  rfl

/-- The version follows the second blank. -/
theorem IsRequest.version {x y rest : Bytes} {m : RequestMessage} (hx : 32 ∉ x) (hy : 32 ∉ y)
    (h : IsRequest (x ++ 32 :: (y ++ 32 :: rest)) m) : str "HTTP/1.1" <+: rest := by
  generalize ht : x ++ 32 :: (y ++ 32 :: rest) = t at h
  obtain ⟨hmethod, htarget, -⟩ := h
  obtain ⟨-, hline⟩ := append_cons_inj hx hmethod.2.1 ht
  obtain ⟨-, hversion⟩ := append_cons_inj hy htarget.2.1 hline
  rw [hversion]
  exact List.prefix_append _ _

end HttpClient.H1
