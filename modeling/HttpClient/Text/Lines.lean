import HttpClient.Text.Bytes

/-!
# Lines ended by CR LF

Text protocols send blocks of lines, each ended by CR LF, and end a block with an
empty line. If no line of a block contains a CR and no line after the first is
empty, the first blank line of the text is the one that ends the block.

## Main definitions

* `crlf`, `endLine`, `renderLines` — lines as sent
* `blankLine` — two line breaks in a row

## Main results

* `find_blankLine` — the end of a block is found where the block ends
-/

set_option autoImplicit false

namespace HttpClient.Text

def crlf : Bytes := [13, 10]

/-- A line with its line break. -/
def endLine (line : Bytes) : Bytes := line ++ crlf

def renderLines (lines : List Bytes) : Bytes := lines.flatMap endLine

@[simp] theorem renderLines_nil : renderLines [] = [] := rfl

@[simp] theorem renderLines_cons (line : Bytes) (lines : List Bytes) :
    renderLines (line :: lines) = line ++ 13 :: 10 :: renderLines lines := by
  simp [renderLines, endLine, crlf]

theorem renderLines_append (x y : List Bytes) :
    renderLines (x ++ y) = renderLines x ++ renderLines y :=
  List.flatMap_append

/-- A block of lines ends with a line break. -/
theorem exists_renderLines_eq (line : Bytes) (lines : List Bytes) :
    ∃ text, renderLines (line :: lines) = text ++ crlf := by
  induction lines generalizing line with
  | nil => exact ⟨line, renderLines_cons line []⟩
  | cons next lines ih =>
    obtain ⟨text, htext⟩ := ih next
    refine ⟨line ++ 13 :: 10 :: text, ?_⟩
    rw [renderLines_cons, htext, List.append_assoc]
    rfl

/-- The line break that ends a line, followed by the one of an empty line. -/
def blankLine : Bytes := [13, 10, 13, 10]

/-- A line contains no CR. -/
def IsLine (line : Bytes) : Prop := (13 : UInt8) ∉ line

theorem IsLine.tail {c : UInt8} {cs : Bytes} (h : IsLine (c :: cs)) : IsLine cs :=
  fun hmem => h (List.mem_cons_of_mem c hmem)

theorem IsLine.append {x y : Bytes} (hx : IsLine x) (hy : IsLine y) : IsLine (x ++ y) := by
  intro hmem
  rcases List.mem_append.mp hmem with hleft | hright
  · exact hx hleft
  · exact hy hright

theorem IsLine.head_ne {c : UInt8} {cs : Bytes} (h : IsLine (c :: cs)) : c ≠ 13 :=
  fun heq => h (heq ▸ List.mem_cons_self)

theorem not_blankLine_of_head_ne {c : UInt8} {cs : Bytes} (h : c ≠ 13) :
    ¬ blankLine <+: c :: cs := by
  intro hpre
  exact h (List.cons_prefix_cons.mp hpre).1.symm

/-- Searching for a blank line skips the characters of a line. -/
theorem find_blankLine_append {line : Bytes} (h : IsLine line) (text : Bytes) :
    find blankLine (line ++ text) = (find blankLine text).map (· + line.length) := by
  induction line with
  | nil => simp
  | cons c cs ih =>
    rw [List.cons_append, find_cons_there (not_blankLine_of_head_ne h.head_ne), ih h.tail]
    cases find blankLine text with
    | none => rfl
    | some i => simp [Nat.add_assoc]

/-- A line break that no second one follows is skipped too. -/
theorem find_blankLine_break {text : Bytes} (h : ¬ crlf <+: text) :
    find blankLine (13 :: 10 :: text) = (find blankLine text).map (· + 2) := by
  have hfirst : ¬ blankLine <+: 13 :: 10 :: text := by
    intro hpre
    exact h (List.cons_prefix_cons.mp (List.cons_prefix_cons.mp hpre).2).2
  rw [find_cons_there hfirst, find_cons_there (not_blankLine_of_head_ne (by decide))]
  cases find blankLine text with
  | none => rfl
  | some i => rfl

theorem not_crlf_of_isLine {line text : Bytes} (h : IsLine line) (hne : line ≠ []) :
    ¬ crlf <+: line ++ text := by
  obtain ⟨c, cs, rfl⟩ := List.exists_cons_of_ne_nil hne
  intro hpre
  exact h.head_ne (List.cons_prefix_cons.mp hpre).1.symm

/-- The first blank line of a block is the one that ends it. -/
theorem find_blankLine {line : Bytes} {lines : List Bytes} (text : Bytes) (h : IsLine line)
    (hlines : ∀ l ∈ lines, IsLine l ∧ l ≠ []) :
    find blankLine (renderLines (line :: lines) ++ 13 :: 10 :: text) =
      some ((renderLines (line :: lines)).length - 2) := by
  induction lines generalizing line with
  | nil =>
    rw [renderLines_cons, List.append_assoc, find_blankLine_append h]
    have hhere : blankLine <+: 13 :: 10 :: 13 :: 10 :: text := ⟨text, rfl⟩
    simp only [renderLines_nil, List.cons_append, List.nil_append, find_cons_here hhere]
    simp
  | cons l lines ih =>
    obtain ⟨hl, hne⟩ := hlines l List.mem_cons_self
    have hrest := ih hl fun l' hl' => hlines l' (List.mem_cons_of_mem l hl')
    rw [renderLines_cons, List.append_assoc, find_blankLine_append h, List.cons_append,
      List.cons_append, find_blankLine_break, hrest]
    · simp only [Option.map_some, renderLines_cons, List.length_append, List.length_cons,
        Option.some.injEq]
      omega
    · rw [renderLines_cons, List.append_assoc]
      exact not_crlf_of_isLine hl hne

end HttpClient.Text
