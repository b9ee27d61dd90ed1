import Mathlib.Data.List.Infix

/-!
# Decoding a stream in bounded calls

A decoder is called again and again with what is left of its input. A call reads a part of it and
puts out a part of the content, as much as fits into a buffer. It says that there may be more, that
the stream has ended, or that the input is not a stream. What comes after the end of the stream is
not read.

Every call that says that there may be more has read or put out something. If the content is at
most so many times as long as the stream, the calls come to an end, and what they have put out is
the content of the stream that the input begins with.

## Main definitions

* `DecoderCall` — what a call does
* `decodeLoop` — the calls until one of them is the last
* `Decodes` — what is asked of the decoder

## Main results

* `decodeLoop_eq_content_iff`, `decodeLoop_eq_failed_iff` — what the calls lead to
-/

set_option autoImplicit false

namespace HttpClient.Semantics

variable {σ α β : Type*}

inductive DecoderVerdict where
  | more
  | ended
  | failed
  deriving DecidableEq, Repr

/-- What a call does: its verdict, the next state, the input that it has left, and the output. -/
structure DecoderCall (σ α β : Type*) where
  verdict : DecoderVerdict
  state : σ
  rest : List α
  output : List β

/-- The calls until the stream has ended or the input has failed. -/
def decodeLoop (call : σ → List α → DecoderCall σ α β) :
    Nat → σ → List α → List β → Option (Option (List β))
  | 0, _, _, _ => none
  | fuel + 1, s, input, output =>
    let called := call s input
    match called.verdict with
    | .more => decodeLoop call fuel called.state called.rest (output ++ called.output)
    | .ended => some (some (output ++ called.output))
    | .failed => some none

/-- The decoder decodes the streams that are given with their contents. A state belongs to what
has been read and put out. -/
structure Decodes (call : σ → List α → DecoderCall σ α β) (stream : List α → List β → Prop)
    (after : σ → List α → List β → Prop) (ratio : Nat) : Prop where
  /-- An input begins with one stream at most. -/
  unique : ∀ {input data data' : List α} {content content' : List β}, data <+: input →
    data' <+: input → stream data content → stream data' content' → content = content'
  bounded : ∀ {s : σ} {read : List α} {written : List β}, after s read written →
    written.length ≤ ratio * read.length
  reads : ∀ {s : σ} {read : List α} {written : List β} (input : List α), after s read written →
    ∃ used, input = used ++ (call s input).rest ∧
      match (call s input).verdict with
      | .more =>
        0 < used.length + (call s input).output.length ∧
          after (call s input).state (read ++ used) (written ++ (call s input).output)
      | .ended => stream (read ++ used) (written ++ (call s input).output)
      | .failed => ∀ data content, stream data content → ¬ data <+: read ++ input

variable {call : σ → List α → DecoderCall σ α β} {stream : List α → List β → Prop}
  {after : σ → List α → List β → Prop} {ratio fuel : Nat} {s : σ} {input read : List α}
  {written : List β}

/-- With enough fuel the calls end with the content of the stream that the input begins with, or
the input begins with none. -/
theorem decodeLoop_cases (h : Decodes call stream after ratio) (hafter : after s read written)
    (hfuel : input.length + ratio * (read.length + input.length) < fuel + written.length) :
    (∃ data content, data <+: read ++ input ∧ stream data content ∧
        decodeLoop call fuel s input written = some (some content)) ∨
      (∀ data content, stream data content → ¬ data <+: read ++ input) ∧
        decodeLoop call fuel s input written = some none := by
  induction fuel generalizing s input read written with
  | zero =>
    -- what is left to be read or put out is not less than nothing
    have hbound := h.bounded hafter
    have hmul : ratio * read.length ≤ ratio * (read.length + input.length) :=
      Nat.mul_le_mul_left ratio (Nat.le_add_right ..)
    omega
  | succ fuel ih =>
    obtain ⟨used, hused, hverdict⟩ := h.reads input hafter
    have hlength : input.length = used.length + (call s input).rest.length := by
      rw [← List.length_append, ← hused]
    have hread : read ++ used ++ (call s input).rest = read ++ input := by
      rw [List.append_assoc, ← hused]
    rw [decodeLoop]
    cases hcalled : (call s input).verdict with
    | more =>
      rw [hcalled] at hverdict
      -- some input is used up or some output is made, so that less fuel is enough
      obtain ⟨hprogress, hnext⟩ := hverdict
      rw [← hread]
      refine ih hnext ?_
      have htotal : (read ++ used).length + (call s input).rest.length =
          read.length + input.length := by
        rw [List.length_append]
        omega
      rw [htotal, List.length_append]
      omega
    | ended =>
      rw [hcalled] at hverdict
      refine .inl ⟨read ++ used, _, ?_, hverdict, rfl⟩
      rw [← hread]
      exact List.prefix_append _ _
    | failed =>
      rw [hcalled] at hverdict
      exact .inr ⟨hverdict, rfl⟩

/-- From the start, the calls decode the stream that the input begins with. -/
theorem decodeLoop_eq_content_iff (h : Decodes call stream after ratio) (hafter : after s [] [])
    (hfuel : input.length + ratio * input.length < fuel) {content : List β} :
    decodeLoop call fuel s input [] = some (some content) ↔
      ∃ data, data <+: input ∧ stream data content := by
  have hfuel' : input.length + ratio * (([] : List α).length + input.length) <
      fuel + ([] : List β).length := by
    simpa using hfuel
  rcases decodeLoop_cases h hafter hfuel' with ⟨data, found, hdata, hstream, hloop⟩ | ⟨hnone, hloop⟩
  · rw [hloop]
    constructor
    · intro heq
      obtain rfl := Option.some.inj (Option.some.inj heq)
      exact ⟨data, hdata, hstream⟩
    · rintro ⟨data', hdata', hstream'⟩
      -- the input begins with one stream at most
      rw [h.unique hdata hdata' hstream hstream']
  · rw [hloop]
    refine iff_of_false (fun heq => nomatch Option.some.inj heq) ?_
    rintro ⟨data, hdata, hstream⟩
    exact hnone data content hstream hdata

/-- From the start, the calls fail if the input begins with no stream. -/
theorem decodeLoop_eq_failed_iff (h : Decodes call stream after ratio) (hafter : after s [] [])
    (hfuel : input.length + ratio * input.length < fuel) :
    decodeLoop call fuel s input [] = some none ↔
      ∀ data content, stream data content → ¬ data <+: input := by
  have hfuel' : input.length + ratio * (([] : List α).length + input.length) <
      fuel + ([] : List β).length := by
    simpa using hfuel
  rcases decodeLoop_cases h hafter hfuel' with ⟨data, found, hdata, hstream, hloop⟩ | ⟨hnone, hloop⟩
  · rw [hloop]
    exact iff_of_false (fun heq => nomatch Option.some.inj heq) fun hnone =>
      hnone data found hstream hdata
  · rw [hloop]
    exact iff_of_true rfl hnone

end HttpClient.Semantics
