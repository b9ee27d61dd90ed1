import HttpClient.Policy.RequestLoop
import HttpClient.Semantics.StreamDecoder

/-!
# Decompression

The body of a response is decompressed if the first `Content-Encoding` line names a coding that the
client knows. `zlib_decode` calls `inflate` with a buffer of 32768 bytes until it says that the
stream has ended, or until it says anything but that it has made progress.

`inflate` ends with the stream. What follows it in the body is not looked at, so of several gzip
members the first one is the body. The size of the input is narrowed to 32 bits, and what is beyond
is not looked at either.

When a body has been decompressed all lines with its coding and its length are removed, also those
of codings that have not been undone.

`inflate` is given. The streams that it decodes, and what its state belongs to, are named in what
is asked of it.

## Main definitions

* `Zlib`, `zlibDecode` — the calls of `inflate`
* `Zlib.Documented` — what is asked of it
* `BeginsWith`, `Undoes` — the content of a body

## Main results

* `zlib_decode_iff` — what `zlib_decode` returns
* `decode_response_body_spec` — what becomes of a response
-/

set_option autoImplicit false

namespace HttpClient.Policy

open Text Semantics

/-! ### The calls of `inflate` -/

/-- What a call of `inflate` returns and leaves. -/
structure Inflated (σ : Type) where
  code : Int
  state : σ
  rest : Bytes
  output : Bytes

structure Zlib (σ : Type) where
  /-- `inflateInit2`; `none` if it fails. -/
  inflateInit2 : Int → Option σ
  /-- `inflate` with `Z_NO_FLUSH`: the state, the input, and the room for the output. -/
  inflate : σ → Bytes → Nat → Inflated σ

/-- `Z_OK` -/
def zOk : Int := 0

/-- `Z_STREAM_END` -/
def zStreamEnd : Int := 1

variable {σ ω τ : Type}

def inflateCall (zlib : Zlib σ) (s : σ) (input : Bytes) : DecoderCall σ UInt8 UInt8 :=
  let inflated := zlib.inflate s input 32768
  { verdict :=
      if inflated.code = zOk then .more
      else if inflated.code = zStreamEnd then .ended
      else .failed
    state := inflated.state
    rest := inflated.rest
    output := inflated.output }

/-- The input that `zlib_decode` looks at: `avail_in` has 32 bits. -/
def available (input : Bytes) : Bytes := input.take (input.length % 2 ^ 32)

/-- `none` if the calls have not ended. -/
def zlibDecode (zlib : Zlib σ) (fuel : Nat) (windowBits : Int) (input : Bytes) :
    Option (Except Bytes Bytes) :=
  match zlib.inflateInit2 windowBits with
  | none => some (.error (str "inflate init failed"))
  | some s =>
    (decodeLoop (inflateCall zlib) fuel s (available input) []).map fun
      | some content => .ok content
      | none => .error (str "inflate failed")

/-- The formats that the client asks for: gzip, zlib, and deflate without a wrapper. -/
def windowSizes : List Int := [16 + maxWbits, maxWbits, -maxWbits]

/-- What is asked of `inflate`: it can be initialised, it decodes the streams of each format, and
a content is at most so many times as long as its stream. -/
structure Zlib.Documented (zlib : Zlib σ) (stream : Int → Bytes → Bytes → Prop)
    (after : Int → σ → Bytes → Bytes → Prop) (ratio : Nat) : Prop where
  init : ∀ windowBits ∈ windowSizes,
    ∃ s, zlib.inflateInit2 windowBits = some s ∧ after windowBits s [] []
  decodes : ∀ windowBits ∈ windowSizes,
    Decodes (inflateCall zlib) (stream windowBits) (after windowBits) ratio

/-- A number of calls that is enough for an input. -/
def enoughCalls (ratio : Nat) (input : Bytes) : Nat :=
  (available input).length + ratio * (available input).length + 1

/-! ### What is in a body -/

/-- What is looked at of the input begins with a stream of the format that has this content. -/
def BeginsWith (stream : Int → Bytes → Bytes → Prop) (windowBits : Int) (input content : Bytes) :
    Prop :=
  ∃ data following, available input = data ++ following ∧ stream windowBits data content

def gzipCodings : List Bytes := [str "gzip", str "x-gzip"]

/-- The content of a body in a coding. Deflate has a wrapper, unless this is impossible. -/
def Undoes (stream : Int → Bytes → Bytes → Prop) (coding body content : Bytes) : Prop :=
  coding ∈ gzipCodings ∧ BeginsWith stream (16 + maxWbits) body content ∨
    coding = str "deflate" ∧
      (BeginsWith stream maxWbits body content ∨
        (¬ ∃ other, BeginsWith stream maxWbits body other) ∧
          BeginsWith stream (-maxWbits) body content)

section

variable {zlib : Zlib σ} {stream : Int → Bytes → Bytes → Prop}
  {after : Int → σ → Bytes → Bytes → Prop} {ratio fuel : Nat} {windowBits : Int}
  {input content : Bytes}

theorem beginsWith_iff :
    BeginsWith stream windowBits input content ↔
      ∃ data, data <+: available input ∧ stream windowBits data content := by
  constructor
  · rintro ⟨data, following, hsplit, hstream⟩
    exact ⟨data, ⟨following, hsplit.symm⟩, hstream⟩
  · rintro ⟨data, ⟨following, hsplit⟩, hstream⟩
    exact ⟨data, following, hsplit.symm, hstream⟩

theorem zlibDecode_ok_iff (h : zlib.Documented stream after ratio)
    (hbits : windowBits ∈ windowSizes) (hfuel : enoughCalls ratio input ≤ fuel) :
    zlibDecode zlib fuel windowBits input = some (.ok content) ↔
      BeginsWith stream windowBits input content := by
  obtain ⟨s, hinit, hafter⟩ := h.init windowBits hbits
  rw [enoughCalls] at hfuel
  simp only [zlibDecode, hinit]
  rw [beginsWith_iff, ← decodeLoop_eq_content_iff (h.decodes windowBits hbits) hafter hfuel,
    Option.map_eq_some_iff]
  constructor
  · rintro ⟨_ | found, hloop, hfound⟩
    · cases hfound
    · rw [hloop, Except.ok.inj hfound]
  · intro hloop
    exact ⟨some content, hloop, rfl⟩

theorem zlibDecode_failed_iff (h : zlib.Documented stream after ratio)
    (hbits : windowBits ∈ windowSizes) (hfuel : enoughCalls ratio input ≤ fuel) :
    zlibDecode zlib fuel windowBits input = some (.error (str "inflate failed")) ↔
      ¬ ∃ content, BeginsWith stream windowBits input content := by
  obtain ⟨s, hinit, hafter⟩ := h.init windowBits hbits
  have hnone : (¬ ∃ content, BeginsWith stream windowBits input content) ↔
      ∀ data content, stream windowBits data content → ¬ data <+: available input := by
    simp only [beginsWith_iff]
    exact ⟨fun hno data content hstream hdata => hno ⟨content, data, hdata, hstream⟩,
      fun hno ⟨content, data, hdata, hstream⟩ => hno data content hstream hdata⟩
  rw [enoughCalls] at hfuel
  simp only [zlibDecode, hinit]
  rw [hnone, ← decodeLoop_eq_failed_iff (h.decodes windowBits hbits) hafter hfuel,
    Option.map_eq_some_iff]
  constructor
  · rintro ⟨_ | found, hloop, hfound⟩
    · exact hloop
    · cases hfound
  · intro hloop
    exact ⟨none, hloop, rfl⟩

end

/-- With enough calls `zlib_decode` returns the content of the stream that the input begins with,
whatever follows. It fails if the input begins with no stream. -/
theorem zlib_decode_iff {zlib : Zlib σ} {stream : Int → Bytes → Bytes → Prop}
    {after : Int → σ → Bytes → Bytes → Prop} {ratio fuel : Nat} {windowBits : Int} {input : Bytes}
    (h : zlib.Documented stream after ratio) (hbits : windowBits ∈ windowSizes)
    (hfuel : enoughCalls ratio input ≤ fuel) :
    (∀ content, zlibDecode zlib fuel windowBits input = some (.ok content) ↔
        BeginsWith stream windowBits input content) ∧
      (zlibDecode zlib fuel windowBits input = some (.error (str "inflate failed")) ↔
        ¬ ∃ content, BeginsWith stream windowBits input content) :=
  ⟨fun _ => zlibDecode_ok_iff h hbits hfuel, zlibDecode_failed_iff h hbits hfuel⟩

/-- The head of a deflate block that is the last one of its stream and is stored, with `n` bytes. -/
def storedHead (n : Nat) : Bytes :=
  [1, .ofNat n, .ofNat (n / 256), ~~~.ofNat n, ~~~.ofNat (n / 256)]

/-- The number of bytes in the head of a stored block. -/
def storedLength (input : Bytes) : Option Nat :=
  match input with
  | _ :: low :: high :: _ =>
    let n := low.toNat + 256 * high.toNat
    if storedHead n <+: input then some n else none
  | _ => none

theorem storedLength_eq_some_iff {input : Bytes} {n : Nat} :
    storedLength input = some n ↔ n < 2 ^ 16 ∧ storedHead n <+: input := by
  constructor
  · intro h
    unfold storedLength at h
    split at h
    · rename_i low high rest
      dsimp only at h
      split_ifs at h with hhead
      obtain rfl := Option.some.inj h
      have hlow := low.toNat_lt
      have hhigh := high.toNat_lt
      exact ⟨by omega, hhead⟩
    · cases h
  · rintro ⟨hlt, rest, rfl⟩
    have hlow : (UInt8.ofNat n).toNat = n % 256 := UInt8.toNat_ofNat'
    have hhigh : (UInt8.ofNat (n / 256)).toNat = n / 256 % 256 := UInt8.toNat_ofNat'
    have hsum : (UInt8.ofNat n).toNat + 256 * (UInt8.ofNat (n / 256)).toNat = n := by omega
    simp only [storedLength, storedHead, List.cons_append, hsum]
    exact if_pos (List.prefix_append (storedHead n) rest)

/-- What is left of a block. -/
inductive StoredState where
  | head (windowBits : Int)
  | copying (left : Nat)

/-- Copy what is left of a block, as far as there is room. -/
def copyStored (left : Nat) (input : Bytes) (room : Nat) : Inflated StoredState :=
  if input.length < left then
    { code := -5, state := .copying left, rest := input, output := [] }
  else if left ≤ room then
    { code := zStreamEnd, state := .copying 0, rest := input.drop left, output := input.take left }
  else
    { code := zOk, state := .copying (left - room), rest := input.drop room,
      output := input.take room }

/-- It inflates one stored block, without a wrapper. -/
def storedZlib : Zlib StoredState where
  inflateInit2 windowBits := some (.head windowBits)
  inflate s input room :=
    match s with
    | .head windowBits =>
      match if windowBits = -maxWbits then storedLength input else none with
      | some n => copyStored n (input.drop 5) room
      | none => { code := -3, state := s, rest := input, output := [] }
    | .copying left => copyStored left input room

def StoredStream (windowBits : Int) (data content : Bytes) : Prop :=
  windowBits = -maxWbits ∧ content.length < 2 ^ 16 ∧ data = storedHead content.length ++ content

def StoredAfter (windowBits : Int) (s : StoredState) (read written : Bytes) : Prop :=
  match s with
  | .head bits => bits = windowBits ∧ read = [] ∧ written = []
  | .copying left =>
    windowBits = -maxWbits ∧ left + written.length < 2 ^ 16 ∧
      read = storedHead (left + written.length) ++ written

/-- The head of an input says how long the content of its stream is. -/
theorem StoredStream.length_eq {windowBits : Int} {n : Nat} {input data content : Bytes}
    (h : StoredStream windowBits data content) (hdata : data <+: input)
    (hlength : storedLength input = some n) : content.length = n := by
  obtain ⟨-, hlt, rfl⟩ := h
  have hhead := (List.prefix_append _ _).trans hdata
  exact Option.some.inj ((storedLength_eq_some_iff.mpr ⟨hlt, hhead⟩).symm.trans hlength)

theorem inflateCall_copying (left : Nat) (input : Bytes) :
    inflateCall storedZlib (.copying left) input =
      if input.length < left then
        { verdict := .failed, state := .copying left, rest := input, output := [] }
      else if left ≤ 32768 then
        { verdict := .ended, state := .copying 0, rest := input.drop left
          output := input.take left }
      else
        { verdict := .more, state := .copying (left - 32768), rest := input.drop 32768
          output := input.take 32768 } := by
  by_cases hshort : input.length < left
  · simp [inflateCall, storedZlib, copyStored, hshort, zOk, zStreamEnd]
  by_cases hroom : left ≤ 32768
  · simp [inflateCall, storedZlib, copyStored, hshort, hroom, zOk, zStreamEnd]
  · simp [inflateCall, storedZlib, copyStored, hshort, hroom, zOk]

/-- What a call does that copies, after the head and what has been copied before. -/
theorem reads_copying {left : Nat} {read written : Bytes} (input : Bytes)
    (hafter : StoredAfter (-maxWbits) (.copying left) read written) :
    ∃ used, input = used ++ (inflateCall storedZlib (.copying left) input).rest ∧
      match (inflateCall storedZlib (.copying left) input).verdict with
      | .more =>
        0 < used.length + (inflateCall storedZlib (.copying left) input).output.length ∧
          StoredAfter (-maxWbits) (inflateCall storedZlib (.copying left) input).state
            (read ++ used) (written ++ (inflateCall storedZlib (.copying left) input).output)
      | .ended => StoredStream (-maxWbits) (read ++ used)
          (written ++ (inflateCall storedZlib (.copying left) input).output)
      | .failed => ∀ data content, StoredStream (-maxWbits) data content →
          ¬ data <+: read ++ input := by
  obtain ⟨-, hlt, rfl⟩ := hafter
  rw [inflateCall_copying]
  split_ifs with hshort hroom
  · -- the input ends before the block
    refine ⟨[], rfl, fun data content hstream hdata => ?_⟩
    have hlength : content.length = left + written.length := by
      refine hstream.length_eq hdata (storedLength_eq_some_iff.mpr ⟨hlt, ?_⟩)
      exact (List.prefix_append _ _).trans (List.prefix_append _ _)
    have hle := hdata.length_le
    rw [hstream.2.2, hlength] at hle
    simp only [List.length_append] at hle
    omega
  · refine ⟨input.take left, (List.take_append_drop _ _).symm, ?_⟩
    have htake : (input.take left).length = left := List.length_take_of_le (by omega)
    have hlength : (written ++ input.take left).length = left + written.length := by
      rw [List.length_append, htake, Nat.add_comm]
    exact ⟨rfl, hlength ▸ hlt, by rw [hlength, List.append_assoc]⟩
  · refine ⟨input.take 32768, (List.take_append_drop _ _).symm, ?_⟩
    have htake : (input.take 32768).length = 32768 := List.length_take_of_le (by omega)
    have hlength : left - 32768 + (written ++ input.take 32768).length =
        left + written.length := by
      rw [List.length_append, htake]
      omega
    refine ⟨?_, rfl, by rw [hlength]; exact hlt, ?_⟩
    · rw [htake]
      omega
    · rw [hlength, List.append_assoc]

theorem decodes_stored (windowBits : Int) :
    Decodes (inflateCall storedZlib) (StoredStream windowBits) (StoredAfter windowBits) 1 where
  unique := by
    intro input data data' content content' hdata hdata' hstream hstream'
    have hlength : content.length = content'.length :=
      hstream.length_eq hdata (storedLength_eq_some_iff.mpr
        ⟨hstream'.2.1, (List.prefix_append _ _).trans (hstream'.2.2 ▸ hdata')⟩)
    have heq : data = data' := by
      refine (List.prefix_of_prefix_length_le hdata hdata' ?_).eq_of_length ?_
      all_goals simp [hstream.2.2, hstream'.2.2, hlength, storedHead]
    rw [hstream.2.2, hstream'.2.2, hlength] at heq
    exact List.append_cancel_left heq
  bounded := by
    intro s read written hafter
    cases s with
    | head bits =>
      obtain ⟨-, rfl, rfl⟩ := hafter
      exact Nat.zero_le _
    | copying left =>
      obtain ⟨-, -, rfl⟩ := hafter
      simp
  reads := by
    intro s read written input hafter
    cases s with
    | copying left =>
      obtain ⟨rfl, hlt, rfl⟩ := hafter
      exact reads_copying input ⟨rfl, hlt, rfl⟩
    | head bits =>
      obtain ⟨rfl, rfl, rfl⟩ := hafter
      cases hsome : if bits = -maxWbits then storedLength input else none with
      | none =>
        have hcall : inflateCall storedZlib (.head bits) input =
            { verdict := .failed, state := .head bits, rest := input, output := [] } := by
          simp [inflateCall, storedZlib, hsome, zOk, zStreamEnd]
        rw [hcall]
        refine ⟨[], rfl, fun data content hstream hdata => ?_⟩
        obtain ⟨rfl, hlt, rfl⟩ := hstream
        rw [if_pos rfl] at hsome
        have hhead : storedHead content.length <+: input := (List.prefix_append _ _).trans hdata
        rw [storedLength_eq_some_iff.mpr ⟨hlt, hhead⟩] at hsome
        cases hsome
      | some n =>
        split_ifs at hsome with hbits
        subst hbits
        obtain ⟨hlt, rest, rfl⟩ := storedLength_eq_some_iff.mp hsome
        have hcall : inflateCall storedZlib (.head (-maxWbits)) (storedHead n ++ rest) =
            inflateCall storedZlib (.copying n) rest := by
          simp only [inflateCall, storedZlib, if_true, hsome]
          rfl
        -- the head is read, and then as much as there is room for
        have hhead : StoredAfter (-maxWbits) (.copying n) (storedHead n) [] :=
          ⟨rfl, hlt, (List.append_nil _).symm⟩
        obtain ⟨used, hused, hverdict⟩ := reads_copying rest hhead
        rw [hcall]
        refine ⟨storedHead n ++ used, by rw [List.append_assoc, ← hused], ?_⟩
        cases hcalled : (inflateCall storedZlib (.copying n) rest).verdict with
        | more =>
          rw [hcalled] at hverdict
          exact ⟨by rw [List.length_append]; omega, hverdict.2⟩
        | ended =>
          rw [hcalled] at hverdict
          exact hverdict
        | failed =>
          rw [hcalled] at hverdict
          exact hverdict

theorem documented_stored : storedZlib.Documented StoredStream StoredAfter 1 where
  init windowBits _ := ⟨.head windowBits, rfl, rfl, rfl, rfl⟩
  decodes windowBits _ := decodes_stored windowBits

/-- A stored block of 40000 bytes, which takes two calls. -/
theorem zlib_decode_iff_stored :
    zlibDecode storedZlib (enoughCalls 1 (storedHead 40000 ++ List.replicate 40000 104 ++ [7]))
        (-maxWbits) (storedHead 40000 ++ List.replicate 40000 104 ++ [7]) =
      some (.ok (List.replicate 40000 104)) := by
  have hlength : (List.replicate 40000 (104 : UInt8)).length = 40000 := List.length_replicate
  refine ((zlib_decode_iff documented_stored (by decide) le_rfl).1 _).mpr
    ⟨storedHead 40000 ++ List.replicate 40000 104, [7], ?_, rfl, ?_, ?_⟩
  · refine List.take_of_length_le (Nat.le_of_eq (Nat.mod_eq_of_lt ?_).symm)
    simp only [List.length_append, hlength, storedHead, List.length_cons, List.length_nil]
    decide
  · rw [hlength]
    decide
  · rw [hlength]

/-! ### Responses -/

/-- `zlib_decode` is what the loop calls. -/
def CallsZlib (externals : Externals ω τ) (zlib : Zlib σ) (ratio : Nat) : Prop :=
  ∀ windowBits ∈ windowSizes, ∀ body,
    zlibDecode zlib (enoughCalls ratio body) windowBits body =
      some (externals.zlibDecode windowBits body)

section

variable {zlib : Zlib σ} {stream : Int → Bytes → Bytes → Prop}
  {after : Int → σ → Bytes → Bytes → Prop} {ratio : Nat} {windowBits : Int}
  {externals : Externals ω τ} {body content encoding : Bytes}

theorem externals_zlibDecode_ok_iff (h : zlib.Documented stream after ratio)
    (hcalls : CallsZlib externals zlib ratio) (hbits : windowBits ∈ windowSizes) :
    externals.zlibDecode windowBits body = .ok content ↔
      BeginsWith stream windowBits body content := by
  rw [← zlibDecode_ok_iff h hbits le_rfl, hcalls windowBits hbits body, Option.some_inj]

theorem externals_zlibDecode_failed (h : zlib.Documented stream after ratio)
    (hcalls : CallsZlib externals zlib ratio) (hbits : windowBits ∈ windowSizes)
    (hnone : ¬ ∃ content, BeginsWith stream windowBits body content) :
    externals.zlibDecode windowBits body = .error (str "inflate failed") := by
  rw [← zlibDecode_failed_iff h hbits le_rfl, hcalls windowBits hbits body] at hnone
  exact Option.some.inj hnone

/-- A body in gzip. -/
theorem decodedBody_gzip (hgzip : lowerCopy (trim encoding) ∈ gzipCodings) :
    decodedBody externals encoding body = some (externals.zlibDecode (16 + maxWbits) body) := by
  simp only [gzipCodings, List.mem_cons, List.not_mem_nil, or_false] at hgzip
  rw [decodedBody]
  rw [if_pos hgzip]

/-- A body in deflate, with a wrapper or without. -/
theorem decodedBody_deflate (hdeflate : lowerCopy (trim encoding) = str "deflate") :
    decodedBody externals encoding body =
      match externals.zlibDecode maxWbits body with
      | .ok decoded => some (.ok decoded)
      | .error _ => some (externals.zlibDecode (-maxWbits) body) := by
  have hother : ¬ (str "deflate" = str "gzip" ∨ str "deflate" = str "x-gzip") := by decide
  rw [decodedBody]
  rw [hdeflate, if_neg hother]
  exact if_pos rfl

theorem decodedBody_ok (h : zlib.Documented stream after ratio)
    (hcalls : CallsZlib externals zlib ratio)
    (hundoes : Undoes stream (lowerCopy (trim encoding)) body content) :
    decodedBody externals encoding body = some (.ok content) := by
  rcases hundoes with ⟨hgzip, hbegins⟩ | ⟨hdeflate, hbegins⟩
  · rw [decodedBody_gzip hgzip,
      (externals_zlibDecode_ok_iff h hcalls (by decide)).mpr hbegins]
  · rw [decodedBody_deflate hdeflate]
    -- the wrapper is tried first, and its failure is what leads to the second try
    rcases hbegins with hwrapped | ⟨hnone, hraw⟩
    · rw [(externals_zlibDecode_ok_iff h hcalls (by decide)).mpr hwrapped]
    · rw [externals_zlibDecode_failed h hcalls (by decide) hnone,
        (externals_zlibDecode_ok_iff h hcalls (by decide)).mpr hraw]

theorem decodedBody_failed (h : zlib.Documented stream after ratio)
    (hcalls : CallsZlib externals zlib ratio)
    (hknown : lowerCopy (trim encoding) ∈ gzipCodings ∨ lowerCopy (trim encoding) = str "deflate")
    (hnone : ¬ ∃ content, Undoes stream (lowerCopy (trim encoding)) body content) :
    decodedBody externals encoding body = some (.error (str "inflate failed")) := by
  rcases hknown with hgzip | hdeflate
  · rw [decodedBody_gzip hgzip, externals_zlibDecode_failed h hcalls (by decide)]
    exact fun ⟨content, hbegins⟩ => hnone ⟨content, .inl ⟨hgzip, hbegins⟩⟩
  · -- neither try succeeds
    have hwrapped : ¬ ∃ content, BeginsWith stream maxWbits body content :=
      fun ⟨content, hbegins⟩ => hnone ⟨content, .inr ⟨hdeflate, .inl hbegins⟩⟩
    rw [decodedBody_deflate hdeflate, externals_zlibDecode_failed h hcalls (by decide) hwrapped]
    dsimp only
    rw [externals_zlibDecode_failed h hcalls (by decide)]
    exact fun ⟨content, hbegins⟩ => hnone ⟨content, .inr ⟨hdeflate, .inr ⟨hwrapped, hbegins⟩⟩⟩

theorem decodedBody_unknown
    (hunknown : ¬ (lowerCopy (trim encoding) ∈ gzipCodings ∨
      lowerCopy (trim encoding) = str "deflate")) :
    decodedBody externals encoding body = none := by
  simp only [gzipCodings, List.mem_cons, List.not_mem_nil, or_false, not_or] at hunknown
  rw [decodedBody]
  rw [if_neg (not_or.mpr hunknown.1), if_neg hunknown.2]

end

/-- A response whose first coding is known gets the content of its body, and loses all lines with
a coding or a length; the other lines stay in their order. If the body has no content in this
coding the response gets an error. In any other coding it stays as it is. -/
theorem decode_response_body_spec {zlib : Zlib σ} {stream : Int → Bytes → Bytes → Prop}
    {after : Int → σ → Bytes → Bytes → Prop} {ratio : Nat} {externals : Externals ω τ}
    {response : Response} {encoding : Bytes} (h : zlib.Documented stream after ratio)
    (hcalls : CallsZlib externals zlib ratio)
    (hheader : response.header (str "Content-Encoding") = some encoding) :
    let coding := lowerCopy (trim encoding)
    let known := coding ∈ gzipCodings ∨ coding = str "deflate"
    (∀ content, Undoes stream coding response.body content →
        decodeResponseBody externals response =
          { response with
            body := content
            headers := response.headers.filter fun line =>
              !(lineNamed (str "Content-Encoding") line ||
                lineNamed (str "Content-Length") line) }) ∧
      (known → (¬ ∃ content, Undoes stream coding response.body content) →
        decodeResponseBody externals response =
          { response with error := str "inflate failed" }) ∧
      (¬ known → decodeResponseBody externals response = response) := by
  intro coding known
  rw [decodeResponseBody, hheader]
  dsimp only
  refine ⟨fun content hundoes => ?_, fun hknown hnone => ?_, fun hunknown => ?_⟩
  · rw [decodedBody_ok h hcalls hundoes]
    dsimp only [removeResponseHeader]
    congr 1
    -- the lines are filtered twice, once for each name
    rw [List.filter_filter]
    refine List.filter_congr fun line _ => ?_
    rw [Bool.not_or, Bool.and_comm]
  · rw [decodedBody_failed h hcalls hknown hnone]
  · rw [decodedBody_unknown hunknown]

/-- The loop calls the `zlib_decode` that knows stored blocks. -/
def storedExternals : Externals Unit Unit where
  raw _ around := (none, around, ())
  pause _ around := around
  zlibDecode windowBits body :=
    (zlibDecode storedZlib (enoughCalls 1 body) windowBits body).getD (.error [])
  getenv _ := none

theorem callsZlib_stored : CallsZlib storedExternals storedZlib 1 := by
  intro windowBits hbits body
  dsimp only [storedExternals]
  by_cases hsome : ∃ content, BeginsWith StoredStream windowBits body content
  · obtain ⟨content, hbegins⟩ := hsome
    rw [(zlibDecode_ok_iff documented_stored hbits le_rfl).mpr hbegins, Option.getD_some]
  · rw [(zlibDecode_failed_iff documented_stored hbits le_rfl).mpr hsome, Option.getD_some]

/-- A response with two codings, of which the first one is undone. -/
def twiceCoded : Response where
  body := storedHead 1 ++ [104] ++ [7]
  headers := [str "Content-Encoding: Deflate ", str "Content-Length: 7", str "A: b",
    str "content-encoding: gzip"]

theorem decode_response_body_spec_twiceCoded :
    decodeResponseBody storedExternals twiceCoded =
      { twiceCoded with
        body := [104]
        headers := twiceCoded.headers.filter fun line =>
          !(lineNamed (str "Content-Encoding") line || lineNamed (str "Content-Length") line) } :=
  (decode_response_body_spec documented_stored callsZlib_stored
    (by decide : twiceCoded.header (str "Content-Encoding") = some (str "Deflate "))).1 [104]
    (.inr ⟨by decide, .inr ⟨fun ⟨_, _, _, _, hstream⟩ => absurd hstream.1 (by decide),
      ⟨storedHead 1 ++ [104], [7], by decide, rfl, by decide, rfl⟩⟩⟩)

end HttpClient.Policy
