import HttpClient.H2.Session

/-!
# The output of a session

The engine produces output in chunks. Draining it appends them to the pending buffer, and
starts a write loop if none is running. The loop swaps the pending buffer with the active
one and hands the active one to a write; while that is outstanding, more output collects in
the pending buffer.

For one generation of the connection this is a queue of bytes. What the writes are handed,
followed by what they are not handed yet, is what the engine has produced.

## Main definitions

* `Io.drain` — the pending buffer takes chunk after chunk
* `Wire`, `WireEvent`, `wireStep` — a session with the chunks and the buffers so far
* `Stage`, `Flowing` — idle, scheduled or writing; nothing is lost

## Main results

* `Flowing.pass` — a pass of the write loop hands over what is waiting
* `output_in_order` — the output of every run
-/

set_option autoImplicit false

namespace HttpClient.H2

open Semantics Text

variable {options : SessionOptions} {impl : Impl} {generation : Nat} {i : Nat}

/-! ### Draining -/

/-- The chunks that the engine produces are appended one after another. -/
def Io.drain (io : Io) (chunks : List Bytes) : Io :=
  chunks.foldl (fun io chunk => { io with pendingWrite := io.pendingWrite ++ chunk }) io

theorem drain_eq (io : Io) (chunks : List Bytes) :
    io.drain chunks = { io with pendingWrite := io.pendingWrite ++ chunks.flatten } := by
  induction chunks generalizing io with
  | nil => simp [Io.drain]
  | cons chunk chunks ih =>
    have hrest := ih { io with pendingWrite := io.pendingWrite ++ chunk }
    rw [Io.drain, List.foldl_cons]
    rw [Io.drain] at hrest
    rw [hrest, List.flatten_cons, List.append_assoc]

/-- A session that is not stopping and has a transport. -/
def Impl.live (impl : Impl) : Bool := !impl.link.stopping && impl.link.stream.isSome

/-- A write loop is started if there is output and no loop is running. -/
theorem pumpOutput_io (hlive : impl.live = true) (chunks : List Bytes) :
    (impl.pumpOutput chunks.flatten).link = impl.link ∧
      (impl.pumpOutput chunks.flatten).io =
        let io := impl.io.drain chunks
        if io.writing || io.pendingWrite.isEmpty then io
        else
          let loop : Loop := { generation := impl.link.ioGeneration }
          { io with writing := true, writeLoops := io.writeLoops ++ [loop] } := by
  unfold Impl.live at hlive
  simp only [Bool.and_eq_true, Bool.not_eq_true', Option.isSome_iff_ne_none] at hlive
  obtain ⟨hstopping, hstream⟩ := hlive
  have hopen : ¬ (impl.link.stopping || impl.link.stream.isNone) = true := by
    simp [hstopping, hstream]
  unfold Impl.pumpOutput
  rw [if_neg hopen, drain_eq]
  dsimp only [Impl.call]
  split_ifs <;> exact ⟨rfl, rfl⟩

/-! ### The session on the wire -/

/-- What a pass of the write loop hands to a write, if it begins one. -/
def Impl.handsOver (impl : Impl) (generation : Nat) : List Bytes :=
  if impl.serves generation then
    let buffer := if impl.io.activeWrite.isEmpty then impl.io.pendingWrite else impl.io.activeWrite
    if buffer.isEmpty then [] else [buffer]
  else []

/-- A session, the chunks that the engine has produced, and the buffers that writes have
been handed. -/
structure Wire where
  impl : Impl
  chunks : List Bytes := []
  buffers : List Bytes := []

inductive WireEvent where
  /-- The output of the engine is drained. -/
  | pump (chunks : List Bytes)
  /-- A write loop that was started runs up to its first write. -/
  | starts (i : Nat)
  /-- A write completes. -/
  | written (i : Nat)

/-- One event; `none` if it is not enabled. -/
def wireStep (options : SessionOptions) (wire : Wire) : WireEvent → Option Wire
  | .pump chunks =>
    if wire.impl.live then
      some { wire with
        impl := wire.impl.pumpOutput chunks.flatten
        chunks := wire.chunks ++ chunks }
    else some wire
  | .starts i => do
    let (loop, base) ← wire.impl.takeWriteLoop i
    let impl ← step options wire.impl (.writeLoopStarts i)
    some { wire with impl, buffers := wire.buffers ++ base.handsOver loop.generation }
  | .written i => do
    let (loop, base) ← wire.impl.takeWriteLoop i
    let impl ← step options wire.impl (.written i)
    let cleared := { base with io := { base.io with activeWrite := [] } }
    some { wire with impl, buffers := wire.buffers ++ cleared.handsOver loop.generation }

/-! ### Nothing is lost -/

/-- A write has been handed the active buffer and has not completed. -/
def Impl.outstanding (impl : Impl) : Bool :=
  impl.io.writeLoops.any fun loop => loop.transport.isSome

/-- The output that no write has been handed yet. -/
def Impl.unhanded (impl : Impl) : Bytes :=
  if impl.outstanding then impl.io.pendingWrite
  else impl.io.activeWrite ++ impl.io.pendingWrite

/-- What the write loop is doing. -/
inductive Stage (impl : Impl) : Prop
  /-- There is no loop, and no output. -/
  | idle (hloops : impl.io.writeLoops = []) (hwriting : impl.io.writing = false)
      (hactive : impl.io.activeWrite = []) (hpending : impl.io.pendingWrite = [])
  /-- A loop has been started but has not run. -/
  | scheduled (hloops : impl.io.writeLoops = [{ generation := impl.link.ioGeneration }])
      (hwriting : impl.io.writing = true) (hactive : impl.io.activeWrite = [])
  /-- A write is outstanding. -/
  | writing (transport : Nat)
      (hloops : impl.io.writeLoops =
        [{ generation := impl.link.ioGeneration, transport := some transport }])
      (hwriting : impl.io.writing = true)

/-- The output that writes have been handed and the output they have not are what the
engine has produced. An outstanding write has been handed the active buffer. -/
structure Flowing (wire : Wire) : Prop where
  live : wire.impl.live = true
  stage : Stage wire.impl
  flow : wire.buffers.flatten ++ wire.impl.unhanded = wire.chunks.flatten
  last : wire.impl.outstanding = true →
    wire.buffers.getLast? = some wire.impl.io.activeWrite

theorem serves_of_live (hlive : impl.live = true) :
    impl.serves impl.link.ioGeneration = true := by
  unfold Impl.live at hlive
  unfold Impl.serves
  simpa using hlive

/-- A pass of the only write loop, whose last write has completed, hands over what is
waiting. -/
theorem Flowing.pass {chunks buffers : List Bytes} (hlive : impl.live = true)
    (hloops : impl.io.writeLoops = []) (hwriting : impl.io.writing = true)
    (hactive : impl.io.activeWrite = [])
    (hflow : buffers.flatten ++ impl.io.pendingWrite = chunks.flatten) :
    Flowing { impl := impl.writePass impl.link.ioGeneration, chunks,
              buffers := buffers ++ impl.handsOver impl.link.ioGeneration } := by
  have hserves := serves_of_live hlive
  unfold Impl.writePass Impl.handsOver
  simp only [hserves, if_true, hactive, List.isEmpty_nil]
  by_cases hpending : impl.io.pendingWrite = []
  · -- There is nothing to write: the loop ends.
    rw [hpending] at hflow
    simp only [hpending, List.isEmpty_nil, if_true, List.append_nil]
    refine ⟨hlive, .idle hloops rfl rfl rfl, ?_, ?_⟩
    · simpa [Impl.unhanded, Impl.outstanding, hloops] using hflow
    · simp [Impl.outstanding, hloops]
  · have hsome : impl.io.pendingWrite.isEmpty = false := by simpa using hpending
    have hstream : ∃ transport, impl.link.stream = some transport := by
      unfold Impl.live at hlive
      exact Option.isSome_iff_exists.mp (Bool.and_eq_true_iff.mp hlive).2
    obtain ⟨transport, hstream⟩ := hstream
    simp only [hsome, Bool.false_eq_true, if_false, hloops, hstream, List.nil_append]
    refine ⟨hlive, .writing transport rfl hwriting, ?_, fun _ => List.getLast?_concat⟩
    simpa [Impl.unhanded, Impl.outstanding] using hflow

/-- Draining appends to what is waiting. -/
theorem Flowing.pump {wire : Wire} (h : Flowing wire) (chunks : List Bytes) :
    Flowing { wire with
      impl := wire.impl.pumpOutput chunks.flatten, chunks := wire.chunks ++ chunks } := by
  obtain ⟨impl, produced, buffers⟩ := wire
  obtain ⟨hlive, hstage, hflow, hlast⟩ := h
  dsimp only at *
  obtain ⟨hlink, hio⟩ := pumpOutput_io hlive chunks
  have hlive' : (impl.pumpOutput chunks.flatten).live = true := by
    unfold Impl.live
    rw [hlink]
    exact hlive
  have hproduced : buffers.flatten ++ (impl.unhanded ++ chunks.flatten) =
      (produced ++ chunks).flatten := by
    rw [List.flatten_append, ← hflow, List.append_assoc]
  rw [drain_eq] at hio
  cases hstage with
  | idle hloops hwriting hactive hpending =>
    by_cases hnone : chunks.flatten = []
    · have hsame : (impl.pumpOutput chunks.flatten).io = impl.io := by
        rw [hio, hnone, List.append_nil]
        dsimp only
        rw [if_pos (by simp [hpending])]
      refine ⟨hlive', .idle ?_ ?_ ?_ ?_, ?_, fun hout => ?_⟩
      · exact hsame ▸ hloops
      · exact hsame ▸ hwriting
      · exact hsame ▸ hactive
      · exact hsame ▸ hpending
      · unfold Impl.unhanded Impl.outstanding at *
        rw [hnone, List.append_nil] at hproduced
        rw [hsame]
        exact hproduced
      · simp [Impl.outstanding, hsame, hloops] at hout
    · -- The first output starts a loop.
      simp only [hwriting, hpending, hloops, List.nil_append, List.isEmpty_iff, hnone,
        Bool.false_or, if_false] at hio
      refine ⟨hlive', .scheduled ?_ ?_ ?_, ?_, fun hout => ?_⟩
      · rw [hio, hlink]
      · rw [hio]
      · rw [hio]
        exact hactive
      · simpa [Impl.unhanded, Impl.outstanding, hio, hloops, hpending] using hproduced
      · simp [Impl.outstanding, hio] at hout
  | scheduled hloops hwriting hactive =>
    simp only [hwriting, Bool.true_or, if_true] at hio
    refine ⟨hlive', .scheduled ?_ ?_ ?_, ?_, fun hout => ?_⟩
    · rw [hio, hlink]
      exact hloops
    · rw [hio]
    · rw [hio]
      exact hactive
    · simpa [Impl.unhanded, Impl.outstanding, hio, hloops] using hproduced
    · simp [Impl.outstanding, hio, hloops] at hout
  | writing transport hloops hwriting =>
    simp only [hwriting, Bool.true_or, if_true] at hio
    have hout : impl.outstanding = true := by simp [Impl.outstanding, hloops]
    refine ⟨hlive', .writing transport ?_ ?_, ?_, fun _ => ?_⟩
    · rw [hio, hlink]
      exact hloops
    · rw [hio]
    · simpa [Impl.unhanded, Impl.outstanding, hio, hloops] using hproduced
    · rw [hio]
      exact hlast hout

theorem wireStep_starts {wire wire' : Wire} (h : wireStep options wire (.starts i) = some wire') :
    ∃ loop base, wire.impl.takeWriteLoop i = some (loop, base) ∧ loop.transport = none ∧
      wire' = { wire with
        impl := base.writePass loop.generation
        buffers := wire.buffers ++ base.handsOver loop.generation } := by
  obtain ⟨⟨loop, base⟩, htake, h⟩ := Option.bind_eq_some_iff.mp h
  obtain ⟨impl', hsession, h⟩ := Option.bind_eq_some_iff.mp h
  obtain ⟨⟨loop', base'⟩, htake', hsession⟩ := Option.bind_eq_some_iff.mp hsession
  obtain ⟨rfl, rfl⟩ := Prod.mk.inj (Option.some.inj (htake.symm.trans htake'))
  dsimp only at hsession
  split_ifs at hsession with hwaits
  obtain rfl := Option.some.inj hsession
  exact ⟨loop, base, htake, by simpa using hwaits, (Option.some.inj h).symm⟩

theorem wireStep_written {wire wire' : Wire} (h : wireStep options wire (.written i) = some wire') :
    ∃ loop base, wire.impl.takeWriteLoop i = some (loop, base) ∧ loop.transport ≠ none ∧
      wire' = { wire with
        impl := { base with io := { base.io with activeWrite := [] } }.writePass loop.generation
        buffers := wire.buffers ++
          { base with io := { base.io with activeWrite := [] } }.handsOver loop.generation } := by
  obtain ⟨⟨loop, base⟩, htake, h⟩ := Option.bind_eq_some_iff.mp h
  obtain ⟨impl', hsession, h⟩ := Option.bind_eq_some_iff.mp h
  obtain ⟨⟨loop', base'⟩, htake', hsession⟩ := Option.bind_eq_some_iff.mp hsession
  obtain ⟨rfl, rfl⟩ := Prod.mk.inj (Option.some.inj (htake.symm.trans htake'))
  dsimp only at hsession
  split_ifs at hsession with hwrites
  obtain rfl := Option.some.inj hsession
  refine ⟨loop, base, htake, ?_, (Option.some.inj h).symm⟩
  rintro hnone
  simp [hnone] at hwrites

theorem takeWriteLoop_only {loop only : Loop} {base : Impl}
    (hloops : impl.io.writeLoops = [only]) (h : impl.takeWriteLoop i = some (loop, base)) :
    loop = only ∧ base = { impl with io := { impl.io with writeLoops := [] } } := by
  obtain ⟨l, hl, hpair⟩ := Option.map_eq_some_iff.mp h
  obtain ⟨rfl, rfl⟩ := Prod.mk.inj hpair
  rw [hloops] at hl ⊢
  cases i with
  | zero => exact ⟨(Option.some.inj hl).symm, rfl⟩
  | succ i => cases hl

theorem takeWriteLoop_nil (hloops : impl.io.writeLoops = []) : impl.takeWriteLoop i = none := by
  simp [Impl.takeWriteLoop, hloops]

theorem Flowing.step {wire wire' : Wire} {event : WireEvent} (h : Flowing wire)
    (hstep : wireStep options wire event = some wire') : Flowing wire' := by
  cases event with
  | pump chunks =>
    simp only [wireStep, h.live, if_true] at hstep
    obtain rfl := Option.some.inj hstep
    exact h.pump chunks
  | starts i =>
    obtain ⟨loop, base, htake, hwaits, rfl⟩ := wireStep_starts hstep
    cases h.stage with
    | idle hloops => simp [takeWriteLoop_nil hloops] at htake
    | scheduled hloops hwriting hactive =>
      obtain ⟨rfl, rfl⟩ := takeWriteLoop_only hloops htake
      have hflow := h.flow
      simp only [Impl.unhanded, Impl.outstanding, hloops, hactive] at hflow
      have hbase : Impl.live { wire.impl with io := { wire.impl.io with writeLoops := [] } } =
          true := h.live
      exact Flowing.pass hbase rfl hwriting hactive (by simpa using hflow)
    | writing transport hloops =>
      obtain ⟨rfl, rfl⟩ := takeWriteLoop_only hloops htake
      cases hwaits
  | written i =>
    obtain ⟨loop, base, htake, hwrites, rfl⟩ := wireStep_written hstep
    cases h.stage with
    | idle hloops => simp [takeWriteLoop_nil hloops] at htake
    | scheduled hloops =>
      obtain ⟨rfl, rfl⟩ := takeWriteLoop_only hloops htake
      exact absurd rfl hwrites
    | writing transport hloops hwriting =>
      obtain ⟨rfl, rfl⟩ := takeWriteLoop_only hloops htake
      have hflow := h.flow
      simp only [Impl.unhanded, Impl.outstanding, hloops] at hflow
      have hbase : Impl.live { wire.impl with io :=
          { wire.impl.io with writeLoops := [], activeWrite := [] } } = true := h.live
      exact Flowing.pass hbase rfl hwriting rfl (by simpa using hflow)

/-- A generation of the connection begins without output and without a write loop. -/
structure Impl.StartsOutput (impl : Impl) : Prop where
  live : impl.live = true
  writing : impl.io.writing = false
  buffers : impl.io.activeWrite = [] ∧ impl.io.pendingWrite = []
  loops : impl.io.writeLoops = []

/-- Within one generation, at most one write is outstanding, and it is of the buffer handed
over last. The buffers handed over and what is not handed over yet are the chunks that the
engine has produced, in order. Without a write loop there is no output. -/
theorem output_in_order (options : SessionOptions) (impl : Impl) (hstart : impl.StartsOutput)
    (events : List WireEvent) (wire : Wire)
    (hexec : exec (wireStep options) { impl } events = some wire) :
    wire.impl.io.writeLoops.countP (fun loop => loop.transport.isSome) ≤ 1 ∧
      (wire.impl.outstanding = true → wire.buffers.getLast? = some wire.impl.io.activeWrite) ∧
      wire.buffers.flatten ++ wire.impl.unhanded = wire.chunks.flatten ∧
      (wire.impl.io.writeLoops = [] →
        wire.impl.io.activeWrite = [] ∧ wire.impl.io.pendingWrite = []) := by
  obtain ⟨hlive, hwriting, ⟨hactive, hpending⟩, hloops⟩ := hstart
  have hempty : Flowing { impl } := by
    refine ⟨hlive, .idle hloops hwriting hactive hpending, ?_, fun hout => ?_⟩
    · simp [Impl.unhanded, Impl.outstanding, hloops, hactive, hpending]
    · simp [Impl.outstanding, hloops] at hout
  have hflowing : Flowing wire :=
    invariant_of_reaches (fun _ _ _ h hstep => h.step hstep) hempty ⟨events, hexec⟩
  refine ⟨?_, hflowing.last, hflowing.flow, fun hnone => ?_⟩
  · cases hflowing.stage with
    | idle hloops => simp [hloops]
    | scheduled hloops => simp [hloops]
    | writing transport hloops => simp [hloops]
  · cases hflowing.stage with
    | idle _ _ hactive hpending => exact ⟨hactive, hpending⟩
    | scheduled hloops => simp [hloops] at hnone
    | writing transport hloops => simp [hloops] at hnone

/-- Three chunks, of which two are produced while the first is being written. -/
def threeChunks : List WireEvent :=
  [.pump [[1, 2], [3]], .starts 0, .pump [[4]], .pump [[], [5]], .written 0]

theorem output_in_order_threeChunks :
    ∃ wire, exec (wireStep {}) { impl := { link := { stream := some 0 } } } threeChunks =
        some wire ∧
      wire.buffers = [[1, 2, 3], [4, 5]] ∧
      (wire.impl.io.writeLoops.countP (fun loop => loop.transport.isSome) ≤ 1 ∧
        (wire.impl.outstanding = true → wire.buffers.getLast? = some wire.impl.io.activeWrite) ∧
        wire.buffers.flatten ++ wire.impl.unhanded = wire.chunks.flatten ∧
        (wire.impl.io.writeLoops = [] →
          wire.impl.io.activeWrite = [] ∧ wire.impl.io.pendingWrite = [])) :=
  ⟨_, rfl, rfl, output_in_order {} { link := { stream := some 0 } }
    ⟨rfl, rfl, ⟨rfl, rfl⟩, rfl⟩ threeChunks _ rfl⟩

end HttpClient.H2
