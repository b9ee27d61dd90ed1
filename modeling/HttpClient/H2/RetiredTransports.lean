import HttpClient.H2.Recovery
import HttpClient.H2.Wiring

/-!
# Closed transports and the loops on them

When a session closes its connection, a loop may be suspended in a read or a write on the
transport. The transport is therefore kept on a list until the loop has returned. The list
is emptied at the end of a loop, if neither of two flags is set: one stands for the read
loop, the other for the write loop.

There can be more loops than flags. Closing a connection clears the flag of the write loop
although the loop returns only later, and a new connection sets the flag of the read loop
again although the one before may not have returned. As long as neither happens, the flags
tell the truth, and nothing is suspended on a transport when it is released.

## Main definitions

* `Released` — a step takes a transport off the list
* `Impl.InUse` — a loop is suspended on a transport
* `Orderly` — a step closes no connection under its write loop and finishes none over an
  earlier read loop
* `Wiring.Flagged` — the flags tell the truth

## Main results

* `Wiring.Flagged.step` — one orderly step
* `released_unused_of_orderly` — the runs of orderly steps
* `released_in_use` — a failed read releases the transport of a suspended write
-/

set_option autoImplicit false

namespace HttpClient.H2

open Semantics Text

variable {options : SessionOptions} {impl impl' : Impl} {i : Nat}

/-! ### Releasing a transport -/

/-- A transport is destroyed by the step: it was on the list of closed transports, or the
loop that runs has just put it there, and it is not there any more. -/
def Released (impl : Impl) (action : Action) (impl' : Impl) (transport : Nat) : Prop :=
  (transport ∈ impl.io.retired ∨
    action.ofLoop = true ∧ impl.link.stream = some transport ∧ impl'.link.stream = none) ∧
  transport ∉ impl'.io.retired

/-- A loop is suspended in a read or a write on the transport. -/
def Impl.InUse (impl : Impl) (transport : Nat) : Prop :=
  ∃ loop ∈ impl.io.readLoops ++ impl.io.writeLoops, loop.transport = some transport

/-- The write loops that have not returned, apart from the one whose write fails. -/
def Impl.otherWriters (impl : Impl) : Action → List Loop
  | .writeError i _ => impl.io.writeLoops.eraseIdx i
  | _ => impl.io.writeLoops

/-- The step ends no connection while a write loop has not returned, other than the one that
runs, and finishes no connect attempt while a read loop has not returned. -/
def Orderly (options : SessionOptions) (impl : Impl) (action : Action) : Prop :=
  (action.finishesConnect = true → impl.io.readLoops = []) ∧
    (impl.disconnects options action = true →
      action.finishesConnect = false ∧ impl.otherWriters action = [])

instance (options : SessionOptions) (impl : Impl) (action : Action) :
    Decidable (Orderly options impl action) :=
  inferInstanceAs (Decidable ((action.finishesConnect = true → impl.io.readLoops = []) ∧
    (impl.disconnects options action = true →
      action.finishesConnect = false ∧ impl.otherWriters action = [])))

/-! ### The flags tell the truth -/

namespace Wiring

variable {w w' : Wiring}

/-- There is at most one loop of each kind, and none whose flag is down. -/
structure Flagged (w : Wiring) : Prop where
  readers : w.io.readLoops.length ≤ 1
  writers : w.io.writeLoops.length ≤ 1
  reading : w.io.reading = false → w.io.readLoops = []
  writing : w.io.writing = false → w.io.writeLoops = []

/-- No loop has been started that has not returned. -/
def Quiet (w : Wiring) : Prop := w.io.readLoops = [] ∧ w.io.writeLoops = []

/-- Closed transports stay on the list, unless all loops have returned. -/
def Keeps (w w' : Wiring) : Prop :=
  w'.Quiet ∨ ∀ transport,
    transport ∈ w.io.retired ∨ w.stream = some transport ∧ w'.stream = none →
      transport ∈ w'.io.retired

theorem Flagged.of_eq (h : w.Flagged) (hreaders : w'.io.readLoops = w.io.readLoops)
    (hwriters : w'.io.writeLoops = w.io.writeLoops) (hreading : w'.io.reading = w.io.reading)
    (hwriting : w'.io.writing = w.io.writing) : w'.Flagged := by
  refine ⟨?_, ?_, ?_, ?_⟩
  · exact hreaders ▸ h.readers
  · exact hwriters ▸ h.writers
  · rw [hreading, hreaders]
    exact h.reading
  · rw [hwriting, hwriters]
    exact h.writing

/-- A write loop is only started if there is none. -/
theorem Flagged.pump (h : w.Flagged) (output : Bytes) : (w.pump output).Flagged := by
  unfold Wiring.pump
  dsimp only
  split_ifs with hdead hnothing
  · exact h
  · exact h.of_eq rfl rfl rfl rfl
  · simp only [Bool.or_eq_true, not_or, Bool.not_eq_true] at hnothing
    have hnone : w.io.writeLoops = [] := h.writing hnothing.1
    refine ⟨h.readers, ?_, h.reading, (fun hdown => nomatch hdown)⟩
    dsimp only
    rw [hnone]
    exact le_rfl

/-- Giving the connection up clears the flag of the write loop, so there must be none. -/
theorem Flagged.disconnect (h : w.Flagged) (hnone : w.io.writeLoops = []) (stopping : Bool)
    (ioGeneration : Nat) : (w.disconnect stopping ioGeneration).Flagged :=
  ⟨h.readers, h.writers, h.reading, fun _ => hnone⟩

/-- A connection is finished while no earlier read loop is left. -/
theorem Flagged.connect (h : w.Flagged) (hnone : w.io.readLoops = []) : w.connect.Flagged := by
  have hreaders : w.connect.io.readLoops.length ≤ 1 := by
    unfold Wiring.connect
    dsimp only
    rw [hnone]
    exact le_rfl
  exact ⟨hreaders, h.writers, (fun hdown => nomatch hdown), h.writing⟩

abbrev closesQuietly (w : Wiring) : Prop := w.io.writeLoops = []

abbrev connectsQuietly (w : Wiring) : Prop := w.io.readLoops = []

/-- A move keeps the flags right, and the closed transports on the list. -/
theorem Flagged.move (h : w.Flagged) (hmove : WireMove closesQuietly connectsQuietly w w') :
    w'.Flagged ∧ ∀ transport ∈ w.io.retired, transport ∈ w'.io.retired := by
  cases hmove with
  | pump output =>
    refine ⟨h.pump output, fun transport hmem => ?_⟩
    unfold Wiring.pump
    dsimp only
    split_ifs <;> exact hmem
  | disconnect stopping ioGeneration hnone =>
    exact ⟨h.disconnect hnone stopping ioGeneration, fun _ => List.mem_append_left _⟩
  | attempt ioGeneration _ => exact ⟨h.of_eq rfl rfl rfl rfl, fun _ => id⟩
  | opened stream => exact ⟨h.of_eq rfl rfl rfl rfl, fun _ => id⟩
  | connect hnone => exact ⟨h.connect hnone, fun _ => id⟩

theorem Flagged.moves (h : w.Flagged) (hmoves : WireMoves closesQuietly connectsQuietly w w') :
    w'.Flagged ∧ ∀ transport ∈ w.io.retired, transport ∈ w'.io.retired := by
  induction hmoves with
  | refl => exact ⟨h, fun _ => id⟩
  | tail _ hmove ih =>
    obtain ⟨hflagged, hkept⟩ := ih.1.move hmove
    exact ⟨hflagged, fun transport hmem => hkept transport (ih.2 transport hmem)⟩

/-! ### A loop is run -/

theorem eq_nil_of_eraseIdx {loops : List Loop} {loop : Loop} (hone : loops.length ≤ 1)
    (hat : loops[i]? = some loop) : loops.eraseIdx i = [] := by
  obtain ⟨hi, -⟩ := List.getElem?_eq_some_iff.mp hat
  refine List.eq_nil_of_length_eq_zero ?_
  rw [List.length_eraseIdx_of_lt hi]
  omega

/-- Taking out the only read loop. -/
theorem Flagged.takeRead {loop : Loop} (h : w.Flagged) (hat : w.io.readLoops[i]? = some loop) :
    (w.takeRead i).Flagged ∧ (w.takeRead i).io.readLoops = [] ∧ w.io.reading = true := by
  have hnone := eq_nil_of_eraseIdx h.readers hat
  refine ⟨⟨?_, h.writers, fun _ => hnone, h.writing⟩, hnone, ?_⟩
  · exact (congrArg List.length hnone).trans_le (Nat.zero_le 1)
  · by_contra hdown
    rw [h.reading (Bool.not_eq_true _ ▸ hdown)] at hat
    cases hat

theorem Flagged.takeWrite {loop : Loop} (h : w.Flagged) (hat : w.io.writeLoops[i]? = some loop) :
    (w.takeWrite i).Flagged ∧ (w.takeWrite i).io.writeLoops = [] ∧ w.io.writing = true := by
  have hnone := eq_nil_of_eraseIdx h.writers hat
  refine ⟨⟨h.readers, ?_, h.reading, fun _ => hnone⟩, hnone, ?_⟩
  · exact (congrArg List.length hnone).trans_le (Nat.zero_le 1)
  · by_contra hdown
    rw [h.writing (Bool.not_eq_true _ ▸ hdown)] at hat
    cases hat

/-- The read loop ends. If no flag is set any more, no loop is left. -/
theorem Flagged.endRead (h : w.Flagged) (hnone : w.io.readLoops = []) :
    w.endRead.Flagged ∧ (w.endRead.Quiet ∨ w.endRead.io.retired = w.io.retired) := by
  unfold Wiring.endRead Io.releaseClosedStreams
  dsimp only
  split_ifs with hwriting
  · exact ⟨⟨h.readers, h.writers, fun _ => hnone, h.writing⟩, Or.inr rfl⟩
  · have hdown : w.io.writing = false := by simpa using hwriting
    exact ⟨⟨h.readers, h.writers, fun _ => hnone, h.writing⟩, Or.inl ⟨hnone, h.writing hdown⟩⟩

theorem Flagged.endWrite (h : w.Flagged) (hnone : w.io.writeLoops = []) :
    w.endWrite.Flagged ∧ (w.endWrite.Quiet ∨ w.endWrite.io.retired = w.io.retired) := by
  unfold Wiring.endWrite Io.releaseClosedStreams
  dsimp only
  split_ifs with hreading
  · exact ⟨⟨h.readers, h.writers, h.reading, fun _ => hnone⟩, Or.inr rfl⟩
  · have hdown : w.io.reading = false := by simpa using hreading
    exact ⟨⟨h.readers, h.writers, h.reading, fun _ => hnone⟩, Or.inl ⟨h.reading hdown, hnone⟩⟩

theorem Flagged.readPass (h : w.Flagged) (hnone : w.io.readLoops = [])
    (hreading : w.io.reading = true) (generation : Nat) :
    (w.readPass generation).Flagged ∧
      ((w.readPass generation).Quiet ∨ (w.readPass generation).io.retired = w.io.retired) := by
  unfold Wiring.readPass
  split_ifs with hserves
  · refine ⟨⟨?_, h.writers, fun hdown => ?_, h.writing⟩, Or.inr rfl⟩
    · dsimp only
      rw [hnone]
      exact le_rfl
    · exact absurd (hreading.symm.trans hdown) Bool.noConfusion
  · exact h.endRead hnone

theorem Flagged.writePass (h : w.Flagged) (hnone : w.io.writeLoops = [])
    (hwriting : w.io.writing = true) (generation : Nat) :
    (w.writePass generation).Flagged ∧
      ((w.writePass generation).Quiet ∨ (w.writePass generation).io.retired = w.io.retired) := by
  unfold Wiring.writePass
  dsimp only
  split_ifs with hserves hactive hempty
  · exact ⟨⟨h.readers, h.writers, h.reading, fun _ => hnone⟩, Or.inr rfl⟩
  · refine ⟨⟨h.readers, ?_, h.reading, fun hdown => ?_⟩, Or.inr rfl⟩
    · dsimp only
      rw [hnone]
      exact le_rfl
    · exact absurd (hwriting.symm.trans hdown) Bool.noConfusion
  · refine ⟨⟨h.readers, ?_, h.reading, fun hdown => ?_⟩, Or.inr rfl⟩
    · dsimp only
      rw [hnone]
      exact le_rfl
    · exact absurd (hwriting.symm.trans hdown) Bool.noConfusion
  · exact h.endWrite hnone

/-! ### What stays on the list -/

theorem stream_readPass (generation : Nat) : (w.readPass generation).stream = w.stream := by
  unfold readPass
  split_ifs <;> rfl

theorem stream_writePass (generation : Nat) : (w.writePass generation).stream = w.stream := by
  unfold writePass
  dsimp only
  split_ifs <;> rfl

/-- Output is pumped past the transports and the read loops. -/
theorem pump_reader (w : Wiring) (output : Bytes) : (w.pump output).stream = w.stream ∧
    (w.pump output).io.retired = w.io.retired ∧ (w.pump output).io.readLoops = w.io.readLoops ∧
    (w.pump output).io.reading = w.io.reading := by
  unfold pump
  dsimp only
  split_ifs <;> exact ⟨rfl, rfl, rfl, rfl⟩

theorem keeps_of_eq (h : w'.Quiet ∨ w'.io.retired = w.io.retired) (hstream : w'.stream = w.stream) :
    Keeps w w' := by
  refine h.imp_right fun hretired transport hclosed => ?_
  rcases hclosed with hmem | ⟨hsome, hnone⟩
  · exact hretired ▸ hmem
  · rw [hstream, hsome] at hnone
    cases hnone

/-- The transport that a loop closes is put on the list. -/
theorem keeps_of_disconnect
    (h : w'.Quiet ∨ w'.io.retired = w.io.retired ++ w.stream.toList) : Keeps w w' := by
  refine h.imp_right fun hretired transport hclosed => ?_
  rw [hretired]
  rcases hclosed with hmem | ⟨hsome, -⟩
  · exact List.mem_append_left _ hmem
  · exact List.mem_append_right _ (Option.mem_toList.mpr hsome)

end Wiring

/-! ### Steps -/

/-- A step keeps the closed transports on the list, unless no loop is left after it. -/
def KeepsTransports (impl : Impl) (action : Action) (impl' : Impl) : Prop :=
  impl'.wiring.Quiet ∨ ∀ transport,
    transport ∈ impl.io.retired ∨
      action.ofLoop = true ∧ impl.link.stream = some transport ∧ impl'.link.stream = none →
    transport ∈ impl'.io.retired

theorem keepsTransports_of_wiring {action : Action} {w : Wiring} (hwiring : impl'.wiring = w)
    (h : impl.wiring.Keeps w) : KeepsTransports impl action impl' := by
  subst hwiring
  exact h.imp_right fun hmem transport hclosed => hmem transport (hclosed.imp_right And.right)

/-- A step of a read loop. -/
theorem flagged_reader {action : Action} {loop : Loop} (h : impl.wiring.Flagged)
    (hat : impl.wiring.io.readLoops[i]? = some loop)
    (hquiet : impl.disconnects options action = true → impl.io.writeLoops = [])
    (hwiring : impl'.wiring = (impl.wiring.takeRead i).readPass loop.generation ∨
      impl'.wiring = (impl.wiring.takeRead i).endRead ∨
      (∃ output, impl'.wiring =
        ((impl.wiring.takeRead i).pump output).readPass loop.generation) ∨
      impl.disconnects options action = true ∧
        impl'.wiring =
          ((impl.wiring.takeRead i).disconnect true impl.link.ioGeneration).endRead) :
    impl'.wiring.Flagged ∧ KeepsTransports impl action impl' := by
  obtain ⟨htaken, hnone, hreading⟩ := h.takeRead hat
  rcases hwiring with hwiring | hwiring | ⟨output, hwiring⟩ | ⟨hcloses, hwiring⟩
  · obtain ⟨hflagged, hretired⟩ := htaken.readPass hnone hreading loop.generation
    refine ⟨hwiring ▸ hflagged, keepsTransports_of_wiring hwiring ?_⟩
    exact Wiring.keeps_of_eq hretired (Wiring.stream_readPass loop.generation)
  · obtain ⟨hflagged, hretired⟩ := htaken.endRead hnone
    exact ⟨hwiring ▸ hflagged, keepsTransports_of_wiring hwiring (Wiring.keeps_of_eq hretired rfl)⟩
  · obtain ⟨hstream, hlist, hreaders, hflag⟩ :=
      Wiring.pump_reader (impl.wiring.takeRead i) output
    obtain ⟨hflagged, hretired⟩ := (htaken.pump output).readPass (hreaders.trans hnone)
      (hflag.trans hreading) loop.generation
    refine ⟨hwiring ▸ hflagged, keepsTransports_of_wiring hwiring ?_⟩
    rw [hlist] at hretired
    exact Wiring.keeps_of_eq hretired ((Wiring.stream_readPass loop.generation).trans hstream)
  · -- the loop closes the connection, and there is no write loop
    obtain ⟨hflagged, hretired⟩ :=
      (htaken.disconnect (hquiet hcloses) true impl.link.ioGeneration).endRead hnone
    exact ⟨hwiring ▸ hflagged,
      keepsTransports_of_wiring hwiring (Wiring.keeps_of_disconnect hretired)⟩

/-- A step of a write loop, which may close the connection itself. -/
theorem flagged_writer {action : Action} {loop : Loop} (h : impl.wiring.Flagged)
    (hat : impl.wiring.io.writeLoops[i]? = some loop)
    (hwiring : impl'.wiring = (impl.wiring.takeWrite i).writePass loop.generation ∨
      impl'.wiring = (impl.wiring.takeWrite i).written.writePass loop.generation ∨
      impl'.wiring = (impl.wiring.takeWrite i).endWrite ∨
      impl'.wiring =
        ((impl.wiring.takeWrite i).disconnect true impl.link.ioGeneration).endWrite) :
    impl'.wiring.Flagged ∧ KeepsTransports impl action impl' := by
  obtain ⟨htaken, hnone, hwriting⟩ := h.takeWrite hat
  rcases hwiring with hwiring | hwiring | hwiring | hwiring
  · obtain ⟨hflagged, hretired⟩ := htaken.writePass hnone hwriting loop.generation
    refine ⟨hwiring ▸ hflagged, keepsTransports_of_wiring hwiring ?_⟩
    exact Wiring.keeps_of_eq hretired (Wiring.stream_writePass loop.generation)
  · have hwritten : (impl.wiring.takeWrite i).written.Flagged := htaken.of_eq rfl rfl rfl rfl
    obtain ⟨hflagged, hretired⟩ := hwritten.writePass hnone hwriting loop.generation
    refine ⟨hwiring ▸ hflagged, keepsTransports_of_wiring hwiring ?_⟩
    exact Wiring.keeps_of_eq hretired (Wiring.stream_writePass loop.generation)
  · obtain ⟨hflagged, hretired⟩ := htaken.endWrite hnone
    exact ⟨hwiring ▸ hflagged, keepsTransports_of_wiring hwiring (Wiring.keeps_of_eq hretired rfl)⟩
  · obtain ⟨hflagged, hretired⟩ :=
      (htaken.disconnect hnone true impl.link.ioGeneration).endWrite hnone
    exact ⟨hwiring ▸ hflagged,
      keepsTransports_of_wiring hwiring (Wiring.keeps_of_disconnect hretired)⟩

/-- An orderly step keeps the flags right, and closed transports on the list, unless no
loop is left. -/
theorem flagged_step {action : Action} (h : impl.wiring.Flagged)
    (hok : Orderly options impl action) (hstep : step options impl action = some impl') :
    impl'.wiring.Flagged ∧ KeepsTransports impl action impl' := by
  by_cases hloop : action.ofLoop = false
  · have hothers : impl.otherWriters action = impl.io.writeLoops := by
      cases action <;> first | rfl | cases hloop
    have hmoves : WireMoves Wiring.closesQuietly Wiring.connectsQuietly impl.wiring
        impl'.wiring := by
      refine wireMoves_step hloop (fun hends w hsame => ?_) (fun hends w hsame => ?_) hstep
      · obtain ⟨hunfinished, hnone⟩ := hok.2 hends
        unfold Wiring.closesQuietly
        rw [hsame hunfinished, ← hothers]
        exact hnone
      · exact hsame.trans (hok.1 hends)
    obtain ⟨hflagged, hkept⟩ := h.moves hmoves
    refine ⟨hflagged, Or.inr fun transport hclosed => ?_⟩
    rcases hclosed with hmem | ⟨hnot, -⟩
    · exact hkept transport hmem
    · exact absurd (hloop.symm.trans hnot) Bool.noConfusion
  cases action with
  | readLoopStarts i =>
    obtain ⟨loop, hat, hwiring⟩ := wiring_readLoopStarts hstep
    exact flagged_reader h hat (fun hcloses => (hok.2 hcloses).2) (Or.inl hwiring)
  | readData i frames fatal output =>
    obtain ⟨loop, hat, hwiring⟩ := wiring_readData hstep
    refine flagged_reader h hat (fun hcloses => (hok.2 hcloses).2) (Or.inr ?_)
    split_ifs at hwiring with hfatal
    · exact Or.inl hwiring
    · exact Or.inr (Or.inl ⟨output, hwiring⟩)
  | readError i aborted =>
    obtain ⟨loop, hat, hwiring⟩ := wiring_readError hstep
    refine flagged_reader h hat (fun hcloses => (hok.2 hcloses).2) (Or.inr ?_)
    split_ifs at hwiring with hfails
    · refine Or.inr (Or.inr ⟨?_, hwiring⟩)
      simp only [Bool.and_eq_true] at hfails
      simp [Impl.disconnects, Impl.opening, hat, hfails.1, hfails.2]
    · exact Or.inl hwiring
  | writeLoopStarts i =>
    obtain ⟨loop, hat, hwiring⟩ := wiring_writeLoopStarts hstep
    exact flagged_writer h hat (Or.inl hwiring)
  | written i =>
    obtain ⟨loop, hat, hwiring⟩ := wiring_written hstep
    exact flagged_writer h hat (Or.inr (Or.inl hwiring))
  | writeError i aborted =>
    obtain ⟨loop, hat, hwiring⟩ := wiring_writeError hstep
    refine flagged_writer h hat (Or.inr (Or.inr ?_))
    split_ifs at hwiring with hfails
    · exact Or.inr hwiring
    · exact Or.inl hwiring
  | _ => exact absurd rfl hloop

/-- What a step releases after which no loop is left is not in use. -/
theorem unused_of_keepsTransports {action : Action} (h : KeepsTransports impl action impl')
    {transport : Nat} (hreleased : Released impl action impl' transport) :
    ¬ impl'.InUse transport := by
  rcases h with ⟨hreaders, hwriters⟩ | hkept
  · rintro ⟨loop, hmem, -⟩
    have hnone : impl'.io.readLoops ++ impl'.io.writeLoops = [] :=
      List.append_eq_nil_iff.mpr ⟨hreaders, hwriters⟩
    rw [hnone] at hmem
    cases hmem
  · exact absurd (hkept transport hreleased.1) hreleased.2

/-! ### Runs -/

/-- In a run that closes no connection under its write loop and finishes none over an
earlier read loop, no transport is released while a loop is suspended on it. -/
theorem released_unused_of_orderly (options : SessionOptions) {before after : List Action}
    {action : Action}
    (hok : Along (step options) (Orderly options) {} (before ++ action :: after))
    (hrun : exec (step options) {} before = some impl)
    (hstep : step options impl action = some impl') (transport : Nat)
    (hreleased : Released impl action impl' transport) : ¬ impl'.InUse transport := by
  obtain ⟨hbefore, hlast⟩ := hok.split hrun
  have hempty : (({} : Impl).wiring).Flagged :=
    ⟨Nat.zero_le 1, Nat.zero_le 1, fun _ => rfl, fun _ => rfl⟩
  have hflagged : impl.wiring.Flagged :=
    invariant_of_along (fun _ _ _ h hok hstep => (flagged_step h hok hstep).1) hempty hbefore hrun
  exact unused_of_keepsTransports (flagged_step hflagged hlast hstep).2 hreleased

/-- A connection is written to, reset when the write is done, and released when the read
that was aborted returns. -/
def resetAfterWrite : List Action :=
  [.request .preconnect {} firstSubmission, .resolved 0, .established 0 true [0] firstSubmission,
    .readLoopStarts 0, .writeLoopStarts 0, .written 0, .reset]

theorem released_unused_of_orderly_resetAfterWrite :
    ∃ impl impl', exec (step {}) {} resetAfterWrite = some impl ∧
      step {} impl (.readError 0 true) = some impl' ∧ Released impl (.readError 0 true) impl' 0 ∧
      ¬ impl'.InUse 0 := by
  obtain ⟨impl, impl', hrun, hstep, hlisted, hgone⟩ : ∃ impl impl',
      exec (step {}) {} resetAfterWrite = some impl ∧
      step {} impl (.readError 0 true) = some impl' ∧ impl.io.retired = [0] ∧
      impl'.io.retired = [] := ⟨_, _, rfl, rfl, rfl, rfl⟩
  have hok : Along (step {}) (Orderly {}) {} (resetAfterWrite ++ .readError 0 true :: []) := by
    decide +kernel
  have hreleased : Released impl (.readError 0 true) impl' 0 := by
    refine ⟨Or.inl ?_, ?_⟩
    · rw [hlisted]
      exact List.mem_singleton.mpr rfl
    · rw [hgone]
      exact List.not_mem_nil
  exact ⟨impl, impl', hrun, hstep, hreleased,
    released_unused_of_orderly {} hok hrun hstep 0 hreleased⟩

/-- The server closes the connection while a write is suspended. The read loop shuts the
session down, which clears the flag of the write loop, and releases the transport. -/
theorem released_in_use :
    ¬ ∀ (options : SessionOptions) (actions : List Action) (impl impl' : Impl) (action : Action),
      exec (step options) {} actions = some impl → step options impl action = some impl' →
        ∀ transport, Released impl action impl' transport → ¬ impl'.InUse transport := by
  intro h
  have hunused := h {}
    [.request .preconnect {} firstSubmission, .resolved 0, .established 0 true [0] firstSubmission,
      .readLoopStarts 0, .writeLoopStarts 0] _ _ (.readError 0 false) rfl rfl 0
  refine hunused ⟨Or.inr ⟨rfl, rfl, rfl⟩, List.not_mem_nil⟩ ?_
  exact ⟨{ generation := 1, transport := some 0 }, List.mem_singleton.mpr rfl, rfl⟩

end HttpClient.H2
