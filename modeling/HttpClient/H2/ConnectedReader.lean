import HttpClient.H2.Recovery
import HttpClient.H2.Wiring

/-!
# Who reads from a connected session

A session that is connected should have a read loop for its connection: without one no
response arrives, and every request runs into its timeout.

The loop has three ways to end. If a read fails, the session shuts down, and is not
connected any more. If the loop finds that it no longer serves the connection, or if the
engine rejects what was read, it ends and leaves everything else as it is. The connection
then stays up, unread, unless another loop of the same generation is left.

A loop of the current generation finds that it does not serve the connection if a shutdown
came while a connect attempt was under way: the attempt is not told and finishes.

## Main definitions

* `Impl.Read` — a connected session has a read loop for its generation
* `Impl.stopsReading` — the read loop that a step ends without ending the connection
* `KeepsReader` — the connection is not left without a reader

## Main results

* `read_iff_keepsReader` — one step
* `read_throughout_iff` — the runs in which every connected session is being read
* `unread_after_rejection` — a session that stays connected without a reader
-/

set_option autoImplicit false

namespace HttpClient.H2

open Semantics Text

variable {options : SessionOptions} {impl impl' : Impl} {i : Nat}

/-! ### Readers -/

/-- A read loop for the current generation has been started and has not ended. -/
def Wiring.HasReader (w : Wiring) : Prop :=
  ∃ loop ∈ w.io.readLoops, loop.generation = w.ioGeneration

def Wiring.Read (w : Wiring) : Prop := w.connected = true → w.HasReader

/-- If the session is connected, it is being read. -/
def Impl.Read (impl : Impl) : Prop :=
  impl.link.connected = true →
    ∃ loop ∈ impl.io.readLoops, loop.generation = impl.link.ioGeneration

instance : DecidablePred Impl.Read := fun impl =>
  inferInstanceAs (Decidable (impl.link.connected = true →
    ∃ loop ∈ impl.io.readLoops, loop.generation = impl.link.ioGeneration))

/-- The read loop that a step ends while it leaves the connection as it is. -/
def Impl.stopsReading (impl : Impl) : Action → Option Nat
  -- the loop finds that it does not serve the connection
  | .readLoopStarts i => if impl.serves impl.link.ioGeneration then none else some i
  -- so does the loop after a read, or the engine has rejected the data
  | .readData i _ fatal _ =>
    if fatal || !impl.serves impl.link.ioGeneration then some i else none
  -- the shutdown that follows a failed read has nothing to do
  | .readError i _ => if impl.stops then none else some i
  | _ => none

/-- A step that ends a read loop of a connected session leaves another one. -/
def KeepsReader (impl : Impl) (action : Action) : Prop :=
  ∀ i ∈ impl.stopsReading action, impl.link.connected = true →
    ∃ loop ∈ impl.io.readLoops.eraseIdx i, loop.generation = impl.link.ioGeneration

instance (impl : Impl) (action : Action) : Decidable (KeepsReader impl action) :=
  inferInstanceAs (Decidable (∀ i ∈ impl.stopsReading action, impl.link.connected = true →
    ∃ loop ∈ impl.io.readLoops.eraseIdx i, loop.generation = impl.link.ioGeneration))

/-! ### Moves -/

namespace Wiring

variable {w : Wiring}

/-- Output is pumped past the read loops. -/
theorem pump_reading (w : Wiring) (output : Bytes) :
    (w.pump output).connected = w.connected ∧ (w.pump output).ioGeneration = w.ioGeneration ∧
      (w.pump output).stopping = w.stopping ∧ (w.pump output).stream = w.stream ∧
      (w.pump output).io.readLoops = w.io.readLoops := by
  unfold pump
  dsimp only
  split_ifs <;> exact ⟨rfl, rfl, rfl, rfl, rfl⟩

theorem releaseClosedStreams_loops (io : Io) :
    io.releaseClosedStreams.readLoops = io.readLoops ∧
      io.releaseClosedStreams.writeLoops = io.writeLoops := by
  unfold Io.releaseClosedStreams
  split_ifs <;> exact ⟨rfl, rfl⟩

theorem Read.pump (h : w.Read) (output : Bytes) : (w.pump output).Read := by
  obtain ⟨hconnected, hgeneration, -, -, hloops⟩ := pump_reading w output
  unfold Read HasReader
  rw [hconnected, hgeneration, hloops]
  exact h

theorem read_disconnect (w : Wiring) (stopping : Bool) (ioGeneration : Nat) :
    (w.disconnect stopping ioGeneration).Read := by
  intro hconnected
  exact absurd hconnected Bool.false_ne_true

theorem Read.move {closes connects : Wiring → Prop} {w' : Wiring} (h : w.Read)
    (hmove : WireMove closes connects w w') : w'.Read := by
  cases hmove with
  | pump output => exact h.pump output
  | disconnect stopping ioGeneration _ => exact read_disconnect w stopping ioGeneration
  | attempt ioGeneration hdown =>
    intro hconnected
    exact absurd (hdown.symm.trans hconnected) Bool.false_ne_true
  | opened stream => exact h
  | connect _ =>
    intro _
    exact ⟨{ generation := w.ioGeneration }, List.mem_append_right _ (List.mem_singleton.mpr rfl),
      rfl⟩

theorem Read.moves {closes connects : Wiring → Prop} {w' : Wiring} (h : w.Read)
    (hmoves : WireMoves closes connects w w') : w'.Read := by
  induction hmoves with
  | refl => exact h
  | tail _ hmove ih => exact ih.move hmove

/-! ### A read loop is run -/

theorem hasReader_endRead : w.endRead.HasReader ↔ w.HasReader := by
  unfold HasReader endRead
  dsimp only
  rw [(releaseClosedStreams_loops _).1]

/-- Either the loop that runs is of the current generation, or another one is. -/
theorem hasReader_iff {loop : Loop} (hloop : w.io.readLoops[i]? = some loop) :
    w.HasReader ↔ loop.generation = w.ioGeneration ∨ (w.takeRead i).HasReader := by
  obtain ⟨hi, rfl⟩ := List.getElem?_eq_some_iff.mp hloop
  have hperm : (w.io.readLoops[i] :: w.io.readLoops.eraseIdx i).Perm w.io.readLoops :=
    List.getElem_cons_eraseIdx_perm hi
  unfold HasReader takeRead
  constructor
  · rintro ⟨other, hmem, hgeneration⟩
    rcases List.mem_cons.mp (hperm.mem_iff.mpr hmem) with rfl | hmem
    · exact Or.inl hgeneration
    · exact Or.inr ⟨other, hmem, hgeneration⟩
  · rintro (hgeneration | ⟨other, hmem, hgeneration⟩)
    · exact ⟨_, hperm.mem_iff.mp List.mem_cons_self, hgeneration⟩
    · exact ⟨other, hperm.mem_iff.mp (List.mem_cons_of_mem _ hmem), hgeneration⟩

/-- A loop that goes on is put back as it was taken out. -/
theorem hasReader_readPass {generation : Nat} :
    (w.readPass generation).HasReader ↔
      w.serves generation = true ∨ w.HasReader := by
  unfold readPass
  split_ifs with hserves
  · refine iff_of_true ?_ (Or.inl hserves)
    simp only [serves, Bool.and_eq_true, beq_iff_eq] at hserves
    exact ⟨{ generation, transport := w.stream },
      List.mem_append_right _ (List.mem_singleton.mpr rfl), hserves.1.2⟩
  · rw [hasReader_endRead, or_iff_right hserves]

end Wiring

/-! ### Steps -/

theorem read_of_wiring {w : Wiring} (h : impl.wiring = w) : impl.Read ↔ w.Read := by
  subst h
  exact Iff.rfl

/-- Whether the loop that runs goes on does not matter if another one is left. -/
theorem Wiring.Read.goesOn_iff {w base : Wiring} {loop : Loop} (h : w.Read)
    (hat : w.io.readLoops[i]? = some loop) (hconnected : base.connected = w.connected)
    (hserves : base.serves loop.generation = w.serves loop.generation)
    (hreader : base.HasReader ↔ (w.takeRead i).HasReader) :
    (base.readPass loop.generation).Read ↔
      (w.serves w.ioGeneration = false → w.connected = true → (w.takeRead i).HasReader) := by
  have hkept : (base.readPass loop.generation).connected = w.connected := by
    rw [← hconnected]
    unfold readPass
    split_ifs <;> rfl
  unfold Wiring.Read
  rw [hkept, hasReader_readPass, hserves, hreader]
  rw [forall_comm]
  refine forall_congr' fun hup => ?_
  rcases (hasReader_iff hat).mp (h hup) with heq | hother
  · rw [heq, or_iff_not_imp_left, Bool.not_eq_true]
  · exact iff_of_true (Or.inr hother) fun _ => hother

theorem keepsReader_of_none {action : Action} (h : impl.stopsReading action = none) :
    KeepsReader impl action := by
  intro i hi
  rw [h] at hi
  cases hi

theorem keepsReader_iff {action : Action} (h : impl.stopsReading action = some i) :
    KeepsReader impl action ↔
      (impl.wiring.connected = true → (impl.wiring.takeRead i).HasReader) := by
  unfold KeepsReader
  rw [h]
  simp only [Option.mem_some_iff, forall_eq']
  exact Iff.rfl

/-- The steps in which a loop of the current generation goes on if it serves the
connection. -/
theorem keepsReader_iff_of_serves {action : Action}
    (h : impl.stopsReading action =
      if impl.serves impl.link.ioGeneration then none else some i) :
    KeepsReader impl action ↔
      (impl.wiring.serves impl.wiring.ioGeneration = false → impl.wiring.connected = true →
        (impl.wiring.takeRead i).HasReader) := by
  have hsame : impl.wiring.serves impl.wiring.ioGeneration =
      impl.serves impl.link.ioGeneration := rfl
  rw [hsame]
  cases hserves : impl.serves impl.link.ioGeneration with
  | true =>
    rw [hserves, if_pos rfl] at h
    exact iff_of_true (keepsReader_of_none h) fun hnot => absurd hnot Bool.noConfusion
  | false =>
    rw [hserves, if_neg Bool.false_ne_true] at h
    rw [keepsReader_iff h, forall_prop_of_true rfl]

namespace Wiring

variable {w : Wiring}

/-- A read loop ends and the connection stays as it is. -/
theorem read_endRead_iff : (w.takeRead i).endRead.Read ↔
    (w.connected = true → (w.takeRead i).HasReader) := by
  unfold Read
  rw [hasReader_endRead]
  exact Iff.rfl

theorem Read.endWrite (h : w.Read) : w.endWrite.Read := by
  unfold Read HasReader Wiring.endWrite
  dsimp only
  rw [(releaseClosedStreams_loops _).1]
  exact h

theorem Read.writePass (h : w.Read) (generation : Nat) : (w.writePass generation).Read := by
  unfold Wiring.writePass
  dsimp only
  split_ifs
  · exact h
  · exact h
  · exact h
  · exact h.endWrite

end Wiring

/-- A step keeps a connected session read if and only if it does not end the last reader. -/
theorem read_iff_keepsReader {action : Action} (h : impl.Read)
    (hstep : step options impl action = some impl') :
    KeepsReader impl action ↔ impl'.Read := by
  have hread : impl.wiring.Read := h
  by_cases hloop : action.ofLoop = false
  · have hstops : impl.stopsReading action = none := by
      cases action <;> first | rfl | cases hloop
    have hmoves : WireMoves (fun _ => True) (fun _ => True) impl.wiring impl'.wiring :=
      wireMoves_step hloop (fun _ _ _ => trivial) (fun _ _ _ => trivial) hstep
    exact iff_of_true (keepsReader_of_none hstops) (hread.moves hmoves)
  cases action with
  | readLoopStarts i =>
    obtain ⟨loop, hat, hwiring⟩ := wiring_readLoopStarts hstep
    have hgoesOn : ((impl.wiring.takeRead i).readPass loop.generation).Read ↔ _ :=
      hread.goesOn_iff hat rfl rfl Iff.rfl
    rw [read_of_wiring hwiring, keepsReader_iff_of_serves rfl]
    exact hgoesOn.symm
  | readData i frames fatal output =>
    obtain ⟨loop, hat, hwiring⟩ := wiring_readData hstep
    rw [read_of_wiring hwiring]
    cases fatal with
    | true =>
      rw [keepsReader_iff rfl, if_pos rfl]
      exact Wiring.read_endRead_iff.symm
    | false =>
      have hstops : impl.stopsReading (.readData i frames false output) =
          if impl.serves impl.link.ioGeneration then none else some i := by
        unfold Impl.stopsReading
        cases impl.serves impl.link.ioGeneration <;> rfl
      rw [keepsReader_iff_of_serves hstops, if_neg Bool.false_ne_true]
      obtain ⟨hconnected, hgeneration, hstopping, hstream, hloops⟩ :=
        Wiring.pump_reading (impl.wiring.takeRead i) output
      refine (hread.goesOn_iff hat hconnected ?_ ?_).symm
      · unfold Wiring.serves
        rw [hgeneration, hstopping, hstream]
        rfl
      · unfold Wiring.HasReader
        rw [hgeneration, hloops]
  | readError i aborted =>
    obtain ⟨loop, hat, hwiring⟩ := wiring_readError hstep
    rw [read_of_wiring hwiring]
    cases hstops : impl.stops with
    | false =>
      -- a failed read finds the session shut down already
      have hends : impl.stopsReading (.readError i aborted) = some i := by
        simp [Impl.stopsReading, hstops]
      rw [keepsReader_iff hends, Bool.and_false, if_neg Bool.false_ne_true]
      exact Wiring.read_endRead_iff.symm
    | true =>
      have hnone : impl.stopsReading (.readError i aborted) = none := if_pos hstops
      refine iff_of_true (keepsReader_of_none hnone) ?_
      cases hsuperseded : impl.superseded loop aborted with
      | false =>
        intro hconnected
        exact absurd hconnected Bool.false_ne_true
      | true =>
        -- the loop was of an older generation
        refine Wiring.read_endRead_iff.mpr fun hconnected => ?_
        simp only [Impl.superseded, Bool.and_eq_true, decide_eq_true_eq] at hsuperseded
        exact ((Wiring.hasReader_iff hat).mp (hread hconnected)).resolve_left hsuperseded.1
  | writeLoopStarts i =>
    obtain ⟨loop, -, hwiring⟩ := wiring_writeLoopStarts hstep
    refine iff_of_true (keepsReader_of_none rfl) ((read_of_wiring hwiring).mpr ?_)
    have htaken : (impl.wiring.takeWrite i).Read := hread
    exact htaken.writePass loop.generation
  | written i =>
    obtain ⟨loop, -, hwiring⟩ := wiring_written hstep
    refine iff_of_true (keepsReader_of_none rfl) ((read_of_wiring hwiring).mpr ?_)
    have htaken : (impl.wiring.takeWrite i).written.Read := hread
    exact htaken.writePass loop.generation
  | writeError i aborted =>
    obtain ⟨loop, -, hwiring⟩ := wiring_writeError hstep
    refine iff_of_true (keepsReader_of_none rfl) ((read_of_wiring hwiring).mpr ?_)
    split_ifs with hcloses
    · exact (Wiring.read_disconnect _ _ _).endWrite
    · have htaken : (impl.wiring.takeWrite i).Read := hread
      exact htaken.endWrite
  | _ => exact absurd rfl hloop

/-! ### Runs -/

/-- The runs in which every connected session is being read are those in which no step ends
the last reader of a connected session. -/
theorem read_throughout_iff (options : SessionOptions) (actions : List Action)
    (hrun : exec (step options) {} actions = some impl) :
    Along (step options) KeepsReader {} actions ↔
      ∀ before after reached, actions = before ++ after →
        exec (step options) {} before = some reached → reached.Read :=
  along_iff_throughout (fun _ _ _ h hstep => read_iff_keepsReader h hstep)
    (fun hconnected => absurd hconnected Bool.false_ne_true) hrun

/-- A connection is read, reset, and replaced by another one before the aborted read of the
first one returns. -/
def readAgain : List Action :=
  [.request .preconnect {} firstSubmission, .resolved 0, .established 0 true [] firstSubmission,
    .readLoopStarts 0, .readData 0 [] false [], .reset,
    .request .preconnect {} firstSubmission, .resolved 0,
    .established 0 true [] firstSubmission, .readError 0 true]

theorem read_throughout_iff_readAgain :
    ∃ impl, exec (step {}) {} readAgain = some impl ∧ impl.link.connected = true ∧ impl.Read := by
  refine ⟨_, rfl, rfl, ?_⟩
  have hkeeps : Along (step {}) KeepsReader {} readAgain := by decide +kernel
  exact (read_throughout_iff {} readAgain rfl).mp hkeeps readAgain [] _
    (List.append_nil _).symm rfl

/-- The engine rejects what the server has sent. The session stays connected, and nothing
is read any more. -/
theorem unread_after_rejection :
    ¬ ∀ (options : SessionOptions) (actions : List Action) (impl : Impl),
      exec (step options) {} actions = some impl → impl.Read := by
  intro h
  have hread := h {}
    [.request .preconnect {} firstSubmission, .resolved 0, .established 0 true [] firstSubmission,
      .readLoopStarts 0, .readData 0 [] true []] _ rfl
  exact absurd (hread rfl) (by decide)

end HttpClient.H2
