import HttpClient.H1.HeadLines
import HttpClient.H1.HeadView
import HttpClient.H1.MessageBoundary

/-!
# Reading a response in parts

However a response is split into parts, the exchange should yield the same: the status and the
header lines of the head and the body, as far as the request asks for them. It does if the body
is not stored, or if the read buffer has room for head and body once the head has been read.
Else the exchange reads the head from freed memory, and the status is what that happens to
hold.

## Main definitions

* `ResponseRead`, `ReadWhole` — an exchange has read the response

## Main results

* `exchange_delivering` — what the exchange does with a response in parts
* `readWhole_iff` — the splits with which the response is read
* `not_readWhole_download` — a body of 9000 bytes
-/

set_option autoImplicit false

namespace HttpClient.H1

open Text

/-- An exchange has read a response of the given head and body, and nothing else. -/
structure ResponseRead (request : Request) (head body : Bytes) (ex : Exchanged) : Prop where
  rest : ex.rest = []
  status : ex.response.status = parseStatusCode head
  headers : if request.storeResponseHeaders then LinesOf head ex.response.headers
    else ex.response.headers = []
  content : ex.response.body = if request.storeResponseBody then body else []
  chunks : ex.chunks.flatten = if request.onBodyChunk then body else []

/-- Whatever freed memory holds, an exchange returns that has read the response. -/
def ReadWhole (policy : GrowthPolicy) (request : Request) (buf : ReadBuffer) (head body : Bytes)
    (parts : List Bytes) : Prop :=
  ∀ freed url absoluteTarget, ∃ ex,
    runLightH1Exchange (delivering policy freed parts) url request absoluteTarget buf
        (head ++ body) = .done ex ∧
      ResponseRead request head body ex

variable {request : Request} {buf : ReadBuffer} {head body : Bytes} {parts : List Bytes}

/-- A head within the limit is never refused. -/
theorem not_refused_of_le (hhead : IsHead head) (hshort : head.length ≤ headerLimit)
    (parts : List Bytes) : ¬ Refused head.length parts := by
  have hfour := hhead.four_le
  have hpart := length_dropLast_covering_lt (show 0 < head.length by omega) parts
  rw [Refused]
  omega

/-- What an exchange returns that has read a response in parts: but for the view, which yields
the head or not, all is as it should be. -/
structure Delivered (request : Request) (body view : Bytes) (ex : Exchanged) : Prop where
  rest : ex.rest = []
  status : ex.response.status = parseStatusCode view
  headers : ex.response.headers = if request.storeResponseHeaders then headLines view else []
  content : ex.response.body = if request.storeResponseBody then body else []
  chunks : ex.chunks.flatten = if request.onBodyChunk then body else []

/-- The exchange returns with the body. -/
theorem exchange_delivering (policy : GrowthPolicy) (freed : Nat → UInt8) (request : Request)
    (buf : ReadBuffer) (url : ParsedUrl) (absoluteTarget : Bool) (hhead : IsHead head)
    (haccepted : ¬ Refused head.length parts) (hparts : Segments (head ++ body) parts)
    (hbody : body.length = parseContentLength head) :
    ∃ ex read, runLightH1Exchange (delivering policy freed parts) url request absoluteTarget buf
        (head ++ body) = .done ex ∧
      bodyLoop (delivering policy freed parts) request (head.length - 4)
        (headReading policy buf head parts) = .done read ∧
      (headReading policy buf head parts).buf.data <+: read.buf.data ∧
      Delivered request body ((headersView (head.length - 4)
        (headReading policy buf head parts)).read freed read.buf) ex := by
  have hread := headRead policy buf hparts
  have hheaders := (readHeaders_delivering policy buf hhead hparts).2 haccepted
  obtain ⟨read, hloop⟩ : ∃ read, bodyLoop (delivering policy freed parts) request (head.length - 4)
      (headReading policy buf head parts) = .done read :=
    (exists_bodyLoop_iff hhead hread).mpr hbody.ge
  set start := headReading policy buf head parts with hstart
  have hend : head.length - 4 + 4 = head.length := hhead.end_eq
  have hview : (headersView (head.length - 4) start).read (delivering policy freed parts).freed
      start.buf = head := read_headersView hhead hread List.prefix_rfl rfl
  have hbodyLoop := hloop
  rw [bodyLoop_eq hhead hread] at hbodyLoop
  obtain ⟨taken, hbodyRead⟩ := readBody_done hbodyLoop
  have hchunks := readBody_chunks hbodyLoop
  -- the body is what has arrived with the head, and what the loop has read
  have hstream := hread.stream
  have hcovers := hread.covers
  have hlength := congrArg List.length hstream
  have htaken := hbodyRead.length
  have hrest := congrArg List.length hbodyRead.stream
  rw [List.length_append, List.length_append] at hlength
  rw [List.length_append] at hrest
  have hnothing : read.rest = [] := List.eq_nil_of_length_eq_zero (by omega)
  have hall : taken = start.rest := by rw [hbodyRead.stream, hnothing, List.append_nil]
  have harrived : start.buf.data.drop head.length ++ start.rest = body := by
    have hdrop := congrArg (List.drop head.length) hstream
    rw [List.drop_left, List.drop_append_of_le_length hcovers] at hdrop
    exact hdrop.symm
  have hdata : read.buf.data.drop head.length =
      start.buf.data.drop head.length ++ if request.storeResponseBody then taken else [] := by
    rw [hbodyRead.data, List.drop_append_of_le_length hcovers]
  have hprefix : start.buf.data <+: read.buf.data := by
    rw [hbodyRead.data]
    exact List.prefix_append _ _
  have hrun : runLightH1Exchange (delivering policy freed parts) url request absoluteTarget buf
      (head ++ body) = finishExchange (delivering policy freed parts) request
        (writeBuffers url request absoluteTarget) (head.length - 4) start := by
    rw [runLightH1Exchange]
    dsimp only [delivering]
    rw [hheaders]
  rw [finishExchange_eq, hloop] at hrun
  refine ⟨_, read, hrun, hloop, hprefix, hnothing, rfl, rfl, ?_, ?_⟩
  · simp only [hview, hend, hdata, hall]
    cases request.storeResponseBody with
    | false => rfl
    | true =>
      rw [if_pos rfl, if_pos rfl, harrived, List.take_of_length_le hbody.le]
      split
      · rfl
      · rename_i hempty
        have hzero : parseContentLength head = 0 := by
          by_contra hsome
          exact hempty ⟨rfl, Nat.pos_of_ne_zero hsome⟩
        exact (List.eq_nil_of_length_eq_zero (hbody.trans hzero)).symm
  · rw [hchunks, flatten_firstChunk, ← htaken, hall, List.take_length]
    cases request.onBodyChunk with
    | false => rfl
    | true =>
      rw [if_pos rfl, if_pos rfl, if_pos rfl, List.take_of_length_le, harrived]
      rw [List.length_drop]
      omega

/-- Freed memory can hold a status line without a status. -/
theorem parseStatusCode_freed {n : Nat} (h : 4 ≤ n) :
    parseStatusCode ((List.range n).map fun i => if i = 0 then 32 else 49) = 111 := by
  obtain ⟨m, rfl⟩ := Nat.exists_eq_add_of_le h
  rw [List.range_add, List.map_append]
  simp [parseStatusCode, findByte, List.range_succ, isDigit, digitValue]

/-- Whatever the status should be, freed memory can hold another one. -/
theorem exists_freed (status : Nat) {n : Nat} (h : 4 ≤ n) :
    ∃ freed : Nat → UInt8, parseStatusCode ((List.range n).map freed) ≠ status := by
  by_cases hzero : status = 0
  · refine ⟨fun i => if i = 0 then 32 else 49, ?_⟩
    rw [parseStatusCode_freed h, hzero]
    decide
  · refine ⟨fun _ => 0, ?_⟩
    rw [parseStatusCode_zeros]
    exact fun hsame => hzero hsame.symm

/-- If the buffer has moved, the response is not read. -/
theorem not_readWhole (policy : GrowthPolicy) (request : Request) (buf : ReadBuffer)
    (hhead : IsHead head) (hshort : head.length ≤ headerLimit)
    (hparts : Segments (head ++ body) parts) (hbody : body.length = parseContentLength head)
    (hstore : request.storeResponseBody = true)
    (hover : capacityAfter policy buf.capacity 0 ((covering head.length parts).map List.length) <
      head.length + body.length) :
    ¬ ReadWhole policy request buf head body parts := by
  intro h
  obtain ⟨freed, hfreed⟩ := exists_freed (parseStatusCode head) hhead.four_le
  rw [hbody] at hover
  obtain ⟨read, hloop, hmoved⟩ :=
    exists_moved policy freed request buf hhead hparts hbody.ge hstore hover
  obtain ⟨ex, read', hex, hloop', -, hdelivered⟩ :=
    exchange_delivering policy freed request buf ⟨[], [], [], []⟩ false hhead
      (not_refused_of_le hhead hshort parts) hparts hbody
  obtain ⟨ex', hex', hresponse⟩ := h freed ⟨[], [], [], []⟩ false
  obtain rfl := LoopResult.done.inj (hex.symm.trans hex')
  obtain rfl := LoopResult.done.inj (hloop.symm.trans hloop')
  -- the status is read from freed memory
  have hstatus := hdelivered.status
  have hend : (headersView (head.length - 4) (headReading policy buf head parts)).length =
      head.length := hhead.end_eq
  rw [View.read, if_neg hmoved, hend, hresponse.status] at hstatus
  exact hfreed hstatus.symm

/-- A response is read, however it is split, exactly if its body is not stored, or the buffer
has room for head and body once the parts that deliver the head have been appended. -/
theorem readWhole_iff (hhead : IsHead head) (hshort : head.length ≤ headerLimit)
    (hparts : Segments (head ++ body) parts) (hbody : body.length = parseContentLength head)
    (policy : GrowthPolicy) (request : Request) (buf : ReadBuffer) :
    ReadWhole policy request buf head body parts ↔
      request.storeResponseBody = false ∨ head.length + body.length ≤
        capacityAfter policy buf.capacity 0 ((covering head.length parts).map List.length) := by
  constructor
  · intro h
    by_contra hnot
    rw [not_or, Bool.not_eq_false, Nat.not_le] at hnot
    exact not_readWhole policy request buf hhead hshort hparts hbody hnot.1 hnot.2 h
  · intro hkept freed url absoluteTarget
    have hread := headRead policy buf hparts
    obtain ⟨ex, read, hex, hloop, hprefix, hdelivered⟩ :=
      exchange_delivering policy freed request buf url absoluteTarget hhead
        (not_refused_of_le hhead hshort parts) hparts hbody
    rw [hbody] at hkept
    have hsame := (storage_headersView_iff hhead hread hloop).mpr hkept
    rw [read_headersView hhead hread hprefix hsame] at hdelivered
    refine ⟨ex, hex, hdelivered.rest, hdelivered.status, ?_, hdelivered.content,
      hdelivered.chunks⟩
    rw [hdelivered.headers]
    split
    · exact linesOf_headLines hhead
    · rfl

theorem readWhole_iff_short :
    ReadWhole doubling { storeResponseHeaders := false, onBodyChunk := true } newBuffer shortHead
      (str "ok") [shortHead, str "ok"] :=
  (readWhole_iff isHead_shortHead (by decide) segments_short (by decide +kernel) doubling
    { storeResponseHeaders := false, onBodyChunk := true } newBuffer).mpr
      (.inr (by decide +kernel))

/-- A body of 9000 bytes, on a new connection, with the head in a read of its own. -/
theorem not_readWhole_download :
    ¬ ReadWhole doubling {} newBuffer downloadHead downloadBody [downloadHead, downloadBody] := by
  apply not_readWhole doubling {} newBuffer isHead_downloadHead (by decide) segments_download
  · rw [downloadBody, List.length_replicate, parseContentLength_downloadHead]
  · rfl
  · rw [capacityAfter_download, downloadBody, List.length_replicate]
    decide

end HttpClient.H1
