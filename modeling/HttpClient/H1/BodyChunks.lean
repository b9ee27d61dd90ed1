import HttpClient.H1.ReadLoops

/-!
# What the handler of an exchange is given

With a body chunk handler, an exchange hands on the part of the body that has arrived with the
head, and then what each read of the body loop delivers. If the body is stored as well, these
are the bytes it is taken from; no byte beyond the content length is handed on.

## Main results

* `readBody_chunks` — the body loop hands on what it reads
* `chunks_eq_body` — what an exchange hands on is the body of its response
-/

set_option autoImplicit false

namespace HttpClient.H1

open Text

variable {policy : GrowthPolicy} {request : Request} {buf : ReadBuffer} {rest : Bytes}

/-- What the body loop has read is what the network held, up to the content length. -/
theorem BodyRead.taken_eq {contentLength haveBody : Nat} {taken : Bytes} {body : Reading}
    (h : BodyRead request contentLength haveBody buf rest taken body) :
    taken = rest.take (contentLength - haveBody) := by
  rw [← h.length, h.stream, List.take_left]

/-- The body loop: on the events of the network. -/
theorem readBody_chunks {contentLength haveBody : Nat} {chunks : List Bytes}
    {events : List ReadEvent} {body : Reading}
    (h : readBody policy request contentLength haveBody buf chunks rest events = .done body) :
    body.chunks.flatten =
      chunks.flatten ++
        if request.onBodyChunk then rest.take (contentLength - haveBody) else [] := by
  have hnothing : ∀ {haveBody : Nat} (rest : Bytes), ¬ haveBody < contentLength →
      (if request.onBodyChunk then rest.take (contentLength - haveBody) else []) = [] := by
    intro haveBody rest hdone
    rw [Nat.sub_eq_zero_of_le (Nat.not_lt.mp hdone), List.take_zero, ite_self]
  induction events generalizing haveBody buf chunks rest with
  | nil =>
    rw [readBody] at h
    split at h
    · cases h
    · rename_i hdone
      obtain rfl := LoopResult.done.inj h
      rw [hnothing rest hdone, List.append_nil]
  | cons event events ih =>
    unfold readBody at h
    by_cases hmore : haveBody < contentLength
    · rw [if_pos hmore] at h
      cases event with
      | error what => cases h
      | data n =>
        dsimp only at h
        by_cases hnil : rest = []
        · rw [if_pos hnil] at h
          cases h
        · rw [if_neg hnil] at h
          set bytes := rest.take (delivered (min chunkSize (contentLength - haveBody)) n)
            with hbytes
          have hle : bytes.length ≤ contentLength - haveBody := by
            rw [hbytes, List.length_take]
            exact ((Nat.min_le_left _ _).trans (delivered_le _ _)).trans (Nat.min_le_right _ _)
          have htake : bytes = rest.take bytes.length := by
            rw [hbytes, List.length_take, List.take_eq_take_iff]
            omega
          have hsum : contentLength - haveBody =
              bytes.length + (contentLength - (haveBody + bytes.length)) := by
            omega
          rw [ih h]
          cases request.onBodyChunk with
          | false => rfl
          | true =>
            -- the bytes of this read come before those of the next ones
            rw [if_pos rfl, if_pos rfl, if_pos rfl, List.flatten_append, List.flatten_singleton,
              List.append_assoc, hsum, List.take_add, ← htake]
    · rw [if_neg hmore] at h
      obtain rfl := LoopResult.done.inj h
      rw [hnothing rest hmore, List.append_nil]

/-- The empty line is in the buffer. -/
theorem headerEnd_le {text : Bytes} {headerEnd : Nat}
    (h : find headerTerminator text = some headerEnd) : headerEnd + 4 ≤ text.length := by
  obtain ⟨hle, hat, -⟩ := find_eq_some_iff.mp h
  have hlength := hat.length_le
  have hfour : headerTerminator.length = 4 := by decide
  rw [List.length_drop, hfour] at hlength
  omega

/-- What has arrived with the head is handed on first, up to the content length. -/
theorem flatten_firstChunk (request : Request) (contentLength : Nat) (arrived : Bytes) :
    (if request.onBodyChunk = true ∧ 0 < arrived.length then
      [arrived.take (min arrived.length contentLength)] else []).flatten =
        if request.onBodyChunk then arrived.take contentLength else [] := by
  cases request.onBodyChunk with
  | false => rfl
  | true =>
    by_cases hsome : 0 < arrived.length
    · rw [if_pos ⟨rfl, hsome⟩, if_pos rfl, List.flatten_singleton, ← List.take_take]
      exact List.take_of_length_le (List.length_take_le' _ _)
    · have hempty : arrived = [] := List.length_eq_zero_iff.mp (by omega)
      simp [hempty]

/-- An exchange that stores the body of its response has handed on that body. -/
theorem chunks_eq_body {net : Network} {url : ParsedUrl} {absoluteTarget : Bool}
    {stream : Bytes} {ex : Exchanged} (hhandler : request.onBodyChunk = true)
    (hstore : request.storeResponseBody = true)
    (h : runLightH1Exchange net url request absoluteTarget buf stream = .done ex) :
    ex.chunks.flatten = ex.response.body := by
  rw [runLightH1Exchange] at h
  split at h
  · cases h
  · split at h
    · cases h
    · cases h
    · rename_i headerEnd head hheaders
      have hstart := headerEnd_le (readHeaders_done hheaders).found
      rw [finishExchange] at h
      dsimp only at h
      split at h
      · cases h
      · cases h
      · rename_i body hbody
        obtain rfl := LoopResult.done.inj h
        obtain ⟨taken, hread⟩ := readBody_done hbody
        have hchunks := readBody_chunks hbody
        have hdata := hread.data
        have hlength := hread.length
        rw [if_pos hhandler, ← hread.taken_eq] at hchunks
        rw [if_pos hstore] at hdata
        set contentLength := parseContentLength
          (({ storage := head.buf.storage, length := headerEnd + 4 } : View).read net.freed
            head.buf)
        set arrived := head.buf.data.drop (headerEnd + 4) with harrived
        have hhave : head.buf.data.length - (headerEnd + 4) = arrived.length := by
          rw [harrived, List.length_drop]
        have hfirst := flatten_firstChunk request contentLength arrived
        rw [if_pos hhandler] at hfirst
        have hall : body.buf.data.drop (headerEnd + 4) = arrived ++ taken := by
          rw [hdata, List.drop_append_of_le_length hstart]
        rw [hhave] at hchunks hlength
        dsimp only
        rw [hchunks, hfirst, hall]
        by_cases hlong : contentLength ≤ arrived.length
        · have hnone : taken = [] := List.length_eq_zero_iff.mp (by omega)
          by_cases hempty : 0 < contentLength
          · rw [if_pos ⟨hstore, hempty⟩, hnone, List.append_nil, List.append_nil]
          · rw [if_neg fun hboth => hempty hboth.2, hnone, List.append_nil]
            simp [Nat.eq_zero_of_not_pos hempty]
        · rw [if_pos ⟨hstore, by omega⟩, List.take_of_length_le (by omega),
            List.take_of_length_le (by rw [List.length_append]; omega)]

end HttpClient.H1
