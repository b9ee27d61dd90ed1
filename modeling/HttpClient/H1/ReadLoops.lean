import HttpClient.H1.HeadParse

/-!
# What the read loops do

One lemma for each read loop says what has happened when it returns, whatever the
network did; the lemma about an exchange combines them. A second group shows that
the loops do return: on a network that delivers the head in full reads and then
single bytes, the header loop stops exactly at the end of the head.

## Main definitions

* `HeadersRead`, `BodyRead` — the state after each loop
* `exactFit` — the growth policy that never allocates more than is needed

## Main results

* `readHeaders_done`, `readBody_done` — what a loop that returns has read
* `readHeaders_exact`, `readBody_returns` — networks on which the loops return
* `runLightH1Exchange_done` — what an exchange that returns has done
-/

set_option autoImplicit false

namespace HttpClient.H1

open Text

variable {policy : GrowthPolicy} {request : Request} {buf : ReadBuffer} {rest : Bytes}

/-! ### The header loop -/

/-- The header loop, started on `buf`, has returned with the empty line at `headerEnd`. -/
structure HeadersRead (buf : ReadBuffer) (rest : Bytes) (headerEnd : Nat) (head : Reading) :
    Prop where
  stream : buf.data ++ rest = head.buf.data ++ head.rest
  found : find headerTerminator head.buf.data = some headerEnd
  capacity : buf.capacity ≤ head.buf.capacity
  size : buf.data.length ≤ headerLimit → head.buf.data.length ≤ headerLimit + chunkSize

theorem delivered_le (room n : Nat) : delivered room n ≤ room := Nat.min_le_left _ _

theorem readHeaders_done {events : List ReadEvent} {headerEnd : Nat} {head : Reading}
    (h : readHeaders policy buf rest events = .done (headerEnd, head)) :
    HeadersRead buf rest headerEnd head := by
  induction events generalizing buf rest with
  | nil => cases h
  | cons event events ih =>
    cases event with
    | error what => cases h
    | data n =>
      rw [readHeaders] at h
      split_ifs at h with hrest
      have hread : (rest.take (delivered chunkSize n)).length ≤ chunkSize := by
        rw [List.length_take]
        exact (Nat.min_le_left _ _).trans (delivered_le _ _)
      dsimp only at h
      split at h
      case h_1 at' hfound =>
        obtain ⟨rfl, rfl⟩ : at' = headerEnd ∧ _ = head := by simpa using h
        refine ⟨?_, hfound, ReadBuffer.capacity_le_append, fun hsize => ?_⟩
        · simp [List.append_assoc]
        · simp only [ReadBuffer.append_data, List.length_append]
          omega
      case h_2 hnone =>
        split_ifs at h with hlimit
        obtain ⟨hstream, hfound, hcapacity, hsize⟩ := ih h
        refine ⟨?_, hfound, ReadBuffer.capacity_le_append.trans hcapacity,
          fun _ => hsize (Nat.not_lt.mp hlimit)⟩
        rw [← hstream, ReadBuffer.append_data, List.append_assoc, List.take_append_drop]

/-! ### The body loop -/

/-- The body loop, started with `haveBody` bytes there, has read `taken`. -/
structure BodyRead (request : Request) (contentLength haveBody : Nat) (buf : ReadBuffer)
    (rest taken : Bytes) (body : Reading) : Prop where
  stream : rest = taken ++ body.rest
  length : taken.length = contentLength - haveBody
  data : body.buf.data = buf.data ++ if request.storeResponseBody then taken else []
  capacity : buf.capacity ≤ body.buf.capacity
  storage : buf.storage ≤ body.buf.storage
  /-- The buffer stays where it is as long as the bytes fit. -/
  intact : body.buf.data.length ≤ buf.capacity → body.buf.storage = buf.storage
  /-- The buffer moves if they do not. -/
  moved : buf.capacity < body.buf.data.length → buf.storage < body.buf.storage

/-- A body loop that has nothing to read leaves everything as it is. -/
theorem BodyRead.nothing {contentLength haveBody : Nat} (chunks : List Bytes)
    (events : List ReadEvent) (h : contentLength ≤ haveBody) :
    BodyRead request contentLength haveBody buf rest [] { buf, chunks, rest, events } where
  stream := rfl
  length := (Nat.sub_eq_zero_of_le h).symm
  data := by simp
  capacity := le_rfl
  storage := le_rfl
  intact := fun _ => rfl
  moved := fun hlt => absurd buf.fits (Nat.not_le.mpr hlt)

/-- One read and then the rest of the body. -/
theorem BodyRead.cons {contentLength haveBody : Nat} {bytes taken : Bytes} {body : Reading}
    (hle : bytes.length ≤ contentLength - haveBody)
    (h : BodyRead request contentLength (haveBody + bytes.length)
      (if request.storeResponseBody then buf.append policy bytes else buf) rest taken body) :
    BodyRead request contentLength haveBody buf (bytes ++ rest) (bytes ++ taken) body := by
  obtain ⟨hstream, hlength, hdata, hcapacity, hstorage, hintact, hmoved⟩ := h
  have htotal : (bytes ++ taken).length = contentLength - haveBody := by
    rw [List.length_append]
    omega
  cases hstore : request.storeResponseBody with
  | false =>
    simp only [hstore, Bool.false_eq_true, if_false] at hdata hcapacity hstorage hintact hmoved
    exact ⟨by rw [hstream, List.append_assoc], htotal, by simpa [hstore] using hdata, hcapacity,
      hstorage, hintact, hmoved⟩
  | true =>
    simp only [hstore, if_true, ReadBuffer.append_data] at hdata hcapacity hstorage hintact hmoved
    have hlen : body.buf.data.length = (buf.data ++ bytes).length + taken.length := by
      rw [hdata, List.length_append]
    refine ⟨by rw [hstream, List.append_assoc], htotal, by rw [hdata]; simp [hstore],
      ReadBuffer.capacity_le_append.trans hcapacity,
      ReadBuffer.storage_le_append.trans hstorage, fun hfit => ?_, fun hover => ?_⟩
    · have happend := ReadBuffer.append_of_le policy
        (show (buf.data ++ bytes).length ≤ buf.capacity by omega)
      rw [← happend.2]
      exact hintact (happend.1 ▸ hfit)
    · rcases Nat.lt_or_ge buf.capacity (buf.data ++ bytes).length with hnow | hlater
      · have happend := ReadBuffer.append_of_lt policy hnow
        omega
      · have happend := ReadBuffer.append_of_le policy hlater
        rw [← happend.2]
        exact hmoved (happend.1 ▸ hover)

theorem readBody_done {contentLength haveBody : Nat} {chunks : List Bytes}
    {events : List ReadEvent} {body : Reading}
    (h : readBody policy request contentLength haveBody buf chunks rest events = .done body) :
    ∃ taken, BodyRead request contentLength haveBody buf rest taken body := by
  induction events generalizing haveBody buf chunks rest with
  | nil =>
    rw [readBody] at h
    split_ifs at h with hmore
    obtain rfl := LoopResult.done.inj h
    exact ⟨[], .nothing chunks [] (Nat.not_lt.mp hmore)⟩
  | cons event events ih =>
    unfold readBody at h
    by_cases hmore : haveBody < contentLength
    · rw [if_pos hmore] at h
      cases event with
      | error what => cases h
      | data n =>
        rcases eq_or_ne rest [] with hnil | hne
        · rw [hnil] at h
          cases h
        · dsimp only at h
          rw [if_neg hne] at h
          set bytes := rest.take (delivered (min chunkSize (contentLength - haveBody)) n)
            with hbytes
          have hle : bytes.length ≤ contentLength - haveBody := by
            rw [hbytes, List.length_take]
            exact ((Nat.min_le_left _ _).trans (delivered_le _ _)).trans (Nat.min_le_right _ _)
          have hsplit : bytes ++ rest.drop bytes.length = rest :=
            List.prefix_append_drop (List.take_prefix _ rest) ▸ rfl
          obtain ⟨taken, hbody⟩ := ih h
          exact ⟨bytes ++ taken, hsplit ▸ hbody.cons hle⟩
    · rw [if_neg hmore] at h
      obtain rfl := LoopResult.done.inj h
      exact ⟨[], .nothing chunks (event :: events) (Nat.not_lt.mp hmore)⟩

/-! ### Networks on which the loops return -/

/-- Grow to exactly what is needed. -/
def exactFit : GrowthPolicy where
  grow _ needed := needed
  needed_le_grow _ _ := le_rfl

/-- One read of the header loop, which delivers `part`. -/
theorem readHeaders_part {part : Bytes} {events : List ReadEvent} (hne : part ≠ [])
    (hroom : part.length ≤ chunkSize) :
    readHeaders policy buf (part ++ rest) (.data part.length :: events) =
      match find headerTerminator (buf.data ++ part) with
      | some headerEnd =>
        .done (headerEnd, { buf := buf.append policy part, chunks := [], rest, events })
      | none =>
        if headerLimit < (buf.data ++ part).length then
          .threw (str "h1 response headers too large")
        else readHeaders policy (buf.append policy part) rest events := by
  have hpos := List.length_pos_of_ne_nil hne
  have hdelivered : delivered chunkSize part.length = part.length := by
    rw [delivered]
    omega
  have hmore : part ++ rest ≠ [] := List.append_ne_nil_of_left_ne_nil hne rest
  cases hfind : find headerTerminator (buf.data ++ part) with
  | none =>
    simp only [readHeaders, hmore, if_false, hdelivered, List.take_left, List.drop_left,
      ReadBuffer.append_data, hfind]
  | some headerEnd =>
    simp only [readHeaders, hmore, if_false, hdelivered, List.take_left, List.drop_left,
      ReadBuffer.append_data, hfind]

/-- A read of `part` that completes the empty line ends the header loop. -/
theorem readHeaders_found {part : Bytes} {headerEnd : Nat} {events : List ReadEvent}
    (hne : part ≠ []) (hroom : part.length ≤ chunkSize)
    (hfound : find headerTerminator (buf.data ++ part) = some headerEnd) :
    readHeaders policy buf (part ++ rest) (.data part.length :: events) =
      .done (headerEnd, { buf := buf.append policy part, chunks := [], rest, events }) := by
  rw [readHeaders_part hne hroom, hfound]

/-- A read of `part` that does not complete the empty line continues the header loop. -/
theorem readHeaders_more {part : Bytes} {events : List ReadEvent}
    (hne : part ≠ []) (hroom : part.length ≤ chunkSize)
    (hnone : find headerTerminator (buf.data ++ part) = none)
    (hlimit : (buf.data ++ part).length ≤ headerLimit) :
    readHeaders policy buf (part ++ rest) (.data part.length :: events) =
      readHeaders policy (buf.append policy part) rest events := by
  rw [readHeaders_part hne hroom, hnone]
  exact if_neg (Nat.not_lt.mpr hlimit)

/-- A read that leaves the head incomplete and the buffer too long ends the header loop. -/
theorem readHeaders_tooLarge {part : Bytes} {events : List ReadEvent} (hne : part ≠ [])
    (hroom : part.length ≤ chunkSize) (hnone : find headerTerminator (buf.data ++ part) = none)
    (hlimit : headerLimit < (buf.data ++ part).length) :
    readHeaders policy buf (part ++ rest) (.data part.length :: events) =
      .threw (str "h1 response headers too large") := by
  rw [readHeaders_part hne hroom, hnone]
  exact if_pos hlimit

/-- On some network the header loop, which still has `unread` of the head to read,
stops exactly at the end of the head. -/
def StopsAtHead (policy : GrowthPolicy) (buf : ReadBuffer) (head unread rest : Bytes) : Prop :=
  ∃ events, ∀ later, ∃ buf',
    readHeaders policy buf (unread ++ rest) (events ++ later) =
        .done (head.length - 4, { buf := buf', chunks := [], rest, events := later }) ∧
      buf'.data = head

variable {head : Bytes}

/-- One read delivers the rest of the head. -/
theorem stopsAtHead_of_last {unread : Bytes} (hhead : buf.data ++ unread = head)
    (hfound : find headerTerminator head = some (head.length - 4))
    (hunread : unread ≠ []) (hroom : unread.length ≤ chunkSize) :
    StopsAtHead policy buf head unread rest := by
  refine ⟨[.data unread.length], fun later => ⟨buf.append policy unread, ?_, ?_⟩⟩
  · exact readHeaders_found hunread hroom (hhead.symm ▸ hfound)
  · rw [ReadBuffer.append_data, hhead]

/-- Reads of full size and one of the remaining size stop the header loop exactly at
the end of the head. The induction is on the number of full reads. -/
theorem readHeaders_exact (full : Nat) {unread : Bytes} (hhead : buf.data ++ unread = head)
    (hfound : find headerTerminator head = some (head.length - 4)) (hlong : 4 ≤ head.length)
    (hunread : unread ≠ []) (hlen : unread.length ≤ chunkSize * (full + 1))
    (hlimit : buf.data.length + chunkSize * full ≤ headerLimit) :
    StopsAtHead policy buf head unread rest := by
  -- each full read but the last leaves the terminator unread
  induction full generalizing buf unread with
  | zero => exact stopsAtHead_of_last hhead hfound hunread (by omega)
  | succ full ih =>
    rcases Nat.lt_or_ge chunkSize unread.length with hmore | hlast
    swap
    · exact stopsAtHead_of_last hhead hfound hunread hlast
    have hpart : (unread.take chunkSize).length = chunkSize :=
      List.length_take_of_le hmore.le
    have hrest : (unread.drop chunkSize).length = unread.length - chunkSize := List.length_drop
    have hsplit : (buf.data ++ unread.take chunkSize) ++ unread.drop chunkSize = head := by
      rw [List.append_assoc, List.take_append_drop, hhead]
    have hsucc : ∀ k, chunkSize * (k + 1) = chunkSize * k + chunkSize := Nat.mul_succ chunkSize
    have hchunk : 0 < chunkSize := by decide
    have hpart_ne : unread.take chunkSize ≠ [] := by
      rw [← List.length_pos_iff, hpart]
      exact hchunk
    have hrest_ne : unread.drop chunkSize ≠ [] := by
      rw [← List.length_pos_iff, hrest]
      omega
    have hnone : find headerTerminator (buf.data ++ unread.take chunkSize) = none := by
      have hterminator : headerTerminator.length = 4 := by decide
      have hshorter := congrArg List.length hsplit
      rw [List.length_append, hrest] at hshorter
      rw [find_prefix_eq ⟨_, hsplit⟩ hfound, if_neg (by omega)]
    have hnow : (buf.data ++ unread.take chunkSize).length + chunkSize * full ≤ headerLimit := by
      rw [List.length_append, hpart, Nat.add_assoc, Nat.add_comm chunkSize, ← hsucc]
      exact hlimit
    obtain ⟨events, hevents⟩ :
        StopsAtHead policy (buf.append policy (unread.take chunkSize)) head
          (unread.drop chunkSize) rest :=
      ih (by rw [ReadBuffer.append_data, hsplit]) hrest_ne
        (by rw [hrest, Nat.sub_le_iff_le_add, ← hsucc]; exact hlen)
        (by rw [ReadBuffer.append_data]; exact hnow)
    refine ⟨.data (unread.take chunkSize).length :: events, fun later => ?_⟩
    obtain ⟨buf', hrun, hdata⟩ := hevents later
    refine ⟨buf', ?_, hdata⟩
    have hstream : unread ++ rest = unread.take chunkSize ++ (unread.drop chunkSize ++ rest) := by
      rw [← List.append_assoc, List.take_append_drop]
    rw [hstream, List.cons_append, readHeaders_more hpart_ne hpart.le hnone
      ((Nat.le_add_right _ _).trans hnow), hrun]

/-- On a network that delivers single bytes the body loop returns. -/
theorem readBody_returns {contentLength haveBody : Nat} {chunks : List Bytes}
    (h : contentLength - haveBody ≤ rest.length) :
    ∃ body, readBody policy request contentLength haveBody buf chunks rest
      (List.replicate (contentLength - haveBody) (.data 1)) = .done body := by
  generalize hmissing : contentLength - haveBody = missing at h ⊢
  -- on the bytes missing: every read delivers one of them
  induction missing generalizing haveBody buf chunks rest with
  | zero => exact ⟨_, by rw [List.replicate_zero, readBody, if_neg (by omega)]⟩
  | succ missing ih =>
    obtain ⟨c, cs, rfl⟩ := List.exists_cons_of_length_pos (Nat.lt_of_lt_of_le missing.succ_pos h)
    have hdelivered : delivered (min chunkSize (contentLength - haveBody)) 1 = 1 := by
      have : 0 < chunkSize := by decide
      rw [delivered]
      omega
    have htake : (c :: cs).take (delivered (min chunkSize (contentLength - haveBody)) 1) = [c] := by
      rw [hdelivered]
      rfl
    rw [List.replicate_succ]
    unfold readBody
    rw [if_pos (by omega)]
    dsimp only
    rw [if_neg (List.cons_ne_nil c cs), htake]
    exact ih (by simp; omega) (by simpa using h)

/-! ### One exchange -/

/-- What an exchange that returns has done. -/
theorem runLightH1Exchange_done {net : Network} {url : ParsedUrl} {absoluteTarget : Bool}
    {stream : Bytes} {ex : Exchanged}
    (h : runLightH1Exchange net url request absoluteTarget buf stream = .done ex) :
    ∃ headerEnd head taken body, ∃ contentLength : Nat,
      readHeaders net.policy buf.clear stream net.events = .done (headerEnd, head) ∧
        contentLength = parseContentLength (head.buf.data.take (headerEnd + 4)) ∧
        BodyRead request contentLength (head.buf.data.length - (headerEnd + 4)) head.buf
          head.rest taken body ∧
        ex.rest = body.rest ∧
        ex.response.status = parseStatusCode
          (({ storage := head.buf.storage, length := headerEnd + 4 } : View).read net.freed
            body.buf) ∧
        ex.response.body =
          if request.storeResponseBody ∧ 0 < contentLength then
            (body.buf.data.drop (headerEnd + 4)).take contentLength
          else [] := by
  unfold runLightH1Exchange at h
  split at h
  · cases h
  split at h
  · cases h
  · cases h
  case h_3 headerEnd head hheaders =>
    unfold finishExchange at h
    dsimp only at h
    split at h
    · cases h
    · cases h
    case h_3 body hbody =>
      obtain rfl := LoopResult.done.inj h
      obtain ⟨taken, hread⟩ := readBody_done hbody
      refine ⟨headerEnd, head, taken, body, _, hheaders, ?_, hread, rfl, rfl, rfl⟩
      simp [View.read]

end HttpClient.H1
