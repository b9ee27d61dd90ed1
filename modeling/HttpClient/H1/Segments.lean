import HttpClient.H1.BodyChunks

/-!
# Responses that arrive in parts

A network delivers a response in parts of its own choosing, each of them with one read. The
header loop takes the parts up to the one with the end of the head; the body loop goes on with
what follows. So what the header loop does to the read buffer depends on the sizes of these
parts only.

## Main definitions

* `Segments`, `reads` — a text in parts, and the reads that deliver them
* `covering`, `beyond` — the parts up to the end of the head, and those after it
* `capacityAfter` — the capacity of a buffer to which parts have been appended
* `Refused` — the head is not complete when it has become too long

## Main results

* `readHeaders_reads` — what the header loop does
* `exists_segments_of_readHeaders` — what it has read has come in parts
* `readBody_reads` — the body loop returns
-/

set_option autoImplicit false

namespace HttpClient.H1

open Text

/-- A text that arrives in parts, none of them larger than what one read takes. -/
structure Segments (text : Bytes) (parts : List Bytes) : Prop where
  flatten : parts.flatten = text
  ne_nil : ∀ part ∈ parts, part ≠ []
  length_le : ∀ part ∈ parts, part.length ≤ chunkSize

/-- The reads that deliver the parts. -/
def reads (parts : List Bytes) : List ReadEvent := parts.map fun part => .data part.length

/-- The parts up to the one with the last of the first `size` bytes. -/
def covering : Nat → List Bytes → List Bytes
  | _, [] => []
  | size, part :: parts =>
    if size ≤ part.length then [part] else part :: covering (size - part.length) parts

/-- The parts after these. -/
def beyond : Nat → List Bytes → List Bytes
  | _, [] => []
  | size, part :: parts => if size ≤ part.length then parts else beyond (size - part.length) parts

/-- The capacity of a buffer that holds `held` bytes, after parts of these sizes have been
appended. -/
def capacityAfter (policy : GrowthPolicy) (capacity held : Nat) : List Nat → Nat
  | [] => capacity
  | size :: sizes =>
    capacityAfter policy
      (if held + size ≤ capacity then capacity else policy.grow capacity (held + size))
      (held + size) sizes

/-- Before the part that completes a head of this size, more has arrived than the limit. -/
def Refused (size : Nat) (parts : List Bytes) : Prop :=
  headerLimit < (covering size parts).dropLast.flatten.length

/-- A head ends with its first empty line. -/
def IsHead (head : Bytes) : Prop := find headerTerminator head = some (head.length - 4)

instance (head : Bytes) : Decidable (IsHead head) := inferInstanceAs (Decidable (_ = _))

variable {policy : GrowthPolicy} {request : Request} {buf : ReadBuffer} {rest : Bytes}

/-! ### Parts -/

theorem covering_cons (size : Nat) (part : Bytes) (parts : List Bytes) :
    covering size (part :: parts) =
      if size ≤ part.length then [part] else part :: covering (size - part.length) parts := rfl

theorem beyond_cons (size : Nat) (part : Bytes) (parts : List Bytes) :
    beyond size (part :: parts) =
      if size ≤ part.length then parts else beyond (size - part.length) parts := rfl

theorem covering_append_beyond (size : Nat) (parts : List Bytes) :
    covering size parts ++ beyond size parts = parts := by
  induction parts generalizing size with
  | nil => rfl
  | cons part parts ih =>
    rw [covering_cons, beyond_cons]
    split
    · rfl
    · rw [List.cons_append, ih]

theorem covering_ne_nil (size : Nat) {parts : List Bytes} (h : parts ≠ []) :
    covering size parts ≠ [] := by
  cases parts with
  | nil => exact absurd rfl h
  | cons part parts =>
    rw [covering_cons]
    split
    · exact List.cons_ne_nil _ _
    · exact List.cons_ne_nil _ _

/-- All but the last of the parts fall short of the size. -/
theorem length_dropLast_covering_lt {size : Nat} (h : 0 < size) (parts : List Bytes) :
    (covering size parts).dropLast.flatten.length < size := by
  induction parts generalizing size with
  | nil => exact h
  | cons part parts ih =>
    rw [covering_cons]
    split
    · exact h
    · rename_i hmore
      rcases eq_or_ne (covering (size - part.length) parts) [] with hnil | hne
      · rw [hnil]
        exact h
      · have hshort := ih (show 0 < size - part.length by omega)
        rw [List.dropLast_cons_of_ne_nil hne, List.flatten_cons, List.length_append]
        omega

/-- The parts that cover a size have at least that size, if there is so much. -/
theorem le_length_covering {size : Nat} {parts : List Bytes} (h : size ≤ parts.flatten.length) :
    size ≤ (covering size parts).flatten.length := by
  induction parts generalizing size with
  | nil => exact h
  | cons part parts ih =>
    rw [List.flatten_cons, List.length_append] at h
    rw [covering_cons]
    split
    · rename_i hlast
      rwa [List.flatten_singleton]
    · have hmore := ih (show size - part.length ≤ parts.flatten.length by omega)
      rw [List.flatten_cons, List.length_append]
      omega

/-- Parts that fall short of a size but for the last one cover it. -/
theorem covering_append {size : Nat} {parts : List Bytes} (later : List Bytes) (hne : parts ≠ [])
    (hshort : parts.dropLast.flatten.length < size) (hcovers : size ≤ parts.flatten.length) :
    covering size (parts ++ later) = parts := by
  induction parts generalizing size with
  | nil => exact absurd rfl hne
  | cons part parts ih =>
    rw [List.cons_append, covering_cons]
    rcases eq_or_ne parts [] with rfl | hmore
    · rw [List.flatten_singleton] at hcovers
      rw [if_pos hcovers]
    · rw [List.dropLast_cons_of_ne_nil hmore, List.flatten_cons, List.length_append] at hshort
      rw [List.flatten_cons, List.length_append] at hcovers
      rw [if_neg (by omega), ih hmore (by omega) (by omega)]

/-- Every text can arrive byte by byte. -/
theorem exists_segments (text : Bytes) : ∃ parts, Segments text parts := by
  refine ⟨text.map fun c => [c], ?_, ?_, ?_⟩
  · rw [← List.flatMap_def]
    exact List.flatMap_singleton' text
  · simp
  · intro part hpart
    obtain ⟨c, -, rfl⟩ := List.mem_map.mp hpart
    exact show 1 ≤ chunkSize by decide

theorem Segments.tail {part : Bytes} {parts : List Bytes}
    (h : Segments rest (part :: parts)) : Segments parts.flatten parts where
  flatten := rfl
  ne_nil := fun other hother => h.ne_nil other (List.mem_cons_of_mem _ hother)
  length_le := fun other hother => h.length_le other (List.mem_cons_of_mem _ hother)

/-- The parts after the head are parts of what follows the head. -/
theorem Segments.beyond {text : Bytes} {parts : List Bytes} (h : Segments text parts)
    (size : Nat) : Segments (beyond size parts).flatten (beyond size parts) := by
  have hmem : ∀ part ∈ H1.beyond size parts, part ∈ parts := by
    intro part hpart
    rw [← covering_append_beyond size parts]
    exact List.mem_append_right _ hpart
  exact ⟨rfl, fun part hpart => h.ne_nil part (hmem part hpart),
    fun part hpart => h.length_le part (hmem part hpart)⟩

/-- Appending parts one after the other. -/
theorem foldl_append (policy : GrowthPolicy) (parts : List Bytes) (buf : ReadBuffer) :
    (parts.foldl (ReadBuffer.append policy) buf).data = buf.data ++ parts.flatten ∧
      (parts.foldl (ReadBuffer.append policy) buf).capacity =
        capacityAfter policy buf.capacity buf.data.length (parts.map List.length) := by
  induction parts generalizing buf with
  | nil => exact ⟨(List.append_nil _).symm, rfl⟩
  | cons part parts ih =>
    obtain ⟨hdata, hcapacity⟩ := ih (buf.append policy part)
    rw [List.foldl_cons, hdata, hcapacity, ReadBuffer.append_data, List.map_cons, capacityAfter,
      List.append_assoc, List.flatten_cons, List.length_append]
    refine ⟨rfl, ?_⟩
    -- the first append grows the buffer exactly if the part does not fit
    congr 1
    split
    · rename_i hfits
      exact (ReadBuffer.append_of_le policy (by rwa [List.length_append])).1
    · rename_i hover
      rw [(ReadBuffer.append_of_lt policy (by rw [List.length_append]; omega)).1,
        List.length_append]

/-! ### The header loop -/

theorem IsHead.four_le {head : Bytes} (h : IsHead head) : 4 ≤ head.length := by
  have hle := headerEnd_le h
  omega

theorem IsHead.end_eq {head : Bytes} (h : IsHead head) : head.length - 4 + 4 = head.length :=
  Nat.sub_add_cancel h.four_le

/-- The header loop on a buffer that holds the start of a head, with the rest of the head and
more still to come. It takes the parts that cover the head, unless there are too many of them.
-/
theorem readHeaders_reads (policy : GrowthPolicy) {head unread tail : Bytes} {parts : List Bytes}
    (hhead : IsHead head) (hsplit : buf.data ++ unread = head) (hunread : unread ≠ [])
    (hlimit : buf.data.length ≤ headerLimit) (hparts : Segments (unread ++ tail) parts) :
    readHeaders policy buf (unread ++ tail) (reads parts) =
      if headerLimit < buf.data.length + (covering unread.length parts).dropLast.flatten.length then
        .threw (str "h1 response headers too large")
      else
        .done (head.length - 4,
          { buf := (covering unread.length parts).foldl (ReadBuffer.append policy) buf
            chunks := []
            rest := (beyond unread.length parts).flatten
            events := reads (beyond unread.length parts) }) := by
  -- on the parts; what is unread of the head becomes shorter with each of them
  induction parts generalizing buf unread with
  | nil =>
    have hnil := hparts.flatten
    rw [List.flatten_nil] at hnil
    exact absurd (List.append_eq_nil_iff.mp hnil.symm).1 hunread
  | cons part parts ih =>
    have hne := hparts.ne_nil part List.mem_cons_self
    have hroom := hparts.length_le part List.mem_cons_self
    have hstream := hparts.flatten
    rw [List.flatten_cons] at hstream
    have hreads : reads (part :: parts) = .data part.length :: reads parts := rfl
    rw [covering_cons, beyond_cons, ← hstream, hreads]
    by_cases hlast : unread.length ≤ part.length
    · -- the head ends in this part
      have hpart : unread <+: part :=
        List.prefix_of_prefix_length_le ⟨tail, hstream.symm⟩ ⟨parts.flatten, rfl⟩ hlast
      have hfound : find headerTerminator (buf.data ++ part) = some (head.length - 4) := by
        apply find_of_prefix _ hhead
        rw [← hsplit]
        exact (List.prefix_append_right_inj _).mpr hpart
      rw [if_pos hlast, if_pos hlast, if_neg (by simpa using hlimit)]
      exact readHeaders_found hne hroom hfound
    · rw [if_neg hlast, if_neg hlast]
      obtain ⟨later, hlater⟩ : part <+: unread :=
        List.prefix_of_prefix_length_le ⟨parts.flatten, rfl⟩ ⟨tail, hstream.symm⟩ (by omega)
      have hlength := congrArg List.length hlater
      rw [List.length_append] at hlength
      have hlater_ne : later ≠ [] := by
        rintro rfl
        rw [List.length_nil] at hlength
        omega
      have hsplit' : (buf.data ++ part) ++ later = head := by
        rw [List.append_assoc, hlater, hsplit]
      have hnone : find headerTerminator (buf.data ++ part) = none := by
        have hfour : headerTerminator.length = 4 := by decide
        have hshort := congrArg List.length hsplit'
        rw [List.length_append] at hshort
        have hpos := List.length_pos_of_ne_nil hlater_ne
        rw [find_prefix_eq ⟨later, hsplit'⟩ hhead, if_neg (by omega)]
      have hrest : parts.flatten = later ++ tail := by
        rw [← hlater, List.append_assoc, List.append_cancel_left_eq] at hstream
        exact hstream
      have hsize : unread.length - part.length = later.length := by omega
      have hparts_ne : parts ≠ [] := by
        rintro rfl
        exact absurd (List.append_eq_nil_iff.mp hrest.symm).1 hlater_ne
      rw [hsize, List.dropLast_cons_of_ne_nil (covering_ne_nil _ hparts_ne), List.flatten_cons,
        List.length_append, ← Nat.add_assoc, ← List.length_append]
      -- too much has arrived by now, or the loop goes on with a longer buffer
      by_cases hlarge : headerLimit < (buf.data ++ part).length
      · rw [if_pos (by omega)]
        exact readHeaders_tooLarge hne hroom hnone hlarge
      · have hstep :
            readHeaders policy (buf.append policy part) (later ++ tail) (reads parts) = _ :=
          ih (by rw [ReadBuffer.append_data]; exact hsplit') hlater_ne
            (by rw [ReadBuffer.append_data]; omega) (hrest ▸ hparts.tail)
        rw [readHeaders_more hne hroom hnone (by omega), hrest, hstep, ReadBuffer.append_data,
          List.foldl_cons]

/-- The header loop, started on `buf`, has read these parts, of which the last one has completed
the head. -/
structure ReadInParts (policy : GrowthPolicy) (buf : ReadBuffer) (rest : Bytes)
    (parts : List Bytes) (read : Reading) : Prop where
  buf_eq : read.buf = parts.foldl (ReadBuffer.append policy) buf
  stream : parts.flatten ++ read.rest = rest
  ne_nil : ∀ part ∈ parts, part ≠ []
  length_le : ∀ part ∈ parts, part.length ≤ chunkSize
  some : parts ≠ []
  incomplete : parts.dropLast ≠ [] →
    find headerTerminator (buf.data ++ parts.dropLast.flatten) = none
  accepted : buf.data.length + parts.dropLast.flatten.length ≤ headerLimit

/-- Whatever the network did, what the header loop has read has come in parts. -/
theorem exists_readInParts {events : List ReadEvent} {headerEnd : Nat} {read : Reading}
    (h : readHeaders policy buf rest events = .done (headerEnd, read))
    (hlimit : buf.data.length ≤ headerLimit) : ∃ parts, ReadInParts policy buf rest parts read := by
  induction events generalizing buf rest with
  | nil => cases h
  | cons event events ih =>
    cases event with
    | error what => cases h
    | data n =>
      rw [readHeaders] at h
      split_ifs at h with hrest
      set part := rest.take (delivered chunkSize n) with hpart
      have hsome : 0 < part.length := by
        have hpos := List.length_pos_of_ne_nil hrest
        have hchunk : 0 < chunkSize := by decide
        rw [hpart, List.length_take, delivered]
        omega
      have hroom : part.length ≤ chunkSize := by
        rw [hpart, List.length_take]
        exact (Nat.min_le_left _ _).trans (delivered_le _ _)
      have hsplit : part ++ rest.drop (delivered chunkSize n) = rest := List.take_append_drop _ _
      dsimp only at h
      split at h
      case h_1 at' hfound =>
        -- the read completes the head
        obtain ⟨-, rfl⟩ := Prod.mk.inj (LoopResult.done.inj h)
        refine ⟨[part], rfl, ?_, ?_, ?_, List.cons_ne_nil _ _, fun hne => absurd rfl hne, hlimit⟩
        · rw [List.flatten_singleton, hsplit]
        · rintro other hother
          rw [List.mem_singleton.mp hother]
          exact List.ne_nil_of_length_pos hsome
        · rintro other hother
          rwa [List.mem_singleton.mp hother]
      case h_2 hnone =>
        split_ifs at h with hlarge
        obtain ⟨parts, hparts⟩ := ih h (Nat.not_lt.mp hlarge)
        have haccepted := hparts.accepted
        have hincomplete := hparts.incomplete
        rw [ReadBuffer.append_data] at hnone hincomplete
        rw [ReadBuffer.append_data, List.length_append] at haccepted
        refine ⟨part :: parts, hparts.buf_eq, ?_, ?_, ?_, List.cons_ne_nil _ _, fun _ => ?_, ?_⟩
        · rw [List.flatten_cons, List.append_assoc, hparts.stream, hsplit]
        · exact List.forall_mem_cons.mpr ⟨List.ne_nil_of_length_pos hsome, hparts.ne_nil⟩
        · exact List.forall_mem_cons.mpr ⟨hroom, hparts.length_le⟩
        · rw [List.dropLast_cons_of_ne_nil hparts.some, List.flatten_cons, ← List.append_assoc]
          rcases eq_or_ne parts.dropLast [] with hlast | hmore
          · rw [hlast, List.flatten_nil, List.append_nil, hnone]
          · exact hincomplete hmore
        · rw [List.dropLast_cons_of_ne_nil hparts.some, List.flatten_cons, List.length_append]
          omega

/-- Whatever the network did, the buffer has grown as with some split of the response. -/
theorem exists_segments_of_readHeaders {head tail : Bytes} (hhead : IsHead head)
    {events : List ReadEvent} {headerEnd : Nat} {read : Reading}
    (h : readHeaders policy buf.clear (head ++ tail) events = .done (headerEnd, read)) :
    ∃ parts, Segments (head ++ tail) parts ∧ ¬ Refused head.length parts ∧
      read.buf.capacity =
        capacityAfter policy buf.capacity 0 ((covering head.length parts).map List.length) := by
  obtain ⟨parts, hparts⟩ := exists_readInParts h (Nat.zero_le _)
  obtain ⟨later, hlater⟩ := exists_segments read.rest
  obtain ⟨hdata, hcapacity⟩ := foldl_append policy parts buf.clear
  have hfour := hhead.four_le
  have hterminator : headerTerminator.length = 4 := by decide
  have hwhole : find headerTerminator (head ++ tail) = some (head.length - 4) :=
    find_of_prefix (List.prefix_append _ _) hhead
  have hcovers : head.length ≤ parts.flatten.length := by
    have hfound := (readHeaders_done h).found
    rw [hparts.buf_eq, hdata, ReadBuffer.clear_data, List.nil_append,
      find_prefix_eq ⟨read.rest, hparts.stream⟩ hwhole] at hfound
    split_ifs at hfound with hfits
    omega
  have hshort : parts.dropLast.flatten.length < head.length := by
    by_contra hlong
    have hmore : parts.dropLast ≠ [] := by
      intro hnil
      rw [hnil, List.flatten_nil, List.length_nil] at hlong
      omega
    -- the head would have been complete before the last part
    obtain ⟨last, hlast⟩ : ∃ last, parts = parts.dropLast ++ [last] :=
      ⟨parts.getLast hparts.some, (List.dropLast_append_getLast hparts.some).symm⟩
    have hprefix : parts.dropLast.flatten <+: head ++ tail := by
      refine ⟨last ++ read.rest, ?_⟩
      conv_rhs => rw [← hparts.stream, hlast]
      rw [List.flatten_append, List.flatten_singleton, List.append_assoc]
    have hnone := hparts.incomplete hmore
    rw [ReadBuffer.clear_data, List.nil_append, find_prefix_eq hprefix hwhole, if_pos (by omega)]
      at hnone
    cases hnone
  have hcovering := covering_append later hparts.some hshort hcovers
  refine ⟨parts ++ later, ⟨?_, ?_, ?_⟩, ?_, ?_⟩
  · rw [List.flatten_append, hlater.flatten, hparts.stream]
  · exact fun part hpart => (List.mem_append.mp hpart).elim (hparts.ne_nil part)
      (hlater.ne_nil part)
  · exact fun part hpart => (List.mem_append.mp hpart).elim (hparts.length_le part)
      (hlater.length_le part)
  · have haccepted := hparts.accepted
    rw [ReadBuffer.clear_data, List.length_nil, Nat.zero_add] at haccepted
    rw [Refused, hcovering]
    exact Nat.not_lt.mpr haccepted
  · rw [hcovering, hparts.buf_eq, hcapacity]
    rfl

/-! ### The body loop -/

/-- If what is missing of the body is to come, the body loop returns. -/
theorem readBody_reads {contentLength haveBody : Nat} {chunks : List Bytes} {parts : List Bytes}
    (hparts : Segments rest parts) (h : contentLength - haveBody ≤ rest.length) :
    ∃ body, readBody policy request contentLength haveBody buf chunks rest (reads parts) =
      .done body := by
  induction parts generalizing haveBody buf chunks rest with
  | nil =>
    have hnil := hparts.flatten
    rw [List.flatten_nil] at hnil
    rw [← hnil, List.length_nil] at h
    exact ⟨_, by rw [reads, List.map_nil, readBody, if_neg (by omega)]⟩
  | cons part parts ih =>
    have hne := hparts.ne_nil part List.mem_cons_self
    have hpos := List.length_pos_of_ne_nil hne
    have hroom := hparts.length_le part List.mem_cons_self
    have hstream := hparts.flatten
    rw [List.flatten_cons] at hstream
    have hrest : rest ≠ [] := by
      rw [← hstream]
      simp [hne]
    have hreads : reads (part :: parts) = .data part.length :: reads parts := rfl
    rw [hreads, readBody]
    by_cases hmore : haveBody < contentLength
    · rw [if_pos hmore]
      dsimp only
      rw [if_neg hrest]
      by_cases hwhole : part.length ≤ contentLength - haveBody
      · -- the whole part is body
        have hdelivered : delivered (min chunkSize (contentLength - haveBody)) part.length =
            part.length := by
          rw [delivered]
          omega
        rw [hdelivered, ← hstream, List.take_left, List.drop_left]
        apply ih hparts.tail
        have hlength := congrArg List.length hstream
        rw [List.length_append] at hlength
        omega
      · -- the body ends inside the part, and nothing more is read
        have hdelivered : delivered (min chunkSize (contentLength - haveBody)) part.length =
            contentLength - haveBody := by
          rw [delivered]
          omega
        have htaken : (rest.take (contentLength - haveBody)).length = contentLength - haveBody :=
          List.length_take_of_le h
        have hdone : ¬ haveBody + (contentLength - haveBody) < contentLength := by omega
        rw [hdelivered, htaken]
        cases parts with
        | nil => exact ⟨_, by rw [reads, List.map_nil, readBody, if_neg hdone]⟩
        | cons next parts => exact ⟨_, by rw [reads, List.map_cons, readBody, if_neg hdone]⟩
    · rw [if_neg hmore]
      exact ⟨_, rfl⟩

end HttpClient.H1
