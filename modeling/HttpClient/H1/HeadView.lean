import HttpClient.H1.Segments

/-!
# The view of the head

After the header loop the exchange takes a view of the head in the read buffer. It reads the
content length through this view at once, but status and header lines only after the body
loop. If the body is stored, the body loop appends to the buffer, and an append beyond the
capacity moves the buffer to new storage: the view is then one of freed memory.

Whether this happens depends on the capacity that the buffer has after the header loop, which
depends on the connection's history, and on the sizes of the reads that deliver the head.

## Main definitions

* `headersView`, `bodyLoop` — the view, and the loop before its last use
* `ViewIntact` — after the body loop the view refers to the buffer

## Main results

* `finishExchange_eq` — where the exchange uses the view
* `viewIntact_iff` — the responses after which the view refers to the buffer
* `view_moved_download` — a body of 9000 bytes
-/

set_option autoImplicit false

namespace HttpClient.H1

open Text

/-- The view of the head that is taken after the header loop. -/
def headersView (headerEnd : Nat) (head : Reading) : View :=
  { storage := head.buf.storage, length := headerEnd + 4 }

/-- The body loop of an exchange. -/
def bodyLoop (net : Network) (request : Request) (headerEnd : Nat) (head : Reading) :
    LoopResult Reading :=
  let contentLength := parseContentLength ((headersView headerEnd head).read net.freed head.buf)
  let bodyStart := headerEnd + 4
  let haveBody := head.buf.data.length - bodyStart
  readBody net.policy request contentLength haveBody head.buf
    (if request.onBodyChunk ∧ 0 < haveBody then
      [(head.buf.data.drop bodyStart).take (min haveBody contentLength)]
    else []) head.rest head.events

/-- The exchange builds the response from the view, as it is after the body loop. -/
theorem finishExchange_eq (net : Network) (request : Request) (written : List Bytes)
    (headerEnd : Nat) (head : Reading) :
    finishExchange net request written headerEnd head =
      match bodyLoop net request headerEnd head with
      | .threw what => .threw what
      | .waiting => .waiting
      | .done body =>
        let contentLength :=
          parseContentLength ((headersView headerEnd head).read net.freed head.buf)
        let view := (headersView headerEnd head).read net.freed body.buf
        .done {
          written
          response :=
            { status := parseStatusCode view
              httpVersion := 1
              headers := if request.storeResponseHeaders then headLines view else []
              body :=
                if request.storeResponseBody ∧ 0 < contentLength then
                  (body.buf.data.drop (headerEnd + 4)).take contentLength
                else [] }
          buf := body.buf
          chunks := body.chunks
          rest := body.rest } :=
  rfl

/-- Whenever the exchange reads the view after the body loop, it refers to the storage that
the buffer has then. -/
def ViewIntact (net : Network) (request : Request) (buf : ReadBuffer) (stream : Bytes) : Prop :=
  ∀ headerEnd head body,
    readHeaders net.policy buf.clear stream net.events = .done (headerEnd, head) →
    bodyLoop net request headerEnd head = .done body →
      (headersView headerEnd head).storage = body.buf.storage

/-- A network that delivers a response in parts. -/
def delivering (policy : GrowthPolicy) (freed : Nat → UInt8) (parts : List Bytes) : Network where
  policy := policy
  freed := freed
  writeError := none
  events := reads parts

variable {policy : GrowthPolicy} {freed : Nat → UInt8} {request : Request} {buf : ReadBuffer}
variable {head tail : Bytes} {parts : List Bytes}

/-! ### After the header loop -/

/-- What has been read when the head is complete. -/
def headReading (policy : GrowthPolicy) (buf : ReadBuffer) (head : Bytes) (parts : List Bytes) :
    Reading where
  buf := (covering head.length parts).foldl (ReadBuffer.append policy) buf.clear
  chunks := []
  rest := (beyond head.length parts).flatten
  events := reads (beyond head.length parts)

/-- The header loop is refused, or stops with the part that completes the head. -/
theorem readHeaders_delivering (policy : GrowthPolicy) (buf : ReadBuffer) (hhead : IsHead head)
    (hparts : Segments (head ++ tail) parts) :
    (Refused head.length parts →
      readHeaders policy buf.clear (head ++ tail) (reads parts) =
        .threw (str "h1 response headers too large")) ∧
    (¬ Refused head.length parts →
      readHeaders policy buf.clear (head ++ tail) (reads parts) =
        .done (head.length - 4, headReading policy buf head parts)) := by
  have hfour := hhead.four_le
  have hne : head ≠ [] := List.ne_nil_of_length_pos (by omega)
  have hnil : buf.clear.data ++ head = head := List.nil_append head
  have hread := readHeaders_reads policy hhead hnil hne (Nat.zero_le _) hparts
  rw [ReadBuffer.clear_data, List.length_nil, Nat.zero_add] at hread
  constructor
  · intro hrefused
    exact hread.trans (if_pos hrefused)
  · intro haccepted
    exact hread.trans (if_neg haccepted)

/-- The buffer holds the head, and what has arrived with it. -/
structure HeadRead (policy : GrowthPolicy) (buf : ReadBuffer) (head tail : Bytes)
    (parts : List Bytes) (read : Reading) : Prop where
  stream : head ++ tail = read.buf.data ++ read.rest
  covers : head.length ≤ read.buf.data.length
  capacity : read.buf.capacity =
    capacityAfter policy buf.capacity 0 ((covering head.length parts).map List.length)
  later : Segments read.rest (beyond head.length parts)
  events : read.events = reads (beyond head.length parts)

theorem headRead (policy : GrowthPolicy) (buf : ReadBuffer)
    (hparts : Segments (head ++ tail) parts) :
    HeadRead policy buf head tail parts (headReading policy buf head parts) := by
  obtain ⟨hdata, hcapacity⟩ := foldl_append policy (covering head.length parts) buf.clear
  have hflatten : (covering head.length parts).flatten ++ (beyond head.length parts).flatten =
      head ++ tail := by
    rw [← List.flatten_append, covering_append_beyond, hparts.flatten]
  refine ⟨?_, ?_, hcapacity, hparts.beyond _, rfl⟩
  · rw [headReading, hdata, ReadBuffer.clear_data, List.nil_append, hflatten]
  · rw [headReading, hdata, ReadBuffer.clear_data, List.nil_append]
    apply le_length_covering
    rw [hparts.flatten, List.length_append]
    exact Nat.le_add_right _ _

/-! ### After the body loop -/

/-- The body loop leaves the buffer where it is exactly if nothing is appended or all fits. -/
theorem BodyRead.storage_eq_iff {contentLength haveBody : Nat} {rest taken : Bytes}
    {body : Reading} (h : BodyRead request contentLength haveBody buf rest taken body) :
    buf.storage = body.buf.storage ↔
      request.storeResponseBody = false ∨
        buf.data.length + (contentLength - haveBody) ≤ buf.capacity := by
  have hdata := congrArg List.length h.data
  rw [List.length_append] at hdata
  cases hstore : request.storeResponseBody with
  | false =>
    rw [hstore] at hdata
    refine iff_of_true (h.intact ?_).symm (Or.inl rfl)
    have hfits := buf.fits
    simpa [hdata] using hfits
  | true =>
    rw [hstore, if_pos rfl, h.length] at hdata
    rw [← hdata]
    constructor
    · intro hsame
      refine Or.inr (Nat.not_lt.mp fun hover => ?_)
      exact (h.moved hover).ne hsame
    · rintro (hnever | hfits)
      · cases hnever
      · exact (h.intact hfits).symm

/-- As long as the buffer is where the view was taken, the view yields the head. -/
theorem read_headersView {read : Reading} {later : ReadBuffer} (hhead : IsHead head)
    (h : HeadRead policy buf head tail parts read) (hdata : read.buf.data <+: later.data)
    (hsame : (headersView (head.length - 4) read).storage = later.storage) :
    (headersView (head.length - 4) read).read freed later = head := by
  have hend : (headersView (head.length - 4) read).length = head.length :=
    hhead.end_eq
  obtain ⟨appended, happended⟩ := hdata
  have htake := congrArg (List.take head.length) h.stream
  rw [List.take_left, List.take_append_of_le_length h.covers] at htake
  rw [View.read, if_pos hsame, hend, ← happended, List.take_append_of_le_length h.covers, ← htake]

/-- The body loop of an exchange whose head has been read. -/
theorem bodyLoop_eq {read : Reading} (hhead : IsHead head)
    (h : HeadRead policy buf head tail parts read) :
    bodyLoop (delivering policy freed parts) request (head.length - 4) read =
      readBody policy request (parseContentLength head) (read.buf.data.length - head.length)
        read.buf
        (if request.onBodyChunk ∧ 0 < (read.buf.data.drop head.length).length then
          [(read.buf.data.drop head.length).take
            (min (read.buf.data.drop head.length).length (parseContentLength head))]
        else []) read.rest (reads (beyond head.length parts)) := by
  have hend : head.length - 4 + 4 = head.length := hhead.end_eq
  have hview : (headersView (head.length - 4) read).read (delivering policy freed parts).freed
      read.buf = head := read_headersView hhead h List.prefix_rfl rfl
  rw [bodyLoop, hview, hend, h.events, List.length_drop]
  rfl

/-- The view refers to the buffer after a body loop exactly if nothing is appended or the
buffer has room for head and body. -/
theorem storage_headersView_iff {read body : Reading} (hhead : IsHead head)
    (h : HeadRead policy buf head tail parts read)
    (hbody : bodyLoop (delivering policy freed parts) request (head.length - 4) read = .done body) :
    (headersView (head.length - 4) read).storage = body.buf.storage ↔
      request.storeResponseBody = false ∨ head.length + parseContentLength head ≤
        capacityAfter policy buf.capacity 0 ((covering head.length parts).map List.length) := by
  rw [bodyLoop_eq hhead h] at hbody
  obtain ⟨taken, hread⟩ := readBody_done hbody
  rw [← h.capacity]
  have hiff := hread.storage_eq_iff
  -- if the whole body has arrived with the head, it fits anyway
  have hcovers := h.covers
  have hfits := read.buf.fits
  rw [headersView, hiff]
  apply or_congr_right
  omega

/-- The body loop returns exactly if the body is delivered. -/
theorem exists_bodyLoop_iff {read : Reading} (hhead : IsHead head)
    (h : HeadRead policy buf head tail parts read) :
    (∃ body, bodyLoop (delivering policy freed parts) request (head.length - 4) read = .done body) ↔
      parseContentLength head ≤ tail.length := by
  have hlength := congrArg List.length h.stream
  have hcovers := h.covers
  rw [List.length_append, List.length_append] at hlength
  rw [bodyLoop_eq hhead h]
  constructor
  · -- a loop that returns has read what was missing
    rintro ⟨body, hbody⟩
    obtain ⟨taken, hread⟩ := readBody_done hbody
    have htaken := hread.length
    have hrest := congrArg List.length hread.stream
    rw [List.length_append] at hrest
    omega
  · intro hdelivered
    apply readBody_reads h.later
    omega

/-- Where the condition fails, the body loop returns and has moved the buffer. -/
theorem exists_moved (policy : GrowthPolicy) (freed : Nat → UInt8) (request : Request)
    (buf : ReadBuffer) (hhead : IsHead head) (hparts : Segments (head ++ tail) parts)
    (hdelivered : parseContentLength head ≤ tail.length) (hstore : request.storeResponseBody = true)
    (hover : capacityAfter policy buf.capacity 0 ((covering head.length parts).map List.length) <
      head.length + parseContentLength head) :
    ∃ body, bodyLoop (delivering policy freed parts) request (head.length - 4)
        (headReading policy buf head parts) = .done body ∧
      (headersView (head.length - 4) (headReading policy buf head parts)).storage ≠
        body.buf.storage := by
  have hread := headRead policy buf hparts
  obtain ⟨body, hbody⟩ : ∃ body, bodyLoop (delivering policy freed parts) request (head.length - 4)
      (headReading policy buf head parts) = .done body :=
    (exists_bodyLoop_iff hhead hread).mpr hdelivered
  refine ⟨body, hbody, fun hsame => ?_⟩
  rcases (storage_headersView_iff hhead hread hbody).mp hsame with hnever | hfits
  · rw [hstore] at hnever
    cases hnever
  · exact absurd hfits (Nat.not_le.mpr hover)

/-- The view refers to the buffer, whenever it is read after the body loop, exactly if it is
not read at all, because the head is refused or the body not delivered, or if the body is not
stored, or if the buffer has room for head and body once the head has been read. -/
theorem viewIntact_iff (hhead : IsHead head) (hparts : Segments (head ++ tail) parts)
    (policy : GrowthPolicy) (freed : Nat → UInt8) (request : Request) (buf : ReadBuffer) :
    ViewIntact (delivering policy freed parts) request buf (head ++ tail) ↔
      Refused head.length parts ∨ tail.length < parseContentLength head ∨
        request.storeResponseBody = false ∨ head.length + parseContentLength head ≤
          capacityAfter policy buf.capacity 0 ((covering head.length parts).map List.length) := by
  obtain ⟨hrefused, haccepted⟩ := readHeaders_delivering policy buf hhead hparts
  have hread := headRead policy buf hparts
  constructor
  · intro h
    by_contra hnot
    rw [not_or, not_or, not_or, Bool.not_eq_false, Nat.not_lt, Nat.not_le] at hnot
    obtain ⟨hheaders, hdelivered, hstore, hover⟩ := hnot
    obtain ⟨body, hbody, hmoved⟩ :=
      exists_moved policy freed request buf hhead hparts hdelivered hstore hover
    exact hmoved (h _ _ _ (haccepted hheaders) hbody)
  · intro h headerEnd read body hheaders hbody
    by_cases hlong : Refused head.length parts
    · -- the exchange has thrown before
      rw [show (delivering policy freed parts).events = reads parts from rfl,
        show (delivering policy freed parts).policy = policy from rfl, hrefused hlong] at hheaders
      cases hheaders
    · have hstop := (haccepted hlong).symm.trans hheaders
      obtain ⟨rfl, rfl⟩ := Prod.mk.inj (LoopResult.done.inj hstop)
      -- the loop has returned, so neither excuse holds
      apply (storage_headersView_iff hhead hread hbody).mpr
      have hdelivered := (exists_bodyLoop_iff hhead hread).mp ⟨body, hbody⟩
      rcases h with hrefuse | hmissing | hkept
      · exact absurd hrefuse hlong
      · exact absurd hmissing (Nat.not_lt.mpr hdelivered)
      · exact hkept

/-! ### A download -/

/-- Twice the capacity, or what is needed if that is more. -/
def doubling : GrowthPolicy where
  grow capacity needed := max (2 * capacity) needed
  needed_le_grow _ _ := le_max_right _ _

/-- The read buffer of a new connection. -/
def newBuffer : ReadBuffer where
  data := []
  capacity := 8192
  storage := 0
  fits := Nat.zero_le _

def downloadHead : Bytes := str "HTTP/1.1 200 OK\r\nContent-Length: 9000\r\n\r\n"

def downloadBody : Bytes := List.replicate 9000 97

theorem isHead_downloadHead : IsHead downloadHead := by
  rw [downloadHead, str_ofList]
  decide +kernel

theorem parseContentLength_downloadHead : parseContentLength downloadHead = 9000 := by
  rw [downloadHead, str_ofList]
  decide +kernel

theorem length_downloadHead : downloadHead.length = 41 := by
  rw [downloadHead, str_ofList]
  rfl

/-- The head comes with a read of its own. -/
theorem segments_download :
    Segments (downloadHead ++ downloadBody) [downloadHead, downloadBody] where
  flatten := by rw [List.flatten_cons, List.flatten_singleton]
  ne_nil := by
    intro part hpart
    rcases List.mem_pair.mp hpart with rfl | rfl
    · rw [← List.length_pos_iff, length_downloadHead]
      decide
    · rw [← List.length_pos_iff, downloadBody, List.length_replicate]
      decide
  length_le := by
    intro part hpart
    rcases List.mem_pair.mp hpart with rfl | rfl
    · rw [length_downloadHead]
      decide
    · rw [downloadBody, List.length_replicate]
      decide

theorem capacityAfter_download :
    capacityAfter doubling newBuffer.capacity 0
      ((covering downloadHead.length [downloadHead, downloadBody]).map List.length) = 8192 := by
  rw [covering, if_pos le_rfl, List.map_singleton, length_downloadHead]
  decide

/-- A head that announces two bytes. -/
def shortHead : Bytes := str "HTTP/1.1 200 OK\r\nContent-Length: 2\r\n\r\n"

theorem isHead_shortHead : IsHead shortHead := by
  rw [shortHead, str_ofList]
  decide +kernel

theorem length_shortHead : shortHead.length = 38 := by
  rw [shortHead, str_ofList]
  rfl

theorem parseContentLength_shortHead : parseContentLength shortHead = 2 := by
  rw [shortHead, str_ofList]
  decide +kernel

theorem segments_short : Segments (shortHead ++ str "ok") [shortHead, str "ok"] := by
  rw [shortHead, str_ofList]
  exact ⟨by decide, by decide, by decide⟩

theorem viewIntact_iff_short :
    ViewIntact (delivering doubling (fun _ => 0) [shortHead, str "ok"]) {} newBuffer
      (shortHead ++ str "ok") := by
  refine (viewIntact_iff isHead_shortHead segments_short doubling (fun _ => 0) {} newBuffer).mpr
    (.inr (.inr (.inr ?_)))
  rw [covering, if_pos le_rfl, List.map_singleton, length_shortHead, parseContentLength_shortHead]
  decide

/-- A body of 9000 bytes does not fit behind its head into the buffer of a new connection. -/
theorem view_moved_download :
    ¬ ViewIntact (delivering doubling (fun _ => 0) [downloadHead, downloadBody]) {} newBuffer
      (downloadHead ++ downloadBody) := by
  intro h
  have haccepted : ¬ Refused downloadHead.length [downloadHead, downloadBody] := by
    rw [Refused, covering, if_pos le_rfl]
    decide
  obtain ⟨body, hbody, hmoved⟩ :=
    exists_moved doubling (fun _ => 0) {} newBuffer isHead_downloadHead segments_download
      (by rw [parseContentLength_downloadHead, downloadBody, List.length_replicate]) rfl
      (by
        rw [capacityAfter_download, parseContentLength_downloadHead, length_downloadHead]
        decide)
  exact hmoved (h _ _ _ ((readHeaders_delivering doubling newBuffer isHead_downloadHead
    segments_download).2 haccepted) hbody)

end HttpClient.H1
