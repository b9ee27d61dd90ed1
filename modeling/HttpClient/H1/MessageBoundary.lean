import HttpClient.H1.HeadView

/-!
# Where a response ends

The client keeps a connection after an exchange, so an exchange must stop reading
where the response ends. `MessageBoundary` says that it does, for one request, one
way in which strings grow and one response, and every way the bytes arrive;
`BoundaryKept` is the exact condition on these and the read buffer.

## Main definitions

* `MessageBoundary` — every exchange that returns delivers the final response and
  consumes exactly the stream
* `BoundaryKept` — the responses that the client delimits

## Main results

* `messageBoundary_iff` — the client keeps message boundaries exactly if
  `BoundaryKept` holds
-/

set_option autoImplicit false

namespace HttpClient.H1

open Text

/-- Every exchange that returns carries the status and the decoded body of the final
response and has consumed the whole stream. A body is only carried if the request
asks for it. -/
def MessageBoundary (policy : GrowthPolicy) (request : Request) (buf : ReadBuffer)
    (interims : List Interim) (final : FinalResponse (sentMethod request)) : Prop :=
  ∀ net url absoluteTarget ex, net.policy = policy →
    runLightH1Exchange net url request absoluteTarget buf (responseStream interims final) =
        .done ex →
      ex.response.status = final.head.status ∧
        ex.response.body = (if request.storeResponseBody then final.framing.content else []) ∧
        ex.rest = []

/-- The framings after which the client stops at the right place. A stored body must
fit into the read buffer behind the head, with the capacity that the buffer has after
the reads that deliver the head, however the response is split: the status is parsed
from the head only after the body loop. -/
def Framing.Kept (policy : GrowthPolicy) (request : Request) (buf : ReadBuffer) (head : Head) :
    Framing → Prop
  | bodiless => True
  | chunked _ _ => False
  | contentLength body =>
    body.length < 2 ^ 64 ∧
      (body = [] ∨ request.storeResponseBody = false ∨
        ∀ parts, Segments (head.render ++ body) parts → ¬ Refused head.render.length parts →
          head.render.length + body.length ≤ capacityAfter policy buf.capacity 0
            ((covering head.render.length parts).map List.length))

/-- Either the first head is so long that no exchange returns, or there is no interim
response and the framing is one that the client handles. -/
def BoundaryKept (policy : GrowthPolicy) (request : Request) (buf : ReadBuffer)
    (interims : List Interim) (final : FinalResponse (sentMethod request)) : Prop :=
  headerLimit + chunkSize < (firstHead interims final).render.length ∨
    (interims = [] ∧ final.framing.Kept policy request buf final.head)

variable {policy : GrowthPolicy} {request : Request} {buf : ReadBuffer} {rest : Bytes}
  {net : Network} {url : ParsedUrl} {absoluteTarget : Bool} {ex : Exchanged}

/-! ### Exchanges on a stream that starts with a head -/

theorem find_headerTerminator (head : Head) (text : Bytes) :
    find headerTerminator (head.render ++ text) = some (head.render.length - 4) := by
  have hterminator : headerTerminator = blankLine := by decide
  rw [hterminator, head.find_blankLine_render]

theorem isHead_render (head : Head) : IsHead head.render := by
  have hfound := find_headerTerminator head []
  rwa [List.append_nil] at hfound

/-- What an exchange has done that returns on a stream starting with `head`. -/
structure ExchangedOn (policy : GrowthPolicy) (request : Request) (buf : ReadBuffer) (head : Head)
    (rest : Bytes) (ex : Exchanged) (start : ReadBuffer) (unread taken : Bytes) (body : Reading) :
    Prop where
  stream : head.render ++ rest = start.data ++ unread
  short : head.render.length ≤ headerLimit + chunkSize
  covers : head.render.length ≤ start.data.length
  capacity : ∃ parts, Segments (head.render ++ rest) parts ∧ ¬ Refused head.render.length parts ∧
    start.capacity =
      capacityAfter policy buf.capacity 0 ((covering head.render.length parts).map List.length)
  bodyRead : BodyRead request (parseContentLength head.render)
    (start.data.length - head.render.length) start unread taken body
  rest_eq : ex.rest = body.rest
  status : body.buf.storage = start.storage → ex.response.status = head.status
  body_eq : ex.response.body =
    if request.storeResponseBody ∧ 0 < parseContentLength head.render then
      (body.buf.data.drop head.render.length).take (parseContentLength head.render)
    else []

/-- A prefix of a stream that covers the head starts with it. -/
theorem take_render {head : Head} {data unread : Bytes}
    (hstream : head.render ++ rest = data ++ unread)
    (hcovers : head.render.length ≤ data.length) : data.take head.render.length = head.render := by
  have htake := congrArg (List.take head.render.length) hstream
  rw [List.take_left, List.take_append_of_le_length hcovers] at htake
  exact htake.symm

theorem exchangedOn_of_done {head : Head}
    (h : runLightH1Exchange net url request absoluteTarget buf (head.render ++ rest) = .done ex) :
    ∃ start unread taken body,
      ExchangedOn net.policy request buf head rest ex start unread taken body := by
  obtain ⟨headerEnd, read, taken, body, contentLength, hrun, hcl, hbody, hrest, hstatus,
    hbody_eq⟩ := runLightH1Exchange_done h
  have hheaders := readHeaders_done hrun
  have hstream : head.render ++ rest = read.buf.data ++ read.rest := by
    simpa using hheaders.stream
  have hlong := head.length_render_ge
  have hterminator : headerTerminator.length = 4 := by decide
  have hfound := find_prefix_eq (p := read.buf.data) (hstream ▸ List.prefix_append _ _)
    (find_headerTerminator head rest)
  rw [hheaders.found, hterminator] at hfound
  obtain ⟨hcovers, rfl⟩ : head.render.length ≤ read.buf.data.length ∧
      headerEnd = head.render.length - 4 := by
    split_ifs at hfound with hfits
    exact ⟨by omega, Option.some.inj hfound⟩
  have hend : head.render.length - 4 + 4 = head.render.length := by omega
  rw [hend] at hcl hbody hstatus hbody_eq
  rw [take_render hstream hcovers] at hcl
  subst hcl
  have hsize := hheaders.size (by simp)
  refine ⟨read.buf, read.rest, taken, body,
    ⟨hstream, hcovers.trans hsize, hcovers,
      exists_segments_of_readHeaders (isHead_render head) hrun, hbody, hrest, ?_, hbody_eq⟩⟩
  intro hstorage
  have hview : body.buf.data.take head.render.length = head.render := by
    rw [hbody.data, List.take_append_of_le_length hcovers]
    exact take_render hstream hcovers
  rw [hstatus, View.read, if_pos hstorage.symm, hview, parseStatusCode_render]

/-- A view of freed memory that holds zeros has no status code. -/
theorem parseStatusCode_zeros (n : Nat) :
    parseStatusCode ((List.range n).map fun _ => 0) = 0 := by
  have hnone : findByte 32 ((List.range n).map fun _ => (0 : UInt8)) = none :=
    findByte_eq_none (by simp)
  rw [parseStatusCode, hnone]

/-- A network on which the exchange reads exactly the head before the body. The
buffer then holds the head, and freed memory holds zeros. -/
theorem exchange_returns (policy : GrowthPolicy) (url : ParsedUrl) (request : Request)
    (absoluteTarget : Bool) (buf : ReadBuffer) (rest : Bytes) {head : Head}
    (hshort : head.render.length ≤ headerLimit + chunkSize)
    (hbody : parseContentLength head.render ≤ rest.length) :
    ∃ net ex start taken body, net.policy = policy ∧
      runLightH1Exchange net url request absoluteTarget buf (head.render ++ rest) = .done ex ∧
        BodyRead request (parseContentLength head.render) 0 start rest taken body ∧
        ex.rest = body.rest ∧
        (body.buf.storage = start.storage → ex.response.status = head.status) := by
  have hlong := head.length_render_ge
  have hend : head.render.length - 4 + 4 = head.render.length := by omega
  have hfound : find headerTerminator head.render = some (head.render.length - 4) := by
    simpa using find_headerTerminator head []
  have hne : head.render ≠ [] := List.ne_nil_of_length_pos (by omega)
  obtain ⟨events, hevents⟩ : StopsAtHead policy buf.clear head.render head.render rest :=
    readHeaders_exact 2 (List.nil_append _) hfound (by omega) hne (hshort.trans (by decide))
      (show 0 + chunkSize * 2 ≤ headerLimit by decide)
  set contentLength := parseContentLength head.render with hcl
  obtain ⟨start, hheaders, hdata⟩ := hevents (List.replicate contentLength (.data 1))
  obtain ⟨body, hrun⟩ : ∃ body, readBody policy request contentLength 0 start [] rest
      (List.replicate (contentLength - 0) (.data 1)) = .done body := readBody_returns hbody
  obtain ⟨taken, hread⟩ := readBody_done hrun
  obtain ⟨net, hnet⟩ : ∃ net : Network, net = ⟨policy, fun _ => 0, none,
      events ++ List.replicate contentLength (.data 1)⟩ := ⟨_, rfl⟩
  obtain ⟨ex, hex, hrest, hstatus⟩ : ∃ ex,
      runLightH1Exchange net url request absoluteTarget buf (head.render ++ rest) = .done ex ∧
        ex.rest = body.rest ∧
        ex.response.status = parseStatusCode
          (({ storage := start.storage, length := head.render.length } : View).read
            (fun _ => 0) body.buf) := by
    rw [Nat.sub_zero] at hrun
    simp only [hnet, runLightH1Exchange, hheaders, finishExchange, View.read, hend, if_true,
      hdata, List.take_length, ← hcl, Nat.sub_self, Nat.lt_irrefl, and_false, if_false, hrun,
      LoopResult.done.injEq, exists_eq_left', and_self]
  refine ⟨net, ex, start, taken, body, hnet ▸ rfl, hex, hread, hrest, fun hstorage => ?_⟩
  have hintact : body.buf.data.take head.render.length = head.render := by
    rw [hread.data, hdata, List.take_left]
  rw [hstatus, View.read, if_pos hstorage.symm, hintact, parseStatusCode_render]

/-! ### Framings that are kept -/

/-- Without a body there is nothing to read, whatever the head announces. -/
theorem boundary_of_bodiless {head : Head}
    (h : runLightH1Exchange net url request absoluteTarget buf head.render = .done ex) :
    ex.response.status = head.status ∧ ex.response.body = [] ∧ ex.rest = [] := by
  rw [← List.append_nil head.render] at h
  obtain ⟨start, unread, taken, body, hex⟩ := exchangedOn_of_done h
  have hcovers := hex.covers
  have hstream := congrArg List.length hex.stream
  simp only [List.length_append, List.length_nil] at hstream
  have hunread : unread = [] := List.eq_nil_of_length_eq_zero (by omega)
  obtain ⟨htaken, hrest⟩ : taken = [] ∧ body.rest = [] := by
    have := hex.bodyRead.stream
    rw [hunread] at this
    exact List.append_eq_nil_iff.mp this.symm
  have hdata : body.buf.data = start.data := by
    rw [hex.bodyRead.data, htaken]
    simp
  have hnone : parseContentLength head.render = 0 := by
    have := hex.bodyRead.length
    rw [htaken, List.length_nil] at this
    omega
  refine ⟨hex.status (hex.bodyRead.intact ?_), ?_, hex.rest_eq.trans hrest⟩
  · rw [hdata]
    exact start.fits
  · simp [hex.body_eq, hnone]

/-- A body whose length the head announces is read to its end. -/
theorem boundary_of_contentLength {head : Head} {content : Bytes}
    (hcl : parseContentLength head.render = content.length)
    (hkept : content = [] ∨ request.storeResponseBody = false ∨
      ∀ parts, Segments (head.render ++ content) parts → ¬ Refused head.render.length parts →
        head.render.length + content.length ≤ capacityAfter net.policy buf.capacity 0
          ((covering head.render.length parts).map List.length))
    (h : runLightH1Exchange net url request absoluteTarget buf (head.render ++ content) =
      .done ex) :
    ex.response.status = head.status ∧
      ex.response.body = (if request.storeResponseBody then content else []) ∧ ex.rest = [] := by
  obtain ⟨start, unread, taken, body, hex⟩ := exchangedOn_of_done h
  have hbody := hex.bodyRead
  rw [hcl] at hbody
  have hcovers := hex.covers
  have hstream := congrArg List.length hex.stream
  have hunread := congrArg List.length hbody.stream
  have hlength := hbody.length
  simp only [List.length_append] at hstream hunread
  have hrest : body.rest = [] := List.eq_nil_of_length_eq_zero (by omega)
  have htaken : unread = taken := by rw [hbody.stream, hrest, List.append_nil]
  -- Whatever the reads were, the buffer has not moved when the status is parsed.
  have hfits : body.buf.data.length ≤ start.capacity := by
    have hstart := start.fits
    rw [hbody.data, List.length_append]
    rcases hkept with hnil | hdrop | hfit
    · have hzero : content.length = 0 := congrArg List.length hnil
      have : taken = [] := List.eq_nil_of_length_eq_zero (by omega)
      simp [this, hstart]
    · simp [hdrop, hstart]
    · obtain ⟨parts, hparts, haccepted, hcapacity⟩ := hex.capacity
      have hroom := hfit parts hparts haccepted
      rw [← hcapacity] at hroom
      split_ifs
      · omega
      · simpa using hstart
  refine ⟨hex.status (hbody.intact hfits), ?_, hex.rest_eq.trans hrest⟩
  rw [hex.body_eq, hcl]
  cases hstore : request.storeResponseBody with
  | false => simp
  | true =>
    have hdata : body.buf.data = head.render ++ content := by
      rw [hbody.data, hstore, if_pos rfl, ← htaken, hex.stream]
    rcases content.length.eq_zero_or_pos with hzero | hpos
    · simp [List.eq_nil_of_length_eq_zero hzero]
    · simp [hdata, hpos]

/-! ### Framings that are not kept -/

theorem parseContentLength_of_absent {head : Head} (h : head.named contentLengthField = []) :
    parseContentLength head.render = 0 := by
  rw [parseContentLength_render (by simp [h]), h]

theorem parseContentLength_of_determined {method : Bytes} {head : Head} {body : Bytes}
    (h : (Framing.contentLength body).Determined method head) :
    parseContentLength head.render = body.length % 2 ^ 64 := by
  obtain ⟨-, -, field, hnamed, hne, hdigits, hlength⟩ := h
  rw [parseContentLength_render, hnamed]
  · exact congrArg (· % 2 ^ 64) hlength
  · intro f hf
    rw [hnamed, List.mem_singleton] at hf
    exact hf ▸ ⟨hne, hdigits⟩

theorem Framing.render_chunked_ne (chunks : List Chunk) (trailers : List FieldLine) :
    (Framing.chunked chunks trailers).render ≠ [] := by
  simp [Framing.render, endLine, crlf]

theorem responseStream_nil {method : Bytes} (final : FinalResponse method) :
    responseStream [] final = final.head.render ++ final.framing.render := rfl

theorem responseStream_cons {method : Bytes} (interim : Interim) (interims : List Interim)
    (final : FinalResponse method) :
    responseStream (interim :: interims) final =
      interim.head.render ++ responseStream interims final := by
  simp [responseStream]

theorem exists_responseStream_eq {method : Bytes} (interims : List Interim)
    (final : FinalResponse method) :
    ∃ text, responseStream interims final = (firstHead interims final).render ++ text := by
  cases interims with
  | nil => exact ⟨_, responseStream_nil final⟩
  | cons interim interims => exact ⟨_, responseStream_cons interim interims final⟩

variable {interims : List Interim} {final : FinalResponse (sentMethod request)}

/-- An interim response is taken for the final one. -/
theorem not_messageBoundary_of_interim {interim : Interim}
    (hshort : interim.head.render.length ≤ headerLimit + chunkSize) :
    ¬ MessageBoundary policy request buf (interim :: interims) final := by
  intro h
  have hnone := parseContentLength_of_absent interim.no_contentLength
  obtain ⟨net, ex, start, taken, body, hpolicy, hrun, hread, -, hstatus⟩ :=
    exchange_returns policy ⟨[], [], [], []⟩ request false buf (responseStream interims final)
      hshort (hnone ▸ Nat.zero_le _)
  rw [← responseStream_cons] at hrun
  have htaken : taken = [] := List.eq_nil_of_length_eq_zero (by rw [hread.length, hnone])
  have hintact := hread.intact (by rw [hread.data, htaken]; simpa using start.fits)
  have hfinal := (h _ _ _ _ hpolicy hrun).1
  rw [hstatus hintact] at hfinal
  have hlow := interim.informational.2
  have hhigh := final.final
  omega

/-- A body longer than the client reads stays on the connection. -/
theorem not_messageBoundary_of_unread
    (hshort : final.head.render.length ≤ headerLimit + chunkSize)
    (hunread : parseContentLength final.head.render < final.framing.render.length) :
    ¬ MessageBoundary policy request buf [] final := by
  intro h
  obtain ⟨net, ex, start, taken, body, hpolicy, hrun, hread, hrest, -⟩ :=
    exchange_returns policy ⟨[], [], [], []⟩ request false buf _ hshort hunread.le
  rw [← responseStream_nil] at hrun
  have hconsumed := (h _ _ _ _ hpolicy hrun).2.2
  have hstream := hread.stream
  rw [← hrest, hconsumed, List.append_nil] at hstream
  have hlength := hread.length
  rw [← hstream] at hlength
  omega

/-- If for some split a stored body does not fit into the read buffer, it moves the head
away before the status is parsed. -/
theorem not_messageBoundary_of_moved {content : Bytes} {parts : List Bytes}
    (hframing : final.framing = .contentLength content) (hlength : content.length < 2 ^ 64)
    (hstore : request.storeResponseBody = true)
    (hparts : Segments (final.head.render ++ content) parts)
    (haccepted : ¬ Refused final.head.render.length parts)
    (hover : capacityAfter policy buf.capacity 0
        ((covering final.head.render.length parts).map List.length) <
      final.head.render.length + content.length) :
    ¬ MessageBoundary policy request buf [] final := by
  intro h
  have hhead := isHead_render final.head
  have hdetermined := final.determined
  rw [hframing] at hdetermined
  have hcl := parseContentLength_of_determined hdetermined
  rw [Nat.mod_eq_of_lt hlength] at hcl
  have hstream : responseStream [] final = final.head.render ++ content := by
    rw [responseStream_nil, hframing, Framing.render]
  obtain ⟨body, hbody, hmoved⟩ := exists_moved policy (fun _ => 0) request buf hhead hparts hcl.le
    hstore (hcl ▸ hover)
  have hheaders := (readHeaders_delivering policy buf hhead hparts).2 haccepted
  obtain ⟨ex, hex, hstatus⟩ : ∃ ex,
      runLightH1Exchange (delivering policy (fun _ => 0) parts) ⟨[], [], [], []⟩ request false buf
          (final.head.render ++ content) = .done ex ∧
        ex.response.status = parseStatusCode
          ((headersView (final.head.render.length - 4)
            (headReading policy buf final.head.render parts)).read (fun _ => 0) body.buf) := by
    have hheaders' : readHeaders (delivering policy (fun _ => 0) parts).policy buf.clear
        (final.head.render ++ content) (delivering policy (fun _ => 0) parts).events = _ := hheaders
    rw [runLightH1Exchange]
    dsimp only [delivering] at hheaders' ⊢
    rw [hheaders']
    dsimp only
    rw [finishExchange_eq]
    dsimp only [delivering] at hbody
    rw [hbody]
    exact ⟨_, rfl, rfl⟩
  have hfinal := (h _ _ _ _ rfl (hstream ▸ hex)).1
  rw [hstatus, View.read, if_neg hmoved, parseStatusCode_zeros] at hfinal
  have hhigh := final.final
  omega

/-! ### The exact condition -/

theorem messageBoundary_of_boundaryKept (h : BoundaryKept policy request buf interims final) :
    MessageBoundary policy request buf interims final := by
  intro net url absoluteTarget ex hpolicy hrun
  subst hpolicy
  rcases h with hlong | ⟨rfl, hkept⟩
  · obtain ⟨text, htext⟩ := exists_responseStream_eq interims final
    rw [htext] at hrun
    obtain ⟨start, unread, taken, body, hex⟩ := exchangedOn_of_done hrun
    exact absurd hlong (Nat.not_lt.mpr hex.short)
  · have hdetermined := final.determined
    rw [responseStream_nil] at hrun
    cases hframing : final.framing with
    | bodiless =>
      rw [hframing, Framing.render, List.append_nil] at hrun
      simpa [Framing.content] using boundary_of_bodiless hrun
    | chunked chunks trailers =>
      rw [hframing] at hkept
      exact hkept.elim
    | contentLength content =>
      rw [hframing] at hkept hrun hdetermined
      have hcl := parseContentLength_of_determined hdetermined
      rw [Nat.mod_eq_of_lt hkept.1] at hcl
      exact boundary_of_contentLength hcl hkept.2 hrun

/-- The client keeps message boundaries exactly if the condition holds. -/
theorem messageBoundary_iff (policy : GrowthPolicy) (request : Request) (buf : ReadBuffer)
    (interims : List Interim) (final : FinalResponse (sentMethod request)) :
    MessageBoundary policy request buf interims final ↔
      BoundaryKept policy request buf interims final := by
  refine ⟨fun h => ?_, messageBoundary_of_boundaryKept⟩
  rcases Nat.lt_or_ge (headerLimit + chunkSize) (firstHead interims final).render.length with
    hlong | hshort
  · exact Or.inl hlong
  refine Or.inr ?_
  cases interims with
  | cons interim interims => exact absurd h (not_messageBoundary_of_interim hshort)
  | nil =>
    refine ⟨rfl, ?_⟩
    have hdetermined := final.determined
    cases hframing : final.framing with
    | bodiless => trivial
    | chunked chunks trailers =>
      rw [hframing] at hdetermined
      refine not_messageBoundary_of_unread hshort ?_ h
      rw [parseContentLength_of_absent hdetermined.2.1, hframing]
      exact List.length_pos_of_ne_nil (Framing.render_chunked_ne chunks trailers)
    | contentLength content =>
      rw [hframing] at hdetermined
      have hcl := parseContentLength_of_determined hdetermined
      have hrender : final.framing.render = content := by rw [hframing, Framing.render]
      have hlength : content.length < 2 ^ 64 := by
        by_contra hlarge
        refine not_messageBoundary_of_unread hshort ?_ h
        rw [hcl, hrender]
        have := Nat.mod_lt content.length (show 0 < 2 ^ 64 by decide)
        omega
      refine ⟨hlength, ?_⟩
      by_contra hnot
      rw [not_or, not_or, Bool.not_eq_false] at hnot
      obtain ⟨-, hstore, hnot⟩ := hnot
      push Not at hnot
      obtain ⟨parts, hparts, haccepted, hover⟩ := hnot
      exact not_messageBoundary_of_moved hframing hlength hstore hparts haccepted hover h

/-- A `GET` answered with one chunk, `hello`. -/
def chunkedHello : FinalResponse (sentMethod {}) where
  head :=
    { status := 200
      reason := str "OK"
      fields :=
        [{ name := str "Transfer-Encoding"
           leading := str " "
           value := str "chunked"
           name_isFieldName := by decide
           leading_isOws := by decide
           value_isText := by decide
           trailing_isOws := by decide }]
      status_lt := by decide
      reason_isText := by decide }
  framing := .chunked
    [{ size := str "5", data := str "hello", size_eq := by decide, data_ne := by decide
       extension_isText := by decide }] []
  final := by decide
  determined := ⟨by simp [NeverBody, sentMethod]; decide, by decide, _, rfl, by decide⟩

/-- The chunked response arrives in one read on a new connection. The exchange returns
an empty body and keeps the connection; the chunks are read and dropped. -/
theorem not_messageBoundary_chunkedHello :
    ¬ MessageBoundary doubling {} newBuffer [] chunkedHello := by
  intro h
  have hbody := (h ⟨doubling, fun _ => 0, none, [.data 100]⟩ ⟨str "http", str "a", str "80",
    str "/"⟩ false _ rfl rfl).2.1
  revert hbody
  decide

end HttpClient.H1
