import HttpClient.H1.HeadLines
import HttpClient.H1.HeadView
import HttpClient.H1.PoolReservations

/-!
# Persistent connections

A server says in the head of its response whether the connection stays open. HTTP/1.1
connections do unless the `Connection` field lists `close`, HTTP/1.0 connections only if it lists
`keep-alive`. The client asks for `keep-alive` in every request.

Whether a connection is put on the idle list depends on the error of the response alone, and an
exchange that returns leaves it empty. The branch that gives the connection up after a response
is never taken.

## Main definitions

* `connectionOptions`, `persists` — what a head says about its connection
* `exchangeResult`, `Finishes` — the steps of a pooled request and of a probe after an exchange
* `KeepsPersistent` — only persistent connections become idle

## Main results

* `mem_connectionOptions_render` — the options of a well-formed head
* `keepsPersistent_iff` — the heads after which the pool does what it should
-/

set_option autoImplicit false

namespace HttpClient.H1

open Text Semantics

/-! ### What a head says -/

def skipOws (text : Bytes) : Bytes := text.dropWhile fun c => c == 32 || c == 9

def trimOws (text : Bytes) : Bytes := (skipOws (skipOws text).reverse).reverse

/-- The elements of a comma-separated list, in lower case. -/
def listTokens (value : Bytes) : List Bytes :=
  (value.splitOn 44).map fun token => lowerCopy (trimOws token)

def connectionField : Bytes := str "Connection"

/-- The options of all `Connection` lines of a head. -/
def connectionOptions (head : Bytes) : List Bytes :=
  ((headLines head).filter (lineNamed connectionField)).flatMap fun line =>
    listTokens (splitHeaderView line).2

def isHttp10 (head : Bytes) : Bool := (str "HTTP/1.0 ").isPrefixOf head

/-- Whether the connection may be used again after a response with this head. -/
def persists (head : Bytes) : Bool :=
  !(connectionOptions head).contains (str "close") &&
    (!isHttp10 head || (connectionOptions head).contains (str "keep-alive"))

/-- The head of the first response of a stream. -/
def responseHead (stream : Bytes) : Bytes :=
  (find headerTerminator stream).elim [] fun headerEnd => stream.take (headerEnd + 4)

example : persists (str "HTTP/1.1 200 OK\r\nConnection: x\r\ncONNECTION: y ,\tClose\r\n\r\n") =
    false := by
  rw [str_ofList]
  decide

theorem linesAux_line {line : Bytes} (h : IsLine line) (current text : Bytes) :
    linesAux current (line ++ 13 :: 10 :: text) =
      (current.reverse ++ line) :: linesAux [] text := by
  induction line generalizing current with
  | nil => rw [List.nil_append, linesAux, if_pos ⟨rfl, rfl⟩, List.append_nil]
  | cons c cs ih =>
    obtain ⟨b, rest, hrest⟩ : ∃ b rest, cs ++ 13 :: 10 :: text = b :: rest := by
      cases cs with
      | nil => exact ⟨13, 10 :: text, rfl⟩
      | cons b cs => exact ⟨b, cs ++ 13 :: 10 :: text, rfl⟩
    rw [List.cons_append, hrest, linesAux, if_neg fun hbreak => h.head_ne hbreak.1, ← hrest,
      ih h.tail, List.reverse_cons, List.append_assoc, List.singleton_append]

theorem linesAux_renderLines {lines : List Bytes} (h : ∀ line ∈ lines, IsLine line) (text : Bytes) :
    linesAux [] (renderLines lines ++ text) = lines ++ linesAux [] text := by
  induction lines with
  | nil => rfl
  | cons line lines ih =>
    rw [renderLines_cons, List.append_assoc, List.cons_append, List.cons_append,
      linesAux_line (h line List.mem_cons_self),
      ih fun other hother => h other (List.mem_cons_of_mem _ hother)]
    rfl

theorem headLines_render (head : Head) :
    headLines head.render = head.fields.map FieldLine.line := by
  have hfields : ∀ line ∈ head.fields.map FieldLine.line, IsLine line ∧ line ≠ [] := by
    intro line hline
    obtain ⟨field, -, rfl⟩ := List.mem_map.mp hline
    exact ⟨field.line_isText.isLine, field.line_ne⟩
  have hlines : ∀ line ∈ head.lines, IsLine line := by
    intro line hline
    rcases List.mem_cons.mp hline with rfl | hfield
    · exact head.statusLine_isText.isLine
    · exact (hfields line hfield).1
  rw [headLines, Head.render, linesAux_renderLines hlines, Head.lines, List.cons_append,
    List.drop_succ_cons, List.drop_zero, List.takeWhile_append_of_pos]
  · simp [crlf, linesAux]
  · exact fun line hline => by simpa using (hfields line hline).2

/-- In a well-formed head the options are the elements of all its `Connection` fields. -/
theorem mem_connectionOptions_render {head : Head} {token : Bytes} :
    token ∈ connectionOptions head.render ↔
      ∃ field ∈ head.named connectionField,
        token ∈ listTokens (trimLeft (field.leading ++ field.value ++ field.trailing)) := by
  have hsplit : ∀ field : FieldLine, splitHeaderView field.line =
      (field.name, trimLeft (field.leading ++ field.value ++ field.trailing)) :=
    fun field => splitHeaderView_append (fun hmem => (field.name_isFieldName.2 58 hmem).1 rfl) _
  have hnamed : ∀ field : FieldLine, lineNamed connectionField field.line = true ↔
      field.Named connectionField := by
    intro field
    rw [lineNamed, hsplit, headerNameEqual, beq_iff_eq, FieldLine.Named]
  simp only [connectionOptions, headLines_render, List.mem_flatMap, List.mem_filter, List.mem_map,
    Head.named, decide_eq_true_eq]
  constructor
  · rintro ⟨-, ⟨⟨field, hfield, rfl⟩, hname⟩, htoken⟩
    rw [hsplit] at htoken
    exact ⟨field, ⟨hfield, (hnamed field).mp hname⟩, htoken⟩
  · rintro ⟨field, ⟨hfield, hname⟩, htoken⟩
    refine ⟨field.line, ⟨⟨field, hfield, rfl⟩, (hnamed field).mpr hname⟩, ?_⟩
    rw [hsplit]
    exact htoken

/-! ### After an exchange -/

/-- What the caller of an exchange goes by: an exception, or the error of the response. -/
def exchangeResult : LoopResult Exchanged → Option ExchangeResult
  | .done exchanged =>
    some (if exchanged.response.error = [] then .success else .errorResponse)
  | .threw _ => some .exception
  | .waiting => none

/-- A pooled request or a probe goes on after its exchange on `connection`. `side` is the side of
the pool once the coroutine has let go of it. -/
inductive Finishes (options : PoolOptions) (result : ExchangeResult) (connection : Connection) :
    Pool → Pool → Prop where
  | pooled {pool pool' base : Pool} {i : Nat} {caller : Caller}
      (taken : pool.takeCaller i = some (caller, base))
      (phase : caller.phase = .exchanging connection)
      (step : step options pool (.exchanged i result) = some pool') :
      Finishes options result connection
        (base.updateCancelState caller.cancelState fun state => { state with connection := none })
        pool'
  | probe {pool pool' base : ProbedPool} {i : Nat} {probe : Caller}
      (taken : pool.takeProbe i = some (probe, base))
      (phase : probe.phase = .exchanging connection)
      (step : pool.step options (.probeExchanged i result) = some pool') :
      Finishes options result connection base.side pool'.side

/-- The connection becomes idle only if the head allows it. Otherwise its place is given up, and
a waiter is woken for it. -/
structure KeepsPersistent (head : Bytes) (connection : Connection) (side side' : Pool) : Prop where
  idle : side'.idle = side.idle ++ [connection] → persists head = true
  given : persists head = false → side' = { side with active := side.active - 1 }.wakeOne

variable {options : PoolOptions} {connection : Connection} {side side' : Pool}
  {net : Network} {url : ParsedUrl} {request : Request} {absoluteTarget : Bool}
  {buf : ReadBuffer} {stream head rest : Bytes} {exchanged : Exchanged}

/-- An exchange that returns reports no error. -/
theorem error_of_done
    (h : runLightH1Exchange net url request absoluteTarget buf stream = .done exchanged) :
    exchanged.response.error = [] := by
  unfold runLightH1Exchange at h
  split at h
  · cases h
  split at h
  · cases h
  · cases h
  · unfold finishExchange at h
    dsimp only at h
    split at h
    · cases h
    · cases h
    · obtain rfl := LoopResult.done.inj h
      rfl

theorem exchangeResult_of_done
    (h : runLightH1Exchange net url request absoluteTarget buf stream = .done exchanged) :
    exchangeResult (.done exchanged) = some .success := by
  rw [exchangeResult, error_of_done h, if_pos rfl]

/-- After a response without an error the connection becomes idle. -/
theorem returnIdle_of_finishes (h : Finishes options .success connection side side') :
    side' = side.returnIdle connection := by
  cases h with
  | pooled htaken hphase hstep =>
    obtain ⟨⟨caller, base⟩, htake, hends⟩ := Option.bind_eq_some_iff.mp hstep
    obtain ⟨rfl, rfl⟩ := Prod.mk.inj (Option.some.inj (htaken.symm.trans htake))
    simp only [hphase] at hends
    exact (Option.some.inj hends).symm
  | probe htaken hphase hstep =>
    obtain ⟨probe, base, taken, htake, hexchanging, hends⟩ := ProbedPool.step_probeExchanged hstep
    obtain ⟨rfl, rfl⟩ := Prod.mk.inj (Option.some.inj (htaken.symm.trans htake))
    obtain rfl := Phase.exchanging.inj (hphase.symm.trans hexchanging)
    rcases hends with ⟨-, rfl⟩ | ⟨hother, -⟩ | ⟨hother, -⟩
    · rfl
    · cases hother
    · cases hother

/-- The pool does what it should after exactly the accepted heads that allow persistence. -/
theorem keepsPersistent_iff {result : ExchangeResult}
    (hdone : runLightH1Exchange net url request absoluteTarget buf stream = .done exchanged)
    (hresult : exchangeResult (.done exchanged) = some result)
    (hfinishes : Finishes options result connection side side') :
    KeepsPersistent (responseHead stream) connection side side' ↔
      persists (responseHead stream) = true := by
  obtain rfl := Option.some.inj ((exchangeResult_of_done hdone).symm.trans hresult)
  obtain rfl := returnIdle_of_finishes hfinishes
  constructor
  · intro hkeeps
    exact hkeeps.idle rfl
  · intro hpersists
    refine ⟨fun _ => hpersists, fun hcloses => ?_⟩
    rw [hpersists] at hcloses
    cases hcloses

/-! ### A server that closes -/

/-- A network that delivers a response without a body with one read. -/
def oneRead (response : Bytes) : Network where
  policy := doubling
  freed _ := 0
  writeError := none
  events := [.data response.length]

def anyUrl : ParsedUrl :=
  { scheme := str "https", host := str "h", port := str "443", target := str "/" }

def staysOpen : Bytes := str "HTTP/1.0 204 No Content\r\nConnection: Keep-Alive\r\n\r\n"

def closes : Bytes := str "HTTP/1.1 204 No Content\r\nConnection: close\r\n\r\n"

/-- A request has opened the first connection of its origin, and a probe the second. -/
def requestAndProbe : List ProbedAction :=
  [.request (.acquire {} false false), .request (.connectSucceeded 0), .probe {} false false,
    .probeConnectSucceeded 0 false]

theorem keepsPersistent_iff_staysOpen :
    ∃ (exchanged : Exchanged) (connection : Connection) (side side' : Pool),
      runLightH1Exchange (oneRead staysOpen) anyUrl {} false newBuffer staysOpen =
        .done exchanged ∧
      Finishes {} .success connection side side' ∧
      KeepsPersistent (responseHead staysOpen) connection side side' := by
  obtain ⟨exchanged, hdone⟩ : ∃ exchanged,
      runLightH1Exchange (oneRead staysOpen) anyUrl {} false newBuffer staysOpen =
        .done exchanged := by
    rw [staysOpen, str_ofList]
    exact ⟨_, rfl⟩
  obtain ⟨pool, pool', base, caller, connection, -, htake, hphase, hstep⟩ :
      ∃ (pool : ProbedPool) (pool' base : Pool) (caller : Caller) (connection : Connection),
      exec (ProbedPool.step {}) {} requestAndProbe = some pool ∧
      pool.side.takeCaller 0 = some (caller, base) ∧ caller.phase = .exchanging connection ∧
      step {} pool.side (.exchanged 0 .success) = some pool' := ⟨_, _, _, _, _, rfl, rfl, rfl, rfl⟩
  have hfinishes : Finishes {} .success connection _ pool' := .pooled htake hphase hstep
  refine ⟨exchanged, connection, _, pool', hdone, hfinishes, ?_⟩
  have hpersists : persists (responseHead staysOpen) = true := by
    rw [staysOpen, str_ofList]
    decide +kernel
  exact (keepsPersistent_iff hdone (exchangeResult_of_done hdone) hfinishes).mpr hpersists

/-- The server closes both connections, and the next request is given one of them. -/
theorem closed_connection_reused :
    ∃ (exchanged : Exchanged) (pool pool' next : ProbedPool),
      runLightH1Exchange (oneRead closes) anyUrl {} false newBuffer closes = .done exchanged ∧
      exchangeResult (.done exchanged) = some .success ∧
      persists (responseHead closes) = false ∧
      exec (ProbedPool.step {}) {} requestAndProbe = some pool ∧
      exec (ProbedPool.step {}) pool
        [.request (.exchanged 0 .success), .probeExchanged 0 .success] = some pool' ∧
      pool'.side.idle = [⟨0, true⟩, ⟨1, true⟩] ∧
      pool'.step {} (.request (.acquire {} false false)) = some next ∧
      next.side.callers.map Caller.phase = [.exchanging ⟨1, true⟩] := by
  rw [closes, str_ofList]
  refine ⟨_, _, _, _, rfl, rfl, by decide +kernel, rfl, rfl, rfl, rfl, rfl⟩

end HttpClient.H1
