import HttpClient.H1.BodyChunks
import HttpClient.H2.BodyChunks
import HttpClient.Policy.ReplayGuard
import HttpClient.Routing.LastAttempt

/-!
# Streamed chunks and the body

A body chunk handler travels with its request: every hop, every try and every attempt of a route
hands on what arrives for it. So the chunks of a call are those of all its exchanges, one after
the other, and nothing tells the handler where the next exchange begins.

The response that the call returns is the one of its last exchange. If that exchange stores its
body, and hands on what it stores, its chunks are the body of the response. The lightweight
HTTP/1.1 exchange and the streams of HTTP/2 do so; the buffered HTTP/1.1 exchange hands on
nothing. Without a stored body the response has none, whatever has been handed on.

## Main definitions

* `Exchange`, `exchanges` — the exchanges of a call, in order
* `Transmits` — what an exchange may hand on, and which body its response then has
* `Streaming` — a request with a handler that stores its body as it is

## Main results

* `chunks_end_with_body` — the chunks of the last exchange are the body of the response
* `not_chunks_eq_body` — a body that is not stored; a redirect with a body
-/

set_option autoImplicit false

namespace HttpClient.Policy

open Text Semantics Semantics.Call Routing

/-! ### Exchanges -/

/-- An attempt, and the request it was made for. -/
structure Exchange where
  request : Request
  attempt : Attempt

/-- The exchanges of a hop. -/
def Hop.exchanges (hop : Hop Sending) : List Exchange :=
  hop.did.attempts.map fun attempt => { request := hop.request, attempt }

/-- The exchanges of all tries, in order. -/
def exchanges (tries : List (List (Hop Sending))) : List Exchange :=
  tries.reverse.flatMap fun hops => hops.reverse.flatMap Hop.exchanges

theorem exchanges_pushHop (hop : Hop Sending) (tries : List (List (Hop Sending))) :
    exchanges (pushHop hop tries) = exchanges tries ++ hop.exchanges := by
  cases tries with
  | nil => simp [exchanges, pushHop]
  | cons hops tries => simp [exchanges, pushHop]

/-- What the first exchanges of a call have handed on, if each hands on the given chunks. -/
def handed (chunks : Nat → List Bytes) (count : Nat) : Bytes :=
  ((List.range count).flatMap chunks).flatten

theorem handed_succ (chunks : Nat → List Bytes) (count : Nat) :
    handed chunks (count + 1) = handed chunks count ++ (chunks count).flatten := by
  simp [handed, List.range_succ]

/-- What an exchange may hand on. One that fails may have handed on anything before. -/
inductive Transmits (lightweight : Bool) (request : Request) (attempt : Attempt) :
    List Bytes → Prop where
  | failed {chunks : List Bytes}
      (h : ∀ response, attempt.response = some response → response.error ≠ []) :
      Transmits lightweight request attempt chunks
  | light {net : H1.Network} {url : ParsedUrl} {sent : Request} {absoluteTarget : Bool}
      {buf : H1.ReadBuffer} {stream : Bytes} {ex : H1.Exchanged} {response : Response}
      (hlight : lightweight = true) (htransport : attempt.transport ≠ .h2)
      (hhandler : sent.onBodyChunk = request.onBodyChunk)
      (hstore : sent.storeResponseBody = request.storeResponseBody)
      (hrun : H1.runLightH1Exchange net url sent absoluteTarget buf stream = .done ex)
      (hresponse : attempt.response = some response)
      (hbody : response.body = ex.response.body) :
      Transmits lightweight request attempt ex.chunks
  /-- `run_http_exchange` does not know the handler. -/
  | buffered {response : Response} (hlight : lightweight = false)
      (htransport : attempt.transport ≠ .h2) (hresponse : attempt.response = some response)
      (hbody : request.storeResponseBody = false → response.body = []) :
      Transmits lightweight request attempt []
  | stream {table after : H2.Streams} {id : Nat} {events : List H2.ResponseEvent}
      {storeHeaders callbackMode : Bool} {stream : H2.StreamState} {response : Response}
      (htransport : attempt.transport = .h2) (hfresh : table.find id = none)
      (honce : ∀ event ∈ events, ¬ event.Submits id)
      (hexec : exec H2.Streams.step table
        (.submit id request.storeResponseBody storeHeaders callbackMode :: events) = some after)
      (hfind : after.find id = some stream) (hresponse : attempt.response = some response)
      (hbody : response.body = stream.response.body) :
      Transmits lightweight request attempt
        (if request.onBodyChunk then
          table.fedBy id (.submit id request.storeResponseBody storeHeaders callbackMode :: events)
        else [])

/-- A request with a handler; the body of its response is stored, and not decompressed. -/
structure Streaming (request : Request) : Prop where
  handler : request.onBodyChunk = true
  stores : request.storeResponseBody = true
  plain : request.autoDecompress = false

/-- Both kinds of exchange hand on what they store. -/
theorem Transmits.body {request : Request} {attempt : Attempt} {chunks : List Bytes}
    {response : Response} (h : Transmits true request attempt chunks)
    (hstreaming : Streaming request) (hresponse : attempt.response = some response)
    (herror : response.error = []) : chunks.flatten = response.body := by
  cases h with
  | failed hfailed => exact absurd herror (hfailed response hresponse)
  | light _ _ hhandler hstore hrun hanswer hbody =>
    obtain rfl := Option.some.inj (hresponse.symm.trans hanswer)
    rw [hbody]
    exact H1.chunks_eq_body (hhandler.trans hstreaming.handler) (hstore.trans hstreaming.stores)
      hrun
  | buffered hlight => cases hlight
  | stream _ hfresh honce hexec hfind hanswer hbody =>
    obtain rfl := Option.some.inj (hresponse.symm.trans hanswer)
    rw [if_pos hstreaming.handler, hbody]
    rw [hstreaming.stores] at hexec ⊢
    exact (H2.body_eq_fedBy hfresh honce hexec hfind).symm

/-! ### Where the response comes from -/

/-- The exceptions that the raw requests of a call meet have a text. -/
def AllTexts (tries : List (List (Hop Sending))) : Prop :=
  ∀ hops ∈ tries, ∀ hop ∈ hops, ∀ env ∈ hop.did.script.rounds, Texts env

/-- A response without an error has the body that the last exchange has answered with. -/
def Answered (response : Response) (state : PolicyState (List Script) Sending) : Prop :=
  AllTexts state.tries → response.error = [] →
    ∃ exchange raw, (exchanges state.tries).getLast? = some exchange ∧
      Streaming exchange.request ∧ exchange.attempt.response = some raw ∧ raw.error = [] ∧
        raw.body = response.body

theorem Answered.transfer {response other : Response}
    {state : PolicyState (List Script) Sending} (h : Answered response state)
    (herror : other.error = response.error) (hbody : other.body = response.body) :
    Answered other state := by
  intro htexts hnone
  obtain ⟨exchange, raw, hlast, hstreaming, hraw, hraw', hsame⟩ :=
    h htexts (herror ▸ hnone)
  exact ⟨exchange, raw, hlast, hstreaming, hraw, hraw', hsame.trans hbody.symm⟩

/-- The response hooks leave the error and the body of a response as they are. -/
def KeepsBody (options : PolicyOptions) : Prop :=
  ∀ hook ∈ options.responseHooks, ∀ response hooked, hook response = .ok hooked →
    hooked.error = response.error ∧ hooked.body = response.body

theorem foldlM_keepsBody {hooks : List (Response → Except Bytes Response)}
    (h : ∀ hook ∈ hooks, ∀ response hooked, hook response = .ok hooked →
      hooked.error = response.error ∧ hooked.body = response.body) {response hooked : Response}
    (hfold : hooks.foldlM (fun response hook => hook response) response = .ok hooked) :
    hooked.error = response.error ∧ hooked.body = response.body := by
  induction hooks generalizing response with
  | nil =>
    cases hfold
    exact ⟨rfl, rfl⟩
  | cons hook hooks ih =>
    rw [List.foldlM_cons] at hfold
    cases hnext : hook response with
    | error what =>
      rw [hnext] at hfold
      cases hfold
    | ok next =>
      rw [hnext] at hfold
      obtain ⟨herror, hbody⟩ := ih (fun other hother => h other (List.mem_cons_of_mem _ hother))
        hfold
      obtain ⟨herror', hbody'⟩ := h hook List.mem_cons_self response next hnext
      exact ⟨herror.trans herror', hbody.trans hbody'⟩

/-! ### Hops -/

section Loop

variable {options : PolicyOptions} {current : Request} {redirects : Nat}
variable {pause : Int → Around (List Script) → Around (List Script)}
variable {zlibDecode : Int → Bytes → Except Bytes Bytes} {getenv : Bytes → Option Bytes}

theorem Streaming.withCookies (h : Streaming current) :
    Yields (fun _ => True) (fun sent _ => Streaming sent)
      (withCookies options current : PolicyCall (List Script) Sending Request) := by
  intro state _ sent after hout
  rw [Policy.withCookies, outcome_bind_ok (outcome_get state)] at hout
  split at hout
  · cases hjar : state.around.jar.cookieHeader current.url state.around.now with
    | error what =>
      rw [hjar] at hout
      cases hout
    | ok found =>
      rw [hjar] at hout
      cases hout
      split
      · exact ⟨h.handler, h.stores, h.plain⟩
      · exact h
  · cases hout
    exact h

/-- The raw request answers with the response of its last attempt. -/
theorem answered_rawHop {jar : CookieJar} {now : Int} (h : Streaming current) :
    Yields (fun _ => True) (fun ended after => ∀ response ∈ ended, Answered response after)
      (rawHop (routed pause zlibDecode getenv) redirects jar now current) := by
  rintro state - ended after hout response hresponse htexts herror
  cases hout
  set script := nextScript state.around with hscript
  have hraw : (rawRequest script.rounds current script.world).1 = some response := hresponse
  obtain ⟨hop, hhop⟩ : ∃ hop : Hop Sending, hop =
      { redirects, request := current, jar, now,
        did := { script,
                 attempts := (rawRequest script.rounds current script.world).2.attempts } } :=
    ⟨_, rfl⟩
  replace htexts : AllTexts (pushHop hop state.tries) := by rwa [hhop]
  have hmem : ∃ hops ∈ pushHop hop state.tries, hop ∈ hops := by
    cases state.tries with
    | nil => exact ⟨[hop], List.mem_singleton_self _, List.mem_singleton_self _⟩
    | cons hops tries => exact ⟨hop :: hops, List.mem_cons_self, List.mem_cons_self⟩
  obtain ⟨hops, hhops, hin⟩ := hmem
  have hrounds : ∀ env ∈ script.rounds, Texts env := by
    have hall := htexts hops hhops hop hin
    rwa [hhop] at hall
  obtain ⟨attempt, hlast, hanswer⟩ := rawRequest_fromLast hrounds rfl hraw herror
  refine ⟨{ request := current, attempt }, response, ?_, h, hanswer, herror, rfl⟩
  have hnew : hop.exchanges.getLast? = some { request := current, attempt } := by
    rw [hhop, Hop.exchanges, List.getLast?_map, hlast]
    rfl
  have hpushed : (exchanges (pushHop hop state.tries)).getLast? =
      some { request := current, attempt } := by
    rw [exchanges_pushHop, List.getLast?_append, hnew]
    rfl
  rwa [hhop] at hpushed

/-- Without decompression, a response is completed by what is said of the hop. -/
theorem completeResponse_plain {externals : Externals (List Script) Sending}
    (h : Streaming current) (response : Response) :
    completeResponse externals redirects current response =
      { response with finalUrl := current.url, redirectCount := redirects } := by
  rw [completeResponse, if_neg]
  simp [h.plain]

theorem answered_finishHop {externals : Externals (List Script) Sending} {response : Response}
    (hhooks : KeepsBody options) (h : Streaming current) :
    Yields (Answered response)
      (fun ended after => ∀ sent last, ended = some (sent, last) →
        Streaming sent ∧ Answered last after)
      (finishHop options externals redirects current response) := by
  have htake : Yields (Answered response) (fun _ after => Answered response after)
      (takeCookies options current (completeResponse externals redirects current response) :
        PolicyCall (List Script) Sending Unit) := by
    intro state hstate _ after hout
    have hkeeps : Keeps (fun other : PolicyState (List Script) Sending =>
        other.tries = state.tries) (takeCookies options current
          (completeResponse externals redirects current response)) :=
      takeCookies_tries current _ state.tries
    have htries := hkeeps state rfl
    rw [hout] at htries
    rw [Answered, htries]
    exact hstate
  refine htake.bind fun _ => Yields.bind (Y := fun hooked after => Answered hooked after)
    (Yields.ofExcept fun hooked hfold state hstate => ?_) fun hooked => Yields.pure ?_
  · obtain ⟨herror, hbody⟩ := foldlM_keepsBody hhooks hfold
    rw [completeResponse_plain h] at herror hbody
    exact hstate.transfer herror hbody
  · intro state hstate sent last hended
    cases hended
    exact ⟨h, hstate⟩

theorem answered_oneHop (hhooks : KeepsBody options) (h : Streaming current) :
    Yields (fun _ => True)
      (fun ended after => ∀ sent last, ended = some (sent, last) →
        Streaming sent ∧ Answered last after)
      (oneHop options (routed pause zlibDecode getenv) redirects current) := by
  intro state _ ended after hout
  rw [oneHop, outcome_bind_ok (outcome_get state)] at hout
  refine Yields.bind (Z := fun ended after => ∀ sent last, ended = some (sent, last) →
    Streaming sent ∧ Answered last after) h.withCookies (fun sent => ?_) state trivial ended
    after hout
  intro state' hsent
  refine Yields.bind (answered_rawHop hsent) (fun response => ?_) state' trivial
  cases response with
  | none => exact Yields.pure fun _ _ _ _ hnone => nomatch hnone
  | some response =>
    exact (answered_finishHop hhooks hsent).mono (fun _ hended => hended response rfl)
      fun _ _ hended => hended

/-! ### The loops -/

theorem Streaming.redirected {next : Request} {status : Nat} {location : Bytes}
    (h : Streaming current) (hnext : redirected current status location = .ok next) :
    Streaming next := by
  rw [Policy.redirected] at hnext
  cases hurl : resolveRedirectUrl current.url location with
  | error what =>
    rw [hurl] at hnext
    cases hnext
  | ok url =>
    rw [hurl] at hnext
    cases hnext
    split
    · exact ⟨h.handler, h.stores, h.plain⟩
    · exact ⟨h.handler, h.stores, h.plain⟩

/-- Following redirects: on how many are left. -/
theorem answered_followHops {follows : Bool} {remaining : Nat} (hhooks : KeepsBody options)
    (h : Streaming current) :
    Yields (fun _ => True) (fun ended after => ∀ response ∈ ended, Answered response after)
      (followHops options (routed pause zlibDecode getenv) follows remaining redirects
        current) := by
  induction remaining generalizing redirects current with
  | zero =>
    refine (answered_oneHop hhooks h).bind fun ended => ?_
    cases ended with
    | none => exact Yields.pure fun _ _ _ hnone => nomatch hnone
    | some answered =>
      obtain ⟨sent, last⟩ := answered
      rw [afterHop]
      split
      · refine Yields.pure fun state hended response hresponse => ?_
        obtain rfl := Option.some.inj hresponse
        exact (hended sent last rfl).2
      · -- too many redirects are an error
        refine Yields.pure fun state _ response hresponse _ herror => ?_
        obtain rfl := Option.some.inj hresponse
        cases herror
  | succ remaining ih =>
    refine (answered_oneHop hhooks h).bind fun ended => ?_
    cases ended with
    | none => exact Yields.pure fun _ _ _ hnone => nomatch hnone
    | some answered =>
      obtain ⟨sent, last⟩ := answered
      rw [afterHop]
      split
      · refine Yields.pure fun state hended response hresponse => ?_
        obtain rfl := Option.some.inj hresponse
        exact (hended sent last rfl).2
      · rename_i location hlocation
        refine Yields.bind (Y := fun next _ => Streaming next)
          (Yields.ofExcept fun next hnext state hended => ?_) fun next => ?_
        · exact (hended sent last rfl).1.redirected hnext
        · exact fun state hnext => ih hnext state trivial

theorem answered_tryOnce (hhooks : KeepsBody options) (h : Streaming current) :
    Yields (fun _ => True) (fun ended after => ∀ response ∈ ended, Answered response after)
      (tryOnce options (routed pause zlibDecode getenv) current) :=
  Yields.bind (Yields.modify fun _ _ => trivial) fun _ => answered_followHops hhooks h

theorem answered_tryRequest {remaining : Nat} (hhooks : KeepsBody options)
    (h : Streaming current) :
    Yields (fun _ => True) (fun ended after => ∀ response ∈ ended, Answered response after)
      (tryRequest options (routed pause zlibDecode getenv) current remaining) := by
  induction remaining with
  | zero => exact answered_tryOnce hhooks h
  | succ remaining ih =>
    refine (answered_tryOnce hhooks h).bind fun ended => ?_
    cases ended with
    | none => exact Yields.pure fun _ _ _ hnone => nomatch hnone
    | some last =>
      dsimp only
      split
      · refine Yields.bind (Y := fun _ _ => True) (Yields.modify fun _ _ => trivial) fun _ => ih
      · exact Yields.pure fun _ hended => hended

/-! ### The whole request -/

/-- The chunks of a call are those of its earlier exchanges, and then the body of its response. -/
theorem chunks_end_with_body {request completed : Request} {around : Around (List Script)}
    {response : Response} {after : PolicyState (List Script) Sending}
    {chunks : Nat → List Bytes} (hhooks : KeepsBody options)
    (hcompleted : applyDefaults options getenv request = .ok completed)
    (hstreaming : Streaming completed)
    (hrun : (requestWithHttpxPolicy options (routed pause zlibDecode getenv) request).outcome
      { around } = (.ok (some response), after))
    (herror : response.error = []) (htexts : AllTexts after.tries)
    (hchunks : ∀ i exchange, (exchanges after.tries)[i]? = some exchange →
      Transmits true exchange.request exchange.attempt (chunks i)) :
    handed chunks (exchanges after.tries).length =
      handed chunks ((exchanges after.tries).length - 1) ++ response.body := by
  have hprepared : (ofExcept (applyDefaults options (routed pause zlibDecode getenv).getenv
      request) : PolicyCall (List Script) Sending Request).outcome { around } =
        (.ok completed, { around }) := by
    change (ofExcept (applyDefaults options getenv request) :
      PolicyCall (List Script) Sending Request).outcome { around } = _
    rw [hcompleted]
    rfl
  rw [requestWithHttpxPolicy, outcome_bind_ok hprepared] at hrun
  split at hrun
  · -- nothing is tried, and the response is empty
    cases hrun
    rfl
  · obtain ⟨exchange, raw, hlast, hsent, hraw, hnone, hbody⟩ :=
      answered_tryRequest hhooks hstreaming _ trivial _ _ hrun response rfl htexts herror
    rw [List.getLast?_eq_getElem?] at hlast
    have hsome : (exchanges after.tries).length ≠ 0 := by
      intro hempty
      rw [List.length_eq_zero_iff.mp hempty] at hlast
      cases hlast
    obtain ⟨count, hcount⟩ := Nat.exists_eq_succ_of_ne_zero hsome
    have hchunk := (hchunks _ exchange hlast).body hsent hraw hnone
    rw [hcount] at hchunk ⊢
    rw [Nat.succ_eq_add_one, handed_succ, Nat.add_sub_cancel, ← hbody]
    exact congrArg _ hchunk

end Loop

/-! ### Runs -/

/-- A response with a body of five bytes arrives in one read. -/
def oneRead : H1.Network where
  policy := H1.exactFit
  freed _ := 0
  writeError := none
  events := [.data 100]

/-- The exchange of a request that is answered with the given body. -/
def answeredWith (request : Request) (body : Bytes) : H1.LoopResult H1.Exchanged :=
  H1.runLightH1Exchange oneRead ⟨str "http", str "a", str "80", str "/"⟩ request false
    ⟨[], 15, 0, by decide⟩ (str "HTTP/1.1 200 OK\r\nContent-Length: 5\r\n\r\n" ++ body)

/-- A request over HTTP/1.1 with a handler. -/
def streamed (storeResponseBody : Bool) : Request where
  url := str "http://a/"
  protocolPolicy := .forceH1
  followRedirects := some true
  storeResponseBody
  onBodyChunk := true

/-- What a raw request over HTTP/1.1 meets that is answered. -/
def answering (response : Response) : Script where
  rounds := [{ h1 := { sent := true, response } }]

/-- The hop of such a raw request. -/
def answeredHop (redirects : Nat) (request : Request) (response : Response) : Hop Sending where
  redirects
  request
  jar := []
  now := 0
  did := { script := answering response, attempts := [⟨.h1, true, some response⟩] }

def streamedRun (storeResponseBody : Bool) (responses : List Response) :
    Except Bytes (Option Response) × PolicyState (List Script) Sending :=
  (requestWithHttpxPolicy {} (routed (fun _ around => around) (fun _ body => .ok body)
    fun _ => none) (streamed storeResponseBody)).outcome
      { around := { rest := responses.map answering } }

theorem transmits_answered (request : Request) (body : Bytes) {response : Response}
    {ex : H1.Exchanged} (hrun : answeredWith request body = .done ex)
    (hbody : response.body = ex.response.body) :
    Transmits true request ⟨.h1, true, some response⟩ ex.chunks :=
  .light rfl (fun h => nomatch h) rfl rfl hrun rfl hbody

def hello : Response := { status := 200, body := str "hello" }

/-- A redirect, with a body of its own. -/
def moved : Response := { status := 302, headers := [str "Location: /b"], body := str "moved" }

/-- What the exchanges of the two runs hand on. -/
def movedChunks : Nat → List Bytes
  | 0 => [str "moved"]
  | _ => [str "hello"]

/-- The two hops of the redirect, the last one first. -/
theorem tries_moved : (streamedRun true [moved, hello]).2.tries =
    [[answeredHop 1 { streamed true with url := str "http://a/b" } hello,
      answeredHop 0 (streamed true) moved]] := rfl

theorem streamedRun_moved : streamedRun true [moved, hello] =
    (.ok (some { hello with finalUrl := str "http://a/b", redirectCount := 1 }),
      (streamedRun true [moved, hello]).2) := by
  have hanswer : (streamedRun true [moved, hello]).1 =
      .ok (some { hello with finalUrl := str "http://a/b", redirectCount := 1 }) := by
    decide +kernel
  exact Prod.ext hanswer rfl

theorem transmits_moved (i : Nat) (exchange : Exchange)
    (h : (exchanges (streamedRun true [moved, hello]).2.tries)[i]? = some exchange) :
    Transmits true exchange.request exchange.attempt (movedChunks i) := by
  rw [tries_moved] at h
  match i with
  | 0 =>
    obtain rfl := Option.some.inj h
    exact transmits_answered (streamed true) (str "moved") rfl rfl
  | 1 =>
    obtain rfl := Option.some.inj h
    exact transmits_answered { streamed true with url := str "http://a/b" } (str "hello") rfl rfl
  | i + 2 => cases h

/-- Both exchanges hand on a body; that of the last one is the body of the response. -/
theorem chunks_end_with_body_moved :
    (streamedRun true [moved, hello]).1 =
        .ok (some { hello with finalUrl := str "http://a/b", redirectCount := 1 }) ∧
      handed movedChunks 1 = str "moved" ∧
      handed movedChunks 2 = handed movedChunks 1 ++ str "hello" := by
  have hcompleted : applyDefaults {} (fun _ => none) (streamed true) = .ok (streamed true) := rfl
  have hhooks : KeepsBody {} := fun hook hhook => nomatch hhook
  have htexts : AllTexts (streamedRun true [moved, hello]).2.tries := by
    rw [tries_moved]
    intro hops hhops hop hhop env henv
    obtain rfl := List.mem_singleton.mp hhops
    -- either hop has met one environment, without exceptions
    rcases List.mem_pair.mp hhop with rfl | rfl
    all_goals
      obtain rfl := List.mem_singleton.mp henv
      exact ⟨fun _ _ h => (nomatch h), fun _ _ h => (nomatch h)⟩
  have hlaw := chunks_end_with_body hhooks hcompleted ⟨rfl, rfl, rfl⟩ streamedRun_moved rfl htexts
    transmits_moved
  rw [tries_moved] at hlaw
  exact ⟨congrArg Prod.fst streamedRun_moved, by decide, hlaw⟩

/-- A body that is not stored is handed on, and is not in the response. A redirect hands on its
body before the one of the response. -/
theorem not_chunks_eq_body :
    (∃ response after, streamedRun false [{ status := 200 }] = (.ok (some response), after) ∧
      response.error = [] ∧
      (∀ (i : Nat) (exchange : Exchange), (exchanges after.tries)[i]? = some exchange →
        Transmits true exchange.request exchange.attempt [str "hello"]) ∧
      handed (fun _ => [str "hello"]) (exchanges after.tries).length ≠ response.body) ∧
    ∃ response after, streamedRun true [moved, hello] = (.ok (some response), after) ∧
      response.error = [] ∧
      (∀ (i : Nat) (exchange : Exchange), (exchanges after.tries)[i]? = some exchange →
        Transmits true exchange.request exchange.attempt (movedChunks i)) ∧
      handed movedChunks (exchanges after.tries).length ≠ response.body := by
  constructor
  · obtain ⟨after, hrun, htries⟩ : ∃ after,
        streamedRun false [{ status := 200 }] =
          (.ok (some { status := 200, finalUrl := str "http://a/" }), after) ∧
        after.tries = [[answeredHop 0 (streamed false) { status := 200 }]] := ⟨_, rfl, rfl⟩
    refine ⟨_, after, hrun, rfl, ?_, ?_⟩
    · rw [htries]
      intro i exchange hexchange
      cases i with
      | zero =>
        obtain rfl := Option.some.inj hexchange
        exact transmits_answered (streamed false) (str "hello") rfl rfl
      | succ i => cases hexchange
    · rw [htries]
      decide
  · refine ⟨_, _, streamedRun_moved, rfl, transmits_moved, ?_⟩
    rw [tries_moved]
    decide

end HttpClient.Policy
