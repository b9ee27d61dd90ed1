import HttpClient.Request
import HttpClient.Url
import HttpClient.Routing.OriginGate
import HttpClient.Semantics.Call

/-!
# The routes of a request

One raw request chooses between the HTTP/1.1 and the HTTP/2 client by its protocol
policy, and may make more than one attempt. Between two of its steps other requests of
the same origin may use the gate, and at each suspension point a cancellation may surface
as an exception, before what was to be awaited has begun.

What the two clients do, the ALPN protocol a probe negotiates, what the route caches hold
and what other requests do are given by the environment. The two protocol clients parse
the URL themselves, and a URL they refuse is not sent.

## Main definitions

* `Attempt`, `World` — what is sent, and the gate that is used
* `Await`, `Env` — the suspension points, and what happens at each
* `requestH1`, `requestH2`, `probeRequest` — one attempt
* `viaH2` — the order of attempts that `detect` and `requestPreferH2` share
* `chooseRoute`, `requestAuto`, `rawRequest` — the routes
-/

set_option autoImplicit false

namespace HttpClient.Routing

open Text Semantics

/-! ### Attempts -/

inductive Transport where
  | h1
  | h2
  | probe
  deriving DecidableEq, Repr

/-- One attempt: whether its bytes may have reached the origin, and its response if it
did not throw. -/
structure Attempt where
  transport : Transport
  sent : Bool
  response : Option Response
  deriving DecidableEq, Repr

/-- How an attempt ends that may throw. -/
structure Outcome where
  sent : Bool
  result : Except Bytes Response

def Outcome.attempt (outcome : Outcome) (transport : Transport) : Attempt where
  transport
  sent := outcome.sent
  response := outcome.result.toOption

/-- How an attempt of the HTTP/1.1 client ends, which catches exceptions itself. -/
structure Delivery where
  sent : Bool
  response : Response

def Delivery.attempt (delivery : Delivery) : Attempt where
  transport := .h1
  sent := delivery.sent
  response := some delivery.response

inductive ProbeProtocol where
  | unknown
  | http11
  | h2
  deriving DecidableEq, Repr

structure ProbeResult where
  protocol : ProbeProtocol := .unknown
  response : Response := {}

/-- The protocol the TLS handshake has selected, as the bytes of its name. -/
def selectedAlpn (selected : Bytes) : ProbeProtocol :=
  if selected = str "h2" then .h2
  else if selected = str "http/1.1" then .http11
  else .unknown

/-! ### The world of a call -/

/-- What other requests of the origin do to its gate. -/
inductive GateEvent where
  | enter (now : Int)
  | learnH1
  | learnH2
  | recordH2Origin
  | markH2Failed (now : Int)
  /-- The gate is dropped from the table of origins, unless that is blocked. -/
  | evict
  deriving DecidableEq, Repr

/-- The gate the call holds, and the attempts it has made. -/
structure World where
  gate : OriginGate := {}
  /-- Whether the gate is still the one in the table of origins. -/
  cached : Bool := true
  attempts : List Attempt := []

namespace World

def onGate (update : OriginGate → OriginGate) (world : World) : World :=
  { world with gate := update world.gate }

def event (options : GateOptions) (world : World) : GateEvent → World
  | .enter now => world.onGate fun gate => (gate.enter options now).2
  | .learnH1 => world.onGate (OriginGate.setProtocol .h1Only)
  | .learnH2 => world.onGate (OriginGate.setProtocol .h2Available)
  | .recordH2Origin => world.onGate OriginGate.recordH2Origin
  | .markH2Failed now => world.onGate (OriginGate.markH2Failed options now)
  | .evict => if world.gate.evictionBlocked then world else { world with cached := false }

def events (options : GateOptions) (world : World) (events : List GateEvent) : World :=
  events.foldl (event options) world

end World

/-- The suspension points of a raw request. Each is passed at most once in a round;
those that occur twice in the code are told apart by `retry`. -/
inductive Await where
  | enter
  | wait
  | hasH2Origin
  | h1
  | h2 (retry : Bool)
  | h2Failed (retry : Bool)
  | recordH2 (retry : Bool)
  | setH2 (retry : Bool)
  | setH1
  | markFailed
  | probe
  deriving DecidableEq, Repr

inductive CachedRouteProtocol where
  | unknown
  | h1Only
  | h2Available
  deriving DecidableEq, Repr

/-- What one round of a raw request meets. -/
structure Env where
  options : GateOptions := {}
  now : Await → Int := fun _ => 0
  /-- The text of the exception, where a cancellation surfaces. -/
  cancelled : Await → Option Bytes := fun _ => none
  /-- What other requests do to the gate before the awaited operation. -/
  others : Await → List GateEvent := fun _ => []
  /-- What the thread's route cache holds for the URL. -/
  tlsRoute : Option CachedRouteProtocol := none
  /-- What the table of origins remembers. -/
  remembered : ProtocolState := .unknown
  h1 : Delivery := { sent := true, response := {} }
  h2 : Bool → Outcome := fun _ => { sent := true, result := .ok {} }
  /-- The ALPN protocol of the probe's connection. -/
  probeConnect : Except Bytes Bytes := .ok (str "http/1.1")
  probeExchange : Outcome := { sent := true, result := .ok {} }

/-- A part of a raw request. -/
abbrev Step := Call Bytes World

variable (env : Env) (request : Request)

/-- Others run; then a cancellation surfaces, or the awaited operation begins. -/
def await (point : Await) : Step Unit := do
  modify fun world => world.events env.options (env.others point)
  match env.cancelled point with
  | some what => throw what
  | none => return ()

def record (attempt : Attempt) : Step Unit :=
  modify fun world => { world with attempts := world.attempts ++ [attempt] }

/-- An update of the gate the call holds. -/
def onGate (update : OriginGate → OriginGate) : Step Unit := modify (World.onGate update)

/-- An update of the gate that is looked up anew; if the table has lost the gate, it is
another one. -/
def onCachedGate (update : OriginGate → OriginGate) : Step Unit :=
  modify fun world => if world.cached then world.onGate update else world

/-- Look up the gate of the origin, or put a new one into the table. -/
def getGate : Step Unit :=
  modify fun world => if world.cached then world else { world with gate := {}, cached := true }

/-! ### Single attempts -/

/-- The HTTP/1.1 client answers with the error of a URL it refuses. -/
def h1Delivery : Delivery :=
  match H1.parseUrl request.url with
  | .error what => { sent := false, response := { error := what } }
  | .ok _ => env.h1

def requestH1 : Step Response := do
  await env .h1
  record (h1Delivery env request).attempt
  return (h1Delivery env request).response

/-- The HTTP/2 client throws when it refuses the URL, before it has chosen a session. -/
def h2AsyncRequest (retry : Bool) : Step Response := do
  let _ ← ofExcept (H2.parseUrl request.url)
  record ((env.h2 retry).attempt .h2)
  ofExcept (env.h2 retry).result

/-- An error response is told to the gate, unless HTTP/2 is forced. -/
def answerH2 (retry force : Bool) (response : Response) : Step Response :=
  if response.error = [] ∨ force = true then return response
  else do
    await env (.h2Failed retry)
    onCachedGate (OriginGate.markH2Failed env.options (env.now (.h2Failed retry)))
    return response

def requestH2 (retry force : Bool) : Step Response := do
  let _ ← ofExcept (Policy.originKey request.url)
  await env (.h2 retry)
  let response ← h2AsyncRequest env request retry
  answerH2 env retry force response

/-- The protocol of the probe's connection, if there is one. -/
def probeProtocol : Except Bytes ProbeProtocol := do
  let url ← H1.parseUrl request.url
  if url.tls then return selectedAlpn (← env.probeConnect)
  else return .http11

/-- An exception of the exchange makes the protocol unknown. -/
def probeResult (protocol : ProbeProtocol) : ProbeResult :=
  match env.probeExchange.result with
  | .ok response => { protocol, response }
  | .error what => { response := { error := what } }

/-- Send the request on a connection whose protocol is negotiated, unless it is HTTP/2. -/
def probeRequest : Step ProbeResult :=
  match probeProtocol env request with
  | .error what => return { response := { error := what } }
  | .ok protocol =>
    if protocol = .h2 then return { protocol }
    else do
      record (env.probeExchange.attempt .probe)
      return probeResult env protocol

/-! ### Several attempts -/

/-- Tell the origin's gate that HTTP/2 is available. -/
def learnH2 (retry : Bool) : Step Unit := do
  await env (.recordH2 retry)
  onGate OriginGate.recordH2Origin
  await env (.setH2 retry)
  onGate (OriginGate.setProtocol .h2Available)

/-- After a failed attempt over HTTP/2: a probe, then an attempt over what it found. -/
def afterProbe : Step Response := do
  await env .probe
  let probe ← probeRequest env request
  if probe.protocol = .http11 ∧ probe.response.error = [] then return probe.response
  else if probe.protocol = .h2 then do
    learnH2 env true
    requestH2 env request true false
  else requestH1 env request

/-- HTTP/2 first. A failure is told to the gate at the suspension point `failed`. -/
def viaH2 (failed : Await) (update : OriginGate → OriginGate) : Step Response := do
  let response ← requestH2 env request false false
  if response.error = [] then do
    learnH2 env false
    return response
  else do
    await env failed
    onGate update
    afterProbe env request

/-- What a request does that starts a detection. -/
def detect : Step Response := viaH2 env request .setH1 (OriginGate.setProtocol .h1Only)

def requestPreferH2 : Step Response := do
  let _ ← ofExcept (Policy.originKey request.url)
  getGate
  viaH2 env request .markFailed (OriginGate.markH2Failed env.options (env.now .markFailed))

def requestPreferH1 : Step Response := do
  let _ ← ofExcept (Policy.originKey request.url)
  let response ← requestH1 env request
  if response.error = [] then do
    getGate
    await env .setH1
    onGate (OriginGate.setProtocol .h1Only)
    return response
  else requestH2 env request false false

/-! ### The choice of a route -/

inductive Route where
  | h1
  | h2
  | detect
  /-- The detection of another request has ended; choose again. -/
  | again
  deriving DecidableEq, Repr

def enterGate : Step GateDecision := do
  let world ← get
  let (decision, gate) := world.gate.enter env.options (env.now .enter)
  set { world with gate }
  return decision

/-- Wait for the detection; whoever is woken without it goes over HTTP/1.1. -/
def awaitDetection (waiter : Option Nat) : Step Route := do
  await env .wait
  let world ← get
  if waiter.any fun w => !world.gate.done w then do
    await env .hasH2Origin
    return .h1
  else return .again

def followDecision (decision : GateDecision) : Step Route :=
  match decision.action with
  | .useH2 => return .h2
  | .useH1 =>
    if decision.overflowFallback then do
      await env .hasH2Origin
      return .h1
    else return .h1
  | .wait => awaitDetection env decision.waiter
  | .detect => return .detect

def askGate : Step Route := do
  getGate
  await env .enter
  let decision ← enterGate env
  followDecision env decision

def rememberedRoute : Step Route :=
  match env.remembered with
  | .h1Only => return .h1
  | .h2Available => return .h2
  | _ => askGate env

def chooseRoute : Step Route :=
  match env.tlsRoute with
  | some .h1Only => return .h1
  | some .h2Available => return .h2
  | some .unknown => rememberedRoute env
  | none => do
    let _ ← ofExcept (Policy.originKey request.url)
    rememberedRoute env

/-- The response of the route, if the route leads to one in this round. -/
def follow (route : Route) : Step (Option Response) :=
  match route with
  | .h1 => some <$> requestH1 env request
  | .h2 => some <$> requestH2 env request false false
  | .detect => some <$> detect env request
  | .again => return none

/-- Each environment is that of one round. The call that needs more rounds has not
finished. -/
def requestAuto : List Env → Request → Step (Option Response)
  | [], _ => return none
  | env :: rounds, request => do
    let route ← chooseRoute env request
    if route = .again then requestAuto rounds request else follow env request route

/-- Requests that go through a proxy use HTTP/1.1, unless they ask for HTTP/2. -/
def routePolicy : ProtocolPolicy :=
  if request.proxy.isSome ∧ request.protocolPolicy ≠ .forceH2 ∧
      request.protocolPolicy ≠ .preferH2 then .forceH1
  else request.protocolPolicy

/-- The raw request before its exceptions are caught. -/
def dispatch : List Env → Request → Step (Option Response)
  | [], _ => return none
  | env :: rounds, request =>
    match routePolicy request with
    | .forceH1 => some <$> requestH1 env request
    | .forceH2 => some <$> requestH2 env request false true
    | .preferH1 => some <$> requestPreferH1 env request
    | .preferH2 => some <$> requestPreferH2 env request
    | .auto => requestAuto (env :: rounds) request

/-- A raw request; an exception becomes an error response. -/
def rawRequest (rounds : List Env) (request : Request) (world : World) :
    Option Response × World :=
  match (dispatch rounds request).outcome world with
  | (.ok response, world) => (response, world)
  | (.error what, world) => (some { error := what }, world)

end HttpClient.Routing
