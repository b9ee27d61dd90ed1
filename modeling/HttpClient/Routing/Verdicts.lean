import HttpClient.Routing.OriginGate
import HttpClient.Routing.RouteCache
import HttpClient.Semantics.Machine

/-!
# What the client says of an origin

What is known of one origin is kept in three places: in its gate, in its entry of the table
of origins, and in the route caches of the threads. The requests read them in turn and write
them one by one, and between any two of these steps other requests run, on other threads.
A gate that has been dropped from the table may still be entered by a request that has
looked it up before.

A request is either about to write, or it chooses its route, or it waits for an answer. The
results of the exchanges are given by the steps, and so are the passing of time, the
eviction of the entry, and what other clients store in the route caches.

## Main definitions

* `Op`, `Stage`, `RouteCall` — one request
* `RouteState` — the three places, the requests, and what has happened
* `step` — the steps of the requests
* `Says`, `Claims` — what is said of the origin, and what is about to be said
* `Arises` — the steps after which something is claimed that was not

## Main results

* `routes_of_route`, `receives_of_receive` — what a step of a request can do
-/

set_option autoImplicit false

namespace HttpClient.Routing.Verdicts

open Text Semantics

structure RouteOptions extends GateOptions where
  /-- In ticks of the clock. -/
  originCacheTtl : Int := 300000000000

/-! ### Requests -/

/-- An attempt over HTTP/2 whose result the gate is told: one that detects the protocol, or
one of a request that prefers HTTP/2. -/
structure Trial where
  detects : Bool
  gate : Nat
  deriving DecidableEq, Repr

/-- What a request is about to do before it goes on. -/
inductive Op where
  | storeTls (verdict : Verdict)
  | remember (verdict : Verdict)
  /-- Record the origin for HTTP/2; what is written then follows from it. -/
  | recordH2 (trial : Trial)
  | setProtocol (gate : Nat) (verdict : Verdict)
  | markH2Failed (gate : Nat)
  /-- Look up the gate in the table, to mark it. -/
  | markCached
  /-- Look up the gate in the table, to set its protocol. -/
  | setCached (verdict : Verdict)
  deriving DecidableEq, Repr

inductive Stage where
  /-- The thread's route cache is asked. -/
  | lookup
  /-- The table of origins is asked. -/
  | remembered
  | getGate
  | enter (gate : Nat)
  | waiting (gate : Nat) (waiter : Option Nat)
  /-- A request that prefers HTTP/2 looks up its gate. -/
  | preferGate
  /-- An exchange over HTTP/1.1, of a request that prefers it or of another one. -/
  | h1 (prefers : Bool)
  | h2 (trial : Option Trial)
  | probe (trial : Trial)
  | done
  deriving DecidableEq, Repr

structure RouteCall where
  url : Bytes
  /-- Whether the request is handed straight to a client if its route is known. -/
  direct : Bool := false
  stage : Stage
  todo : List Op := []
  /-- Until when it is to be sent over HTTP/1.1, by what held when it started. -/
  window : Option Int := none
  /-- Whether a detection was due when it started. -/
  due : Bool := false
  /-- The counts of the state when it started. -/
  records : Nat := 0
  attempts : Nat := 0
  deriving DecidableEq, Repr

/-! ### The state -/

inductive Evidence where
  | h1
  | h2
  deriving DecidableEq, Repr

structure CachedOrigin where
  gate : Nat
  verdict : Option Verdict := none
  deriving DecidableEq, Repr

structure RouteState where
  now : Int := 0
  gates : Nat → OriginGate := fun _ => {}
  nextGate : Nat := 0
  /-- The entry of the origin in the table. -/
  entry : Option CachedOrigin := none
  /-- `cache_generation_`. -/
  generation : Nat := 1
  threads : Nat → RouteCache := fun _ => {}
  calls : List RouteCall := []
  /-- What came last: an exchange over HTTP/1.1 that completed, or a record of HTTP/2. -/
  latest : Option Evidence := none
  /-- Whether a request over HTTP/2 has succeeded or a probe has negotiated it. -/
  h2Seen : Bool := false
  /-- When HTTP/2 may be tried again, if it has failed and not been recorded since. -/
  window : Option Int := none
  /-- The same, until a detection is attempted. -/
  retryAt : Option Int := none
  /-- How often HTTP/2 has been recorded. -/
  records : Nat := 0
  /-- How often a detection was attempted, or a failure marked, or HTTP/2 recorded. -/
  attempts : Nat := 0

namespace RouteState

/-- `get_gate`. -/
def getGate (state : RouteState) : Nat × RouteState :=
  match state.entry with
  | some entry => (entry.gate, state)
  | none =>
    (state.nextGate,
      { state with
        gates := Function.update state.gates state.nextGate {}
        nextGate := state.nextGate + 1
        entry := some { gate := state.nextGate } })

/-- `remember_route`. -/
def remember (verdict : Verdict) (state : RouteState) : RouteState :=
  { state.getGate.2 with entry := some { gate := state.getGate.1, verdict := some verdict } }

def onGate (gate : Nat) (update : OriginGate → OriginGate) (state : RouteState) : RouteState :=
  { state with gates := Function.update state.gates gate (update (state.gates gate)) }

def onThread (thread : Nat) (update : RouteCache → RouteCache) (state : RouteState) :
    RouteState :=
  { state with threads := Function.update state.threads thread (update (state.threads thread)) }

/-- HTTP/2 is recorded. -/
def recorded (state : RouteState) : RouteState :=
  { state with
    latest := some .h2
    window := none
    retryAt := none
    records := state.records + 1
    attempts := state.attempts + 1 }

/-- A failure of HTTP/2 is marked. -/
def failed (options : RouteOptions) (state : RouteState) : RouteState :=
  { state with
    window := some (state.now + options.h2FailureTtl)
    retryAt := some (state.now + options.h2FailureTtl)
    attempts := state.attempts + 1 }

/-- A detection is attempted. -/
def detected (state : RouteState) : RouteState :=
  { state with retryAt := none, attempts := state.attempts + 1 }

end RouteState

/-! ### The steps of a request -/

/-- The protocol that is set for a verdict. -/
def protocolOf : Verdict → ProtocolState
  | .h2Available => .h2Available
  | _ => .h1Only

/-- The exchange that a verdict leads to. -/
def stageOf : Verdict → Stage
  | .h2Available => .h2 none
  | _ => .h1 false

/-- What is written after HTTP/2 has been recorded. -/
def learned (trial : Trial) : List Op :=
  .remember .h2Available :: (if trial.detects then [.storeTls .h2Available] else []) ++
    [.setProtocol trial.gate .h2Available]

variable (options : RouteOptions)

/-- Do what is to be done next. What is left to do after it comes first. -/
def runOp (thread : Nat) (url : Bytes) (state : RouteState) : Op → List Op × RouteState
  | .storeTls verdict =>
    ([], state.onThread thread (RouteCache.store state.generation state.now url verdict))
  | .remember verdict => ([], state.remember verdict)
  | .recordH2 trial =>
    (learned trial, (state.onGate trial.gate OriginGate.recordH2Origin).recorded)
  | .setProtocol gate verdict =>
    ([], state.onGate gate (OriginGate.setProtocol (protocolOf verdict)))
  | .markH2Failed gate =>
    ([], (state.onGate gate (OriginGate.markH2Failed options.toGateOptions state.now)).failed
      options)
  | .markCached => ([.markH2Failed state.getGate.1], state.getGate.2)
  | .setCached verdict => ([.setProtocol state.getGate.1 verdict], state.getGate.2)

def RouteCall.perform (thread : Nat) (call : RouteCall) (state : RouteState) :
    Option (RouteCall × RouteState) :=
  match call.todo with
  | [] => none
  | op :: rest =>
    let (more, state) := runOp options thread call.url state op
    some ({ call with todo := more ++ rest }, state)

/-- The gate has decided. That it lets through over HTTP/1.1 is stored like a verdict, also
if the gate is only downgraded. -/
def RouteCall.decided (call : RouteCall) (gate : Nat) (protocol : ProtocolState)
    (decision : GateDecision) : RouteCall :=
  match decision.action with
  | .useH2 => { call with stage := .h2 none, todo := [.storeTls .h2Available] }
  | .useH1 =>
    if decision.overflowFallback then { call with stage := .h1 false }
    else
      { call with
        stage := .h1 false
        todo := [.storeTls (if protocol = .h1Only then .h1Only else .downgraded)] }
  | .wait => { call with stage := .waiting gate decision.waiter }
  | .detect => { call with stage := .h2 (some { detects := true, gate }) }

def RouteCall.enterGate (call : RouteCall) (gate : Nat) (state : RouteState) :
    RouteCall × RouteState :=
  let (decision, after) := (state.gates gate).enter options.toGateOptions state.now
  let entered := state.onGate gate fun _ => after
  (call.decided gate (state.gates gate).protocol decision,
    if decision.action = .detect then entered.detected else entered)

/-- The next step of the choice of a route. -/
def RouteCall.route (thread : Nat) (call : RouteCall) (state : RouteState) :
    Option (RouteCall × RouteState) :=
  if call.todo ≠ [] then none
  else
    match call.stage with
    | .lookup =>
      let found := (state.threads thread).lookup options.originCacheTtl state.generation
        state.now call.url
      let state := state.onThread thread fun _ => found.2
      match found.1 with
      | some verdict => some ({ call with stage := stageOf verdict }, state)
      | none => some ({ call with stage := .remembered }, state)
    | .remembered =>
      match state.entry.bind CachedOrigin.verdict with
      | some verdict =>
        some ({ call with stage := stageOf verdict, todo := [.storeTls verdict] }, state)
      | none =>
        -- on the fast path nothing is known; the request begins again, in a coroutine
        if call.direct then some ({ call with direct := false, stage := .lookup }, state)
        else some ({ call with stage := .getGate }, state)
    | .getGate => some ({ call with stage := .enter state.getGate.1 }, state.getGate.2)
    | .enter gate => some (call.enterGate options gate state)
    | .waiting gate waiter =>
      -- whoever is woken without the detection goes over HTTP/1.1
      if waiter.any fun w => !(state.gates gate).done w then
        some ({ call with stage := .h1 false }, state)
      else some ({ call with stage := .lookup }, state)
    | .preferGate =>
      some ({ call with stage := .h2 (some { detects := false, gate := state.getGate.1 }) },
        state.getGate.2)
    | _ => none

/-- How an exchange ends that does not throw. -/
inductive Answer where
  | success
  | failure
  /-- The probe has negotiated HTTP/2, and nothing was sent. -/
  | negotiatedH2
  /-- The probe was answered, but its connection had negotiated no protocol. -/
  | unnegotiated
  deriving DecidableEq, Repr

/-- An exchange ends. -/
def RouteCall.receive (answer : Answer) (call : RouteCall) (state : RouteState) :
    Option (RouteCall × RouteState) :=
  if call.todo ≠ [] then none
  else
    match call.stage, answer with
    | .h1 prefers, .success =>
      some ({ call with
        stage := .done
        todo := if prefers then [.remember .h1Only, .storeTls .h1Only, .setCached .h1Only]
          else [] }, { state with latest := some .h1 })
    | .h1 prefers, .failure =>
      some ({ call with stage := if prefers then .h2 none else .done }, state)
    | .h2 none, .success => some ({ call with stage := .done }, { state with h2Seen := true })
    | .h2 none, .failure =>
      -- a client that was handed the request tells the gate nothing
      some ({ call with stage := .done, todo := if call.direct then [] else [.markCached] }, state)
    | .h2 (some trial), .success =>
      some ({ call with stage := .done, todo := [.recordH2 trial] },
        { state with h2Seen := true })
    | .h2 (some trial), .failure =>
      some ({ call with
        stage := .probe trial
        todo := [.markCached, if trial.detects then .setProtocol trial.gate .h1Only
          else .markH2Failed trial.gate] }, state)
    | .probe trial, .success =>
      some ({ call with
        stage := .done
        todo := .remember .h1Only :: if trial.detects then [.storeTls .h1Only] else [] },
        { state with latest := some .h1 })
    | .probe trial, .negotiatedH2 =>
      some ({ call with stage := .h2 none, todo := [.recordH2 trial] },
        { state with h2Seen := true })
    | .probe _, .unnegotiated =>
      some ({ call with stage := .h1 false }, { state with latest := some .h1 })
    | .probe _, .failure => some ({ call with stage := .h1 false }, state)
    | _, _ => none

/-! ### The steps of all requests -/

inductive Kind where
  | auto
  /-- As `auto`, by way of `submit`. -/
  | submitted
  | preferH1
  | preferH2
  deriving DecidableEq, Repr

/-- Requests are named by their position, threads by a number. -/
inductive Action where
  | start (kind : Kind) (url : Bytes)
  | perform (i thread : Nat)
  | route (i thread : Nat)
  | receive (i : Nat) (answer : Answer)
  /-- A request ends by an exception. -/
  | abort (i : Nat)
  | tick (ticks : Nat)
  /-- The entry is evicted, for its age or for others; that is never done to an entry whose
  gate is detecting. -/
  | evict
  | overwrite (thread : Nat)
  deriving DecidableEq, Repr

namespace RouteState

/-- Whether the gate in the table is detecting. -/
def detecting (state : RouteState) : Bool :=
  state.entry.any fun entry => (state.gates entry.gate).protocol = .detecting

/-- A request that chooses its protocol. -/
def newAuto (state : RouteState) (url : Bytes) (direct : Bool) : RouteCall where
  url
  direct
  stage := .lookup
  window := state.window.filter (state.now < ·)
  due := state.retryAt.any (· ≤ state.now) && !state.detecting
  records := state.records
  attempts := state.attempts

def newCall (state : RouteState) (url : Bytes) : Kind → RouteCall
  | .auto => state.newAuto url false
  | .submitted => state.newAuto url true
  | .preferH1 => { url, stage := .h1 true }
  | .preferH2 => { url, stage := .preferGate }

/-- The step of one request. -/
def onCall (i : Nat) (run : RouteCall → RouteState → Option (RouteCall × RouteState))
    (state : RouteState) : Option RouteState :=
  state.calls[i]?.bind fun call => (run call state).map fun (call, after) =>
    { after with calls := after.calls.set i call }

end RouteState

def step (state : RouteState) : Action → Option RouteState
  | .start kind url => some { state with calls := state.calls ++ [state.newCall url kind] }
  | .perform i thread => state.onCall i (RouteCall.perform options thread)
  | .route i thread => state.onCall i (RouteCall.route options thread)
  | .receive i answer => state.onCall i (RouteCall.receive answer)
  | .abort i => some { state with calls := state.calls.eraseIdx i }
  | .tick ticks => some { state with now := state.now + ticks }
  | .evict => do
    let entry ← state.entry
    if (state.gates entry.gate).evictionBlocked then none
    else some { state with entry := none, generation := state.generation + 1 }
  | .overwrite thread => some (state.onThread thread RouteCache.overwrite)

/-! ### What a step of a request can do -/

/-- The steps of the choice of a route. -/
inductive Routes (thread : Nat) (state : RouteState) (call : RouteCall) :
    RouteCall → RouteState → Prop where
  | found {verdict : Verdict} (hstage : call.stage = .lookup)
      (hfound : ((state.threads thread).lookup options.originCacheTtl state.generation state.now
        call.url).1 = some verdict) :
      Routes thread state call { call with stage := stageOf verdict }
        (state.onThread thread fun cache =>
          (cache.lookup options.originCacheTtl state.generation state.now call.url).2)
  | missed (hstage : call.stage = .lookup)
      (hfound : ((state.threads thread).lookup options.originCacheTtl state.generation state.now
        call.url).1 = none) :
      Routes thread state call { call with stage := .remembered }
        (state.onThread thread fun cache =>
          (cache.lookup options.originCacheTtl state.generation state.now call.url).2)
  | told {verdict : Verdict} {entry : CachedOrigin} (hstage : call.stage = .remembered)
      (hentry : state.entry = some entry) (hverdict : entry.verdict = some verdict) :
      Routes thread state call { call with stage := stageOf verdict, todo := [.storeTls verdict] }
        state
  | again (hstage : call.stage = .remembered) (hdirect : call.direct = true) :
      Routes thread state call { call with direct := false, stage := .lookup } state
  | untold (hstage : call.stage = .remembered) :
      Routes thread state call { call with stage := .getGate } state
  | gate (hstage : call.stage = .getGate) :
      Routes thread state call { call with stage := .enter state.getGate.1 } state.getGate.2
  | entered {gate : Nat} (hstage : call.stage = .enter gate) :
      Routes thread state call (call.enterGate options gate state).1
        (call.enterGate options gate state).2
  | unwoken {gate : Nat} {waiter : Option Nat} (hstage : call.stage = .waiting gate waiter) :
      Routes thread state call { call with stage := .h1 false } state
  | woken {gate : Nat} {waiter : Option Nat} (hstage : call.stage = .waiting gate waiter) :
      Routes thread state call { call with stage := .lookup } state
  | preferGate (hstage : call.stage = .preferGate) :
      Routes thread state call
        { call with stage := .h2 (some { detects := false, gate := state.getGate.1 }) }
        state.getGate.2

/-- The ends of an exchange. -/
inductive Receives (state : RouteState) (call : RouteCall) :
    Answer → RouteCall → RouteState → Prop where
  | h1 (hstage : call.stage = .h1 false) :
      Receives state call .success { call with stage := .done } { state with latest := some .h1 }
  | preferredH1 (hstage : call.stage = .h1 true) :
      Receives state call .success
        { call with
          stage := .done
          todo := [.remember .h1Only, .storeTls .h1Only, .setCached .h1Only] }
        { state with latest := some .h1 }
  | h1Failed (hstage : call.stage = .h1 false) :
      Receives state call .failure { call with stage := .done } state
  | preferredH1Failed (hstage : call.stage = .h1 true) :
      Receives state call .failure { call with stage := .h2 none } state
  | h2 (hstage : call.stage = .h2 none) :
      Receives state call .success { call with stage := .done } { state with h2Seen := true }
  | h2Failed (hstage : call.stage = .h2 none) (hdirect : call.direct = false) :
      Receives state call .failure { call with stage := .done, todo := [.markCached] } state
  | directFailed (hstage : call.stage = .h2 none) :
      Receives state call .failure { call with stage := .done } state
  | trial {trial : Trial} (hstage : call.stage = .h2 (some trial)) :
      Receives state call .success { call with stage := .done, todo := [.recordH2 trial] }
        { state with h2Seen := true }
  | detectionFailed {trial : Trial} (hstage : call.stage = .h2 (some trial))
      (hdetects : trial.detects = true) :
      Receives state call .failure
        { call with
          stage := .probe trial
          todo := [.markCached, .setProtocol trial.gate .h1Only] } state
  | preferredH2Failed {trial : Trial} (hstage : call.stage = .h2 (some trial))
      (hdetects : trial.detects = false) :
      Receives state call .failure
        { call with stage := .probe trial, todo := [.markCached, .markH2Failed trial.gate] } state
  | probed {trial : Trial} (hstage : call.stage = .probe trial) :
      Receives state call .success
        { call with
          stage := .done
          todo := .remember .h1Only :: if trial.detects then [.storeTls .h1Only] else [] }
        { state with latest := some .h1 }
  | negotiated {trial : Trial} (hstage : call.stage = .probe trial) :
      Receives state call .negotiatedH2 { call with stage := .h2 none, todo := [.recordH2 trial] }
        { state with h2Seen := true }
  | unnegotiated {trial : Trial} (hstage : call.stage = .probe trial) :
      Receives state call .unnegotiated { call with stage := .h1 false }
        { state with latest := some .h1 }
  | probeFailed {trial : Trial} (hstage : call.stage = .probe trial) :
      Receives state call .failure { call with stage := .h1 false } state

section Inversion

variable {options} {state after : RouteState} {call next : RouteCall} {thread : Nat}

theorem onCall_eq_some {i : Nat} {run : RouteCall → RouteState → Option (RouteCall × RouteState)}
    (h : state.onCall i run = some after) :
    ∃ call next mid, state.calls[i]? = some call ∧ run call state = some (next, mid) ∧
      after = { mid with calls := mid.calls.set i next } := by
  obtain ⟨call, hcall, hrun⟩ := Option.bind_eq_some_iff.mp h
  obtain ⟨⟨next, mid⟩, hran, rfl⟩ := Option.map_eq_some_iff.mp hrun
  exact ⟨call, next, mid, hcall, hran, rfl⟩

theorem perform_eq_some (h : call.perform options thread state = some (next, after)) :
    ∃ op rest, call.todo = op :: rest ∧
      next = { call with todo := (runOp options thread call.url state op).1 ++ rest } ∧
      after = (runOp options thread call.url state op).2 := by
  rw [RouteCall.perform] at h
  cases htodo : call.todo with
  | nil =>
    rw [htodo] at h
    cases h
  | cons op rest =>
    rw [htodo] at h
    cases h
    exact ⟨op, rest, rfl, rfl, rfl⟩

theorem routes_of_route (hrun : call.route options thread state = some (next, after)) :
    call.todo = [] ∧ Routes options thread state call next after := by
  unfold RouteCall.route at hrun
  split at hrun
  · cases hrun
  · rename_i hidle
    refine ⟨not_not.mp hidle, ?_⟩
    cases hstage : call.stage with
    | lookup =>
      simp only [hstage] at hrun
      cases hfound : ((state.threads thread).lookup options.originCacheTtl state.generation
          state.now call.url).1 with
      | some verdict =>
        rw [hfound] at hrun
        cases hrun
        exact .found hstage hfound
      | none =>
        rw [hfound] at hrun
        cases hrun
        exact .missed hstage hfound
    | remembered =>
      simp only [hstage] at hrun
      cases htold : state.entry.bind CachedOrigin.verdict with
      | some verdict =>
        rw [htold] at hrun
        cases hrun
        obtain ⟨entry, hentry, hverdict⟩ := Option.bind_eq_some_iff.mp htold
        exact .told hstage hentry hverdict
      | none =>
        rw [htold] at hrun
        dsimp only at hrun
        split at hrun
        · rename_i hdirect
          cases hrun
          exact .again hstage hdirect
        · cases hrun
          exact .untold hstage
    | getGate =>
      simp only [hstage] at hrun
      cases hrun
      exact .gate hstage
    | enter gate =>
      simp only [hstage, Option.some.injEq] at hrun
      have hnext : (call.enterGate options gate state).1 = next := congrArg Prod.fst hrun
      have hafter : (call.enterGate options gate state).2 = after := congrArg Prod.snd hrun
      rw [← hnext, ← hafter]
      exact .entered hstage
    | waiting gate waiter =>
      simp only [hstage] at hrun
      split at hrun
      · cases hrun
        exact .unwoken hstage
      · cases hrun
        exact .woken hstage
    | preferGate =>
      simp only [hstage] at hrun
      cases hrun
      exact .preferGate hstage
    | h1 | h2 | probe | done =>
      simp only [hstage] at hrun
      cases hrun

theorem receives_of_receive {answer : Answer}
    (hrun : call.receive answer state = some (next, after)) :
    call.todo = [] ∧ Receives state call answer next after := by
  unfold RouteCall.receive at hrun
  split at hrun
  · cases hrun
  · rename_i hidle
    have htodo : call.todo = [] := not_not.mp hidle
    refine ⟨htodo, ?_⟩
    cases hstage : call.stage with
    | h1 prefers =>
      cases prefers with
      | false =>
        cases answer with
        | success =>
          simp only [hstage] at hrun
          cases hrun
          have hend : Receives state call .success _ _ := .h1 hstage
          rwa [htodo] at hend
        | failure =>
          simp only [hstage] at hrun
          cases hrun
          exact .h1Failed hstage
        | negotiatedH2 | unnegotiated =>
          simp only [hstage] at hrun
          cases hrun
      | true =>
        cases answer with
        | success =>
          simp only [hstage] at hrun
          cases hrun
          exact .preferredH1 hstage
        | failure =>
          simp only [hstage] at hrun
          cases hrun
          exact .preferredH1Failed hstage
        | negotiatedH2 | unnegotiated =>
          simp only [hstage] at hrun
          cases hrun
    | h2 trial =>
      cases trial with
      | none =>
        cases answer with
        | success =>
          simp only [hstage] at hrun
          cases hrun
          exact .h2 hstage
        | failure =>
          simp only [hstage] at hrun
          cases hdirect : call.direct with
          | true =>
            rw [hdirect] at hrun
            cases hrun
            have hend : Receives state call .failure _ _ := .directFailed hstage
            rwa [htodo, hdirect] at hend
          | false =>
            rw [hdirect] at hrun
            cases hrun
            have hend : Receives state call .failure _ _ := .h2Failed hstage hdirect
            rwa [hdirect] at hend
        | negotiatedH2 | unnegotiated =>
          simp only [hstage] at hrun
          cases hrun
      | some trial =>
        cases answer with
        | success =>
          simp only [hstage] at hrun
          cases hrun
          exact .trial hstage
        | failure =>
          simp only [hstage] at hrun
          cases hdetects : trial.detects with
          | true =>
            rw [hdetects] at hrun
            cases hrun
            exact .detectionFailed hstage hdetects
          | false =>
            rw [hdetects] at hrun
            cases hrun
            exact .preferredH2Failed hstage hdetects
        | negotiatedH2 | unnegotiated =>
          simp only [hstage] at hrun
          cases hrun
    | probe trial =>
      cases answer with
      | success =>
        simp only [hstage] at hrun
        cases hrun
        exact .probed hstage
      | negotiatedH2 =>
        simp only [hstage] at hrun
        cases hrun
        exact .negotiated hstage
      | unnegotiated =>
        simp only [hstage] at hrun
        cases hrun
        exact .unnegotiated hstage
      | failure =>
        simp only [hstage] at hrun
        cases hrun
        exact .probeFailed hstage
    | lookup | remembered | getGate | enter | waiting | preferGate | done =>
      simp only [hstage] at hrun
      cases hrun

end Inversion

/-! ### What is said of the origin -/

/-- What the protocol of a gate says. -/
def verdictOf : ProtocolState → Option Verdict
  | .h1Only => some .h1Only
  | .h2Available => some .h2Available
  | _ => none

/-- The gate is in the table, or a request is about to enter it. -/
def Consulted (state : RouteState) (gate : Nat) : Prop :=
  (∃ entry, state.entry = some entry ∧ entry.gate = gate) ∨
    ∃ call ∈ state.calls, call.stage = .enter gate

/-- One of the three places says it. A route that is not believed says nothing. -/
inductive Says (state : RouteState) : Verdict → Prop where
  | gate {gate : Nat} {verdict : Verdict} (hgate : Consulted state gate)
      (h : verdictOf (state.gates gate).protocol = some verdict) : Says state verdict
  | entry {entry : CachedOrigin} {verdict : Verdict} (hentry : state.entry = some entry)
      (h : entry.verdict = some verdict) : Says state verdict
  | thread {thread : Nat} {route : RouteEntry}
      (hroute : some route ∈ (state.threads thread).slots)
      (h : route.Valid options.originCacheTtl state.generation state.now) :
      Says state route.verdict

/-- What is written. -/
def Op.writes : Op → Option Verdict
  | .storeTls verdict | .remember verdict => some verdict
  | .setProtocol _ verdict | .setCached verdict => verdictOf (protocolOf verdict)
  | .recordH2 _ | .markH2Failed _ | .markCached => none

/-- It is said, or a request is about to write it. -/
def Claims (state : RouteState) (verdict : Verdict) : Prop :=
  Says options state verdict ∨ ∃ call ∈ state.calls, ∃ op ∈ call.todo, op.writes = some verdict

/-- The answers after which a request writes that the origin has HTTP/1.1 only. -/
def RouteCall.Judges (call : RouteCall) (answer : Answer) : Prop :=
  (call.stage = .h1 true ∧ answer = .success) ∨
    (∃ trial, call.stage = .probe trial ∧ answer = .success) ∨
      ∃ trial, call.stage = .h2 (some trial) ∧ trial.detects = true ∧ answer = .failure

/-- The steps after which something may be claimed that was not. -/
inductive Arises (state : RouteState) : Action → Verdict → Prop where
  | recorded {i thread : Nat} {call : RouteCall} {trial : Trial} {rest : List Op}
      (hcall : state.calls[i]? = some call) (htodo : call.todo = .recordH2 trial :: rest) :
      Arises state (.perform i thread) .h2Available
  | downgraded {i thread gate : Nat} {call : RouteCall} (hcall : state.calls[i]? = some call)
      (hstage : call.stage = .enter gate)
      (hgate : (state.gates gate).protocol = .h2FailedRecently)
      (hnow : state.now < (state.gates gate).retryAfter) :
      Arises state (.route i thread) .downgraded
  | judged {i : Nat} {answer : Answer} {call : RouteCall}
      (hcall : state.calls[i]? = some call) (hjudges : call.Judges answer) :
      Arises state (.receive i answer) .h1Only

end HttpClient.Routing.Verdicts
