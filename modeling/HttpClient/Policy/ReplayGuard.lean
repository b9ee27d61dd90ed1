import Mathlib.Algebra.GroupWithZero.Nat
import HttpClient.Policy.CookieCarry
import HttpClient.Routing.SentOnce

/-!
# Requests that may not be sent again

A request that is not replayable is tried once, so each of its hops is one raw request.
But the guard stands in the policy loop only: the routes below it send again what they
have sent over HTTP/2 without asking for it.

The raw requests are those of the routes here. A script says for each of them what it
meets: what its rounds meet, the gate it finds, and what happens meanwhile to the jar and
the clock. Without a script a raw request never finishes.

## Main definitions

* `Script`, `Sending` — what a raw request meets, and what it does
* `routed` — the policy loop over the routes
* `sendsOfHop` — how often a hop is sent, over all tries

## Main results

* `atMostOneTry` — the hops of a request that is not replayable
* `sendsOfHop_iff_sentOnce` — the runs that send each hop at most once
* `post_sent_twice` — the failing request
-/

set_option autoImplicit false

namespace HttpClient.Policy

open Text Semantics Semantics.Call Routing

/-! ### One try -/

section OneTry

variable {ω τ : Type} {options : PolicyOptions} {externals : Externals ω τ}

/-- The hops of a try, in their order: each is numbered below `bound`, and did what its
raw request does. -/
structure Numbered (externals : Externals ω τ) (bound : Nat) (hops : List (Hop τ)) : Prop where
  ordered : hops.Pairwise fun later earlier => earlier.redirects < later.redirects
  below : ∀ hop ∈ hops, hop.redirects < bound
  did : ∀ hop ∈ hops, ∃ around, hop.did = (externals.raw hop.request around).2.2

theorem Numbered.nil (bound : Nat) : Numbered externals bound [] :=
  ⟨List.Pairwise.nil, fun _ h => absurd h List.not_mem_nil, fun _ h => absurd h List.not_mem_nil⟩

theorem Numbered.mono {bound more : Nat} {hops : List (Hop τ)} (hle : bound ≤ more)
    (h : Numbered externals bound hops) : Numbered externals more hops :=
  ⟨h.ordered, fun hop hmem => (h.below hop hmem).trans_le hle, h.did⟩

theorem Numbered.cons {bound : Nat} {hops : List (Hop τ)} {hop : Hop τ} {around : Around ω}
    (h : Numbered externals bound hops) (hnumber : hop.redirects = bound)
    (hdid : hop.did = (externals.raw hop.request around).2.2) :
    Numbered externals (bound + 1) (hop :: hops) where
  ordered := List.pairwise_cons.mpr ⟨fun other hmem => hnumber ▸ h.below other hmem, h.ordered⟩
  below := by
    refine List.forall_mem_cons.mpr ⟨by omega, fun other hmem => ?_⟩
    exact Nat.lt_succ_of_lt (h.below other hmem)
  did := List.forall_mem_cons.mpr ⟨⟨around, hdid⟩, h.did⟩

/-- There is one try, whose hops are numbered. -/
def OneTry (externals : Externals ω τ) (bound : Nat) (state : PolicyState ω τ) : Prop :=
  ∃ hops, state.tries = [hops] ∧ Numbered externals bound hops

variable (options externals)

theorem oneHop_oneTry {redirects : Nat} (current : Request) {state : PolicyState ω τ}
    (h : OneTry externals redirects state) :
    OneTry externals (redirects + 1)
      ((oneHop options externals redirects current).outcome state).2 := by
  obtain ⟨hops, htries, hnumbered⟩ := h
  rcases oneHop_cases redirects current state with ⟨-, hsame⟩ | ⟨sent, around, -, hpush, -⟩
  · exact ⟨hops, hsame.trans htries, hnumbered.mono (Nat.le_succ _)⟩
  · rw [htries] at hpush
    exact ⟨_, hpush, hnumbered.cons rfl rfl⟩

/-- Following redirects: on how many are left. -/
theorem followHops_oneTry {follows : Bool} {remaining redirects : Nat} {current : Request}
    {state : PolicyState ω τ} (h : OneTry externals redirects state) :
    ∃ bound, OneTry externals bound
      ((followHops options externals follows remaining redirects current).outcome state).2 := by
  -- on the redirects left; the hops of one try carry their numbers, so none comes twice
  induction remaining generalizing redirects current state with
  | zero =>
    have hended := oneHop_oneTry options externals current h
    exact outcome_afterHop (Q := fun state => ∃ bound, OneTry externals bound state)
      ⟨_, hended⟩ fun _ _ _ _ => ⟨_, hended⟩
  | succ remaining ih =>
    have hended := oneHop_oneTry options externals current h
    refine outcome_afterHop (Q := fun state => ∃ bound, OneTry externals bound state)
      ⟨_, hended⟩ fun next response location _ => ?_
    cases hredirected : redirected next response.status location with
    | error what => exact ⟨_, hended⟩
    | ok following => exact ih hended

theorem tryOnce_oneTry (request : Request) {state : PolicyState ω τ} (h : state.tries = []) :
    ∃ bound, OneTry externals bound ((tryOnce options externals request).outcome state).2 := by
  have hstart : OneTry externals 0 { state with tries := [] :: state.tries } :=
    ⟨[], by rw [h], Numbered.nil 0⟩
  exact followHops_oneTry options externals hstart

/-- A request that is not replayable is not tried again. -/
theorem tryRequest_oneTry {request : Request} (hreplay : isReplayable request = false)
    {state : PolicyState ω τ} (h : state.tries = []) (remaining : Nat) :
    ∃ bound, OneTry externals bound
      ((tryRequest options externals request remaining).outcome state).2 := by
  have hended := tryOnce_oneTry options externals request h
  cases remaining with
  | zero => exact hended
  | succ remaining =>
    unfold tryRequest
    cases hout : (tryOnce options externals request).outcome state with
    | mk result after =>
      rw [hout] at hended
      cases result with
      | error what =>
        rw [outcome_bind_error hout]
        exact hended
      | ok last =>
        rw [outcome_bind_ok hout]
        cases last with
        | none => exact hended
        | some last =>
          have hstays : ¬ retries options request last = true := by simp [retries, hreplay]
          simp only [if_neg hstays]
          exact hended

/-- A request that is not replayable is tried at most once, and its hops are numbered. -/
theorem atMostOneTry {request prepared : Request}
    (hprepared : applyDefaults options externals.getenv request = .ok prepared)
    (hreplay : isReplayable prepared = false) (around : Around ω) :
    ∃ bound hops, Numbered externals bound hops ∧
      ((requestWithHttpxPolicy options externals request).outcome { around }).2.tries.flatten =
        hops := by
  unfold requestWithHttpxPolicy
  rw [hprepared]
  by_cases hnone : maxRetries options prepared < 0
  · refine ⟨0, [], Numbered.nil 0, ?_⟩
    simp [outcome, ofExcept, hnone]
  · have hempty : ({ around } : PolicyState ω τ).tries = [] := rfl
    obtain ⟨bound, hops, htries, hnumbered⟩ :=
      tryRequest_oneTry options externals hreplay hempty (maxRetries options prepared).toNat
    refine ⟨bound, hops, hnumbered, ?_⟩
    simpa [outcome, ofExcept, hnone] using congrArg List.flatten htries

end OneTry

/-! ### The policy loop over the routes -/

/-- What a raw request meets. -/
structure Script where
  rounds : List Env := []
  /-- The gate of the origin, and whether it is in the table of origins. -/
  gate : OriginGate := {}
  cached : Bool := true
  /-- What happens to the jar and the clock meanwhile. -/
  jar : CookieJar → CookieJar := id
  now : Int → Int := id

def Script.world (script : Script) : World where
  gate := script.gate
  cached := script.cached

/-- What a raw request does, and what it meets. -/
structure Sending where
  script : Script
  attempts : List Attempt

/-- The next raw request meets the first script that is left. -/
def nextScript (around : Around (List Script)) : Script := around.rest.headD {}

/-- The policy loop calls the routes. -/
def routed (pause : Int → Around (List Script) → Around (List Script))
    (zlibDecode : Int → Bytes → Except Bytes Bytes) (getenv : Bytes → Option Bytes) :
    Externals (List Script) Sending where
  raw request around :=
    let script := nextScript around
    let (response, world) := rawRequest script.rounds request script.world
    (response,
      { jar := script.jar around.jar, now := script.now around.now, rest := around.rest.tail },
      { script, attempts := world.attempts })
  pause
  zlibDecode
  getenv

/-- How often a hop is sent, over all tries. -/
def sendsOfHop (redirects : Nat) (tries : List (List (Hop Sending))) : Nat :=
  ((tries.flatten.filter fun hop => hop.redirects == redirects).map fun hop =>
    sends hop.did.attempts).sum

/-- Of numbered hops only one has a given number. -/
theorem filter_redirects_eq {τ : Type} {hops : List (Hop τ)}
    (hordered : hops.Pairwise fun later earlier => earlier.redirects < later.redirects)
    {hop : Hop τ} (hmem : hop ∈ hops) :
    hops.filter (fun other => other.redirects == hop.redirects) = [hop] := by
  induction hops with
  | nil => exact absurd hmem List.not_mem_nil
  | cons latest earlier ih =>
    obtain ⟨hbelow, hordered'⟩ := List.pairwise_cons.mp hordered
    rcases List.mem_cons.mp hmem with rfl | hearlier
    · have hnone : earlier.filter (fun other => other.redirects == hop.redirects) = [] := by
        refine List.filter_eq_nil_iff.mpr fun other hother => ?_
        have hlt := hbelow other hother
        simp only [beq_iff_eq]
        omega
      rw [List.filter_cons, if_pos (beq_self_eq_true _), hnone]
    · have hlt := hbelow hop hearlier
      have hother : ¬ (latest.redirects == hop.redirects) = true := by
        simp only [beq_iff_eq]
        omega
      rw [List.filter_cons, if_neg hother, ih hordered' hearlier]

theorem sendsOfHop_le_one_iff {tries : List (List (Hop Sending))}
    (hordered : tries.flatten.Pairwise fun later earlier =>
      earlier.redirects < later.redirects) :
    (∀ redirects, sendsOfHop redirects tries ≤ 1) ↔
      ∀ hop ∈ tries.flatten, sends hop.did.attempts ≤ 1 := by
  constructor
  · intro h hop hmem
    have hle := h hop.redirects
    rw [sendsOfHop, filter_redirects_eq hordered hmem] at hle
    simpa using hle
  · intro h redirects
    by_cases hnone : ∃ hop ∈ tries.flatten, hop.redirects = redirects
    · obtain ⟨hop, hmem, rfl⟩ := hnone
      rw [sendsOfHop, filter_redirects_eq hordered hmem]
      simpa using h hop hmem
    · have hempty : tries.flatten.filter (fun hop => hop.redirects == redirects) = [] := by
        refine List.filter_eq_nil_iff.mpr fun hop hmem heq => hnone ⟨hop, hmem, ?_⟩
        exact beq_iff_eq.mp heq
      rw [sendsOfHop, hempty]
      exact Nat.zero_le 1

/-- A request that is not replayable is sent at most once for each of its hops exactly if
the route of every hop makes no two attempts that are sent. -/
theorem sendsOfHop_iff_sentOnce (options : PolicyOptions)
    (pause : Int → Around (List Script) → Around (List Script))
    (zlibDecode : Int → Bytes → Except Bytes Bytes) (getenv : Bytes → Option Bytes)
    (request : Request) (around : Around (List Script)) {prepared : Request}
    (hprepared : applyDefaults options getenv request = .ok prepared)
    (hreplay : isReplayable prepared = false) :
    (∀ redirects, sendsOfHop redirects ((requestWithHttpxPolicy options
      (routed pause zlibDecode getenv) request).outcome { around }).2.tries ≤ 1) ↔
    ∀ hop ∈ ((requestWithHttpxPolicy options
      (routed pause zlibDecode getenv) request).outcome { around }).2.tries.flatten,
      SentOnce hop.did.script.rounds hop.request hop.did.script.world := by
  obtain ⟨bound, hops, hnumbered, hflatten⟩ :=
    atMostOneTry options (routed pause zlibDecode getenv) hprepared hreplay around
  rw [sendsOfHop_le_one_iff (hflatten ▸ hnumbered.ordered), hflatten]
  refine forall₂_congr fun hop hmem => ?_
  obtain ⟨found, hdid⟩ := hnumbered.did hop hmem
  rw [hdid]
  exact sends_rawRequest_iff (nextScript found).rounds hop.request rfl

/-- A request that is not replayable. -/
def post (protocolPolicy : ProtocolPolicy) : Request where
  url := str "https://a/"
  method := str "POST"
  protocolPolicy

/-- The run of `post` with one script. -/
def postRun (protocolPolicy : ProtocolPolicy) (script : Script) :
    PolicyState (List Script) Sending :=
  ((requestWithHttpxPolicy {} (routed (fun _ around => around) (fun _ body => .ok body)
    fun _ => none) (post protocolPolicy)).outcome { around := { rest := [script] } }).2

/-- The connection for HTTP/2 is refused. -/
def refusedH2 : Env where
  h2 _ := { sent := false, result := .ok { error := str "connect: Connection refused" } }

theorem viaH2Once_refused : ViaH2Once refusedH2 (post .auto) .setH1 := by
  have hprotocol : probeProtocol refusedH2 (post .auto) = .ok .http11 := rfl
  have hadopted : Adopted refusedH2 (post .auto) := ⟨hprotocol, {}, rfl, rfl⟩
  intro _
  refine ⟨fun h => Bool.noConfusion h.1, fun h => Bool.noConfusion h.1, fun ⟨_, hlast⟩ => ?_⟩
  -- the response of the probe is adopted, so nothing follows it
  rw [LastSends, hprotocol, if_neg (by decide)] at hlast
  exact hlast.1 hadopted

/-- A detection tries HTTP/2, which sends nothing, and the probe sends the request. -/
theorem sendsOfHop_iff_sentOnce_detection :
    isReplayable (post .auto) = false ∧
      (postRun .auto { rounds := [refusedH2] }).tries.flatten.map
          (fun hop => hop.did.attempts.map fun attempt => (attempt.transport, attempt.sent)) =
        [[(.h2, false), (.probe, true)]] ∧
      ∀ redirects, sendsOfHop redirects (postRun .auto { rounds := [refusedH2] }).tries ≤ 1 := by
  have hreplay : isReplayable (post .auto) = false := by decide
  refine ⟨hreplay, by decide +kernel, (sendsOfHop_iff_sentOnce {} (fun _ around => around)
    (fun _ body => .ok body) (fun _ => none) (post .auto) _ rfl hreplay).mpr ?_⟩
  intro hop hmem
  obtain rfl := List.mem_singleton.mp hmem
  exact viaH2Once_refused

/-- The server takes the request over HTTP/2, and does not answer in time. -/
def silentH2 : Env where
  h2 _ := { sent := true, result := .ok { error := str "timeout" } }

/-- The probe sends again what was sent over HTTP/2. -/
theorem post_sent_twice :
    ¬ ∀ (options : PolicyOptions) (pause : Int → Around (List Script) → Around (List Script))
        (zlibDecode : Int → Bytes → Except Bytes Bytes) (getenv : Bytes → Option Bytes)
        (request prepared : Request) (around : Around (List Script)),
      applyDefaults options getenv request = .ok prepared → isReplayable request = false →
        isReplayable prepared = false → ∀ redirects, sendsOfHop redirects
          ((requestWithHttpxPolicy options (routed pause zlibDecode getenv) request).outcome
            { around }).2.tries ≤ 1 := by
  intro h
  have honce : sendsOfHop 0 (postRun .auto { rounds := [silentH2] }).tries ≤ 1 :=
    h {} (fun _ around => around) (fun _ body => .ok body) (fun _ => none) (post .auto)
      (post .auto) _ rfl (by decide) (by decide) 0
  exact absurd honce (by decide +kernel)

end HttpClient.Policy
