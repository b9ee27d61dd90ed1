import HttpClient.Routing.Verdicts

/-!
# Where claims come from

A request that reads a verdict in one place and writes it in another claims it all the time
between. So what is claimed of an origin after a step was claimed before it, unless a request
has judged for itself: by the answer to an exchange, by recording HTTP/2, or because the gate
was downgraded.

## Main results

* `claims_runOp`, `claims_of_route` — operations and choices of a route
* `claims_of_step` — a claim has been there before the step, or it arises with it
-/

set_option autoImplicit false

namespace HttpClient.Routing.Verdicts

open Text Semantics

/-! ### What single operations claim -/

variable {options : RouteOptions} {state after : RouteState} {verdict : Verdict}

/-- Nothing changes where it is said, or who is about to write. -/
structure SamePlaces (state after : RouteState) : Prop where
  gates : after.gates = state.gates
  entry : after.entry = state.entry
  threads : after.threads = state.threads
  generation : after.generation = state.generation
  now : after.now = state.now
  calls : after.calls = state.calls

theorem Says.of_same (h : Says options after verdict) (hsame : SamePlaces state after) :
    Says options state verdict := by
  cases h with
  | gate hgate h =>
    rw [hsame.gates] at h
    refine .gate ?_ h
    rw [Consulted, hsame.entry, hsame.calls] at hgate
    exact hgate
  | entry hentry h =>
    rw [hsame.entry] at hentry
    exact .entry hentry h
  | thread hroute h =>
    rw [hsame.threads] at hroute
    rw [hsame.generation, hsame.now] at h
    exact .thread hroute h

theorem Claims.of_same (h : Claims options after verdict) (hsame : SamePlaces state after) :
    Claims options state verdict := by
  rcases h with hsaid | hcall
  · exact .inl (hsaid.of_same hsame)
  · rw [hsame.calls] at hcall
    exact .inr hcall

theorem Consulted.claims {gate : Nat} (h : Consulted state gate)
    (hgate : verdictOf (state.gates gate).protocol = some verdict) :
    Claims options state verdict := .inl (.gate h hgate)

/-- An update of a gate may change what that gate says. -/
theorem claims_onGate {gate : Nat} {update : OriginGate → OriginGate}
    (h : Claims options (state.onGate gate update) verdict) :
    Claims options state verdict ∨
      Consulted state gate ∧ verdictOf (update (state.gates gate)).protocol = some verdict := by
  rcases h with hsaid | hcall
  · cases hsaid with
    | @gate other _ hother hsaid =>
      by_cases hgate : other = gate
      · subst hgate
        simp only [RouteState.onGate, Function.update_self] at hsaid
        exact .inr ⟨hother, hsaid⟩
      · simp only [RouteState.onGate, Function.update_of_ne hgate] at hsaid
        exact .inl (.inl (.gate hother hsaid))
    | entry hentry hsaid => exact .inl (.inl (.entry hentry hsaid))
    | thread hroute hvalid => exact .inl (.inl (.thread hroute hvalid))
  · exact .inl (.inr hcall)

/-- An update of a route cache may change what that cache says. -/
theorem claims_onThread {thread : Nat} {update : RouteCache → RouteCache}
    (h : Claims options (state.onThread thread update) verdict) :
    Claims options state verdict ∨
      ∃ route, some route ∈ (update (state.threads thread)).slots ∧ route.verdict = verdict ∧
        route.Valid options.originCacheTtl state.generation state.now := by
  rcases h with hsaid | hcall
  · cases hsaid with
    | gate hgate hsaid => exact .inl (.inl (.gate hgate hsaid))
    | entry hentry hsaid => exact .inl (.inl (.entry hentry hsaid))
    | @thread other route hroute hvalid =>
      by_cases hthread : other = thread
      · subst hthread
        simp only [RouteState.onThread, Function.update_self] at hroute
        exact .inr ⟨route, hroute, rfl, hvalid⟩
      · simp only [RouteState.onThread, Function.update_of_ne hthread] at hroute
        exact .inl (.inl (.thread hroute hvalid))
  · exact .inl (.inr hcall)

theorem getGate_entry (state : RouteState) :
    ∃ entry, state.getGate.2.entry = some entry ∧ entry.gate = state.getGate.1 := by
  rw [RouteState.getGate]
  cases hentry : state.entry with
  | some entry => exact ⟨entry, hentry, rfl⟩
  | none => exact ⟨_, rfl, rfl⟩

theorem getGate_calls (state : RouteState) : state.getGate.2.calls = state.calls := by
  rw [RouteState.getGate]
  cases state.entry with
  | some entry => rfl
  | none => rfl

/-- A new gate says nothing. -/
theorem claims_getGate (h : Claims options state.getGate.2 verdict) :
    Claims options state verdict := by
  rw [RouteState.getGate] at h
  cases hentry : state.entry with
  | some entry =>
    rw [hentry] at h
    exact h
  | none =>
    rw [hentry] at h
    rcases h with hsaid | hcall
    · cases hsaid with
      | @gate other _ hother hsaid =>
        by_cases hnew : other = state.nextGate
        · subst hnew
          simp only [Function.update_self] at hsaid
          cases hsaid
        · simp only [Function.update_of_ne hnew] at hsaid
          rcases hother with ⟨entry, hcached, hgate⟩ | hcall
          · obtain rfl := Option.some.inj hcached
            exact absurd hgate.symm hnew
          · exact .inl (.gate (.inr hcall) hsaid)
      | entry hcached hsaid =>
        obtain rfl := Option.some.inj hcached
        cases hsaid
      | thread hroute hvalid => exact .inl (.thread hroute hvalid)
    · exact .inr hcall

theorem claims_remember {remembered : Verdict}
    (h : Claims options (state.remember remembered) verdict) :
    Claims options state verdict ∨ verdict = remembered := by
  obtain ⟨entry, hentry, hgate⟩ := getGate_entry state
  rcases h with hsaid | hcall
  · cases hsaid with
    | gate hother hsaid =>
      refine .inl (claims_getGate (.inl (.gate ?_ hsaid)))
      rcases hother with ⟨cached, hcached, hother⟩ | hcall
      · obtain rfl := Option.some.inj hcached
        exact .inl ⟨entry, hentry, hgate.trans hother⟩
      · exact .inr hcall
    | entry hcached hsaid =>
      obtain rfl := Option.some.inj hcached
      exact .inr (Option.some.inj hsaid).symm
    | thread hroute hvalid => exact .inl (claims_getGate (.inl (.thread hroute hvalid)))
  · exact .inl (claims_getGate (.inr hcall))

/-- Another stage of one request may have more to write, or a gate to enter. -/
theorem claims_setCall {i : Nat} {call : RouteCall}
    (h : Claims options { after with calls := after.calls.set i call } verdict) :
    Claims options after verdict ∨ (∃ op ∈ call.todo, op.writes = some verdict) ∨
      ∃ gate, call.stage = .enter gate ∧ verdictOf (after.gates gate).protocol = some verdict := by
  rcases h with hsaid | ⟨other, hother, hop⟩
  · cases hsaid with
    | @gate gate _ hgate hsaid =>
      rcases hgate with hentry | ⟨other, hother, hstage⟩
      · exact .inl (.inl (.gate (.inl hentry) hsaid))
      · rcases List.mem_or_eq_of_mem_set hother with hold | rfl
        · exact .inl (.inl (.gate (.inr ⟨other, hold, hstage⟩) hsaid))
        · exact .inr (.inr ⟨gate, hstage, hsaid⟩)
    | entry hentry hsaid => exact .inl (.inl (.entry hentry hsaid))
    | thread hroute hvalid => exact .inl (.inl (.thread hroute hvalid))
  · rcases List.mem_or_eq_of_mem_set hother with hold | rfl
    · exact .inl (.inr ⟨other, hold, hop⟩)
    · exact .inr (.inl hop)

/-! ### What a step claims -/

theorem runOp_calls {thread : Nat} {url : Bytes} {op : Op} :
    (runOp options thread url state op).2.calls = state.calls := by
  cases op with
  | remember verdict => exact getGate_calls state
  | markCached | setCached verdict => exact getGate_calls state
  | _ => rfl

theorem claims_runOp {thread : Nat} {url : Bytes} {op : Op}
    (h : Claims options (runOp options thread url state op).2 verdict) :
    Claims options state verdict ∨ op.writes = some verdict := by
  cases op with
  | storeTls stored =>
    rcases claims_onThread h with hold | ⟨route, hroute, rfl, hvalid⟩
    · exact .inl hold
    · rcases RouteCache.mem_put hroute with hold | hnew
      · exact .inl (.inl (.thread hold hvalid))
      · obtain rfl := Option.some.inj hnew
        exact .inr rfl
  | remember remembered =>
    rcases claims_remember h with hold | rfl
    · exact .inl hold
    · exact .inr rfl
  | recordH2 trial =>
    rcases claims_onGate (h.of_same ⟨rfl, rfl, rfl, rfl, rfl, rfl⟩) with hold | ⟨hgate, hsaid⟩
    · exact .inl hold
    · -- recording does not change the protocol
      exact .inl (hgate.claims hsaid)
  | setProtocol gate set =>
    rcases claims_onGate h with hold | ⟨-, hsaid⟩
    · exact .inl hold
    · exact .inr hsaid
  | markH2Failed gate =>
    rcases claims_onGate (h.of_same ⟨rfl, rfl, rfl, rfl, rfl, rfl⟩) with hold | ⟨-, hsaid⟩
    · exact .inl hold
    · cases hsaid
  | markCached | setCached set => exact .inl (claims_getGate h)

theorem writes_learned {trial : Trial} {op : Op} (h : op ∈ learned trial)
    (hwrites : op.writes = some verdict) : verdict = .h2Available := by
  rw [learned] at h
  split at h
  · simp only [List.cons_append, List.nil_append, List.mem_cons, List.not_mem_nil, or_false] at h
    rcases h with rfl | rfl | rfl <;> exact (Option.some.inj hwrites).symm
  · simp only [List.cons_append, List.nil_append, List.mem_cons, List.not_mem_nil, or_false] at h
    rcases h with rfl | rfl <;> exact (Option.some.inj hwrites).symm

/-- What is left to do after an operation writes what the operation did, unless the operation
has recorded HTTP/2. -/
theorem writes_more {thread : Nat} {url : Bytes} {op next : Op}
    (h : next ∈ (runOp options thread url state op).1) (hwrites : next.writes = some verdict) :
    op.writes = some verdict ∨ (∃ trial, op = .recordH2 trial) ∧ verdict = .h2Available := by
  cases op with
  | recordH2 trial => exact .inr ⟨⟨trial, rfl⟩, writes_learned h hwrites⟩
  | markCached =>
    obtain rfl := List.mem_singleton.mp h
    cases hwrites
  | setCached set =>
    obtain rfl := List.mem_singleton.mp h
    exact .inl hwrites
  | _ => exact absurd h List.not_mem_nil

theorem claims_of_perform {i thread : Nat} {call next : RouteCall}
    (hcall : state.calls[i]? = some call)
    (hrun : call.perform options thread state = some (next, after))
    (h : Claims options { after with calls := after.calls.set i next } verdict) :
    Claims options state verdict ∨ Arises state (.perform i thread) verdict := by
  obtain ⟨op, rest, htodo, rfl, rfl⟩ := perform_eq_some hrun
  have hmem : call ∈ state.calls := List.mem_of_getElem? hcall
  have hpending : ∀ pending ∈ op :: rest, pending.writes = some verdict →
      Claims options state verdict := by
    intro pending hop hwrites
    rw [← htodo] at hop
    exact .inr ⟨call, hmem, pending, hop, hwrites⟩
  rcases claims_setCall h with hold | ⟨pending, hop, hwrites⟩ | ⟨gate, hstage, hsaid⟩
  · rcases claims_runOp hold with hbefore | hwrites
    · exact .inl hbefore
    · exact .inl (hpending op List.mem_cons_self hwrites)
  · rcases List.mem_append.mp hop with hmore | hrest
    · rcases writes_more hmore hwrites with hsame | ⟨⟨trial, rfl⟩, rfl⟩
      · exact .inl (hpending op List.mem_cons_self hsame)
      · exact .inr (.recorded hcall htodo)
    · exact .inl (hpending pending (List.mem_cons_of_mem _ hrest) hwrites)
  · -- the gate it will enter was to be entered before
    have hafter : Claims options (runOp options thread call.url state op).2 verdict := by
      refine .inl (.gate (.inr ⟨call, ?_, hstage⟩) hsaid)
      rw [runOp_calls]
      exact hmem
    rcases claims_runOp hafter with hbefore | hwrites
    · exact .inl hbefore
    · exact .inl (hpending op List.mem_cons_self hwrites)

/-- What a request writes after the gate has let it through is what the gate says, or the
gate is downgraded. -/
theorem writes_decided {gate : OriginGate} {call : RouteCall} {number : Nat} {now : Int} {op : Op}
    (hidle : call.todo = [])
    (hop : op ∈ (call.decided number gate.protocol
      (gate.enter options.toGateOptions now).1).todo) (hwrites : op.writes = some verdict) :
    verdictOf gate.protocol = some verdict ∨
      gate.protocol = .h2FailedRecently ∧ now < gate.retryAfter ∧ verdict = .downgraded := by
  cases hprotocol : gate.protocol with
  | h2Available =>
    simp only [OriginGate.enter, hprotocol, RouteCall.decided, List.mem_singleton] at hop
    subst hop
    exact .inl hwrites
  | h1Only =>
    simp only [OriginGate.enter, hprotocol, RouteCall.decided, Bool.false_eq_true, if_false,
      if_true, List.mem_singleton] at hop
    subst hop
    exact .inl hwrites
  | h2FailedRecently =>
    by_cases hwindow : now < gate.retryAfter
    · simp only [OriginGate.enter, hprotocol, hwindow, if_true, RouteCall.decided,
        Bool.false_eq_true, if_false, reduceCtorEq, List.mem_singleton] at hop
      subst hop
      exact .inr ⟨rfl, hwindow, (Option.some.inj hwrites).symm⟩
    · simp only [OriginGate.enter, hprotocol, hwindow, if_false, OriginGate.startDetection,
        RouteCall.decided, hidle] at hop
      exact absurd hop List.not_mem_nil
  | unknown =>
    simp only [OriginGate.enter, hprotocol, OriginGate.startDetection, RouteCall.decided,
      hidle] at hop
    exact absurd hop List.not_mem_nil
  | detecting =>
    have hnone : (call.decided number gate.protocol
        (gate.enter options.toGateOptions now).1).todo = [] := by
      simp only [OriginGate.enter, hprotocol]
      split
      · exact hidle
      · exact hidle
    rw [hprotocol] at hnone
    rw [hprotocol, hnone] at hop
    exact absurd hop List.not_mem_nil

/-- Entering does not make the gate say anything. -/
theorem verdictOf_enter {gate : OriginGate} {now : Int}
    (h : verdictOf (gate.enter options.toGateOptions now).2.protocol = some verdict) :
    verdictOf gate.protocol = some verdict := by
  rcases gate.enter_cases options.toGateOptions now with ⟨hsame, -⟩ | ⟨hstart, -⟩ | ⟨hwait, -⟩
  · rw [hsame] at h
    exact h
  · rw [hstart] at h
    cases h
  · rw [hwait] at h
    exact h

/-- No decision sends a request to a gate again. -/
theorem decided_stage (call : RouteCall) (gate : Nat) (protocol : ProtocolState)
    (decision : GateDecision) (other : Nat) :
    (call.decided gate protocol decision).stage ≠ .enter other := by
  rw [RouteCall.decided]
  split
  · exact fun h => nomatch h
  · split
    · exact fun h => nomatch h
    · exact fun h => nomatch h
  · exact fun h => nomatch h
  · exact fun h => nomatch h

theorem stageOf_ne_enter (told : Verdict) (gate : Nat) : stageOf told ≠ .enter gate := by
  cases told with
  | h1Only | downgraded | h2Available => exact fun h => nomatch h

theorem claims_of_enterGate {i thread gate : Nat} {call : RouteCall}
    (hcall : state.calls[i]? = some call) (hidle : call.todo = [])
    (hstage : call.stage = .enter gate)
    (h : Claims options { (call.enterGate options gate state).2 with
      calls := (call.enterGate options gate state).2.calls.set i
        (call.enterGate options gate state).1 } verdict) :
    Claims options state verdict ∨ Arises state (.route i thread) verdict := by
  have hused : Consulted state gate := .inr ⟨call, List.mem_of_getElem? hcall, hstage⟩
  rcases claims_setCall h with hold | ⟨op, hop, hwrites⟩ | ⟨other, hother, -⟩
  · -- what the gate says it has said before
    have hgate : Claims options (state.onGate gate fun _ =>
        ((state.gates gate).enter options.toGateOptions state.now).2) verdict := by
      simp only [RouteCall.enterGate] at hold
      split at hold
      · exact hold.of_same ⟨rfl, rfl, rfl, rfl, rfl, rfl⟩
      · exact hold
    rcases claims_onGate hgate with hbefore | ⟨-, hsaid⟩
    · exact .inl hbefore
    · exact .inl (hused.claims (verdictOf_enter hsaid))
  · rcases writes_decided hidle hop hwrites with hsaid | ⟨hfailed, hwindow, rfl⟩
    · exact .inl (hused.claims hsaid)
    · exact .inr (.downgraded hcall hstage hfailed hwindow)
  · exact absurd hother (decided_stage _ _ _ _ _)

/-- A route cache that was asked says nothing new. -/
theorem claims_lookup {thread : Nat} {url : Bytes}
    (h : Claims options (state.onThread thread fun _ =>
      ((state.threads thread).lookup options.originCacheTtl state.generation state.now url).2)
      verdict) : Claims options state verdict := by
  rcases claims_onThread h with hold | ⟨route, hroute, rfl, hvalid⟩
  · exact hold
  · rcases RouteCache.mem_lookup hroute with hold | ⟨before, hbefore, hsame, hbelieved⟩
    · exact .inl (.thread hold hvalid)
    · rw [← hsame]
      exact .inl (.thread hbefore hbelieved)

/-- A request goes on, and has nothing new to write. -/
theorem claims_setStage {i : Nat} {call : RouteCall}
    (h : Claims options { after with calls := after.calls.set i call } verdict)
    (htodo : call.todo = []) (hstage : ∀ gate, call.stage ≠ .enter gate) :
    Claims options after verdict := by
  rcases claims_setCall h with hold | ⟨op, hop, -⟩ | ⟨gate, hgate, -⟩
  · exact hold
  · rw [htodo] at hop
    exact absurd hop List.not_mem_nil
  · exact absurd hgate (hstage gate)

theorem claims_of_route {i thread : Nat} {call next : RouteCall}
    (hcall : state.calls[i]? = some call)
    (hrun : call.route options thread state = some (next, after))
    (h : Claims options { after with calls := after.calls.set i next } verdict) :
    Claims options state verdict ∨ Arises state (.route i thread) verdict := by
  obtain ⟨htodo, hroutes⟩ := routes_of_route hrun
  cases hroutes with
  | @found told hstage =>
    exact .inl (claims_lookup (claims_setStage h htodo fun gate => stageOf_ne_enter told gate))
  | missed hstage =>
    exact .inl (claims_lookup (claims_setStage h htodo fun gate hgate => nomatch hgate))
  | @told told entry hstage hentry hsaid =>
    left
    rcases claims_setCall h with hold | ⟨op, hop, hwrites⟩ | ⟨gate, hgate, -⟩
    · exact hold
    · -- the route cache is told what the table says
      obtain rfl := List.mem_singleton.mp hop
      obtain rfl := Option.some.inj hwrites
      exact .inl (.entry hentry hsaid)
    · exact absurd hgate (stageOf_ne_enter told gate)
  | gate hstage =>
    left
    rcases claims_setCall h with hold | ⟨op, hop, -⟩ | ⟨gate, hgate, hsaid⟩
    · exact claims_getGate hold
    · rw [htodo] at hop
      exact absurd hop List.not_mem_nil
    · -- the gate that is looked up is the one in the table
      cases hgate
      obtain ⟨entry, hentry, hsame⟩ := getGate_entry state
      exact claims_getGate (.inl (.gate (.inl ⟨entry, hentry, hsame⟩) hsaid))
  | entered hstage => exact claims_of_enterGate hcall htodo hstage h
  | preferGate hstage =>
    exact .inl (claims_getGate (claims_setStage h htodo fun gate hgate => nomatch hgate))
  | again | untold | unwoken | woken =>
    exact .inl (claims_setStage h htodo fun gate hgate => nomatch hgate)

theorem Routes.calls {thread : Nat} {call next : RouteCall}
    (h : Routes options thread state call next after) : after.calls = state.calls := by
  cases h with
  | gate | preferGate => exact getGate_calls state
  | entered =>
    dsimp only [RouteCall.enterGate]
    split
    · rfl
    · rfl
  | _ => rfl

/-- What held when the request started stays with it. -/
def SameStart (call next : RouteCall) : Prop :=
  next.window = call.window ∧ next.records = call.records ∧ next.due = call.due ∧
    next.attempts = call.attempts

theorem decided_sameStart (call : RouteCall) (gate : Nat) (protocol : ProtocolState)
    (decision : GateDecision) : SameStart call (call.decided gate protocol decision) := by
  rw [RouteCall.decided]
  split
  · exact ⟨rfl, rfl, rfl, rfl⟩
  · split
    · exact ⟨rfl, rfl, rfl, rfl⟩
    · exact ⟨rfl, rfl, rfl, rfl⟩
  · exact ⟨rfl, rfl, rfl, rfl⟩
  · exact ⟨rfl, rfl, rfl, rfl⟩

theorem Routes.sameStart {thread : Nat} {call next : RouteCall}
    (h : Routes options thread state call next after) : SameStart call next := by
  cases h with
  | entered => exact decided_sameStart _ _ _ _
  | _ => exact ⟨rfl, rfl, rfl, rfl⟩

theorem Receives.sameStart {call next : RouteCall} {answer : Answer}
    (h : Receives state call answer next after) : SameStart call next := by
  cases h with
  | _ => exact ⟨rfl, rfl, rfl, rfl⟩

/-- An answer changes nothing that is said, and leads to no gate. -/
theorem Receives.same {call next : RouteCall} {answer : Answer}
    (h : Receives state call answer next after) :
    SamePlaces state after ∧ ∀ gate, next.stage ≠ .enter gate := by
  cases h with
  | _ => exact ⟨⟨rfl, rfl, rfl, rfl, rfl, rfl⟩, fun gate hgate => nomatch hgate⟩

/-- What a request writes on its own judgement is that the origin has HTTP/1.1 only. -/
theorem Receives.writes {call next : RouteCall} {answer : Answer} {op : Op}
    (h : Receives state call answer next after) (htodo : call.todo = []) (hop : op ∈ next.todo)
    (hwrites : op.writes = some verdict) : verdict = .h1Only ∧ call.Judges answer := by
  cases h with
  | preferredH1 hstage =>
    refine ⟨?_, .inl ⟨hstage, rfl⟩⟩
    simp only [List.mem_cons, List.not_mem_nil, or_false] at hop
    rcases hop with rfl | rfl | rfl <;> exact (Option.some.inj hwrites).symm
  | @detectionFailed trial hstage hdetects =>
    simp only [List.mem_cons, List.not_mem_nil, or_false] at hop
    rcases hop with rfl | rfl
    · cases hwrites
    · exact ⟨(Option.some.inj hwrites).symm, .inr (.inr ⟨trial, hstage, hdetects, rfl⟩)⟩
  | @probed trial hstage =>
    refine ⟨?_, .inr (.inl ⟨trial, hstage, rfl⟩)⟩
    rcases List.mem_cons.mp hop with rfl | hop
    · exact (Option.some.inj hwrites).symm
    · split at hop
      · obtain rfl := List.mem_singleton.mp hop
        exact (Option.some.inj hwrites).symm
      · exact absurd hop List.not_mem_nil
  | preferredH2Failed =>
    simp only [List.mem_cons, List.not_mem_nil, or_false] at hop
    rcases hop with rfl | rfl <;> cases hwrites
  | h2Failed | trial | negotiated =>
    obtain rfl := List.mem_singleton.mp hop
    cases hwrites
  | _ =>
    rw [htodo] at hop
    exact absurd hop List.not_mem_nil

/-- A claim has been there before the step, or it arises with it. -/
theorem claims_of_step {action : Action} (hstep : step options state action = some after)
    (h : Claims options after verdict) :
    Claims options state verdict ∨ Arises state action verdict := by
  cases action with
  | start kind url =>
    obtain rfl := Option.some.inj hstep
    left
    rcases h with hsaid | ⟨call, hmem, op, hop, hwrites⟩
    · cases hsaid with
      | gate hgate hsaid =>
        rcases hgate with hentry | ⟨call, hmem, hstage⟩
        · exact .inl (.gate (.inl hentry) hsaid)
        · rcases List.mem_append.mp hmem with hold | hnew
          · exact .inl (.gate (.inr ⟨call, hold, hstage⟩) hsaid)
          · obtain rfl := List.mem_singleton.mp hnew
            cases kind with
            | auto | submitted | preferH1 | preferH2 => cases hstage
      | entry hentry hsaid => exact .inl (.entry hentry hsaid)
      | thread hroute hvalid => exact .inl (.thread hroute hvalid)
    · rcases List.mem_append.mp hmem with hold | hnew
      · exact .inr ⟨call, hold, op, hop, hwrites⟩
      · obtain rfl := List.mem_singleton.mp hnew
        cases kind with
        | auto | submitted | preferH1 | preferH2 => exact absurd hop List.not_mem_nil
  | perform i thread =>
    obtain ⟨call, next, mid, hcall, hrun, rfl⟩ := onCall_eq_some hstep
    exact claims_of_perform hcall hrun h
  | route i thread =>
    obtain ⟨call, next, mid, hcall, hrun, rfl⟩ := onCall_eq_some hstep
    exact claims_of_route hcall hrun h
  | receive i answer =>
    obtain ⟨call, next, mid, hcall, hrun, rfl⟩ := onCall_eq_some hstep
    obtain ⟨htodo, hreceives⟩ := receives_of_receive hrun
    rcases claims_setCall h with hold | ⟨op, hop, hwrites⟩ | ⟨gate, hgate, -⟩
    · exact .inl (hold.of_same hreceives.same.1)
    · obtain ⟨rfl, hjudges⟩ := hreceives.writes htodo hop hwrites
      exact .inr (.judged hcall hjudges)
    · exact absurd hgate (hreceives.same.2 gate)
  | abort i =>
    obtain rfl := Option.some.inj hstep
    left
    rcases h with hsaid | ⟨call, hmem, hop⟩
    · cases hsaid with
      | gate hgate hsaid =>
        rcases hgate with hentry | ⟨call, hmem, hstage⟩
        · exact .inl (.gate (.inl hentry) hsaid)
        · exact .inl (.gate (.inr ⟨call, List.mem_of_mem_eraseIdx hmem, hstage⟩) hsaid)
      | entry hentry hsaid => exact .inl (.entry hentry hsaid)
      | thread hroute hvalid => exact .inl (.thread hroute hvalid)
    · exact .inr ⟨call, List.mem_of_mem_eraseIdx hmem, hop⟩
  | tick ticks =>
    obtain rfl := Option.some.inj hstep
    left
    rcases h with hsaid | hcall
    · cases hsaid with
      | gate hgate hsaid => exact .inl (.gate hgate hsaid)
      | entry hentry hsaid => exact .inl (.entry hentry hsaid)
      | thread hroute hvalid =>
        exact .inl (.thread hroute (hvalid.earlier le_rfl (by dsimp only; omega)))
    · exact .inr hcall
  | evict =>
    obtain ⟨entry, hentry, hstep⟩ := Option.bind_eq_some_iff.mp hstep
    split at hstep
    · cases hstep
    · obtain rfl := Option.some.inj hstep
      left
      rcases h with hsaid | hcall
      · cases hsaid with
        | gate hgate hsaid =>
          rcases hgate with ⟨other, hother, -⟩ | hcall
          · cases hother
          · exact .inl (.gate (.inr hcall) hsaid)
        | entry hother hsaid => cases hother
        | thread hroute hvalid =>
          exact .inl (.thread hroute (hvalid.earlier (Nat.le_succ _) (Int.le_refl state.now)))
      · exact .inr hcall
  | overwrite thread =>
    obtain rfl := Option.some.inj hstep
    rcases claims_onThread h with hold | ⟨route, hroute, rfl, hvalid⟩
    · exact .inl hold
    · rcases RouteCache.mem_put hroute with hold | hnew
      · exact .inl (.inl (.thread hold hvalid))
      · cases hnew

/-- In the beginning nothing is claimed. -/
theorem not_claims_start (now : Int) (verdict : Verdict) : ¬ Claims options { now } verdict := by
  rintro (hsaid | ⟨call, hcall, -⟩)
  · cases hsaid with
    | gate hgate h => cases h
    | entry hentry => cases hentry
    | thread hroute => exact nomatch List.eq_of_mem_replicate hroute
  · exact absurd hcall List.not_mem_nil

end HttpClient.Routing.Verdicts
