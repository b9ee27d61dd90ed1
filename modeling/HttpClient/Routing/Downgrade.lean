import HttpClient.Routing.VerdictEvidence

/-!
# The downgrade after a failure of HTTP/2

When a request over HTTP/2 has failed, its gate is marked: for a while requests are to be sent
over HTTP/1.1, and then a new detection is to be attempted.

But only the gate is marked, and the gate is asked last. A route cache or the table that still
says HTTP/2 leads further requests to it; so does a request that has recorded HTTP/2 and not
written everything yet. The other way round, a detection that fails sets the protocol of the
gate for good, over its own mark; and what a downgraded gate lets through over HTTP/1.1 is
stored in the route cache, where every use makes it last longer.

## Main definitions

* `Bound`, `Due` — requests that started before the downgrade has ended, or after
* `SentOverH1`, `Retried` — the two halves of the law
* `Agreed` — the places agree when a failure is marked
* `Temporary` — no failure is made to last

## Main results

* `downgrade_law` — each half holds in every run that keeps its condition
* `not_downgrade_law` — a route cache that still says HTTP/2; a detection that fails
-/

set_option autoImplicit false

namespace HttpClient.Routing.Verdicts

open Text Semantics

variable {options : RouteOptions} {state after : RouteState}

/-! ### The law -/

/-- The request started while HTTP/1.1 was to be used, and HTTP/2 has not been recorded since. -/
def Bound (state : RouteState) (call : RouteCall) : Prop :=
  call.window.isSome = true ∧ call.records = state.records

/-- The request started when a detection was due, and none has been attempted since. -/
def Due (state : RouteState) (call : RouteCall) : Prop :=
  call.due = true ∧ call.attempts = state.attempts

/-- Requests that are bound to HTTP/1.1 are not sent over HTTP/2. -/
def SentOverH1 (state : RouteState) : Prop :=
  ∀ call ∈ state.calls, Bound state call → ∀ trial, call.stage ≠ .h2 trial

/-- As long as a detection is due, it is attempted before HTTP/1.1 is used. -/
def Retried (state : RouteState) : Prop :=
  ∀ call ∈ state.calls, Due state call → ∀ prefers, call.stage ≠ .h1 prefers

/-- When a failure is marked, nothing says HTTP/2 or is about to say it, and the gate is the one
in the table; that is not evicted before the downgrade ends. A request that is bound reaches the
gate before the downgrade ends. -/
def Agreed (options : RouteOptions) (state : RouteState) : Action → Prop
  | .perform i _ => ∀ call gate rest, state.calls[i]? = some call →
      call.todo = .markH2Failed gate :: rest → ¬ Claims options state .h2Available ∧
        ∃ entry, state.entry = some entry ∧ entry.gate = gate
  | .route i _ => ∀ call gate ends, state.calls[i]? = some call → call.stage = .enter gate →
      Bound state call → call.window = some ends → state.now < ends
  | .evict => ∀ ends, state.window = some ends → ends ≤ state.now
  | _ => True

/-- No detection fails over HTTP/2, and no request that started when a detection was due finds in
the route cache what a downgraded gate has let through. -/
def Temporary (options : RouteOptions) (state : RouteState) : Action → Prop
  | .receive i answer => ∀ call trial, state.calls[i]? = some call →
      call.stage = .h2 (some trial) → answer ≠ .failure
  | .route i thread => ∀ call, state.calls[i]? = some call → call.stage = .lookup →
      Due state call → ((state.threads thread).lookup options.originCacheTtl state.generation
        state.now call.url).1 ≠ some .downgraded
  | _ => True

/-- The requests choose their protocol. -/
def Auto : Action → Prop
  | .start .preferH1 _ | .start .preferH2 _ => False
  | _ => True

/-! ### Requests are sent over HTTP/1.1 -/

/-- The gate lets through over HTTP/1.1 until the given time. -/
def HoldsH1 (gate : OriginGate) (ends : Int) : Prop :=
  gate.protocol = .h1Only ∨ gate.protocol = .h2FailedRecently ∧ ends ≤ gate.retryAfter

theorem HoldsH1.enter {gate : OriginGate} {ends now : Int} (h : HoldsH1 gate ends)
    (hnow : now < ends) :
    gate.enter options.toGateOptions now = ({ action := .useH1 }, gate) := by
  rcases h with hprotocol | ⟨hprotocol, hends⟩
  · simp [OriginGate.enter, hprotocol]
  · have hearly : now < gate.retryAfter := by omega
    simp [OriginGate.enter, hprotocol, hearly]

/-- The stages of a request that is sent over HTTP/1.1 only. -/
def Plain : Stage → Prop
  | .lookup | .remembered | .getGate | .enter _ | .h1 false | .done => True
  | _ => False

/-- While the downgrade lasts, nothing says HTTP/2, and the gate in the table lets through over
HTTP/1.1; requests that are bound are on their way to it or past it. -/
structure Downgraded (options : RouteOptions) (state : RouteState) : Prop where
  quiet : ∀ ends, state.window = some ends → ¬ Claims options state .h2Available
  gate : ∀ ends, state.window = some ends → state.now < ends →
    ∃ entry, state.entry = some entry ∧ HoldsH1 (state.gates entry.gate) ends
  limit : ∀ ends, state.window = some ends → ends ≤ state.now + options.h2FailureTtl
  records : ∀ call ∈ state.calls, call.records ≤ state.records
  bound : ∀ call ∈ state.calls, Bound state call → ∃ ends started,
    state.window = some ends ∧ call.window = some started ∧ started ≤ ends ∧ Plain call.stage ∧
      ∀ gate, call.stage = .enter gate → state.now < started →
        ∃ entry, state.entry = some entry ∧ entry.gate = gate

theorem Downgraded.sentOverH1 (h : Downgraded options state) : SentOverH1 state := by
  intro call hcall hbound trial hstage
  obtain ⟨ends, started, -, -, -, hplain, -⟩ := h.bound call hcall hbound
  rw [hstage] at hplain
  exact hplain

/-- A part of a step that leaves the downgrade as it is. -/
structure Keeps (state after : RouteState) : Prop where
  now : after.now = state.now
  window : after.window = state.window
  records : after.records = state.records
  calls : after.calls = state.calls
  entry : ∀ entry, state.entry = some entry →
    ∃ kept, after.entry = some kept ∧ kept.gate = entry.gate
  gate : ∀ entry ends, state.window = some ends → state.entry = some entry → state.now < ends →
    HoldsH1 (state.gates entry.gate) ends → HoldsH1 (after.gates entry.gate) ends

theorem keeps_of_same (hnow : after.now = state.now) (hwindow : after.window = state.window)
    (hrecords : after.records = state.records) (hcalls : after.calls = state.calls)
    (hentry : after.entry = state.entry) (hgates : after.gates = state.gates) :
    Keeps state after where
  now := hnow
  window := hwindow
  records := hrecords
  calls := hcalls
  entry := fun entry h => ⟨entry, hentry.trans h, rfl⟩
  gate := fun entry ends _ _ _ h => by rwa [hgates]

theorem keeps_getGate (state : RouteState) : Keeps state state.getGate.2 := by
  rw [RouteState.getGate]
  cases hentry : state.entry with
  | some entry => exact keeps_of_same rfl rfl rfl rfl rfl rfl
  | none =>
    -- without an entry there is no downgrade to keep
    refine ⟨rfl, rfl, rfl, rfl, fun entry h => ?_, fun entry ends _ h => ?_⟩
    · rw [hentry] at h
      cases h
    · rw [hentry] at h
      cases h

theorem keeps_remember (state : RouteState) (verdict : Verdict) :
    Keeps state (state.remember verdict) := by
  have hgate := keeps_getGate state
  refine ⟨hgate.now, hgate.window, hgate.records, hgate.calls, fun entry h => ?_, hgate.gate⟩
  obtain ⟨kept, hkept, hsame⟩ := hgate.entry entry h
  obtain ⟨cached, hcached, hlooked⟩ := getGate_entry state
  obtain rfl := Option.some.inj (hkept.symm.trans hcached)
  exact ⟨_, rfl, hlooked.symm.trans hsame⟩

theorem keeps_onGate {gate : Nat} {update : OriginGate → OriginGate}
    (h : ∀ ends, state.window = some ends → state.now < ends →
      HoldsH1 (state.gates gate) ends → HoldsH1 (update (state.gates gate)) ends) :
    Keeps state (state.onGate gate update) := by
  refine ⟨rfl, rfl, rfl, rfl, fun entry hentry => ⟨entry, hentry, rfl⟩,
    fun entry ends hends _ hnow hholds => ?_⟩
  by_cases hgate : entry.gate = gate
  · subst hgate
    simpa [RouteState.onGate] using h ends hends hnow hholds
  · simpa [RouteState.onGate, Function.update_of_ne hgate] using hholds

/-- Operations that neither mark nor record, and write nothing of HTTP/2 meanwhile. -/
theorem keeps_runOp {thread : Nat} {url : Bytes} {op : Op} (hrecord : ∀ trial, op ≠ .recordH2 trial)
    (hmark : ∀ gate, op ≠ .markH2Failed gate)
    (hwrites : ∀ ends, state.window = some ends → op.writes ≠ some .h2Available) :
    Keeps state (runOp options thread url state op).2 := by
  cases op with
  | storeTls verdict => exact keeps_of_same rfl rfl rfl rfl rfl rfl
  | remember verdict => exact keeps_remember state verdict
  | recordH2 trial => exact absurd rfl (hrecord trial)
  | setProtocol gate verdict =>
    refine keeps_onGate fun ends hends _ _ => .inl ?_
    cases verdict with
    | h1Only | downgraded => rfl
    | h2Available => exact absurd rfl (hwrites ends hends)
  | markH2Failed gate => exact absurd rfl (hmark gate)
  | markCached | setCached verdict => exact keeps_getGate state

theorem Routes.keeps {thread : Nat} {call next : RouteCall}
    (h : Routes options thread state call next after) : Keeps state after := by
  cases h with
  | found | missed => exact keeps_of_same rfl rfl rfl rfl rfl rfl
  | gate | preferGate => exact keeps_getGate state
  | @entered gate hstage =>
    have hentered : Keeps state (state.onGate gate fun _ =>
        ((state.gates gate).enter options.toGateOptions state.now).2) := by
      refine keeps_onGate fun ends _ hnow hholds => ?_
      rw [hholds.enter hnow]
      exact hholds
    dsimp only [RouteCall.enterGate]
    split
    · exact ⟨hentered.now, hentered.window, hentered.records, hentered.calls, hentered.entry,
        hentered.gate⟩
    · exact hentered
  | told | again | untold | unwoken | woken => exact keeps_of_same rfl rfl rfl rfl rfl rfl

theorem Receives.keeps {call next : RouteCall} {answer : Answer}
    (h : Receives state call answer next after) : Keeps state after := by
  cases h with
  | _ => exact keeps_of_same rfl rfl rfl rfl rfl rfl

/-- A request goes on while the downgrade is kept. -/
theorem Downgraded.onCall {i : Nat} {call next : RouteCall} (h : Downgraded options state)
    (hkeeps : Keeps state after) (hcall : state.calls[i]? = some call)
    (hquiet : ∀ ends, state.window = some ends →
      ¬ Claims options { after with calls := after.calls.set i next } .h2Available)
    (hwindow : next.window = call.window) (hrecords : next.records = call.records)
    (hplain : Bound state call → ∀ started, call.window = some started → Plain next.stage ∧
      ∀ gate, next.stage = .enter gate → state.now < started →
        ∃ entry, after.entry = some entry ∧ entry.gate = gate) :
    Downgraded options { after with calls := after.calls.set i next } := by
  have hmem : call ∈ state.calls := List.mem_of_getElem? hcall
  refine ⟨fun ends hends => hquiet ends (hkeeps.window ▸ hends), fun ends hends hnow => ?_,
    fun ends hends => ?_, fun other hother => ?_, fun other hother hbound => ?_⟩
  · replace hends : state.window = some ends := hkeeps.window ▸ hends
    replace hnow : state.now < ends := hkeeps.now ▸ hnow
    obtain ⟨entry, hentry, hholds⟩ := h.gate ends hends hnow
    obtain ⟨kept, hkept, hsame⟩ := hkeeps.entry entry hentry
    refine ⟨kept, hkept, ?_⟩
    rw [hsame]
    exact hkeeps.gate entry ends hends hentry hnow hholds
  · have hlimit := h.limit ends (hkeeps.window ▸ hends)
    dsimp only
    rw [hkeeps.now]
    exact hlimit
  · dsimp only
    rw [hkeeps.records]
    rcases List.mem_or_eq_of_mem_set hother with hold | rfl
    · exact h.records other (hkeeps.calls ▸ hold)
    · rw [hrecords]
      exact h.records call hmem
  · have hcount : other.records = state.records := hbound.2.trans hkeeps.records
    rcases List.mem_or_eq_of_mem_set hother with hold | rfl
    · obtain ⟨ends, started, hends, hstarted, hle, hstage, hgate⟩ :=
        h.bound other (hkeeps.calls ▸ hold) ⟨hbound.1, hcount⟩
      refine ⟨ends, started, hkeeps.window.trans hends, hstarted, hle, hstage,
        fun gate hat hnow => ?_⟩
      obtain ⟨entry, hentry, hsame⟩ := hgate gate hat (hkeeps.now ▸ hnow)
      obtain ⟨kept, hkept, hkeptgate⟩ := hkeeps.entry entry hentry
      exact ⟨kept, hkept, hkeptgate.trans hsame⟩
    · have hbefore : Bound state call := ⟨hwindow ▸ hbound.1, hrecords.symm.trans hcount⟩
      obtain ⟨ends, started, hends, hstarted, hle, -, -⟩ := h.bound call hmem hbefore
      obtain ⟨hstage, hgate⟩ := hplain hbefore started hstarted
      exact ⟨ends, started, hkeeps.window.trans hends, hwindow.trans hstarted, hle, hstage,
        fun gate hat hnow => hgate gate hat (hkeeps.now ▸ hnow)⟩

/-- While the downgrade lasts, only a record makes anything claim HTTP/2. -/
theorem Downgraded.recorded {action : Action} {ends : Int} (h : Downgraded options state)
    (hstep : step options state action = some after) (hends : state.window = some ends)
    (hclaims : Claims options after .h2Available) :
    ∃ i thread call trial rest, action = .perform i thread ∧ state.calls[i]? = some call ∧
      call.todo = .recordH2 trial :: rest := by
  rcases claims_of_step hstep hclaims with hold | harises
  · exact absurd hold (h.quiet ends hends)
  · cases harises with
    | recorded hcall htodo => exact ⟨_, _, _, _, _, rfl, hcall, htodo⟩

theorem stageOf_plain {verdict : Verdict} (h : verdict ≠ .h2Available) :
    Plain (stageOf verdict) := by
  cases verdict with
  | h1Only | downgraded => trivial
  | h2Available => exact absurd rfl h

/-- A request that is bound goes on to HTTP/1.1. -/
theorem Downgraded.plain_route {i thread : Nat} {call next : RouteCall}
    (h : Downgraded options state) (hok : Agreed options state (.route i thread))
    (hcall : state.calls[i]? = some call)
    (hroutes : Routes options thread state call next after) (hbound : Bound state call)
    {started : Int} (hstarted : call.window = some started) :
    Plain next.stage ∧ ∀ gate, next.stage = .enter gate → state.now < started →
      ∃ entry, after.entry = some entry ∧ entry.gate = gate := by
  obtain ⟨ends, began, hends, hbegan, hle, hplain, hgate⟩ :=
    h.bound call (List.mem_of_getElem? hcall) hbound
  obtain rfl := Option.some.inj (hstarted.symm.trans hbegan)
  have hquiet := h.quiet ends hends
  cases hroutes with
  | @found verdict hstage hfound =>
    -- the route cache says nothing of HTTP/2
    obtain ⟨route, hroute, rfl, hvalid⟩ := RouteCache.lookup_some hfound
    refine ⟨stageOf_plain fun hh2 => hquiet ?_, fun gate hat => absurd hat (stageOf_ne_enter _ _)⟩
    rw [← hh2]
    exact .inl (.thread hroute hvalid)
  | @told verdict entry hstage hentry hverdict =>
    refine ⟨stageOf_plain fun hh2 => hquiet ?_, fun gate hat => absurd hat (stageOf_ne_enter _ _)⟩
    rw [← hh2]
    exact .inl (.entry hentry hverdict)
  | gate hstage =>
    refine ⟨trivial, fun gate hat _ => ?_⟩
    cases hat
    exact getGate_entry state
  | @entered gate hstage =>
    -- it reaches the gate in time, and the gate is the one that is downgraded
    have hnow := hok call gate started hcall hstage hbound hstarted
    obtain ⟨entry, hentry, rfl⟩ := hgate gate hstage hnow
    have hlasts : state.now < ends := Int.lt_of_lt_of_le hnow hle
    obtain ⟨cached, hcached, hholds⟩ := h.gate ends hends hlasts
    obtain rfl := Option.some.inj (hentry.symm.trans hcached)
    have henter : (state.gates entry.gate).enter options.toGateOptions state.now =
        ({ action := .useH1 }, state.gates entry.gate) := hholds.enter hlasts
    simp only [RouteCall.enterGate, henter, RouteCall.decided, Bool.false_eq_true, if_false]
    exact ⟨trivial, fun gate hat => by cases hat⟩
  | missed | again | untold => exact ⟨trivial, fun gate hat => by cases hat⟩
  | unwoken hstage | woken hstage | preferGate hstage =>
    rw [hstage] at hplain
    exact hplain.elim

theorem plain_receive {call next : RouteCall} {answer : Answer}
    (h : Receives state call answer next after) (hplain : Plain call.stage) :
    Plain next.stage ∧ ∀ gate, next.stage ≠ .enter gate := by
  refine ⟨?_, h.same.2⟩
  cases h with
  | h1 | h1Failed => trivial
  | preferredH1 hstage | preferredH1Failed hstage | h2 hstage | h2Failed hstage
  | directFailed hstage | trial hstage | detectionFailed hstage | preferredH2Failed hstage
  | probed hstage | negotiated hstage | unnegotiated hstage | probeFailed hstage =>
    rw [hstage] at hplain
    exact hplain.elim

/-- After a failure has been marked, a downgrade begins, and it ends no earlier than the one
before. -/
theorem Downgraded.marked {gate i : Nat} {call next : RouteCall} {marked : RouteState}
    (h : Downgraded options state) (hcall : state.calls[i]? = some call)
    (htable : ∃ entry, state.entry = some entry ∧ entry.gate = gate)
    (hmarked : marked = (state.onGate gate
      (OriginGate.markH2Failed options.toGateOptions state.now)).failed options)
    (hquiet : ¬ Claims options { marked with calls := marked.calls.set i next } .h2Available)
    (hstage : next.stage = call.stage) (hwindow : next.window = call.window)
    (hrecords : next.records = call.records) :
    Downgraded options { marked with calls := marked.calls.set i next } := by
  subst hmarked
  have hmem : call ∈ state.calls := List.mem_of_getElem? hcall
  obtain ⟨entry, hentry, rfl⟩ := htable
  refine ⟨fun _ _ => hquiet, fun ends hends _ => ⟨entry, hentry, .inr ?_⟩, fun ends hends => ?_,
    fun other hother => ?_, fun other hother hbound => ?_⟩
  · obtain rfl := Option.some.inj hends
    simp [RouteState.onGate, RouteState.failed, OriginGate.markH2Failed,
      OriginGate.notifyWaiters]
  · obtain rfl := Option.some.inj hends
    exact Int.le_refl _
  · rcases List.mem_or_eq_of_mem_set hother with hold | rfl
    · exact h.records other hold
    · exact hrecords ▸ h.records call hmem
  · -- who was bound before stays bound
    have hbefore : ∃ old ∈ state.calls, Bound state old ∧ other.stage = old.stage ∧
        other.window = old.window := by
      rcases List.mem_or_eq_of_mem_set hother with hold | rfl
      · exact ⟨other, hold, hbound, rfl, rfl⟩
      · exact ⟨call, hmem, ⟨hwindow ▸ hbound.1, hrecords.symm.trans hbound.2⟩, hstage, hwindow⟩
    obtain ⟨old, hold, holdbound, hsame, hsamewindow⟩ := hbefore
    obtain ⟨ends, started, hends, hstarted, hle, hplain, hgate⟩ := h.bound old hold holdbound
    have hlater : ends ≤ state.now + options.h2FailureTtl := h.limit ends hends
    refine ⟨_, started, rfl, hsamewindow.trans hstarted, Int.le_trans hle hlater, ?_, ?_⟩
    · rw [hsame]
      exact hplain
    · rw [hsame]
      exact hgate

theorem Downgraded.perform {i thread : Nat} (h : Downgraded options state)
    (hok : Agreed options state (.perform i thread))
    (hstep : Verdicts.step options state (.perform i thread) = some after) :
    Downgraded options after := by
  have hclaims : ∀ ends, state.window = some ends → Claims options after .h2Available →
      ∃ i' thread' call trial rest, Action.perform i thread = .perform i' thread' ∧
        state.calls[i']? = some call ∧ call.todo = .recordH2 trial :: rest :=
    fun ends hends hclaims => h.recorded hstep hends hclaims
  obtain ⟨call, next, mid, hcall, hrun, rfl⟩ := onCall_eq_some hstep
  obtain ⟨op, rest, htodo, rfl, rfl⟩ := perform_eq_some hrun
  have hmem : call ∈ state.calls := List.mem_of_getElem? hcall
  by_cases hrecord : ∃ trial, op = .recordH2 trial
  · -- HTTP/2 is recorded: the downgrade is over, and nobody is bound any more
    obtain ⟨trial, rfl⟩ := hrecord
    have hcounts : ∀ other ∈ state.calls.set i { call with
        todo := (runOp options thread call.url state (.recordH2 trial)).1 ++ rest },
        other.records ≤ state.records := by
      intro other hother
      rcases List.mem_or_eq_of_mem_set hother with hold | rfl
      · exact h.records other hold
      · exact h.records call hmem
    refine ⟨(fun ends hends => nomatch hends), (fun ends hends => nomatch hends),
      (fun ends hends => nomatch hends), fun other hother => ?_, fun other hother hbound => ?_⟩
    · exact Nat.le_succ_of_le (hcounts other hother)
    · have hnew : other.records = state.records + 1 := hbound.2
      have hold := hcounts other hother
      omega
  · have hquiet : ∀ ends, state.window = some ends → ¬ Claims options
        { (runOp options thread call.url state op).2 with
          calls := (runOp options thread call.url state op).2.calls.set i { call with
            todo := (runOp options thread call.url state op).1 ++ rest } } .h2Available := by
      intro ends hends hnew
      obtain ⟨j, thread', other, trial, rest', haction, hother, hhead⟩ := hclaims ends hends hnew
      cases haction
      obtain rfl := Option.some.inj (hcall.symm.trans hother)
      rw [htodo] at hhead
      exact hrecord ⟨trial, (List.cons.inj hhead).1⟩
    by_cases hmark : ∃ gate, op = .markH2Failed gate
    · obtain ⟨gate, rfl⟩ := hmark
      obtain ⟨hnone, htable⟩ := hok call gate rest hcall htodo
      refine h.marked hcall htable rfl (fun hnew => ?_) rfl rfl rfl
      rcases claims_of_step hstep hnew with hold | harises
      · exact hnone hold
      · cases harises with
        | recorded hother hhead =>
          obtain rfl := Option.some.inj (hcall.symm.trans hother)
          rw [htodo] at hhead
          cases hhead
    · have hkeeps : Keeps state (runOp options thread call.url state op).2 := by
        refine keeps_runOp (fun trial heq => hrecord ⟨trial, heq⟩)
          (fun gate heq => hmark ⟨gate, heq⟩) fun ends hends hwrites => h.quiet ends hends ?_
        refine .inr ⟨call, hmem, op, ?_, hwrites⟩
        rw [htodo]
        exact List.mem_cons_self
      refine h.onCall hkeeps hcall hquiet rfl rfl fun hbound started hstarted => ?_
      obtain ⟨ends, began, -, hbegan, -, hplain, hgate⟩ := h.bound call hmem hbound
      obtain rfl := Option.some.inj (hstarted.symm.trans hbegan)
      refine ⟨hplain, fun gate hat hnow => ?_⟩
      obtain ⟨entry, hentry, hsame⟩ := hgate gate hat hnow
      obtain ⟨kept, hkept, hkeptgate⟩ := hkeeps.entry entry hentry
      exact ⟨kept, hkept, hkeptgate.trans hsame⟩

theorem Downgraded.start {kind : Kind} {url : Bytes} (h : Downgraded options state)
    (hquiet : ∀ ends, state.window = some ends →
      ¬ Claims options { state with calls := state.calls ++ [state.newCall url kind] }
        .h2Available) :
    Downgraded options { state with calls := state.calls ++ [state.newCall url kind] } := by
  have hnew : (state.newCall url kind).records ≤ state.records ∧
      ∀ started, (state.newCall url kind).window = some started →
        state.window = some started ∧ (state.newCall url kind).stage = .lookup := by
    cases kind with
    | auto | submitted =>
      refine ⟨le_rfl, fun started hstarted => ⟨?_, rfl⟩⟩
      exact (Option.filter_eq_some_iff.mp hstarted).1
    | preferH1 | preferH2 => exact ⟨Nat.zero_le _, fun started hstarted => nomatch hstarted⟩
  refine ⟨hquiet, h.gate, h.limit, fun other hother => ?_, fun other hother hbound => ?_⟩
  · rcases List.mem_append.mp hother with hold | hlast
    · exact h.records other hold
    · obtain rfl := List.mem_singleton.mp hlast
      exact hnew.1
  · rcases List.mem_append.mp hother with hold | hlast
    · exact h.bound other hold hbound
    · obtain rfl := List.mem_singleton.mp hlast
      obtain ⟨started, hstarted⟩ := Option.isSome_iff_exists.mp hbound.1
      obtain ⟨hends, hstage⟩ := hnew.2 started hstarted
      refine ⟨started, started, hends, hstarted, Int.le_refl _, ?_, fun gate hat => ?_⟩
      · rw [hstage]
        trivial
      · rw [hstage] at hat
        cases hat

theorem Downgraded.tick {ticks : Nat} (h : Downgraded options state)
    (hquiet : ∀ ends, state.window = some ends →
      ¬ Claims options { state with now := state.now + ticks } .h2Available) :
    Downgraded options { state with now := state.now + ticks } := by
  refine ⟨hquiet, fun ends hends hnow => ?_, fun ends hends => ?_, h.records,
    fun other hother hbound => ?_⟩
  · exact h.gate ends hends (by dsimp only at hnow; omega)
  · have hlimit := h.limit ends hends
    dsimp only
    omega
  · obtain ⟨ends, started, hends, hstarted, hle, hplain, hgate⟩ := h.bound other hother hbound
    exact ⟨ends, started, hends, hstarted, hle, hplain,
      fun gate hat hnow => hgate gate hat (by dsimp only at hnow; omega)⟩

/-- An entry is evicted after the downgrade has ended. -/
theorem Downgraded.evict (h : Downgraded options state)
    (hok : ∀ ends, state.window = some ends → ends ≤ state.now)
    (hquiet : ∀ ends, state.window = some ends → ¬ Claims options
      { state with entry := none, generation := state.generation + 1 } .h2Available) :
    Downgraded options { state with entry := none, generation := state.generation + 1 } := by
  refine ⟨hquiet, fun ends hends hnow => ?_, h.limit, h.records, fun other hother hbound => ?_⟩
  · have hended := hok ends hends
    dsimp only at hnow
    omega
  · obtain ⟨ends, started, hends, hstarted, hle, hplain, -⟩ := h.bound other hother hbound
    refine ⟨ends, started, hends, hstarted, hle, hplain, fun gate _ hnow => ?_⟩
    have hended := hok ends hends
    dsimp only at hnow
    omega

/-- The step rule: a downgrade on which the places agree is kept. -/
theorem Downgraded.step {action : Action} (h : Downgraded options state)
    (hok : Agreed options state action) (hstep : Verdicts.step options state action = some after) :
    Downgraded options after := by
  have hquiet : (∀ i thread, action ≠ .perform i thread) → ∀ ends, state.window = some ends →
      ¬ Claims options after .h2Available := by
    intro hother ends hends hclaims
    obtain ⟨i, thread, -, -, -, rfl, -⟩ := h.recorded hstep hends hclaims
    exact hother i thread rfl
  cases action with
  | start kind url =>
    obtain rfl := Option.some.inj hstep
    exact h.start (hquiet fun _ _ heq => nomatch heq)
  | perform i thread => exact h.perform hok hstep
  | route i thread =>
    obtain ⟨call, next, mid, hcall, hrun, rfl⟩ := onCall_eq_some hstep
    have hroutes := (routes_of_route hrun).2
    refine h.onCall hroutes.keeps hcall (hquiet fun _ _ heq => nomatch heq) hroutes.sameStart.1
      hroutes.sameStart.2.1 fun hbound started hstarted => ?_
    exact h.plain_route hok hcall hroutes hbound hstarted
  | receive i answer =>
    obtain ⟨call, next, mid, hcall, hrun, rfl⟩ := onCall_eq_some hstep
    have hreceives := (receives_of_receive hrun).2
    refine h.onCall hreceives.keeps hcall (hquiet fun _ _ heq => nomatch heq) hreceives.sameStart.1
      hreceives.sameStart.2.1 fun hbound started hstarted => ?_
    obtain ⟨-, -, -, -, -, hplain, -⟩ := h.bound call (List.mem_of_getElem? hcall) hbound
    obtain ⟨hnext, hstage⟩ := plain_receive hreceives hplain
    exact ⟨hnext, fun gate hat => absurd hat (hstage gate)⟩
  | abort i =>
    obtain rfl := Option.some.inj hstep
    exact ⟨hquiet (fun _ _ heq => nomatch heq), h.gate, h.limit,
      fun other hother => h.records other (List.mem_of_mem_eraseIdx hother),
      fun other hother => h.bound other (List.mem_of_mem_eraseIdx hother)⟩
  | tick ticks =>
    obtain rfl := Option.some.inj hstep
    exact h.tick (hquiet fun _ _ heq => nomatch heq)
  | evict =>
    obtain ⟨entry, hentry, hevict⟩ := Option.bind_eq_some_iff.mp hstep
    split at hevict
    · cases hevict
    · obtain rfl := Option.some.inj hevict
      exact h.evict hok (hquiet fun _ _ heq => nomatch heq)
  | overwrite thread =>
    obtain rfl := Option.some.inj hstep
    exact ⟨hquiet (fun _ _ heq => nomatch heq), h.gate, h.limit, h.records, h.bound⟩

/-! ### Detections are attempted -/

/-- The stages of a request that writes nothing on its own judgement, but that of a detection. -/
def Unjudging : Stage → Prop
  | .h1 true | .probe _ | .preferGate => False
  | .h2 (some trial) => trial.detects = true
  | _ => True

/-- The stages of a request that is not sent over HTTP/1.1. -/
def Leads : Stage → Prop
  | .lookup | .remembered | .getGate | .enter _ | .h2 none | .done => True
  | _ => False

/-- Nothing says for good that the origin has HTTP/1.1 only. Marks end in order; so when a
detection is due, every downgrade has ended, and no gate that will be asked is detecting. -/
structure Retrying (options : RouteOptions) (state : RouteState) : Prop where
  lasting : ¬ Claims options state .h1Only
  stages : ∀ call ∈ state.calls, Unjudging call.stage
  stamps : ∀ gate, (state.gates gate).protocol = .h2FailedRecently →
    (state.gates gate).retryAfter ≤ state.now + options.h2FailureTtl
  retry : ∀ ends, state.retryAt = some ends → ∀ gate,
    (state.gates gate).protocol = .h2FailedRecently → (state.gates gate).retryAfter ≤ ends
  attempts : ∀ call ∈ state.calls, call.attempts ≤ state.attempts
  due : ∀ call ∈ state.calls, Due state call → Leads call.stage ∧
    (∀ gate, (state.gates gate).protocol = .h2FailedRecently →
      (state.gates gate).retryAfter ≤ state.now) ∧
    state.detecting = false ∧
    ∀ gate, call.stage = .enter gate → (state.gates gate).protocol ≠ .detecting

theorem Retrying.retried (h : Retrying options state) : Retried state := by
  intro call hcall hdue prefers hstage
  have hleads := (h.due call hcall hdue).1
  rw [hstage] at hleads
  exact hleads

/-- No failure is marked. A detection may start; then none is due. -/
structure Calm (state after : RouteState) : Prop where
  now : after.now = state.now
  calls : after.calls = state.calls
  failed : ∀ gate, (after.gates gate).protocol = .h2FailedRecently →
    (state.gates gate).protocol = .h2FailedRecently ∧
      (after.gates gate).retryAfter = (state.gates gate).retryAfter
  course : after.retryAt = none ∧ after.attempts = state.attempts + 1 ∨
    after.retryAt = state.retryAt ∧ after.attempts = state.attempts ∧
      (state.detecting = false → after.detecting = false) ∧
      ∀ gate, (after.gates gate).protocol = .detecting → (state.gates gate).protocol = .detecting

theorem calm_of_same (hnow : after.now = state.now) (hcalls : after.calls = state.calls)
    (hgates : after.gates = state.gates) (hentry : after.entry = state.entry)
    (hretry : after.retryAt = state.retryAt) (hattempts : after.attempts = state.attempts) :
    Calm state after where
  now := hnow
  calls := hcalls
  failed := fun gate h => by
    rw [hgates] at h ⊢
    exact ⟨h, rfl⟩
  course := by
    refine .inr ⟨hretry, hattempts, fun h => ?_, fun gate h => ?_⟩
    · rw [RouteState.detecting, hentry, hgates]
      exact h
    · rw [hgates] at h
      exact h

theorem calm_getGate (state : RouteState) : Calm state state.getGate.2 := by
  rw [RouteState.getGate]
  cases hentry : state.entry with
  | some entry => exact calm_of_same rfl rfl rfl rfl rfl rfl
  | none =>
    -- the new gate has neither failed nor started to detect
    have hgate : ∀ gate, (Function.update state.gates state.nextGate {} gate).protocol ≠ .unknown →
        Function.update state.gates state.nextGate {} gate = state.gates gate := by
      intro gate h
      by_cases hnew : gate = state.nextGate
      · subst hnew
        rw [Function.update_self] at h
        exact absurd rfl h
      · exact Function.update_of_ne hnew _ _
    refine ⟨rfl, rfl, fun gate h => ?_, .inr ⟨rfl, rfl, fun _ => ?_, fun gate h => ?_⟩⟩
    · have hkept := hgate gate (by rw [h]; decide)
      dsimp only at h ⊢
      rw [hkept] at h ⊢
      exact ⟨h, rfl⟩
    · simp [RouteState.detecting]
    · have hkept := hgate gate (by rw [h]; decide)
      dsimp only at h
      rw [hkept] at h
      exact h

/-- What is remembered does not change the gate of the entry. -/
theorem calm_remember (state : RouteState) (verdict : Verdict) :
    Calm state (state.remember verdict) := by
  have hgate := calm_getGate state
  have hsame : (state.remember verdict).detecting = state.getGate.2.detecting := by
    obtain ⟨entry, hentry, hlooked⟩ := getGate_entry state
    rw [RouteState.detecting, RouteState.detecting, hentry]
    simp only [Option.any_some, hlooked]
    rfl
  refine ⟨hgate.now, hgate.calls, hgate.failed, ?_⟩
  rcases hgate.course with hstarts | ⟨hretry, hattempts, hdetecting, hgates⟩
  · exact .inl hstarts
  · exact .inr ⟨hretry, hattempts, fun h => hsame.trans (hdetecting h), hgates⟩

/-- The update of a gate makes it neither fail nor detect. -/
structure CalmGate (gate after : OriginGate) : Prop where
  failed : after.protocol = .h2FailedRecently →
    gate.protocol = .h2FailedRecently ∧ after.retryAfter = gate.retryAfter
  detecting : after.protocol = .detecting → gate.protocol = .detecting

theorem onGate_failed {gate : Nat} {update : OriginGate → OriginGate}
    (h : (update (state.gates gate)).protocol = .h2FailedRecently →
      (state.gates gate).protocol = .h2FailedRecently ∧
        (update (state.gates gate)).retryAfter = (state.gates gate).retryAfter) (other : Nat)
    (hother : ((state.onGate gate update).gates other).protocol = .h2FailedRecently) :
    (state.gates other).protocol = .h2FailedRecently ∧
      ((state.onGate gate update).gates other).retryAfter = (state.gates other).retryAfter := by
  by_cases hgate : other = gate
  · subst hgate
    simp only [RouteState.onGate, Function.update_self] at hother ⊢
    exact h hother
  · simp only [RouteState.onGate, Function.update_of_ne hgate] at hother ⊢
    exact ⟨hother, trivial⟩

theorem calm_onGate {gate : Nat} {update : OriginGate → OriginGate}
    (h : CalmGate (state.gates gate) (update (state.gates gate))) :
    Calm state (state.onGate gate update) := by
  have hdetecting : ∀ other, ((state.onGate gate update).gates other).protocol = .detecting →
      (state.gates other).protocol = .detecting := by
    intro other hother
    by_cases hgate : other = gate
    · subst hgate
      simp only [RouteState.onGate, Function.update_self] at hother
      exact h.detecting hother
    · simp only [RouteState.onGate, Function.update_of_ne hgate] at hother
      exact hother
  refine ⟨rfl, rfl, onGate_failed h.failed, .inr ⟨rfl, rfl, fun hidle => ?_, hdetecting⟩⟩
  rw [RouteState.detecting] at hidle ⊢
  cases hentry : state.entry with
  | none =>
    change Option.any _ state.entry = false
    rw [hentry]
    rfl
  | some entry =>
    change Option.any _ state.entry = false
    rw [hentry] at hidle ⊢
    simp only [Option.any_some, decide_eq_false_iff_not] at hidle ⊢
    exact fun hnew => hidle (hdetecting entry.gate hnew)

theorem calm_runOp {thread : Nat} {url : Bytes} {op : Op}
    (hmark : ∀ gate, op ≠ .markH2Failed gate) :
    Calm state (runOp options thread url state op).2 := by
  cases op with
  | storeTls verdict => exact calm_of_same rfl rfl rfl rfl rfl rfl
  | remember verdict => exact calm_remember state verdict
  | recordH2 trial =>
    have hrecorded : Calm state (state.onGate trial.gate OriginGate.recordH2Origin) :=
      calm_onGate ⟨fun h => ⟨h, rfl⟩, id⟩
    exact ⟨hrecorded.now, hrecorded.calls, hrecorded.failed, .inl ⟨rfl, rfl⟩⟩
  | setProtocol gate verdict =>
    apply calm_onGate
    cases verdict with
    | h1Only | downgraded | h2Available => exact ⟨(fun h => nomatch h), fun h => nomatch h⟩
  | markH2Failed gate => exact absurd rfl (hmark gate)
  | markCached | setCached verdict => exact calm_getGate state

theorem Routes.calm {thread : Nat} {call next : RouteCall}
    (h : Routes options thread state call next after) : Calm state after := by
  cases h with
  | found | missed => exact calm_of_same rfl rfl rfl rfl rfl rfl
  | gate | preferGate => exact calm_getGate state
  | @entered gate hstage =>
    rcases (state.gates gate).enter_cases options.toGateOptions state.now with
      ⟨hsame, hwaiter⟩ | ⟨hstart, -⟩ | ⟨hwait, -⟩
    · -- the gate is left as it is
      have hcalm : Calm state (state.onGate gate fun _ =>
          ((state.gates gate).enter options.toGateOptions state.now).2) := by
        apply calm_onGate
        rw [hsame]
        exact ⟨fun h => ⟨h, rfl⟩, id⟩
      dsimp only [RouteCall.enterGate]
      split
      · exact ⟨hcalm.now, hcalm.calls, hcalm.failed, .inl ⟨rfl, rfl⟩⟩
      · exact hcalm
    · -- a detection starts
      have hfailed : ∀ other, ((state.onGate gate fun _ =>
          (state.gates gate).startDetection.2).gates other).protocol = .h2FailedRecently →
          (state.gates other).protocol = .h2FailedRecently ∧
            ((state.onGate gate fun _ => (state.gates gate).startDetection.2).gates
              other).retryAfter = (state.gates other).retryAfter :=
        onGate_failed (fun h => nomatch h)
      simp only [RouteCall.enterGate, hstart]
      exact ⟨rfl, rfl, hfailed, .inl ⟨rfl, rfl⟩⟩
    · simp only [RouteCall.enterGate, hwait, OriginGate.addWaiter, reduceCtorEq, if_false]
      exact calm_onGate ⟨fun h => ⟨h, rfl⟩, id⟩
  | told | again | untold | unwoken | woken => exact calm_of_same rfl rfl rfl rfl rfl rfl

theorem Receives.calm {call next : RouteCall} {answer : Answer}
    (h : Receives state call answer next after) : Calm state after := by
  cases h with
  | _ => exact calm_of_same rfl rfl rfl rfl rfl rfl

/-- A request goes on while no failure is marked. -/
theorem Retrying.onCall {i : Nat} {call next : RouteCall} (h : Retrying options state)
    (hcalm : Calm state after) (hcall : state.calls[i]? = some call)
    (hlasting : ¬ Claims options { after with calls := after.calls.set i next } .h1Only)
    (hstage : Unjudging next.stage) (hsame : SameStart call next)
    (hdue : after.attempts = state.attempts → Due state call → Leads next.stage ∧
      ∀ gate, next.stage = .enter gate → (after.gates gate).protocol ≠ .detecting) :
    Retrying options { after with calls := after.calls.set i next } := by
  obtain ⟨-, -, hdueSame, hattemptsSame⟩ := hsame
  have hmem : call ∈ state.calls := List.mem_of_getElem? hcall
  have hcounts : ∀ other ∈ after.calls.set i next, other.attempts ≤ state.attempts := by
    intro other hother
    rcases List.mem_or_eq_of_mem_set hother with hold | rfl
    · exact h.attempts other (hcalm.calls ▸ hold)
    · exact hattemptsSame ▸ h.attempts call hmem
  refine ⟨hlasting, fun other hother => ?_, fun gate hgate => ?_, fun ends hends gate hgate => ?_,
    fun other hother => ?_, fun other hother hotherDue => ?_⟩
  · rcases List.mem_or_eq_of_mem_set hother with hold | rfl
    · exact h.stages other (hcalm.calls ▸ hold)
    · exact hstage
  · obtain ⟨hfailed, hsameStamp⟩ := hcalm.failed gate hgate
    have hstamp := h.stamps gate hfailed
    dsimp only
    rw [hsameStamp, hcalm.now]
    exact hstamp
  · obtain ⟨hfailed, hsameStamp⟩ := hcalm.failed gate hgate
    dsimp only at hends ⊢
    rw [hsameStamp]
    rcases hcalm.course with ⟨hnone, -⟩ | ⟨hretry, -⟩
    · rw [hnone] at hends
      cases hends
    · exact h.retry ends (hretry ▸ hends) gate hfailed
  · have hcount := hcounts other hother
    rcases hcalm.course with ⟨-, hmore⟩ | ⟨-, hattempts, -⟩
    · dsimp only
      omega
    · dsimp only
      omega
  · have hcount := hcounts other hother
    have heq : other.attempts = after.attempts := hotherDue.2
    rcases hcalm.course with ⟨-, hmore⟩ | ⟨-, hattempts, hdetecting, hgates⟩
    · -- nothing is due after a detection has started
      omega
    · have hbefore : ∃ old ∈ state.calls, Due state old ∧
          (other = next ∧ old = call ∨ other = old) := by
        rcases List.mem_or_eq_of_mem_set hother with hold | rfl
        · exact ⟨other, hcalm.calls ▸ hold, ⟨hotherDue.1, heq.trans hattempts⟩, .inr rfl⟩
        · exact ⟨call, hmem, ⟨hdueSame ▸ hotherDue.1,
            hattemptsSame.symm.trans (heq.trans hattempts)⟩, .inl ⟨rfl, rfl⟩⟩
      obtain ⟨old, hold, holddue, hcases⟩ := hbefore
      obtain ⟨hleads, hended, hidle, henter⟩ := h.due old hold holddue
      have hended' : ∀ gate, (after.gates gate).protocol = .h2FailedRecently →
          (after.gates gate).retryAfter ≤ after.now := by
        intro gate hgate
        obtain ⟨hfailed, hsameStamp⟩ := hcalm.failed gate hgate
        rw [hsameStamp, hcalm.now]
        exact hended gate hfailed
      rcases hcases with ⟨rfl, rfl⟩ | rfl
      · obtain ⟨hnext, hnextGate⟩ := hdue hattempts holddue
        exact ⟨hnext, hended', hdetecting hidle, hnextGate⟩
      · exact ⟨hleads, hended', hdetecting hidle,
          fun gate hat hnew => henter gate hat (hgates gate hnew)⟩

/-! ### What the table remembers -/

/-- The table remembers no downgrade: only the route caches are told of it. -/
structure Unremembered (state : RouteState) : Prop where
  entry : ∀ entry, state.entry = some entry → entry.verdict ≠ some .downgraded
  todo : ∀ call ∈ state.calls, .remember .downgraded ∉ call.todo

theorem Unremembered.getGate (h : Unremembered state) :
    ∀ entry, state.getGate.2.entry = some entry → entry.verdict ≠ some .downgraded := by
  intro entry hentry
  rw [RouteState.getGate] at hentry
  cases hold : state.entry with
  | some cached =>
    rw [hold] at hentry
    exact h.entry entry hentry
  | none =>
    rw [hold] at hentry
    obtain rfl := Option.some.inj hentry
    exact (Option.some_ne_none _).symm

theorem Unremembered.runOp {thread : Nat} {url : Bytes} {op : Op} (h : Unremembered state)
    (hop : op ≠ .remember .downgraded) :
    (∀ entry, (runOp options thread url state op).2.entry = some entry →
      entry.verdict ≠ some .downgraded) ∧
      .remember .downgraded ∉ (Verdicts.runOp options thread url state op).1 := by
  cases op with
  | remember verdict =>
    refine ⟨fun entry hentry hverdict => hop ?_, List.not_mem_nil⟩
    obtain rfl := Option.some.inj hentry
    rw [Option.some.inj hverdict]
  | recordH2 trial =>
    refine ⟨h.entry, ?_⟩
    change _ ∉ learned trial
    rw [learned]
    split
    · simp
    · simp
  | markCached | setCached verdict => exact ⟨h.getGate, by simp [Verdicts.runOp]⟩
  | storeTls | setProtocol | markH2Failed => exact ⟨h.entry, List.not_mem_nil⟩

theorem remember_decided {call : RouteCall} {gate : Nat} {protocol : ProtocolState}
    {decision : GateDecision} {verdict : Verdict} (htodo : call.todo = []) :
    .remember verdict ∉ (call.decided gate protocol decision).todo := by
  rw [RouteCall.decided]
  split
  · simp
  · split
    · simp [htodo]
    · simp
  · simp [htodo]
  · simp [htodo]

theorem Routes.unremembered {thread : Nat} {call next : RouteCall} (h : Unremembered state)
    (hroutes : Routes options thread state call next after) (htodo : call.todo = []) :
    (∀ entry, after.entry = some entry → entry.verdict ≠ some .downgraded) ∧
      .remember .downgraded ∉ next.todo := by
  cases hroutes with
  | gate | preferGate => exact ⟨h.getGate, by simp [htodo]⟩
  | told => exact ⟨h.entry, by simp⟩
  | entered =>
    refine ⟨?_, remember_decided htodo⟩
    dsimp only [RouteCall.enterGate]
    split
    · exact h.entry
    · exact h.entry
  | _ => exact ⟨h.entry, by simp [htodo]⟩

theorem Receives.unremembered {call next : RouteCall} {answer : Answer}
    (h : Receives state call answer next after) (htodo : call.todo = []) :
    .remember .downgraded ∉ next.todo := by
  cases h with
  | @probed trial =>
    dsimp only
    split
    · simp
    · simp
  | preferredH1 | h2Failed | trial | detectionFailed | preferredH2Failed | negotiated => simp
  | _ => simp [htodo]

theorem Unremembered.step {action : Action} (h : Unremembered state)
    (hstep : Verdicts.step options state action = some after) : Unremembered after := by
  cases action with
  | start kind url =>
    obtain rfl := Option.some.inj hstep
    refine ⟨h.entry, fun other hother => ?_⟩
    rcases List.mem_append.mp hother with hold | hnew
    · exact h.todo other hold
    · obtain rfl := List.mem_singleton.mp hnew
      cases kind with
      | auto | submitted | preferH1 | preferH2 => exact List.not_mem_nil
  | perform i thread =>
    obtain ⟨call, next, mid, hcall, hrun, rfl⟩ := onCall_eq_some hstep
    obtain ⟨op, rest, htodo, rfl, rfl⟩ := perform_eq_some hrun
    have hclean := h.todo call (List.mem_of_getElem? hcall)
    rw [htodo, List.mem_cons, not_or] at hclean
    obtain ⟨hentry, hmore⟩ : (∀ entry, (Verdicts.runOp options thread call.url state op).2.entry =
        some entry → entry.verdict ≠ some .downgraded) ∧
        .remember .downgraded ∉ (Verdicts.runOp options thread call.url state op).1 :=
      h.runOp fun heq => hclean.1 heq.symm
    refine ⟨hentry, fun other hother => ?_⟩
    rcases List.mem_or_eq_of_mem_set hother with hold | rfl
    · rw [runOp_calls] at hold
      exact h.todo other hold
    · exact fun hmem => (List.mem_append.mp hmem).elim hmore hclean.2
  | route i thread =>
    obtain ⟨call, next, mid, hcall, hrun, rfl⟩ := onCall_eq_some hstep
    obtain ⟨htodo, hroutes⟩ := routes_of_route hrun
    obtain ⟨hentry, hnext⟩ := hroutes.unremembered h htodo
    refine ⟨hentry, fun other hother => ?_⟩
    rcases List.mem_or_eq_of_mem_set hother with hold | rfl
    · exact h.todo other (hroutes.calls ▸ hold)
    · exact hnext
  | receive i answer =>
    obtain ⟨call, next, mid, hcall, hrun, rfl⟩ := onCall_eq_some hstep
    obtain ⟨htodo, hreceives⟩ := receives_of_receive hrun
    refine ⟨fun entry hentry => h.entry entry (hreceives.same.1.entry ▸ hentry),
      fun other hother => ?_⟩
    rcases List.mem_or_eq_of_mem_set hother with hold | rfl
    · exact h.todo other (hreceives.same.1.calls ▸ hold)
    · exact hreceives.unremembered htodo
  | abort i =>
    obtain rfl := Option.some.inj hstep
    exact ⟨h.entry, fun other hother => h.todo other (List.mem_of_mem_eraseIdx hother)⟩
  | evict =>
    obtain ⟨entry, hentry, hevict⟩ := Option.bind_eq_some_iff.mp hstep
    split at hevict
    · cases hevict
    · obtain rfl := Option.some.inj hevict
      exact ⟨(fun entry hentry => nomatch hentry), h.todo⟩
  | tick | overwrite =>
    obtain rfl := Option.some.inj hstep
    exact ⟨h.entry, h.todo⟩

/-! ### Due requests lead to a detection -/

theorem unjudging_route {thread : Nat} {call next : RouteCall}
    (h : Routes options thread state call next after) (hstage : Unjudging call.stage) :
    Unjudging next.stage := by
  cases h with
  | @found verdict | @told verdict =>
    cases verdict with
    | h1Only | downgraded | h2Available => trivial
  | entered =>
    dsimp only [RouteCall.enterGate, RouteCall.decided]
    split
    · trivial
    · split
      · trivial
      · trivial
    · trivial
    · rfl
  | preferGate hprefers =>
    rw [hprefers] at hstage
    exact hstage.elim
  | _ => trivial

theorem unjudging_receive {call next : RouteCall} {answer : Answer}
    (h : Receives state call answer next after) (hstage : Unjudging call.stage)
    (hfails : ∀ trial, call.stage = .h2 (some trial) → answer ≠ .failure) :
    Unjudging next.stage := by
  cases h with
  | preferredH1Failed hbefore | probed hbefore | negotiated hbefore | unnegotiated hbefore
  | probeFailed hbefore =>
    rw [hbefore] at hstage
    exact hstage.elim
  | detectionFailed hbefore | preferredH2Failed hbefore => exact absurd rfl (hfails _ hbefore)
  | _ => trivial

/-- The gate lets a request through over HTTP/2, or the request detects. -/
theorem enter_of_ended {gate : OriginGate} {now : Int}
    (hlasting : verdictOf gate.protocol ≠ some .h1Only) (hidle : gate.protocol ≠ .detecting)
    (hended : gate.protocol = .h2FailedRecently → gate.retryAfter ≤ now) :
    gate.enter options.toGateOptions now = ({ action := .useH2 }, gate) ∨
      gate.enter options.toGateOptions now = gate.startDetection := by
  cases hprotocol : gate.protocol with
  | h2Available => exact .inl (by simp [OriginGate.enter, hprotocol])
  | unknown => exact .inr (by simp [OriginGate.enter, hprotocol])
  | h2FailedRecently =>
    have hlate : ¬ now < gate.retryAfter := by
      have hstamp := hended hprotocol
      omega
    exact .inr (by simp [OriginGate.enter, hprotocol, hlate])
  | detecting => exact absurd hprotocol hidle
  | h1Only =>
    rw [hprotocol] at hlasting
    exact absurd rfl hlasting

theorem stageOf_leads {verdict : Verdict} (h1 : verdict ≠ .h1Only) (h2 : verdict ≠ .downgraded) :
    Leads (stageOf verdict) := by
  cases verdict with
  | h1Only => exact absurd rfl h1
  | downgraded => exact absurd rfl h2
  | h2Available => trivial

/-- A request that is due goes on to HTTP/2, unless a detection starts. -/
theorem Retrying.leads_route {i thread : Nat} {call next : RouteCall}
    (h : Retrying options state) (hremembered : Unremembered state)
    (hok : Temporary options state (.route i thread)) (hcall : state.calls[i]? = some call)
    (hroutes : Routes options thread state call next after) (hdue : Due state call)
    (hnone : after.attempts = state.attempts) :
    Leads next.stage ∧
      ∀ gate, next.stage = .enter gate → (after.gates gate).protocol ≠ .detecting := by
  have hmem : call ∈ state.calls := List.mem_of_getElem? hcall
  obtain ⟨hleads, hended, hidle, hgate⟩ := h.due call hmem hdue
  cases hroutes with
  | @found verdict hstage hfound =>
    obtain ⟨route, hroute, rfl, hvalid⟩ := RouteCache.lookup_some hfound
    refine ⟨stageOf_leads (fun hh1 => h.lasting ?_) fun hdown => ?_,
      fun gate hat => absurd hat (stageOf_ne_enter _ _)⟩
    · rw [← hh1]
      exact .inl (.thread hroute hvalid)
    · exact hok call hcall hstage hdue (hfound.trans (congrArg some hdown))
  | @told verdict entry hstage hentry hverdict =>
    refine ⟨stageOf_leads (fun hh1 => h.lasting ?_) fun hdown => ?_,
      fun gate hat => absurd hat (stageOf_ne_enter _ _)⟩
    · rw [← hh1]
      exact .inl (.entry hentry hverdict)
    · exact hremembered.entry entry hentry (hverdict.trans (congrArg some hdown))
  | gate hstage =>
    refine ⟨trivial, fun gate hat hdetecting => ?_⟩
    cases hat
    -- the gate in the table is not detecting, and a new one neither
    obtain ⟨entry, hentry, hsame⟩ := getGate_entry state
    rcases (calm_getGate state).course with ⟨-, hmore⟩ | ⟨-, -, hkept, -⟩
    · omega
    · have hquiet := hkept hidle
      rw [RouteState.detecting, hentry, Option.any_some, hsame, decide_eq_false_iff_not] at hquiet
      exact hquiet hdetecting
  | @entered gate hstage =>
    have hlasting : verdictOf (state.gates gate).protocol ≠ some .h1Only := fun hsaid =>
      h.lasting (.inl (.gate (.inr ⟨call, hmem, hstage⟩) hsaid))
    have henter : (state.gates gate).enter options.toGateOptions state.now =
        ({ action := .useH2 }, state.gates gate) ∨
        (state.gates gate).enter options.toGateOptions state.now =
          (state.gates gate).startDetection :=
      enter_of_ended hlasting (hgate gate hstage) (hended gate)
    rcases henter with henter | henter
    · simp only [RouteCall.enterGate, henter, RouteCall.decided]
      exact ⟨trivial, fun gate hat => by cases hat⟩
    · -- a detection starts, so this request is not due any more
      simp only [RouteCall.enterGate, henter, OriginGate.startDetection, if_true,
        RouteState.detected, RouteState.onGate] at hnone
      omega
  | missed | again | untold => exact ⟨trivial, fun gate hat => by cases hat⟩
  | unwoken hstage | woken hstage | preferGate hstage =>
    rw [hstage] at hleads
    exact hleads.elim

theorem leads_receive {call next : RouteCall} {answer : Answer}
    (h : Receives state call answer next after) (hleads : Leads call.stage) :
    Leads next.stage := by
  cases h with
  | h2 | h2Failed | directFailed => trivial
  | h1 hstage | preferredH1 hstage | h1Failed hstage | preferredH1Failed hstage | trial hstage
  | detectionFailed hstage | preferredH2Failed hstage | probed hstage | negotiated hstage
  | unnegotiated hstage | probeFailed hstage =>
    rw [hstage] at hleads
    exact hleads.elim

/-- After a failure has been marked, no detection is due until the downgrade ends. -/
theorem Retrying.marked {gate i : Nat} {call next : RouteCall} {marked : RouteState}
    (h : Retrying options state) (hcall : state.calls[i]? = some call)
    (hmarked : marked = (state.onGate gate
      (OriginGate.markH2Failed options.toGateOptions state.now)).failed options)
    (hlasting : ¬ Claims options { marked with calls := marked.calls.set i next } .h1Only)
    (hstage : next.stage = call.stage) (hattempts : next.attempts = call.attempts) :
    Retrying options { marked with calls := marked.calls.set i next } := by
  subst hmarked
  have hmem : call ∈ state.calls := List.mem_of_getElem? hcall
  have hstamps : ∀ other, ((state.onGate gate (OriginGate.markH2Failed options.toGateOptions
      state.now)).gates other).protocol = .h2FailedRecently →
      ((state.onGate gate (OriginGate.markH2Failed options.toGateOptions
        state.now)).gates other).retryAfter ≤ state.now + options.h2FailureTtl := by
    intro other hother
    by_cases hgate : other = gate
    · subst hgate
      simp [RouteState.onGate, OriginGate.markH2Failed, OriginGate.notifyWaiters]
    · simp only [RouteState.onGate, Function.update_of_ne hgate] at hother ⊢
      exact h.stamps other hother
  have hcounts : ∀ other ∈ state.calls.set i next, other.attempts ≤ state.attempts := by
    intro other hother
    rcases List.mem_or_eq_of_mem_set hother with hold | rfl
    · exact h.attempts other hold
    · exact hattempts ▸ h.attempts call hmem
  refine ⟨hlasting, fun other hother => ?_, hstamps, fun ends hends => ?_, fun other hother => ?_,
    fun other hother hdue => ?_⟩
  · rcases List.mem_or_eq_of_mem_set hother with hold | rfl
    · exact h.stages other hold
    · exact hstage ▸ h.stages call hmem
  · obtain rfl := Option.some.inj hends
    exact hstamps
  · exact Nat.le_succ_of_le (hcounts other hother)
  · have hnew : other.attempts = state.attempts + 1 := hdue.2
    have hold := hcounts other hother
    omega

theorem Retrying.start {kind : Kind} {url : Bytes} (h : Retrying options state)
    (hauto : Auto (.start kind url))
    (hlasting : ¬ Claims options { state with calls := state.calls ++ [state.newCall url kind] }
      .h1Only) :
    Retrying options { state with calls := state.calls ++ [state.newCall url kind] } := by
  have hnew : ∃ direct, state.newCall url kind = state.newAuto url direct := by
    cases kind with
    | auto => exact ⟨false, rfl⟩
    | submitted => exact ⟨true, rfl⟩
    | preferH1 | preferH2 => exact hauto.elim
  obtain ⟨direct, hnew⟩ := hnew
  rw [hnew] at hlasting ⊢
  refine ⟨hlasting, fun other hother => ?_, h.stamps, h.retry, fun other hother => ?_,
    fun other hother hdue => ?_⟩
  · rcases List.mem_append.mp hother with hold | hlast
    · exact h.stages other hold
    · obtain rfl := List.mem_singleton.mp hlast
      trivial
  · rcases List.mem_append.mp hother with hold | hlast
    · exact h.attempts other hold
    · obtain rfl := List.mem_singleton.mp hlast
      exact le_rfl
  · rcases List.mem_append.mp hother with hold | hlast
    · exact h.due other hold hdue
    · obtain rfl := List.mem_singleton.mp hlast
      -- a request is due only if no gate that will be asked is detecting
      obtain ⟨hretry, hidle⟩ := Bool.and_eq_true_iff.mp hdue.1
      have hquiet : state.detecting = false := by simpa using hidle
      refine ⟨trivial, fun gate hgate => ?_, hquiet, fun gate hat => nomatch hat⟩
      cases hends : state.retryAt with
      | none =>
        rw [hends] at hretry
        cases hretry
      | some ends =>
        rw [hends] at hretry
        exact Int.le_trans (h.retry ends hends gate hgate) (of_decide_eq_true hretry)

theorem Retrying.step {action : Action} (h : Retrying options state)
    (hremembered : Unremembered state) (hauto : Auto action)
    (hok : Temporary options state action)
    (hstep : Verdicts.step options state action = some after) : Retrying options after := by
  -- nothing lasting is claimed, for nothing of the kind is judged
  have hlasting : ¬ Claims options after .h1Only := by
    intro hclaims
    rcases claims_of_step hstep hclaims with hold | harises
    · exact h.lasting hold
    · cases harises with
      | @judged i answer call hcall hjudges =>
        have hstage := h.stages call (List.mem_of_getElem? hcall)
        rcases hjudges with ⟨hat, -⟩ | ⟨trial, hat, -⟩ | ⟨trial, hat, -, rfl⟩
        · rw [hat] at hstage
          exact hstage
        · rw [hat] at hstage
          exact hstage
        · exact hok call trial hcall hat rfl
  cases action with
  | start kind url =>
    obtain rfl := Option.some.inj hstep
    exact h.start hauto hlasting
  | perform i thread =>
    obtain ⟨call, next, mid, hcall, hrun, rfl⟩ := onCall_eq_some hstep
    obtain ⟨op, rest, htodo, rfl, rfl⟩ := perform_eq_some hrun
    have hmem : call ∈ state.calls := List.mem_of_getElem? hcall
    by_cases hmark : ∃ gate, op = .markH2Failed gate
    · obtain ⟨gate, rfl⟩ := hmark
      exact h.marked hcall rfl hlasting rfl rfl
    · have hcalm : Calm state (runOp options thread call.url state op).2 :=
        calm_runOp fun gate heq => hmark ⟨gate, heq⟩
      refine h.onCall hcalm hcall hlasting (h.stages call hmem) ⟨rfl, rfl, rfl, rfl⟩
        fun hnone hdue => ?_
      obtain ⟨hleads, -, -, hgate⟩ := h.due call hmem hdue
      refine ⟨hleads, fun gate hat hdetecting => hgate gate hat ?_⟩
      rcases hcalm.course with ⟨-, hmore⟩ | ⟨-, -, -, hkept⟩
      · omega
      · exact hkept gate hdetecting
  | route i thread =>
    obtain ⟨call, next, mid, hcall, hrun, rfl⟩ := onCall_eq_some hstep
    have hroutes := (routes_of_route hrun).2
    exact h.onCall hroutes.calm hcall hlasting
      (unjudging_route hroutes (h.stages call (List.mem_of_getElem? hcall))) hroutes.sameStart
      fun hnone hdue => h.leads_route hremembered hok hcall hroutes hdue hnone
  | receive i answer =>
    obtain ⟨call, next, mid, hcall, hrun, rfl⟩ := onCall_eq_some hstep
    have hreceives := (receives_of_receive hrun).2
    have hmem : call ∈ state.calls := List.mem_of_getElem? hcall
    refine h.onCall hreceives.calm hcall hlasting
      (unjudging_receive hreceives (h.stages call hmem) fun trial => hok call trial hcall)
      hreceives.sameStart fun _ hdue => ?_
    exact ⟨leads_receive hreceives (h.due call hmem hdue).1,
      fun gate hat => absurd hat (hreceives.same.2 gate)⟩
  | abort i =>
    obtain rfl := Option.some.inj hstep
    exact ⟨hlasting, fun other hother => h.stages other (List.mem_of_mem_eraseIdx hother),
      h.stamps, h.retry, fun other hother => h.attempts other (List.mem_of_mem_eraseIdx hother),
      fun other hother => h.due other (List.mem_of_mem_eraseIdx hother)⟩
  | tick ticks =>
    obtain rfl := Option.some.inj hstep
    refine ⟨hlasting, h.stages, fun gate hgate => ?_, h.retry, h.attempts,
      fun other hother hdue => ?_⟩
    · have hstamp := h.stamps gate hgate
      dsimp only
      omega
    · obtain ⟨hleads, hended, hidle, hgate⟩ := h.due other hother hdue
      refine ⟨hleads, fun gate hfailed => ?_, hidle, hgate⟩
      have hstamp := hended gate hfailed
      dsimp only
      omega
  | evict =>
    obtain ⟨entry, hentry, hevict⟩ := Option.bind_eq_some_iff.mp hstep
    split at hevict
    · cases hevict
    · obtain rfl := Option.some.inj hevict
      refine ⟨hlasting, h.stages, h.stamps, h.retry, h.attempts, fun other hother hdue => ?_⟩
      obtain ⟨hleads, hended, -, hgate⟩ := h.due other hother hdue
      exact ⟨hleads, hended, rfl, hgate⟩
  | overwrite thread =>
    obtain rfl := Option.some.inj hstep
    exact ⟨hlasting, h.stages, h.stamps, h.retry, h.attempts, h.due⟩

/-! ### Runs -/

theorem downgraded_start (now : Int) : Downgraded options { now } where
  quiet := fun _ h => nomatch h
  gate := fun _ h => nomatch h
  limit := fun _ h => nomatch h
  records := fun _ h => absurd h List.not_mem_nil
  bound := fun _ h => absurd h List.not_mem_nil

theorem retrying_start (now : Int) : Retrying options { now } where
  lasting := not_claims_start now _
  stages := fun _ h => absurd h List.not_mem_nil
  stamps := fun _ h => nomatch h
  retry := fun _ h => nomatch h
  attempts := fun _ h => absurd h List.not_mem_nil
  due := fun _ h => absurd h List.not_mem_nil

/-- If the places agree whenever a failure is marked, requests are sent over HTTP/1.1 until the
downgrade ends; if no failure is made to last, a detection is attempted after that. -/
theorem downgrade_law {now : Int} {actions : List Action}
    (hauto : ∀ action ∈ actions, Auto action)
    (hexec : exec (step options) { now } actions = some state) :
    (Along (step options) (Agreed options) { now } actions → SentOverH1 state) ∧
      (Along (step options) (Temporary options) { now } actions → Retried state) := by
  constructor
  · intro hagreed
    have hdowngraded : Downgraded options state :=
      invariant_of_along (fun _ _ _ h hok hstep => Downgraded.step h hok hstep)
        (downgraded_start now) hagreed hexec
    exact hdowngraded.sentOverH1
  · intro htemporary
    have hboth : Along (step options)
        (fun state action => Temporary options state action ∧ Auto action) { now } actions :=
      htemporary.and_mem hauto
    have hkept : ∀ s a t, Retrying options s ∧ Unremembered s →
        Temporary options s a ∧ Auto a → step options s a = some t →
          Retrying options t ∧ Unremembered t :=
      fun s a t h hok hstep => ⟨h.1.step h.2 hok.2 hok.1 hstep, h.2.step hstep⟩
    have hstart : Retrying options { now } ∧ Unremembered { now } :=
      ⟨retrying_start now, (fun _ h => nomatch h), fun _ h => absurd h List.not_mem_nil⟩
    exact (invariant_of_along hkept hstart hboth hexec).1.retried

/-! ### A first failure -/

/-- The gate that is to be marked. -/
def Op.marked : Op → Option Nat
  | .markH2Failed gate => some gate
  | _ => none

/-- A failure is marked before HTTP/2 has ever been seen, at the gate in the table; requests are
in time, and nothing is evicted meanwhile. -/
def FirstFailure (state : RouteState) : Action → Prop
  | .perform i _ => ∀ call ∈ state.calls[i]?, ∀ gate ∈ call.todo.head?.bind Op.marked,
      state.h2Seen = false ∧ state.entry.map CachedOrigin.gate = some gate
  | .route i _ => ∀ call ∈ state.calls[i]?, ∀ ends ∈ call.window, state.now < ends
  | .evict => state.window = none
  | _ => True

/-- Before HTTP/2 has been seen, nothing says it. -/
theorem FirstFailure.agreed {action : Action} (hseen : Seen options state)
    (h : FirstFailure state action) : Agreed options state action := by
  cases action with
  | perform i thread =>
    intro call gate rest hcall htodo
    have hmarked : gate ∈ call.todo.head?.bind Op.marked := by simp [htodo, Op.marked]
    obtain ⟨hunseen, hgate⟩ := h call hcall gate hmarked
    constructor
    · intro hclaims
      have hclaimed := hseen.claimed hclaims
      rw [hunseen] at hclaimed
      cases hclaimed
    · exact Option.map_eq_some_iff.mp hgate
  | route i thread =>
    intro call gate ends hcall _ _ hwindow
    exact h call hcall ends hwindow
  | evict =>
    intro ends hends
    have hnone : state.window = none := h
    rw [hnone] at hends
    cases hends
  | start | receive | abort | tick | overwrite => trivial

instance (state : RouteState) : DecidablePred (FirstFailure state)
  | .perform i _ => inferInstanceAs (Decidable (∀ call ∈ state.calls[i]?,
      ∀ gate ∈ call.todo.head?.bind Op.marked,
        state.h2Seen = false ∧ state.entry.map CachedOrigin.gate = some gate))
  | .route i _ => inferInstanceAs (Decidable (∀ call ∈ state.calls[i]?,
      ∀ ends ∈ call.window, state.now < ends))
  | .evict => inferInstanceAs (Decidable (state.window = none))
  | .start _ _ | .receive _ _ | .abort _ | .tick _ | .overwrite _ => isTrue trivial

/-- Which exchanges over HTTP/2 may detect the protocol. -/
def Stage.trial : Stage → Option Trial
  | .h2 trial => trial
  | _ => none

theorem temporary_receive_iff {i : Nat} {answer : Answer} :
    Temporary options state (.receive i answer) ↔
      ∀ call ∈ state.calls[i]?, call.stage.trial.isSome = true → answer ≠ .failure := by
  constructor
  · intro h call hcall htrial
    cases hstage : call.stage with
    | h2 trial =>
      rw [hstage] at htrial
      obtain ⟨trial, rfl⟩ := Option.isSome_iff_exists.mp htrial
      exact h call trial hcall hstage
    | lookup | remembered | getGate | enter | waiting | preferGate | h1 | probe | done =>
      rw [hstage] at htrial
      cases htrial
  · intro h call trial hcall hstage
    refine h call hcall ?_
    rw [hstage]
    rfl

instance (state : RouteState) (call : RouteCall) : Decidable (Due state call) :=
  inferInstanceAs (Decidable (_ ∧ _))

instance (options : RouteOptions) (state : RouteState) : DecidablePred (Temporary options state)
  | .receive _ _ => decidable_of_iff _ temporary_receive_iff.symm
  | .route i thread => inferInstanceAs (Decidable (∀ call ∈ state.calls[i]?,
      call.stage = .lookup → Due state call → ((state.threads thread).lookup
        options.originCacheTtl state.generation state.now call.url).1 ≠ some .downgraded))
  | .start _ _ | .perform _ _ | .abort _ | .tick _ | .evict | .overwrite _ => isTrue trivial

instance : DecidablePred Auto
  | .start .preferH1 _ | .start .preferH2 _ => isFalse id
  | .start .auto _ | .start .submitted _ | .perform _ _ | .route _ _ | .receive _ _ | .abort _
  | .tick _ | .evict | .overwrite _ => isTrue trivial

/-! ### Runs that keep the conditions -/

/-- A detection fails, and that is marked; another request asks the gate after that. -/
def downgradedRun : List Action :=
  [.start .auto (str "u"), .route 0 0, .route 0 0, .route 0 0, .route 0 0, .receive 0 .failure,
    .perform 0 0, .perform 0 0, .perform 0 0, .start .auto (str "u"), .route 1 1, .route 1 1,
    .route 1 1, .route 1 1]

/-- A detection succeeds, a second request fails on the route that is known from it, and a third
one starts after the downgrade has ended. -/
def retriedRun : List Action :=
  [.start .auto (str "u"), .route 0 0, .route 0 0, .route 0 0, .route 0 0, .receive 0 .success,
    .perform 0 0, .perform 0 0, .perform 0 0, .perform 0 0, .start .auto (str "u"), .route 1 0,
    .receive 1 .failure, .perform 1 0, .perform 1 0, .tick 30000000000, .start .auto (str "u"),
    .route 2 0]

theorem agreed_downgradedRun : Along (step {}) (Agreed {}) { now := 0 } downgradedRun := by
  have hfirst : Along (step {}) FirstFailure { now := 0 } downgradedRun := by decide +kernel
  exact hfirst.mono_of_invariant (fun _ _ _ h hstep => Seen.step h hstep)
    (fun _ _ hseen hok => hok.agreed hseen) (seen_start 0)

theorem downgrade_law_runs :
    (∃ state, exec (step {}) { now := 0 } downgradedRun = some state ∧
      (∃ call ∈ state.calls, Bound state call ∧ call.stage = .h1 false) ∧ SentOverH1 state) ∧
    ∃ state, exec (step {}) { now := 0 } retriedRun = some state ∧
      (∃ call ∈ state.calls, Due state call ∧ call.stage = .h2 none) ∧ Retried state := by
  constructor
  · refine ⟨_, rfl, ⟨_, List.mem_cons_of_mem _ List.mem_cons_self, ⟨rfl, rfl⟩, rfl⟩,
      (@downgrade_law {} _ 0 downgradedRun (by decide) rfl).1 agreed_downgradedRun⟩
  · refine ⟨_, rfl, ⟨_, List.mem_cons_of_mem _ (List.mem_cons_of_mem _ List.mem_cons_self),
      ⟨rfl, rfl⟩, rfl⟩, (@downgrade_law {} _ 0 retriedRun (by decide) rfl).2 (by decide +kernel)⟩

/-- A detection succeeds, a second request fails on the route that is known from it, and a third
one starts at once. -/
def staleRun : List Action :=
  [.start .auto (str "u"), .route 0 0, .route 0 0, .route 0 0, .route 0 0, .receive 0 .success,
    .perform 0 0, .perform 0 0, .perform 0 0, .perform 0 0, .start .auto (str "u"), .route 1 0,
    .receive 1 .failure, .perform 1 0, .perform 1 0, .start .auto (str "u"), .route 2 0]

/-- A detection fails, and another request asks the gate when the downgrade has ended. -/
def lastingRun : List Action :=
  [.start .auto (str "u"), .route 0 0, .route 0 0, .route 0 0, .route 0 0, .receive 0 .failure,
    .perform 0 0, .perform 0 0, .perform 0 0, .receive 0 .failure, .tick 30000000000,
    .start .auto (str "u"), .route 1 0, .route 1 0, .route 1 0, .route 1 0]

/-- Right after a failure has been marked, a request is sent over HTTP/2, as the route cache still
says; and when the downgrade has ended, a request is sent over HTTP/1.1 without a detection. -/
theorem not_downgrade_law :
    ((∀ action ∈ staleRun, Auto action) ∧
      ∃ state, exec (step {}) { now := 0 } staleRun = some state ∧ ¬ SentOverH1 state) ∧
    (∀ action ∈ lastingRun, Auto action) ∧
      ∃ state, exec (step {}) { now := 0 } lastingRun = some state ∧ ¬ Retried state := by
  refine ⟨⟨by decide, _, rfl, fun h => ?_⟩, by decide, _, rfl, fun h => ?_⟩
  · exact h _ (List.mem_cons_of_mem _ (List.mem_cons_of_mem _ List.mem_cons_self)) ⟨rfl, rfl⟩
      none rfl
  · exact h _ (List.mem_cons_of_mem _ List.mem_cons_self) ⟨rfl, rfl⟩ false rfl

end HttpClient.Routing.Verdicts
