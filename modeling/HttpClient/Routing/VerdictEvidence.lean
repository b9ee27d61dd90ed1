import HttpClient.Routing.VerdictClaims

/-!
# Verdicts and their evidence

That an origin has HTTP/1.1 only should rest on an exchange over HTTP/1.1 that has completed,
with no record of HTTP/2 since; that it has HTTP/2 should rest on a success over HTTP/2 or on
a probe that has negotiated it.

The second is always so. The first fails in three ways. A detection sets the protocol of the
gate as soon as HTTP/2 has failed, before its probe. A gate that is only downgraded lets
requests through over HTTP/1.1, and that is stored in the route cache like a verdict. And a
record of HTTP/2 leaves the other places as they are.

## Main definitions

* `Evidenced` — what is said rests on evidence
* `Founded` — the steps that keep clear of the three
* `Backed`, `Seen` — the invariants: claims rest on evidence

## Main results

* `seen_of_run` — in every run, what is said of HTTP/2 rests on evidence
* `evidenced_of_founded` — in runs of these steps, what is said rests on evidence
* `not_evidenced_detection` — a detection that has only failed over HTTP/2
-/

set_option autoImplicit false

namespace HttpClient.Routing.Verdicts

open Text Semantics

variable {options : RouteOptions} {state after : RouteState}

/-- What is said rests on evidence. -/
structure Evidenced (options : RouteOptions) (state : RouteState) : Prop where
  h1 : Says options state .h1Only ∨ Says options state .downgraded → state.latest = some .h1
  h2 : Says options state .h2Available → state.h2Seen = true

/-- The steps that do not say without evidence that the origin has HTTP/1.1 only: a detection
that fails over HTTP/2, and a request that passes a downgraded gate, find such evidence; and
when HTTP/2 is recorded nothing of the kind is said or about to be written. -/
def Founded (options : RouteOptions) (state : RouteState) : Action → Prop
  | .receive i answer => ∀ call trial, state.calls[i]? = some call →
      call.stage = .h2 (some trial) → trial.detects = true → answer = .failure →
        state.latest = some .h1
  | .route i _ => ∀ call gate, state.calls[i]? = some call → call.stage = .enter gate →
      (state.gates gate).protocol = .h2FailedRecently →
        state.now < (state.gates gate).retryAfter → state.latest = some .h1
  | .perform i _ => ∀ call trial rest, state.calls[i]? = some call →
      call.todo = .recordH2 trial :: rest →
        ¬ Claims options state .h1Only ∧ ¬ Claims options state .downgraded
  | _ => True

/-- Claims of HTTP/1.1 rest on evidence. -/
def Backed (options : RouteOptions) (state : RouteState) : Prop :=
  ∀ verdict ≠ Verdict.h2Available, Claims options state verdict → state.latest = some .h1

/-- Claims of HTTP/2 rest on evidence, and so do the records that are about to be made. -/
structure Seen (options : RouteOptions) (state : RouteState) : Prop where
  claimed : Claims options state .h2Available → state.h2Seen = true
  recorded : ∀ call ∈ state.calls, ∀ trial, .recordH2 trial ∈ call.todo → state.h2Seen = true

theorem evidenced_of_backed (h1 : Backed options state) (h2 : Seen options state) :
    Evidenced options state where
  h1 := fun hsaid => hsaid.elim (fun hsaid => h1 _ (by decide) (.inl hsaid))
    fun hsaid => h1 _ (by decide) (.inl hsaid)
  h2 := fun hsaid => h2.claimed (.inl hsaid)

/-! ### What the steps do to the evidence -/

/-- A step that brings no evidence of its own. -/
def Indifferent (state after : RouteState) : Prop :=
  after.latest = state.latest ∧ after.h2Seen = state.h2Seen

theorem indifferent_getGate (state : RouteState) : Indifferent state state.getGate.2 := by
  rw [RouteState.getGate]
  cases state.entry with
  | some entry => exact ⟨rfl, rfl⟩
  | none => exact ⟨rfl, rfl⟩

theorem indifferent_runOp {thread : Nat} {url : Bytes} {op : Op}
    (h : ∀ trial, op ≠ .recordH2 trial) :
    Indifferent state (runOp options thread url state op).2 := by
  cases op with
  | recordH2 trial => exact absurd rfl (h trial)
  | remember verdict => exact indifferent_getGate state
  | markCached | setCached verdict => exact indifferent_getGate state
  | _ => exact ⟨rfl, rfl⟩

theorem Routes.indifferent {thread : Nat} {call next : RouteCall}
    (h : Routes options thread state call next after) : Indifferent state after := by
  cases h with
  | gate | preferGate => exact indifferent_getGate state
  | entered =>
    dsimp only [RouteCall.enterGate]
    split
    · exact ⟨rfl, rfl⟩
    · exact ⟨rfl, rfl⟩
  | _ => exact ⟨rfl, rfl⟩

/-- A decision leaves nothing to record. -/
theorem record_decided {call : RouteCall} {gate : Nat} {protocol : ProtocolState}
    {decision : GateDecision} {trial : Trial} (htodo : call.todo = []) :
    .recordH2 trial ∉ (call.decided gate protocol decision).todo := by
  rw [RouteCall.decided]
  split
  · simp
  · split
    · simp [htodo]
    · simp
  · simp [htodo]
  · simp [htodo]

theorem Routes.not_record {thread : Nat} {call next : RouteCall} {trial : Trial}
    (h : Routes options thread state call next after) (htodo : call.todo = []) :
    .recordH2 trial ∉ next.todo := by
  cases h with
  | told => simp
  | entered => exact record_decided htodo
  | _ => simp [htodo]

/-- The evidence that an answer brings: what it judges on, and what it will record. -/
theorem Receives.evidence {call next : RouteCall} {answer : Answer}
    (h : Receives state call answer next after) (htodo : call.todo = []) :
    (state.h2Seen = true → after.h2Seen = true) ∧
      (after.latest = state.latest ∨ after.latest = some .h1) ∧
      ∀ trial, .recordH2 trial ∈ next.todo → after.h2Seen = true := by
  cases h with
  | trial | negotiated => exact ⟨fun _ => rfl, .inl rfl, fun _ _ => rfl⟩
  | h2 => exact ⟨fun _ => rfl, .inl rfl, fun _ _ => rfl⟩
  | h1 | unnegotiated => exact ⟨id, .inr rfl, by simp [htodo]⟩
  | preferredH1 => exact ⟨id, .inr rfl, by simp⟩
  | @probed trial =>
    refine ⟨id, .inr rfl, fun other hother => ?_⟩
    cases hdetects : trial.detects with
    | false => simp [hdetects] at hother
    | true => simp [hdetects] at hother
  | h2Failed | detectionFailed | preferredH2Failed => exact ⟨id, .inl rfl, by simp⟩
  | h1Failed | preferredH1Failed | directFailed | probeFailed =>
    exact ⟨id, .inl rfl, by simp [htodo]⟩

/-- A judgement comes with its evidence, but for that of a detection. -/
theorem Receives.judged {call next : RouteCall} {answer : Answer}
    (h : Receives state call answer next after) (hjudges : call.Judges answer) :
    after.latest = some .h1 ∨ after.latest = state.latest ∧
      ∃ trial, call.stage = .h2 (some trial) ∧ trial.detects = true ∧ answer = .failure := by
  rcases hjudges with ⟨hstage, rfl⟩ | ⟨trial, hstage, rfl⟩ | ⟨trial, hstage, hdetects, rfl⟩
  · cases h with
    | h1 | preferredH1 | probed => exact .inl rfl
    | h2 hother | trial hother =>
      rw [hstage] at hother
      cases hother
  · cases h with
    | h1 | preferredH1 | probed => exact .inl rfl
    | h2 hother | trial hother =>
      rw [hstage] at hother
      cases hother
  · cases h with
    | _ => exact .inr ⟨rfl, trial, hstage, hdetects, rfl⟩

/-- The step records HTTP/2. -/
def Records (state : RouteState) (action : Action) : Prop :=
  ∃ i thread call trial rest, action = .perform i thread ∧ state.calls[i]? = some call ∧
    call.todo = .recordH2 trial :: rest

/-- Only a record of HTTP/2 takes back the evidence of HTTP/1.1. -/
theorem latest_of_step {action : Action} (hstep : step options state action = some after)
    (h : state.latest = some .h1) : after.latest = some .h1 ∨ Records state action := by
  cases action with
  | perform i thread =>
    obtain ⟨call, next, mid, hcall, hrun, rfl⟩ := onCall_eq_some hstep
    obtain ⟨op, rest, htodo, -, rfl⟩ := perform_eq_some hrun
    by_cases hrecord : ∃ trial, op = .recordH2 trial
    · obtain ⟨trial, rfl⟩ := hrecord
      exact .inr ⟨i, thread, call, trial, rest, rfl, hcall, htodo⟩
    · exact .inl ((indifferent_runOp fun trial heq => hrecord ⟨trial, heq⟩).1.trans h)
  | route i thread =>
    obtain ⟨call, next, mid, hcall, hrun, rfl⟩ := onCall_eq_some hstep
    exact .inl ((routes_of_route hrun).2.indifferent.1.trans h)
  | receive i answer =>
    obtain ⟨call, next, mid, hcall, hrun, rfl⟩ := onCall_eq_some hstep
    obtain ⟨htodo, hreceives⟩ := receives_of_receive hrun
    rcases (hreceives.evidence htodo).2.1 with hsame | hnew
    · exact .inl (hsame.trans h)
    · exact .inl hnew
  | evict =>
    obtain ⟨entry, hentry, hstep⟩ := Option.bind_eq_some_iff.mp hstep
    split at hstep
    · cases hstep
    · obtain rfl := Option.some.inj hstep
      exact .inl h
  | start | abort | tick | overwrite =>
    obtain rfl := Option.some.inj hstep
    exact .inl h

/-- Evidence of HTTP/2 stays. -/
theorem h2Seen_of_step {action : Action} (hstep : step options state action = some after)
    (h : state.h2Seen = true) : after.h2Seen = true := by
  cases action with
  | perform i thread =>
    obtain ⟨call, next, mid, hcall, hrun, rfl⟩ := onCall_eq_some hstep
    obtain ⟨op, rest, htodo, -, rfl⟩ := perform_eq_some hrun
    by_cases hrecord : ∃ trial, op = .recordH2 trial
    · obtain ⟨trial, rfl⟩ := hrecord
      exact h
    · exact (indifferent_runOp fun trial heq => hrecord ⟨trial, heq⟩).2.trans h
  | route i thread =>
    obtain ⟨call, next, mid, hcall, hrun, rfl⟩ := onCall_eq_some hstep
    exact (routes_of_route hrun).2.indifferent.2.trans h
  | receive i answer =>
    obtain ⟨call, next, mid, hcall, hrun, rfl⟩ := onCall_eq_some hstep
    obtain ⟨htodo, hreceives⟩ := receives_of_receive hrun
    exact (hreceives.evidence htodo).1 h
  | evict =>
    obtain ⟨entry, hentry, hstep⟩ := Option.bind_eq_some_iff.mp hstep
    split at hstep
    · cases hstep
    · obtain rfl := Option.some.inj hstep
      exact h
  | start | abort | tick | overwrite =>
    obtain rfl := Option.some.inj hstep
    exact h

/-! ### The invariant -/

/-- What is about to be recorded has been seen. -/
theorem Seen.recorded_step {action : Action} (h : Seen options state)
    (hstep : step options state action = some after) :
    ∀ call ∈ after.calls, ∀ trial, .recordH2 trial ∈ call.todo → after.h2Seen = true := by
  have hold : ∀ call ∈ state.calls, ∀ trial, .recordH2 trial ∈ call.todo → after.h2Seen = true :=
    fun call hcall trial hop => h2Seen_of_step hstep (h.recorded call hcall trial hop)
  intro other hmem trial hop
  cases action with
  | start kind url =>
    obtain rfl := Option.some.inj hstep
    rcases List.mem_append.mp hmem with hbefore | hnew
    · exact hold other hbefore trial hop
    · obtain rfl := List.mem_singleton.mp hnew
      cases kind with
      | auto | submitted | preferH1 | preferH2 => exact absurd hop List.not_mem_nil
  | perform i thread =>
    obtain ⟨call, next, mid, hcall, hrun, heq⟩ := onCall_eq_some hstep
    obtain ⟨op, rest, htodo, rfl, rfl⟩ := perform_eq_some hrun
    rw [heq] at hmem
    rcases List.mem_or_eq_of_mem_set hmem with hbefore | rfl
    · rw [runOp_calls] at hbefore
      exact hold other hbefore trial hop
    · rcases List.mem_append.mp hop with hmore | hrest
      · -- what is left to do after an operation records nothing
        exfalso
        cases op with
        | recordH2 recorded =>
          have hlearned : Op.recordH2 trial ∉ learned recorded := by
            rw [learned]
            split
            · simp
            · simp
          exact hlearned hmore
        | markCached | setCached => cases List.mem_singleton.mp hmore
        | _ => exact absurd hmore List.not_mem_nil
      · refine hold call (List.mem_of_getElem? hcall) trial ?_
        rw [htodo]
        exact List.mem_cons_of_mem _ hrest
  | route i thread =>
    obtain ⟨call, next, mid, hcall, hrun, heq⟩ := onCall_eq_some hstep
    obtain ⟨htodo, hroutes⟩ := routes_of_route hrun
    rw [heq] at hmem
    rcases List.mem_or_eq_of_mem_set hmem with hbefore | rfl
    · rw [hroutes.calls] at hbefore
      exact hold other hbefore trial hop
    · exact absurd hop (hroutes.not_record htodo)
  | receive i answer =>
    obtain ⟨call, next, mid, hcall, hrun, heq⟩ := onCall_eq_some hstep
    obtain ⟨htodo, hreceives⟩ := receives_of_receive hrun
    rw [heq] at hmem
    rcases List.mem_or_eq_of_mem_set hmem with hbefore | rfl
    · rw [hreceives.same.1.calls] at hbefore
      exact hold other hbefore trial hop
    · rw [heq]
      exact (hreceives.evidence htodo).2.2 trial hop
  | abort i =>
    obtain rfl := Option.some.inj hstep
    exact hold other (List.mem_of_mem_eraseIdx hmem) trial hop
  | evict =>
    obtain ⟨entry, hentry, hevict⟩ := Option.bind_eq_some_iff.mp hstep
    split at hevict
    · cases hevict
    · obtain rfl := Option.some.inj hevict
      exact hold other hmem trial hop
  | tick | overwrite =>
    obtain rfl := Option.some.inj hstep
    exact hold other hmem trial hop

/-- Every step keeps claims of HTTP/2 within the evidence. -/
theorem Seen.step {action : Action} (h : Seen options state)
    (hstep : Verdicts.step options state action = some after) : Seen options after := by
  refine ⟨fun hclaims => ?_, h.recorded_step hstep⟩
  rcases claims_of_step hstep hclaims with hbefore | harises
  · exact h2Seen_of_step hstep (h.claimed hbefore)
  · cases harises with
    | @recorded i thread call trial rest hcall htodo =>
      have hop : Op.recordH2 trial ∈ call.todo := by
        rw [htodo]
        exact List.mem_cons_self
      exact h2Seen_of_step hstep (h.recorded call (List.mem_of_getElem? hcall) trial hop)

/-- Founded steps keep claims of HTTP/1.1 within the evidence. -/
theorem Backed.step {action : Action} (h : Backed options state)
    (hok : Founded options state action) (hstep : Verdicts.step options state action = some after) :
    Backed options after := by
  intro verdict hverdict hclaims
  rcases claims_of_step hstep hclaims with hbefore | harises
  · rcases latest_of_step hstep (h verdict hverdict hbefore) with hlatest |
      ⟨i, thread, call, trial, rest, rfl, hcall, htodo⟩
    · exact hlatest
    · -- HTTP/2 is recorded only while no such claim is made
      obtain ⟨hnone, hnodowngrade⟩ := hok call trial rest hcall htodo
      cases verdict with
      | h1Only => exact absurd hbefore hnone
      | downgraded => exact absurd hbefore hnodowngrade
      | h2Available => exact absurd rfl hverdict
  · cases harises with
    | recorded => exact absurd rfl hverdict
    | downgraded hcall hstage hgate hnow =>
      obtain ⟨call, next, mid, -, hrun, rfl⟩ := onCall_eq_some hstep
      exact (routes_of_route hrun).2.indifferent.1.trans (hok _ _ hcall hstage hgate hnow)
    | judged hcall hjudges =>
      obtain ⟨call, next, mid, hfound, hrun, rfl⟩ := onCall_eq_some hstep
      obtain rfl := Option.some.inj (hfound.symm.trans hcall)
      rcases (receives_of_receive hrun).2.judged hjudges with hnew |
        ⟨hsame, trial, hstage, hdetects, rfl⟩
      · exact hnew
      · exact hsame.trans (hok _ trial hcall hstage hdetects rfl)

/-! ### Runs -/

theorem seen_start (now : Int) : Seen options { now } :=
  ⟨fun h => absurd h (not_claims_start now _), fun _ hcall => absurd hcall List.not_mem_nil⟩

/-- In every run, what is claimed of HTTP/2 has been seen. -/
theorem seen_of_run {now : Int} {actions : List Action}
    (hexec : exec (step options) { now } actions = some state) : Seen options state :=
  invariant_of_reaches (fun _ _ _ h hstep => Seen.step h hstep) (seen_start now)
    ⟨actions, hexec⟩

/-- In a run of founded steps, what is said of the origin rests on evidence. -/
theorem evidenced_of_founded {now : Int} {actions : List Action}
    (hok : Along (step options) (Founded options) { now } actions)
    (hexec : exec (step options) { now } actions = some state) : Evidenced options state := by
  have hbacked : Backed options state :=
    invariant_of_along (fun _ _ _ h hok hstep => Backed.step h hok hstep)
      (fun verdict _ h => absurd h (not_claims_start now verdict)) hok hexec
  exact evidenced_of_backed hbacked (seen_of_run hexec)

/-- A request that prefers HTTP/1.1 succeeds, and writes that to all three places. -/
def preferredRun : List Action :=
  [.start .preferH1 (str "u"), .receive 0 .success, .perform 0 0, .perform 0 0, .perform 0 0,
    .perform 0 0]

theorem evidenced_of_founded_preferred : ∃ state, exec (step {}) { now := 0 } preferredRun =
    some state ∧ Says {} state .h1Only ∧ Evidenced {} state := by
  refine ⟨_, rfl, .gate (.inl ⟨_, rfl, rfl⟩) rfl,
    @evidenced_of_founded {} _ 0 preferredRun ?_ rfl⟩
  refine .cons trivial rfl <| .cons ?_ rfl <| .cons ?_ rfl <| .cons ?_ rfl <| .cons ?_ rfl <|
    .cons ?_ rfl trivial
  · intro call trial hcall hstage
    obtain rfl := Option.some.inj hcall
    cases hstage
  all_goals
    intro call trial rest hcall htodo
    obtain rfl := Option.some.inj hcall
    cases htodo

/-- A detection fails over HTTP/2. Before its probe is sent, the gate says that the origin has
HTTP/1.1 only, although nothing was ever exchanged over HTTP/1.1. -/
theorem not_evidenced_detection : ∃ state, exec (step {}) { now := 0 }
    [.start .auto (str "u"), .route 0 0, .route 0 0, .route 0 0, .route 0 0, .receive 0 .failure,
      .perform 0 0, .perform 0 0, .perform 0 0] = some state ∧ ¬ Evidenced {} state := by
  refine ⟨_, rfl, fun h => ?_⟩
  have hlatest := h.h1 (.inl (.gate (.inl ⟨_, rfl, rfl⟩) rfl))
  cases hlatest

end HttpClient.Routing.Verdicts
