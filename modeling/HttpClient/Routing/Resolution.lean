import HttpClient.Routing.Route

/-!
# The end of a detection

A request that starts a detection is to tell the gate how it ended. Until someone does,
the gate is pending: it detects, it cannot be dropped, and those who enter are told to
wait. What is told settles it, and nothing takes that back but another detection.

The detecting request tells the gate at the end of its attempt over HTTP/2, and not when
that attempt throws; nor when a cancellation comes before the update. The HTTP/2 client
throws for every URL whose scheme is not `https`.

## Main definitions

* `Pending`, `Settled` — the gate during a detection, and after it has ended
* `Resolved` — the gate is open, unless another detection has started
* `Reports` — the calls that tell the gate, or that are overtaken by one that does

## Main results

* `Settles` and its rules — which ends of a call settle a pending gate
* `resolved_iff_reports` — a detection is resolved by the calls that report
* `pending_after_http_url` — the detection for an `http` URL is never resolved
-/

set_option autoImplicit false

namespace HttpClient.Routing

open Text Semantics Semantics.Call

variable {env : Env} {request : Request} {epoch : Nat} {cached : Bool} {world : World}
variable {α : Type}

/-- The detection `epoch` is running. -/
structure Pending (epoch : Nat) (cached : Bool) (world : World) : Prop where
  detecting : world.gate.protocol = .detecting
  blocked : world.gate.evictionBlocked = true
  current : world.gate.detections = epoch
  sound : world.gate.Sound
  kept : world.cached = cached

/-- The detection `epoch` has ended. -/
def Settled (epoch : Nat) (world : World) : Prop :=
  epoch < world.gate.detections ∨ world.gate.detections = epoch ∧ world.gate.Open

/-- After the detection `epoch` the gate is open, unless another one has started. -/
def Resolved (epoch : Nat) (world : World) : Prop :=
  world.gate.detections = epoch → world.gate.Open

theorem Settled.resolved (h : Settled epoch world) : Resolved epoch world := by
  intro hsame
  rcases h with hlater | ⟨-, hopen⟩
  · exact absurd hsame (Nat.ne_of_gt hlater)
  · exact hopen

theorem Pending.not_resolved (h : Pending epoch cached world) : ¬ Resolved epoch world :=
  fun hres => (hres h.current).1 h.detecting

/-! ### Updates of the gate -/

/-- An update that ends a detection: it starts none, and opens a gate that is sound. -/
structure EndsDetection (update : OriginGate → OriginGate) : Prop where
  detections : ∀ gate, (update gate).detections = gate.detections
  opens : ∀ gate : OriginGate, gate.Sound → (update gate).Open

theorem endsDetection_setProtocol {protocol : ProtocolState} (h : protocol ≠ .detecting) :
    EndsDetection (OriginGate.setProtocol protocol) :=
  ⟨fun _ => rfl, fun _ hsound => hsound.setProtocol_open h⟩

theorem endsDetection_markH2Failed {options : GateOptions} {now : Int} :
    EndsDetection (OriginGate.markH2Failed options now) :=
  ⟨fun _ => rfl, fun _ hsound => hsound.markH2Failed_open⟩

theorem Pending.update {update : OriginGate → OriginGate} (h : Pending epoch cached world)
    (hends : EndsDetection update) : Settled epoch (world.onGate update) :=
  Or.inr ⟨(hends.detections _).trans h.current, hends.opens _ h.sound⟩

theorem Settled.update {update : OriginGate → OriginGate} (h : Settled epoch world)
    (hends : EndsDetection update) : Settled epoch (world.onGate update) := by
  rcases h with hlater | ⟨hsame, hopen⟩
  · exact Or.inl (hlater.trans_eq (hends.detections _).symm)
  · exact Or.inr ⟨(hends.detections _).trans hsame, hends.opens _ hopen.sound⟩

theorem Settled.recordH2Origin (h : Settled epoch world) :
    Settled epoch (world.onGate OriginGate.recordH2Origin) := h

theorem Pending.recordH2Origin (h : Pending epoch cached world) :
    Pending epoch cached (world.onGate OriginGate.recordH2Origin) :=
  ⟨h.detecting, h.blocked, h.current, h.sound, h.kept⟩

/-! ### What other requests do -/

/-- Whether other requests tell the gate how a detection has ended. -/
def GateEvent.ends : GateEvent → Bool
  | .learnH1 | .learnH2 | .markH2Failed _ => true
  | .enter _ | .recordH2Origin | .evict => false

theorem OriginGate.detections_le_enter (options : GateOptions) (now : Int) (gate : OriginGate) :
    gate.detections ≤ (gate.enter options now).2.detections := by
  rcases gate.enter_cases options now with ⟨hsame, -⟩ | ⟨hstart, -⟩ | ⟨hwait, -⟩
  · rw [hsame]
  · rw [hstart]
    exact Nat.le_succ _
  · rw [hwait]
    exact le_rfl

theorem Settled.event {options : GateOptions} (h : Settled epoch world) (event : GateEvent) :
    Settled epoch (world.event options event) := by
  cases event with
  | enter now =>
    rcases h with hlater | ⟨hsame, hopen⟩
    · exact Or.inl (hlater.trans_le (world.gate.detections_le_enter options now))
    · have hentered : (world.gate.enter options now).2 = world.gate ∨
          (world.gate.enter options now).2.detections = world.gate.detections + 1 := hopen.enter
      rcases hentered with hkept | hstarted
      · exact Or.inr (by simpa [World.event, World.onGate, hkept] using And.intro hsame hopen)
      · exact Or.inl (by simp [World.event, World.onGate, hstarted, hsame])
  | learnH1 => exact h.update (endsDetection_setProtocol (by decide))
  | learnH2 => exact h.update (endsDetection_setProtocol (by decide))
  | recordH2Origin => exact h.recordH2Origin
  | markH2Failed now => exact h.update endsDetection_markH2Failed
  | evict =>
    simp only [World.event]
    split
    · exact h
    · exact h

/-- While the gate detects, whoever enters waits or goes over HTTP/1.1. -/
theorem Pending.enter {options : GateOptions} {now : Int} (h : Pending epoch cached world) :
    Pending epoch cached (world.onGate fun gate => (gate.enter options now).2) := by
  have hsound : (world.gate.enter options now).2.Sound := h.sound.enter
  rcases world.gate.enter_cases options now with ⟨hsame, -⟩ | ⟨-, hnot⟩ | ⟨hwait, -⟩
  · refine ⟨?_, ?_, ?_, hsound, h.kept⟩
    · simpa [World.onGate, hsame] using h.detecting
    · simpa [World.onGate, hsame] using h.blocked
    · simpa [World.onGate, hsame] using h.current
  · exact absurd h.detecting hnot
  · refine ⟨?_, ?_, ?_, hsound, h.kept⟩
    · simpa [World.onGate, hwait, OriginGate.addWaiter] using h.detecting
    · simpa [World.onGate, hwait, OriginGate.addWaiter] using h.blocked
    · simpa [World.onGate, hwait, OriginGate.addWaiter] using h.current

theorem Pending.event_ends {options : GateOptions} {event : GateEvent}
    (h : Pending epoch cached world) (hends : event.ends = true) :
    Settled epoch (world.event options event) := by
  cases event with
  | learnH1 => exact h.update (endsDetection_setProtocol (by decide))
  | learnH2 => exact h.update (endsDetection_setProtocol (by decide))
  | markH2Failed now => exact h.update endsDetection_markH2Failed
  | enter | recordH2Origin | evict => cases hends

theorem Pending.event {options : GateOptions} {event : GateEvent}
    (h : Pending epoch cached world) (hends : event.ends = false) :
    Pending epoch cached (world.event options event) := by
  cases event with
  | enter now => exact h.enter
  | recordH2Origin => exact h.recordH2Origin
  | evict => simpa [World.event, h.blocked] using h
  | learnH1 | learnH2 | markH2Failed => cases hends

theorem Settled.events {options : GateOptions} {events : List GateEvent}
    (h : Settled epoch world) : Settled epoch (world.events options events) := by
  induction events generalizing world with
  | nil => exact h
  | cons event events ih => exact ih (h.event event)

/-- Other requests tell the gate while the call is at a suspension point. -/
def Overtaken (env : Env) (point : Await) : Prop := ∃ event ∈ env.others point, event.ends = true

theorem Pending.events_settled {options : GateOptions} {events : List GateEvent}
    (h : Pending epoch cached world) (hends : ∃ event ∈ events, event.ends = true) :
    Settled epoch (world.events options events) := by
  induction events generalizing world with
  | nil => exact absurd hends (by simp)
  | cons event events ih =>
    cases hhead : event.ends with
    | true =>
      have hsettled : Settled epoch (world.event options event) := h.event_ends hhead
      exact hsettled.events
    | false =>
      obtain ⟨other, hother, hothers⟩ := hends
      rcases List.mem_cons.mp hother with rfl | htail
      · rw [hhead] at hothers
        cases hothers
      · exact ih (h.event hhead) ⟨other, htail, hothers⟩

theorem Pending.events {options : GateOptions} {events : List GateEvent}
    (h : Pending epoch cached world) (hends : ¬ ∃ event ∈ events, event.ends = true) :
    Pending epoch cached (world.events options events) := by
  induction events generalizing world with
  | nil => exact h
  | cons event events ih =>
    have hhead : event.ends = false := by
      by_contra hne
      exact hends ⟨event, List.mem_cons_self, by simpa using hne⟩
    exact ih (h.event hhead) fun ⟨other, htail, hothers⟩ =>
      hends ⟨other, List.mem_cons_of_mem _ htail, hothers⟩

/-! ### Every part of a call keeps a settled gate settled -/

theorem await_of_none {point : Await} (h : env.cancelled point = none) (world : World) :
    (await env point).outcome world = (.ok (), world.events env.options (env.others point)) := by
  simp only [await]
  rw [outcome_bind_ok (outcome_modify _ _), h]
  rfl

theorem await_of_some {point : Await} {what : Bytes} (h : env.cancelled point = some what)
    (world : World) : (await env point).outcome world =
      (.error what, world.events env.options (env.others point)) := by
  simp only [await]
  rw [outcome_bind_ok (outcome_modify _ _), h]
  rfl

theorem keeps_await (point : Await) : Keeps (Settled epoch) (await env point) := by
  intro world h
  cases hcancelled : env.cancelled point with
  | none =>
    rw [await_of_none hcancelled]
    exact h.events
  | some what =>
    rw [await_of_some hcancelled]
    exact h.events

theorem keeps_record (attempt : Attempt) : Keeps (Settled epoch) (record attempt) :=
  Keeps.modify fun _ h => h

theorem keeps_onGate {update : OriginGate → OriginGate} (h : EndsDetection update) :
    Keeps (Settled epoch) (onGate update) :=
  Keeps.modify fun _ hworld => hworld.update h

theorem keeps_onCachedGate {update : OriginGate → OriginGate} (h : EndsDetection update) :
    Keeps (Settled epoch) (onCachedGate update) := by
  refine Keeps.modify fun world hworld => ?_
  split
  · exact hworld.update h
  · exact hworld

theorem keeps_requestH1 : Keeps (Settled epoch) (requestH1 env request) :=
  (keeps_await _).bind fun _ => (keeps_record _).bind fun _ => Keeps.pure _

theorem keeps_h2AsyncRequest (retry : Bool) :
    Keeps (Settled epoch) (h2AsyncRequest env request retry) :=
  (Keeps.ofExcept _).bind fun _ => (keeps_record _).bind fun _ => Keeps.ofExcept _

theorem keeps_answerH2 (retry force : Bool) (response : Response) :
    Keeps (Settled epoch) (answerH2 env retry force response) := by
  unfold answerH2
  split
  · exact Keeps.pure _
  · exact (keeps_await _).bind fun _ =>
      (keeps_onCachedGate endsDetection_markH2Failed).bind fun _ => Keeps.pure _

theorem keeps_requestH2 (retry force : Bool) :
    Keeps (Settled epoch) (requestH2 env request retry force) :=
  (Keeps.ofExcept _).bind fun _ => (keeps_await _).bind fun _ =>
    (keeps_h2AsyncRequest retry).bind fun response => keeps_answerH2 retry force response

theorem keeps_learnH2 (retry : Bool) : Keeps (Settled epoch) (learnH2 env retry) :=
  (keeps_await _).bind fun _ => (Keeps.modify fun _ h => h.recordH2Origin).bind fun _ =>
    (keeps_await _).bind fun _ => keeps_onGate (endsDetection_setProtocol (by decide))

theorem keeps_probeRequest : Keeps (Settled epoch) (probeRequest env request) := by
  unfold probeRequest
  split
  · exact Keeps.pure _
  · split
    · exact Keeps.pure _
    · exact (keeps_record _).bind fun _ => Keeps.pure _

theorem keeps_afterProbe : Keeps (Settled epoch) (afterProbe env request) := by
  refine (keeps_await _).bind fun _ => keeps_probeRequest.bind fun probe => ?_
  split
  · exact Keeps.pure _
  · split
    · exact (keeps_learnH2 true).bind fun _ => keeps_requestH2 true false
    · exact keeps_requestH1

/-! ### Which ends of a call settle a pending gate -/

/-- From a pending gate, the call leaves it settled if `P`, and pending if not. -/
def Settles (epoch : Nat) (cached : Bool) (P : Prop) (x : Step α) : Prop :=
  ∀ world, Pending epoch cached world →
    (P → Settled epoch (x.outcome world).2) ∧ (¬ P → Pending epoch cached (x.outcome world).2)

section Settles

variable {P Q : Prop} {β : Type}

theorem Settles.congr {x : Step α} (h : Settles epoch cached P x) (hiff : P ↔ Q) :
    Settles epoch cached Q x := by
  rwa [propext hiff] at h

/-- A suspension point settles the gate when others do so meanwhile; otherwise the call
gets past it only when it is not cancelled. -/
theorem Settles.await {point : Await} {k : Unit → Step α}
    (hk : Settles epoch cached P (k ())) (hkeeps : Keeps (Settled epoch) (k ())) :
    Settles epoch cached (Overtaken env point ∨ env.cancelled point = none ∧ P)
      (await env point >>= k) := by
  intro world hpending
  by_cases hovertaken : Overtaken env point
  · have hsettled : Settled epoch (world.events env.options (env.others point)) :=
      hpending.events_settled hovertaken
    refine ⟨fun _ => ?_, fun hnot => absurd (Or.inl hovertaken) hnot⟩
    cases hcancelled : env.cancelled point with
    | none =>
      rw [outcome_bind_ok (await_of_none hcancelled world)]
      exact hkeeps _ hsettled
    | some what =>
      rw [outcome_bind_error (await_of_some hcancelled world)]
      exact hsettled
  · have hstill : Pending epoch cached (world.events env.options (env.others point)) :=
      hpending.events hovertaken
    cases hcancelled : env.cancelled point with
    | none =>
      rw [outcome_bind_ok (await_of_none hcancelled world)]
      obtain ⟨hyes, hno⟩ := hk _ hstill
      refine ⟨fun h => hyes ?_, fun h => hno fun hP => h (Or.inr ⟨rfl, hP⟩)⟩
      exact (h.resolve_left hovertaken).2
    | some what =>
      rw [outcome_bind_error (await_of_some hcancelled world)]
      refine ⟨fun h => ?_, fun _ => hstill⟩
      cases (h.resolve_left hovertaken).1

/-- A change that leaves a pending gate pending does not matter. -/
theorem Settles.modify {g : World → World} {k : Unit → Step α}
    (hg : ∀ world, Pending epoch cached world → Pending epoch cached (g world))
    (hk : Settles epoch cached P (k ())) :
    Settles epoch cached P ((modify g : Step Unit) >>= k) := by
  intro world hpending
  rw [outcome_bind_ok (outcome_modify g world)]
  exact hk _ (hg world hpending)

theorem Settles.onGate {update : OriginGate → OriginGate} {k : Unit → Step α}
    (hends : EndsDetection update) (hkeeps : Keeps (Settled epoch) (k ())) :
    Settles epoch cached True (onGate update >>= k) := by
  intro world hpending
  refine ⟨fun _ => ?_, fun h => absurd trivial h⟩
  rw [Routing.onGate, outcome_bind_ok (outcome_modify _ world)]
  exact hkeeps _ (hpending.update hends)

theorem Settles.onCachedGate {update : OriginGate → OriginGate} {k : Unit → Step α}
    (hends : EndsDetection update) (hk : Settles epoch cached P (k ()))
    (hkeeps : Keeps (Settled epoch) (k ())) :
    Settles epoch cached (cached = true ∨ P) (onCachedGate update >>= k) := by
  intro world hpending
  rw [Routing.onCachedGate, outcome_bind_ok (outcome_modify _ world), hpending.kept]
  cases cached with
  | true => exact ⟨fun _ => hkeeps _ (hpending.update hends), fun h => absurd (Or.inl rfl) h⟩
  | false => simpa using hk world hpending

theorem Settles.ofExcept {r : Except Bytes β} {p : β → Prop} {k : β → Step α}
    (hk : ∀ b, r = .ok b → Settles epoch cached (p b) (k b)) :
    Settles epoch cached (∃ b, r = .ok b ∧ p b) (ofExcept r >>= k) := by
  cases r with
  | ok b =>
    refine (hk b rfl).congr ⟨fun h => ⟨b, rfl, h⟩, ?_⟩
    rintro ⟨c, hc, hpc⟩
    cases hc
    exact hpc
  | error e =>
    intro world hpending
    refine ⟨?_, fun _ => hpending⟩
    rintro ⟨b, hb, -⟩
    cases hb

end Settles

/-! ### The calls that report -/

/-- After a successful attempt over HTTP/2 the gate is told, or was told by others. -/
def ReportsSuccess (env : Env) : Prop :=
  Overtaken env (.recordH2 false) ∨ env.cancelled (.recordH2 false) = none ∧
    (Overtaken env (.setH2 false) ∨ env.cancelled (.setH2 false) = none ∧ True)

/-- The same after an error response. The first of the two updates goes to the gate in
the table, which is another one if the gate of the call has been dropped. -/
def ReportsFailure (env : Env) (cached : Bool) : Prop :=
  Overtaken env (.h2Failed false) ∨ env.cancelled (.h2Failed false) = none ∧
    (cached = true ∨ (Overtaken env .setH1 ∨ env.cancelled .setH1 = none ∧ True))

/-- The attempt over HTTP/2 does not throw, and no cancellation comes before the gate is
told; or others tell it before the call throws. -/
def Reports (env : Env) (request : Request) (cached : Bool) : Prop :=
  ∃ key, Policy.originKey request.url = .ok key ∧
    (Overtaken env (.h2 false) ∨ env.cancelled (.h2 false) = none ∧
      ∃ url, H2.parseUrl request.url = .ok url ∧
        ∃ response, (env.h2 false).result = .ok response ∧
          if response.error = [] then ReportsSuccess env else ReportsFailure env cached)

theorem settles_learnH2 {k : Unit → Step α} (hkeeps : Keeps (Settled epoch) (k ())) :
    Settles epoch cached (ReportsSuccess env) (learnH2 env false >>= k) := by
  have hends : EndsDetection (OriginGate.setProtocol .h2Available) :=
    endsDetection_setProtocol (by decide)
  have hset : Keeps (Settled epoch) (onGate (OriginGate.setProtocol .h2Available) >>= k) :=
    (keeps_onGate hends).bind fun _ => hkeeps
  have hrest : Keeps (Settled epoch) (onGate OriginGate.recordH2Origin >>= fun _ =>
      await env (.setH2 false) >>= fun _ =>
        onGate (OriginGate.setProtocol .h2Available) >>= k) :=
    (Keeps.modify fun _ h => h.recordH2Origin).bind fun _ => (keeps_await _).bind fun _ => hset
  simp only [learnH2, bind_assoc]
  refine Settles.await (Settles.modify (fun _ h => h.recordH2Origin) ?_) hrest
  exact Settles.await (Settles.onGate hends hkeeps) hset

theorem settles_failure {k : Unit → Step α} (hkeeps : Keeps (Settled epoch) (k ())) :
    Settles epoch cached (ReportsFailure env cached)
      (await env (.h2Failed false) >>= fun _ =>
        onCachedGate (OriginGate.markH2Failed env.options (env.now (.h2Failed false))) >>=
          fun _ => await env .setH1 >>= fun _ =>
            onGate (OriginGate.setProtocol .h1Only) >>= k) := by
  have hends : EndsDetection (OriginGate.setProtocol .h1Only) :=
    endsDetection_setProtocol (by decide)
  have hset : Keeps (Settled epoch) (onGate (OriginGate.setProtocol .h1Only) >>= k) :=
    (keeps_onGate hends).bind fun _ => hkeeps
  have hawait : Keeps (Settled epoch) (await env .setH1 >>= fun _ =>
      onGate (OriginGate.setProtocol .h1Only) >>= k) := (keeps_await _).bind fun _ => hset
  refine Settles.await ?_ ((keeps_onCachedGate endsDetection_markH2Failed).bind fun _ => hawait)
  refine Settles.onCachedGate endsDetection_markH2Failed ?_ hawait
  exact Settles.await (Settles.onGate hends hkeeps) hset

theorem keeps_viaH2 {failed : Await} {update : OriginGate → OriginGate}
    (hends : EndsDetection update) (response : Response) :
    Keeps (Settled epoch) (if response.error = [] then do
        learnH2 env false
        return response
      else do
        await env failed
        onGate update
        afterProbe env request) := by
  split
  · exact (keeps_learnH2 false).bind fun _ => Keeps.pure _
  · exact (keeps_await _).bind fun _ => (keeps_onGate hends).bind fun _ => keeps_afterProbe

theorem settles_detect : Settles epoch cached (Reports env request cached)
    (detect env request) := by
  simp only [detect, viaH2, requestH2, h2AsyncRequest, bind_assoc]
  refine Settles.ofExcept fun key _ => Settles.await ?_ ?_
  · refine Settles.ofExcept fun url _ => Settles.modify (fun _ h => ?_) <|
      Settles.ofExcept fun response _ => ?_
    · exact ⟨h.detecting, h.blocked, h.current, h.sound, h.kept⟩
    · by_cases herror : response.error = []
      · simp only [answerH2, herror, true_or, if_true, pure_bind]
        exact settles_learnH2 (Keeps.pure _)
      · simp only [answerH2, herror, false_or, if_false, Bool.false_eq_true, bind_assoc,
          pure_bind]
        exact settles_failure keeps_afterProbe
  · exact (Keeps.ofExcept _).bind fun _ => (keeps_record _).bind fun _ =>
      (Keeps.ofExcept _).bind fun response => (keeps_answerH2 false false response).bind
        (keeps_viaH2 (endsDetection_setProtocol (by decide)))

/-! ### From entering the gate on -/

theorem sound_event {options : GateOptions} {event : GateEvent} (h : world.gate.Sound) :
    (world.event options event).gate.Sound := by
  cases event with
  | enter now => exact h.enter
  | learnH1 => exact (h.setProtocol_open (by decide)).sound
  | learnH2 => exact (h.setProtocol_open (by decide)).sound
  | recordH2Origin => exact h
  | markH2Failed now => exact h.markH2Failed_open.sound
  | evict =>
    simp only [World.event]
    split
    · exact h
    · exact h

theorem sound_events {options : GateOptions} {events : List GateEvent} (h : world.gate.Sound) :
    (world.events options events).gate.Sound := by
  induction events generalizing world with
  | nil => exact h
  | cons event events ih => exact ih (sound_event h)

/-- Only a gate that starts a detection answers so. -/
theorem OriginGate.enter_detect {options : GateOptions} {now : Int} {gate : OriginGate}
    (h : (gate.enter options now).1.action = .detect) :
    gate.enter options now = gate.startDetection := by
  unfold OriginGate.enter at h ⊢
  split at h
  case h_1 => cases h
  case h_2 => cases h
  case h_3 =>
    by_cases hnow : now < gate.retryAfter
    · simp [hnow] at h
    · simp [hnow]
  case h_4 =>
    split at h
    · cases h
    · cases h
  case h_5 => rfl

/-- Who waits for another detection does not start one. -/
theorem awaitDetection_ne_detect (waiter : Option Nat) (world after : World) :
    (awaitDetection env waiter).outcome world ≠ (.ok .detect, after) := by
  intro h
  cases hcancelled : env.cancelled .wait with
  | some what =>
    rw [awaitDetection, outcome_bind_error (await_of_some hcancelled world)] at h
    cases h
  | none =>
    rw [awaitDetection, outcome_bind_ok (await_of_none hcancelled world),
      outcome_bind_ok (outcome_get _)] at h
    split at h
    · cases horigin : env.cancelled .hasH2Origin with
      | some what =>
        rw [outcome_bind_error (await_of_some horigin _)] at h
        cases h
      | none =>
        rw [outcome_bind_ok (await_of_none horigin _)] at h
        cases h
    · cases h

theorem followDecision_detect {decision : GateDecision} {world after : World}
    (h : (followDecision env decision).outcome world = (.ok .detect, after)) :
    decision.action = .detect ∧ after = world := by
  unfold followDecision at h
  split at h
  case h_1 => cases h
  case h_2 =>
    split at h
    · cases horigin : env.cancelled .hasH2Origin with
      | some what =>
        rw [outcome_bind_error (await_of_some horigin _)] at h
        cases h
      | none =>
        rw [outcome_bind_ok (await_of_none horigin _)] at h
        cases h
    · cases h
  case h_3 => exact absurd h (awaitDetection_ne_detect _ _ _)
  case h_4 haction => exact ⟨haction, (Prod.ext_iff.mp h).2.symm⟩

theorem outcome_enterGate (world : World) :
    (enterGate env).outcome world =
      (.ok (world.gate.enter env.options (env.now .enter)).1,
        { world with gate := (world.gate.enter env.options (env.now .enter)).2 }) := rfl

theorem askGate_detect {entered : World} (hsound : world.gate.Sound)
    (h : (askGate env).outcome world = (.ok .detect, entered)) :
    Pending entered.gate.detections entered.cached entered := by
  have hget : (if world.cached then world
      else { world with gate := {}, cached := true }).gate.Sound := by
    split
    · exact hsound
    · exact OriginGate.sound_empty
  rw [askGate, getGate, outcome_bind_ok (outcome_modify _ world)] at h
  cases hcancelled : env.cancelled .enter with
  | some what =>
    rw [outcome_bind_error (await_of_some hcancelled _)] at h
    cases h
  | none =>
    rw [outcome_bind_ok (await_of_none hcancelled _), outcome_bind_ok (outcome_enterGate _)] at h
    obtain ⟨haction, rfl⟩ := followDecision_detect h
    have hstart := OriginGate.enter_detect haction
    rw [hstart]
    exact ⟨rfl, rfl, rfl, (sound_events hget).startDetection, rfl⟩

theorem chooseRoute_detect {entered : World} (hsound : world.gate.Sound)
    (h : (chooseRoute env request).outcome world = (.ok .detect, entered)) :
    Pending entered.gate.detections entered.cached entered := by
  have hremembered : ∀ {start : World}, start.gate.Sound →
      (rememberedRoute env).outcome start = (.ok .detect, entered) →
        Pending entered.gate.detections entered.cached entered := by
    intro start hstart hroute
    unfold rememberedRoute at hroute
    split at hroute
    · cases hroute
    · cases hroute
    · exact askGate_detect hstart hroute
  unfold chooseRoute at h
  split at h
  case h_1 => cases h
  case h_2 => cases h
  case h_3 => exact hremembered hsound h
  case h_4 =>
    cases hkey : Policy.originKey request.url with
    | error what =>
      rw [hkey] at h
      cases h
    | ok key =>
      rw [hkey] at h
      exact hremembered hsound h

/-- After a request has started a detection, its call ends with the detection resolved
exactly if the call reports. The gate may have any history. -/
theorem resolved_iff_reports (env : Env) (rounds : List Env) (request : Request)
    (history : List GateEvent) {entered : World}
    (h : (chooseRoute env request).outcome (World.events env.options {} history) =
      (.ok .detect, entered)) :
    Resolved entered.gate.detections ((requestAuto (env :: rounds) request).outcome
      (World.events env.options {} history)).2 ↔ Reports env request entered.cached := by
  have hpending := chooseRoute_detect (sound_events OriginGate.sound_empty) h
  have hcall : ((requestAuto (env :: rounds) request).outcome
      (World.events env.options {} history)).2 = ((detect env request).outcome entered).2 := by
    rw [requestAuto, outcome_bind_ok h]
    exact outcome_map_snd some entered
  rw [hcall]
  have hsettles : Settles entered.gate.detections entered.cached
      (Reports env request entered.cached) (detect env request) := settles_detect
  obtain ⟨hyes, hno⟩ := hsettles entered hpending
  constructor
  · intro hresolved
    by_contra hnot
    exact (hno hnot).not_resolved hresolved
  · exact fun hreports => (hyes hreports).resolved

theorem resolved_iff_reports_https :
    Resolved 1 ((requestAuto [{}] { url := str "https://a/" }).outcome {}).2 := by
  refine (resolved_iff_reports {} [] { url := str "https://a/" } [] rfl).mpr ?_
  refine ⟨_, rfl, Or.inr ⟨rfl, _, rfl, _, rfl, ?_⟩⟩
  rw [if_pos rfl]
  exact Or.inr ⟨rfl, Or.inr ⟨rfl, trivial⟩⟩

/-- The HTTP/2 client throws for an `http` URL, and the gate detects for ever. -/
theorem pending_after_http_url :
    ¬ ∀ (env : Env) (rounds : List Env) (request : Request) (history : List GateEvent)
        (entered : World),
      (chooseRoute env request).outcome (World.events env.options {} history) =
          (.ok .detect, entered) →
        Resolved entered.gate.detections ((requestAuto (env :: rounds) request).outcome
          (World.events env.options {} history)).2 := by
  intro h
  have hopen := h {} [] { url := str "http://a/" } [] _ rfl rfl
  exact hopen.1 rfl

end HttpClient.Routing
