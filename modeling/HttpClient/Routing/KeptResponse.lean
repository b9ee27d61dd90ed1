import HttpClient.Routing.Attempts

/-!
# Successful responses are kept

A response without an error should be the result of the call that received it, and the
last thing the call asks for. After a failed attempt over HTTP/2, the probe sends the
request on whatever connection it gets, unless HTTP/2 has been negotiated on it. Its
response is adopted only if HTTP/1.1 has been negotiated. Many servers negotiate nothing;
then the response is dropped and the request is sent again.

## Main definitions

* `Kept` — successful responses are results
* `KeepsResponse` — no successful response of a probe of unknown protocol, and no
  cancellation after a success over HTTP/2

## Main results

* `kept_iff_keepsResponse` — the calls that keep their successful responses
* `response_dropped_without_alpn` — the failing probe
-/

set_option autoImplicit false

namespace HttpClient.Routing

open Text Semantics Semantics.Call

/-- The attempt has returned `response`, and the response has no error. -/
def Attempt.Succeeded (attempt : Attempt) (response : Response) : Prop :=
  attempt.response = some response ∧ response.error = []

/-- A successful response is the result, and nothing is attempted after it. -/
def Kept (attempts : List Attempt) (result : Except Bytes Response) : Prop :=
  ∀ before attempt after response, attempts = before ++ attempt :: after →
    attempt.Succeeded response → after = [] ∧ result = .ok response

/-- A cancellation does not come between a success over HTTP/2 and its return, and a probe
that has not negotiated a protocol is not answered with success. -/
def KeepsResponse (env : Env) (request : Request) (failed : Await) : Prop :=
  (∀ response, Answered env request response → response.error = [] →
    env.cancelled (.recordH2 false) = none ∧ env.cancelled (.setH2 false) = none) ∧
  (Probed env request failed → probeProtocol env request = .ok .unknown →
    ∀ response, env.probeExchange.result = .ok response → response.error ≠ [])

/-! ### Lists of attempts -/

variable {attempt : Attempt} {attempts : List Attempt} {result : Except Bytes Response}
variable {response : Response}

theorem kept_nil : Kept [] result := by
  intro before attempt after response h
  exact absurd h.symm (by simp)

theorem kept_cons_of_failed (h : ∀ response, ¬ attempt.Succeeded response) :
    Kept (attempt :: attempts) result ↔ Kept attempts result := by
  constructor
  · intro hkept before other after response heq
    exact hkept (attempt :: before) other after response (by rw [heq, List.cons_append])
  · intro hkept before other after response heq hsucceeded
    cases before with
    | nil =>
      obtain ⟨rfl, rfl⟩ := List.cons.inj heq
      exact absurd hsucceeded (h response)
    | cons head before =>
      obtain ⟨rfl, rfl⟩ := List.cons.inj heq
      exact hkept before other after response rfl hsucceeded

theorem kept_cons_of_succeeded (h : attempt.Succeeded response) :
    Kept (attempt :: attempts) result ↔ attempts = [] ∧ result = .ok response := by
  constructor
  · exact fun hkept => hkept [] attempt attempts response rfl h
  · rintro ⟨rfl, rfl⟩ before other after response' heq hsucceeded
    cases before with
    | nil =>
      obtain ⟨rfl, rfl⟩ := List.cons.inj heq
      have hsame : some response = some response' := h.1.symm.trans hsucceeded.1
      exact ⟨rfl, congrArg Except.ok (Option.some.inj hsame)⟩
    | cons head before =>
      have htail : [] = before ++ other :: after := (List.cons.inj heq).2
      simp at htail

theorem kept_returned (h : attempt.response = some response) :
    Kept [attempt] (.ok response) := by
  by_cases herror : response.error = []
  · exact (kept_cons_of_succeeded ⟨h, herror⟩).mpr ⟨rfl, rfl⟩
  · refine (kept_cons_of_failed fun other hother => ?_).mpr kept_nil
    obtain rfl := Option.some.inj (h.symm.trans hother.1)
    exact herror hother.2

/-- An attempt that threw, or that was answered with an error. -/
theorem not_succeeded {outcome : Outcome} {transport : Transport}
    (h : ∀ response, outcome.result = .ok response → response.error ≠ []) (response : Response) :
    ¬ (outcome.attempt transport).Succeeded response := by
  rintro ⟨hresponse, herror⟩
  cases hresult : outcome.result with
  | error what =>
    simp [Outcome.attempt, hresult, Except.toOption] at hresponse
  | ok other =>
    simp only [Outcome.attempt, hresult, Except.toOption, Option.some.injEq] at hresponse
    exact h other hresult (hresponse ▸ herror)

theorem attempt_response {outcome : Outcome} {transport : Transport}
    (h : outcome.result = .ok response) :
    (outcome.attempt transport).response = some response := by
  simp [Outcome.attempt, h, Except.toOption]

theorem not_succeeded_of_error {outcome : Outcome} {transport : Transport} {what : Bytes}
    (h : outcome.result = .error what) :
    ∀ response, ¬ (outcome.attempt transport).Succeeded response :=
  not_succeeded fun other hother => by rw [h] at hother; cases hother

theorem not_succeeded_of_refused {outcome : Outcome} {transport : Transport}
    (h : outcome.result = .ok response) (herror : response.error ≠ []) :
    ∀ other, ¬ (outcome.attempt transport).Succeeded other := by
  refine not_succeeded fun other hother => ?_
  rw [h] at hother
  cases hother
  exact herror

/-! ### The parts of a call -/

variable {env : Env} {request : Request}

theorem kept_error (what : Bytes) : Kept [] (.error what) := kept_nil

/-- A last attempt over HTTP/1.1 is kept. -/
theorem judged_kept_requestH1 : Judged World.attempts Kept True (requestH1 env request) := by
  rcases requestH1_cases env request with ⟨what, -, hmakes⟩ | ⟨-, hmakes⟩
  · exact ⟨_, _, hmakes, iff_of_true kept_nil trivial⟩
  · exact ⟨_, _, hmakes, iff_of_true (kept_returned rfl) trivial⟩

/-- A last attempt over HTTP/2 is kept. -/
theorem judged_kept_requestH2 (retry : Bool) :
    Judged World.attempts Kept True (requestH2 env request retry false) := by
  have hreturned : ∀ response, (env.h2 retry).result = .ok response →
      Judged World.attempts (fun rest r => Kept ((env.h2 retry).attempt .h2 :: rest) r) True
        (pure response : Step Response) := fun response hresult =>
    Judged.pure (by simpa using kept_returned (attempt_response hresult))
  rw [← bind_pure (requestH2 env request retry false)]
  refine Judged.congr (judged_requestH2 kept_error ?_ ?_ hreturned) (by simp)
  · exact fun _ h => (kept_cons_of_failed (not_succeeded_of_error h)).mpr kept_nil
  · exact fun _ _ h herror =>
      (kept_cons_of_failed (not_succeeded_of_refused h herror)).mpr kept_nil

/-- After a success over HTTP/2 the call returns it, unless it is cancelled before. -/
theorem judged_kept_success {attempt : Attempt} {response : Response}
    (h : attempt.Succeeded response) :
    Judged World.attempts (fun rest r => Kept (attempt :: rest) r)
      (env.cancelled (.recordH2 false) = none ∧ env.cancelled (.setH2 false) = none)
      (learnH2 env false >>= fun _ => pure response) := by
  have hlost : ∀ what, ¬ Kept [attempt] (.error what) := by
    intro what hkept
    cases ((kept_cons_of_succeeded h).mp hkept).2
  simp only [learnH2, bind_assoc]
  cases hrecord : env.cancelled (.recordH2 false) with
  | some what =>
    exact Judged.bind_error (makes_await_of_some hrecord) (by simpa using hlost what)
  | none =>
    refine Judged.bind_silent (makes_await_of_none hrecord) <|
      Judged.bind_silent (makes_onGate _) ?_
    cases hset : env.cancelled (.setH2 false) with
    | some what =>
      exact Judged.bind_error (makes_await_of_some hset) (by simpa using hlost what)
    | none =>
      refine Judged.bind_silent (makes_await_of_none hset) <|
        Judged.bind_silent (makes_onGate _) (Judged.pure ?_)
      simpa using kept_returned h.1

/-- What follows a probe that has not succeeded is kept. -/
theorem judged_kept_afterwards (probe : ProbeResult)
    (hnot : ¬ (probe.protocol = .http11 ∧ probe.response.error = [])) :
    Judged World.attempts Kept True
      (if probe.protocol = .http11 ∧ probe.response.error = [] then pure probe.response
        else if probe.protocol = .h2 then do
          learnH2 env true
          requestH2 env request true false
        else requestH1 env request) := by
  rw [if_neg hnot]
  split
  · exact (judged_learnH2 kept_error (judged_kept_requestH2 true) true).congr (by simp)
  · exact judged_kept_requestH1

/-- Whatever an attempt that has succeeded on a probe of unknown protocol is followed by,
its response is lost. -/
theorem judged_lost_requestH1 {attempt : Attempt} {response : Response}
    (h : attempt.Succeeded response) :
    Judged World.attempts (fun rest r => Kept (attempt :: rest) r) False
      (requestH1 env request) := by
  cases hcancelled : env.cancelled .h1 with
  | some what =>
    refine Judged.bind_error (makes_await_of_some hcancelled) ?_
    rw [kept_cons_of_succeeded h]
    simp
  | none =>
    refine Judged.bind_silent (makes_await_of_none hcancelled) <|
      Judged.bind (makes_record _) (Judged.pure ?_)
    rw [kept_cons_of_succeeded h]
    simp

theorem judged_kept_afterProbe :
    Judged World.attempts Kept
      (env.cancelled .probe = none → probeProtocol env request = .ok .unknown →
        ∀ response, env.probeExchange.result = .ok response → response.error ≠ [])
      (afterProbe env request) := by
  refine judged_await kept_error ?_
  unfold probeRequest
  cases hprotocol : probeProtocol env request with
  | error what =>
    simp only [pure_bind]
    exact Judged.congr (judged_kept_afterwards { response := { error := what } } (by simp))
      (by simp)
  | ok protocol =>
    by_cases hh2 : protocol = .h2
    · simp only [hh2, if_true, pure_bind]
      exact Judged.congr (judged_kept_afterwards { protocol := .h2 } (by simp)) (by simp)
    · simp only [hh2, if_false, bind_assoc, pure_bind]
      refine Judged.bind (makes_record _) ?_
      simp only [List.cons_append, List.nil_append]
      by_cases hsuccess : ∃ response, env.probeExchange.result = .ok response ∧
          response.error = []
      · obtain ⟨response, hresult, herror⟩ := hsuccess
        have hsucceeded : (env.probeExchange.attempt .probe).Succeeded response :=
          ⟨attempt_response hresult, herror⟩
        simp only [probeResult, hresult, herror]
        cases protocol with
        | h2 => exact absurd rfl hh2
        | http11 =>
          simp only [and_self, if_true]
          exact Judged.pure (by simpa using kept_returned hsucceeded.1)
        | unknown =>
          refine (judged_lost_requestH1 hsucceeded).congr ⟨False.elim, fun h => ?_⟩
          exact h rfl response rfl herror
      · have hfailed : ∀ response, env.probeExchange.result = .ok response →
            response.error ≠ [] := fun response hresult herror =>
          hsuccess ⟨response, hresult, herror⟩
        simp only [kept_cons_of_failed (not_succeeded hfailed)]
        refine (judged_kept_afterwards _ ?_).congr ⟨fun _ _ => hfailed, fun _ => trivial⟩
        cases hresult : env.probeExchange.result with
        | ok response => simpa [probeResult, hresult] using fun _ => hfailed response hresult
        | error what => simp [probeResult, hresult]

theorem judged_kept_viaH2 (failed : Await) (update : OriginGate → OriginGate) :
    Judged World.attempts Kept (KeepsResponse env request failed)
      (viaH2 env request failed update) := by
  refine judged_viaH2 kept_error ?_ ?_ ?_ ?_
  · exact fun _ h => (kept_cons_of_failed (not_succeeded_of_error h)).mpr kept_nil
  · exact fun _ _ h herror =>
      (kept_cons_of_failed (not_succeeded_of_refused h herror)).mpr kept_nil
  · exact fun _ h herror => judged_kept_success ⟨attempt_response h, herror⟩
  · intro response h herror
    simp only [kept_cons_of_failed (not_succeeded_of_refused h herror)]
    exact judged_kept_afterProbe

theorem judged_kept_requestPreferH2 :
    Judged World.attempts Kept (KeepsResponse env request .markFailed)
      (requestPreferH2 env request) := by
  refine judged_ofOrigin kept_error (fun hnot => ?_) fun key _ =>
    Judged.bind_silent makes_getGate (judged_kept_viaH2 _ _)
  constructor
  · exact fun response ⟨⟨_, url, hurl⟩, _⟩ => absurd hurl (hnot url)
  · exact fun ⟨⟨response, ⟨⟨_, url, hurl⟩, _⟩, _⟩, _⟩ => absurd hurl (hnot url)

/-- A request that starts a detection, or that prefers HTTP/2, keeps every successful
response exactly if it is not cancelled after a success over HTTP/2 and no probe of
unknown protocol succeeds. -/
theorem kept_iff_keepsResponse (env : Env) (request : Request) (gate : OriginGate)
    (cached : Bool) :
    (Kept ((detect env request).outcome { gate, cached }).2.attempts
        ((detect env request).outcome { gate, cached }).1 ↔ KeepsResponse env request .setH1) ∧
      (Kept ((requestPreferH2 env request).outcome { gate, cached }).2.attempts
        ((requestPreferH2 env request).outcome { gate, cached }).1 ↔
          KeepsResponse env request .markFailed) :=
  ⟨judged_fresh (judged_kept_viaH2 _ _) gate cached,
    judged_fresh judged_kept_requestPreferH2 gate cached⟩

/-- The attempt over HTTP/2 is refused, and the probe's server negotiates no protocol. -/
def withoutAlpn : Env where
  h2 _ := { sent := false, result := .ok { error := str "refused" } }
  probeConnect := .ok []
  probeExchange := { sent := true, result := .ok { status := 200 } }
  h1 := { sent := true, response := { status := 200 } }

/-- The probe's response is dropped, and the request is sent again. -/
theorem response_dropped_without_alpn :
    ¬ ∀ (env : Env) (request : Request) (gate : OriginGate) (cached : Bool),
      Kept ((detect env request).outcome { gate, cached }).2.attempts
          ((detect env request).outcome { gate, cached }).1 ∧
        Kept ((requestPreferH2 env request).outcome { gate, cached }).2.attempts
          ((requestPreferH2 env request).outcome { gate, cached }).1 := by
  intro h
  have hkept := (h withoutAlpn { url := str "https://a/" } {} true).1
  have hlast := (hkept [(withoutAlpn.h2 false).attempt .h2]
    (withoutAlpn.probeExchange.attempt .probe) [withoutAlpn.h1.attempt] { status := 200 }
    rfl ⟨rfl, rfl⟩).1
  cases hlast

end HttpClient.Routing
