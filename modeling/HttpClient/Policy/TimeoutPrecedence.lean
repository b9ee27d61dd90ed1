import HttpClient.Policy.Hops

/-!
# Whose timeout counts

A request and the client each have a timeout for every phase, and one for the whole. Completing
a request takes all of the client's timeouts if the request has no total and the client has one,
and none of them otherwise; afterwards each phase takes its own value, else the total. So a phase
that the request has set is overruled by a client with a total, and a phase that only the client
has set is lost without one.

## Main definitions

* `TimeoutPhase` — the phases with a timeout of their own
* `Precedence` — whose value a phase should have
* `Fieldwise` — taking all the timeouts or none comes to the same for the phase

## Main results

* `applyDefaults_timeouts` — the timeouts of a completed request
* `precedence_iff` — the phases whose value is right
* `connect_overruled` — a connect timeout that the client's total overrules
-/

set_option autoImplicit false

namespace HttpClient.Policy

open Text

inductive TimeoutPhase where
  | connect
  | read
  | write
  | pool
  deriving DecidableEq, Repr

def TimeoutPhase.field : TimeoutPhase → Timeout → Int
  | connect => Timeout.connectMs
  | read => Timeout.readMs
  | write => Timeout.writeMs
  | pool => Timeout.poolMs

/-- Whose value a phase should have. Negative fields are not set. -/
structure Precedence (request : Request) (client : Timeout) (phase : TimeoutPhase)
    (value : Int) : Prop where
  requested : 0 ≤ phase.field request.timeout → value = phase.field request.timeout
  inherited : phase.field request.timeout < 0 → request.timeout.totalMs < 0 →
    0 ≤ phase.field client → value = phase.field client
  negative : value < 0 → phase.field request.timeout < 0 ∧ request.timeout.totalMs < 0 ∧
    request.timeoutMs < 0 ∧ phase.field client < 0 ∧ client.totalMs < 0

/-- A request without a total leaves the phase to a client that has one, or names its value;
where neither has a total the client says nothing of the phase, or what holds anyway. -/
def Fieldwise (request : Request) (client : Timeout) (phase : TimeoutPhase) : Prop :=
  request.timeout.totalMs < 0 →
    if 0 ≤ client.totalMs then
      phase.field request.timeout < 0 ∨
        phase.field request.timeout =
          if 0 ≤ phase.field client then phase.field client else client.totalMs
    else
      0 ≤ phase.field request.timeout ∨ phase.field client < 0 ∨
        request.timeoutMs = phase.field client

instance (request : Request) (client : Timeout) (phase : TimeoutPhase) :
    Decidable (Fieldwise request client phase) := by
  unfold Fieldwise
  infer_instance

/-- Hooks that leave the timeouts alone. -/
def KeepTimeouts (hooks : List (Request → Except Bytes Request)) : Prop :=
  ∀ hook ∈ hooks, ∀ request hooked, hook request = .ok hooked →
    hooked.timeout = request.timeout ∧ hooked.timeoutMs = request.timeoutMs

/-! ### The timeouts of a completed request -/

variable {options : PolicyOptions} {getenv : Bytes → Option Bytes} {request completed : Request}

theorem applySettings_timeouts (options : PolicyOptions) (request : Request) (url : Bytes) :
    (applySettings options request url).timeout = (applyTimeout options request).timeout ∧
      (applySettings options request url).timeoutMs =
        (applyTimeout options request).timeoutMs := by
  have hurl : (applyTimeout options { request with url }).timeout =
        (applyTimeout options request).timeout ∧
      (applyTimeout options { request with url }).timeoutMs =
        (applyTimeout options request).timeoutMs := by
    rw [applyTimeout, applyTimeout]
    dsimp only
    split
    · exact ⟨rfl, rfl⟩
    · split
      · exact ⟨rfl, rfl⟩
      · exact ⟨rfl, rfl⟩
  have hauto : (applyAutoDecompress options (applyTimeout options { request with url })).timeout =
        (applyTimeout options request).timeout ∧
      (applyAutoDecompress options (applyTimeout options { request with url })).timeoutMs =
        (applyTimeout options request).timeoutMs := by
    rw [applyAutoDecompress]
    split
    · exact hurl
    · exact hurl
  obtain ⟨headers, hheaders⟩ := defaultHeaders_eq options.defaultHeaders
    (applyAutoDecompress options (applyTimeout options { request with url }))
  rw [applySettings]
  simp only [hheaders]
  rw [applyAcceptEncoding]
  split
  · exact hauto
  · exact hauto

/-- What follows the timeouts leaves them alone, if the hooks do. -/
theorem applyDefaults_timeouts (hhooks : KeepTimeouts options.requestHooks)
    (h : applyDefaults options getenv request = .ok completed) :
    completed.timeout = (applyTimeout options request).timeout ∧
      completed.timeoutMs = (applyTimeout options request).timeoutMs := by
  rw [applyDefaults_eq] at h
  cases hurl : resolveBaseUrl options.baseUrl request.url with
  | error what =>
    rw [hurl] at h
    cases h
  | ok url =>
    rw [hurl, Except.bind] at h
    cases hproxy : applyProxy options getenv (applySettings options request url) with
    | error what =>
      rw [hproxy] at h
      cases h
    | ok proxied =>
      rw [hproxy, Except.bind] at h
      obtain ⟨proxy, proxyOverride, rfl⟩ := applyProxy_ok hproxy
      refine foldlM_hooks (P := fun current : Request =>
        current.timeout = (applyTimeout options request).timeout ∧
          current.timeoutMs = (applyTimeout options request).timeoutMs) ?_ ?_ h
      rotate_left
      · exact applySettings_timeouts options request url
      intro hook hhook a b hab ha
      obtain ⟨htimeout, htimeoutMs⟩ := hhooks hook hhook a b hab
      exact ⟨htimeout.trans ha.1, htimeoutMs.trans ha.2⟩

/-- What a phase takes after the client's timeouts have been applied. -/
theorem effectiveTimeout_applyTimeout (options : PolicyOptions) (request : Request)
    (phase : TimeoutPhase) :
    (applyTimeout options request).effectiveTimeout phase.field =
      if request.timeout.totalMs < 0 ∧ 0 ≤ options.timeout.totalMs then
        if 0 ≤ phase.field options.timeout then phase.field options.timeout
        else options.timeout.totalMs
      else if 0 ≤ phase.field request.timeout then phase.field request.timeout
      else if 0 ≤ request.timeout.totalMs then request.timeout.totalMs
      else request.timeoutMs := by
  rw [applyTimeout]
  by_cases htaken : request.timeout.totalMs < 0 ∧ 0 ≤ options.timeout.totalMs
  · -- all of the client's timeouts
    rw [if_pos htaken, if_pos htaken, Request.effectiveTimeout]
    dsimp only
    split_ifs <;> omega
  · rw [if_neg htaken, if_neg htaken]
    by_cases htotal : 0 ≤ request.timeout.totalMs
    · rw [if_pos htotal, Request.effectiveTimeout]
      dsimp only
      split_ifs <;> omega
    · rw [if_neg htotal, Request.effectiveTimeout]
      split_ifs <;> omega

/-! ### The value of a phase -/

/-- A phase has the right value exactly if taking all of the client's timeouts, or none, comes to
the same for it. -/
theorem precedence_iff (hhooks : KeepTimeouts options.requestHooks)
    (hcompleted : applyDefaults options getenv request = .ok completed) (phase : TimeoutPhase) :
    Precedence request options.timeout phase (completed.effectiveTimeout phase.field) ↔
      Fieldwise request options.timeout phase := by
  obtain ⟨htimeout, htimeoutMs⟩ := applyDefaults_timeouts hhooks hcompleted
  have hvalue : completed.effectiveTimeout phase.field =
      (applyTimeout options request).effectiveTimeout phase.field := by
    rw [Request.effectiveTimeout, Request.effectiveTimeout, htimeout, htimeoutMs]
  rw [hvalue, effectiveTimeout_applyTimeout, Fieldwise]
  constructor
  · rintro ⟨hrequested, hinherited, hnegative⟩ htotal
    split_ifs at hrequested hinherited hnegative ⊢ <;> omega
  · intro hfieldwise
    by_cases htotal : request.timeout.totalMs < 0
    · have hcases := hfieldwise htotal
      constructor
      · intro hown
        split_ifs at hcases ⊢ <;> omega
      · intro hown _ hclient
        split_ifs at hcases ⊢ <;> omega
      · intro hvalue
        split_ifs at hcases hvalue <;> omega
    · -- the request has a total, and nothing of the client counts
      rw [if_neg fun h => htotal h.1]
      constructor
      · exact fun hown => if_pos hown
      · exact fun _ h => absurd h htotal
      · intro hvalue
        split_ifs at hvalue <;> omega

/-- A request with a total of its own. -/
def ownTotal : Request :=
  { url := str "http://h/", timeout := { totalMs := 2000, connectMs := 500 } }

theorem precedence_iff_ownTotal :
    Precedence ownTotal { totalMs := 5000, connectMs := 100 } .connect 500 := by
  have hcompleted : applyDefaults { timeout := { totalMs := 5000, connectMs := 100 } }
      (fun _ => none) ownTotal =
        .ok { ownTotal with timeoutMs := 2000 } := by decide +kernel
  exact (precedence_iff (fun _ h => absurd h List.not_mem_nil) hcompleted .connect).mpr
    (by decide)

/-- The client's total overrules a connect timeout of the request. -/
theorem connect_overruled :
    ∃ completed, applyDefaults { timeout := { totalMs := 5000 } } (fun _ => none)
        { url := str "http://h/", timeout := { connectMs := 500 } } = .ok completed ∧
      completed.effectiveTimeout TimeoutPhase.connect.field = 5000 ∧
      ¬ Precedence { url := str "http://h/", timeout := { connectMs := 500 } } { totalMs := 5000 }
        .connect (completed.effectiveTimeout TimeoutPhase.connect.field) := by
  refine ⟨{ url := str "http://h/", timeout := { totalMs := 5000 }, timeoutMs := 5000 },
    by decide +kernel, by decide, fun h => ?_⟩
  exact absurd (h.requested (by decide)) (by decide)

end HttpClient.Policy
