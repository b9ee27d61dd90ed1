import HttpClient.Routing.Attempts

/-!
# How often a request is sent

The routes that try HTTP/2 first may send a request up to three times: over HTTP/2, on the
probe's connection, and over what the probe found. The route that prefers HTTP/1.1 may
send it twice. Neither looks at whether the request may be sent again.

## Main definitions

* `sends` — how many attempts were sent
* `ProbeSends`, `LastSends` — the second and the third attempt are sent
* `SentOnce` — no two of them are sent, for each policy

## Main results

* `judged_once_viaH2`, `judged_once_requestPreferH1` — the routes of more attempts
* `sends_rawRequest_iff` — the raw requests that are sent at most once
-/

set_option autoImplicit false

namespace HttpClient.Routing

open Text Semantics Semantics.Call

/-- How many attempts were sent. -/
def sends (attempts : List Attempt) : Nat := attempts.countP Attempt.sent

/-- Nothing is sent twice, when `sent` tells whether something was sent before. -/
def Once {α : Type} (sent : Bool) (attempts : List Attempt) (_ : Except Bytes α) : Prop :=
  sent.toNat + sends attempts ≤ 1

variable {env : Env} {request : Request} {α : Type} {P : Prop} {sent : Bool}

theorem once_nil (result : Except Bytes α) : Once sent [] result := by
  cases sent with
  | true => exact Nat.le_refl 1
  | false => exact Nat.zero_le 1

theorem once_error (what : Bytes) : Once sent [] (.error what : Except Bytes α) := once_nil _

theorem once_cons {attempt : Attempt} {attempts : List Attempt} {result : Except Bytes α} :
    Once sent (attempt :: attempts) result ↔
      ¬ (sent = true ∧ attempt.sent = true) ∧ Once (sent || attempt.sent) attempts result := by
  unfold Once sends
  rw [List.countP_cons]
  cases sent <;> cases attempt.sent
  all_goals simp only [Bool.toNat_true, Bool.toNat_false, Bool.or_true, Bool.or_false,
    Bool.false_eq_true, if_true, if_false, and_true, and_false, not_true_eq_false,
    not_false_eq_true, true_and, false_and, iff_false]
  all_goals omega

/-! ### Single attempts -/

theorem judged_once_record {attempt : Attempt} {k : Unit → Step α}
    (hk : Judged World.attempts (Once (sent || attempt.sent)) P (k ())) :
    Judged World.attempts (Once sent) (¬ (sent = true ∧ attempt.sent = true) ∧ P)
      (record attempt >>= k) := by
  obtain ⟨new, r, hmakes, hgood⟩ := hk
  refine ⟨_, r, (makes_record attempt).bind hmakes, ?_⟩
  rw [List.singleton_append, once_cons, hgood]

/-- A last attempt. -/
theorem judged_once_of_makes {x : Step α} {attempt : Attempt} {result : Except Bytes α}
    (h : Makes World.attempts x [attempt] result) :
    Judged World.attempts (Once sent) (¬ (sent = true ∧ attempt.sent = true)) x := by
  refine ⟨_, result, h, ?_⟩
  rw [once_cons, and_iff_left (once_nil result)]

theorem judged_once_requestH1 :
    Judged World.attempts (Once sent)
      (env.cancelled .h1 = none → ¬ (sent = true ∧ (h1Delivery env request).sent = true))
      (requestH1 env request) := by
  rcases requestH1_cases env request with ⟨what, hcancelled, hmakes⟩ | ⟨hnone, hmakes⟩
  · refine ⟨_, _, hmakes, iff_of_true (once_error what) fun hnone => ?_⟩
    rw [hcancelled] at hnone
    cases hnone
  · exact (judged_once_of_makes hmakes).congr ⟨fun h _ => h, fun h => h hnone⟩

theorem judged_once_requestH2 (retry force : Bool) :
    Judged World.attempts (Once sent)
      (H2Reached env request retry → ¬ (sent = true ∧ (env.h2 retry).sent = true))
      (requestH2 env request retry force) := by
  rcases requestH2_cases env request retry force with ⟨hnot, what, hmakes⟩ |
    ⟨hreached, what, -, hmakes⟩ | ⟨hreached, response, -, hend⟩
  · exact ⟨_, _, hmakes, iff_of_true (once_error what) fun h => absurd h hnot⟩
  · exact (judged_once_of_makes hmakes).congr ⟨fun h _ => h, fun h => h hreached⟩
  · rcases hend with ⟨-, hmakes⟩ | ⟨-, what, hmakes⟩
    · exact (judged_once_of_makes hmakes).congr ⟨fun h _ => h, fun h => h hreached⟩
    · exact (judged_once_of_makes hmakes).congr ⟨fun h _ => h, fun h => h hreached⟩

/-! ### The probe and what follows -/

/-- The probe gets a connection that is not HTTP/2, and sends the request on it. -/
def ProbeSends (env : Env) (request : Request) : Prop :=
  ∃ protocol, probeProtocol env request = .ok protocol ∧ protocol ≠ .h2 ∧
    env.probeExchange.sent = true

/-- The response of the probe is adopted. -/
def Adopted (env : Env) (request : Request) : Prop :=
  probeProtocol env request = .ok .http11 ∧
    ∃ response, env.probeExchange.result = .ok response ∧ response.error = []

/-- What follows the probe sends the request: over HTTP/2 if the probe has found it, over
HTTP/1.1 if the probe's response is not adopted. -/
def LastSends (env : Env) (request : Request) : Prop :=
  if probeProtocol env request = .ok .h2 then
    env.cancelled (.recordH2 true) = none ∧ env.cancelled (.setH2 true) = none ∧
      H2Reached env request true ∧ (env.h2 true).sent = true
  else ¬ Adopted env request ∧ env.cancelled .h1 = none ∧ (h1Delivery env request).sent = true

theorem adopted_iff {protocol : ProbeProtocol} (h : probeProtocol env request = .ok protocol) :
    (probeResult env protocol).protocol = .http11 ∧ (probeResult env protocol).response.error = [] ↔
      Adopted env request := by
  unfold probeResult Adopted
  rw [h]
  cases env.probeExchange.result with
  | ok response => simp
  | error what => simp

theorem probeResult_protocol_ne {protocol : ProbeProtocol} (h : protocol ≠ .h2) :
    (probeResult env protocol).protocol ≠ .h2 := by
  unfold probeResult
  cases env.probeExchange.result with
  | ok response => exact h
  | error what => exact fun h => (by cases h)

/-- After a probe that was sent, the request is sent over HTTP/1.1 if it is not adopted. -/
theorem judged_once_afterwards {protocol : ProbeProtocol}
    (hprotocol : probeProtocol env request = .ok protocol) (hne : protocol ≠ .h2) :
    Judged World.attempts (Once sent)
      (¬ Adopted env request → env.cancelled .h1 = none →
        ¬ (sent = true ∧ (h1Delivery env request).sent = true))
      (if (probeResult env protocol).protocol = .http11 ∧
          (probeResult env protocol).response.error = [] then
        pure (probeResult env protocol).response
      else if (probeResult env protocol).protocol = .h2 then do
        learnH2 env true
        requestH2 env request true false
      else requestH1 env request) := by
  rw [if_neg (probeResult_protocol_ne hne)]
  by_cases hadopted : Adopted env request
  · rw [if_pos ((adopted_iff hprotocol).mpr hadopted)]
    exact Judged.pure (iff_of_true (once_nil _) fun h => absurd hadopted h)
  · rw [if_neg fun h => hadopted ((adopted_iff hprotocol).mp h)]
    exact judged_once_requestH1.congr ⟨fun h _ => h, fun h => h hadopted⟩

theorem judged_once_afterProbe :
    Judged World.attempts (Once sent)
      (env.cancelled .probe = none → ¬ (sent = true ∧ ProbeSends env request) ∧
        ¬ (sent = true ∧ LastSends env request) ∧
        ¬ (ProbeSends env request ∧ LastSends env request))
      (afterProbe env request) := by
  refine judged_await once_error ?_
  unfold probeRequest
  cases hprotocol : probeProtocol env request with
  | error what =>
    have hadopted : ¬ Adopted env request := fun h => by rw [Adopted, hprotocol] at h; cases h.1
    have hprobe : ¬ ProbeSends env request := by
      rintro ⟨protocol, h, -⟩
      rw [hprotocol] at h
      cases h
    have hlast : LastSends env request ↔
        env.cancelled .h1 = none ∧ (h1Delivery env request).sent = true := by
      simp [LastSends, hprotocol, hadopted]
    refine Judged.congr judged_once_requestH1 ?_
    rw [hlast]
    grind
  | ok protocol =>
    by_cases hh2 : protocol = .h2
    · have hprobe : ¬ ProbeSends env request := by
        rintro ⟨other, h, hne, -⟩
        rw [hprotocol, hh2] at h
        cases h
        exact hne rfl
      have hlast : LastSends env request ↔ env.cancelled (.recordH2 true) = none ∧
          env.cancelled (.setH2 true) = none ∧ H2Reached env request true ∧
            (env.h2 true).sent = true := by
        simp [LastSends, hprotocol, hh2]
      simp only [hh2, if_true, pure_bind]
      refine Judged.congr (judged_learnH2 once_error (judged_once_requestH2 true false) true) ?_
      rw [hlast]
      grind
    · have hprobe : ProbeSends env request ↔ env.probeExchange.sent = true := by
        refine ⟨fun ⟨_, _, _, hsent⟩ => hsent, fun hsent => ⟨protocol, hprotocol, hh2, hsent⟩⟩
      have hlast : LastSends env request ↔ ¬ Adopted env request ∧ env.cancelled .h1 = none ∧
          (h1Delivery env request).sent = true := by
        simp [LastSends, hprotocol, hh2]
      simp only [hh2, if_false, bind_assoc, pure_bind]
      refine Judged.congr (judged_once_record (judged_once_afterwards hprotocol hh2)) ?_
      rw [hlast, hprobe, Bool.or_eq_true]
      simp only [Outcome.attempt]
      grind

/-! ### The routes -/

/-- No two of the attempts of a request that tries HTTP/2 first are sent. -/
def ViaH2Once (env : Env) (request : Request) (failed : Await) : Prop :=
  Probed env request failed →
    ¬ ((env.h2 false).sent = true ∧ ProbeSends env request) ∧
    ¬ ((env.h2 false).sent = true ∧ LastSends env request) ∧
    ¬ (ProbeSends env request ∧ LastSends env request)

theorem judged_once_viaH2 (failed : Await) (update : OriginGate → OriginGate) :
    Judged World.attempts (Once false) (ViaH2Once env request failed)
      (viaH2 env request failed update) := by
  have hcons : ∀ (rest : List Attempt) (r : Except Bytes Response),
      Once false ((env.h2 false).attempt .h2 :: rest) r ↔ Once (env.h2 false).sent rest r := by
    intro rest r
    rw [once_cons]
    simp [Outcome.attempt]
  have hone : ∀ what, Once false [(env.h2 false).attempt .h2]
      (.error what : Except Bytes Response) := fun what => (hcons [] _).mpr (once_nil _)
  refine Judged.congr (judged_viaH2 once_error (fun what _ => hone what)
    (fun _ what _ _ => hone what) ?_ ?_) ⟨fun h => h.2, fun h => ⟨fun _ _ _ => trivial, h⟩⟩
  · intro response _ _
    simp only [hcons]
    have hreturn : Judged World.attempts (Once (env.h2 false).sent) True
        (pure response : Step Response) := Judged.pure (iff_of_true (once_nil _) trivial)
    exact Judged.congr (judged_learnH2 once_error hreturn false) (by simp)
  · intro response _ _
    simp only [hcons]
    exact judged_once_afterProbe

theorem judged_once_requestPreferH2 :
    Judged World.attempts (Once false) (ViaH2Once env request .markFailed)
      (requestPreferH2 env request) := by
  refine judged_ofOrigin once_error (fun hnot => ?_) fun key _ =>
    Judged.bind_silent makes_getGate (judged_once_viaH2 _ _)
  exact fun ⟨⟨response, ⟨⟨_, url, hurl⟩, _⟩, _⟩, _⟩ => absurd hurl (hnot url)

/-- The attempts over HTTP/1.1 and, after an error, over HTTP/2 are not both sent. -/
def PreferH1Once (env : Env) (request : Request) : Prop :=
  env.cancelled .h1 = none → (h1Delivery env request).response.error ≠ [] →
    H2Reached env request false →
      ¬ ((h1Delivery env request).sent = true ∧ (env.h2 false).sent = true)

theorem judged_once_requestPreferH1 :
    Judged World.attempts (Once false) (PreferH1Once env request)
      (requestPreferH1 env request) := by
  refine judged_ofOrigin once_error (fun hnot => ?_) fun key _ => ?_
  · exact fun _ _ ⟨_, url, hurl⟩ => absurd hurl (hnot url)
  · have hcons : ∀ (rest : List Attempt) (r : Except Bytes Response),
        Once false ((h1Delivery env request).attempt :: rest) r ↔
          Once (h1Delivery env request).sent rest r := by
      intro rest r
      rw [once_cons]
      simp [Delivery.attempt]
    rcases requestH1_cases env request with ⟨what, hcancelled, hmakes⟩ | ⟨hnone, hmakes⟩
    · refine Judged.bind_error hmakes (iff_of_true (once_error what) fun hnone => ?_)
      rw [hcancelled] at hnone
      cases hnone
    · refine Judged.bind hmakes ?_
      simp only [List.singleton_append, hcons]
      by_cases herror : (h1Delivery env request).response.error = []
      · rw [if_pos herror]
        have hreturn : Judged World.attempts (Once (h1Delivery env request).sent) True
            (pure (h1Delivery env request).response : Step Response) :=
          Judged.pure (iff_of_true (once_nil _) trivial)
        refine Judged.congr (Judged.bind_silent makes_getGate <| judged_await once_error <|
          Judged.bind_silent (makes_onGate _) hreturn) ?_
        exact iff_of_true (fun _ => trivial) fun _ h => absurd herror h
      · rw [if_neg herror]
        exact (judged_once_requestH2 false false).congr
          ⟨fun h _ _ hreached => h hreached, fun h hreached => h hnone herror hreached⟩

/-! ### Raw requests -/

/-- The round that starts a detection, if there is one, tries HTTP/2 first. -/
def AutoOnce : List Env → Request → World → Prop
  | [], _, _ => True
  | env :: rounds, request, world =>
    match (chooseRoute env request).outcome world with
    | (.ok .detect, _) => ViaH2Once env request .setH1
    | (.ok .again, after) => AutoOnce rounds request after
    | _ => True

/-- Whether a raw request is sent at most once, for each policy. -/
def SentOnce (rounds : List Env) (request : Request) (world : World) : Prop :=
  match rounds with
  | [] => True
  | env :: _ =>
    match routePolicy request with
    | .forceH1 | .forceH2 => True
    | .preferH1 => PreferH1Once env request
    | .preferH2 => ViaH2Once env request .markFailed
    | .auto => AutoOnce rounds request world

variable {world : World}

theorem sends_iff {x : Step α} (h : Judged World.attempts (Once false) P x)
    (hworld : world.attempts = []) : sends (x.outcome world).2.attempts ≤ 1 ↔ P := by
  rw [← h.iff world, hworld]
  simp [Once]

theorem keeps_silent_await (point : Await) :
    Keeps (fun world => world.attempts = []) (await env point) := by
  intro world hworld
  cases hcancelled : env.cancelled point with
  | none => rw [await_of_none hcancelled, attempts_events, hworld]
  | some what => rw [await_of_some hcancelled, attempts_events, hworld]

/-- Nothing is attempted while the route is chosen. -/
theorem keeps_silent_chooseRoute :
    Keeps (fun world => world.attempts = []) (chooseRoute env request) := by
  have hdetection : ∀ waiter,
      Keeps (fun world => world.attempts = []) (awaitDetection env waiter) := by
    refine fun waiter => (keeps_silent_await _).bind fun _ => Keeps.get.bind fun _ => ?_
    split
    · exact (keeps_silent_await _).bind fun _ => Keeps.pure _
    · exact Keeps.pure _
  have hfollow : ∀ decision,
      Keeps (fun world => world.attempts = []) (followDecision env decision) := by
    intro decision
    unfold followDecision
    split
    case h_2 =>
      split
      · exact (keeps_silent_await _).bind fun _ => Keeps.pure _
      · exact Keeps.pure _
    case h_3 => exact hdetection _
    all_goals exact Keeps.pure _
  have hask : Keeps (fun world => world.attempts = []) (askGate env) := by
    refine Keeps.bind (Keeps.modify fun world hworld => ?_) fun _ =>
      (keeps_silent_await _).bind fun _ => Keeps.bind (fun _ hworld => hworld) hfollow
    split
    · exact hworld
    · exact hworld
  have hremembered : Keeps (fun world => world.attempts = []) (rememberedRoute env) := by
    unfold rememberedRoute
    split
    case h_3 => exact hask
    all_goals exact Keeps.pure _
  unfold chooseRoute
  split
  case h_3 => exact hremembered
  case h_4 => exact (Keeps.ofExcept _).bind fun _ => hremembered
  all_goals exact Keeps.pure _

theorem sends_requestAuto_iff (rounds : List Env) (request : Request)
    (hworld : world.attempts = []) :
    sends ((requestAuto rounds request).outcome world).2.attempts ≤ 1 ↔
      AutoOnce rounds request world := by
  induction rounds generalizing world with
  | nil =>
    refine iff_of_true ?_ trivial
    simp [requestAuto, hworld, sends]
  | cons env rounds ih =>
    -- choosing a route sends nothing, so the attempts are those of the route
    have hsilent : ((chooseRoute env request).outcome world).2.attempts = [] :=
      keeps_silent_chooseRoute world hworld
    unfold AutoOnce requestAuto
    cases hroute : (chooseRoute env request).outcome world with
    | mk result after =>
      rw [hroute] at hsilent
      cases result with
      | error what =>
        have hnone : after.attempts = [] := hsilent
        rw [outcome_bind_error hroute]
        exact iff_of_true (by simp [hnone, sends]) trivial
      | ok route =>
        rw [outcome_bind_ok hroute]
        cases route with
        | again => exact ih hsilent
        | h1 =>
          rw [if_neg (by decide), follow, outcome_map_snd]
          exact sends_iff (judged_once_requestH1.congr (by simp)) hsilent
        | h2 =>
          rw [if_neg (by decide), follow, outcome_map_snd]
          exact sends_iff ((judged_once_requestH2 false false).congr (by simp)) hsilent
        | detect =>
          rw [if_neg (by decide), follow, outcome_map_snd]
          exact sends_iff (judged_once_viaH2 _ _) hsilent

theorem rawRequest_snd (rounds : List Env) (request : Request) (world : World) :
    (rawRequest rounds request world).2 = ((dispatch rounds request).outcome world).2 := by
  unfold rawRequest
  split
  case h_1 _ _ hout => rw [hout]
  case h_2 _ _ hout => rw [hout]

/-- A raw request is sent at most once exactly if no two of the attempts of its route
are. -/
theorem sends_rawRequest_iff (rounds : List Env) (request : Request)
    (hworld : world.attempts = []) :
    sends (rawRequest rounds request world).2.attempts ≤ 1 ↔ SentOnce rounds request world := by
  rw [rawRequest_snd]
  cases rounds with
  | nil => exact iff_of_true (by simp [dispatch, hworld, sends]) trivial
  | cons env rounds =>
    cases hpolicy : routePolicy request with
    | forceH1 =>
      simp only [SentOnce, dispatch, hpolicy, outcome_map_snd]
      exact sends_iff (judged_once_requestH1.congr (by simp)) hworld
    | forceH2 =>
      simp only [SentOnce, dispatch, hpolicy, outcome_map_snd]
      exact sends_iff ((judged_once_requestH2 false true).congr (by simp)) hworld
    | preferH1 =>
      simp only [SentOnce, dispatch, hpolicy, outcome_map_snd]
      exact sends_iff judged_once_requestPreferH1 hworld
    | preferH2 =>
      simp only [SentOnce, dispatch, hpolicy, outcome_map_snd]
      exact sends_iff judged_once_requestPreferH2 hworld
    | auto =>
      simp only [SentOnce, dispatch, hpolicy]
      exact sends_requestAuto_iff (env :: rounds) request hworld

end HttpClient.Routing
