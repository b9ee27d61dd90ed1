import HttpClient.Routing.KeptResponse
import HttpClient.Routing.SentOnce

/-!
# The last attempt answers

Whatever the routes do with the responses of earlier attempts, what they return is the response
of the last attempt they have made. An exception is turned into an error response of its own.

## Main definitions

* `FromLast` — what is returned is the response of the last attempt
* `Texts` — the exceptions have a text

## Main results

* `rawRequest_fromLast` — a response without an error is that of the last attempt
-/

set_option autoImplicit false

namespace HttpClient.Routing

open Text Semantics Semantics.Call

/-- What is returned is the response of the last attempt. -/
def FromLast (attempts : List Attempt) (result : Except Bytes Response) : Prop :=
  ∀ response, result = .ok response →
    ∃ attempt, attempts.getLast? = some attempt ∧ attempt.response = some response

variable {env : Env} {request : Request} {attempt : Attempt} {attempts : List Attempt}
variable {result : Except Bytes Response} {response : Response} {world : World}

/-! ### Lists of attempts -/

theorem fromLast_error (attempts : List Attempt) (what : Bytes) :
    FromLast attempts (.error what) := by
  intro response h
  cases h

theorem fromLast_singleton (h : attempt.response = some response) :
    FromLast [attempt] (.ok response) := by
  intro other hother
  obtain rfl := Except.ok.inj hother
  exact ⟨attempt, rfl, h⟩

theorem FromLast.cons (h : FromLast attempts result) : FromLast (attempt :: attempts) result := by
  intro response hresponse
  obtain ⟨last, hlast, hanswer⟩ := h response hresponse
  exact ⟨last, by rw [List.getLast?_cons, hlast]; rfl, hanswer⟩

/-- An attempt that came before does not matter. -/
theorem judged_last_after {x : Step Response} (h : Judged World.attempts FromLast True x) :
    Judged World.attempts (fun rest r => FromLast (attempt :: rest) r) True x := by
  obtain ⟨new, r, hmakes, hlast⟩ := h
  exact ⟨new, r, hmakes, iff_of_true (hlast.mpr trivial).cons trivial⟩

/-! ### The parts of a call -/

theorem judged_last_requestH1 : Judged World.attempts FromLast True (requestH1 env request) := by
  rcases requestH1_cases env request with ⟨what, -, hmakes⟩ | ⟨-, hmakes⟩
  · exact ⟨_, _, hmakes, iff_of_true (fromLast_error _ what) trivial⟩
  · exact ⟨_, _, hmakes, iff_of_true (fromLast_singleton rfl) trivial⟩

theorem judged_last_requestH2 (retry force : Bool) :
    Judged World.attempts FromLast True (requestH2 env request retry force) := by
  rcases requestH2_cases env request retry force with ⟨-, what, hmakes⟩ |
    ⟨-, what, -, hmakes⟩ | ⟨-, response, hresult, ⟨-, hmakes⟩ | ⟨-, what, hmakes⟩⟩
  · exact ⟨_, _, hmakes, iff_of_true (fromLast_error _ what) trivial⟩
  · exact ⟨_, _, hmakes, iff_of_true (fromLast_error _ what) trivial⟩
  · exact ⟨_, _, hmakes, iff_of_true (fromLast_singleton (attempt_response hresult)) trivial⟩
  · exact ⟨_, _, hmakes, iff_of_true (fromLast_error _ what) trivial⟩

/-- What follows a probe that is not adopted. -/
theorem judged_last_afterwards (protocol : ProbeProtocol) :
    Judged World.attempts FromLast True
      (if protocol = .h2 then do
          learnH2 env true
          requestH2 env request true false
        else requestH1 env request) := by
  split
  · refine (judged_learnH2 (fromLast_error _) (judged_last_requestH2 true false) true).congr ?_
    exact iff_of_true (fun _ _ => trivial) trivial
  · exact judged_last_requestH1

theorem judged_last_afterProbe : Judged World.attempts FromLast True (afterProbe env request) := by
  refine Judged.congr (judged_await (P := True) (fromLast_error _) ?_)
    (iff_of_true (fun _ => trivial) trivial)
  unfold probeRequest
  cases hprotocol : probeProtocol env request with
  | error what =>
    rw [pure_bind, if_neg fun h => nomatch h.1]
    exact judged_last_afterwards _
  | ok protocol =>
    dsimp only
    by_cases hh2 : protocol = .h2
    · subst hh2
      rw [if_pos rfl, pure_bind, if_neg fun h => nomatch h.1]
      exact judged_last_afterwards .h2
    · rw [if_neg hh2, bind_assoc]
      refine Judged.bind (makes_record _) ?_
      rw [pure_bind]
      split
      · rename_i hadopted
        -- only the response of the probe itself is adopted
        cases hresult : env.probeExchange.result with
        | error what =>
          simp only [probeResult, hresult] at hadopted
          cases hadopted.1
        | ok response =>
          refine Judged.pure (iff_of_true ?_ trivial)
          simpa [probeResult, hresult] using fromLast_singleton (attempt_response hresult)
      · exact judged_last_after (judged_last_afterwards _)

theorem judged_last_viaH2 (failed : Await) (update : OriginGate → OriginGate) :
    Judged World.attempts FromLast True (viaH2 env request failed update) := by
  refine Judged.congr (judged_viaH2 (S := True) (A := True) (fromLast_error _)
    (fun what _ => fromLast_error _ what) (fun _ what _ _ => fromLast_error _ what) ?_ ?_)
    (iff_of_true ⟨fun _ _ _ => trivial, fun _ => trivial⟩ trivial)
  · intro response hresult _
    have hreturn : Judged World.attempts
        (fun rest r => FromLast ((env.h2 false).attempt .h2 :: rest) r) True
        (pure response : Step Response) :=
      Judged.pure (iff_of_true (fromLast_singleton (attempt_response hresult)) trivial)
    refine (judged_learnH2 ?_ hreturn false).congr (iff_of_true (fun _ _ => trivial) trivial)
    exact fromLast_error _
  · intro response _ _
    exact (judged_last_after judged_last_afterProbe).congr
      (iff_of_true trivial fun _ => trivial)

theorem judged_last_requestPreferH2 :
    Judged World.attempts FromLast True (requestPreferH2 env request) :=
  judged_ofOrigin (fromLast_error _) (fun _ => trivial) fun _ _ =>
    Judged.bind_silent makes_getGate (judged_last_viaH2 _ _)

theorem judged_last_requestPreferH1 :
    Judged World.attempts FromLast True (requestPreferH1 env request) := by
  refine judged_ofOrigin (fromLast_error _) (fun _ => trivial) fun _ _ => ?_
  rcases requestH1_cases env request with ⟨what, -, hmakes⟩ | ⟨-, hmakes⟩
  · exact Judged.bind_error hmakes (iff_of_true (fromLast_error _ what) trivial)
  · refine Judged.bind hmakes ?_
    split
    · have hreturn : Judged World.attempts
          (fun rest r => FromLast ((h1Delivery env request).attempt :: rest) r) True
          (pure (h1Delivery env request).response : Step Response) :=
        Judged.pure (iff_of_true (fromLast_singleton rfl) trivial)
      refine Judged.congr (Judged.bind_silent makes_getGate <|
        judged_await (fun what => fromLast_error _ what) <|
        Judged.bind_silent (makes_onGate _) hreturn) ?_
      exact iff_of_true (fun _ => trivial) trivial
    · exact judged_last_after (judged_last_requestH2 false false)

/-! ### Raw requests -/

/-- What ends a call, if it ends in this round. -/
def EndsFromLast (ended : Except Bytes (Option Response)) (attempts : List Attempt) : Prop :=
  ∀ response, ended = .ok (some response) → FromLast attempts (.ok response)

theorem endsFromLast_some {x : Step Response} (h : Judged World.attempts FromLast True x)
    (hworld : world.attempts = []) :
    EndsFromLast ((some <$> x).outcome world).1 ((some <$> x).outcome world).2.attempts := by
  intro response hresponse
  obtain ⟨new, hnew, hlast⟩ := (h.iff world).mpr trivial
  rw [outcome_map_snd, hnew, hworld, List.nil_append]
  rw [outcome_map_fst] at hresponse
  cases hresult : (x.outcome world).1 with
  | error what =>
    rw [hresult] at hresponse
    cases hresponse
  | ok other =>
    rw [hresult] at hresponse hlast
    cases hresponse
    exact hlast

theorem endsFromLast_requestAuto (rounds : List Env) (hworld : world.attempts = []) :
    EndsFromLast ((requestAuto rounds request).outcome world).1
      ((requestAuto rounds request).outcome world).2.attempts := by
  induction rounds generalizing world with
  | nil =>
    intro response h
    cases h
  | cons env rounds ih =>
    have hsilent : ((chooseRoute env request).outcome world).2.attempts = [] :=
      keeps_silent_chooseRoute world hworld
    rw [requestAuto]
    cases hroute : (chooseRoute env request).outcome world with
    | mk result after =>
      rw [hroute] at hsilent
      cases result with
      | error what =>
        rw [outcome_bind_error hroute]
        intro response h
        cases h
      | ok route =>
        rw [outcome_bind_ok hroute]
        cases route with
        | again => exact ih hsilent
        | h1 => exact endsFromLast_some judged_last_requestH1 hsilent
        | h2 => exact endsFromLast_some (judged_last_requestH2 false false) hsilent
        | detect => exact endsFromLast_some (judged_last_viaH2 _ _) hsilent

theorem endsFromLast_dispatch (rounds : List Env) (request : Request)
    (hworld : world.attempts = []) :
    EndsFromLast ((dispatch rounds request).outcome world).1
      ((dispatch rounds request).outcome world).2.attempts := by
  cases rounds with
  | nil =>
    intro response h
    cases h
  | cons env rounds =>
    rw [dispatch]
    cases routePolicy request with
    | forceH1 => exact endsFromLast_some judged_last_requestH1 hworld
    | forceH2 => exact endsFromLast_some (judged_last_requestH2 false true) hworld
    | preferH1 => exact endsFromLast_some judged_last_requestPreferH1 hworld
    | preferH2 => exact endsFromLast_some judged_last_requestPreferH2 hworld
    | auto => exact endsFromLast_requestAuto (env :: rounds) hworld

/-! ### Exceptions have a text -/

/-- The exceptions that a raw request meets have a text. -/
structure Texts (env : Env) : Prop where
  cancelled : ∀ point what, env.cancelled point = some what → what ≠ []
  h2 : ∀ retry what, (env.h2 retry).result = .error what → what ≠ []

/-- What a part of a raw request throws has a text. -/
abbrev Texted {α : Type} (x : Step α) : Prop :=
  Ensures (fun _ => True) (fun _ => True) (fun what => what ≠ []) x

theorem texted_modify (update : World → World) : Texted (modify update) :=
  Ensures.modify fun _ _ => trivial

theorem texted_await (h : Texts env) (point : Await) : Texted (await env point) := by
  refine (texted_modify _).bind fun _ _ => ?_
  cases hcancelled : env.cancelled point with
  | none => exact Ensures.pure trivial
  | some what => exact Ensures.throw (h.cancelled point what hcancelled)

theorem originKey_error {url what : Bytes} (h : Policy.originKey url = .error what) :
    what ≠ [] := by
  rw [Policy.originKey, Policy.parseUrl] at h
  cases hsplit : splitUrl url with
  | error text =>
    rw [hsplit] at h
    cases h
    rw [splitUrl_error hsplit]
    decide
  | ok parts =>
    rw [hsplit] at h
    cases h

theorem h2ParseUrl_error {url what : Bytes} (h : H2.parseUrl url = .error what) :
    what ≠ [] := by
  rw [H2.parseUrl] at h
  cases hsplit : splitUrl url with
  | error text =>
    rw [hsplit] at h
    cases h
    rw [splitUrl_error hsplit]
    decide
  | ok parts =>
    rw [hsplit] at h
    dsimp only [bind, Except.bind] at h
    split at h
    · cases h
      decide
    · cases h

theorem texted_originKey (url : Bytes) : Texted (ofExcept (Policy.originKey url)) :=
  Ensures.ofExcept (fun _ _ => trivial) fun _ h => originKey_error h

theorem texted_requestH1 (h : Texts env) : Texted (requestH1 env request) :=
  (texted_await h .h1).bind fun _ _ => (texted_modify _).bind fun _ _ => Ensures.pure trivial

theorem texted_requestH2 (h : Texts env) (retry force : Bool) :
    Texted (requestH2 env request retry force) := by
  refine (texted_originKey _).bind fun _ _ => (texted_await h _).bind fun _ _ => ?_
  have hsent : Texted (h2AsyncRequest env request retry) :=
    (Ensures.ofExcept (fun _ _ => trivial) fun _ herror => h2ParseUrl_error herror).bind
      fun (_ : ParsedUrl) _ => (texted_modify _).bind fun _ _ =>
        Ensures.ofExcept (fun _ _ => trivial) fun what herror => h.h2 retry what herror
  refine hsent.bind fun response _ => ?_
  rw [answerH2]
  split
  · exact Ensures.pure trivial
  · exact (texted_await h _).bind fun _ _ => (texted_modify _).bind fun _ _ =>
      Ensures.pure trivial

theorem texted_learnH2 (h : Texts env) (retry : Bool) : Texted (learnH2 env retry) :=
  (texted_await h _).bind fun _ _ => (texted_modify _).bind fun _ _ =>
    (texted_await h _).bind fun _ _ => texted_modify _

theorem texted_afterProbe (h : Texts env) : Texted (afterProbe env request) := by
  have hprobe : Texted (probeRequest env request) := by
    rw [probeRequest]
    split
    · exact Ensures.pure trivial
    · split
      · exact Ensures.pure trivial
      · exact (texted_modify _).bind fun _ _ => Ensures.pure trivial
  refine (texted_await h _).bind fun _ _ => hprobe.bind fun probe _ => ?_
  split
  · exact Ensures.pure trivial
  · split
    · exact (texted_learnH2 h true).bind fun _ _ => texted_requestH2 h true false
    · exact texted_requestH1 h

theorem texted_viaH2 (h : Texts env) (failed : Await) (update : OriginGate → OriginGate) :
    Texted (viaH2 env request failed update) := by
  refine (texted_requestH2 h false false).bind fun response _ => ?_
  split
  · exact (texted_learnH2 h false).bind fun _ _ => Ensures.pure trivial
  · exact (texted_await h _).bind fun _ _ => (texted_modify _).bind fun _ _ =>
      texted_afterProbe h

theorem texted_requestPreferH1 (h : Texts env) : Texted (requestPreferH1 env request) := by
  refine (texted_originKey _).bind fun _ _ => (texted_requestH1 h).bind fun response _ => ?_
  split
  · exact (texted_modify _).bind fun _ _ => (texted_await h _).bind fun _ _ =>
      (texted_modify _).bind fun _ _ => Ensures.pure trivial
  · exact texted_requestH2 h false false

theorem texted_chooseRoute (h : Texts env) : Texted (chooseRoute env request) := by
  have hdecision : ∀ decision, Texted (followDecision env decision) := by
    intro decision
    rw [followDecision]
    split
    · exact Ensures.pure trivial
    · split
      · exact (texted_await h _).bind fun _ _ => Ensures.pure trivial
      · exact Ensures.pure trivial
    · refine (texted_await h _).bind fun _ _ => Ensures.get.bind fun world _ => ?_
      split
      · exact (texted_await h _).bind fun _ _ => Ensures.pure trivial
      · exact Ensures.pure trivial
    · exact Ensures.pure trivial
  have henter : Texted (enterGate env) :=
    Ensures.get.bind fun _ _ => (Ensures.set trivial).bind fun _ _ => Ensures.pure trivial
  have hremembered : Texted (rememberedRoute env) := by
    rw [rememberedRoute]
    split
    · exact Ensures.pure trivial
    · exact Ensures.pure trivial
    · exact (texted_modify _).bind fun _ _ => (texted_await h _).bind fun _ _ =>
        henter.bind fun decision _ => hdecision decision
  rw [chooseRoute]
  split
  · exact Ensures.pure trivial
  · exact Ensures.pure trivial
  · exact hremembered
  · exact (texted_originKey _).bind fun _ _ => hremembered

theorem texted_some {x : Step Response} (h : Texted x) : Texted (some <$> x) := by
  rw [map_eq_pure_bind]
  exact h.bind fun _ _ => Ensures.pure trivial

theorem texted_requestAuto {rounds : List Env} (h : ∀ env ∈ rounds, Texts env) :
    Texted (requestAuto rounds request) := by
  induction rounds with
  | nil => exact Ensures.pure trivial
  | cons env rounds ih =>
    have hhead := h env List.mem_cons_self
    rw [requestAuto]
    refine (texted_chooseRoute hhead).bind fun route _ => ?_
    split
    · exact ih fun other hother => h other (List.mem_cons_of_mem _ hother)
    · cases route with
      | h1 => exact texted_some (texted_requestH1 hhead)
      | h2 => exact texted_some (texted_requestH2 hhead false false)
      | detect => exact texted_some (texted_viaH2 hhead _ _)
      | again => exact Ensures.pure trivial

theorem texted_dispatch {rounds : List Env} (request : Request)
    (h : ∀ env ∈ rounds, Texts env) : Texted (dispatch rounds request) := by
  cases rounds with
  | nil => exact Ensures.pure trivial
  | cons env rounds =>
    have hhead := h env List.mem_cons_self
    rw [dispatch]
    cases routePolicy request with
    | forceH1 => exact texted_some (texted_requestH1 hhead)
    | forceH2 => exact texted_some (texted_requestH2 hhead false true)
    | preferH1 => exact texted_some (texted_requestPreferH1 hhead)
    | preferH2 =>
      exact texted_some ((texted_originKey _).bind fun _ _ =>
        (texted_modify _).bind fun _ _ => texted_viaH2 hhead _ _)
    | auto => exact texted_requestAuto h

/-- A response without an error is that of the last attempt. -/
theorem rawRequest_fromLast {rounds : List Env} (htexts : ∀ env ∈ rounds, Texts env)
    (hworld : world.attempts = []) (h : (rawRequest rounds request world).1 = some response)
    (herror : response.error = []) :
    ∃ attempt, (rawRequest rounds request world).2.attempts.getLast? = some attempt ∧
      attempt.response = some response := by
  have hlast := endsFromLast_dispatch rounds request hworld
  obtain ⟨-, -, hthrown⟩ := texted_dispatch request htexts world trivial
  rw [rawRequest] at h ⊢
  cases hout : (dispatch rounds request).outcome world with
  | mk result after =>
    rw [hout] at h hlast hthrown
    cases result with
    | ok ended =>
      dsimp only at h
      subst h
      exact hlast response rfl response rfl
    | error what =>
      obtain rfl := Option.some.inj h
      exact absurd herror (hthrown what rfl)

end HttpClient.Routing
