import HttpClient.Routing.Resolution

/-!
# The attempts of a raw request

Which attempts a request makes does not depend on the gate, once its route is chosen. The
rules here compute, for a property of the list of attempts and of the result, the
condition on the environment under which a part of a raw request has it.

## Main definitions

* `H2Reached`, `Answered`, `Probed` — how far a request gets

## Main results

* `requestH1_cases`, `requestH2_cases` — what one attempt makes
* `judged_await`, `judged_requestH2`, `judged_viaH2` — the rules
-/

set_option autoImplicit false

namespace HttpClient.Routing

open Text Semantics Semantics.Call

/-! ### How far a request gets -/

/-- The attempt over HTTP/2 is reached, and the client accepts the URL. -/
def H2Reached (env : Env) (request : Request) (retry : Bool) : Prop :=
  env.cancelled (.h2 retry) = none ∧ ∃ url, H2.parseUrl request.url = .ok url

/-- The HTTP/2 client answers with `response`. -/
def Answered (env : Env) (request : Request) (response : Response) : Prop :=
  H2Reached env request false ∧ (env.h2 false).result = .ok response

/-- The HTTP/2 client answers with an error, and the probe is reached. -/
def Probed (env : Env) (request : Request) (failed : Await) : Prop :=
  (∃ response, Answered env request response ∧ response.error ≠ []) ∧
    env.cancelled (.h2Failed false) = none ∧ env.cancelled failed = none ∧
    env.cancelled .probe = none

/-- What the HTTP/2 client accepts has an origin. -/
theorem originKey_of_parseUrl {url : Bytes} {parsed : ParsedUrl}
    (h : H2.parseUrl url = .ok parsed) : ∃ key, Policy.originKey url = .ok key := by
  unfold H2.parseUrl at h
  cases hsplit : splitUrl url with
  | error what =>
    rw [hsplit] at h
    cases h
  | ok parts =>
    simp only [Policy.originKey, Policy.parseUrl, hsplit]
    exact ⟨_, rfl⟩

/-! ### What the parts make -/

variable {env : Env} {request : Request} {α : Type} {P : Prop}
variable {good : List Attempt → Except Bytes α → Prop}

theorem attempts_events (options : GateOptions) (events : List GateEvent) (world : World) :
    (world.events options events).attempts = world.attempts := by
  induction events generalizing world with
  | nil => rfl
  | cons event events ih =>
    -- what others do to the gate is not an attempt of this request
    have hevent : (world.event options event).attempts = world.attempts := by
      cases event with
      | evict =>
        simp only [World.event]
        split
        · rfl
        · rfl
      | _ => rfl
    exact (ih _).trans hevent

theorem makes_await_of_none {point : Await} (h : env.cancelled point = none) :
    Makes World.attempts (await env point) [] (.ok ()) :=
  fun world => ⟨_, await_of_none h world, by rw [attempts_events, List.append_nil]⟩

theorem makes_await_of_some {point : Await} {what : Bytes}
    (h : env.cancelled point = some what) :
    Makes World.attempts (await env point) [] (.error what) :=
  fun world => ⟨_, await_of_some h world, by rw [attempts_events, List.append_nil]⟩

theorem makes_onGate (update : OriginGate → OriginGate) :
    Makes World.attempts (onGate update) [] (.ok ()) :=
  Makes.modify fun _ => (List.append_nil _).symm

theorem makes_onCachedGate (update : OriginGate → OriginGate) :
    Makes World.attempts (onCachedGate update) [] (.ok ()) := by
  refine Makes.modify fun world => ?_
  split
  · exact (List.append_nil _).symm
  · exact (List.append_nil _).symm

theorem makes_getGate : Makes World.attempts getGate [] (.ok ()) := by
  refine Makes.modify fun world => ?_
  split
  · exact (List.append_nil _).symm
  · exact (List.append_nil _).symm

theorem makes_record (attempt : Attempt) :
    Makes World.attempts (record attempt) [attempt] (.ok ()) :=
  Makes.modify fun _ => rfl

/-! ### What single attempts make -/

/-- The attempt over HTTP/1.1 is made, unless a cancellation comes before it. -/
theorem requestH1_cases (env : Env) (request : Request) :
    (∃ what, env.cancelled .h1 = some what ∧
      Makes World.attempts (requestH1 env request) [] (.error what)) ∨
    (env.cancelled .h1 = none ∧
      Makes World.attempts (requestH1 env request) [(h1Delivery env request).attempt]
        (.ok (h1Delivery env request).response)) := by
  cases hcancelled : env.cancelled .h1 with
  | some what => exact Or.inl ⟨what, rfl, (makes_await_of_some hcancelled).bind_error⟩
  | none =>
    refine Or.inr ⟨rfl, (makes_await_of_none hcancelled).bind_silent ?_⟩
    exact (makes_record _).bind_return (Makes.pure _)

theorem makes_h2AsyncRequest {retry : Bool} {url : ParsedUrl}
    (h : H2.parseUrl request.url = .ok url) :
    Makes World.attempts (h2AsyncRequest env request retry) [(env.h2 retry).attempt .h2]
      (env.h2 retry).result := by
  unfold h2AsyncRequest
  rw [h]
  refine Makes.bind_silent (Makes.pure url) ((makes_record _).bind_return ?_)
  cases (env.h2 retry).result with
  | ok response => exact Makes.pure response
  | error what => exact Makes.throw what

/-- The response is returned, unless a cancellation comes before the gate is told. -/
theorem answerH2_cases (env : Env) (retry force : Bool) (response : Response) :
    ((response.error = [] ∨ force = true ∨ env.cancelled (.h2Failed retry) = none) ∧
      Makes World.attempts (answerH2 env retry force response) [] (.ok response)) ∨
    (¬ (response.error = [] ∨ force = true ∨ env.cancelled (.h2Failed retry) = none) ∧
      ∃ what, Makes World.attempts (answerH2 env retry force response) [] (.error what)) := by
  unfold answerH2
  by_cases hdone : response.error = [] ∨ force = true
  · rw [if_pos hdone]
    exact Or.inl ⟨hdone.elim Or.inl fun hforce => Or.inr (Or.inl hforce), Makes.pure response⟩
  · rw [if_neg hdone]
    cases hcancelled : env.cancelled (.h2Failed retry) with
    | none =>
      refine Or.inl ⟨Or.inr (Or.inr rfl), (makes_await_of_none hcancelled).bind_silent ?_⟩
      exact (makes_onCachedGate _).bind_silent (Makes.pure response)
    | some what =>
      refine Or.inr ⟨?_, what, (makes_await_of_some hcancelled).bind_error⟩
      simpa [not_or] using hdone

theorem makes_requestH2_of_not_reached {retry : Bool} (h : ¬ H2Reached env request retry)
    (force : Bool) :
    ∃ what, Makes World.attempts (requestH2 env request retry force) [] (.error what) := by
  unfold requestH2
  cases hkey : Policy.originKey request.url with
  | error what => exact ⟨what, (Makes.throw what).bind_error⟩
  | ok key =>
    cases hcancelled : env.cancelled (.h2 retry) with
    | some what =>
      exact ⟨what, (Makes.pure key).bind_silent (makes_await_of_some hcancelled).bind_error⟩
    | none =>
      cases hurl : H2.parseUrl request.url with
      | ok url => exact absurd ⟨hcancelled, url, hurl⟩ h
      | error what =>
        have hrefused : Makes World.attempts (h2AsyncRequest env request retry) []
            (.error what) := by
          unfold h2AsyncRequest
          rw [hurl]
          exact (Makes.throw what).bind_error
        refine ⟨what, (Makes.pure key).bind_silent ?_⟩
        exact (makes_await_of_none hcancelled).bind_silent hrefused.bind_error

theorem makes_requestH2_of_reached {retry force : Bool} {new : List Attempt}
    {result : Except Bytes Response} (h : H2Reached env request retry)
    (hmakes : Makes World.attempts
      (h2AsyncRequest env request retry >>= answerH2 env retry force) new result) :
    Makes World.attempts (requestH2 env request retry force) new result := by
  obtain ⟨hnone, url, hurl⟩ := h
  obtain ⟨key, hkey⟩ := originKey_of_parseUrl hurl
  unfold requestH2
  rw [hkey]
  exact (Makes.pure key).bind_silent ((makes_await_of_none hnone).bind_silent hmakes)

/-- An attempt over HTTP/2 is not reached, or it throws, or it is answered and the answer
is returned, or a cancellation comes before that. -/
theorem requestH2_cases (env : Env) (request : Request) (retry force : Bool) :
    (¬ H2Reached env request retry ∧
      ∃ what, Makes World.attempts (requestH2 env request retry force) [] (.error what)) ∨
    (H2Reached env request retry ∧ ∃ what, (env.h2 retry).result = .error what ∧
      Makes World.attempts (requestH2 env request retry force)
        [(env.h2 retry).attempt .h2] (.error what)) ∨
    (H2Reached env request retry ∧ ∃ response, (env.h2 retry).result = .ok response ∧
      ((response.error = [] ∨ force = true ∨ env.cancelled (.h2Failed retry) = none) ∧
        Makes World.attempts (requestH2 env request retry force)
          [(env.h2 retry).attempt .h2] (.ok response) ∨
      ¬ (response.error = [] ∨ force = true ∨ env.cancelled (.h2Failed retry) = none) ∧
        ∃ what, Makes World.attempts (requestH2 env request retry force)
          [(env.h2 retry).attempt .h2] (.error what))) := by
  by_cases hreached : H2Reached env request retry
  · obtain ⟨url, hurl⟩ := hreached.2
    have hmade : Makes World.attempts (h2AsyncRequest env request retry)
        [(env.h2 retry).attempt .h2] (env.h2 retry).result := makes_h2AsyncRequest hurl
    refine Or.inr ?_
    cases hresult : (env.h2 retry).result with
    | error what =>
      rw [hresult] at hmade
      exact Or.inl ⟨hreached, what, rfl, makes_requestH2_of_reached hreached hmade.bind_error⟩
    | ok response =>
      rw [hresult] at hmade
      refine Or.inr ⟨hreached, response, rfl, ?_⟩
      rcases answerH2_cases env retry force response with ⟨hgoes, hanswer⟩ | ⟨hnot, what, hanswer⟩
      · exact Or.inl ⟨hgoes, makes_requestH2_of_reached hreached (hmade.bind_return hanswer)⟩
      · exact Or.inr ⟨hnot, what,
          makes_requestH2_of_reached hreached (hmade.bind_return hanswer)⟩
  · exact Or.inl ⟨hreached, makes_requestH2_of_not_reached hreached force⟩

/-! ### The rules -/

/-- Where an exception is good in itself, so is a cancellation. -/
theorem judged_await {point : Await} {k : Unit → Step α} (hthrow : ∀ what, good [] (.error what))
    (hk : Judged World.attempts good P (k ())) :
    Judged World.attempts good (env.cancelled point = none → P) (await env point >>= k) := by
  cases hcancelled : env.cancelled point with
  | none =>
    exact Judged.bind_silent (makes_await_of_none hcancelled)
      (hk.congr ⟨fun h _ => h, fun h => h rfl⟩)
  | some what =>
    refine Judged.bind_error (makes_await_of_some hcancelled) ⟨fun _ h => ?_, fun _ => hthrow what⟩
    cases h

/-- An attempt over HTTP/2 and what is made of its response. -/
theorem judged_requestH2 {retry force : Bool} {p : Response → Prop} {k : Response → Step α}
    (hthrow : ∀ what, good [] (.error what))
    (hthrew : ∀ what, (env.h2 retry).result = .error what →
      good [(env.h2 retry).attempt .h2] (.error what))
    (hcancelled : ∀ response what, (env.h2 retry).result = .ok response → response.error ≠ [] →
      good [(env.h2 retry).attempt .h2] (.error what))
    (hk : ∀ response, (env.h2 retry).result = .ok response →
      Judged World.attempts (fun rest r => good ((env.h2 retry).attempt .h2 :: rest) r)
        (p response) (k response)) :
    Judged World.attempts good
      (H2Reached env request retry → ∀ response, (env.h2 retry).result = .ok response →
        (response.error = [] ∨ force = true ∨ env.cancelled (.h2Failed retry) = none) →
          p response)
      (requestH2 env request retry force >>= k) := by
  rcases requestH2_cases env request retry force with ⟨hnot, what, hmakes⟩ |
    ⟨hreached, what, hresult, hmakes⟩ | ⟨hreached, response, hresult, hend⟩
  · exact Judged.bind_error hmakes ⟨fun _ h => absurd h hnot, fun _ => hthrow what⟩
  · refine Judged.bind_error hmakes ⟨fun _ _ response h => ?_, fun _ => hthrew what hresult⟩
    rw [hresult] at h
    cases h
  · rcases hend with ⟨hgoes, hmakes⟩ | ⟨hnot, what, hmakes⟩
    · refine Judged.bind hmakes ((hk response hresult).congr ⟨fun hp _ other hother _ => ?_, ?_⟩)
      · rw [hresult] at hother
        cases hother
        exact hp
      · exact fun h => h hreached response hresult hgoes
    · refine Judged.bind_error hmakes ⟨fun _ _ other hother hgoes => ?_, fun _ => ?_⟩
      · rw [hresult] at hother
        cases hother
        exact absurd hgoes hnot
      · exact hcancelled response what hresult fun herror => hnot (Or.inl herror)

theorem judged_learnH2 (hthrow : ∀ what, good [] (.error what)) {k : Unit → Step α}
    (hk : Judged World.attempts good P (k ())) (retry : Bool) :
    Judged World.attempts good
      (env.cancelled (.recordH2 retry) = none → env.cancelled (.setH2 retry) = none → P)
      (learnH2 env retry >>= k) := by
  simp only [learnH2, bind_assoc]
  exact judged_await hthrow <| Judged.bind_silent (makes_onGate _) <|
    judged_await hthrow <| Judged.bind_silent (makes_onGate _) hk

/-- HTTP/2 first: what has to hold after a success, and what after the probe is reached. -/
theorem judged_viaH2 {good : List Attempt → Except Bytes Response → Prop} {S A : Prop}
    {failed : Await} {update : OriginGate → OriginGate} (hthrow : ∀ what, good [] (.error what))
    (hthrew : ∀ what, (env.h2 false).result = .error what →
      good [(env.h2 false).attempt .h2] (.error what))
    (hrefused : ∀ response what, (env.h2 false).result = .ok response → response.error ≠ [] →
      good [(env.h2 false).attempt .h2] (.error what))
    (hsuccess : ∀ response, (env.h2 false).result = .ok response → response.error = [] →
      Judged World.attempts (fun rest r => good ((env.h2 false).attempt .h2 :: rest) r) S
        (learnH2 env false >>= fun _ => pure response))
    (hafter : ∀ response, (env.h2 false).result = .ok response → response.error ≠ [] →
      Judged World.attempts (fun rest r => good ((env.h2 false).attempt .h2 :: rest) r)
        (env.cancelled .probe = none → A) (afterProbe env request)) :
    Judged World.attempts good
      ((∀ response, Answered env request response → response.error = [] → S) ∧
        (Probed env request failed → A))
      (viaH2 env request failed update) := by
  -- The condition on what follows an answer of the HTTP/2 client.
  have hanswered : ∀ response, (env.h2 false).result = .ok response →
      Judged World.attempts (fun rest r => good ((env.h2 false).attempt .h2 :: rest) r)
        (if response.error = [] then S
          else env.cancelled failed = none → env.cancelled .probe = none → A)
        (if response.error = [] then do
          learnH2 env false
          return response
        else do
          await env failed
          onGate update
          afterProbe env request) := by
    intro response hresult
    by_cases herror : response.error = []
    · rw [if_pos herror, if_pos herror]
      exact hsuccess response hresult herror
    · rw [if_neg herror, if_neg herror]
      exact judged_await (fun what => hrefused response what hresult herror)
        (Judged.bind_silent (makes_onGate _) (hafter response hresult herror))
  refine Judged.congr (judged_requestH2 hthrow hthrew hrefused hanswered) ?_
  constructor
  · intro h
    constructor
    · rintro response ⟨hreached, hresult⟩ herror
      have hgoes := h hreached response hresult (Or.inl herror)
      rwa [if_pos herror] at hgoes
    · rintro ⟨⟨response, ⟨hreached, hresult⟩, herror⟩, hfailed, hset, hprobe⟩
      have hgoes := h hreached response hresult (Or.inr (Or.inr hfailed))
      rw [if_neg herror] at hgoes
      exact hgoes hset hprobe
  · rintro ⟨hsuccess, hprobed⟩ hreached response hresult hgoes
    by_cases herror : response.error = []
    · rw [if_pos herror]
      exact hsuccess response ⟨hreached, hresult⟩ herror
    · rw [if_neg herror]
      have hfailed := (hgoes.resolve_left herror).resolve_left Bool.false_ne_true
      exact fun hset hprobe =>
        hprobed ⟨⟨response, ⟨hreached, hresult⟩, herror⟩, hfailed, hset, hprobe⟩

/-- Without an origin no attempt is made: where exceptions are good, a condition on what
follows an answer need not ask for the origin. -/
theorem judged_ofOrigin {k : Bytes → Step α} (hthrow : ∀ what, good [] (.error what))
    (hreached : (∀ url, H2.parseUrl request.url ≠ .ok url) → P)
    (hk : ∀ key, Policy.originKey request.url = .ok key →
      Judged World.attempts good P (k key)) :
    Judged World.attempts good P (ofExcept (Policy.originKey request.url) >>= k) := by
  refine Judged.congr (Judged.ofExcept hthrow hk) ⟨fun h => ?_, fun h _ _ => h⟩
  cases hurl : H2.parseUrl request.url with
  | ok url =>
    obtain ⟨key, hkey⟩ := originKey_of_parseUrl hurl
    exact h key hkey
  | error what =>
    refine hreached fun url hok => ?_
    rw [hurl] at hok
    cases hok

/-- From a world without attempts, a judgement is about all attempts made. -/
theorem judged_fresh {x : Step α} (h : Judged World.attempts good P x) (gate : OriginGate)
    (cached : Bool) :
    good (x.outcome { gate, cached }).2.attempts (x.outcome { gate, cached }).1 ↔ P := by
  rw [← h.iff { gate, cached }]
  simp

end HttpClient.Routing
