import HttpClient.Policy.RequestLoop

/-!
# What all hops have in common

The policy loop hands a request on from hop to hop. Cookies of the jar may be put into it
before it is sent, and a redirect makes a new request of it. What these keep of the request,
together with what they need of the jar and of the responses, holds of every hop.

## Main definitions

* `HopInvariant` — what a hop keeps of the jar, the requests and the responses

## Main results

* `HopInvariant.hops` — every recorded hop has it
* `HopInvariant.ofRequests` — an invariant of the requests alone
-/

set_option autoImplicit false

namespace HttpClient.Policy

open Text Semantics Semantics.Call

variable {ω τ : Type}

/-- `J` is kept of the jar, `P` of the requests that are sent, and `R` holds of the responses. -/
structure HopInvariant (options : PolicyOptions) (externals : Externals ω τ)
    (J : CookieJar → Prop) (P : Request → Prop) (R : Response → Prop) : Prop where
  /-- Cookies are only put into a request that has none. -/
  cookies : ∀ (jar : CookieJar) (current : Request) now cookie after, J jar → P current →
    current.header (str "Cookie") = none →
    jar.cookieHeader current.url now = .ok (cookie, after) →
    J after ∧ P (current.setHeader (str "Cookie") cookie)
  raw : ∀ sent around, J around.jar → P sent → J (externals.raw sent around).2.1.jar ∧
    ∀ response, (externals.raw sent around).1 = some response → R response
  complete : ∀ redirects sent response, P sent → R response →
    R (completeResponse externals redirects sent response)
  take : ∀ (jar : CookieJar) (sent : Request) response now after, J jar → R response →
    jar.addFromResponse options.toJarOptions sent.url response now = .ok after → J after
  hooks : ∀ hook ∈ options.responseHooks, ∀ response hooked, hook response = .ok hooked →
    R response → R hooked
  redirect : ∀ sent (response : Response) location next, P sent → R response →
    response.header (str "Location") = some location →
    redirected sent response.status location = .ok next → P next
  pause : ∀ backoff around, J around.jar → J (externals.pause backoff around).jar

/-- What every hook keeps, the hooks keep one after the other. -/
theorem foldlM_hooks {α : Type} {P : α → Prop} {hooks : List (α → Except Bytes α)} {a hooked : α}
    (hall : ∀ hook ∈ hooks, ∀ a b, hook a = .ok b → P a → P b) (h : P a)
    (hhooks : hooks.foldlM (fun a hook => hook a) a = .ok hooked) : P hooked := by
  induction hooks generalizing a with
  | nil =>
    obtain rfl := Except.ok.inj hhooks
    exact h
  | cons hook hooks ih =>
    rw [List.foldlM_cons] at hhooks
    cases hfirst : hook a with
    | error what =>
      rw [hfirst] at hhooks
      cases hhooks
    | ok next =>
      rw [hfirst] at hhooks
      exact ih (fun other hother => hall other (List.mem_cons_of_mem _ hother))
        (hall hook List.mem_cons_self a next hfirst h) hhooks

/-- Every hop of every try sends a request that satisfies `P`. -/
def EveryHop (P : Request → Prop) (tries : List (List (Hop τ))) : Prop :=
  ∀ hops ∈ tries, ∀ hop ∈ hops, P hop.request

theorem everyHop_nil (P : Request → Prop) : EveryHop P ([] : List (List (Hop τ))) :=
  fun _ hmem => absurd hmem List.not_mem_nil

theorem EveryHop.pushHop {P : Request → Prop} {tries : List (List (Hop τ))} {hop : Hop τ}
    (h : EveryHop P tries) (hhop : P hop.request) : EveryHop P (pushHop hop tries) := by
  have hcons : ∀ hops : List (Hop τ), (∀ hop ∈ hops, P hop.request) →
      ∀ other ∈ hop :: hops, P other.request := by
    intro hops hhops other hother
    rcases List.mem_cons.mp hother with rfl | hold
    · exact hhop
    · exact hhops other hold
  cases tries with
  | nil =>
    intro hops hmem
    obtain rfl := List.mem_singleton.mp hmem
    exact hcons [] fun hop hop' => absurd hop' List.not_mem_nil
  | cons latest older =>
    intro hops hmem
    rcases List.mem_cons.mp hmem with rfl | hold
    · exact hcons latest (h latest List.mem_cons_self)
    · exact h hops (List.mem_cons_of_mem _ hold)

/-- Another try begins without hops. -/
theorem EveryHop.newTry {P : Request → Prop} {tries : List (List (Hop τ))}
    (h : EveryHop P tries) : EveryHop P ([] :: tries) := by
  intro hops hmem
  rcases List.mem_cons.mp hmem with rfl | hold
  · exact fun hop hhop => absurd hhop List.not_mem_nil
  · exact h hops hold

namespace HopInvariant

variable {options : PolicyOptions} {externals : Externals ω τ} {J : CookieJar → Prop}
  {P : Request → Prop} {R : Response → Prop}

/-- What holds of the state between the hops. -/
structure Holds (J : CookieJar → Prop) (P : Request → Prop) (state : PolicyState ω τ) : Prop where
  jar : J state.around.jar
  hops : EveryHop P state.tries

theorem withCookies (h : HopInvariant options externals J P R) {current : Request}
    (hcurrent : P current) :
    Ensures (Holds (ω := ω) (τ := τ) J P) P (fun _ => True) (withCookies options current) := by
  refine Ensures.get.bind fun state hstate => ?_
  split
  · rename_i hasks
    have hnone := Option.isNone_iff_eq_none.mp hasks.2
    refine (Ensures.ofExcept (Q := fun found => J found.2 ∧
      P (current.setHeader (str "Cookie") found.1)) ?_ fun _ _ => trivial).bind ?_
    · exact fun found hfound =>
        h.cookies _ _ _ found.1 found.2 hstate.jar hcurrent hnone hfound
    · rintro ⟨cookie, jar⟩ ⟨hjar, hcookie⟩
      refine (Ensures.set ⟨hjar, hstate.hops⟩).bind fun _ _ => Ensures.pure ?_
      split
      · exact hcookie
      · exact hcurrent
  · exact Ensures.pure hcurrent

theorem rawHop (h : HopInvariant options externals J P R) {redirects : Nat} {jar : CookieJar}
    {now : Int} {sent : Request} (hsent : P sent) :
    Ensures (Holds (ω := ω) (τ := τ) J P) (fun response => ∀ r, response = some r → R r)
      (fun _ => True) (rawHop externals redirects jar now sent) := by
  refine Ensures.get.bind fun state hstate => ?_
  obtain ⟨hjar, hresponse⟩ := h.raw sent state.around hstate.jar hsent
  refine (Ensures.set ?_).bind fun _ _ => Ensures.pure hresponse
  exact ⟨hjar, hstate.hops.pushHop hsent⟩

theorem takeCookies (h : HopInvariant options externals J P R) {sent : Request}
    {response : Response} (hresponse : R response) :
    Ensures (Holds (ω := ω) (τ := τ) J P) (fun _ => True) (fun _ => True)
      (takeCookies options sent response) := by
  refine Ensures.get.bind fun state hstate => ?_
  split
  · refine (Ensures.ofExcept (Q := J) (fun jar hadd =>
      h.take _ _ _ _ _ hstate.jar hresponse hadd) fun _ _ => trivial).bind fun jar hjar => ?_
    exact Ensures.set ⟨hjar, hstate.hops⟩
  · exact Ensures.pure trivial

/-- A hop hands on the request it has sent, and a response. -/
theorem oneHop (h : HopInvariant options externals J P R) {redirects : Nat} {current : Request}
    (hcurrent : P current) :
    Ensures (Holds (ω := ω) (τ := τ) J P)
      (fun ended => ∀ pair, ended = some pair → P pair.1 ∧ R pair.2) (fun _ => True)
      (oneHop options externals redirects current) := by
  refine Ensures.get.bind fun state _ => (h.withCookies hcurrent).bind fun sent hsent => ?_
  refine (h.rawHop hsent).bind fun response hresponse => ?_
  cases response with
  | none => exact Ensures.pure fun pair hpair => nomatch hpair
  | some response =>
    have hcompleted := h.complete redirects sent response hsent (hresponse response rfl)
    refine (h.takeCookies hcompleted).bind fun _ _ => ?_
    refine (Ensures.ofExcept (Q := R) (fun hooked hhooks => foldlM_hooks h.hooks hcompleted hhooks)
      fun _ _ => trivial).bind fun hooked hhooked => Ensures.pure ?_
    rintro pair hpair
    obtain rfl := Option.some.inj hpair
    exact ⟨hsent, hhooked⟩

theorem afterHop {follows : Bool} {ended : Option (Request × Response)}
    {go : Request → Response → Bytes → PolicyCall ω τ (Option Response)}
    (hended : ∀ pair, ended = some pair → P pair.1 ∧ R pair.2)
    (hgo : ∀ sent response location, P sent → R response →
      response.header (str "Location") = some location →
      Ensures (Holds J P) (fun _ => True) (fun _ => True) (go sent response location)) :
    Ensures (Holds J P) (fun _ => True) (fun _ => True) (afterHop follows ended go) := by
  cases ended with
  | none => exact Ensures.pure trivial
  | some pair =>
    obtain ⟨sent, response⟩ := pair
    obtain ⟨hsent, hresponse⟩ := hended (sent, response) rfl
    rw [Policy.afterHop]
    cases hnext : nextLocation follows response with
    | none => exact Ensures.pure trivial
    | some location =>
      refine hgo sent response location hsent hresponse ?_
      rw [nextLocation] at hnext
      split at hnext
      · exact hnext
      · cases hnext

/-- Following redirects: on how many are left. -/
theorem followHops (h : HopInvariant options externals J P R) {follows : Bool}
    {remaining redirects : Nat} {current : Request} (hcurrent : P current) :
    Ensures (Holds (ω := ω) (τ := τ) J P) (fun _ => True) (fun _ => True)
      (followHops options externals follows remaining redirects current) := by
  induction remaining generalizing redirects current with
  | zero =>
    rw [Policy.followHops]
    refine (h.oneHop hcurrent).bind fun ended hended => ?_
    exact afterHop hended fun _ _ _ _ _ _ => Ensures.pure trivial
  | succ remaining ih =>
    rw [Policy.followHops]
    refine (h.oneHop hcurrent).bind fun ended hended => ?_
    refine afterHop hended fun sent response location hsent hresponse hlocation => ?_
    -- the next hop starts from what the redirect has kept
    exact (Ensures.ofExcept (fun next hnext =>
      h.redirect sent response location next hsent hresponse hlocation hnext)
      fun _ _ => trivial).bind fun next hnext => ih hnext

theorem tryOnce (h : HopInvariant options externals J P R) {request : Request}
    (hrequest : P request) :
    Ensures (Holds (ω := ω) (τ := τ) J P) (fun _ => True) (fun _ => True)
      (tryOnce options externals request) := by
  refine (Ensures.modify fun state hstate => ?_).bind fun _ _ => h.followHops hrequest
  exact ⟨hstate.jar, hstate.hops.newTry⟩

/-- Every try starts from the request again. -/
theorem tryRequest (h : HopInvariant options externals J P R) {request : Request}
    (hrequest : P request) (remaining : Nat) :
    Ensures (Holds (ω := ω) (τ := τ) J P) (fun _ => True) (fun _ => True)
      (tryRequest options externals request remaining) := by
  induction remaining with
  | zero => exact h.tryOnce hrequest
  | succ remaining ih =>
    rw [Policy.tryRequest]
    refine (h.tryOnce hrequest).bind fun last _ => ?_
    split
    · exact Ensures.pure trivial
    · split
      · refine (Ensures.modify fun state hstate => ?_).bind fun _ _ => ih
        split
        · exact ⟨h.pause _ _ hstate.jar, hstate.hops⟩
        · exact hstate
      · exact Ensures.pure trivial

/-- An invariant that the completed request has is one of every hop. -/
theorem hops (h : HopInvariant options externals J P R) {request : Request}
    {state : PolicyState ω τ} (hjar : J state.around.jar) (htries : EveryHop P state.tries)
    (hinitial : ∀ completed, applyDefaults options externals.getenv request = .ok completed →
      P completed) :
    EveryHop P ((requestWithHttpxPolicy options externals request).outcome state).2.tries := by
  have hensures : Ensures (Holds (ω := ω) (τ := τ) J P) (fun _ => True) (fun _ => True)
      (requestWithHttpxPolicy options externals request) := by
    refine (Ensures.ofExcept hinitial fun _ _ => trivial).bind fun completed hcompleted => ?_
    split
    · exact Ensures.pure trivial
    · exact h.tryRequest hcompleted _
  exact (hensures state ⟨hjar, htries⟩).1.hops

/-- An invariant of the requests, whatever jar and responses do. -/
theorem ofRequests
    (hcookies : ∀ current cookie, current.header (str "Cookie") = none → P current →
      P (current.setHeader (str "Cookie") cookie))
    (hredirect : ∀ sent status location next, P sent →
      redirected sent status location = .ok next → P next) :
    HopInvariant options externals (fun _ => True) P (fun _ => True) where
  cookies _ current _ cookie _ _ hcurrent hnone _ :=
    ⟨trivial, hcookies current cookie hnone hcurrent⟩
  raw _ _ _ _ := ⟨trivial, fun _ _ => trivial⟩
  complete _ _ _ _ _ := trivial
  take _ _ _ _ _ _ _ _ := trivial
  hooks _ _ _ _ _ _ := trivial
  redirect sent response location next hsent _ _ hnext :=
    hredirect sent response.status location next hsent hnext
  pause _ _ _ := trivial

end HopInvariant

end HttpClient.Policy
