import HttpClient.Policy.Submit

/-!
# The handler is called once

A handler that is handed to a protocol client, or called in the catch block, is called
once. The coroutine of the policy calls it only if nothing throws in it: completing the
request, taking cookies from the jar or storing them, and following a redirect all parse a
URL outside of the place where the exceptions of the raw request are caught. The only
exception that can leave them is that of a URL without a scheme.

A URL that has a scheme when the request is completed has one at every later hop. One
without a scheme is answered with an error; only a response hook can turn that into a
redirect.

## Main definitions

* `Routed`, `Finishes` — the raw requests are those of the client, and they finish
* `Sendable` — the completed request does not throw in the loop
* `Answerable` — nothing throws in the coroutine
* `HandlerKept` — the condition, route by route

## Main results

* `returns_requestWithHttpxPolicy`, `throws_requestWithHttpxPolicy` — the coroutine
* `answeredOnce_iff` — when the handler is called exactly once
-/

set_option autoImplicit false

namespace HttpClient.Policy

open Text Semantics Semantics.Call

variable {ω τ : Type}

/-! ### Schemes -/

theorem hasUrlScheme_iff {url : Bytes} : hasUrlScheme url = true ↔ str "://" <:+: url := by
  rw [hasUrlScheme]
  cases hfind : find (str "://") url with
  | none =>
    constructor
    · intro h
      cases h
    · rintro ⟨before, after, rfl⟩
      have hat := find_eq_none_iff.mp hfind before.length (by simp)
      rw [List.append_assoc, List.drop_left] at hat
      exact absurd (List.prefix_append _ _) hat
  | some schemeEnd =>
    obtain ⟨-, hat, -⟩ := find_eq_some_iff.mp hfind
    exact ⟨fun _ => hat.isInfix.trans (List.drop_suffix _ _).isInfix, fun _ => rfl⟩

theorem hasUrlScheme_originOf (url : ParsedUrl) (rest : Bytes) :
    hasUrlScheme (originOf url ++ rest) = true := by
  rw [hasUrlScheme_iff, originOf]
  simp only [List.append_assoc]
  exact (List.prefix_append _ _).isInfix.trans (List.suffix_append _ _).isInfix

/-- What is resolved against a URL with a scheme has a scheme. -/
theorem resolveRedirectUrl_of_scheme {base location : Bytes} (h : hasUrlScheme base = true) :
    ∃ url, resolveRedirectUrl base location = .ok url ∧ hasUrlScheme url = true := by
  rw [resolveRedirectUrl]
  by_cases htarget : hasUrlScheme (trim location) = true
  · exact ⟨trim location, by simp [htarget]; rfl, htarget⟩
  · obtain ⟨parsed, hparsed⟩ := parseUrl_of_hasUrlScheme h
    simp only [htarget, hparsed, Bool.false_eq_true, if_false]
    dsimp only [bind, Except.bind, pure, Except.pure]
    by_cases hslashes : (str "//").isPrefixOf (trim location) = true
    · -- the scheme of the base, and a location that begins with its authority
      rw [if_pos hslashes]
      refine ⟨_, rfl, hasUrlScheme_iff.mpr ?_⟩
      obtain ⟨rest, hrest⟩ := List.isPrefixOf_iff_prefix.mp hslashes
      rw [← hrest]
      refine ⟨parsed.scheme, rest, ?_⟩
      simp only [List.append_assoc]
      rfl
    · rw [if_neg hslashes]
      split
      · exact ⟨_, rfl, hasUrlScheme_originOf parsed _⟩
      · refine ⟨_, rfl, ?_⟩
        rw [List.append_assoc]
        exact hasUrlScheme_originOf parsed _

/-- Without a scheme in the base, the location must have one. -/
theorem resolveRedirectUrl_of_noScheme {base location : Bytes} (h : hasUrlScheme base = false) :
    resolveRedirectUrl base location =
      if hasUrlScheme (trim location) = true then .ok (trim location)
      else .error (str "url must include scheme") := by
  rw [resolveRedirectUrl, parseUrl_of_noScheme h]
  by_cases htarget : hasUrlScheme (trim location) = true
  · simp only [htarget, if_true]
    rfl
  · simp only [htarget, Bool.false_eq_true, if_false]
    rfl

/-! ### Completing a request -/

/-- The hooks of the options return. -/
structure TotalHooks (options : PolicyOptions) : Prop where
  request : ∀ hook ∈ options.requestHooks, ∀ request, ∃ next, hook request = .ok next
  response : ∀ hook ∈ options.responseHooks, ∀ response, ∃ next, hook response = .ok next

theorem foldlM_total {α : Type} {hooks : List (α → Except Bytes α)}
    (h : ∀ hook ∈ hooks, ∀ a, ∃ b, hook a = .ok b) (a : α) :
    ∃ hooked, hooks.foldlM (fun a hook => hook a) a = .ok hooked := by
  induction hooks generalizing a with
  | nil => exact ⟨a, rfl⟩
  | cons hook hooks ih =>
    obtain ⟨next, hnext⟩ := h hook List.mem_cons_self a
    have hrest : ∀ other ∈ hooks, ∀ a, ∃ b, other a = .ok b :=
      fun other hother => h other (List.mem_cons_of_mem _ hother)
    obtain ⟨hooked, hhooked⟩ := ih hrest next
    refine ⟨hooked, ?_⟩
    rw [List.foldlM_cons, hnext]
    exact hhooked

theorem resolveBaseUrl_ok_iff {base url : Bytes} :
    (∃ resolved, resolveBaseUrl base url = .ok resolved) ↔
      base = [] ∨ hasUrlScheme url = true ∨ url = [] ∨ hasUrlScheme base = true := by
  rw [resolveBaseUrl]
  by_cases hplain : base = [] ∨ hasUrlScheme url = true
  · rw [if_pos hplain]
    exact ⟨fun _ => hplain.elim .inl fun h => .inr (.inl h), fun _ => ⟨url, rfl⟩⟩
  · rw [if_neg hplain]
    by_cases hempty : url = []
    · rw [if_pos hempty]
      exact ⟨fun _ => .inr (.inr (.inl hempty)), fun _ => ⟨base, rfl⟩⟩
    · rw [if_neg hempty]
      by_cases hbase : hasUrlScheme base = true
      · obtain ⟨resolved, hresolved, -⟩ := resolveRedirectUrl_of_scheme hbase
        exact ⟨fun _ => .inr (.inr (.inr hbase)), fun _ => ⟨resolved, hresolved⟩⟩
      · -- trimming does not make a scheme
        have htrim : ¬ hasUrlScheme (trim url) = true := by
          intro htarget
          have hinside := (hasUrlScheme_iff.mp htarget).trans (trim_isInfix url)
          exact hplain (.inr (hasUrlScheme_iff.mpr hinside))
        rw [resolveRedirectUrl_of_noScheme (Bool.eq_false_iff.mpr hbase), if_neg htrim]
        constructor
        · rintro ⟨resolved, h⟩
          cases h
        · rintro (h | h | h | h)
          · exact absurd (.inl h) hplain
          · exact absurd (.inr h) hplain
          · exact absurd h hempty
          · exact absurd h hbase

theorem applyProxy_ok_iff {options : PolicyOptions} {getenv : Bytes → Option Bytes}
    {request : Request} :
    (∃ completed, applyProxy options getenv request = .ok completed) ↔
      request.disableProxy = true ∨ request.proxy.isSome = true ∨
        hasUrlScheme request.url = true := by
  rw [applyProxy]
  by_cases hkept : request.disableProxy = true ∨ request.proxy.isSome = true
  · rw [if_pos hkept]
    exact ⟨fun _ => hkept.elim .inl fun h => .inr (.inl h), fun _ => ⟨request, rfl⟩⟩
  · rw [if_neg hkept]
    by_cases hscheme : hasUrlScheme request.url = true
    · obtain ⟨parsed, hparsed⟩ := parseUrl_of_hasUrlScheme hscheme
      refine ⟨fun _ => .inr (.inr hscheme), fun _ => ?_⟩
      -- the proxy of the environment is chosen by the same parsed URL
      have henv : ∃ proxy, envProxyFor getenv request.url = .ok proxy := by
        rw [envProxyFor, hparsed]
        exact ⟨_, rfl⟩
      obtain ⟨proxy, hproxy⟩ := henv
      rw [hparsed, hproxy]
      dsimp only [bind, Except.bind, pure, Except.pure]
      repeat' split
      all_goals exact ⟨_, rfl⟩
    · rw [parseUrl_of_noScheme (Bool.eq_false_iff.mpr hscheme)]
      constructor
      · rintro ⟨completed, h⟩
        cases h
      · rintro (h | h | h)
        · exact absurd (.inl h) hkept
        · exact absurd (.inr h) hkept
        · exact absurd h hscheme

/-- The base URL does not throw, and the URL can be read where its proxy is looked up. -/
def Completes (options : PolicyOptions) (request : Request) : Prop :=
  (options.baseUrl = [] ∨ hasUrlScheme request.url = true ∨ request.url = [] ∨
    hasUrlScheme options.baseUrl = true) ∧
  ∀ url, resolveBaseUrl options.baseUrl request.url = .ok url →
    request.disableProxy = true ∨ request.proxy.isSome = true ∨
      hasUrlScheme (appendQueryParams url options.defaultQueryParams) = true

theorem applyDefaults_ok_iff {options : PolicyOptions} {getenv : Bytes → Option Bytes}
    {request : Request} (hhooks : TotalHooks options) :
    (∃ completed, applyDefaults options getenv request = .ok completed) ↔
      Completes options request := by
  rw [applyDefaults_eq, Completes, ← resolveBaseUrl_ok_iff]
  cases hurl : resolveBaseUrl options.baseUrl request.url with
  | error what =>
    constructor
    · rintro ⟨completed, h⟩
      cases h
    · rintro ⟨⟨url, h⟩, -⟩
      cases h
  | ok url =>
    obtain ⟨hdisabled, hproxy, hsettings⟩ := applySettings_proxy options request url
    have hread : (∃ completed,
        applyProxy options getenv (applySettings options request url) = .ok completed) ↔
        request.disableProxy = true ∨ request.proxy.isSome = true ∨
          hasUrlScheme (appendQueryParams url options.defaultQueryParams) = true := by
      rw [applyProxy_ok_iff, hdisabled, hproxy, hsettings]
    constructor
    · rintro ⟨completed, h⟩
      refine ⟨⟨url, rfl⟩, fun other hother => ?_⟩
      obtain rfl := Except.ok.inj hother
      apply hread.mp
      cases hchosen : applyProxy options getenv (applySettings options request url) with
      | ok chosen => exact ⟨chosen, rfl⟩
      | error what =>
        simp only [Except.bind, hchosen] at h
        cases h
    · rintro ⟨-, h⟩
      obtain ⟨chosen, hchosen⟩ := hread.mpr (h url rfl)
      simp only [Except.bind, hchosen]
      exact foldlM_total hhooks.request chosen

/-! ### Raw requests without a scheme -/

section Raw

open Routing

/-- No cancellation surfaces in a coroutine that is detached. -/
def Uncancelled (env : Env) : Prop := ∀ point, env.cancelled point = none

/-- The error response to a URL without a scheme. -/
def noSchemeResponse : Response := { error := str "url must include scheme" }

variable {env : Env} {request : Request} {P : Response → Prop}

/-- What a part of a raw request does whose URL has no scheme. -/
abbrev Refuses {α : Type} (P : α → Prop) (x : Step α) : Prop :=
  Ensures (fun _ => True) P (fun what => what = str "url must include scheme") x

theorem refuses_await (h : Uncancelled env) (point : Await) :
    Refuses (fun _ => True) (await env point) := by
  refine (Ensures.modify fun _ _ => trivial).bind fun _ _ => ?_
  rw [h point]
  exact Ensures.pure trivial

theorem refuses_originKey {α : Type} {Q : α → Prop} {k : Bytes → Step α}
    (h : hasUrlScheme request.url = false) :
    Refuses Q (ofExcept (originKey request.url) >>= k) := by
  rw [originKey_of_noScheme h]
  exact Ensures.throw rfl

theorem refuses_requestH1 (hcancel : Uncancelled env) (h : hasUrlScheme request.url = false) :
    Refuses (fun response => response = noSchemeResponse) (requestH1 env request) := by
  have hrefused : H1.parseUrl request.url = .error (str "url must include scheme") := by
    rw [H1.parseUrl, splitUrl_eq_error_iff.mpr ⟨h, rfl⟩]
    rfl
  refine (refuses_await hcancel .h1).bind fun _ _ => ?_
  rw [h1Delivery, hrefused]
  exact (Ensures.modify fun _ _ => trivial).bind fun _ _ => Ensures.pure rfl

theorem refuses_requestH2 {retry force : Bool} (h : hasUrlScheme request.url = false) :
    Refuses (fun _ => False) (requestH2 env request retry force) := refuses_originKey h

theorem refuses_askGate (hcancel : Uncancelled env) :
    Refuses (fun _ => True) (askGate env) := by
  have hdecision : ∀ decision, Refuses (fun _ => True) (followDecision env decision) := by
    intro decision
    rw [followDecision]
    split
    · exact Ensures.pure trivial
    · split
      · exact (refuses_await hcancel _).bind fun _ _ => Ensures.pure trivial
      · exact Ensures.pure trivial
    · refine (refuses_await hcancel _).bind fun _ _ => ?_
      refine Ensures.get.bind fun world _ => ?_
      split
      · exact (refuses_await hcancel _).bind fun _ _ => Ensures.pure trivial
      · exact Ensures.pure trivial
    · exact Ensures.pure trivial
  refine (Ensures.modify fun _ _ => trivial).bind fun _ _ => ?_
  refine (refuses_await hcancel _).bind fun _ _ => ?_
  have henter : Refuses (fun _ => True) (enterGate env) :=
    Ensures.get.bind fun _ _ => (Ensures.set trivial).bind fun _ _ => Ensures.pure trivial
  exact henter.bind fun decision _ => hdecision decision

theorem refuses_chooseRoute (hcancel : Uncancelled env) (h : hasUrlScheme request.url = false) :
    Refuses (fun _ => True) (chooseRoute env request) := by
  rw [chooseRoute]
  split
  · exact Ensures.pure trivial
  · exact Ensures.pure trivial
  · rw [rememberedRoute]
    split
    · exact Ensures.pure trivial
    · exact Ensures.pure trivial
    · exact refuses_askGate hcancel
  · exact refuses_originKey h

/-- A response without a scheme: none yet, or the error. -/
def Unschemed (ended : Option Response) : Prop := ∀ response ∈ ended, response = noSchemeResponse

theorem refuses_some {x : Step Response}
    (h : Refuses (fun response => response = noSchemeResponse) x) :
    Refuses Unschemed (some <$> x) := by
  rw [map_eq_pure_bind]
  refine h.bind fun response hresponse => Ensures.pure fun other hother => ?_
  obtain rfl := Option.some.inj hother
  exact hresponse

/-- A detection starts over HTTP/2. -/
theorem refuses_viaH2 {failed : Await} {update : OriginGate → OriginGate}
    (h : hasUrlScheme request.url = false) :
    Refuses (fun response => response = noSchemeResponse) (viaH2 env request failed update) :=
  (refuses_requestH2 h).bind fun _ hnone => hnone.elim

theorem refuses_requestAuto {rounds : List Env} (hcancel : ∀ env ∈ rounds, Uncancelled env)
    (h : hasUrlScheme request.url = false) : Refuses Unschemed (requestAuto rounds request) := by
  induction rounds with
  | nil => exact Ensures.pure fun _ hnone => nomatch hnone
  | cons env rounds ih =>
    have hhead := hcancel env List.mem_cons_self
    rw [requestAuto]
    refine (refuses_chooseRoute hhead h).bind fun route _ => ?_
    split
    · exact ih fun other hother => hcancel other (List.mem_cons_of_mem _ hother)
    · cases route with
      | h1 => exact refuses_some (refuses_requestH1 hhead h)
      | h2 => exact refuses_some ((refuses_requestH2 h).mono (fun _ hnone => hnone.elim)
          fun _ herror => herror)
      | detect => exact refuses_some (refuses_viaH2 h)
      | again => exact Ensures.pure fun _ hnone => nomatch hnone

theorem refuses_dispatch {rounds : List Env} (hcancel : ∀ env ∈ rounds, Uncancelled env)
    (h : hasUrlScheme request.url = false) : Refuses Unschemed (dispatch rounds request) := by
  cases rounds with
  | nil => exact Ensures.pure fun _ hnone => nomatch hnone
  | cons env rounds =>
    rw [dispatch]
    split
    · exact refuses_some (refuses_requestH1 (hcancel env List.mem_cons_self) h)
    · exact refuses_some ((refuses_requestH2 h).mono (fun _ hnone => hnone.elim)
        fun _ herror => herror)
    · exact refuses_some (refuses_originKey h)
    · exact refuses_some (refuses_originKey h)
    · exact refuses_requestAuto hcancel h

/-- The raw request answers a URL without a scheme with that error, on every route. -/
theorem rawRequest_of_noScheme {rounds : List Env} (hcancel : ∀ env ∈ rounds, Uncancelled env)
    (h : hasUrlScheme request.url = false) (world : World) :
    Unschemed (rawRequest rounds request world).1 := by
  obtain ⟨-, hvalue, herror⟩ := refuses_dispatch hcancel h world trivial
  rw [rawRequest]
  cases hout : (dispatch rounds request).outcome world with
  | mk result after =>
    rw [hout] at hvalue herror
    cases result with
    | ok ended => exact hvalue ended rfl
    | error what =>
      intro response hresponse
      obtain rfl := Option.some.inj hresponse
      rw [herror what rfl]
      rfl

end Raw

/-! ### The loop -/

variable {options : PolicyOptions} {externals : Externals ω τ}

/-- The raw requests are those of the client. -/
def Routed (externals : Externals ω τ) : Prop :=
  ∀ request around, ∃ rounds world, (∀ env ∈ rounds, Uncancelled env) ∧
    (externals.raw request around).1 = (Routing.rawRequest rounds request world).1

/-- The raw requests finish. -/
def Finishes (externals : Externals ω τ) : Prop :=
  ∀ request around, (externals.raw request around).1 ≠ none

/-- The response of a hop without a scheme, before the hooks. -/
def noSchemeHop (redirects : Nat) (url : Bytes) : Response :=
  { noSchemeResponse with finalUrl := url, redirectCount := redirects }

/-- What the hop of a URL with a scheme returns. -/
def HasScheme (ended : Option (Request × Response)) : Prop :=
  ∃ sent response, ended = some (sent, response) ∧ hasUrlScheme sent.url = true

/-- What the hop of a URL without a scheme returns. -/
def NoScheme (options : PolicyOptions) (redirects : Nat) (current : Request)
    (ended : Option (Request × Response)) : Prop :=
  ∃ response, ended = some (current, response) ∧
    options.responseHooks.foldlM (fun response hook => hook response)
      (noSchemeHop redirects current.url) = .ok response

theorem returns_withCookies {current : Request}
    (h : usesJar options current = false ∨ hasUrlScheme current.url = true) :
    Returns (fun sent => sent = current ∧ usesJar options current = false ∨
      sent.url = current.url ∧ hasUrlScheme current.url = true)
      (withCookies options current : PolicyCall ω τ Request) := by
  refine Returns.get.bind fun state _ => ?_
  by_cases hscheme : hasUrlScheme current.url = true
  · split
    · obtain ⟨parsed, hparsed⟩ := parseUrl_of_hasUrlScheme hscheme
      refine Returns.bind (Q := fun _ => True) (Returns.ofExcept ?_) fun pair _ => ?_
      · rw [CookieJar.cookieHeader, hparsed]
        exact ⟨_, rfl, trivial⟩
      · refine Returns.set.bind fun _ _ => Returns.pure (.inr ⟨?_, hscheme⟩)
        split
        · rfl
        · rfl
    · exact Returns.pure (.inr ⟨rfl, hscheme⟩)
  · have hjar := h.resolve_right hscheme
    rw [if_neg (by simp [hjar])]
    exact Returns.pure (.inl ⟨rfl, hjar⟩)

theorem returns_rawHop {redirects : Nat} {jar : CookieJar} {now : Int} {current : Request}
    (hrouted : Routed externals) (hfinishes : Finishes externals) :
    Returns (fun ended => ∃ response, ended = some response ∧
        (hasUrlScheme current.url = false → response = noSchemeResponse))
      (rawHop externals redirects jar now current) := by
  refine Returns.get.bind fun state _ => ?_
  refine Returns.set.bind fun _ _ => Returns.pure ?_
  cases hraw : (externals.raw current state.around).1 with
  | none => exact absurd hraw (hfinishes _ _)
  | some response =>
    refine ⟨response, rfl, fun hscheme => ?_⟩
    obtain ⟨rounds, world, hcancel, hrounds⟩ := hrouted current state.around
    have hrefused := rawRequest_of_noScheme hcancel hscheme world
    rw [← hrounds, hraw] at hrefused
    exact hrefused response rfl

theorem returns_takeCookies {current : Request} {response : Response}
    (h : usesJar options current = false ∨ hasUrlScheme current.url = true) :
    Returns (fun _ => True) (takeCookies options current response : PolicyCall ω τ Unit) := by
  refine Returns.get.bind fun state _ => ?_
  split
  · rename_i hjar
    obtain ⟨parsed, hparsed⟩ := parseUrl_of_hasUrlScheme (h.resolve_left (by simp [hjar]))
    refine Returns.bind (Q := fun _ => True) (Returns.ofExcept ?_) fun jar _ => Returns.set
    rw [CookieJar.addFromResponse, hparsed]
    exact ⟨_, rfl, trivial⟩
  · exact Returns.pure trivial

/-- With a jar, a URL without a scheme throws when the cookies of its response are taken. -/
theorem throws_takeCookies {current : Request} {response : Response}
    (hjar : usesJar options current = true) (hscheme : hasUrlScheme current.url = false) :
    Throws (takeCookies options current response : PolicyCall ω τ Unit) := by
  refine Returns.get.bind_throws fun state _ => ?_
  rw [if_pos hjar]
  refine Throws.bind (Throws.ofExcept ?_)
  rw [CookieJar.addFromResponse, parseUrl_of_noScheme hscheme]
  exact ⟨_, rfl⟩

theorem returns_finishHop {redirects : Nat} {current : Request} {response : Response}
    (hhooks : TotalHooks options)
    (h : usesJar options current = false ∨ hasUrlScheme current.url = true) :
    Returns (fun ended => ∃ hooked, ended = some (current, hooked) ∧
        options.responseHooks.foldlM (fun response hook => hook response)
          (completeResponse externals redirects current response) = .ok hooked)
      (finishHop options externals redirects current response) := by
  refine (returns_takeCookies h).bind fun _ _ => ?_
  obtain ⟨hooked, hhooked⟩ := foldlM_total hhooks.response
    (completeResponse externals redirects current response)
  have hrun : Returns (fun hooked => options.responseHooks.foldlM
      (fun response hook => hook response)
      (completeResponse externals redirects current response) = .ok hooked)
      (ofExcept (options.responseHooks.foldlM (fun response hook => hook response)
        (completeResponse externals redirects current response)) : PolicyCall ω τ Response) :=
    Returns.ofExcept ⟨hooked, hhooked, hhooked⟩
  exact hrun.bind fun hooked hhooked => Returns.pure ⟨hooked, rfl, hhooked⟩

/-- An error is not decompressed. -/
theorem completeResponse_noScheme (redirects : Nat) (current : Request) :
    completeResponse externals redirects current noSchemeResponse =
      noSchemeHop redirects current.url := by
  have herror : noSchemeResponse.error ≠ [] := by decide
  rw [completeResponse, if_neg fun h => herror h.2.2.1]
  rfl

theorem returns_oneHop_of_scheme {redirects : Nat} {current : Request}
    (hhooks : TotalHooks options) (hrouted : Routed externals) (hfinishes : Finishes externals)
    (h : hasUrlScheme current.url = true) :
    Returns HasScheme (oneHop options externals redirects current) := by
  refine Returns.get.bind fun state _ => ?_
  refine (returns_withCookies (.inr h)).bind fun sent hsent => ?_
  have hscheme : hasUrlScheme sent.url = true := by
    rcases hsent with ⟨rfl, -⟩ | ⟨hurl, -⟩
    · exact h
    · rw [hurl]
      exact h
  refine (returns_rawHop hrouted hfinishes).bind fun ended hended => ?_
  obtain ⟨response, rfl, -⟩ := hended
  refine (returns_finishHop hhooks (.inr hscheme)).mono fun ended hended => ?_
  obtain ⟨hooked, rfl, -⟩ := hended
  exact ⟨sent, hooked, rfl, hscheme⟩

theorem returns_oneHop_of_noScheme {redirects : Nat} {current : Request}
    (hhooks : TotalHooks options) (hrouted : Routed externals) (hfinishes : Finishes externals)
    (hjar : usesJar options current = false) (h : hasUrlScheme current.url = false) :
    Returns (NoScheme options redirects current) (oneHop options externals redirects current) := by
  refine Returns.get.bind fun state _ => ?_
  refine (returns_withCookies (.inl hjar)).bind fun sent hsent => ?_
  have hsame : sent = current := by
    rcases hsent with ⟨hsame, -⟩ | ⟨-, hscheme⟩
    · exact hsame
    · rw [h] at hscheme
      cases hscheme
  subst hsame
  refine (returns_rawHop hrouted hfinishes).bind fun ended hended => ?_
  obtain ⟨response, rfl, hresponse⟩ := hended
  rw [hresponse h]
  refine (returns_finishHop hhooks (.inl hjar)).mono fun ended hended => ?_
  rw [completeResponse_noScheme] at hended
  obtain ⟨hooked, rfl, hhooked⟩ := hended
  exact ⟨hooked, rfl, hhooked⟩

theorem throws_oneHop {redirects : Nat} {current : Request} (hrouted : Routed externals)
    (hfinishes : Finishes externals) (hjar : usesJar options current = true)
    (h : hasUrlScheme current.url = false) :
    Throws (oneHop options externals redirects current) := by
  refine Returns.get.bind_throws fun state _ => ?_
  by_cases hcookie : (current.header (str "Cookie")).isNone = true
  · -- the jar parses the URL before its cookies are sent
    refine Throws.bind (Returns.get.bind_throws fun state _ => ?_)
    rw [if_pos ⟨hjar, hcookie⟩]
    refine Throws.bind (Throws.ofExcept ?_)
    rw [CookieJar.cookieHeader, parseUrl_of_noScheme h]
    exact ⟨_, rfl⟩
  · have hkept : Returns (fun sent => sent = current)
        (withCookies options current : PolicyCall ω τ Request) := by
      refine Returns.get.bind fun state _ => ?_
      rw [if_neg fun hboth => hcookie hboth.2]
      exact Returns.pure rfl
    refine hkept.bind_throws fun sent hsent => ?_
    subst hsent
    refine (returns_rawHop hrouted hfinishes).bind_throws fun ended hended => ?_
    obtain ⟨response, rfl, -⟩ := hended
    exact Throws.bind (throws_takeCookies hjar h)

/-! ### Redirects and retries -/

theorem redirected_eq (request : Request) (status : Nat) (location : Bytes) :
    redirected request status location = (resolveRedirectUrl request.url location).map fun url =>
      if redirectChangesToGet status request.method then changeToGet { request with url }
      else { request with url } := by
  rw [redirected]
  cases resolveRedirectUrl request.url location with
  | error what => rfl
  | ok url => rfl

/-- The next hop has a scheme if the redirect can be resolved to a URL with a scheme. -/
theorem redirected_ok {request : Request} {status : Nat} {location : Bytes}
    (h : ∃ url, resolveRedirectUrl request.url location = .ok url ∧ hasUrlScheme url = true) :
    ∃ next, redirected request status location = .ok next ∧ hasUrlScheme next.url = true := by
  obtain ⟨url, hurl, hscheme⟩ := h
  rw [redirected_eq, hurl]
  refine ⟨_, rfl, ?_⟩
  split
  · exact hscheme
  · exact hscheme

theorem returns_followHops_of_scheme {follows : Bool} {remaining redirects : Nat}
    {current : Request} (hhooks : TotalHooks options) (hrouted : Routed externals)
    (hfinishes : Finishes externals) (h : hasUrlScheme current.url = true) :
    Returns (fun ended => ended.isSome = true)
      (followHops options externals follows remaining redirects current) := by
  induction remaining generalizing redirects current with
  | zero =>
    refine (returns_oneHop_of_scheme hhooks hrouted hfinishes h).bind fun ended hended => ?_
    obtain ⟨sent, response, rfl, -⟩ := hended
    rw [afterHop]
    split
    · exact Returns.pure rfl
    · exact Returns.pure rfl
  | succ remaining ih =>
    refine (returns_oneHop_of_scheme hhooks hrouted hfinishes h).bind fun ended hended => ?_
    obtain ⟨sent, response, rfl, hscheme⟩ := hended
    rw [afterHop]
    split
    · exact Returns.pure rfl
    · -- a redirect from a URL with a scheme leads to one
      refine Returns.bind (Returns.ofExcept ?_) fun next hnext => ih hnext
      exact redirected_ok (resolveRedirectUrl_of_scheme hscheme)

/-- The hooks do not make of the error response a redirect that cannot be resolved. -/
def StaysPut (options : PolicyOptions) (current : Request) : Prop :=
  ∀ hooked location,
    options.responseHooks.foldlM (fun response hook => hook response)
      (noSchemeHop 0 current.url) = .ok hooked →
    nextLocation (followsRedirects options current) hooked = some location →
    0 < maxRedirects options current → hasUrlScheme (trim location) = true

theorem returns_tryOnce_of_noScheme {request : Request} (hhooks : TotalHooks options)
    (hrouted : Routed externals) (hfinishes : Finishes externals)
    (hjar : usesJar options request = false) (h : hasUrlScheme request.url = false)
    (hstays : StaysPut options request) :
    Returns (fun ended => ended.isSome = true) (tryOnce options externals request) := by
  refine Returns.modify.bind fun _ _ => ?_
  have hhop : Returns (NoScheme options 0 request) (oneHop options externals 0 request) :=
    returns_oneHop_of_noScheme hhooks hrouted hfinishes hjar h
  cases hremaining : (maxRedirects options request).toNat with
  | zero =>
    refine hhop.bind fun ended hended => ?_
    obtain ⟨response, rfl, -⟩ := hended
    rw [afterHop]
    split
    · exact Returns.pure rfl
    · exact Returns.pure rfl
  | succ remaining =>
    refine hhop.bind fun ended hended => ?_
    obtain ⟨response, rfl, hhooked⟩ := hended
    rw [afterHop]
    split
    · exact Returns.pure rfl
    · rename_i location hnext
      have hscheme := hstays response location hhooked hnext (by omega)
      refine Returns.bind (Returns.ofExcept ?_) fun next hnext =>
        returns_followHops_of_scheme hhooks hrouted hfinishes hnext
      refine redirected_ok ⟨trim location, ?_, hscheme⟩
      rw [resolveRedirectUrl_of_noScheme h, if_pos hscheme]

theorem returns_tryRequest {request : Request} {remaining : Nat}
    (h : Returns (fun ended => ended.isSome = true) (tryOnce options externals request)) :
    Returns (fun ended => ended.isSome = true)
      (tryRequest options externals request remaining) := by
  induction remaining with
  | zero => exact h
  | succ remaining ih =>
    refine h.bind fun ended hended => ?_
    cases ended with
    | none => cases hended
    | some last =>
      dsimp only
      split
      · exact Returns.modify.bind fun _ _ => ih
      · exact Returns.pure rfl

theorem throws_tryRequest {request : Request} {remaining : Nat}
    (h : Throws (tryOnce options externals request)) :
    Throws (tryRequest options externals request remaining) := by
  cases remaining with
  | zero => exact h
  | succ remaining => exact h.bind

theorem throws_tryOnce_of_jar {request : Request} (hrouted : Routed externals)
    (hfinishes : Finishes externals) (hjar : usesJar options request = true)
    (h : hasUrlScheme request.url = false) : Throws (tryOnce options externals request) := by
  refine Returns.modify.bind_throws fun _ _ => ?_
  cases (maxRedirects options request).toNat with
  | zero => exact Throws.bind (throws_oneHop hrouted hfinishes hjar h)
  | succ remaining => exact Throws.bind (throws_oneHop hrouted hfinishes hjar h)

theorem throws_tryOnce_of_redirect {request : Request} (hhooks : TotalHooks options)
    (hrouted : Routed externals) (hfinishes : Finishes externals)
    (hjar : usesJar options request = false) (h : hasUrlScheme request.url = false)
    (hstays : ¬ StaysPut options request) : Throws (tryOnce options externals request) := by
  simp only [StaysPut, not_forall] at hstays
  obtain ⟨hooked, location, hhooked, hnext, hpositive, hscheme⟩ := hstays
  obtain ⟨remaining, hremaining⟩ : ∃ remaining,
      (maxRedirects options request).toNat = remaining + 1 :=
    ⟨(maxRedirects options request).toNat - 1, by omega⟩
  refine Returns.modify.bind_throws fun _ _ => ?_
  rw [hremaining]
  refine (returns_oneHop_of_noScheme hhooks hrouted hfinishes hjar h).bind_throws
    fun ended hended => ?_
  obtain ⟨response, rfl, hresponse⟩ := hended
  obtain rfl : hooked = response := Except.ok.inj (hhooked.symm.trans hresponse)
  rw [afterHop, hnext]
  refine Throws.bind (Throws.ofExcept ?_)
  rw [redirected_eq, resolveRedirectUrl_of_noScheme h, if_neg hscheme]
  exact ⟨_, rfl⟩

/-! ### The coroutine -/

/-- A completed request does not throw in the loop: it is not tried at all, or its URL has a
scheme, or nothing parses that URL. -/
def Sendable (options : PolicyOptions) (completed : Request) : Prop :=
  maxRetries options completed < 0 ∨ hasUrlScheme completed.url = true ∨
    usesJar options completed = false ∧ StaysPut options completed

/-- Nothing throws in the coroutine of the policy. -/
structure Answerable (options : PolicyOptions) (getenv : Bytes → Option Bytes)
    (request : Request) : Prop where
  completes : Completes options request
  sendable : ∀ completed, applyDefaults options getenv request = .ok completed →
    Sendable options completed

theorem returns_requestWithHttpxPolicy {request : Request} (hhooks : TotalHooks options)
    (hrouted : Routed externals) (hfinishes : Finishes externals)
    (h : Answerable options externals.getenv request) :
    Returns (fun ended => ended.isSome = true)
      (requestWithHttpxPolicy options externals request) := by
  obtain ⟨completed, hcompleted⟩ := (applyDefaults_ok_iff hhooks).mpr h.completes
  have hsendable := h.sendable completed hcompleted
  rw [requestWithHttpxPolicy, hcompleted]
  refine Returns.bind (Q := fun sent => sent = completed) (Returns.pure rfl) fun sent hsent => ?_
  subst hsent
  split
  · exact Returns.pure rfl
  · rename_i hretries
    apply returns_tryRequest
    by_cases hscheme : hasUrlScheme sent.url = true
    · exact Returns.modify.bind fun _ _ =>
        returns_followHops_of_scheme hhooks hrouted hfinishes hscheme
    · obtain ⟨hjar, hstays⟩ := (hsendable.resolve_left hretries).resolve_left hscheme
      exact returns_tryOnce_of_noScheme hhooks hrouted hfinishes hjar
        (Bool.eq_false_iff.mpr hscheme) hstays

theorem throws_requestWithHttpxPolicy {request : Request} (hhooks : TotalHooks options)
    (hrouted : Routed externals) (hfinishes : Finishes externals)
    (h : ¬ Answerable options externals.getenv request) :
    Throws (requestWithHttpxPolicy options externals request) := by
  by_cases hcompletes : Completes options request
  · obtain ⟨completed, hcompleted⟩ := (applyDefaults_ok_iff hhooks).mpr hcompletes
    have hnot : ¬ Sendable options completed := by
      intro hsendable
      refine h ⟨hcompletes, fun other hother => ?_⟩
      obtain rfl := Except.ok.inj (hcompleted.symm.trans hother)
      exact hsendable
    simp only [Sendable, not_or] at hnot
    obtain ⟨hretries, hscheme, hloop⟩ := hnot
    have hnone : hasUrlScheme completed.url = false := Bool.eq_false_iff.mpr hscheme
    rw [requestWithHttpxPolicy, hcompleted]
    refine Returns.bind_throws (Q := fun sent => sent = completed) (Returns.pure rfl)
      fun sent hsent => ?_
    subst hsent
    rw [if_neg hretries]
    apply throws_tryRequest
    by_cases hjar : usesJar options sent = true
    · exact throws_tryOnce_of_jar hrouted hfinishes hjar hnone
    · rw [Bool.not_eq_true] at hjar
      exact throws_tryOnce_of_redirect hhooks hrouted hfinishes hjar hnone
        fun hstays => hloop ⟨hjar, hstays⟩
  · refine Throws.bind (Throws.ofExcept ?_)
    cases hdefaults : applyDefaults options externals.getenv request with
    | error what => exact ⟨what, rfl⟩
    | ok completed =>
      exact absurd ((applyDefaults_ok_iff hhooks).mp ⟨completed, hdefaults⟩) hcompletes

/-! ### The handler -/

/-- The handler is called once, on the way the request goes. -/
def HandlerKept (options : PolicyOptions) (getenv : Bytes → Option Bytes) (env : Routing.Env)
    (request : Request) : Prop :=
  match submitRoute options env request with
  | .ok .policy => Answerable options getenv request
  | .ok .h2 => ∃ url, H2.parseUrl request.url = .ok url
  | _ => True

theorem submit_policy_answeredOnce_iff {hash : Bytes → UInt64} {env : Routing.Env}
    {request : Request} {state : PolicyState ω τ} (hhooks : TotalHooks options)
    (hrouted : Routed externals) (hfinishes : Finishes externals)
    (hroute : submitRoute options env request = .ok .policy) :
    (submit options externals hash env request state).AnsweredOnce ↔
      Answerable options externals.getenv request := by
  unfold submit
  rw [hroute]
  constructor
  · intro honce
    by_contra hnot
    obtain ⟨what, after, hout⟩ :=
      throws_requestWithHttpxPolicy hhooks hrouted hfinishes hnot state
    simp only [spawn, hout, Submission.AnsweredOnce] at honce
    cases honce.1
  · intro h
    obtain ⟨ended, after, hout, hended⟩ :=
      returns_requestWithHttpxPolicy hhooks hrouted hfinishes h state
    cases ended with
    | none => cases hended
    | some response =>
      simp only [spawn, hout]
      exact ⟨rfl, rfl⟩

/-- The handler is called exactly once if nothing throws where nothing catches; otherwise it is
called never, or after it was moved away. -/
theorem answeredOnce_iff {hash : Bytes → UInt64} {env : Routing.Env} {request : Request}
    {state : PolicyState ω τ} (hhooks : TotalHooks options) (hrouted : Routed externals)
    (hfinishes : Finishes externals) :
    (submit options externals hash env request state).AnsweredOnce ↔
      HandlerKept options externals.getenv env request := by
  unfold HandlerKept
  cases hroute : submitRoute options env request with
  | error what =>
    unfold submit
    rw [hroute]
    exact ⟨fun _ => trivial, fun _ => ⟨rfl, rfl⟩⟩
  | ok route =>
    cases route with
    | policy => exact submit_policy_answeredOnce_iff hhooks hrouted hfinishes hroute
    | h1 =>
      unfold submit
      rw [hroute]
      exact ⟨fun _ => trivial, fun _ => ⟨rfl, rfl⟩⟩
    | h2 =>
      by_cases haccepted : ∃ url, H2.parseUrl request.url = .ok url
      · rw [submit_fast hroute (by decide) fun _ => haccepted]
        exact ⟨fun _ => haccepted, fun _ => ⟨rfl, rfl⟩⟩
      · rw [submit_lost hroute haccepted]
        exact ⟨(fun honce => nomatch honce.2), fun h => absurd h haccepted⟩

/-- An origin that is known for HTTP/1.1. -/
def h1Origin : Routing.Env := { tlsRoute := some .h1Only }

/-- Every raw request finds the origin known. -/
def h1Externals : Externals Unit Unit where
  raw sent around := ((Routing.rawRequest [h1Origin] sent {}).1, around, ())
  pause _ around := around
  zlibDecode _ body := .ok body
  getenv _ := none

theorem routed_h1Externals : Routed h1Externals := by
  refine fun request around => ⟨[h1Origin], {}, fun env henv point => ?_, rfl⟩
  obtain rfl := List.mem_singleton.mp henv
  rfl

theorem finishes_h1Externals : Finishes h1Externals := by
  intro request around
  have hsome : ∃ x : Routing.Step Response, Routing.dispatch [h1Origin] request = some <$> x := by
    rw [Routing.dispatch]
    cases Routing.routePolicy request with
    | forceH1 => exact ⟨_, rfl⟩
    | forceH2 => exact ⟨_, rfl⟩
    | preferH1 => exact ⟨_, rfl⟩
    | preferH2 => exact ⟨_, rfl⟩
    | auto => exact ⟨Routing.requestH1 h1Origin request, rfl⟩
  obtain ⟨x, hx⟩ := hsome
  change (Routing.rawRequest [h1Origin] request {}).1 ≠ none
  have hfirst := outcome_map_fst (x := x) some {}
  rw [Routing.rawRequest, hx]
  cases hout : ((some <$> x : Routing.Step (Option Response)).outcome {}) with
  | mk result after =>
    rw [hout] at hfirst
    cases hresult : (x.outcome {}).1 with
    | ok response =>
      rw [hresult] at hfirst
      subst hfirst
      exact Option.some_ne_none _
    | error what =>
      rw [hresult] at hfirst
      subst hfirst
      exact Option.some_ne_none _

theorem totalHooks_default : TotalHooks {} :=
  ⟨(fun _ h => nomatch h), fun _ h => nomatch h⟩

/-- A page that is asked for over HTTP/2 only. -/
def h2Page (url : Bytes) : Request := { url, protocolPolicy := .forceH2 }

theorem answeredOnce_iff_page :
    (submit {} h1Externals (fun _ => 0) h1Origin (h2Page (str "https://a/page"))
      noneTried).AnsweredOnce := by
  have hcompleted : applyDefaults {} h1Externals.getenv (h2Page (str "https://a/page")) =
      .ok (h2Page (str "https://a/page")) := by decide +kernel
  have hanswerable : Answerable {} h1Externals.getenv (h2Page (str "https://a/page")) := by
    refine ⟨(applyDefaults_ok_iff totalHooks_default).mp ⟨_, hcompleted⟩, fun other hother => ?_⟩
    obtain rfl := Except.ok.inj (hcompleted.symm.trans hother)
    exact .inr (.inl (by decide +kernel))
  exact (answeredOnce_iff totalHooks_default routed_h1Externals finishes_h1Externals).mpr
    hanswerable

/-- A URL without a scheme throws while the request is completed, in the detached coroutine:
the handler is never called. -/
theorem not_answeredOnce_noScheme :
    TotalHooks {} ∧ Routed h1Externals ∧ Finishes h1Externals ∧
      (submit {} h1Externals (fun _ => 0) h1Origin (h2Page (str "a/page")) noneTried).answers = [] ∧
      ¬ (submit {} h1Externals (fun _ => 0) h1Origin (h2Page (str "a/page"))
        noneTried).AnsweredOnce :=
  ⟨totalHooks_default, routed_h1Externals, finishes_h1Externals, by decide +kernel,
    by decide +kernel⟩

end HttpClient.Policy
