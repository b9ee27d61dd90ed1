import HttpClient.H1.HeadBreaks
import HttpClient.Policy.Hops

/-!
# Servers cannot inject header lines

Bytes that a server chooses come back in later requests: a location becomes the URL of
the next hop, and cookies become a header line. A response head is split into lines at
its line breaks, so none is left in a line; and no byte of a line is moved to where it
could complete a line break. Along every chain of hops the requests then have no line
break, and their heads have the line breaks of their own lines and no others.

## Main definitions

* `SplitHeaders` — header lines that come from a response head
* `JarMoves` — what responses to other requests do to the jar meanwhile
* `Lightweight` — raw requests are answered by responses that were split into lines

## Main results

* `breaks_of_hops` — every recorded hop has a head with the right number of line breaks
-/

set_option autoImplicit false

namespace HttpClient.Policy

open Text Semantics Semantics.Call

variable {ω τ : Type} {options : PolicyOptions} {externals : Externals ω τ}

/-! ### What comes from a server -/

/-- The headers are lines of a response head, whatever bytes it was split from. -/
def SplitHeaders (headers : List Bytes) : Prop :=
  ∃ text, ∀ line ∈ headers, line ∈ H1.headLines text

theorem SplitHeaders.unbroken {headers : List Bytes} (h : SplitHeaders headers) :
    ∀ line ∈ headers, Unbroken line := by
  obtain ⟨text, htext⟩ := h
  exact fun line hline => H1.unbroken_of_mem_headLines (htext line hline)

/-- What the calls of any number of requests do to the jar. -/
inductive JarMoves (options : JarOptions) (jar : CookieJar) : CookieJar → Prop where
  | refl : JarMoves options jar jar
  | add {before after : CookieJar} {url : Bytes} {response : Response} {now : Int} :
      JarMoves options jar before → SplitHeaders response.headers →
      before.addFromResponse options url response now = .ok after → JarMoves options jar after
  | header {before after : CookieJar} {url header : Bytes} {now : Int} :
      JarMoves options jar before → before.cookieHeader url now = .ok (header, after) →
      JarMoves options jar after
  | clear {before : CookieJar} : JarMoves options jar before → JarMoves options jar []

/-- Raw requests are answered by split heads, and meanwhile the jar changes by such
responses too. Response hooks put no line break into a header. -/
structure Lightweight (options : PolicyOptions) (externals : Externals ω τ) : Prop where
  headers : ∀ request around response, (externals.raw request around).1 = some response →
    SplitHeaders response.headers
  jar_raw : ∀ request around,
    JarMoves options.toJarOptions around.jar (externals.raw request around).2.1.jar
  jar_pause : ∀ backoff around,
    JarMoves options.toJarOptions around.jar (externals.pause backoff around).jar
  hooks : ∀ hook ∈ options.responseHooks, ∀ response hooked, hook response = .ok hooked →
    (∀ line ∈ response.headers, Unbroken line) → ∀ line ∈ hooked.headers, Unbroken line

/-! ### Cookies -/

/-- Neither the name nor the value of a cookie contains a line break. -/
def UnbrokenCookie (_ : Bytes) (cookie : Cookie) : Prop :=
  Unbroken cookie.name ∧ Unbroken cookie.value

def UnbrokenJar (jar : CookieJar) : Prop := jar.Every UnbrokenCookie

theorem unbroken_splitNameValue {text : Bytes} (h : Unbroken text) :
    Unbroken (splitNameValue text).1 ∧ Unbroken (splitNameValue text).2 := by
  rw [splitNameValue]
  cases findByte 61 text with
  | none => exact ⟨h.trim, unbroken_nil⟩
  | some eq => exact ⟨(h.take eq).trim, (h.drop (eq + 1)).trim⟩

/-- Attributes change neither the name nor the value. -/
theorem readAttributes_pair (host : Bytes) (now : Int) (attributes : List Bytes)
    (state : Cookie × Bool) :
    (attributes.foldl (CookieJar.readAttribute host now) state).1.name = state.1.name ∧
      (attributes.foldl (CookieJar.readAttribute host now) state).1.value = state.1.value := by
  induction attributes generalizing state with
  | nil => exact ⟨rfl, rfl⟩
  | cons part attributes ih =>
    have hone : (CookieJar.readAttribute host now state part).1.name = state.1.name ∧
        (CookieJar.readAttribute host now state part).1.value = state.1.value := by
      rw [CookieJar.readAttribute]
      dsimp only
      repeat' split
      all_goals exact ⟨rfl, rfl⟩
    rw [List.foldl_cons, (ih _).1, (ih _).2]
    exact hone

theorem unbroken_readCookie {url : ParsedUrl} {now : Int} {text : Bytes} {cookie : Cookie}
    {deleted : Bool} (h : Unbroken text)
    (hread : CookieJar.readCookie url now text = some (cookie, deleted)) (domain : Bytes) :
    UnbrokenCookie domain cookie := by
  rw [CookieJar.readCookie] at hread
  cases hparts : splitParts 59 text with
  | nil => simp [hparts] at hread
  | cons pair attributes =>
    simp only [hparts] at hread
    split at hread
    · cases hread
    · obtain rfl := congrArg Prod.fst (Option.some.inj hread)
      have hpair : Unbroken pair :=
        h.of_piece (infix_of_mem_splitParts (hparts ▸ List.mem_cons_self))
      have hfold := fun state => readAttributes_pair url.host now attributes state
      refine ⟨?_, ?_⟩
      · rw [(hfold _).1]
        exact (unbroken_splitNameValue hpair).1
      · rw [(hfold _).2]
        exact (unbroken_splitNameValue hpair).2

theorem unbrokenJar_addLine {jarOptions : JarOptions} {url : ParsedUrl} {now : Int}
    {jar : CookieJar} {line : Bytes} (h : UnbrokenJar jar) (hline : Unbroken line) :
    UnbrokenJar (CookieJar.addLine jarOptions url now jar line) := by
  rw [CookieJar.addLine]
  cases findByte 58 line with
  | none => exact h
  | some colon =>
    dsimp only
    split
    · exact h
    · cases hread : CookieJar.readCookie url now (trim (line.drop (colon + 1))) with
      | none => exact h
      | some found =>
        obtain ⟨cookie, deleted⟩ := found
        exact CookieJar.Every.store h (fun _ _ _ hold => hold)
          fun _ => unbroken_readCookie (hline.drop _).trim hread _

theorem unbrokenJar_addFromResponse {jarOptions : JarOptions} {jar after : CookieJar}
    {url : Bytes} {response : Response} {now : Int} (h : UnbrokenJar jar)
    (hlines : ∀ line ∈ response.headers, Unbroken line)
    (hadd : jar.addFromResponse jarOptions url response now = .ok after) : UnbrokenJar after := by
  rw [CookieJar.addFromResponse] at hadd
  cases hparsed : parseUrl url with
  | error what =>
    rw [hparsed] at hadd
    cases hadd
  | ok parsed =>
    rw [hparsed] at hadd
    obtain rfl := Except.ok.inj hadd
    refine CookieJar.Every.enforceDomainCount ?_ jarOptions
    -- the lines are read one after the other
    suffices hfold : ∀ (lines : List Bytes) (jar : CookieJar), UnbrokenJar jar →
        (∀ line ∈ lines, Unbroken line) →
        UnbrokenJar (lines.foldl (CookieJar.addLine jarOptions parsed now) jar) from
      hfold _ _ (CookieJar.Every.pruneExpired h now) hlines
    intro lines
    induction lines with
    | nil => exact fun jar h _ => h
    | cons line lines ih =>
      intro jar h hlines
      exact ih _ (unbrokenJar_addLine h (hlines line List.mem_cons_self))
        fun l hl => hlines l (List.mem_cons_of_mem _ hl)

theorem unbrokenJar_cookieHeader {jar after : CookieJar} {url header : Bytes} {now : Int}
    (h : UnbrokenJar jar) (hheader : jar.cookieHeader url now = .ok (header, after)) :
    UnbrokenJar after :=
  CookieJar.Every.cookieHeader h (fun _ _ _ hold => hold) hheader

theorem unbroken_cookieHeader {jar after : CookieJar} {url header : Bytes} {now : Int}
    (h : UnbrokenJar jar) (hheader : jar.cookieHeader url now = .ok (header, after)) :
    Unbroken header := by
  obtain ⟨parsed, cookies, -, rfl, hcookies⟩ := CookieJar.cookieHeader_selects hheader
  have hsep : Unbroken (str "; ") := by decide
  have heq : Unbroken (str "=") := by decide
  refine Unbroken.intercalate hsep (by decide) (by decide) (by decide) fun part hpart => ?_
  obtain ⟨cookie, hcookie, rfl⟩ := List.mem_map.mp hpart
  obtain ⟨-, -, entry, hentry, hmem, -⟩ := hcookies cookie hcookie
  obtain ⟨hname, hvalue⟩ := h entry hentry cookie hmem
  exact (hname.append heq (.right (by decide))).append hvalue (.left (by simp [str]))

theorem unbrokenJar_moves {jarOptions : JarOptions} {jar after : CookieJar}
    (hmoves : JarMoves jarOptions jar after) (h : UnbrokenJar jar) : UnbrokenJar after := by
  induction hmoves with
  | refl => exact h
  | add _ hsplit hadd ih => exact unbrokenJar_addFromResponse ih hsplit.unbroken hadd
  | header _ hheader ih => exact unbrokenJar_cookieHeader ih hheader
  | clear _ _ => exact CookieJar.every_nil

/-! ### Redirects -/

theorem unbroken_parseUrl {text : Bytes} {url : ParsedUrl} (h : Unbroken text)
    (hparse : parseUrl text = .ok url) : UnbrokenUrl url := by
  rw [parseUrl] at hparse
  cases hcut : splitUrl text with
  | error what => simp [hcut, bind, Except.bind] at hparse
  | ok parts =>
    obtain ⟨scheme, authority, target⟩ := parts
    rw [hcut] at hparse
    obtain rfl := Except.ok.inj hparse
    exact unbrokenUrl_of_split h hcut

theorem unbroken_originOf {url : ParsedUrl} (h : UnbrokenUrl url) : Unbroken (originOf url) := by
  have hsep : Unbroken (str "://") := by decide
  have hcolon : Unbroken (str ":") := by decide
  have hhost := (h.scheme.append hsep (.right (by decide))).append h.host (.left (by simp [str]))
  rw [originOf]
  split
  · rwa [List.append_nil]
  · exact hhost.append (hcolon.append h.port (.left (by decide))) (.right (by simp [str]))

/-- The text up to a last slash ends with it. -/
theorem getLast_take_rfindByte {path : Bytes} {slash : Nat} (h : rfindByte 47 path = some slash) :
    (path.take (slash + 1)).getLast? = some 47 := by
  have htext := (rfindByte_eq_some h).1
  have hlen : (path.take slash).length = slash := by
    have := congrArg List.length htext
    simp only [List.length_append, List.length_cons, List.length_take, List.length_drop] at this ⊢
    omega
  have hbyte : path[slash]? = some 47 := by
    rw [htext, List.getElem?_append_right hlen.le, hlen, Nat.sub_self]
    rfl
  rw [List.take_add_one, hbyte]
  simp

/-- The directory of a path is a piece of it, from a slash to a slash. -/
theorem unbroken_directoryOf {target : Bytes} (h : Unbroken target)
    (hhead : target.head? = some 47) :
    Unbroken (directoryOf target) ∧ (directoryOf target).head? = some 47 ∧
      (directoryOf target).getLast? = some 47 := by
  have hdir : ∀ path : Bytes, (findByte 63 target).elim target target.take = path →
      Unbroken path → path.head? = some 47 →
      Unbroken (directoryOf target) ∧ (directoryOf target).head? = some 47 ∧
        (directoryOf target).getLast? = some 47 := by
    intro path htarget hpath hfirst
    rw [directoryOf_eq_elim htarget]
    cases hslash : rfindByte 47 path with
    | none =>
      have hslash : Unbroken (str "/") ∧ (str "/").head? = some 47 ∧
          (str "/").getLast? = some 47 := by decide
      exact hslash
    | some slash =>
      obtain ⟨rest, rfl⟩ := List.head?_eq_some_iff.mp hfirst
      exact ⟨hpath.take _, rfl, getLast_take_rfindByte hslash⟩
  obtain ⟨rest, rfl⟩ := List.head?_eq_some_iff.mp hhead
  cases hquery : findByte 63 (47 :: rest) with
  | none => exact hdir _ (by rw [hquery, Option.elim_none]) h rfl
  | some query =>
    cases query with
    | zero => simp [findByte] at hquery
    | succ query => exact hdir _ (by rw [hquery, Option.elim_some]) (h.take _) rfl

/-- A location leads from an unbroken URL to one. -/
theorem unbroken_resolveRedirectUrl {base location url : Bytes} (hbase : Unbroken base)
    (hlocation : Unbroken location) (h : resolveRedirectUrl base location = .ok url) :
    Unbroken url := by
  have htarget : Unbroken (trim location) := hlocation.trim
  rw [resolveRedirectUrl] at h
  by_cases habsolute : hasUrlScheme (trim location) = true
  · rw [if_pos habsolute] at h
    obtain rfl := Except.ok.inj h
    exact htarget
  · rw [if_neg habsolute] at h
    cases hparsed : parseUrl base with
    | error what =>
      rw [hparsed] at h
      cases h
    | ok parsed =>
      have hparts := unbroken_parseUrl hbase hparsed
      have horigin := unbroken_originOf hparts
      rw [hparsed] at h
      dsimp only [bind, Except.bind] at h
      by_cases hsame : (str "//").isPrefixOf (trim location) = true
      · rw [if_pos hsame] at h
        obtain rfl := Except.ok.inj h
        have hcolon : Unbroken (str ":") := by decide
        exact (hparts.scheme.append hcolon (.right (by decide))).append htarget
          (.left (by simp [str]))
      · rw [if_neg hsame] at h
        by_cases hrooted : (trim location).head? = some 47
        · rw [if_pos hrooted] at h
          obtain rfl := Except.ok.inj h
          exact horigin.append htarget (.right (by rw [hrooted]; decide))
        · rw [if_neg hrooted] at h
          obtain rfl := Except.ok.inj h
          obtain ⟨hdir, hfirst, hlast⟩ := unbroken_directoryOf hparts.target hparts.target_head
          refine (horigin.append hdir (.right (by rw [hfirst]; decide))).append htarget (.left ?_)
          simp [List.getLast?_append, hlast]

theorem unbroken_redirected {request next : Request} {status : Nat} {location : Bytes}
    (h : UnbrokenRequest request) (hlocation : Unbroken location)
    (hnext : redirected request status location = .ok next) : UnbrokenRequest next := by
  rw [redirected] at hnext
  cases hurl : resolveRedirectUrl request.url location with
  | error what =>
    rw [hurl] at hnext
    cases hnext
  | ok url =>
    rw [hurl] at hnext
    obtain rfl := Except.ok.inj hnext
    have hresolved := unbroken_resolveRedirectUrl h.url hlocation hurl
    have hmoved : UnbrokenRequest { request with url } := ⟨h.method, hresolved, h.headers⟩
    split
    · have hget : Unbroken (str "GET") := by decide
      have hplain : UnbrokenRequest { request with url, method := str "GET", body := [] } :=
        ⟨hget, hresolved, h.headers⟩
      exact (hplain.removeHeader _).removeHeader _
    · exact hmoved

/-! ### Hops -/

theorem unbroken_completeResponse (externals : Externals ω τ) (redirects : Nat)
    (current : Request) {response : Response}
    (h : ∀ line ∈ response.headers, Unbroken line) :
    ∀ line ∈ (completeResponse externals redirects current response).headers, Unbroken line := by
  have hremove : ∀ (name : Bytes) (r : Response), (∀ line ∈ r.headers, Unbroken line) →
      ∀ line ∈ (removeResponseHeader name r).headers, Unbroken line :=
    fun name r hr line hline => hr line (List.mem_filter.mp hline).1
  rw [completeResponse]
  dsimp only
  split
  · rw [decodeResponseBody]
    split
    · exact h
    · split
      · exact h
      · exact h
      · exact hremove _ _ (hremove _ _ h)
  · exact h

/-- Nothing that is kept from hop to hop contains a line break. -/
theorem Lightweight.hopInvariant (hlight : Lightweight options externals) :
    HopInvariant options externals UnbrokenJar UnbrokenRequest
      (fun response => ∀ line ∈ response.headers, Unbroken line) where
  cookies jar current now cookie after hjar hcurrent _ hheader := by
    have hname : Unbroken (str "Cookie") := by decide
    exact ⟨unbrokenJar_cookieHeader hjar hheader,
      hcurrent.setHeader hname (unbroken_cookieHeader hjar hheader)⟩
  raw sent around hjar _ :=
    ⟨unbrokenJar_moves (hlight.jar_raw sent around) hjar,
      fun response hr => (hlight.headers sent around response hr).unbroken⟩
  complete redirects sent response _ h := unbroken_completeResponse externals redirects sent h
  take jar sent response now after hjar h hadd := unbrokenJar_addFromResponse hjar h hadd
  hooks := hlight.hooks
  -- the location that is followed is the value of a header
  redirect sent response location next hsent h hlocation hnext :=
    unbroken_redirected hsent (unbroken_headerValue h hlocation) hnext
  pause backoff around hjar := unbrokenJar_moves (hlight.jar_pause backoff around) hjar

/-! ### The first request -/

/-- The client's own settings put no line break into a request. -/
structure UnbrokenDefaults (options : PolicyOptions) : Prop where
  baseUrl : Unbroken options.baseUrl
  headers : ∀ line ∈ options.defaultHeaders, Unbroken line
  hooks : ∀ hook ∈ options.requestHooks, ∀ request hooked, hook request = .ok hooked →
    UnbrokenRequest request → UnbrokenRequest hooked

/-- Whatever a parameter contains, its encoding has no CR. -/
theorem isLine_urlencoded (value : Bytes) : IsLine (urlencoded value) :=
  urlencoded_plain (by decide) value

theorem unbroken_appendQueryParams {url : Bytes} (h : Unbroken url) (params : List QueryParam) :
    Unbroken (appendQueryParams url params) := by
  have hamp : Unbroken (str "&") := by decide
  have hfields : Unbroken ((str "&").intercalate
      (params.map fun field => urlencoded field.name ++ str "=" ++ urlencoded field.value)) := by
    refine Unbroken.intercalate hamp (by decide) (by decide) (by decide) fun part hpart => ?_
    obtain ⟨field, -, rfl⟩ := List.mem_map.mp hpart
    have heq : IsLine (str "=") := fun hmem => absurd hmem (by decide)
    exact (((isLine_urlencoded _).append heq).append (isLine_urlencoded _)).unbroken
  -- the parameters stand between what comes before the fragment and the fragment
  have hjoin : ∀ before suffix : Bytes, Unbroken before → Unbroken suffix →
      suffix.head? ≠ some 10 →
      Unbroken (before ++ (if (findByte 63 before).isNone then str "?" else str "&") ++
        (str "&").intercalate
          (params.map fun field => urlencoded field.name ++ str "=" ++ urlencoded field.value) ++
        suffix) := by
    intro before suffix hbefore hsuffix hhead
    have hmark : ∀ mark : Bytes, mark = str "?" ∨ mark = str "&" →
        Unbroken (before ++ mark) ∧ (before ++ mark).getLast? ≠ some 13 := by
      rintro mark (rfl | rfl)
      · have hquery : Unbroken (str "?") := by decide
        exact ⟨hbefore.append hquery (.right (by decide)), by simp [str]⟩
      · exact ⟨hbefore.append hamp (.right (by decide)), by simp [str]⟩
    obtain ⟨hmarked, hlast⟩ := hmark
      (if (findByte 63 before).isNone then str "?" else str "&") (by split <;> simp)
    exact (hmarked.append hfields (.left hlast)).append hsuffix (.right hhead)
  rw [appendQueryParams]
  split
  · exact h
  · cases hfragment : findByte 35 url with
    | none => exact hjoin url [] h unbroken_nil (by simp)
    | some fragment =>
      refine hjoin (url.take fragment) (url.drop fragment) (h.take _) (h.drop _) ?_
      rw [findByte_eq_some hfragment]
      exact fun heq => absurd (Option.some.inj heq) (by decide)

theorem unbroken_resolveBaseUrl {base url resolved : Bytes} (hbase : Unbroken base)
    (hurl : Unbroken url) (h : resolveBaseUrl base url = .ok resolved) : Unbroken resolved := by
  rw [resolveBaseUrl] at h
  split at h
  · obtain rfl := Except.ok.inj h
    exact hurl
  · split at h
    · obtain rfl := Except.ok.inj h
      exact hbase
    · exact unbroken_resolveRedirectUrl hbase hurl h

theorem unbroken_applyTimeout {request : Request} (h : UnbrokenRequest request) :
    UnbrokenRequest (applyTimeout options request) := by
  rw [applyTimeout]
  split
  · exact ⟨h.method, h.url, h.headers⟩
  · split
    · exact ⟨h.method, h.url, h.headers⟩
    · exact h

theorem unbroken_defaultHeaders {lines : List Bytes} {request : Request}
    (h : UnbrokenRequest request) (hlines : ∀ line ∈ lines, Unbroken line) :
    UnbrokenRequest (lines.foldl applyDefaultHeader request) := by
  induction lines generalizing request with
  | nil => exact h
  | cons line lines ih =>
    refine ih ?_ fun l hl => hlines l (List.mem_cons_of_mem _ hl)
    have hadd := h.addHeaderLine (hlines line List.mem_cons_self)
    rw [applyDefaultHeader]
    split
    · exact hadd
    · split
      · exact hadd
      · exact h

theorem unbroken_applySettings {request : Request} {url : Bytes}
    (hdefaults : UnbrokenDefaults options) (h : UnbrokenRequest request) (hurl : Unbroken url) :
    UnbrokenRequest (applySettings options request url) := by
  have htimed : UnbrokenRequest (applyTimeout options { request with url }) :=
    unbroken_applyTimeout ⟨h.method, hurl, h.headers⟩
  have hdecompress : UnbrokenRequest
      (applyAutoDecompress options (applyTimeout options { request with url })) := by
    rw [applyAutoDecompress]
    split
    · exact ⟨htimed.method, htimed.url, htimed.headers⟩
    · exact htimed
  have hlines := unbroken_defaultHeaders hdecompress hdefaults.headers
  have hencoding : ∀ request, UnbrokenRequest request →
      UnbrokenRequest (applyAcceptEncoding request) := by
    intro request h
    have hname : Unbroken (str "Accept-Encoding") := by decide
    have hvalue : Unbroken (str "gzip, deflate") := by decide
    rw [applyAcceptEncoding]
    split
    · exact h.setHeader hname hvalue
    · exact h
  exact hencoding _ ⟨hlines.method, unbroken_appendQueryParams hlines.url _, hlines.headers⟩

/-- A request without line breaks has none after it was completed, if the client's own
settings have none. -/
theorem unbroken_applyDefaults {getenv : Bytes → Option Bytes} {request completed : Request}
    (hdefaults : UnbrokenDefaults options) (h : UnbrokenRequest request)
    (hcompleted : applyDefaults options getenv request = .ok completed) :
    UnbrokenRequest completed := by
  rw [applyDefaults_eq] at hcompleted
  cases hurl : resolveBaseUrl options.baseUrl request.url with
  | error what =>
    rw [hurl] at hcompleted
    cases hcompleted
  | ok url =>
    have hresolved := unbroken_resolveBaseUrl hdefaults.baseUrl h.url hurl
    have hsettings := unbroken_applySettings hdefaults h hresolved
    rw [hurl, Except.bind] at hcompleted
    cases hproxy : applyProxy options getenv (applySettings options request url) with
    | error what =>
      rw [hproxy] at hcompleted
      cases hcompleted
    | ok proxied =>
      rw [hproxy] at hcompleted
      obtain ⟨proxy, proxyOverride, rfl⟩ := applyProxy_ok hproxy
      have hproxied : UnbrokenRequest
          { applySettings options request url with proxy, proxyOverride } :=
        ⟨hsettings.method, hsettings.url, hsettings.headers⟩
      exact foldlM_hooks hdefaults.hooks hproxied hcompleted

/-- Every hop that a request makes has a head whose line breaks are those of its request
line, its header lines and the empty line, whatever its earlier responses and those in
the jar contain. -/
theorem breaks_of_hops (hlight : Lightweight options externals) {request : Request}
    {state : PolicyState ω τ} (hjar : JarMoves options.toJarOptions [] state.around.jar)
    (htries : state.tries = [])
    (hinitial : ∀ completed, applyDefaults options externals.getenv request = .ok completed →
      UnbrokenRequest completed) :
    ∀ hops ∈ ((requestWithHttpxPolicy options externals request).outcome state).2.tries,
      ∀ hop ∈ hops, ∀ url proxy, H1.parseUrl hop.request.url = .ok url →
        ProxySupport.proxyForRequest hop.request = .ok proxy →
        breaks (H1.lightHead url proxy hop.request) =
          (H1.lightLines url proxy hop.request).length + 1 := by
  have hunbroken : UnbrokenJar state.around.jar := unbrokenJar_moves hjar CookieJar.every_nil
  have hhops := hlight.hopInvariant.hops hunbroken (htries ▸ everyHop_nil _) hinitial
  intro hops hmem hop hhop url proxy hurl hproxy
  exact H1.breaks_lightHead (hhops hops hmem hop hhop) hurl hproxy

/-- A response head whose location and cookie hold stray CRs and LFs. -/
def strayText : Bytes :=
  str "HTTP/1.1 302 Found\r\nLocation: /a\rb\nc\r\nSet-Cookie: id=1\r\r\nX: \n\r\n\r\n"

/-- A server that redirects once, with that head. -/
def strayServer : Externals Unit Unit where
  raw request around :=
    (some (if request.url = str "http://a.example/" then
      { status := 302, headers := H1.headLines strayText } else { status := 200 }), around, ())
  pause _ around := around
  zlibDecode _ body := .ok body
  getenv _ := none

def strayOptions : PolicyOptions := { enableCookieJar := true, followRedirects := true }

def strayRequest : Request := { url := str "http://a.example/" }

/-- The request begins with an empty jar. -/
def strayState : PolicyState Unit Unit := { around := { rest := () } }

/-- The second hop asks for a path with a CR and an LF in it, and brings the cookie. -/
theorem breaks_of_hops_stray :
    ∃ hops ∈ ((requestWithHttpxPolicy strayOptions strayServer strayRequest).outcome
        strayState).2.tries,
      ∃ hop ∈ hops, ∃ url : ParsedUrl,
        url.target = str "/a\rb\nc" ∧ hop.request.headers = [str "Cookie: id=1"] ∧
          breaks (H1.lightHead url {} hop.request) =
            (H1.lightLines url {} hop.request).length + 1 := by
  have hdefaults : UnbrokenDefaults strayOptions :=
    ⟨unbroken_nil, fun _ h => absurd h List.not_mem_nil, fun _ h => absurd h List.not_mem_nil⟩
  have hrequest : UnbrokenRequest strayRequest :=
    ⟨by decide, by decide, fun _ h => absurd h List.not_mem_nil⟩
  have hlight : Lightweight strayOptions strayServer := by
    refine ⟨fun request around response h => ?_, fun _ _ => .refl, fun _ _ => .refl,
      fun _ h => absurd h List.not_mem_nil⟩
    obtain rfl := Option.some.inj h
    split
    · exact ⟨strayText, fun _ hline => hline⟩
    · exact ⟨[], fun _ hline => absurd hline List.not_mem_nil⟩
  have hjar : JarMoves strayOptions.toJarOptions [] strayState.around.jar := .refl
  have hinitial : ∀ completed, applyDefaults strayOptions strayServer.getenv strayRequest =
      .ok completed → UnbrokenRequest completed :=
    fun completed hcompleted => unbroken_applyDefaults hdefaults hrequest hcompleted
  have hrun : ∃ hops ∈ ((requestWithHttpxPolicy strayOptions strayServer strayRequest).outcome
        strayState).2.tries,
      ∃ hop ∈ hops, hop.request =
        { url := str "http://a.example/a\rb\nc", headers := [str "Cookie: id=1"] } := by
    rw [strayServer, strayText, strayRequest]
    repeat rw [str_ofList]
    decide +kernel
  obtain ⟨hops, hhops, hop, hhop, hsent⟩ := hrun
  have hurl : H1.parseUrl (str "http://a.example/a\rb\nc") =
      .ok { scheme := str "http", host := str "a.example", port := str "80",
            target := str "/a\rb\nc" } := by
    repeat rw [str_ofList]
    decide +kernel
  have hbreaks := breaks_of_hops hlight hjar rfl hinitial hops hhops hop hhop
  rw [hsent] at hbreaks
  exact ⟨hops, hhops, hop, hhop, _, rfl, by rw [hsent], by rw [hsent]; exact hbreaks _ {} hurl rfl⟩

end HttpClient.Policy
