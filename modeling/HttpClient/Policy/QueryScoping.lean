import HttpClient.Policy.CookieJar
import HttpClient.UrlComposition

/-!
# Cookies and the query of a URL

Cookies are scoped by the path of a URL. The target that the client parses is the path with its
query, and the query is taken off neither when a cookie is given its path nor when the path of a
cookie is compared with it. So a query with a slash moves the path of a new cookie into the
query, and a cookie for just the path is not sent when there is a query.

## Main definitions

* `withQuery` — a URL with a query
* `defaultPathAt`, `sentCookies` — what a URL decides about cookies
* `QueryIgnored` — two queries make no difference for that
* `Misjudged` — the paths of cookies for which a query makes a difference

## Main results

* `defaultCookiePath_query_iff`, `pathMatch_query_iff` — one target with and without a query
* `queryIgnored_iff` — when two queries make no difference
* `query_matters` — a query that keeps a cookie back
-/

set_option autoImplicit false

namespace HttpClient.Policy

open Text

def withQuery (path query : Bytes) : Bytes := path ++ 63 :: query

/-- The path of a cookie that a response of the URL sets, if the cookie names none. -/
def defaultPathAt (url : Bytes) : Except Bytes Bytes := do
  let parsed ← parseUrl url
  return defaultCookiePath parsed.target

/-- The cookies whose header a request for the URL is given. -/
def sentCookies (jar : CookieJar) (url : Bytes) (now : Int) : Except Bytes (List Cookie) := do
  let parsed ← parseUrl url
  return (jar.pruneExpired now).selected parsed.host parsed.target now

theorem defaultPathAt_of_parseUrl {url : Bytes} {parsed : ParsedUrl}
    (h : parseUrl url = .ok parsed) :
    defaultPathAt url = .ok (defaultCookiePath parsed.target) := by
  rw [defaultPathAt, h]
  rfl

theorem sentCookies_of_parseUrl {url : Bytes} {parsed : ParsedUrl}
    (h : parseUrl url = .ok parsed) (jar : CookieJar) (now : Int) :
    sentCookies jar url now =
      .ok ((jar.pruneExpired now).selected parsed.host parsed.target now) := by
  rw [sentCookies, h]
  rfl

/-- The header is made of these cookies. -/
theorem cookieHeader_sentCookies (jar : CookieJar) (url : Bytes) (now : Int) :
    (jar.cookieHeader url now).map Prod.fst = (sentCookies jar url now).map CookieJar.render := by
  rw [CookieJar.cookieHeader, sentCookies]
  cases parseUrl url with
  | error what => rfl
  | ok parsed => rfl

/-- Two queries make no difference for cookies: the first one for a response, and both of them
for a request. -/
structure QueryIgnored (jar : CookieJar) (now : Int) (url first second : Bytes) : Prop where
  stored : defaultPathAt (withQuery url first) = defaultPathAt url
  sent_first : sentCookies jar (withQuery url first) now = sentCookies jar url now
  sent_second : sentCookies jar (withQuery url second) now = sentCookies jar url now

/-- Whether a cookie may be sent to the host at all, on any path. -/
def mayGo (host : Bytes) (now : Int) (domain : Bytes) (cookie : Cookie) : Bool :=
  domainMatch host domain && !(cookie.hostOnly && lowerCopy host != cookie.domain) &&
    !cookie.expired now

/-- The path of a cookie for which the query makes a difference: the requested path itself, with
no slash at its end, and a path that goes on into the query. -/
def Misjudged (path query cookiePath : Bytes) : Prop :=
  (cookiePath = path ∧ path.getLast? ≠ some 47) ∨
    (path ++ [63] <+: cookiePath ∧ pathMatch (withQuery path query) cookiePath = true)

instance (path query cookiePath : Bytes) : Decidable (Misjudged path query cookiePath) := by
  unfold Misjudged
  infer_instance

variable {path query cookiePath : Bytes}

/-! ### The path of a new cookie -/

theorem defaultCookiePath_append {before after : Bytes} (hhead : (before ++ 47 :: after).head? =
    some 47) (hlast : 47 ∉ after) :
    defaultCookiePath (before ++ 47 :: after) = if before = [] then str "/" else before := by
  rw [defaultCookiePath, if_neg (not_not_intro hhead), rfindByte_append_cons before hlast]
  cases before with
  | nil => rfl
  | cons c before =>
    rw [List.length_cons, if_neg (List.cons_ne_nil _ _), ← List.length_cons (a := c)]
    exact List.take_left

/-- The path is that without the query exactly if the query has no slash. -/
theorem defaultCookiePath_query_iff (hpath : path.head? = some 47) (hmark : 63 ∉ path)
    (query : Bytes) :
    defaultCookiePath (withQuery path query) = defaultCookiePath path ↔ 47 ∉ query := by
  have hslash : 47 ∈ path := List.mem_of_mem_head? hpath
  obtain ⟨before, after, rfl, hlast⟩ :
      ∃ before after, path = before ++ 47 :: after ∧ 47 ∉ after := by
    rcases rfindByte_cases 47 path with ⟨hmem, -⟩ | ⟨before, after, htext, hlast, -⟩
    · exact absurd hslash hmem
    · exact ⟨before, after, htext, hlast⟩
  have hhead : ∀ more : Bytes, (before ++ 47 :: more).head? = some 47 := by
    intro more
    cases before with
    | nil => rfl
    | cons c before => exact hpath
  rw [defaultCookiePath_append hpath hlast]
  constructor
  · intro heq hmem
    rcases rfindByte_cases 47 query with ⟨hnone, -⟩ | ⟨start, rest, rfl, hend, -⟩
    · exact hnone hmem
    · -- the last slash is that of the query, and what stands before it has the mark
      have htext : withQuery (before ++ 47 :: after) (start ++ 47 :: rest) =
          ((before ++ 47 :: after) ++ 63 :: start) ++ 47 :: rest := by
        simp [withQuery]
      have hne : (before ++ 47 :: after) ++ 63 :: start ≠ [] :=
        List.append_ne_nil_of_right_ne_nil _ (List.cons_ne_nil _ _)
      have hhead' : (((before ++ 47 :: after) ++ 63 :: start) ++ 47 :: rest).head? = some 47 := by
        rw [List.append_assoc, List.append_assoc]
        exact hhead _
      rw [htext, defaultCookiePath_append hhead' hend, if_neg hne] at heq
      have hmem63 : (63 : UInt8) ∈ (before ++ 47 :: after) ++ 63 :: start :=
        List.mem_append_right _ List.mem_cons_self
      rw [heq] at hmem63
      split at hmem63
      · exact absurd hmem63 (by decide)
      · exact hmark (List.mem_append_left _ hmem63)
  · intro hnone
    have htext : withQuery (before ++ 47 :: after) query =
        before ++ 47 :: (after ++ 63 :: query) := by
      simp [withQuery]
    have hend : 47 ∉ after ++ 63 :: query := by
      simp [hlast, hnone]
    rw [htext, defaultCookiePath_append (hhead _) hend]

/-! ### The paths that match -/

theorem pathMatch_of_prefix (cookiePath rest : Bytes) :
    pathMatch (cookiePath ++ rest) cookiePath =
      (cookiePath == [] || rest == [] || cookiePath.getLast? == some 47 ||
        rest.head? == some 47) := by
  have hprefix : cookiePath.isPrefixOf (cookiePath ++ rest) = true :=
    List.isPrefixOf_iff_prefix.mpr (List.prefix_append _ _)
  have hlength : ((cookiePath ++ rest).length == cookiePath.length) = (rest == []) := by
    rw [List.length_append]
    cases rest with
    | nil => simp
    | cons c rest => simp
  have hnext : (cookiePath ++ rest)[cookiePath.length]? = rest.head? := by
    rw [List.getElem?_append_right (Nat.le_refl _), Nat.sub_self, List.head?_eq_getElem?]
  rw [pathMatch, hprefix, Bool.true_and, hlength, hnext, Bool.or_assoc, Bool.or_assoc,
    Bool.or_assoc]

theorem prefix_of_pathMatch {target : Bytes} (h : pathMatch target cookiePath = true) :
    cookiePath <+: target := by
  rw [pathMatch, Bool.or_eq_true, Bool.and_eq_true, beq_iff_eq] at h
  rcases h with rfl | ⟨hpre, -⟩
  · exact List.nil_prefix
  · exact List.isPrefixOf_iff_prefix.mp hpre

/-- A path matches a target with and without its query unless it is misjudged. -/
theorem pathMatch_query_iff (hpath : path ≠ []) (query cookiePath : Bytes) :
    pathMatch (withQuery path query) cookiePath = pathMatch path cookiePath ↔
      ¬ Misjudged path query cookiePath := by
  by_cases hprefix : cookiePath <+: path
  · obtain ⟨rest, rfl⟩ := hprefix
    have hshort : ¬ (cookiePath ++ rest ++ [63] <+: cookiePath ∧
        pathMatch (withQuery (cookiePath ++ rest) query) cookiePath = true) := by
      intro h
      have hlength := h.1.length_le
      simp only [List.length_append, List.length_singleton] at hlength
      omega
    have hquery : withQuery (cookiePath ++ rest) query = cookiePath ++ (rest ++ 63 :: query) :=
      List.append_assoc _ _ _
    rw [Misjudged, or_iff_left hshort, hquery, pathMatch_of_prefix, pathMatch_of_prefix]
    cases rest with
    | nil =>
      -- the cookie is for this very path
      rw [List.append_nil] at hpath ⊢
      have hsome : (cookiePath == []) = false := beq_eq_false_iff_ne.mpr hpath
      simp [hsome]
    | cons c rest =>
      have hne : cookiePath ≠ cookiePath ++ c :: rest := by
        intro h
        exact List.cons_ne_nil c rest (List.append_cancel_left (h.symm.trans
          (List.append_nil cookiePath).symm))
      simp [hne]
  · -- the path without the query does not match
    have hno : pathMatch path cookiePath = false :=
      Bool.eq_false_iff.mpr fun h => hprefix (prefix_of_pathMatch h)
    have hne : cookiePath ≠ path := fun h => hprefix (h ▸ List.prefix_rfl)
    rw [hno, Misjudged, Bool.eq_false_iff]
    refine not_congr ⟨fun h => Or.inr ⟨?_, h⟩, fun h => ?_⟩
    · have hlonger := prefix_of_pathMatch h
      rcases List.prefix_or_prefix_of_prefix hlonger (List.prefix_append path (63 :: query)) with
        hshort | ⟨more, rfl⟩
      · exact absurd hshort hprefix
      · cases more with
        | nil => exact absurd (List.append_nil path) hne
        | cons c more =>
          have hmore := (List.prefix_append_right_inj path).mp hlonger
          obtain ⟨rfl, -⟩ := List.cons_prefix_cons.mp hmore
          exact ⟨more, by simp⟩
    · exact (h.resolve_left fun h => hne h.1).2

/-! ### What is sent -/

theorem sent_eq (host target : Bytes) (now : Int) (domain : Bytes) (cookie : Cookie) :
    CookieJar.sent host target now domain cookie =
      (mayGo host now domain cookie && pathMatch target cookie.path) := rfl

/-- The same cookies are sent to two targets exactly if both match the same of them. -/
theorem selected_eq_iff {jar : CookieJar} {host target other : Bytes} {now : Int} :
    (jar.pruneExpired now).selected host target now =
        (jar.pruneExpired now).selected host other now ↔
      ∀ entry ∈ jar, ∀ cookie ∈ entry.2, mayGo host now entry.1 cookie = true →
        pathMatch target cookie.path = pathMatch other cookie.path := by
  constructor
  · intro heq entry hentry cookie hcookie hmay
    -- the cookie is kept when the jar is pruned, since it has not expired
    have hfresh : cookie.expired now = false := by
      rw [mayGo, Bool.and_eq_true, Bool.not_eq_true'] at hmay
      exact hmay.2
    have hkept : cookie ∈ entry.2.filter fun cookie => !cookie.expired now :=
      List.mem_filter.mpr ⟨hcookie, by rw [hfresh]; rfl⟩
    have hpruned : (entry.1, entry.2.filter fun cookie => !cookie.expired now) ∈
        jar.pruneExpired now :=
      List.mem_filter.mpr ⟨List.mem_map.mpr ⟨entry, hentry, rfl⟩,
        decide_eq_true (List.ne_nil_of_mem hkept)⟩
    have hselected : ∀ path, cookie ∈ (jar.pruneExpired now).selected host path now ↔
        pathMatch path cookie.path = true := by
      intro path
      rw [CookieJar.mem_selected]
      constructor
      · rintro ⟨domain, cookies, -, -, hsent⟩
        rw [sent_eq, Bool.and_eq_true] at hsent
        exact hsent.2
      · intro hmatch
        refine ⟨_, _, hpruned, hkept, ?_⟩
        rw [sent_eq, hmay, hmatch]
        rfl
    rw [Bool.eq_iff_iff, ← hselected, ← hselected, heq]
  · intro hall
    refine List.flatMap_congr fun entry hentry => ?_
    obtain ⟨old, hold, rfl⟩ := List.mem_map.mp (List.mem_filter.mp hentry).1
    refine List.filter_congr fun cookie hcookie => ?_
    rw [sent_eq, sent_eq]
    cases hmay : mayGo host now old.1 cookie with
    | false => rfl
    | true => rw [hall old hold cookie (List.mem_filter.mp hcookie).1 hmay]

/-! ### URLs -/

section Urls

variable {scheme authority : Bytes}

/-- The target is what follows the authority, if that is a slash at first. -/
theorem cutUrl_path (hauthority : 47 ∉ authority) {target : Bytes}
    (hhead : target.head? = some 47) :
    cutUrl scheme (authority ++ target) =
      { scheme
        host := (splitAuthority authority (schemePort scheme)).1
        port := (splitAuthority authority (schemePort scheme)).2
        target } := by
  obtain ⟨rest, rfl⟩ := List.head?_eq_some_iff.mp hhead
  rw [cutUrl, targetOf, upTo_append_cons hauthority, onward_append_cons hauthority,
    if_neg (List.cons_ne_nil _ _)]

theorem parseUrl_path (hscheme : 58 ∉ scheme) (hauthority : 47 ∉ authority) {target : Bytes}
    (hhead : target.head? = some 47) :
    parseUrl (scheme ++ str "://" ++ (authority ++ target)) = .ok
      { scheme
        host := (splitAuthority authority (schemePort scheme)).1
        port := (splitAuthority authority (schemePort scheme)).2
        target } := by
  rw [parseUrl_compose hscheme, cutUrl_path hauthority hhead]

/-- Two queries make no difference exactly if the first one has no slash, and no cookie that may
go to the host is misjudged for either of them. -/
theorem queryIgnored_iff (hscheme : 58 ∉ scheme) (hauthority : 47 ∉ authority)
    (hpath : path.head? = some 47) (hmark : 63 ∉ path) (jar : CookieJar) (now : Int)
    (first second : Bytes) :
    QueryIgnored jar now (scheme ++ str "://" ++ (authority ++ path)) first second ↔
      47 ∉ first ∧ ∀ entry ∈ jar, ∀ cookie ∈ entry.2,
        mayGo (splitAuthority authority (schemePort scheme)).1 now entry.1 cookie = true →
          ¬ Misjudged path first cookie.path ∧ ¬ Misjudged path second cookie.path := by
  have hne : path ≠ [] := by
    rintro rfl
    cases hpath
  have hurl : ∀ query, withQuery (scheme ++ str "://" ++ (authority ++ path)) query =
      scheme ++ str "://" ++ (authority ++ withQuery path query) := by
    intro query
    simp only [withQuery, List.append_assoc]
  have hhead : ∀ query, (withQuery path query).head? = some 47 := by
    intro query
    obtain ⟨rest, rfl⟩ := List.head?_eq_some_iff.mp hpath
    rfl
  have hplain := parseUrl_path hscheme hauthority hpath
  have hqueried := fun query => parseUrl_path hscheme hauthority (hhead query)
  -- both sides of each equation are those of one host
  have hsent : ∀ query,
      sentCookies jar (withQuery (scheme ++ str "://" ++ (authority ++ path)) query) now =
          sentCookies jar (scheme ++ str "://" ++ (authority ++ path)) now ↔
        ∀ entry ∈ jar, ∀ cookie ∈ entry.2,
          mayGo (splitAuthority authority (schemePort scheme)).1 now entry.1 cookie = true →
            ¬ Misjudged path query cookie.path := by
    intro query
    rw [hurl, sentCookies_of_parseUrl (hqueried query), sentCookies_of_parseUrl hplain,
      Except.ok.injEq, selected_eq_iff]
    simp only [pathMatch_query_iff hne]
  have hstored : defaultPathAt (withQuery (scheme ++ str "://" ++ (authority ++ path)) first) =
      defaultPathAt (scheme ++ str "://" ++ (authority ++ path)) ↔ 47 ∉ first := by
    rw [hurl, defaultPathAt_of_parseUrl (hqueried first), defaultPathAt_of_parseUrl hplain,
      Except.ok.injEq, defaultCookiePath_query_iff hpath hmark]
  constructor
  · rintro ⟨hpathKept, hfirst, hsecond⟩
    refine ⟨hstored.mp hpathKept, fun entry hentry cookie hcookie hmay => ?_⟩
    exact ⟨(hsent first).mp hfirst entry hentry cookie hcookie hmay,
      (hsent second).mp hsecond entry hentry cookie hcookie hmay⟩
  · rintro ⟨hslash, hall⟩
    refine ⟨hstored.mpr hslash, (hsent first).mpr ?_, (hsent second).mpr ?_⟩
    · exact fun entry hentry cookie hcookie hmay => (hall entry hentry cookie hcookie hmay).1
    · exact fun entry hentry cookie hcookie hmay => (hall entry hentry cookie hcookie hmay).2

end Urls

/-- A jar with one cookie of the host `h`, for the given path. -/
def scopedJar (path : Bytes) : CookieJar :=
  [(str "h", [{ name := str "id", value := str "1", domain := str "h", path }])]

theorem queryIgnored_iff_below :
    QueryIgnored (scopedJar (str "/a")) 7 (str "http://h:8080/a/b") (str "q=1;x?") (str "/a") := by
  have hscheme : 58 ∉ str "http" := by decide
  have hauthority : 47 ∉ str "h:8080" := by decide
  have hpath : (str "/a/b").head? = some 47 := by decide
  have hmark : 63 ∉ str "/a/b" := by decide
  refine (queryIgnored_iff hscheme hauthority hpath hmark _ 7 _ _).mpr ⟨by decide, ?_⟩
  intro entry hentry cookie hcookie _
  obtain rfl := List.mem_singleton.mp hentry
  obtain rfl := List.mem_singleton.mp hcookie
  decide

/-- With a query, the cookie for `/a` is not sent to `/a`. -/
theorem query_matters :
    ¬ QueryIgnored (scopedJar (str "/a")) 7 (str "http://h/a") (str "q=1") (str "q=2") := by
  intro h
  exact absurd h.sent_first (by decide +kernel)

end HttpClient.Policy
