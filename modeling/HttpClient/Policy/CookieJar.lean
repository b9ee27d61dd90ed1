import Mathlib.Algebra.Group.Int.Defs
import Mathlib.Algebra.Group.Nat.Defs
import HttpClient.Request
import HttpClient.Url

/-!
# The cookie jar

Cookies are kept by domain. A response adds to the jar, and a request is given the header
that its host and path select. Both first drop the cookies that have expired.

The domains of the jar are those of a hash map. A new domain may change the order of the
others, in a way that is left to the library; the jar is made for any. A point in time is a
number of nanoseconds, and zero stands for none.

## Main definitions

* `Cookie`, `CookieJar` — what is kept
* `MapOrder` — the order of the domains
* `domainMatch`, `pathMatch` — where a cookie belongs
* `CookieJar.addFromResponse`, `CookieJar.cookieHeader` — the two operations
* `CookieJar.Every` — what holds of every cookie

## Main results

* `CookieJar.cookieHeader_selects` — the header is made of cookies that belong to the URL
* `CookieJar.Every.store` — storing a cookie replaces the one in its place, and no other
-/

set_option autoImplicit false

namespace HttpClient.Policy

open Text

/-! ### Text -/

/-- Cut at the first equals sign; both parts lose their white space. -/
def splitNameValue (value : Bytes) : Bytes × Bytes :=
  match findByte 61 value with
  | none => (trim value, [])
  | some eq => (trim (value.take eq), trim (value.drop (eq + 1)))

/-- The number that the leading digits of a text denote. -/
def digitsValue (digits : Bytes) : Nat :=
  digits.foldl (fun n c => 10 * n + (c.toNat - 48)) 0

/-- `std::stoll`: white space, a sign, digits. It throws without a digit, and for a number
that does not fit. -/
def stoll (text : Bytes) : Option Int :=
  let (negative, rest) :=
    match trimLeft text with
    | 45 :: rest => (true, rest)
    | 43 :: rest => (false, rest)
    | rest => (false, rest)
  let digits := rest.takeWhile isDigit
  let value : Int := if negative then -(digitsValue digits) else digitsValue digits
  if digits = [] ∨ value < -2 ^ 63 ∨ 2 ^ 63 ≤ value then none else some value

/-! ### Where a cookie belongs -/

def domainMatch (host domain : Bytes) : Bool :=
  hostWithin (lowerCopy host) (dropDot (lowerCopy domain))

/-- The path begins with the cookie's path, at the boundary of a segment. -/
def pathMatch (requestPath cookiePath : Bytes) : Bool :=
  cookiePath == [] || (cookiePath.isPrefixOf requestPath &&
    (requestPath.length == cookiePath.length || cookiePath.getLast? == some 47 ||
      requestPath[cookiePath.length]? == some 47))

/-- The path up to its last slash. -/
def defaultCookiePath (path : Bytes) : Bytes :=
  if path.head? ≠ some 47 then str "/"
  else
    match rfindByte 47 path with
    | none | some 0 => str "/"
    | some slash => path.take slash

/-! ### The jar -/

structure Cookie where
  name : Bytes := []
  value : Bytes := []
  domain : Bytes := []
  path : Bytes := str "/"
  hostOnly : Bool := true
  expires : Int := 0
  lastUsed : Int := 0
  deriving DecidableEq, Repr

/-- The cookies by domain, in the order of the map. -/
abbrev CookieJar := List (Bytes × List Cookie)

/-- The order of a hash map after an entry has been added. -/
structure MapOrder where
  arrange : CookieJar → CookieJar
  perm : ∀ jar, (arrange jar).Perm jar

/-- The new entry comes last. -/
def MapOrder.appended : MapOrder := ⟨id, fun _ => .refl _⟩

/-- The limits of the jar, with the order that the library gives its map. -/
structure JarOptions where
  maxCookieDomains : Nat := 1024
  maxCookiesPerDomain : Nat := 64
  mapOrder : MapOrder := .appended

/-- `time_point::max()`. -/
def timeMax : Int := 2 ^ 63 - 1

/-- Add seconds to a point in time, in the 64 bits of the clock. -/
def addSeconds (now seconds : Int) : Int := (now + seconds * 1000000000).bmod (2 ^ 64)

def Cookie.expired (cookie : Cookie) (now : Int) : Bool :=
  cookie.expires != 0 && decide (cookie.expires ≤ now)

namespace CookieJar

/-- Drop the cookies that have expired, and the domains that are left without any. -/
def pruneExpired (jar : CookieJar) (now : Int) : CookieJar :=
  (jar.map fun (domain, cookies) =>
    (domain, cookies.filter fun cookie => !cookie.expired now)).filter fun entry => entry.2 ≠ []

/-! ### Sending cookies -/

/-- Whether a cookie of the domain `domain` is sent with a request. -/
def sent (host path : Bytes) (now : Int) (domain : Bytes) (cookie : Cookie) : Bool :=
  domainMatch host domain && !(cookie.hostOnly && lowerCopy host != cookie.domain) &&
    !cookie.expired now && pathMatch path cookie.path

/-- The header of a list of cookies. -/
def render (cookies : List Cookie) : Bytes :=
  (str "; ").intercalate (cookies.map fun cookie => cookie.name ++ str "=" ++ cookie.value)

/-- The cookies sent with a request, in the order of the jar. -/
def selected (jar : CookieJar) (host path : Bytes) (now : Int) : List Cookie :=
  jar.flatMap fun (domain, cookies) => cookies.filter (sent host path now domain)

/-- The header for a URL. What is sent has been used now. -/
def cookieHeader (jar : CookieJar) (url : Bytes) (now : Int) :
    Except Bytes (Bytes × CookieJar) := do
  let parsed ← parseUrl url
  let jar := jar.pruneExpired now
  return (render (jar.selected parsed.host parsed.target now),
    jar.map fun (domain, cookies) => (domain, cookies.map fun cookie =>
      if sent parsed.host parsed.target now domain cookie then { cookie with lastUsed := now }
      else cookie))

/-! ### Storing cookies -/

/-- The position of the first cookie that was used longest ago. -/
def oldest (cookies : List Cookie) : Nat :=
  cookies.findIdx fun cookie => cookies.all fun other => cookie.lastUsed ≤ other.lastUsed

/-- Drop the oldest cookies, one by one, down to the limit. -/
def dropOldest : Nat → List Cookie → List Cookie
  | 0, cookies => cookies
  | surplus + 1, cookies => dropOldest surplus (cookies.eraseIdx (oldest cookies))

def enforceDomainLimit (options : JarOptions) (cookies : List Cookie) : List Cookie :=
  if options.maxCookiesPerDomain = 0 then []
  else dropOldest (cookies.length - options.maxCookiesPerDomain) cookies

/-- When the oldest of the cookies was used. -/
def domainTime (cookies : List Cookie) : Int :=
  cookies.foldl (fun time cookie => min time cookie.lastUsed) timeMax

/-- Drop the domains with the oldest cookies, one by one. A domain without a cookie is as
good as new. -/
def dropDomains : Nat → CookieJar → CookieJar
  | 0, jar => jar
  | surplus + 1, jar =>
    let first := jar.findIdx fun entry => domainTime entry.2 < timeMax ∧
      jar.all fun other => domainTime entry.2 ≤ domainTime other.2
    if first < jar.length then dropDomains surplus (jar.eraseIdx first) else jar

def enforceDomainCount (options : JarOptions) (jar : CookieJar) : CookieJar :=
  if options.maxCookieDomains = 0 then []
  else dropDomains (jar.length - options.maxCookieDomains) jar

/-- Change the cookies of a domain; a domain that is not there yet has none. -/
def update (order : MapOrder) (jar : CookieJar) (domain : Bytes)
    (change : List Cookie → List Cookie) : CookieJar :=
  if jar.any fun entry => entry.1 == domain then
    jar.map fun entry => if entry.1 = domain then (entry.1, change entry.2) else entry
  else order.arrange (jar ++ [(domain, change [])])

/-- Read one attribute of a `Set-Cookie` line. The flag says that the cookie is deleted. -/
def readAttribute (host : Bytes) (now : Int) (state : Cookie × Bool) (part : Bytes) :
    Cookie × Bool :=
  let (cookie, deleted) := state
  let (attrName, attrValue) := splitNameValue part
  let attr := lowerCopy attrName
  if attr = str "domain" ∧ attrValue ≠ [] ∧ domainMatch host attrValue then
    ({ cookie with domain := dropDot (lowerCopy attrValue), hostOnly := false }, deleted)
  else if attr = str "path" ∧ attrValue.head? = some 47 then
    ({ cookie with path := attrValue }, deleted)
  else if attr = str "max-age" then
    match stoll attrValue with
    | none => (cookie, deleted)
    | some seconds =>
      if seconds ≤ 0 then (cookie, true)
      else ({ cookie with expires := addSeconds now seconds }, deleted)
  else (cookie, deleted)

/-- The cookie of one `Set-Cookie` line, and whether it is deleted. -/
def readCookie (url : ParsedUrl) (now : Int) (value : Bytes) : Option (Cookie × Bool) :=
  match splitParts 59 value with
  | [] => none
  | pair :: attributes =>
    let (name, value) := splitNameValue pair
    if name = [] then none
    else
      let cookie : Cookie :=
        { name, value
          domain := lowerCopy url.host
          path := defaultCookiePath url.target
          lastUsed := now }
      some (attributes.foldl (readAttribute url.host now) (cookie, false))

/-- Store a cookie in the place of one with its name and path. -/
def store (options : JarOptions) (jar : CookieJar) (cookie : Cookie) (deleted : Bool) :
    CookieJar :=
  jar.update options.mapOrder cookie.domain fun cookies =>
    let others := cookies.filter fun other =>
      !(other.name == cookie.name && other.path == cookie.path)
    if deleted then others else enforceDomainLimit options (others ++ [cookie])

/-- What one header line of a response does to the jar. -/
def addLine (options : JarOptions) (url : ParsedUrl) (now : Int) (jar : CookieJar)
    (line : Bytes) : CookieJar :=
  match findByte 58 line with
  | none => jar
  | some colon =>
    if lowerCopy (trim (line.take colon)) ≠ str "set-cookie" then jar
    else
      match readCookie url now (trim (line.drop (colon + 1))) with
      | none => jar
      | some (cookie, deleted) => store options jar cookie deleted

def addFromResponse (options : JarOptions) (jar : CookieJar) (url : Bytes) (response : Response)
    (now : Int) : Except Bytes CookieJar := do
  let parsed ← parseUrl url
  let jar := response.headers.foldl (addLine options parsed now) (jar.pruneExpired now)
  return enforceDomainCount options jar

/-! ### What is sent belongs to the URL -/

variable {jar : CookieJar}

theorem mem_selected {host path : Bytes} {now : Int} {cookie : Cookie} :
    cookie ∈ jar.selected host path now ↔
      ∃ domain cookies, (domain, cookies) ∈ jar ∧ cookie ∈ cookies ∧
        sent host path now domain cookie := by
  simp only [selected, List.mem_flatMap, List.mem_filter, Prod.exists]

/-- A cookie that is sent has not expired, and its domain and path match. -/
theorem cookieHeader_selects {url header : Bytes} {now : Int} {after : CookieJar}
    (h : jar.cookieHeader url now = .ok (header, after)) :
    ∃ parsed cookies, parseUrl url = .ok parsed ∧ header = render cookies ∧
      ∀ cookie ∈ cookies, cookie.expired now = false ∧ pathMatch parsed.target cookie.path ∧
        ∃ entry ∈ jar, cookie ∈ entry.2 ∧ domainMatch parsed.host entry.1 := by
  unfold cookieHeader at h
  cases hparsed : parseUrl url with
  | error what =>
    rw [hparsed] at h
    cases h
  | ok parsed =>
    rw [hparsed] at h
    have hheader : render ((jar.pruneExpired now).selected parsed.host parsed.target now) =
        header := (Prod.ext_iff.mp (Except.ok.inj h)).1
    refine ⟨parsed, _, rfl, hheader.symm, fun cookie hcookie => ?_⟩
    obtain ⟨domain, cookies, hentry, hmem, hsent⟩ := mem_selected.mp hcookie
    simp only [sent, Bool.and_eq_true, Bool.not_eq_true'] at hsent
    obtain ⟨⟨⟨hdomain, -⟩, hexpired⟩, hpath⟩ := hsent
    refine ⟨hexpired, hpath, ?_⟩
    obtain ⟨entry, hold, heq⟩ := List.mem_map.mp (List.mem_filter.mp hentry).1
    obtain ⟨rfl, rfl⟩ := Prod.ext_iff.mp heq
    exact ⟨entry, hold, (List.mem_filter.mp hmem).1, hdomain⟩

/-! ### What holds of every cookie -/

/-- `P` holds of every cookie of the jar, with the domain it is kept under. -/
def Every (P : Bytes → Cookie → Prop) (jar : CookieJar) : Prop :=
  ∀ entry ∈ jar, ∀ cookie ∈ entry.2, P entry.1 cookie

variable {P Q : Bytes → Cookie → Prop}

theorem every_nil : Every P [] := fun _ h => absurd h List.not_mem_nil

theorem Every.pruneExpired (h : Every P jar) (now : Int) : Every P (jar.pruneExpired now) := by
  intro entry hentry cookie hcookie
  obtain ⟨⟨domain, cookies⟩, hold, rfl⟩ := List.mem_map.mp (List.mem_filter.mp hentry).1
  exact h _ hold cookie (List.mem_filter.mp hcookie).1

theorem Every.dropDomains (h : Every P jar) (surplus : Nat) :
    Every P (CookieJar.dropDomains surplus jar) := by
  induction surplus generalizing jar with
  | zero => exact h
  | succ surplus ih =>
    rw [CookieJar.dropDomains]
    split
    · exact ih fun entry hentry => h entry (List.mem_of_mem_eraseIdx hentry)
    · exact h

theorem Every.enforceDomainCount (h : Every P jar) (options : JarOptions) :
    Every P (CookieJar.enforceDomainCount options jar) := by
  rw [CookieJar.enforceDomainCount]
  split
  · exact every_nil
  · exact h.dropDomains _

theorem mem_of_mem_dropOldest {surplus : Nat} {cookies : List Cookie} {cookie : Cookie}
    (h : cookie ∈ dropOldest surplus cookies) : cookie ∈ cookies := by
  induction surplus generalizing cookies with
  | zero => exact h
  | succ surplus ih => exact List.mem_of_mem_eraseIdx (ih h)

theorem mem_of_mem_enforceDomainLimit {options : JarOptions} {cookies : List Cookie}
    {cookie : Cookie} (h : cookie ∈ enforceDomainLimit options cookies) : cookie ∈ cookies := by
  rw [enforceDomainLimit] at h
  split at h
  · exact absurd h List.not_mem_nil
  · exact mem_of_mem_dropOldest h

/-- A change of one domain's cookies, and what becomes of the others. -/
theorem Every.update {order : MapOrder} {domain : Bytes} {change : List Cookie → List Cookie}
    (h : Every P jar)
    (hother : ∀ other cookie, other ≠ domain → P other cookie → Q other cookie)
    (hchange : ∀ cookies, (∀ cookie ∈ cookies, P domain cookie) →
      ∀ cookie ∈ change cookies, Q domain cookie) :
    Every Q (jar.update order domain change) := by
  intro entry hentry cookie hcookie
  rw [CookieJar.update] at hentry
  split at hentry
  · obtain ⟨old, hold, heq⟩ := List.mem_map.mp hentry
    split at heq
    · rename_i hdomain
      obtain rfl := heq
      rw [hdomain]
      exact hchange old.2 (fun c hc => hdomain ▸ h old hold c hc) cookie hcookie
    · rename_i hdomain
      obtain rfl := heq
      exact hother _ _ hdomain (h old hold cookie hcookie)
  · rename_i hnew
    rcases List.mem_append.mp ((order.perm _).mem_iff.mp hentry) with hold | hlast
    · have hdomain : entry.1 ≠ domain := by
        intro heq
        exact hnew (List.any_eq_true.mpr ⟨entry, hold, beq_iff_eq.mpr heq⟩)
      exact hother _ _ hdomain (h entry hold cookie hcookie)
    · obtain rfl := List.mem_singleton.mp hlast
      exact hchange [] (fun c hc => absurd hc List.not_mem_nil) cookie hcookie

/-- A cookie takes the place of the one with its domain, name and path. -/
theorem Every.store {options : JarOptions} {new : Cookie} {deleted : Bool} (h : Every P jar)
    (hother : ∀ domain cookie, ¬ (domain = new.domain ∧ cookie.name = new.name ∧
      cookie.path = new.path) → P domain cookie → Q domain cookie)
    (hnew : deleted = false → Q new.domain new) :
    Every Q (CookieJar.store options jar new deleted) := by
  refine h.update (fun other cookie hne hp => hother _ _ (fun heq => hne heq.1) hp) ?_
  intro cookies hcookies cookie hmem
  have hkept : cookie ∈ (cookies.filter fun other =>
      !(other.name == new.name && other.path == new.path)) → Q new.domain cookie := by
    intro hfilter
    obtain ⟨hold, hslot⟩ := List.mem_filter.mp hfilter
    refine hother _ _ (fun heq => ?_) (hcookies cookie hold)
    simp [heq.2.1, heq.2.2] at hslot
  cases hdeleted : deleted with
  | true => exact hkept (by simpa [hdeleted] using hmem)
  | false =>
    simp only [hdeleted, Bool.false_eq_true, if_false] at hmem
    rcases List.mem_append.mp (mem_of_mem_enforceDomainLimit hmem) with hold | hlast
    · exact hkept hold
    · obtain rfl := List.mem_singleton.mp hlast
      exact hnew hdeleted

/-- Sending cookies drops some and marks others as used. -/
theorem Every.cookieHeader {url header : Bytes} {now : Int} {after : CookieJar}
    (h : Every P jar) (hused : ∀ domain cookie time, P domain cookie →
      P domain { cookie with lastUsed := time })
    (hheader : jar.cookieHeader url now = .ok (header, after)) : Every P after := by
  rw [CookieJar.cookieHeader] at hheader
  cases hparsed : parseUrl url with
  | error what =>
    rw [hparsed] at hheader
    cases hheader
  | ok parsed =>
    rw [hparsed] at hheader
    obtain rfl := (Prod.ext_iff.mp (Except.ok.inj hheader)).2
    intro entry hentry cookie hcookie
    obtain ⟨⟨domain, cookies⟩, hold, rfl⟩ := List.mem_map.mp hentry
    obtain ⟨before, hbefore, rfl⟩ := List.mem_map.mp hcookie
    have hp : P domain before := h.pruneExpired now _ hold before hbefore
    by_cases hsent : sent parsed.host parsed.target now domain before = true
    · rw [if_pos hsent]
      exact hused _ _ _ hp
    · rw [if_neg hsent]
      exact hp

end CookieJar

end HttpClient.Policy
