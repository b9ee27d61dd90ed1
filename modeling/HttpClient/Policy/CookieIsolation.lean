import HttpClient.Policy.CookieJar

/-!
# Cookies stay with the hosts they were set for

A history records every cookie that a response has set or deleted, with the host of
that response and the `Domain` attribute that was accepted for it. What is sent can
then be traced back: a cookie goes to the host that set it, or to a host that matches
the accepted domain, and it has the value set last in its place.

A domain is stored without its leading dot, and matched without its leading dot. Of a
domain with two dots in front both are gone by then, so such a cookie is sent to hosts
that its domain does not match.

## Main definitions

* `JarCall`, `JarRun` — the calls of a jar, and the jar with its history
* `SetRecord` — one cookie as it was set
* `Isolated` — a cookie that is sent was set for the host it is sent to

## Main results

* `isolated_of_singleDots` — without two dots in front of an accepted domain, all cookies
  that are sent are isolated
-/

set_option autoImplicit false

namespace HttpClient.Policy

open Text

/-! ### The history of a jar -/

/-- A cookie as it was set, or deleted. -/
structure SetRecord where
  /-- The host whose response has set it. -/
  host : Bytes
  /-- The `Domain` attribute accepted last. -/
  domain : Option Bytes
  cookie : Cookie
  deleted : Bool
  deriving DecidableEq

/-- The `Domain` attribute that is accepted last for a host. -/
def acceptedDomain (host : Bytes) (attributes : List Bytes) : Option Bytes :=
  attributes.foldl (fun accepted part =>
    let (name, value) := splitNameValue part
    if lowerCopy name = str "domain" ∧ value ≠ [] ∧ domainMatch host value then some value
    else accepted) none

/-- The value of a `Set-Cookie` line. -/
def setCookieValue (line : Bytes) : Option Bytes :=
  match findByte 58 line with
  | none => none
  | some colon =>
    if lowerCopy (trim (line.take colon)) ≠ str "set-cookie" then none
    else some (trim (line.drop (colon + 1)))

/-- What a header line of a response sets. -/
def recordOf (url : ParsedUrl) (now : Int) (line : Bytes) : Option SetRecord :=
  (setCookieValue line).bind fun value =>
    (CookieJar.readCookie url now value).map fun (cookie, deleted) =>
      { host := url.host, domain := acceptedDomain url.host ((splitParts 59 value).drop 1),
        cookie, deleted }

/-- A call of the jar. -/
inductive JarCall where
  | add (url : Bytes) (response : Response) (now : Int)
  | header (url : Bytes) (now : Int)

/-- What a call sets, the last one first. -/
def JarCall.records : JarCall → List SetRecord
  | .add url response now =>
    match parseUrl url with
    | .error _ => []
    | .ok parsed => (response.headers.filterMap (recordOf parsed now)).reverse
  | .header _ _ => []

/-- A jar and all that was set in it, the last one first. -/
structure JarRun where
  jar : CookieJar := []
  log : List SetRecord := []

/-- A call that throws leaves the jar as it is. -/
def JarRun.call (options : JarOptions) (run : JarRun) (call : JarCall) : JarRun where
  jar :=
    match call with
    | .add url response now =>
      match run.jar.addFromResponse options url response now with
      | .ok jar => jar
      | .error _ => run.jar
    | .header url now =>
      match run.jar.cookieHeader url now with
      | .ok (_, jar) => jar
      | .error _ => run.jar
  log := call.records ++ run.log

/-- The calls of a history, from an empty jar. -/
def JarRun.after (options : JarOptions) (calls : List JarCall) : JarRun :=
  calls.foldl (JarRun.call options) {}

/-! ### Isolation -/

/-- A record is about the place of a cookie: its domain, name and path. -/
def SetRecord.slotOf (cookie : Cookie) (record : SetRecord) : Bool :=
  record.cookie.domain == cookie.domain && record.cookie.name == cookie.name &&
    record.cookie.path == cookie.path

/-- The host may be sent what was recorded: it is the host that has set the cookie, or both
match the accepted domain. -/
def SetRecord.ReachesHost (record : SetRecord) (host : Bytes) : Prop :=
  match record.domain with
  | none => lowerCopy host = lowerCopy record.host
  | some domain => domainMatch record.host domain ∧ domainMatch host domain

/-- What was set last in the place of a cookie is that cookie; it reaches the host, matches
the path and has not expired. -/
def Isolated (log : List SetRecord) (host path : Bytes) (now : Int) (cookie : Cookie) : Prop :=
  ∃ record, log.find? (SetRecord.slotOf cookie) = some record ∧ record.deleted = false ∧
    record.cookie.value = cookie.value ∧ record.ReachesHost host ∧
    pathMatch path record.cookie.path ∧ record.cookie.expired now = false

/-- The header for a URL is made of isolated cookies. -/
def SendsIsolated (run : JarRun) (url : Bytes) (now : Int) (header : Bytes) : Prop :=
  ∃ parsed, parseUrl url = .ok parsed ∧
    header = CookieJar.render ((run.jar.pruneExpired now).selected parsed.host parsed.target now) ∧
    ∀ cookie ∈ (run.jar.pruneExpired now).selected parsed.host parsed.target now,
      Isolated run.log parsed.host parsed.target now cookie

/-- The accepted domain does not begin with two dots. -/
def SetRecord.SingleDot (record : SetRecord) : Prop :=
  ∀ domain ∈ record.domain, ¬ [46, 46] <+: domain

def JarCall.SingleDots (call : JarCall) : Prop := ∀ record ∈ call.records, record.SingleDot

/-! ### Reading one line -/

theorem addLine_eq (options : JarOptions) (url : ParsedUrl) (now : Int) (jar : CookieJar)
    (line : Bytes) :
    CookieJar.addLine options url now jar line =
      match recordOf url now line with
      | none => jar
      | some record => CookieJar.store options jar record.cookie record.deleted := by
  rw [CookieJar.addLine, recordOf, setCookieValue]
  cases findByte 58 line with
  | none => rfl
  | some colon =>
    dsimp only
    split
    · rfl
    · dsimp only [Option.bind_some]
      cases CookieJar.readCookie url now (trim (line.drop (colon + 1))) with
      | none => rfl
      | some read => rfl

/-- A cookie is kept under the host, or under the accepted domain without its dot. -/
def Placed (host : Bytes) (cookie : Cookie) : Option Bytes → Prop
  | none => cookie.hostOnly = true ∧ cookie.domain = lowerCopy host
  | some domain => cookie.hostOnly = false ∧ cookie.domain = dropDot (lowerCopy domain) ∧
    domainMatch host domain

/-- Each attribute leaves the cookie where the accepted domain says. -/
theorem placed_readAttributes {host : Bytes} {now : Int} {attributes : List Bytes}
    {cookie : Cookie} {deleted : Bool} {accepted : Option Bytes} (h : Placed host cookie accepted) :
    Placed host (attributes.foldl (CookieJar.readAttribute host now) (cookie, deleted)).1
      (attributes.foldl (fun accepted part =>
        let (name, value) := splitNameValue part
        if lowerCopy name = str "domain" ∧ value ≠ [] ∧ domainMatch host value then some value
        else accepted) accepted) := by
  induction attributes generalizing cookie deleted accepted with
  | nil => exact h
  | cons part attributes ih =>
    rw [List.foldl_cons, List.foldl_cons]
    dsimp only [CookieJar.readAttribute]
    by_cases hdomain : lowerCopy (splitNameValue part).1 = str "domain" ∧
        (splitNameValue part).2 ≠ [] ∧ domainMatch host (splitNameValue part).2
    · rw [if_pos hdomain, if_pos hdomain]
      exact ih ⟨rfl, rfl, hdomain.2.2⟩
    · rw [if_neg hdomain, if_neg hdomain]
      -- the other attributes change neither the domain nor its kind
      split
      · cases accepted with
        | none => exact ih h
        | some domain => exact ih h
      · split
        · split
          · exact ih h
          · split
            · exact ih h
            · cases accepted with
              | none => exact ih h
              | some domain => exact ih h
        · exact ih h

theorem placed_of_recordOf {url : ParsedUrl} {now : Int} {line : Bytes} {record : SetRecord}
    (h : recordOf url now line = some record) :
    Placed record.host record.cookie record.domain := by
  obtain ⟨value, -, hread⟩ := Option.bind_eq_some_iff.mp h
  obtain ⟨⟨cookie, deleted⟩, hcookie, rfl⟩ := Option.map_eq_some_iff.mp hread
  rw [CookieJar.readCookie] at hcookie
  cases hparts : splitParts 59 value with
  | nil => simp [hparts] at hcookie
  | cons pair attributes =>
    simp only [hparts] at hcookie
    split at hcookie
    · cases hcookie
    · obtain rfl := congrArg Prod.fst (Option.some.inj hcookie)
      exact placed_readAttributes ⟨rfl, rfl⟩

/-! ### What the jar remembers of its history -/

/-- A cookie is as it was set last in its place, up to when it was used. -/
def Remembered (log : List SetRecord) (domain : Bytes) (cookie : Cookie) : Prop :=
  domain = cookie.domain ∧ ∃ record, log.find? (SetRecord.slotOf cookie) = some record ∧
    record.deleted = false ∧ Placed record.host record.cookie record.domain ∧ record.SingleDot ∧
    cookie = { record.cookie with lastUsed := cookie.lastUsed }

theorem slotOf_self {record : SetRecord} {cookie : Cookie} (h : record.cookie = cookie) :
    record.slotOf cookie = true := by
  simp [SetRecord.slotOf, h]

/-- A record about another place does not matter. -/
theorem Remembered.cons {log : List SetRecord} {domain : Bytes} {cookie : Cookie}
    {record : SetRecord} (h : Remembered log domain cookie)
    (hother : ¬ (domain = record.cookie.domain ∧ cookie.name = record.cookie.name ∧
      cookie.path = record.cookie.path)) : Remembered (record :: log) domain cookie := by
  obtain ⟨hdomain, latest, hfind, hrest⟩ := h
  refine ⟨hdomain, latest, ?_, hrest⟩
  have hslot : record.slotOf cookie = false := by
    rw [Bool.eq_false_iff]
    intro hslot
    simp only [SetRecord.slotOf, Bool.and_eq_true, beq_iff_eq] at hslot
    exact hother ⟨hdomain.trans hslot.1.1.symm, hslot.1.2.symm, hslot.2.symm⟩
  rw [List.find?_cons, hslot]
  exact hfind

/-- One header line: what it sets is the latest in its place. -/
theorem every_addLine (options : JarOptions) {url : ParsedUrl} {now : Int} {line : Bytes}
    {jar : CookieJar} {log : List SetRecord} (h : jar.Every (Remembered log))
    (hdots : ∀ record ∈ recordOf url now line, record.SingleDot) :
    (CookieJar.addLine options url now jar line).Every
      (Remembered ((recordOf url now line).toList ++ log)) := by
  rw [addLine_eq]
  cases hrecord : recordOf url now line with
  | none => exact h
  | some record =>
    refine h.store (fun domain cookie hne hold => hold.cons hne) (fun hkept => ?_)
    refine ⟨rfl, record, ?_, hkept, placed_of_recordOf hrecord, hdots record hrecord, rfl⟩
    rw [Option.toList_some, List.singleton_append, List.find?_cons, slotOf_self rfl]

theorem every_addLines {options : JarOptions} {url : ParsedUrl} {now : Int} {lines : List Bytes}
    {jar : CookieJar} {log : List SetRecord} (h : jar.Every (Remembered log))
    (hdots : ∀ record ∈ lines.filterMap (recordOf url now), record.SingleDot) :
    (lines.foldl (CookieJar.addLine options url now) jar).Every
      (Remembered ((lines.filterMap (recordOf url now)).reverse ++ log)) := by
  induction lines generalizing jar log with
  | nil => exact h
  | cons line lines ih =>
    have hfirst : ∀ record ∈ recordOf url now line, record.SingleDot := fun record hrecord =>
      hdots record (List.mem_filterMap.mpr ⟨line, List.mem_cons_self, hrecord⟩)
    have hrest : ∀ record ∈ lines.filterMap (recordOf url now), record.SingleDot := by
      intro record hrecord
      obtain ⟨l, hl, hread⟩ := List.mem_filterMap.mp hrecord
      exact hdots record (List.mem_filterMap.mpr ⟨l, List.mem_cons_of_mem _ hl, hread⟩)
    have hafter := ih (every_addLine options h hfirst) hrest
    rw [List.foldl_cons]
    cases hrecord : recordOf url now line with
    | none =>
      rw [hrecord] at hafter
      rwa [List.filterMap_cons_none hrecord]
    | some record =>
      rw [hrecord] at hafter
      rw [List.filterMap_cons_some hrecord, List.reverse_cons, List.append_assoc]
      exact hafter

/-- One call: the jar remembers the history with what the call sets. -/
theorem every_call {options : JarOptions} {run : JarRun} {call : JarCall}
    (h : run.jar.Every (Remembered run.log)) (hdots : call.SingleDots) :
    (run.call options call).jar.Every (Remembered (run.call options call).log) := by
  cases call with
  | header url now =>
    rw [JarRun.call]
    dsimp only [JarCall.records, List.nil_append]
    cases hheader : run.jar.cookieHeader url now with
    | error what => exact h
    | ok found =>
      refine h.cookieHeader (fun domain cookie time hold => ?_) hheader
      obtain ⟨hdomain, record, hfind, hkept, hplaced, hdot, heq⟩ := hold
      refine ⟨hdomain, record, hfind, hkept, hplaced, hdot, ?_⟩
      rw [heq]
  | add url response now =>
    rw [JarRun.call]
    dsimp only [JarCall.records]
    rw [JarCall.SingleDots, JarCall.records] at hdots
    rw [CookieJar.addFromResponse]
    cases hparsed : parseUrl url with
    | error what => exact h
    | ok parsed =>
      rw [hparsed] at hdots
      exact (every_addLines (h.pruneExpired now)
        fun record hrecord => hdots record (List.mem_reverse.mpr hrecord)).enforceDomainCount _

theorem every_after {options : JarOptions} {calls : List JarCall}
    (hdots : ∀ call ∈ calls, call.SingleDots) :
    (JarRun.after options calls).jar.Every (Remembered (JarRun.after options calls).log) := by
  suffices hfold : ∀ run : JarRun, run.jar.Every (Remembered run.log) →
      (calls.foldl (JarRun.call options) run).jar.Every
        (Remembered (calls.foldl (JarRun.call options) run).log) from
    hfold {} CookieJar.every_nil
  induction calls with
  | nil => exact fun run h => h
  | cons call calls ih =>
    intro run h
    exact ih (fun c hc => hdots c (List.mem_cons_of_mem _ hc)) _
      (every_call h (hdots call List.mem_cons_self))

/-! ### What is sent -/

theorem dropDot_of_ne {c : UInt8} {rest : Bytes} (h : c ≠ 46) :
    dropDot (c :: rest) = c :: rest := by
  rw [dropDot]
  simpa using h

/-- Without a second dot, removing the dot twice is removing it once. -/
theorem dropDot_lowerCopy {domain : Bytes} (h : ¬ [46, 46] <+: domain) :
    dropDot (lowerCopy (dropDot (lowerCopy domain))) = dropDot (lowerCopy domain) := by
  cases domain with
  | nil => rfl
  | cons c rest =>
    by_cases hdot : c = 46
    · -- the first dot goes; the next byte is another one
      subst hdot
      have hfirst : dropDot (lowerCopy (46 :: rest)) = lowerCopy rest := rfl
      rw [hfirst, lowerCopy_lowerCopy]
      cases rest with
      | nil => rfl
      | cons d rest =>
        refine dropDot_of_ne fun heq => h ?_
        rw [(lower_eq_iff (by decide)).mp heq]
        exact List.prefix_append [46, 46] rest
    · have hhead : lower c ≠ 46 := fun heq => hdot ((lower_eq_iff (by decide)).mp heq)
      have hkeep : dropDot (lowerCopy (c :: rest)) = lowerCopy (c :: rest) := dropDot_of_ne hhead
      rw [hkeep, lowerCopy_lowerCopy, hkeep]

/-- A remembered cookie that is sent to a host is isolated. -/
theorem isolated_of_sent {log : List SetRecord} {domain host path : Bytes} {now : Int}
    {cookie : Cookie} (h : Remembered log domain cookie)
    (hsent : CookieJar.sent host path now domain cookie = true) :
    Isolated log host path now cookie := by
  obtain ⟨rfl, record, hfind, hkept, hplaced, hdot, heq⟩ := h
  simp only [CookieJar.sent, Bool.and_eq_true, Bool.not_eq_true'] at hsent
  obtain ⟨⟨⟨hdomain, hhost⟩, hexpired⟩, hpath⟩ := hsent
  rw [heq] at hdomain hhost hexpired hpath
  refine ⟨record, hfind, hkept, by rw [heq], ?_, hpath, hexpired⟩
  rw [SetRecord.ReachesHost]
  cases haccepted : record.domain with
  | none =>
    rw [haccepted] at hplaced
    simpa [hplaced.1, hplaced.2] using hhost
  | some accepted =>
    rw [haccepted] at hplaced
    refine ⟨hplaced.2.2, ?_⟩
    rw [domainMatch] at hdomain ⊢
    rwa [hplaced.2.1, dropDot_lowerCopy (hdot accepted haccepted)] at hdomain

/-- Every cookie in a header was set last by a response whose host it may be sent on from. -/
theorem isolated_of_singleDots {options : JarOptions} {calls : List JarCall} {url header : Bytes}
    {now : Int} {after : CookieJar} (hdots : ∀ call ∈ calls, call.SingleDots)
    (h : (JarRun.after options calls).jar.cookieHeader url now = .ok (header, after)) :
    SendsIsolated (JarRun.after options calls) url now header := by
  rw [CookieJar.cookieHeader] at h
  cases hparsed : parseUrl url with
  | error what =>
    rw [hparsed] at h
    cases h
  | ok parsed =>
    rw [hparsed] at h
    refine ⟨parsed, hparsed, (Prod.ext_iff.mp (Except.ok.inj h)).1.symm, fun cookie hcookie => ?_⟩
    obtain ⟨domain, cookies, hentry, hmem, hsent⟩ := CookieJar.mem_selected.mp hcookie
    exact isolated_of_sent ((every_after hdots).pruneExpired now _ hentry cookie hmem) hsent

/-- A response of one host, and a request to a sibling. -/
def siblingCalls : List JarCall :=
  [.add (str "http://a.example.com/x/y")
    { headers := [str "Set-Cookie: id=1; Domain=.Example.com; Max-Age=60"] } 5]

theorem isolated_of_singleDots_sibling :
    SendsIsolated (JarRun.after {} siblingCalls) (str "http://b.example.com/x/z") 7
      (str "id=1") := by
  have hdots : ∀ call ∈ siblingCalls, call.SingleDots := by
    intro call hcall
    obtain rfl := List.mem_singleton.mp hcall
    intro record hrecord domain hdomain
    have hsome : ∀ r ∈ JarCall.records (.add (str "http://a.example.com/x/y")
        { headers := [str "Set-Cookie: id=1; Domain=.Example.com; Max-Age=60"] } 5),
        r.domain = some (str ".Example.com") := by
      repeat rw [str_ofList]
      decide +kernel
    obtain rfl := Option.some.inj ((hsome record hrecord).symm.trans hdomain)
    decide
  have hheader : (JarRun.after {} siblingCalls).jar.cookieHeader
      (str "http://b.example.com/x/z") 7 =
        .ok (str "id=1", [(str "example.com", [
          { name := str "id", value := str "1", domain := str "example.com", path := str "/x",
            hostOnly := false, expires := 60000000005, lastUsed := 7 }])]) := by
    rw [siblingCalls]
    repeat rw [str_ofList]
    decide +kernel
  exact isolated_of_singleDots hdots hheader

/-- A host with an empty label sets a cookie for a domain with two dots. -/
def twoDotCalls : List JarCall :=
  [.add (str "http://a..example.com/") { headers := [str "Set-Cookie: id=1; Domain=..example.com"] }
    5]

/-- It is sent to a host that does not match that domain. -/
theorem not_isolated_twoDots :
    ¬ ∀ (options : JarOptions) (calls : List JarCall) (url header : Bytes) (now : Int)
        (after : CookieJar),
      (JarRun.after options calls).jar.cookieHeader url now = .ok (header, after) →
        SendsIsolated (JarRun.after options calls) url now header := by
  intro hall
  have hheader : (JarRun.after {} twoDotCalls).jar.cookieHeader (str "http://example.com/") 7 =
      .ok (str "id=1", [(str ".example.com", [
        { name := str "id", value := str "1", domain := str ".example.com", path := str "/",
          hostOnly := false, lastUsed := 7 }])]) := by
    rw [twoDotCalls]
    repeat rw [str_ofList]
    decide +kernel
  obtain ⟨parsed, hparsed, -, hsent⟩ := hall _ _ _ _ _ _ hheader
  have hurl : parseUrl (str "http://example.com/") =
      .ok { scheme := str "http", host := str "example.com", port := str "80",
            target := str "/" } := by decide
  obtain rfl := Except.ok.inj (hurl.symm.trans hparsed)
  let cookie : Cookie :=
    { name := str "id", value := str "1", domain := str ".example.com", path := str "/",
      hostOnly := false, lastUsed := 5 }
  have hfirst : cookie ∈ ((JarRun.after {} twoDotCalls).jar.pruneExpired 7).selected
      (str "example.com") (str "/") 7 := by
    rw [twoDotCalls]
    repeat rw [str_ofList]
    decide +kernel
  obtain ⟨record, hfind, -, -, hreaches, -⟩ := hsent _ hfirst
  have hlog : ∀ r ∈ (JarRun.after {} twoDotCalls).log,
      r.domain = some (str "..example.com") := by
    rw [twoDotCalls]
    repeat rw [str_ofList]
    decide +kernel
  rw [SetRecord.ReachesHost, hlog record (List.mem_of_find?_eq_some hfind)] at hreaches
  exact absurd hreaches.2 (by decide)

end HttpClient.Policy
