import Mathlib.Data.List.Dedup
import Mathlib.Data.List.Perm.Subperm
import HttpClient.Policy.CookieDomains

/-!
# The limits of a cookie jar

A jar has limits for the number of its domains and for the cookies of each domain. What has not
been used for longest is to go, and nothing else before it expires.

A domain that has lost its last cookie stays in the jar until the next call, and is counted as a
domain. It is never chosen to go, so that another domain goes in its place. And which domain goes
is decided by its oldest cookie, even if the response has just put another one beside it.

## Main definitions

* `Addition`, `afterCall` — a call of `add_from_response`
* `KeepsBounds` — what a call may do to a jar
* `EvictsFairly` — the calls in which the count of domains does no harm

## Main results

* `keepsBounds_of_fair` — the runs in which all calls keep the bounds
* `other_domain_evicted` — a deletion that costs another domain its cookie
-/

set_option autoImplicit false

namespace HttpClient.Policy

open Text Semantics CookieJar

/-! ### Runs -/

/-- A call of `add_from_response`. -/
structure Addition where
  url : Bytes
  response : Response
  now : Int

/-- What the response sets and deletes, line by line. -/
def Addition.records (addition : Addition) : List SetRecord :=
  match parseUrl addition.url with
  | .error _ => []
  | .ok parsed => addition.response.headers.filterMap (recordOf parsed addition.now)

/-- A call that throws leaves the jar as it is. -/
def afterCall (options : JarOptions) (jar : CookieJar) (call : Addition) : CookieJar :=
  match jar.addFromResponse options call.url call.response call.now with
  | .ok after => after
  | .error _ => jar

/-- The jar when its domains are counted. -/
def full (options : JarOptions) (jar : CookieJar) (call : Addition) : CookieJar :=
  (jar.pruneExpired call.now).addRecords options call.records

/-! ### The bounds -/

/-- The record sets or deletes a cookie in this place. -/
def SetRecord.Names (record : SetRecord) (domain : Bytes) (cookie : Cookie) : Prop :=
  record.cookie.domain = domain ∧ record.cookie.place = cookie.place

/-- The domains in which the records set cookies. -/
def setDomains (records : List SetRecord) : List Bytes :=
  ((records.filter fun record => !record.deleted).map fun record => record.cookie.domain).dedup

/-- The places of a domain in which the records set cookies. -/
def setPlaces (domain : Bytes) (records : List SetRecord) : List (Bytes × Bytes) :=
  ((records.filter fun record => !record.deleted && record.cookie.domain == domain).map
    fun record => record.cookie.place).dedup

/-- The records do not exceed the limits themselves. -/
def Fits (options : JarOptions) (records : List SetRecord) : Prop :=
  (setDomains records).length ≤ options.maxCookieDomains ∧
    ∀ domain, (setPlaces domain records).length ≤ options.maxCookiesPerDomain

/-- The number of domains that hold a cookie. -/
def holding (jar : CookieJar) : Nat := jar.countP fun entry => entry.2 ≠ []

/-- A cookie is put into the domain and is one too many; of what was there, the cookie was not
used for longest. -/
def DomainFull (options : JarOptions) (jar : CookieJar) (records : List SetRecord)
    (domain : Bytes) (cookie : Cookie) : Prop :=
  ∃ earlier record later, records = earlier ++ record :: later ∧ record.cookie.domain = domain ∧
    record.deleted = false ∧ cookie ∈ (jar.addRecords options earlier).cookiesOf domain ∧
    options.maxCookiesPerDomain <
      (held ((jar.addRecords options earlier).cookiesOf domain) record.cookie).length ∧
    ∀ kept ∈ (jar.addRecords options (earlier ++ [record])).cookiesOf domain,
      cookie.lastUsed ≤ kept.lastUsed

/-- More domains hold cookies than there may be, and no more go than have to; what goes with the
cookie was not used for longer than anything that is left. -/
def JarFull (options : JarOptions) (full after : CookieJar) (domain : Bytes) (cookie : Cookie) :
    Prop :=
  cookie ∈ full.cookiesOf domain ∧ options.maxCookieDomains < holding full ∧
    options.maxCookieDomains ≤ holding after ∧
    ∀ entry ∈ after, ∀ kept ∈ entry.2, ∃ own ∈ full.cookiesOf domain,
      own.lastUsed ≤ kept.lastUsed

/-- What a call may make of a jar. -/
structure KeepsBounds (options : JarOptions) (call : Addition) (jar after : CookieJar) : Prop where
  distinct : after.Distinct
  perDomain : ∀ entry ∈ after, entry.2.length ≤ options.maxCookiesPerDomain
  places : ∀ entry ∈ after, (entry.2.map Cookie.place).Nodup
  domains : after.length ≤ options.maxCookieDomains
  /-- What the response has set last in a place is there. -/
  present : ∀ earlier record later, call.records = earlier ++ record :: later →
    record.deleted = false →
    (∀ other ∈ later, ¬ other.Names record.cookie.domain record.cookie) →
    Fits options call.records → record.cookie ∈ after.cookiesOf record.cookie.domain
  /-- What the response does not name is removed for a reason only. -/
  removed : ∀ domain, ∀ cookie ∈ jar.cookiesOf domain,
    (∀ record ∈ call.records, ¬ record.Names domain cookie) →
    cookie ∉ after.cookiesOf domain →
      cookie.expired call.now = true ∨
        DomainFull options (jar.pruneExpired call.now) call.records domain cookie ∨
        JarFull options (full options jar call) after domain cookie

/-! ### The condition -/

/-- The domain holds a cookie that the records have set. -/
def newlySet (records : List SetRecord) (entry : Bytes × List Cookie) : Bool :=
  records.any fun record =>
    !record.deleted && record.cookie.domain == entry.1 && entry.2.contains record.cookie

/-- The domain has an older cookie than every domain with a cookie that the records have set. -/
def olderThanSet (records : List SetRecord) (jar : CookieJar) (entry : Bytes × List Cookie) :
    Bool :=
  jar.all fun other => !newlySet records other || decide (domainTime entry.2 < domainTime other.2)

/-- If there are too many domains, then none of them is empty, and enough of them are older than
those in which the response has set cookies; unless these are too many already. -/
def EvictsFairly (options : JarOptions) (jar : CookieJar) (call : Addition) : Prop :=
  0 < options.maxCookieDomains →
    options.maxCookieDomains < (full options jar call).length →
      (∀ entry ∈ full options jar call, entry.2 ≠ []) ∧
        ((full options jar call).countP (newlySet call.records) ≤ options.maxCookieDomains →
          (full options jar call).length - options.maxCookieDomains ≤
            (full options jar call).countP
              (olderThanSet call.records (full options jar call)))

instance (options : JarOptions) (jar : CookieJar) (call : Addition) :
    Decidable (EvictsFairly options jar call) :=
  inferInstanceAs (Decidable (_ → _ → _ ∧ (_ → _)))

/-- The steady clock does not go back, and has not come to its end. -/
def Timely (calls : List Addition) : Prop :=
  (calls.Pairwise fun call later => call.now ≤ later.now) ∧ ∀ call ∈ calls, call.now < timeMax

/-- Something holds of every call, with the jar before and after it. -/
def EveryCall (options : JarOptions) (P : CookieJar → Addition → CookieJar → Prop) :
    CookieJar → List Addition → Prop
  | _, [] => True
  | jar, call :: calls =>
    P jar call (afterCall options jar call) ∧ EveryCall options P (afterCall options jar call) calls

/-! ### One domain -/

section Domain

variable {options : JarOptions} {now : Int} {domain : Bytes} {cookie : Cookie}
  {cookies start : List Cookie} {record : SetRecord} {records : List SetRecord}

/-- The cookies of a domain between two calls, the last one at `now`. -/
structure Stored (options : JarOptions) (now : Int) (cookies : List Cookie) : Prop where
  sorted : CookieJar.Sorted cookies
  used : ∀ cookie ∈ cookies, cookie.lastUsed ≤ now
  places : (cookies.map Cookie.place).Nodup
  size : cookies.length ≤ options.maxCookiesPerDomain

theorem Stored.sublist {fewer : List Cookie} (h : Stored options now cookies)
    (hsub : fewer.Sublist cookies) : Stored options now fewer where
  sorted := h.sorted.sublist hsub
  used cookie hcookie := h.used cookie (hsub.subset hcookie)
  places := h.places.sublist (hsub.map _)
  size := hsub.length_le.trans h.size

theorem elsewhere_iff {other : Cookie} :
    elsewhere cookie other = true ↔ other.place ≠ cookie.place := by
  simp [elsewhere, Cookie.place, Prod.ext_iff, imp_iff_not_or]

/-- A cookie that is put into a domain is used last and alone in its place. -/
theorem sorted_held (h : Stored options now cookies) (hnow : cookie.lastUsed = now) :
    CookieJar.Sorted (held cookies cookie) := by
  refine List.pairwise_append.mpr ⟨h.sorted.sublist List.filter_sublist,
    List.pairwise_singleton _ _, fun other hother new hnew => ?_⟩
  obtain rfl := List.mem_singleton.mp hnew
  rw [hnow]
  exact h.used other (List.mem_filter.mp hother).1

theorem nodup_held (h : Stored options now cookies) (cookie : Cookie) :
    ((held cookies cookie).map Cookie.place).Nodup := by
  rw [held, List.map_append]
  refine List.Nodup.append (h.places.sublist (List.filter_sublist.map _))
    (List.nodup_singleton _) fun place hother hnew => ?_
  obtain ⟨other, hmem, rfl⟩ := List.mem_map.mp hother
  exact elsewhere_iff.mp (List.mem_filter.mp hmem).2 (List.mem_singleton.mp hnew)

theorem storeIn_deleted (hdomain : record.cookie.domain = domain)
    (hdeleted : record.deleted = true) :
    storeIn options domain cookies record = cookies.filter (elsewhere record.cookie) := by
  rw [storeIn, if_pos hdomain, if_pos hdeleted]

/-- The limit of a domain costs it the cookies that were not used for longest. -/
theorem storeIn_set (h : Stored options now cookies) (hnow : record.cookie.lastUsed = now)
    (hdomain : record.cookie.domain = domain) (hset : record.deleted = false) :
    storeIn options domain cookies record = (held cookies record.cookie).drop
      ((held cookies record.cookie).length - options.maxCookiesPerDomain) := by
  rw [storeIn, if_pos hdomain, if_neg (by simp [hset]),
    enforceDomainLimit_of_sorted (sorted_held h hnow)]

theorem Stored.storeIn (h : Stored options now cookies) (domain : Bytes)
    (hnow : record.cookie.lastUsed = now) :
    Stored options now (storeIn options domain cookies record) := by
  by_cases hdomain : record.cookie.domain = domain
  · cases hdeleted : record.deleted with
    | true =>
      rw [storeIn_deleted hdomain hdeleted]
      exact h.sublist List.filter_sublist
    | false =>
      rw [storeIn_set h hnow hdomain hdeleted]
      refine ⟨(sorted_held h hnow).sublist (List.drop_sublist _ _), fun other hother => ?_,
        (nodup_held h record.cookie).sublist ((List.drop_sublist _ _).map _), ?_⟩
      · rcases List.mem_append.mp ((List.drop_sublist _ _).subset hother) with hold | hnew
        · exact h.used other (List.mem_filter.mp hold).1
        · exact (List.mem_singleton.mp hnew ▸ hnow).le
      · rw [List.length_drop]
        omega
  · rw [CookieJar.storeIn, if_neg hdomain]
    exact h

theorem Stored.foldl (h : Stored options now cookies) (domain : Bytes)
    (hnow : ∀ record ∈ records, record.cookie.lastUsed = now) :
    Stored options now (records.foldl (CookieJar.storeIn options domain) cookies) := by
  induction records generalizing cookies with
  | nil => exact h
  | cons record records ih =>
    exact ih (h.storeIn domain (hnow record List.mem_cons_self))
      fun other hother => hnow other (List.mem_cons_of_mem _ hother)

/-- A cookie that no line names leaves its domain when that has one too many. -/
theorem exists_full_of_not_mem (h : Stored options now cookies)
    (hnow : ∀ record ∈ records, record.cookie.lastUsed = now) (hcookie : cookie ∈ cookies)
    (hother : ∀ record ∈ records, ¬ record.Names domain cookie)
    (hgone : cookie ∉ records.foldl (CookieJar.storeIn options domain) cookies) :
    ∃ earlier record later, records = earlier ++ record :: later ∧
      record.cookie.domain = domain ∧ record.deleted = false ∧
      cookie ∈ earlier.foldl (CookieJar.storeIn options domain) cookies ∧
      options.maxCookiesPerDomain < (held (earlier.foldl (CookieJar.storeIn options domain)
        cookies) record.cookie).length ∧
      ∀ kept ∈ (earlier ++ [record]).foldl (CookieJar.storeIn options domain) cookies,
        cookie.lastUsed ≤ kept.lastUsed := by
  induction records generalizing cookies with
  | nil => exact absurd hcookie hgone
  | cons record records ih =>
    have hfirst := hnow record List.mem_cons_self
    by_cases hstays : cookie ∈ CookieJar.storeIn options domain cookies record
    · obtain ⟨earlier, next, later, rfl, hrest⟩ := ih (h.storeIn domain hfirst)
        (fun other hmem => hnow other (List.mem_cons_of_mem _ hmem)) hstays
        (fun other hmem => hother other (List.mem_cons_of_mem _ hmem)) hgone
      exact ⟨record :: earlier, next, later, rfl, hrest⟩
    · -- the line is about the domain, and not about the place of the cookie
      have hdomain : record.cookie.domain = domain := by
        by_contra hne
        rw [CookieJar.storeIn, if_neg hne] at hstays
        exact hstays hcookie
      have hkept : cookie ∈ cookies.filter (elsewhere record.cookie) := by
        refine List.mem_filter.mpr ⟨hcookie, elsewhere_iff.mpr fun hplace => ?_⟩
        exact hother record List.mem_cons_self ⟨hdomain, hplace.symm⟩
      have hset : record.deleted = false := by
        cases hdeleted : record.deleted with
        | false => rfl
        | true =>
          rw [storeIn_deleted hdomain hdeleted] at hstays
          exact absurd hkept hstays
      have hheld : cookie ∈ held cookies record.cookie := List.mem_append_left _ hkept
      rw [storeIn_set h hfirst hdomain hset] at hstays
      have hsplit := List.take_append_drop
        ((held cookies record.cookie).length - options.maxCookiesPerDomain)
        (held cookies record.cookie)
      have htaken : cookie ∈ (held cookies record.cookie).take
          ((held cookies record.cookie).length - options.maxCookiesPerDomain) := by
        rw [← hsplit] at hheld
        exact (List.mem_append.mp hheld).resolve_right hstays
      refine ⟨[], record, records, rfl, hdomain, hset, hcookie, ?_, fun kept hmem => ?_⟩
      · by_contra hwithin
        rw [List.foldl_nil] at hwithin
        rw [Nat.sub_eq_zero_of_le (Nat.not_lt.mp hwithin)] at htaken
        exact absurd htaken List.not_mem_nil
      · rw [List.nil_append, List.foldl_cons, List.foldl_nil,
          storeIn_set h hfirst hdomain hset] at hmem
        have hsorted := sorted_held h hfirst
        rw [CookieJar.Sorted, ← hsplit] at hsorted
        exact (List.pairwise_append.mp hsorted).2.2 cookie htaken kept hmem

/-- The cookies come from the records. -/
def SetBy (records : List SetRecord) (domain : Bytes) (cookies : List Cookie) : Prop :=
  ∀ cookie ∈ cookies, ∃ record ∈ records,
    record.deleted = false ∧ record.cookie.domain = domain ∧ record.cookie = cookie

/-- No more cookies than the records set places can come from them. -/
theorem SetBy.length_le (h : SetBy records domain cookies)
    (hplaces : (cookies.map Cookie.place).Nodup) :
    cookies.length ≤ (setPlaces domain records).length := by
  have hsub : cookies.map Cookie.place ⊆ setPlaces domain records := by
    intro place hplace
    obtain ⟨cookie, hcookie, rfl⟩ := List.mem_map.mp hplace
    obtain ⟨record, hrecord, hset, hdomain, rfl⟩ := h cookie hcookie
    refine List.mem_dedup.mpr (List.mem_map.mpr ⟨record, List.mem_filter.mpr ⟨hrecord, ?_⟩, rfl⟩)
    simp [hset, hdomain]
  have hle := (hplaces.subperm hsub).length_le
  rwa [List.length_map] at hle

/-- The last cookies of a domain, which come from the response, stay the last ones. -/
theorem storeIn_news {olds news : List Cookie} (h : Stored options now (olds ++ news))
    (hnow : record.cookie.lastUsed = now) (hrecord : record ∈ records)
    (hnews : SetBy records domain news)
    (hfits : (setPlaces domain records).length ≤ options.maxCookiesPerDomain) :
    ∃ olds' news', CookieJar.storeIn options domain (olds ++ news) record = olds' ++ news' ∧
      SetBy records domain news' ∧
      (∀ cookie ∈ news, ¬ record.Names domain cookie → cookie ∈ news') ∧
      (record.cookie.domain = domain → record.deleted = false → record.cookie ∈ news') := by
  have hfilter : SetBy records domain (news.filter (elsewhere record.cookie)) :=
    fun cookie hcookie => hnews cookie (List.mem_filter.mp hcookie).1
  have hkeeps : record.cookie.domain = domain → ∀ cookie ∈ news, ¬ record.Names domain cookie →
      cookie ∈ news.filter (elsewhere record.cookie) := by
    intro hdomain cookie hcookie hother
    refine List.mem_filter.mpr ⟨hcookie, elsewhere_iff.mpr fun hplace => ?_⟩
    exact hother ⟨hdomain, hplace.symm⟩
  by_cases hdomain : record.cookie.domain = domain
  · cases hdeleted : record.deleted with
    | true =>
      rw [storeIn_deleted hdomain hdeleted, List.filter_append]
      exact ⟨_, _, rfl, hfilter, hkeeps hdomain, fun _ hset => by cases hset⟩
    | false =>
      rw [storeIn_set h hnow hdomain hdeleted]
      have hplaces := nodup_held h record.cookie
      rw [held, List.filter_append, List.append_assoc] at hplaces ⊢
      set kept := olds.filter (elsewhere record.cookie)
      set latest := news.filter (elsewhere record.cookie) ++ [record.cookie]
      have hset : SetBy records domain latest := by
        intro cookie hcookie
        rcases List.mem_append.mp hcookie with hold | hnew
        · exact hfilter cookie hold
        · exact ⟨record, hrecord, hdeleted, hdomain, (List.mem_singleton.mp hnew).symm⟩
      rw [List.map_append] at hplaces
      have hlength := hset.length_le (List.nodup_append.mp hplaces).2.1
      have hdrop : (kept ++ latest).length - options.maxCookiesPerDomain ≤ kept.length := by
        rw [List.length_append]
        omega
      rw [List.drop_append_of_le_length hdrop]
      refine ⟨_, latest, rfl, hset, fun cookie hcookie hother => ?_, fun _ _ => ?_⟩
      · exact List.mem_append_left _ (hkeeps hdomain cookie hcookie hother)
      · exact List.mem_append_right _ (List.mem_singleton.mpr rfl)
  · rw [CookieJar.storeIn, if_neg hdomain]
    exact ⟨olds, news, rfl, hnews, fun _ hcookie _ => hcookie, fun heq => absurd heq hdomain⟩

theorem mem_foldl_of_mem_news {olds news : List Cookie} {later : List SetRecord}
    (h : Stored options now (olds ++ news))
    (hnow : ∀ record ∈ records, record.cookie.lastUsed = now)
    (hlater : ∀ record ∈ later, record ∈ records) (hnews : SetBy records domain news)
    (hfits : (setPlaces domain records).length ≤ options.maxCookiesPerDomain)
    (hcookie : cookie ∈ news) (hother : ∀ record ∈ later, ¬ record.Names domain cookie) :
    cookie ∈ later.foldl (CookieJar.storeIn options domain) (olds ++ news) := by
  induction later generalizing olds news with
  | nil => exact List.mem_append_right _ hcookie
  | cons record later ih =>
    have hrecord := hlater record List.mem_cons_self
    obtain ⟨olds', news', hstored, hset, hkept, -⟩ :=
      storeIn_news h (hnow record hrecord) hrecord hnews hfits
    have hnext := h.storeIn domain (hnow record hrecord)
    rw [List.foldl_cons, hstored]
    rw [hstored] at hnext
    exact ih hnext (fun other hmem => hlater other (List.mem_cons_of_mem _ hmem)) hset
      (hkept cookie hcookie (hother record List.mem_cons_self))
      fun other hmem => hother other (List.mem_cons_of_mem _ hmem)

/-- What a response that does not exceed the limit sets last in a place stays there. -/
theorem mem_foldl_of_set {earlier later : List SetRecord} (h : Stored options now cookies)
    (hnow : ∀ other ∈ earlier ++ record :: later, other.cookie.lastUsed = now)
    (hfits : (setPlaces domain (earlier ++ record :: later)).length ≤ options.maxCookiesPerDomain)
    (hdomain : record.cookie.domain = domain) (hset : record.deleted = false)
    (hother : ∀ other ∈ later, ¬ other.Names domain record.cookie) :
    record.cookie ∈
      (earlier ++ record :: later).foldl (CookieJar.storeIn options domain) cookies := by
  have hmem : record ∈ earlier ++ record :: later :=
    List.mem_append_right _ List.mem_cons_self
  have hbefore := h.foldl domain fun other hearlier =>
    hnow other (List.mem_append_left _ hearlier)
  -- whatever the domain holds by then counts as old
  rw [List.foldl_append, List.foldl_cons]
  have hall := List.append_nil (earlier.foldl (CookieJar.storeIn options domain) cookies)
  rw [← hall] at hbefore ⊢
  obtain ⟨olds, news, hstored, hnews, -, hnew⟩ := storeIn_news hbefore (hnow record hmem) hmem
    (fun _ hnone => absurd hnone List.not_mem_nil) hfits
  have hnext := hbefore.storeIn domain (hnow record hmem)
  rw [hstored] at hnext ⊢
  exact mem_foldl_of_mem_news hnext hnow
    (fun other hlater => List.mem_append_right _ (List.mem_cons_of_mem _ hlater)) hnews hfits
    (hnew hdomain hset) hother

end Domain

/-! ### The count of domains -/

section Count

variable {options : JarOptions} {now : Int} {jar : CookieJar} {records : List SetRecord}

/-- What the count of domains drops, and what it leaves. -/
structure Counted (options : JarOptions) (records : List SetRecord) (jar after : CookieJar) :
    Prop where
  sublist : after.Sublist jar
  domains : after.length ≤ options.maxCookieDomains
  newlySet : jar.countP (newlySet records) ≤ options.maxCookieDomains →
    ∀ entry ∈ jar, Policy.newlySet records entry = true → 0 < options.maxCookieDomains →
      entry ∈ after
  dropped : 0 < options.maxCookieDomains → ∀ entry ∈ jar, entry ∉ after →
    options.maxCookieDomains < holding jar ∧ options.maxCookieDomains ≤ holding after ∧
      ∀ kept ∈ after, domainTime entry.2 ≤ domainTime kept.2

theorem holding_eq_length (h : ∀ entry ∈ jar, entry.2 ≠ []) : holding jar = jar.length :=
  List.countP_eq_length.mpr fun entry hentry => decide_eq_true (h entry hentry)

theorem counted_enforceDomainCount
    (hused : ∀ entry ∈ jar, ∀ cookie ∈ entry.2, cookie.lastUsed ≤ now)
    (hnow : now < timeMax)
    (hfair : 0 < options.maxCookieDomains → options.maxCookieDomains < jar.length →
      (∀ entry ∈ jar, entry.2 ≠ []) ∧
        (jar.countP (newlySet records) ≤ options.maxCookieDomains →
          jar.length - options.maxCookieDomains ≤ jar.countP (olderThanSet records jar))) :
    Counted options records jar (enforceDomainCount options jar) := by
  rw [enforceDomainCount]
  split
  · rename_i hzero
    exact ⟨List.nil_sublist _, Nat.zero_le _, fun _ _ _ _ hpos => absurd hzero (Nat.ne_of_gt hpos),
      fun hpos => absurd hzero (Nat.ne_of_gt hpos)⟩
  · rename_i hzero
    rcases Nat.lt_or_ge options.maxCookieDomains jar.length with hmany | hfew
    · obtain ⟨hfilled, holder⟩ := hfair (Nat.pos_of_ne_zero hzero) hmany
      have htime : ∀ entry ∈ jar, domainTime entry.2 < timeMax := by
        intro entry hentry
        obtain ⟨cookie, hcookie⟩ := List.exists_mem_of_ne_nil _ (hfilled entry hentry)
        exact ((domainTime_le hcookie).trans (hused entry hentry cookie hcookie)).trans_lt hnow
      rw [dropDomains_eq _ htime]
      have hsub := dropLeast_sublist (f := entryTime)
        (jar.length - options.maxCookieDomains) jar
      have hlength := length_dropLeast (f := entryTime)
        (jar.length - options.maxCookieDomains) jar
      rw [Nat.sub_sub_self hmany.le] at hlength
      refine ⟨hsub, hlength.le, fun hset entry hentry hnew _ => ?_, fun _ entry hentry hgone => ?_⟩
      · refine mem_dropLeast_of_many_below hentry (fun other _ hbelow => ?_) (holder hset)
        have holder : domainTime other.2 < domainTime entry.2 := by
          simpa [hnew] using List.all_eq_true.mp hbelow entry hentry
        exact holder
      · refine ⟨(holding_eq_length hfilled).symm ▸ hmany, ?_, fun kept hkept =>
          le_of_not_mem_dropLeast (f := entryTime) hentry hgone hkept⟩
        rw [holding_eq_length fun kept hkept => hfilled kept (hsub.subset hkept), hlength]
    · rw [Nat.sub_eq_zero_of_le hfew, dropDomains]
      exact ⟨List.Sublist.refl jar, hfew, fun _ entry hentry _ _ => hentry,
        fun _ entry hentry hgone => absurd hentry hgone⟩

/-- No more domains than the records set cookies in hold cookies of theirs. -/
theorem countP_newlySet_le (h : jar.Distinct) (records : List SetRecord) :
    jar.countP (newlySet records) ≤ (setDomains records).length := by
  have hnodup : ((jar.filter (newlySet records)).map Prod.fst).Nodup :=
    KeyedList.Distinct.of_sublist h List.filter_sublist
  have hsub : (jar.filter (newlySet records)).map Prod.fst ⊆ setDomains records := by
    intro domain hdomain
    obtain ⟨entry, hentry, rfl⟩ := List.mem_map.mp hdomain
    obtain ⟨record, hrecord, hset⟩ := List.any_eq_true.mp (List.mem_filter.mp hentry).2
    simp only [Bool.and_eq_true, Bool.not_eq_true', beq_iff_eq] at hset
    refine List.mem_dedup.mpr (List.mem_map.mpr ⟨record, List.mem_filter.mpr ⟨hrecord, ?_⟩,
      hset.1.2⟩)
    simp [hset.1.1]
  have hle := (hnodup.subperm hsub).length_le
  rwa [List.length_map, ← List.countP_eq_length_filter] at hle

end Count

/-! ### One call -/

section Call

variable {options : JarOptions} {now clock : Int} {jar : CookieJar} {call : Addition}

/-- A jar between two calls, the last one at `now`. -/
structure Ready (options : JarOptions) (now : Int) (jar : CookieJar) : Prop where
  distinct : jar.Distinct
  domains : jar.length ≤ options.maxCookieDomains
  stored : ∀ domain, Stored options now (jar.cookiesOf domain)

theorem stored_nil (options : JarOptions) (now : Int) : Stored options now [] :=
  ⟨List.Pairwise.nil, fun _ h => absurd h List.not_mem_nil, List.nodup_nil, Nat.zero_le _⟩

theorem ready_nil (options : JarOptions) (now : Int) : Ready options now [] :=
  ⟨List.nodup_nil, Nat.zero_le _, fun _ => stored_nil options now⟩

theorem Ready.later (h : Ready options clock jar) (hclock : clock ≤ now) :
    Ready options now jar where
  distinct := h.distinct
  domains := h.domains
  stored domain :=
    { sorted := (h.stored domain).sorted
      used := fun cookie hcookie => ((h.stored domain).used cookie hcookie).trans hclock
      places := (h.stored domain).places
      size := (h.stored domain).size }

theorem lastUsed_readAttribute (host : Bytes) (now : Int) (state : Cookie × Bool) (part : Bytes) :
    (readAttribute host now state part).1.lastUsed = state.1.lastUsed := by
  dsimp only [readAttribute]
  split
  · rfl
  split
  · rfl
  split
  · split
    · rfl
    · split
      · rfl
      · rfl
  · rfl

/-- A cookie is used when it is set. -/
theorem lastUsed_of_recordOf {url : ParsedUrl} {line : Bytes} {record : SetRecord}
    (h : recordOf url now line = some record) : record.cookie.lastUsed = now := by
  have hattributes : ∀ (attributes : List Bytes) (state : Cookie × Bool),
      (attributes.foldl (readAttribute url.host now) state).1.lastUsed = state.1.lastUsed := by
    intro attributes
    induction attributes with
    | nil => exact fun _ => rfl
    | cons part attributes ih =>
      intro state
      rw [List.foldl_cons, ih, lastUsed_readAttribute]
  obtain ⟨value, -, hread⟩ := Option.bind_eq_some_iff.mp h
  obtain ⟨⟨cookie, deleted⟩, hcookie, rfl⟩ := Option.map_eq_some_iff.mp hread
  rw [readCookie] at hcookie
  cases hparts : splitParts 59 value with
  | nil => simp [hparts] at hcookie
  | cons pair attributes =>
    simp only [hparts] at hcookie
    split at hcookie
    · cases hcookie
    · have hfirst := congrArg Prod.fst (Option.some.inj hcookie)
      dsimp only at hfirst ⊢
      rw [← hfirst, hattributes]

theorem lastUsed_of_mem_records {record : SetRecord} (h : record ∈ call.records) :
    record.cookie.lastUsed = call.now := by
  rw [Addition.records] at h
  split at h
  · exact absurd h List.not_mem_nil
  · obtain ⟨line, -, hread⟩ := List.mem_filterMap.mp h
    exact lastUsed_of_recordOf hread

theorem addLines_eq (options : JarOptions) (url : ParsedUrl) (now : Int) (lines : List Bytes)
    (jar : CookieJar) :
    lines.foldl (addLine options url now) jar =
      jar.addRecords options (lines.filterMap (recordOf url now)) := by
  induction lines generalizing jar with
  | nil => rfl
  | cons line lines ih =>
    rw [List.foldl_cons, ih, addLine_eq]
    cases hrecord : recordOf url now line with
    | none => rw [List.filterMap_cons_none hrecord]
    | some record =>
      rw [List.filterMap_cons_some hrecord]
      rfl

/-- A call drops what has expired, reads the lines and counts the domains, or throws. -/
theorem afterCall_cases (options : JarOptions) (jar : CookieJar) (call : Addition) :
    (call.records = [] ∧ afterCall options jar call = jar) ∨
      afterCall options jar call = enforceDomainCount options (full options jar call) := by
  rw [afterCall, addFromResponse, full, Addition.records]
  cases hparsed : parseUrl call.url with
  | error what => exact Or.inl ⟨rfl, rfl⟩
  | ok parsed =>
    exact Or.inr (congrArg (enforceDomainCount options) (addLines_eq options parsed call.now
      call.response.headers (jar.pruneExpired call.now)))

theorem Ready.stored_full (h : Ready options clock jar) (hclock : clock ≤ call.now)
    (domain : Bytes) : Stored options call.now ((full options jar call).cookiesOf domain) := by
  rw [full, cookiesOf_addRecords (distinct_pruneExpired h.distinct _),
    cookiesOf_pruneExpired h.distinct]
  exact (((h.later hclock).stored domain).sublist List.filter_sublist).foldl domain
    fun record hrecord => lastUsed_of_mem_records hrecord

theorem Ready.distinct_full (h : Ready options clock jar) : (full options jar call).Distinct :=
  distinct_addRecords (distinct_pruneExpired h.distinct _) _

/-- What the response sets last in a place is there when the domains are counted. -/
theorem Ready.mem_full_of_set (h : Ready options clock jar) (hclock : clock ≤ call.now)
    {earlier later : List SetRecord} {record : SetRecord}
    (hrecords : call.records = earlier ++ record :: later) (hset : record.deleted = false)
    (hother : ∀ other ∈ later, ¬ other.Names record.cookie.domain record.cookie)
    (hfits : Fits options call.records) :
    record.cookie ∈ (full options jar call).cookiesOf record.cookie.domain := by
  have hstored := ((h.later hclock).stored record.cookie.domain).sublist
    (List.filter_sublist (p := fun cookie => !cookie.expired call.now))
  have hplaces := hfits.2 record.cookie.domain
  rw [full, cookiesOf_addRecords (distinct_pruneExpired h.distinct _),
    cookiesOf_pruneExpired h.distinct]
  rw [hrecords] at hplaces ⊢
  refine mem_foldl_of_set hstored (fun other hmem => ?_) hplaces rfl hset hother
  exact lastUsed_of_mem_records (hrecords ▸ hmem)

/-- What is gone when the domains are counted has expired, or its domain was full. -/
theorem Ready.expired_or_domainFull (h : Ready options clock jar) (hclock : clock ≤ call.now)
    {domain : Bytes} {cookie : Cookie} (hcookie : cookie ∈ jar.cookiesOf domain)
    (hother : ∀ record ∈ call.records, ¬ record.Names domain cookie)
    (hgone : cookie ∉ (full options jar call).cookiesOf domain) :
    cookie.expired call.now = true ∨
      DomainFull options (jar.pruneExpired call.now) call.records domain cookie := by
  cases hexpired : cookie.expired call.now with
  | true => exact Or.inl rfl
  | false =>
    right
    have hstored := ((h.later hclock).stored domain).sublist
      (List.filter_sublist (p := fun cookie => !cookie.expired call.now))
    have hkept : cookie ∈ (jar.cookiesOf domain).filter fun cookie => !cookie.expired call.now :=
      List.mem_filter.mpr ⟨hcookie, by simp [hexpired]⟩
    rw [full, cookiesOf_addRecords (distinct_pruneExpired h.distinct _),
    cookiesOf_pruneExpired h.distinct] at hgone
    obtain ⟨earlier, record, later, hsplit, hdomain, hset, hmem, hmany, hleast⟩ :=
      exists_full_of_not_mem hstored (fun _ hrecord => lastUsed_of_mem_records hrecord) hkept
        hother hgone
    refine ⟨earlier, record, later, hsplit, hdomain, hset, ?_, ?_, ?_⟩
    · rw [cookiesOf_addRecords (distinct_pruneExpired h.distinct _),
        cookiesOf_pruneExpired h.distinct]
      exact hmem
    · rw [cookiesOf_addRecords (distinct_pruneExpired h.distinct _),
        cookiesOf_pruneExpired h.distinct]
      exact hmany
    · rw [cookiesOf_addRecords (distinct_pruneExpired h.distinct _),
        cookiesOf_pruneExpired h.distinct]
      exact hleast

theorem Ready.stored_entry (h : Ready options clock jar) {entry : Bytes × List Cookie}
    (hentry : entry ∈ jar) : Stored options clock entry.2 := by
  rw [← cookiesOf_of_mem h.distinct hentry]
  exact h.stored entry.1

/-- A call that throws keeps the bounds. -/
theorem Ready.keepsBounds_of_throws (h : Ready options clock jar) (hnone : call.records = []) :
    KeepsBounds options call jar jar where
  distinct := h.distinct
  perDomain _ hentry := (h.stored_entry hentry).size
  places _ hentry := (h.stored_entry hentry).places
  domains := h.domains
  present earlier record later hrecords := by
    rw [hnone] at hrecords
    exact absurd hrecords.symm (List.append_ne_nil_of_right_ne_nil _ (List.cons_ne_nil _ _))
  removed _ _ hcookie _ hgone := absurd hcookie hgone

theorem Ready.counted (h : Ready options clock jar) (hclock : clock ≤ call.now)
    (hend : call.now < timeMax) (hfair : EvictsFairly options jar call) :
    Counted options call.records (full options jar call)
      (enforceDomainCount options (full options jar call)) := by
  refine counted_enforceDomainCount (fun entry hentry => ?_) hend hfair
  rw [← cookiesOf_of_mem h.distinct_full hentry]
  exact (h.stored_full hclock entry.1).used

variable {after : CookieJar}

/-- What the count of domains leaves is ready for the next call. -/
theorem Ready.of_counted (h : Ready options clock jar) (hclock : clock ≤ call.now)
    (hcounted : Counted options call.records (full options jar call) after) :
    Ready options call.now after where
  distinct := KeyedList.Distinct.of_sublist h.distinct_full hcounted.sublist
  domains := hcounted.domains
  stored domain := by
    by_cases hnil : after.cookiesOf domain = []
    · rw [hnil]
      exact stored_nil options call.now
    · obtain ⟨cookie, hcookie⟩ := List.exists_mem_of_ne_nil _ hnil
      obtain ⟨entry, hentry, -, heq⟩ := exists_of_mem_cookiesOf hcookie
      rw [heq, ← cookiesOf_of_mem h.distinct_full (hcounted.sublist.subset hentry)]
      exact h.stored_full hclock entry.1

theorem Ready.present (h : Ready options clock jar) (hclock : clock ≤ call.now)
    (hcounted : Counted options call.records (full options jar call) after)
    {earlier later : List SetRecord} {record : SetRecord}
    (hrecords : call.records = earlier ++ record :: later) (hset : record.deleted = false)
    (hother : ∀ other ∈ later, ¬ other.Names record.cookie.domain record.cookie)
    (hfits : Fits options call.records) :
    record.cookie ∈ after.cookiesOf record.cookie.domain := by
  have hfull := h.mem_full_of_set hclock hrecords hset hother hfits
  obtain ⟨entry, hentry, hdomain, heq⟩ := exists_of_mem_cookiesOf hfull
  have hnew : newlySet call.records entry = true := by
    have hmem : record ∈ call.records :=
      hrecords ▸ List.mem_append_right _ List.mem_cons_self
    refine List.any_eq_true.mpr ⟨record, hmem, ?_⟩
    rw [heq] at hfull
    simp [hset, hdomain, hfull]
  have hdistinct : (full options jar call).Distinct := h.distinct_full
  have hcount := (countP_newlySet_le hdistinct call.records).trans hfits.1
  have hpos := (List.countP_pos_iff.mpr ⟨entry, hentry, hnew⟩).trans_le hcount
  have hafter := hcounted.newlySet hcount entry hentry hnew hpos
  rw [← hdomain, cookiesOf_of_mem (KeyedList.Distinct.of_sublist hdistinct hcounted.sublist)
    hafter, ← heq]
  exact hfull

/-- What is there when the domains are counted, and then is not, was in a domain that had to go. -/
theorem Ready.jarFull (h : Ready options clock jar) (hclock : clock ≤ call.now)
    (hend : call.now < timeMax) (hpos : 0 < options.maxCookieDomains)
    (hcounted : Counted options call.records (full options jar call) after)
    {domain : Bytes} {cookie : Cookie}
    (hcookie : cookie ∈ (full options jar call).cookiesOf domain)
    (hgone : cookie ∉ after.cookiesOf domain) :
    JarFull options (full options jar call) after domain cookie := by
  obtain ⟨entry, hentry, rfl, heq⟩ := exists_of_mem_cookiesOf hcookie
  have hdropped : entry ∉ after := by
    intro hkept
    rw [cookiesOf_of_mem (KeyedList.Distinct.of_sublist h.distinct_full hcounted.sublist) hkept,
      ← heq] at hgone
    exact hgone hcookie
  obtain ⟨hmany, henough, hleast⟩ := hcounted.dropped hpos entry hentry hdropped
  refine ⟨hcookie, hmany, henough, fun kept hkept other hother => ?_⟩
  -- the oldest cookie of the domain is no younger than any that is left
  rw [heq] at hcookie ⊢
  have hused := (h.stored_full hclock entry.1).used cookie (heq ▸ hcookie)
  obtain ⟨own, hown, htime⟩ :=
    exists_lastUsed_eq (((domainTime_le hcookie).trans hused).trans_lt hend)
  exact ⟨own, hown, htime ▸ (hleast kept hkept).trans (domainTime_le hother)⟩

/-- One call in which the count of domains does no harm keeps the bounds. -/
theorem Ready.step (h : Ready options clock jar) (hclock : clock ≤ call.now)
    (hend : call.now < timeMax) (hfair : EvictsFairly options jar call) :
    KeepsBounds options call jar (afterCall options jar call) ∧
      Ready options call.now (afterCall options jar call) := by
  rcases afterCall_cases options jar call with ⟨hnone, hthrew⟩ | hcounts
  · rw [hthrew]
    exact ⟨h.keepsBounds_of_throws hnone, h.later hclock⟩
  · have hcounted := h.counted hclock hend hfair
    rw [hcounts]
    have hready := h.of_counted hclock hcounted
    refine ⟨⟨hready.distinct, fun _ hentry => (hready.stored_entry hentry).size,
      fun _ hentry => (hready.stored_entry hentry).places, hready.domains,
      fun _ _ _ hrecords hset hother hfits =>
        h.present hclock hcounted hrecords hset hother hfits,
      fun domain cookie hcookie hother hgone => ?_⟩, hready⟩
    by_cases hfull : cookie ∈ (full options jar call).cookiesOf domain
    · have hpos : 0 < options.maxCookieDomains := by
        obtain ⟨entry, hentry, -⟩ := exists_of_mem_cookiesOf hcookie
        exact (List.length_pos_of_mem hentry).trans_le h.domains
      exact Or.inr (Or.inr (h.jarFull hclock hend hpos hcounted hfull hgone))
    · rcases h.expired_or_domainFull hclock hcookie hother hfull with hexpired | hdomainFull
      · exact Or.inl hexpired
      · exact Or.inr (Or.inl hdomainFull)

end Call

/-! ### Whole runs -/

section Runs

variable {options : JarOptions} {clock : Int} {jar : CookieJar} {calls : List Addition}

theorem Ready.everyCall (h : Ready options clock jar) (hclock : ∀ call ∈ calls, clock ≤ call.now)
    (htimely : Timely calls)
    (hfair : EveryCall options (fun jar call _ => EvictsFairly options jar call) jar calls) :
    EveryCall options (fun jar call after => KeepsBounds options call jar after) jar calls := by
  induction calls generalizing clock jar with
  | nil => trivial
  | cons call calls ih =>
    obtain ⟨hordered, hend⟩ := htimely
    obtain ⟨hlater, hrest⟩ := List.pairwise_cons.mp hordered
    obtain ⟨hkeeps, hready⟩ := h.step (hclock call List.mem_cons_self)
      (hend call List.mem_cons_self) hfair.1
    exact ⟨hkeeps, ih hready hlater
      ⟨hrest, fun other hother => hend other (List.mem_cons_of_mem _ hother)⟩ hfair.2⟩

/-- In every run in which no count of domains does harm, every call keeps the bounds. -/
theorem keepsBounds_of_fair (options : JarOptions) (calls : List Addition)
    (htimely : Timely calls)
    (hfair : EveryCall options (fun jar call _ => EvictsFairly options jar call) [] calls) :
    EveryCall options (fun jar call after => KeepsBounds options call jar after) [] calls := by
  cases calls with
  | nil => trivial
  | cons call calls =>
    refine (ready_nil options call.now).everyCall (fun other hother => ?_) htimely hfair
    rcases List.mem_cons.mp hother with rfl | hlater
    · exact le_refl _
    · exact (List.pairwise_cons.mp htimely.1).1 other hlater

end Runs

/-- A response with one `Set-Cookie` line. -/
def setCookie (url line : Bytes) (now : Int) : Addition where
  url := url
  response := { headers := [str "Set-Cookie: " ++ line] }
  now := now

/-- A jar for two domains takes the cookies of three. -/
def threeDomains : List Addition :=
  [setCookie (str "http://a.example/") (str "id=1") 1,
    setCookie (str "http://b.example/") (str "id=2; Max-Age=60") 2,
    setCookie (str "http://c.example/") (str "id=3") 3]

theorem keepsBounds_of_fair_threeDomains :
    EveryCall { maxCookieDomains := 2 }
      (fun jar call after => KeepsBounds { maxCookieDomains := 2 } call jar after) []
      threeDomains := by
  refine keepsBounds_of_fair _ threeDomains ⟨by decide, by decide⟩ ?_
  refine ⟨?_, ?_, ?_, trivial⟩
  · decide +kernel
  · decide +kernel
  · decide +kernel

def firstCookie : Addition := setCookie (str "http://a.example/") (str "id=1") 1

/-- A jar for one domain with a cookie. -/
def oneDomain : CookieJar := afterCall { maxCookieDomains := 1 } [] firstCookie

/-- Another host deletes a cookie that is not there. -/
def deletion : Addition := setCookie (str "http://b.example/") (str "x=; Max-Age=0") 2

/-- The cookie goes, and the jar is left with a domain without cookies. -/
theorem other_domain_evicted :
    ¬ EveryCall { maxCookieDomains := 1 }
      (fun jar call after => KeepsBounds { maxCookieDomains := 1 } call jar after) []
      [firstCookie, deletion] := by
  rintro ⟨-, hkeeps, -⟩
  have hnames : ∀ record ∈ deletion.records, record.cookie.domain = str "b.example" := by
    decide +kernel
  obtain ⟨cookie, hcookie⟩ : ∃ cookie, oneDomain.cookiesOf (str "a.example") = [cookie] :=
    ⟨_, rfl⟩
  have hother : ∀ record ∈ deletion.records, ¬ record.Names (str "a.example") cookie :=
    fun record hrecord hname => absurd ((hnames record hrecord).symm.trans hname.1) (by decide)
  have hgone : cookie ∉ (afterCall { maxCookieDomains := 1 } oneDomain deletion).cookiesOf
      (str "a.example") := by
    have hnil : (afterCall { maxCookieDomains := 1 } oneDomain deletion).cookiesOf
        (str "a.example") = [] := by decide +kernel
    rw [hnil]
    exact List.not_mem_nil
  rcases hkeeps.removed (str "a.example") cookie (hcookie ▸ List.mem_singleton.mpr rfl) hother
    hgone with hexpired | ⟨earlier, record, later, hrecords, hdomain, -⟩ | ⟨-, -, hholding, -⟩
  · have hlives : (oneDomain.cookiesOf (str "a.example")).all
        (fun cookie => !cookie.expired deletion.now) = true := by decide +kernel
    rw [hcookie] at hlives
    simp [hexpired] at hlives
  · have hmem : record ∈ deletion.records :=
      hrecords ▸ List.mem_append_right _ List.mem_cons_self
    exact absurd ((hnames record hmem).symm.trans hdomain) (by decide)
  · exact absurd hholding (by decide +kernel)

/-- A domain goes with the cookie that the response has just put into it, for it has an older
one too. -/
example :
    (afterCall { maxCookieDomains := 2 }
      (afterCall { maxCookieDomains := 2 }
        (afterCall { maxCookieDomains := 2 } []
          (setCookie (str "http://example/") (str "id=1") 1))
        (setCookie (str "http://b.example/") (str "id=2") 2))
      { url := str "http://a.example/"
        response := { headers := [str "Set-Cookie: id=3", str "Set-Cookie: n=4; Domain=example"] }
        now := 3 }).map Prod.fst = [str "b.example", str "a.example"] := by
  decide +kernel

end HttpClient.Policy
