import Mathlib.Algebra.Order.Group.Int
import HttpClient.Policy.CookieIsolation
import HttpClient.Semantics.KeyedList
import HttpClient.Semantics.LeastFirst

/-!
# The domains of a jar

A jar is a map from domains to their cookies. What a response does to the cookies of one domain
depends on these alone, until the domains are counted: each cookie that it sets or deletes there
takes the place of the one before. As long as time does not go back the cookies of a domain are
in the order of their use, so that the limit of a domain costs it the first ones.

## Main definitions

* `CookieJar.cookiesOf` — the cookies of a domain
* `CookieJar.addRecords` — what the lines of a response do to the jar
* `CookieJar.held`, `CookieJar.storeIn` — what one line does to the cookies of a domain

## Main results

* `CookieJar.cookiesOf_addRecords` — the lines of a response, one domain at a time
* `CookieJar.enforceDomainLimit_of_sorted`, `CookieJar.dropDomains_eq` — what the limits drop
-/

set_option autoImplicit false

namespace HttpClient.Policy

open Text Semantics

/-- What tells the cookies of a domain apart. -/
def Cookie.place (cookie : Cookie) : Bytes × Bytes := (cookie.name, cookie.path)

namespace CookieJar

variable {options : JarOptions} {jar : CookieJar} {domain other : Bytes} {cookie : Cookie}
  {cookies : List Cookie} {entry : Bytes × List Cookie}

/-- No domain is kept twice, as in any map. -/
def Distinct (jar : CookieJar) : Prop := KeyedList.Distinct Prod.fst jar

/-- The cookies of a domain. -/
def cookiesOf (jar : CookieJar) (domain : Bytes) : List Cookie :=
  ((KeyedList.find Prod.fst domain jar).map Prod.snd).getD []

/-- The lines of a response, one after the other. -/
def addRecords (options : JarOptions) (jar : CookieJar) (records : List SetRecord) : CookieJar :=
  records.foldl (fun jar record => store options jar record.cookie record.deleted) jar

/-- The other cookie has another place. -/
def elsewhere (cookie other : Cookie) : Bool :=
  !(other.name == cookie.name && other.path == cookie.path)

/-- What a domain holds when a cookie has been put into it. -/
def held (cookies : List Cookie) (cookie : Cookie) : List Cookie :=
  cookies.filter (elsewhere cookie) ++ [cookie]

/-- What one line makes of the cookies of a domain. -/
def storeIn (options : JarOptions) (domain : Bytes) (cookies : List Cookie) (record : SetRecord) :
    List Cookie :=
  if record.cookie.domain = domain then
    if record.deleted then cookies.filter (elsewhere record.cookie)
    else enforceDomainLimit options (held cookies record.cookie)
  else cookies

/-! ### Looking up a domain -/

theorem cookiesOf_of_mem (h : jar.Distinct) (hentry : entry ∈ jar) :
    jar.cookiesOf entry.1 = entry.2 := by
  rw [cookiesOf, KeyedList.Distinct.find_of_mem h hentry]
  rfl

theorem exists_of_mem_cookiesOf (hcookie : cookie ∈ jar.cookiesOf domain) :
    ∃ entry ∈ jar, entry.1 = domain ∧ jar.cookiesOf domain = entry.2 := by
  rw [cookiesOf] at hcookie ⊢
  cases hfind : KeyedList.find Prod.fst domain jar with
  | none =>
    rw [hfind] at hcookie
    exact absurd hcookie List.not_mem_nil
  | some entry =>
    obtain ⟨hentry, hdomain⟩ := KeyedList.mem_of_find hfind
    exact ⟨entry, hentry, hdomain, rfl⟩

theorem distinct_concat (h : jar.Distinct)
    (hnew : ¬ jar.any (fun entry => entry.1 == domain) = true) (cookies : List Cookie) :
    (jar ++ [(domain, cookies)]).Distinct :=
  KeyedList.Distinct.concat h fun entry hentry heq =>
    hnew (List.any_eq_true.mpr ⟨entry, hentry, beq_iff_eq.mpr heq⟩)

theorem cookiesOf_update (h : jar.Distinct) (order : MapOrder)
    (change : List Cookie → List Cookie) :
    (jar.update order domain change).cookiesOf other =
      if domain = other then change (jar.cookiesOf domain) else jar.cookiesOf other := by
  rw [update]
  split
  · -- the entry of the domain is there; entries keep their keys
    rename_i hany
    have hkeys : ∀ entry : Bytes × List Cookie,
        (if entry.1 = domain then (entry.1, change entry.2) else entry).1 = entry.1 := by
      intro entry
      split
      · rfl
      · rfl
    rw [cookiesOf, KeyedList.find_map Prod.fst hkeys]
    by_cases hother : domain = other
    · subst hother
      rw [if_pos rfl, cookiesOf]
      cases hfind : KeyedList.find Prod.fst domain jar with
      | none =>
        obtain ⟨entry, hentry, hdomain⟩ := List.any_eq_true.mp hany
        have hne := List.find?_eq_none.mp hfind entry hentry
        simp [beq_iff_eq.mp hdomain] at hne
      | some entry =>
        have hdomain := (KeyedList.mem_of_find hfind).2
        simp [hdomain]
    · rw [if_neg hother, cookiesOf]
      cases hfind : KeyedList.find Prod.fst other jar with
      | none => rfl
      | some entry =>
        have hdomain : entry.1 ≠ domain := fun heq =>
          hother (heq.symm.trans (KeyedList.mem_of_find hfind).2)
        simp [hdomain]
  · rename_i hnew
    have hnone : KeyedList.find Prod.fst domain jar = none :=
      KeyedList.find_eq_none fun entry hentry heq =>
        hnew (List.any_eq_true.mpr ⟨entry, hentry, beq_iff_eq.mpr heq⟩)
    -- the order of the map makes no difference to a search
    rw [cookiesOf, KeyedList.Distinct.find_perm (distinct_concat h hnew _) (order.perm _),
      KeyedList.find, List.find?_append]
    by_cases hother : domain = other
    · subst hother
      rw [KeyedList.find] at hnone
      simp [hnone, cookiesOf, KeyedList.find]
    · rw [if_neg hother, cookiesOf, KeyedList.find]
      cases jar.find? fun entry => decide (entry.1 = other) with
      | none => simp [hother]
      | some entry => rfl

theorem distinct_update (h : jar.Distinct) (order : MapOrder)
    (change : List Cookie → List Cookie) : (jar.update order domain change).Distinct := by
  rw [update]
  split
  · rw [Distinct, KeyedList.Distinct, List.map_map]
    have hkeys : (Prod.fst ∘ fun entry : Bytes × List Cookie =>
        if entry.1 = domain then (entry.1, change entry.2) else entry) = Prod.fst := by
      funext entry
      rw [Function.comp_apply]
      split
      · rfl
      · rfl
    rw [hkeys]
    exact h
  · rename_i hnew
    exact KeyedList.Distinct.of_perm (distinct_concat h hnew _) (order.perm _)

/-! ### The parts of a call -/

/-- A domain without its expired cookies. -/
def prunedEntry (now : Int) (entry : Bytes × List Cookie) : Bytes × List Cookie :=
  (entry.1, entry.2.filter fun cookie => !cookie.expired now)

theorem pruneExpired_eq (jar : CookieJar) (now : Int) :
    jar.pruneExpired now = (jar.map (prunedEntry now)).filter fun entry => entry.2 ≠ [] := rfl

theorem distinct_prunedEntry (h : jar.Distinct) (now : Int) :
    KeyedList.Distinct Prod.fst (jar.map (prunedEntry now)) := by
  rw [KeyedList.Distinct, List.map_map]
  exact h

theorem distinct_pruneExpired (h : jar.Distinct) (now : Int) : (jar.pruneExpired now).Distinct :=
  KeyedList.Distinct.of_sublist (distinct_prunedEntry h now) List.filter_sublist

theorem cookiesOf_pruneExpired (h : jar.Distinct) (now : Int) :
    (jar.pruneExpired now).cookiesOf domain =
      (jar.cookiesOf domain).filter fun cookie => !cookie.expired now := by
  have hkeys : ∀ entry : Bytes × List Cookie, (prunedEntry now entry).1 = entry.1 := fun _ => rfl
  rw [cookiesOf, pruneExpired_eq, KeyedList.Distinct.find_filter (distinct_prunedEntry h now),
    KeyedList.find_map Prod.fst hkeys, cookiesOf]
  cases KeyedList.find Prod.fst domain jar with
  | none => rfl
  | some entry =>
    rw [Option.map_some, Option.map_some, Option.getD_some]
    by_cases hempty : (prunedEntry now entry).2 = []
    · rw [Option.filter_some_neg (by simpa using hempty)]
      exact hempty.symm
    · rw [Option.filter_some_pos (by simpa using hempty)]
      rfl

theorem cookiesOf_addRecords (h : jar.Distinct) (records : List SetRecord) :
    (jar.addRecords options records).cookiesOf domain =
      records.foldl (storeIn options domain) (jar.cookiesOf domain) := by
  induction records generalizing jar with
  | nil => rfl
  | cons record records ih =>
    have hnext : (store options jar record.cookie record.deleted).Distinct := distinct_update h _ _
    rw [addRecords, List.foldl_cons, List.foldl_cons, ← addRecords, ih hnext]
    congr 1
    rw [store, cookiesOf_update h, storeIn]
    split
    · rename_i hdomain
      subst hdomain
      rfl
    · rfl

theorem distinct_addRecords (h : jar.Distinct) (records : List SetRecord) :
    (jar.addRecords options records).Distinct := by
  induction records generalizing jar with
  | nil => exact h
  | cons record records ih => exact ih (distinct_update h _ _)

/-! ### The limits -/

/-- The cookies of a domain in the order of their use. -/
def Sorted (cookies : List Cookie) : Prop :=
  cookies.Pairwise fun cookie other => cookie.lastUsed ≤ other.lastUsed

theorem dropOldest_eq (surplus : Nat) (cookies : List Cookie) :
    dropOldest surplus cookies = dropLeast Cookie.lastUsed surplus cookies := by
  induction surplus generalizing cookies with
  | zero => rfl
  | succ surplus ih => exact ih _

/-- In the order of their use, the first ones go. -/
theorem enforceDomainLimit_of_sorted (h : Sorted cookies) :
    enforceDomainLimit options cookies =
      cookies.drop (cookies.length - options.maxCookiesPerDomain) := by
  rw [enforceDomainLimit]
  split
  · rename_i hzero
    rw [hzero, Nat.sub_zero, List.drop_length]
  · rw [dropOldest_eq, dropLeast_of_sorted h]

/-- The least time of use so far, and of the cookies that follow. -/
theorem leastTime_spec (cookies : List Cookie) (time : Int) :
    let leastTime := cookies.foldl (fun time cookie => min time cookie.lastUsed) time
    leastTime ≤ time ∧ (∀ cookie ∈ cookies, leastTime ≤ cookie.lastUsed) ∧
      (leastTime = time ∨ ∃ cookie ∈ cookies, cookie.lastUsed = leastTime) := by
  induction cookies generalizing time with
  | nil => exact ⟨Int.le_refl _, fun _ h => absurd h List.not_mem_nil, Or.inl rfl⟩
  | cons cookie cookies ih =>
    obtain ⟨hle, hall, hreached⟩ := ih (min time cookie.lastUsed)
    dsimp only at hle hall hreached ⊢
    rw [List.foldl_cons]
    refine ⟨by omega, fun other hother => ?_, ?_⟩
    · rcases List.mem_cons.mp hother with rfl | hrest
      · omega
      · exact hall other hrest
    · rcases hreached with hsame | ⟨other, hother, htime⟩
      · by_cases hcookie : time ≤ cookie.lastUsed
        · exact Or.inl (by omega)
        · exact Or.inr ⟨cookie, List.mem_cons_self, by omega⟩
      · exact Or.inr ⟨other, List.mem_cons_of_mem _ hother, htime⟩

theorem domainTime_le (hcookie : cookie ∈ cookies) : domainTime cookies ≤ cookie.lastUsed :=
  (leastTime_spec cookies timeMax).2.1 cookie hcookie

/-- A domain was used when its oldest cookie was. -/
theorem exists_lastUsed_eq (h : domainTime cookies < timeMax) :
    ∃ cookie ∈ cookies, cookie.lastUsed = domainTime cookies := by
  rcases (leastTime_spec cookies timeMax).2.2 with hnone | hfound
  · exact absurd hnone (Int.ne_of_lt h)
  · exact hfound

def entryTime (entry : Bytes × List Cookie) : Int := domainTime entry.2

/-- If every domain holds a cookie, the domains with the oldest cookies go. -/
theorem dropDomains_eq (surplus : Nat) (h : ∀ entry ∈ jar, entryTime entry < timeMax) :
    dropDomains surplus jar = dropLeast entryTime surplus jar := by
  induction surplus generalizing jar with
  | zero => rfl
  | succ surplus ih =>
    have hfirst : (jar.findIdx fun entry => domainTime entry.2 < timeMax ∧
        jar.all fun other => domainTime entry.2 ≤ domainTime other.2) =
          least entryTime jar := by
      refine Nat.le_antisymm (List.findIdx_le_findIdx fun entry hentry hleast => ?_)
        (List.findIdx_le_findIdx fun entry _ hboth => ?_)
      · exact decide_eq_true ⟨h entry hentry, hleast⟩
      · exact (of_decide_eq_true hboth).2
    rw [dropDomains, hfirst, dropLeast]
    split
    · exact ih fun entry hentry => h entry (List.mem_of_mem_eraseIdx hentry)
    · rename_i hnone
      have hnil : jar = [] := by
        by_contra hne
        exact hnone (least_lt_length hne)
      rw [hnil, List.eraseIdx_nil]
      exact (List.eq_nil_of_length_eq_zero (by rw [length_dropLeast, List.length_nil,
        Nat.zero_sub])).symm

end CookieJar

end HttpClient.Policy
