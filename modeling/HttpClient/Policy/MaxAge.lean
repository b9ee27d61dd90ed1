import HttpClient.Policy.CookieIsolation

/-!
# The age of a cookie

A `Max-Age` attribute gives a cookie a number of seconds to live. The jar turns it into a point in
time, in the 64 bits of its clock. A cookie whose point in time is zero never expires.

## Main definitions

* `maxAge` — the `Max-Age` of a line
* `Cookie.KeptAt` — neither dropped nor left out at a point in time
* `Cookie.Outlives` — kept at all times before a limit

## Main results

* `outlives_iff` — a cookie lives as long as its line says if its end is in the range of the clock
  and is not zero
* `huge_maxAge_expired` — a cookie for the longest time there is has expired at once
-/

set_option autoImplicit false

namespace HttpClient.Policy

open Text

/-! ### The attribute -/

/-- The number of seconds of an attribute that is a `Max-Age`. -/
def attributeAge (part : Bytes) : Option Int :=
  let (name, value) := splitNameValue part
  if lowerCopy name = str "max-age" then stoll value else none

/-- The `Max-Age` of a `Set-Cookie` line, the last one if there are several. -/
def maxAge (line : Bytes) : Option Int :=
  (setCookieValue line).bind fun value =>
    (((splitParts 59 value).drop 1).filterMap attributeAge).getLast?

variable {part line : Bytes} {now seconds : Int} {cookie : Cookie}

theorem readAttribute_of_none (host : Bytes) (now : Int) (state : Cookie × Bool)
    (h : attributeAge part = none) :
    (CookieJar.readAttribute host now state part).1.expires = state.1.expires ∧
      (CookieJar.readAttribute host now state part).2 = state.2 := by
  rw [attributeAge] at h
  dsimp only at h
  rw [CookieJar.readAttribute]
  dsimp only
  split
  · exact ⟨rfl, rfl⟩
  · split
    · exact ⟨rfl, rfl⟩
    · split
      · rename_i hname
        rw [if_pos hname] at h
        rw [h]
        exact ⟨rfl, rfl⟩
      · exact ⟨rfl, rfl⟩

theorem readAttribute_of_some (host : Bytes) (now : Int) (state : Cookie × Bool)
    (h : attributeAge part = some seconds) :
    CookieJar.readAttribute host now state part =
      if seconds ≤ 0 then (state.1, true)
      else ({ state.1 with expires := addSeconds now seconds }, state.2) := by
  rw [attributeAge] at h
  dsimp only at h
  split at h
  · rename_i hname
    have hdomain : str "max-age" ≠ str "domain" := by decide
    have hpath : str "max-age" ≠ str "path" := by decide
    rw [CookieJar.readAttribute]
    dsimp only
    rw [hname, if_neg fun hif => hdomain hif.1, if_neg fun hif => hpath hif.1, if_pos rfl, h]
  · cases h

/-- The last `Max-Age` decides when a cookie that is not deleted expires. -/
theorem expires_readAttributes {host : Bytes} {attributes : List Bytes}
    {state after : Cookie × Bool}
    (h : attributes.foldl (CookieJar.readAttribute host now) state = after)
    (hkept : after.2 = false) :
    state.2 = false ∧ after.1.expires =
      ((attributes.filterMap attributeAge).getLast?.map (addSeconds now)).getD state.1.expires := by
  induction attributes generalizing state with
  | nil =>
    obtain rfl := h
    exact ⟨hkept, rfl⟩
  | cons part attributes ih =>
    obtain ⟨hflag, hexpires⟩ := ih h
    cases hage : attributeAge part with
    | none =>
      obtain ⟨hsame, hflag'⟩ := readAttribute_of_none host now state hage
      rw [List.filterMap_cons_none hage, hexpires, hsame]
      exact ⟨hflag'.symm.trans hflag, rfl⟩
    | some seconds =>
      rw [readAttribute_of_some host now state hage] at hflag hexpires
      split at hflag
      · -- the flag of a deleted cookie is never taken back
        cases hflag
      · rename_i hpos
        rw [if_neg hpos] at hexpires
        rw [List.filterMap_cons_some hage, List.getLast?_cons, hexpires, Option.map_some,
          Option.getD_some, Option.getD_map]
        exact ⟨hflag, rfl⟩

/-- The end of a cookie that a line with a `Max-Age` sets. -/
theorem expires_of_maxAge {url : ParsedUrl} {record : SetRecord}
    (hrecord : recordOf url now line = some record) (hkept : record.deleted = false)
    (hage : maxAge line = some seconds) : record.cookie.expires = addSeconds now seconds := by
  obtain ⟨value, hvalue, hread⟩ := Option.bind_eq_some_iff.mp hrecord
  obtain ⟨⟨cookie, deleted⟩, hcookie, rfl⟩ := Option.map_eq_some_iff.mp hread
  rw [maxAge, hvalue, Option.bind_some] at hage
  rw [CookieJar.readCookie] at hcookie
  cases hparts : splitParts 59 value with
  | nil => simp [hparts] at hcookie
  | cons pair attributes =>
    simp only [hparts] at hcookie
    split at hcookie
    · cases hcookie
    · obtain rfl : deleted = false := hkept
      have hlast := (expires_readAttributes (Option.some.inj hcookie) rfl).2
      rw [hparts, List.drop_one, List.tail_cons] at hage
      rw [hage] at hlast
      exact hlast

/-! ### How long a cookie is kept -/

/-- At the time `t` the cookie is neither dropped from a jar nor left out of a header for its
expiry, whenever it has been used last. -/
def Cookie.KeptAt (cookie : Cookie) (t : Int) : Prop :=
  ∀ (jar : CookieJar), ∀ entry ∈ jar, ∀ used, { cookie with lastUsed := used } ∈ entry.2 →
    (∃ kept ∈ jar.pruneExpired t, kept.1 = entry.1 ∧ { cookie with lastUsed := used } ∈ kept.2) ∧
      ∀ host path, domainMatch host entry.1 →
        (cookie.hostOnly = true → lowerCopy host = cookie.domain) → pathMatch path cookie.path →
          { cookie with lastUsed := used } ∈ (jar.pruneExpired t).selected host path t

/-- The cookie is not one without an end, and it is kept at every point in time before the
limit. -/
def Cookie.Outlives (cookie : Cookie) (limit : Int) : Prop :=
  cookie.expires ≠ 0 ∧ ∀ t, -2 ^ 63 ≤ t → t < 2 ^ 63 → t < limit → cookie.KeptAt t

theorem keptAt_iff {t : Int} : cookie.KeptAt t ↔ cookie.expired t = false := by
  constructor
  · intro h
    obtain ⟨⟨kept, hkept, -, hmem⟩, -⟩ := h [([], [cookie])] _ List.mem_cons_self cookie.lastUsed
      List.mem_cons_self
    obtain ⟨old, -, rfl⟩ := List.mem_map.mp (List.mem_filter.mp hkept).1
    have hlive := (List.mem_filter.mp hmem).2
    rw [Bool.not_eq_true'] at hlive
    exact hlive
  · intro h jar entry hentry used hcookie
    have hmem : { cookie with lastUsed := used } ∈
        entry.2.filter fun cookie => !cookie.expired t := by
      refine List.mem_filter.mpr ⟨hcookie, ?_⟩
      show !cookie.expired t
      rw [h]
      rfl
    have hkept : (entry.1, entry.2.filter fun cookie => !cookie.expired t) ∈
        jar.pruneExpired t := by
      refine List.mem_filter.mpr ⟨List.mem_map_of_mem hentry, ?_⟩
      exact decide_eq_true (List.ne_nil_of_mem hmem)
    refine ⟨⟨_, hkept, rfl, hmem⟩, fun host path hdomain hhost hpath => ?_⟩
    refine CookieJar.mem_selected.mpr ⟨_, _, hkept, hmem, ?_⟩
    have hexpired : Cookie.expired { cookie with lastUsed := used } t = false := h
    rw [CookieJar.sent, hdomain, hexpired, hpath]
    cases honly : cookie.hostOnly with
    | false => rfl
    | true => simp [hhost honly]

/-- In the range of the clock nothing is lost; beyond it the end is at most the last point in
time. -/
theorem addSeconds_cases (hnow : -2 ^ 63 ≤ now) (hseconds : 0 < seconds) :
    (now + seconds * 1000000000 < 2 ^ 63 ∧
        addSeconds now seconds = now + seconds * 1000000000) ∨
      (2 ^ 63 ≤ now + seconds * 1000000000 ∧ addSeconds now seconds ≤ timeMax) := by
  rw [addSeconds]
  by_cases hfits : now + seconds * 1000000000 < 2 ^ 63
  · exact .inl ⟨hfits, Int.bmod_eq_of_le (by omega) (by omega)⟩
  · have hlt : (now + seconds * 1000000000).bmod (2 ^ 64) < ((2 ^ 64 : Nat) + 1) / 2 :=
      Int.bmod_lt (by decide)
    rw [timeMax]
    exact .inr ⟨by omega, by omega⟩

/-- A cookie lives as long as its line says if and only if its end is a point in time of the clock
and not the one that stands for no end. -/
theorem outlives_iff {url : ParsedUrl} {record : SetRecord} (hnow : -2 ^ 63 ≤ now)
    (hrecord : recordOf url now line = some record) (hkept : record.deleted = false)
    (hage : maxAge line = some seconds) (hseconds : 0 < seconds) :
    record.cookie.Outlives (now + seconds * 1000000000) ↔
      now + seconds * 1000000000 < 2 ^ 63 ∧ now + seconds * 1000000000 ≠ 0 := by
  have hexpires := expires_of_maxAge hrecord hkept hage
  rw [Cookie.Outlives]
  simp only [keptAt_iff, Cookie.expired, hexpires, Bool.and_eq_false_iff, bne_eq_false_iff_eq,
    decide_eq_false_iff_not]
  rcases addSeconds_cases hnow hseconds with ⟨hfits, hend⟩ | ⟨hbeyond, hend⟩
  · rw [hend]
    constructor
    · rintro ⟨hne, -⟩
      exact ⟨hfits, hne⟩
    · rintro ⟨-, hne⟩
      exact ⟨hne, fun t _ _ ht => .inr (Int.not_le.mpr ht)⟩
  · constructor
    · rintro ⟨hne, hlive⟩
      -- at the last point in time of the clock the cookie has expired
      rw [timeMax] at hend
      rcases hlive timeMax (by decide) (by decide) (by rw [timeMax]; omega) with hzero | hlater
      · exact absurd hzero hne
      · exact absurd hend hlater
    · rintro ⟨hfits, -⟩
      exact absurd hfits (Int.not_lt.mpr hbeyond)

/-- A line that gives a cookie a minute, and the cookie it sets at the fifth second. -/
def minuteLine : Bytes := str "Set-Cookie: sid=1; Max-Age=60"

def minuteRecord : SetRecord where
  host := str "a"
  domain := none
  cookie := { name := str "sid", value := str "1", domain := str "a", expires := 65000000000,
              lastUsed := 5000000000 }
  deleted := false

theorem outlives_iff_minute :
    minuteRecord.cookie.Outlives (5000000000 + 60 * 1000000000) ↔
      (5000000000 : Int) + 60 * 1000000000 < 2 ^ 63 ∧ (5000000000 : Int) + 60 * 1000000000 ≠ 0 := by
  have hrecord : recordOf ⟨str "http", str "a", str "80", str "/"⟩ 5000000000 minuteLine =
      some minuteRecord := by decide +kernel
  exact outlives_iff (by decide) hrecord rfl (by decide +kernel) (by decide)

/-- The largest number of seconds that is read. In nanoseconds it leaves the range of the clock by
one second less than a multiple of that range. -/
def hugeLine : Bytes := str "Set-Cookie: sid=1; Max-Age=9223372036854775807"

/-- The cookie has expired a second before it is set, and the next request does not send it. -/
theorem huge_maxAge_expired :
    (∃ record, recordOf ⟨str "http", str "a", str "80", str "/"⟩ 5000000000 hugeLine = some record ∧
      record.deleted = false ∧ maxAge hugeLine = some (2 ^ 63 - 1) ∧
      record.cookie.expires = 4000000000 ∧
      ¬ record.cookie.Outlives (5000000000 + (2 ^ 63 - 1) * 1000000000)) ∧
    ((CookieJar.addFromResponse {} [] (str "http://a/") { headers := [hugeLine] } 5000000000).bind
      fun jar => (jar.cookieHeader (str "http://a/") 5000000001).map Prod.fst) = .ok [] := by
  constructor
  · refine ⟨{ minuteRecord with cookie := { minuteRecord.cookie with expires := 4000000000 } },
      by decide +kernel, rfl, by decide +kernel, rfl, fun h => ?_⟩
    have hkept := keptAt_iff.mp (h.2 5000000000 (by decide) (by decide) (by decide))
    exact absurd hkept (by decide)
  · decide +kernel

end HttpClient.Policy
