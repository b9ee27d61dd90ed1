import HttpClient.Policy.Defaults
import HttpClient.UrlComposition

/-!
# Redirects to a relative location

A location without a scheme is resolved against the URL that was asked for: the origin of
that URL is written again, followed by the location, or by the directory of the path and
the location. The client should then be led to the same scheme, host and port.

A location is taken for a URL wherever `://` stands in it; the default port is left out also
after a host with a colon, whose last group is then read as the port; and a fragment counts
as part of the path when its directory is sought.

## Main definitions

* `UrlParts.directory` — the path up to its last slash
* `StaysOnOrigin` — the location leads to the same origin, and to the right target
* `UrlParts.PortDropped` — the port is left out although the host ends with another colon

## Main results

* `directoryOf_append_iff` — when the directory of a target is that of the path
* `splitAuthority_written_iff` — when the authority that is written again is read the same
* `staysOnOrigin_iff` — the locations that stay on the origin
* `leaves_origin_query` — a URL in the query of the location
-/

set_option autoImplicit false

namespace HttpClient

open Text

namespace UrlParts

variable (base : UrlParts)

/-- The text that is cut into host and port. -/
def authorityText : Bytes := base.authority ++ upTo 47 base.tail

/-- The path up to its last slash. -/
def directory : Bytes := if base.path = [] then str "/" else throughLast 47 base.path

/-- What follows the directory; without a path, what follows the first slash there is. -/
def beyondDirectory : Bytes :=
  if base.path = [] then (onward 47 base.tail).drop 1
  else afterLast 47 base.path ++ (announced 63 base.query ++ announced 35 base.fragment)

/-- The default port is written out, after a text with a colon of its own. -/
def PortDropped : Prop :=
  (base.scheme = str "http" ∨ base.scheme = str "https") ∧
    ∃ host, 58 ∈ host ∧ base.authorityText = host ++ 58 :: schemePort base.scheme

variable {base}

theorem targetOf_tail : targetOf base.tail = base.directory ++ base.beyondDirectory := by
  rw [targetOf, directory, beyondDirectory]
  rcases base.path_cases with hpath | ⟨segments, hpath⟩
  · rw [if_pos hpath, if_pos hpath]
    rcases onward_cases 47 base.tail with ⟨-, hnil⟩ | ⟨more, hcons, -⟩
    · rw [if_pos hnil, hnil]
      rfl
    · rw [hcons, if_neg (List.cons_ne_nil _ _)]
      rfl
  · have hne : base.path ≠ [] := by
      rw [hpath]
      exact List.cons_ne_nil _ _
    have htail : base.tail ≠ [] := fun hnil => hne (List.append_eq_nil_iff.mp hnil).1
    rw [(tail_of_path hpath).2, if_neg htail, if_neg hne, if_neg hne, ← List.append_assoc,
      throughLast_append_afterLast, tail]

theorem directory_ends : ∃ before, base.directory = before ++ [47] := by
  rw [directory]
  split
  · exact ⟨[], rfl⟩
  · rename_i hne
    obtain ⟨segments, hpath⟩ := base.path_cases.resolve_left hne
    refine exists_throughLast_eq ?_
    rw [hpath]
    exact List.mem_cons_self

theorem noQuery_directory : 63 ∉ base.directory := by
  rw [directory]
  split
  · decide
  · intro hmem
    apply base.path_noMark.1
    rw [← throughLast_append_afterLast 47 base.path]
    exact List.mem_append_left _ hmem

end UrlParts

namespace Policy

/-! ### Directories -/

theorem directoryOf_eq (target : Bytes) :
    directoryOf target =
      if 47 ∈ upTo 63 target then throughLast 47 (upTo 63 target) else str "/" := by
  have hpath : (findByte 63 target).elim target target.take = upTo 63 target := by
    rcases findByte_cases 63 target with ⟨hmem, hnone⟩ | ⟨query, hsome, -, htake, -⟩
    · rw [hnone, upTo_of_not_mem hmem, Option.elim_none]
    · rw [hsome, ← htake, Option.elim_some]
  rw [directoryOf_eq_elim hpath]
  rcases rfindByte_cases 47 (upTo 63 target) with
    ⟨hmem, hnone⟩ | ⟨before, after, htext, -, hsome⟩
  · rw [hnone, if_neg hmem, Option.elim_none]
  · have hmem : 47 ∈ upTo 63 target := by
      rw [htext]
      exact List.mem_append_right _ List.mem_cons_self
    rw [hsome, if_pos hmem, Option.elim_some]
    exact take_rfindByte hsome

/-- A directory is found again unless a slash follows it before a question mark. -/
theorem directoryOf_append_iff {directory : Bytes} (hends : ∃ before, directory = before ++ [47])
    (hquery : 63 ∉ directory) (more : Bytes) :
    directoryOf (directory ++ more) = directory ↔ 47 ∉ upTo 63 more := by
  obtain ⟨before, hbefore⟩ := hends
  have hslash : 47 ∈ directory := by
    rw [hbefore]
    exact List.mem_append_right _ List.mem_cons_self
  rw [directoryOf_eq, upTo_append hquery, if_pos (List.mem_append_left _ hslash),
    throughLast_append]
  constructor
  · intro heq hmem
    rw [if_pos hmem, List.append_right_eq_self] at heq
    obtain ⟨start, hstart⟩ := exists_throughLast_eq hmem
    rw [hstart] at heq
    exact absurd heq (by simp)
  · intro hmem
    rw [if_neg hmem, hbefore, throughLast_append_cons before List.not_mem_nil]

theorem directoryOf_head (target : Bytes) (h : target.head? = some 47) :
    ∃ more, directoryOf target = 47 :: more := by
  obtain ⟨rest, rfl⟩ := List.head?_eq_some_iff.mp h
  have hskip : 63 ∉ [(47 : UInt8)] := by decide
  have hpath : upTo 63 (47 :: rest) = [] ++ 47 :: upTo 63 rest := upTo_append hskip rest
  rw [directoryOf_eq, hpath, if_pos (List.mem_append_right _ List.mem_cons_self)]
  -- the first slash is the last one, or another one comes after it
  rcases rfindByte_cases 47 (upTo 63 rest) with ⟨hmem, -⟩ | ⟨before, after, hrest, hlast, -⟩
  · rw [throughLast_append_cons [] hmem]
    exact ⟨[], rfl⟩
  · rw [hrest, List.nil_append, ← List.cons_append, throughLast_append_cons _ hlast]
    exact ⟨_, rfl⟩

/-! ### The authority that is written again -/

/-- The authority in the origin of a URL. -/
def writtenAuthority (url : ParsedUrl) : Bytes :=
  url.host ++ (if url.scheme = str "https" ∧ url.port = str "443" ∨
      url.scheme = str "http" ∧ url.port = str "80" then []
    else str ":" ++ url.port)

theorem originOf_eq (url : ParsedUrl) :
    originOf url = url.scheme ++ str "://" ++ writtenAuthority url := by
  rw [originOf, writtenAuthority, ← List.append_assoc]

theorem default_port_iff {scheme port : Bytes} :
    scheme = str "https" ∧ port = str "443" ∨ scheme = str "http" ∧ port = str "80" ↔
      (scheme = str "http" ∨ scheme = str "https") ∧ port = schemePort scheme := by
  constructor
  · rintro (⟨rfl, rfl⟩ | ⟨rfl, rfl⟩)
    · exact ⟨Or.inr rfl, rfl⟩
    · exact ⟨Or.inl rfl, rfl⟩
  · rintro ⟨rfl | rfl, rfl⟩
    · exact Or.inr ⟨rfl, rfl⟩
    · exact Or.inl ⟨rfl, rfl⟩

/-- The authority is read as before unless its port was left out behind a colon. -/
theorem splitAuthority_written_iff (scheme target text : Bytes) {host port : Bytes}
    (h : splitAuthority text (schemePort scheme) = (host, port)) :
    splitAuthority (writtenAuthority ⟨scheme, host, port, target⟩) (schemePort scheme) =
        (host, port) ↔
      ¬ ((scheme = str "http" ∨ scheme = str "https") ∧
        ∃ before, 58 ∈ before ∧ text = before ++ 58 :: schemePort scheme) := by
  have hport : 58 ∉ port := by
    rcases splitAuthority_cases text (schemePort scheme) with
      ⟨-, hwhole⟩ | ⟨_, digits, -, hdigits, hcut⟩
    · rw [hwhole, Prod.mk.injEq] at h
      rw [← h.2]
      exact not_mem_schemePort scheme (by decide)
    · rw [hcut, Prod.mk.injEq] at h
      rwa [← h.2]
  rw [writtenAuthority]
  dsimp only
  by_cases hdefault : (scheme = str "http" ∨ scheme = str "https") ∧ port = schemePort scheme
  · -- the port is left out
    rw [if_pos (default_port_iff.mpr hdefault), List.append_nil]
    obtain ⟨hscheme, rfl⟩ := hdefault
    have hread : splitAuthority host (schemePort scheme) = (host, schemePort scheme) ↔
        58 ∉ host := by
      refine ⟨fun hsplit => ?_, fun hmem => splitAuthority_of_not_mem hmem _⟩
      rcases splitAuthority_cases host (schemePort scheme) with
        ⟨hmem, -⟩ | ⟨before, digits, htext, -, hcut⟩
      · exact hmem
      · rw [hcut, Prod.mk.injEq] at hsplit
        rw [hsplit.1, List.self_eq_append_right] at htext
        exact absurd htext (List.cons_ne_nil _ _)
    rw [hread]
    constructor
    · rintro hmem ⟨-, before, hbefore, rfl⟩
      rw [splitAuthority_append before hport, Prod.mk.injEq] at h
      rw [h.1] at hbefore
      exact hmem hbefore
    · intro hnone hmem
      rcases splitAuthority_cases text (schemePort scheme) with
        ⟨hcolon, hwhole⟩ | ⟨before, digits, htext, -, hcut⟩
      · rw [hwhole, Prod.mk.injEq] at h
        rw [h.1] at hcolon
        exact hcolon hmem
      · rw [hcut, Prod.mk.injEq] at h
        rw [h.1, h.2] at htext
        exact hnone ⟨hscheme, host, hmem, htext⟩
  · -- the port is written again
    rw [if_neg fun hcase => hdefault (default_port_iff.mp hcase)]
    refine iff_of_true ?_ ?_
    · exact splitAuthority_append host hport (schemePort scheme)
    · rintro ⟨hscheme, before, -, rfl⟩
      have hcolon : 58 ∉ schemePort scheme := not_mem_schemePort scheme (by decide)
      have hsplit := splitAuthority_append before hcolon (schemePort scheme)
      rw [h, Prod.mk.injEq] at hsplit
      exact hdefault ⟨hscheme, hsplit.2⟩

theorem noSlash_written (scheme target : Bytes) {text host port : Bytes}
    (h : splitAuthority text (schemePort scheme) = (host, port)) (hslash : 47 ∉ text) :
    47 ∉ writtenAuthority ⟨scheme, host, port, target⟩ := by
  have hparts : 47 ∉ host ∧ 47 ∉ port := by
    rcases splitAuthority_cases text (schemePort scheme) with
      ⟨-, hwhole⟩ | ⟨before, digits, rfl, -, hcut⟩
    · rw [hwhole, Prod.mk.injEq] at h
      rw [← h.1, ← h.2]
      exact ⟨hslash, not_mem_schemePort scheme (by decide)⟩
    · rw [hcut, Prod.mk.injEq] at h
      rw [List.mem_append, List.mem_cons, not_or, not_or] at hslash
      rw [← h.1, ← h.2]
      exact ⟨hslash.1, hslash.2.2⟩
  rw [writtenAuthority, List.mem_append, not_or]
  refine ⟨hparts.1, ?_⟩
  split
  · exact List.not_mem_nil
  · rw [List.mem_append, not_or]
    exact ⟨by decide, hparts.2⟩

/-- A URL that is put together from an origin and a target is cut between them. -/
theorem parseUrl_originOf {url : ParsedUrl} (hscheme : 58 ∉ url.scheme)
    (hslash : 47 ∉ writtenAuthority url) (more : Bytes) :
    parseUrl (originOf url ++ 47 :: more) =
      .ok ⟨url.scheme, (splitAuthority (writtenAuthority url) (schemePort url.scheme)).1,
        (splitAuthority (writtenAuthority url) (schemePort url.scheme)).2, 47 :: more⟩ := by
  rw [originOf_eq, List.append_assoc, parseUrl_compose hscheme, cutUrl, targetOf,
    upTo_append_cons hslash, onward_append_cons hslash, if_neg (List.cons_ne_nil _ _)]

/-! ### Where a location leads -/

/-- The location leads to the scheme, host and port of the URL, and to the target it names. -/
def StaysOnOrigin (base : UrlParts) (location : Bytes) : Prop :=
  ∃ asked url led, parseUrl base.compose = .ok asked ∧
    resolveRedirectUrl base.compose location = .ok url ∧ parseUrl url = .ok led ∧
    led.scheme = asked.scheme ∧ led.host = asked.host ∧ led.port = asked.port ∧
    led.target =
      if (trim location).head? = some 47 then trim location
      else base.directory ++ trim location

/-- The target of a URL is shorter than the URL. -/
theorem target_length_lt {url : Bytes} {parsed : ParsedUrl} (h : parseUrl url = .ok parsed) :
    parsed.target.length < url.length := by
  rw [parseUrl, splitUrl] at h
  cases hfind : find (str "://") url with
  | none =>
    rw [hfind] at h
    cases h
  | some schemeEnd =>
    rw [hfind] at h
    obtain ⟨-, hmark, -⟩ := find_eq_some_iff.mp hfind
    have hroom : 3 ≤ url.length - schemeEnd := by
      rw [← List.length_drop]
      exact hmark.length_le
    dsimp only at h
    cases hslash : findByte 47 (url.drop (schemeEnd + 3)) with
    | none =>
      rw [hslash] at h
      obtain rfl := Except.ok.inj h
      have hone : (str "/").length = 1 := rfl
      dsimp only
      omega
    | some pathStart =>
      rw [hslash] at h
      obtain rfl := Except.ok.inj h
      dsimp only
      rw [List.length_drop, List.length_drop]
      omega

/-- A location that is taken for a URL itself does not lead to the target it names. -/
theorem not_staysOnOrigin_of_scheme {base : UrlParts} {location : Bytes}
    (h : hasUrlScheme (trim location) = true) : ¬ StaysOnOrigin base location := by
  rintro ⟨asked, url, led, -, hurl, hled, -, -, -, htarget⟩
  rw [resolveRedirectUrl, if_pos h] at hurl
  obtain rfl := Except.ok.inj hurl
  have hshort := target_length_lt hled
  rw [htarget] at hshort
  split at hshort
  · exact absurd hshort (lt_irrefl _)
  · rw [List.length_append] at hshort
    omega

section Relative

variable {base : UrlParts} {location : Bytes}

/-- What the client makes of a URL that is put together from its parts. -/
theorem parseUrl_base :
    parseUrl base.compose =
      .ok ⟨base.scheme, (splitAuthority base.authorityText (schemePort base.scheme)).1,
        (splitAuthority base.authorityText (schemePort base.scheme)).2,
        base.directory ++ base.beyondDirectory⟩ := by
  rw [UrlParts.compose, parseUrl_compose base.scheme_noColon, cutUrl,
    upTo_append UrlParts.noSlash_authority, ← UrlParts.targetOf_tail, targetOf, targetOf,
    onward_append UrlParts.noSlash_authority]
  rfl

/-- A location without a scheme of its own is put behind the origin, or behind the directory
there. -/
theorem resolveRedirectUrl_relative {asked : ParsedUrl} {url : Bytes}
    (hasked : parseUrl url = .ok asked) (hscheme : hasUrlScheme (trim location) = false)
    (hslashes : ¬ str "//" <+: trim location) :
    resolveRedirectUrl url location =
      .ok (originOf asked ++
        if (trim location).head? = some 47 then trim location
        else directoryOf asked.target ++ trim location) := by
  have hnone : ¬ (str "//").isPrefixOf (trim location) = true := by
    rwa [List.isPrefixOf_iff_prefix]
  rw [resolveRedirectUrl, hasked]
  dsimp only [bind, Except.bind, pure, Except.pure]
  rw [hscheme, if_neg Bool.false_ne_true, if_neg hnone]
  split
  · rfl
  · rw [List.append_assoc]

theorem directory_head : (base.directory ++ base.beyondDirectory).head? = some 47 := by
  rw [← UrlParts.targetOf_tail, targetOf]
  rcases onward_cases 47 base.tail with ⟨-, hnil⟩ | ⟨more, hcons, -⟩
  · rw [if_pos hnil]
    rfl
  · rw [hcons, if_neg (List.cons_ne_nil _ _)]
    rfl

/-- What is put behind the origin is a path. -/
theorem resolved_path (target location : Bytes) (h : target.head? = some 47) :
    ∃ more, (if (trim location).head? = some 47 then trim location
      else directoryOf target ++ trim location) = 47 :: more := by
  split
  · rename_i hhead
    obtain ⟨more, hmore⟩ := List.head?_eq_some_iff.mp hhead
    exact ⟨more, hmore⟩
  · obtain ⟨more, hmore⟩ := directoryOf_head target h
    exact ⟨more ++ trim location, by rw [hmore, List.cons_append]⟩

/-- It is the path that the location names unless a wrong directory is found. -/
theorem resolved_path_iff :
    (if (trim location).head? = some 47 then trim location
        else directoryOf (base.directory ++ base.beyondDirectory) ++ trim location) =
      (if (trim location).head? = some 47 then trim location
        else base.directory ++ trim location) ↔
      (trim location).head? = some 47 ∨ 47 ∉ upTo 63 base.beyondDirectory := by
  by_cases hhead : (trim location).head? = some 47
  · rw [if_pos hhead, if_pos hhead]
    exact iff_of_true rfl (Or.inl hhead)
  · rw [if_neg hhead, if_neg hhead, List.append_left_inj,
      directoryOf_append_iff UrlParts.directory_ends UrlParts.noQuery_directory]
    exact (or_iff_right hhead).symm

theorem noSlash_authorityText : 47 ∉ base.authorityText := by
  rw [UrlParts.authorityText, List.mem_append, not_or]
  exact ⟨UrlParts.noSlash_authority, not_mem_upTo 47 base.tail⟩

/-- A location that does not start with `//` stays on the origin exactly when it contains no
`://`, no port was left out behind a colon, and it is a path of its own or no slash beyond the
directory is taken for one of the path. -/
theorem staysOnOrigin_iff (hslashes : ¬ str "//" <+: trim location) :
    StaysOnOrigin base location ↔
      hasUrlScheme (trim location) = false ∧ ¬ base.PortDropped ∧
        ((trim location).head? = some 47 ∨ 47 ∉ upTo 63 base.beyondDirectory) := by
  cases hscheme : hasUrlScheme (trim location) with
  | true =>
    refine iff_of_false (not_staysOnOrigin_of_scheme hscheme) ?_
    rintro ⟨habsolute, -⟩
    cases habsolute
  | false =>
    have hasked : parseUrl base.compose = _ := parseUrl_base
    cases hsplit : splitAuthority base.authorityText (schemePort base.scheme) with
    | mk host port =>
      rw [hsplit] at hasked
      dsimp only at hasked
      have hurl := resolveRedirectUrl_relative hasked hscheme hslashes
      have hslash := noSlash_written base.scheme (base.directory ++ base.beyondDirectory) hsplit
        noSlash_authorityText
      have hread := splitAuthority_written_iff base.scheme
        (base.directory ++ base.beyondDirectory) base.authorityText hsplit
      obtain ⟨more, hmore⟩ :=
        resolved_path (base.directory ++ base.beyondDirectory) location directory_head
      -- the URL that was put together is cut where it was joined
      have hled := parseUrl_originOf base.scheme_noColon hslash more
      rw [UrlParts.PortDropped, ← hread, ← resolved_path_iff, hmore]
      dsimp only at hurl hled
      rw [hmore] at hurl
      constructor
      · rintro ⟨asked, url, led, hasked', hurl', hled', -, hhost, hport, htarget⟩
        rw [hasked] at hasked'
        rw [hurl] at hurl'
        obtain rfl := Except.ok.inj hasked'
        obtain rfl := Except.ok.inj hurl'
        rw [hled] at hled'
        obtain rfl := Except.ok.inj hled'
        exact ⟨rfl, Prod.ext hhost hport, htarget⟩
      · rintro ⟨-, hsame, htarget⟩
        rw [hsame] at hled
        exact ⟨_, _, _, hasked, hurl, hled, rfl, rfl, rfl, htarget⟩

end Relative

/-- A login page, asked for by a page of the same host. -/
theorem staysOnOrigin_iff_login : StaysOnOrigin UrlParts.page (str "/login?next=/p") :=
  (staysOnOrigin_iff (by decide)).mpr (by
    refine ⟨by decide, ?_, Or.inl (by decide)⟩
    rintro ⟨-, host, -, htext⟩
    have hend : 58 :: str "443" <:+ UrlParts.page.authorityText := ⟨host, htext.symm⟩
    exact absurd hend (by decide))

/-- A location with a URL in its query is taken for a URL. -/
theorem leaves_origin_query :
    ¬ str "//" <+: trim (str "/login?next=http://b") ∧
      (trim (str "/login?next=http://b")).head? = some 47 ∧
      ¬ StaysOnOrigin UrlParts.page (str "/login?next=http://b") := by
  refine ⟨by decide, by decide, ?_⟩
  exact not_staysOnOrigin_of_scheme (by decide +kernel)

end Policy

end HttpClient
