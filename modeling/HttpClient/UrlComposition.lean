import HttpClient.Text.Delimiters
import HttpClient.Url

/-!
# URLs put together from their parts

A URL is written as scheme, host, port, path, query and fragment, each but the first two
possibly missing, and the client cuts it again. Where it cuts is decided by the first `://`,
the next slash and the last colon before that slash. A slash that is missing, or a colon of
the host, makes it cut elsewhere; and it never cuts at a `#`.

## Main definitions

* `UrlParts` — the parts of a URL, and `UrlParts.compose`, the URL
* `UrlParts.parsed` — what a parser should make of the URL
* `UrlParts.Recovered` — the three parsers make that of it

## Main results

* `splitUrl_compose`, `splitAuthority_cases` — where a URL is cut
* `recovered_iff` — the URLs whose parts all three parsers recover
* `not_recovered_loopback` — an IPv6 host without a port
-/

set_option autoImplicit false

namespace HttpClient

open Text

/-! ### The parts of a URL -/

/-- The bytes that separate the parts of a URL. -/
def delimiters : Bytes := str ":/?#[]@"

/-- A registered name; IPv4 addresses are among them. -/
def IsRegName (host : Bytes) : Prop := host ≠ [] ∧ ∀ c ∈ host, c ∉ delimiters

/-- An IPv6 address in brackets. -/
def IsIpLiteral (host : Bytes) : Prop :=
  ∃ address, host = 91 :: (address ++ [93]) ∧ 58 ∈ address ∧
    ∀ c ∈ address, c = 58 ∨ c ∉ delimiters

/-- A part with the byte that announces it; nothing for a part that is missing. -/
def announced (mark : UInt8) : Option Bytes → Bytes
  | none => []
  | some part => mark :: part

structure UrlParts where
  scheme : Bytes
  host : Bytes
  port : Option Bytes
  path : Bytes
  query : Option Bytes
  fragment : Option Bytes
  scheme_noColon : 58 ∉ scheme
  host_isHost : IsRegName host ∨ IsIpLiteral host
  port_isPort : ∀ digits ∈ port, digits ≠ [] ∧ ∀ c ∈ digits, isDigit c
  path_isPath : path = [] ∨ path.head? = some 47
  path_noMark : 63 ∉ path ∧ 35 ∉ path
  query_noMark : ∀ text ∈ query, 35 ∉ text

namespace UrlParts

variable (parts : UrlParts)

/-- Host and port. -/
def authority : Bytes := parts.host ++ announced 58 parts.port

/-- Path, query and fragment. -/
def tail : Bytes := parts.path ++ (announced 63 parts.query ++ announced 35 parts.fragment)

def compose : Bytes := parts.scheme ++ str "://" ++ (parts.authority ++ parts.tail)

/-- What the URL says: its own port or the one of its scheme, and a target without the
fragment. -/
def parsed : ParsedUrl where
  scheme := parts.scheme
  host := parts.host
  port := parts.port.getD (schemePort parts.scheme)
  target := (if parts.path = [] then str "/" else parts.path) ++ announced 63 parts.query

/-- Every parser of the client that accepts the scheme recovers the parts. -/
def Recovered : Prop :=
  Policy.parseUrl parts.compose = .ok parts.parsed ∧
    H1.parseUrl parts.compose = .ok parts.parsed ∧
    (parts.scheme = str "https" → H2.parseUrl parts.compose = .ok parts.parsed)

/-- There is no fragment; a query follows a path; a host that contains a colon, which is one
in brackets, is followed by a port. -/
def Separable : Prop :=
  parts.fragment = none ∧ (parts.path ≠ [] ∨ parts.query = none) ∧
    (parts.port ≠ none ∨ 58 ∉ parts.host)

variable {parts : UrlParts}

theorem noSlash_host : 47 ∉ parts.host := by
  rcases parts.host_isHost with hname | ⟨address, heq, -, haddress⟩
  · exact fun hmem => hname.2 47 hmem (by decide)
  · intro hmem
    rw [heq] at hmem
    simp only [List.mem_cons, List.mem_append, List.not_mem_nil, or_false] at hmem
    rcases hmem with hopen | hinside | hclose
    · exact absurd hopen (by decide)
    · rcases haddress 47 hinside with hcolon | hplain
      · exact absurd hcolon (by decide)
      · exact hplain (by decide)
    · exact absurd hclose (by decide)

theorem host_ne_nil : parts.host ≠ [] := by
  rcases parts.host_isHost with hname | ⟨address, heq, -⟩
  · exact hname.1
  · rw [heq]
    exact List.cons_ne_nil _ _

/-- Bytes that are no digits do not occur in a port. -/
theorem not_mem_port {c : UInt8} (hc : isDigit c = false) :
    ∀ digits ∈ parts.port, c ∉ digits := fun digits hdigits =>
  not_mem_of_digits (parts.port_isPort digits hdigits).2 hc

theorem noSlash_authority : 47 ∉ parts.authority := by
  rw [authority, List.mem_append, not_or]
  refine ⟨noSlash_host, ?_⟩
  cases hport : parts.port with
  | none => exact List.not_mem_nil
  | some digits =>
    rw [announced, List.mem_cons, not_or]
    exact ⟨by decide, not_mem_port (by decide) digits hport⟩

end UrlParts

/-! ### Where a URL is cut -/

/-- The target of what follows the scheme. -/
def targetOf (rest : Bytes) : Bytes := if onward 47 rest = [] then str "/" else onward 47 rest

theorem targetOf_ne_nil (rest : Bytes) : targetOf rest ≠ [] := by
  rw [targetOf]
  split
  · exact List.cons_ne_nil _ _
  · assumption

/-- The first `://` ends the scheme. -/
theorem find_compose {scheme : Bytes} (h : 58 ∉ scheme) (rest : Bytes) :
    find (str "://") (scheme ++ str "://" ++ rest) = some scheme.length := by
  have hmark : str "://" = 58 :: [47, 47] := by decide
  have hhere : find (str "://") (str "://" ++ rest) = some 0 := by
    rw [hmark]
    exact find_cons_here ⟨rest, rfl⟩
  rw [List.append_assoc, hmark, find_append h, ← hmark, hhere, Option.map_some, Nat.zero_add]

theorem take_compose (scheme rest : Bytes) :
    (scheme ++ str "://" ++ rest).take scheme.length = scheme := by
  rw [List.append_assoc, List.take_left]

theorem drop_compose (scheme rest : Bytes) :
    (scheme ++ str "://" ++ rest).drop (scheme.length + 3) = rest := by
  rw [List.append_assoc, List.drop_length_add_append]
  rfl

/-- The scheme ends before the first `://`, the authority before the next slash. -/
theorem splitUrl_compose {scheme : Bytes} (h : 58 ∉ scheme) (rest : Bytes) :
    splitUrl (scheme ++ str "://" ++ rest) = .ok (scheme, upTo 47 rest, targetOf rest) := by
  rw [splitUrl, find_compose h]
  dsimp only
  rw [drop_compose, take_compose, targetOf]
  rcases findByte_cases 47 rest with ⟨hmem, hnone⟩ | ⟨i, hsome, hmem, hbefore, hafter⟩
  · rw [hnone, upTo_of_not_mem hmem, onward_of_not_mem hmem, if_pos rfl]
  · have hne : onward 47 rest ≠ [] := fun hnil => onward_eq_nil.mp hnil hmem
    rw [hsome, if_neg hne]
    dsimp only
    rw [hbefore, hafter]

theorem splitAuthority_of_not_mem {text : Bytes} (h : 58 ∉ text) (port : Bytes) :
    splitAuthority text port = (text, port) := by
  rw [splitAuthority, rfindByte_of_not_mem h]

theorem splitAuthority_append {digits : Bytes} (host : Bytes) (h : 58 ∉ digits) (port : Bytes) :
    splitAuthority (host ++ 58 :: digits) port = (host, digits) := by
  rw [splitAuthority, rfindByte_append_cons host h]
  dsimp only
  rw [List.take_left, List.drop_length_add_append]
  rfl

theorem not_mem_schemePort (scheme : Bytes) {c : UInt8} (hc : isDigit c = false) :
    c ∉ schemePort scheme := by
  refine not_mem_of_digits ?_ hc
  rw [schemePort]
  split
  · exact List.all_iff_forall_prop.mp (by decide)
  · exact List.all_iff_forall_prop.mp (by decide)

/-- The last colon separates host and port; without a colon the port is the given one. -/
theorem splitAuthority_cases (text port : Bytes) :
    (58 ∉ text ∧ splitAuthority text port = (text, port)) ∨
      ∃ host digits, text = host ++ 58 :: digits ∧ 58 ∉ digits ∧
        splitAuthority text port = (host, digits) := by
  rcases rfindByte_cases 58 text with ⟨hmem, -⟩ | ⟨host, digits, rfl, hlast, -⟩
  · exact Or.inl ⟨hmem, splitAuthority_of_not_mem hmem port⟩
  · exact Or.inr ⟨host, digits, rfl, hlast, splitAuthority_append host hlast port⟩

/-- Two authorities with the same host and port differ at most by the default port. -/
theorem splitAuthority_eq {text other port : Bytes}
    (h : splitAuthority text port = splitAuthority other port) :
    text = other ∨ other = text ++ 58 :: port ∨ text = other ++ 58 :: port := by
  rcases splitAuthority_cases text port with ⟨-, hwhole⟩ | ⟨host, digits, rfl, -, hcut⟩
  · rcases splitAuthority_cases other port with ⟨-, hwhole'⟩ | ⟨host', digits', rfl, -, hcut'⟩
    · rw [hwhole, hwhole', Prod.mk.injEq] at h
      exact Or.inl h.1
    · rw [hwhole, hcut', Prod.mk.injEq] at h
      rw [h.1, ← h.2]
      exact Or.inr (Or.inl rfl)
  · rcases splitAuthority_cases other port with ⟨-, hwhole'⟩ | ⟨host', digits', rfl, -, hcut'⟩
    · rw [hcut, hwhole', Prod.mk.injEq] at h
      rw [h.1, h.2]
      exact Or.inr (Or.inr rfl)
    · rw [hcut, hcut', Prod.mk.injEq] at h
      rw [h.1, h.2]
      exact Or.inl rfl

/-- What the parsers make of a URL with the given scheme. -/
def cutUrl (scheme rest : Bytes) : ParsedUrl where
  scheme := scheme
  host := (splitAuthority (upTo 47 rest) (schemePort scheme)).1
  port := (splitAuthority (upTo 47 rest) (schemePort scheme)).2
  target := targetOf rest

/-- Scheme, host and port are those of the text before the first slash. -/
theorem cutUrl_congr (scheme : Bytes) {rest other : Bytes} (h : upTo 47 other = upTo 47 rest) :
    cutUrl scheme other = { cutUrl scheme rest with target := targetOf other } := by
  rw [cutUrl, h]
  rfl

section Parsers

variable {scheme : Bytes}

theorem Policy.parseUrl_compose (h : 58 ∉ scheme) (rest : Bytes) :
    Policy.parseUrl (scheme ++ str "://" ++ rest) = .ok (cutUrl scheme rest) := by
  rw [Policy.parseUrl, splitUrl_compose h]
  rfl

theorem noColon_of_http (h : scheme = str "http" ∨ scheme = str "https") : 58 ∉ scheme := by
  rcases h with rfl | rfl
  · decide
  · decide

/-- The client accepts two schemes, and refuses an empty host. -/
theorem H1.parseUrl_eq (h : scheme = str "http" ∨ scheme = str "https") (rest : Bytes) :
    H1.parseUrl (scheme ++ str "://" ++ rest) =
      if (cutUrl scheme rest).host = [] then .error (str "url host is empty")
      else .ok (cutUrl scheme rest) := by
  have haccepted : ¬ (scheme ≠ str "https" ∧ scheme ≠ str "http") := by
    rcases h with rfl | rfl
    · exact fun hne => hne.2 rfl
    · exact fun hne => hne.1 rfl
  rw [H1.parseUrl, splitUrl_compose (noColon_of_http h)]
  dsimp only [bind, Except.bind]
  rw [if_neg haccepted]
  dsimp only [pure, Except.pure, throw, throwThe, MonadExceptOf.throw]
  rw [cutUrl]

theorem H1.parseUrl_compose (h : scheme = str "http" ∨ scheme = str "https") (rest : Bytes)
    (hhost : (cutUrl scheme rest).host ≠ []) :
    H1.parseUrl (scheme ++ str "://" ++ rest) = .ok (cutUrl scheme rest) := by
  rw [H1.parseUrl_eq h, if_neg hhost]

/-- A URL that is accepted was put together from its scheme and the rest. -/
theorem H1.exists_compose_of_parseUrl {url : Bytes} {parsed : ParsedUrl}
    (h : H1.parseUrl url = .ok parsed) :
    ∃ scheme rest, url = scheme ++ str "://" ++ rest ∧
      (scheme = str "http" ∨ scheme = str "https") ∧ parsed = cutUrl scheme rest ∧
      parsed.host ≠ [] := by
  cases hfind : find (str "://") url with
  | none =>
    rw [H1.parseUrl, splitUrl, hfind] at h
    cases h
  | some schemeEnd =>
    obtain ⟨-, ⟨rest, hrest⟩, -⟩ := find_eq_some_iff.mp hfind
    have htext : url = url.take schemeEnd ++ str "://" ++ rest := by
      rw [List.append_assoc, hrest, List.take_append_drop]
    have hscheme : url.take schemeEnd = str "http" ∨ url.take schemeEnd = str "https" := by
      by_contra hother
      rw [not_or] at hother
      obtain ⟨authority, target, hsplit⟩ : ∃ authority target,
          splitUrl url = .ok (url.take schemeEnd, authority, target) := by
        rw [splitUrl, hfind]
        dsimp only
        cases findByte 47 (url.drop (schemeEnd + 3)) with
        | none => exact ⟨_, _, rfl⟩
        | some pathStart => exact ⟨_, _, rfl⟩
      rw [H1.parseUrl, hsplit] at h
      dsimp only [bind, Except.bind] at h
      rw [if_pos hother.symm] at h
      cases h
    refine ⟨url.take schemeEnd, rest, htext, hscheme, ?_⟩
    rw [htext, H1.parseUrl_eq hscheme] at h
    split at h
    · cases h
    · rename_i hhost
      obtain rfl := Except.ok.inj h
      exact ⟨rfl, hhost⟩

theorem H2.parseUrl_compose (rest : Bytes) :
    H2.parseUrl (str "https" ++ str "://" ++ rest) = .ok (cutUrl (str "https") rest) := by
  have hcolon : 58 ∉ str "https" := by decide
  rw [H2.parseUrl, splitUrl_compose hcolon]
  rfl

end Parsers

/-! ### URLs whose parts are recovered -/

namespace UrlParts

variable {parts : UrlParts}

theorem announced_eq_nil {mark : UInt8} {part : Option Bytes} :
    announced mark part = [] ↔ part = none := by
  cases part with
  | none => exact iff_of_true rfl rfl
  | some text => exact iff_of_false (List.cons_ne_nil _ _) (Option.some_ne_none _)

/-- A path is missing or starts with a slash. -/
theorem path_cases (parts : UrlParts) :
    parts.path = [] ∨ ∃ segments, parts.path = 47 :: segments := by
  refine parts.path_isPath.imp_right fun hhead => ?_
  cases hpath : parts.path with
  | nil =>
    rw [hpath] at hhead
    exact absurd hhead (by simp)
  | cons c segments =>
    rw [hpath, List.head?_cons, Option.some.injEq] at hhead
    exact ⟨segments, by rw [hhead]⟩

theorem tail_of_path {segments : Bytes} (h : parts.path = 47 :: segments) :
    upTo 47 parts.tail = [] ∧ onward 47 parts.tail = parts.tail := by
  rw [tail, h, List.cons_append]
  exact ⟨upTo_cons_self 47 _, onward_cons_self 47 _⟩

/-- Without a path a query, or else a fragment, comes right after the authority. -/
theorem tail_of_noPath (h : parts.path = []) :
    parts.tail = announced 63 parts.query ++ announced 35 parts.fragment := by
  rw [tail, h, List.nil_append]

theorem upTo_announced {mark : UInt8} (hmark : mark ≠ 47) (part : Option Bytes) (rest : Bytes) :
    upTo 47 (announced mark part ++ rest) = [] → part = none := by
  cases part with
  | none => exact fun _ => rfl
  | some text =>
    intro hnil
    have hskip : 47 ∉ [mark] := by simpa using Ne.symm hmark
    have hcut : upTo 47 ([mark] ++ (text ++ rest)) = [mark] ++ upTo 47 (text ++ rest) :=
      upTo_append hskip _
    rw [announced, List.cons_append, ← List.singleton_append, hcut] at hnil
    exact absurd hnil (by simp)

/-- The authority goes on until a path begins. -/
theorem upTo_tail_eq_nil :
    upTo 47 parts.tail = [] ↔
      parts.path ≠ [] ∨ (parts.query = none ∧ parts.fragment = none) := by
  rcases parts.path_cases with hpath | ⟨segments, hpath⟩
  · rw [tail_of_noPath hpath]
    constructor
    · intro hnil
      have hquery := upTo_announced (by decide) _ _ hnil
      rw [hquery, announced, List.nil_append, ← List.append_nil (announced 35 _)] at hnil
      exact Or.inr ⟨hquery, upTo_announced (by decide) _ _ hnil⟩
    · rintro (hne | ⟨hquery, hfragment⟩)
      · exact absurd hpath hne
      · rw [hquery, hfragment]
        rfl
  · refine iff_of_true (tail_of_path hpath).1 (Or.inl ?_)
    rw [hpath]
    exact List.cons_ne_nil _ _

/-- What stands after the authority never starts like a port. -/
theorem head_upTo_tail (rest : Bytes) : upTo 47 parts.tail ≠ 58 :: rest := by
  intro hhead
  have hstart : (upTo 47 parts.tail ++ onward 47 parts.tail).head? = some 58 := by
    rw [hhead, List.cons_append, List.head?_cons]
  rw [upTo_append_onward] at hstart
  rcases parts.path_cases with hpath | ⟨segments, hpath⟩
  · rw [tail_of_noPath hpath] at hstart
    cases hquery : parts.query with
    | some text =>
      rw [hquery] at hstart
      exact absurd hstart (by simp [announced])
    | none =>
      rw [hquery] at hstart
      cases hfragment : parts.fragment with
      | some text =>
        rw [hfragment] at hstart
        exact absurd hstart (by simp [announced])
      | none =>
        rw [hfragment] at hstart
        exact absurd hstart (by simp [announced])
  · rw [tail, hpath] at hstart
    exact absurd hstart (by simp)

/-- Host and port are read off an authority when nothing follows it, and a host with a colon
is followed by a port. -/
theorem splitAuthority_iff {rest : Bytes} (hrest : ∀ more, rest ≠ 58 :: more) (default : Bytes) :
    splitAuthority (parts.authority ++ rest) default = (parts.host, parts.port.getD default) ↔
      rest = [] ∧ (parts.port ≠ none ∨ 58 ∉ parts.host) := by
  have hauthority : parts.authority ++ rest =
      parts.host ++ (announced 58 parts.port ++ rest) := by
    rw [authority, List.append_assoc]
  constructor
  · intro hsplit
    rcases splitAuthority_cases (parts.authority ++ rest) default with
      ⟨hmem, hwhole⟩ | ⟨host, digits, htext, -, hcut⟩
    · -- no colon at all: everything is taken for the host
      rw [hwhole, Prod.mk.injEq, hauthority, List.append_right_eq_self,
        List.append_eq_nil_iff] at hsplit
      refine ⟨hsplit.1.2, Or.inr fun hcolon => hmem ?_⟩
      rw [hauthority]
      exact List.mem_append_left _ hcolon
    · rw [hcut, Prod.mk.injEq] at hsplit
      obtain ⟨rfl, hport⟩ := hsplit
      rw [hauthority, List.append_cancel_left_eq] at htext
      cases hgiven : parts.port with
      | none =>
        -- the colon stands after the authority, where none can be
        rw [hgiven, announced, List.nil_append] at htext
        exact absurd htext (hrest digits)
      | some text =>
        rw [hgiven, Option.getD_some] at hport
        rw [hgiven, hport, announced, List.cons_append, List.cons.injEq,
          List.append_right_eq_self] at htext
        exact ⟨htext.2, Or.inl (Option.some_ne_none text)⟩
  · rintro ⟨rfl, hcolon⟩
    rw [hauthority, List.append_nil]
    cases hport : parts.port with
    | none =>
      have hnone : 58 ∉ parts.host := hcolon.resolve_left fun hne => hne hport
      rw [announced, List.append_nil, splitAuthority_of_not_mem hnone, Option.getD_none]
    | some digits =>
      rw [announced, splitAuthority_append _ (not_mem_port (by decide) digits hport),
        Option.getD_some]

/-- The parsers agree with each other; so the parts are recovered as soon as one of them
recovers them. -/
theorem recovered_iff_cutUrl (hscheme : parts.scheme = str "http" ∨ parts.scheme = str "https") :
    parts.Recovered ↔ cutUrl parts.scheme (parts.authority ++ parts.tail) = parts.parsed := by
  constructor
  · rintro ⟨hpolicy, -⟩
    rw [compose, Policy.parseUrl_compose parts.scheme_noColon] at hpolicy
    exact Except.ok.inj hpolicy
  · intro hcut
    have hhost : (cutUrl parts.scheme (parts.authority ++ parts.tail)).host ≠ [] := by
      rw [hcut]
      exact host_ne_nil
    refine ⟨?_, ?_, fun hhttps => ?_⟩
    · rw [compose, Policy.parseUrl_compose parts.scheme_noColon, hcut]
    · rw [compose, H1.parseUrl_compose hscheme _ hhost, hcut]
    · rw [compose, ← hcut, hhttps, H2.parseUrl_compose]

theorem cutUrl_eq_parsed_iff :
    cutUrl parts.scheme (parts.authority ++ parts.tail) = parts.parsed ↔
      splitAuthority (parts.authority ++ upTo 47 parts.tail) (schemePort parts.scheme) =
          (parts.host, parts.port.getD (schemePort parts.scheme)) ∧
        targetOf parts.tail = parts.parsed.target := by
  have htarget : targetOf (parts.authority ++ parts.tail) = targetOf parts.tail := by
    rw [targetOf, targetOf, onward_append noSlash_authority]
  rw [cutUrl, htarget, upTo_append noSlash_authority, parsed, ParsedUrl.mk.injEq, Prod.ext_iff]
  simp only [true_and, and_assoc]

/-- A fragment stays in the target. -/
theorem targetOf_tail_iff (h : upTo 47 parts.tail = []) :
    targetOf parts.tail = parts.parsed.target ↔ parts.fragment = none := by
  rcases parts.path_cases with hpath | ⟨segments, hpath⟩
  · obtain ⟨hquery, hfragment⟩ := (upTo_tail_eq_nil.mp h).resolve_left fun hne => hne hpath
    refine iff_of_true ?_ hfragment
    rw [targetOf, tail_of_noPath hpath, parsed, hpath, hquery, hfragment]
    rfl
  · have hne : parts.path ≠ [] := by
      rw [hpath]
      exact List.cons_ne_nil _ _
    have htail : parts.tail ≠ [] := fun hnil => hne (List.append_eq_nil_iff.mp hnil).1
    rw [targetOf, (tail_of_path hpath).2, if_neg htail, parsed]
    dsimp only
    rw [if_neg hne, tail, ← List.append_assoc, List.append_right_eq_self]
    exact announced_eq_nil

/-- All three parsers recover the parts of exactly the URLs that have no fragment, no query
without a path, and no IPv6 host without a port. -/
theorem recovered_iff (hscheme : parts.scheme = str "http" ∨ parts.scheme = str "https") :
    parts.Recovered ↔ parts.Separable := by
  rw [recovered_iff_cutUrl hscheme, cutUrl_eq_parsed_iff, splitAuthority_iff head_upTo_tail]
  constructor
  · rintro ⟨⟨hnil, hcolon⟩, htarget⟩
    refine ⟨(targetOf_tail_iff hnil).mp htarget, ?_, hcolon⟩
    exact (upTo_tail_eq_nil.mp hnil).imp_right And.left
  · rintro ⟨hfragment, hquery, hcolon⟩
    have hnil : upTo 47 parts.tail = [] :=
      upTo_tail_eq_nil.mpr (hquery.imp_right fun hnone => ⟨hnone, hfragment⟩)
    exact ⟨⟨hnil, hcolon⟩, (targetOf_tail_iff hnil).mpr hfragment⟩

/-- The loopback address of IPv6, without a port. -/
def loopback : UrlParts where
  scheme := str "http"
  host := str "[::1]"
  port := none
  path := []
  query := none
  fragment := none
  scheme_noColon := by decide
  host_isHost :=
    Or.inr ⟨str "::1", by decide, by decide, List.all_iff_forall_prop.mp (by decide)⟩
  port_isPort := nofun
  path_isPath := Or.inl rfl
  path_noMark := by decide
  query_noMark := nofun

/-- A page of a registered host. -/
def page : UrlParts where
  scheme := str "https"
  host := str "a.example"
  port := some (str "8443")
  path := str "/p:1"
  query := some (str "u=x://y/?")
  fragment := none
  scheme_noColon := by decide
  host_isHost := Or.inl ⟨by decide, List.all_iff_forall_prop.mp (by decide)⟩
  port_isPort := by
    rintro digits ⟨rfl⟩
    exact ⟨by decide, List.all_iff_forall_prop.mp (by decide)⟩
  path_isPath := Or.inr (by decide)
  path_noMark := by decide
  query_noMark := by rintro text ⟨rfl⟩; decide

theorem recovered_iff_page : page.Recovered :=
  (recovered_iff (Or.inr rfl)).mpr (by
    refine ⟨rfl, Or.inl ?_, Or.inl ?_⟩
    · decide
    · decide)

/-- The last colon of `http://[::1]` is taken for the one before a port. -/
theorem not_recovered_loopback : loopback.scheme = str "http" ∧ ¬ loopback.Recovered := by
  refine ⟨rfl, ?_⟩
  rintro ⟨hpolicy, -⟩
  have hsplit : Policy.parseUrl loopback.compose =
      .ok ⟨str "http", str "[:", str "1]", str "/"⟩ := by decide +kernel
  rw [hsplit] at hpolicy
  exact absurd hpolicy (by decide)

end UrlParts

end HttpClient
