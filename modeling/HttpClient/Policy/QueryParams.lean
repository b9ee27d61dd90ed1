import HttpClient.Policy.Defaults
import HttpClient.Text.FormDecode
import HttpClient.UrlComposition

/-!
# Adding query parameters

Parameters are added to a URL before its fragment, after a `?`, or after a `&` where it has a
`?` already. Read back as form data, the query is the old one followed by the parameters; and
what stands before and after the query is left alone. But in a URL without any slash after
its authority, the client takes the query for a part of the authority.

## Main definitions

* `encodedParams` — the text of the parameters
* `queryText` — the query of a URL
* `ChangesOnlyQuery` — what adding parameters should do

## Main results

* `formText_urlencoded`, `formDecode_encodedParams` — parameters are read back
* `appendQueryParams_eq` — where they are put
* `changesOnlyQuery_iff` — the URLs of which only the query is changed
* `host_grows` — a URL without a path
-/

set_option autoImplicit false

namespace HttpClient.Policy

open Text

/-! ### Encoded texts -/

theorem escapedByte_hexDigit (c : UInt8) :
    escapedByte 37 (hexDigit (c >>> 4)) (hexDigit (c &&& 15)) = some c := by
  obtain ⟨hhigh, hlow⟩ :=
    forall_digit (fun n => hexValue (hexDigit n) = some n.toNat) (by decide) c
  rw [escapedByte, if_pos rfl, hhigh, hlow, toNat_highDigit, toNat_lowDigit]
  dsimp only
  rw [Nat.div_add_mod' c.toNat 16, Nat.toUInt8_eq, UInt8.ofNat_toNat]

theorem isUnreserved_plain {c : UInt8} (h : isUnreserved c = true) : c ≠ 43 ∧ c ≠ 37 := by
  constructor
  · rintro rfl
    exact absurd h (by decide)
  · rintro rfl
    exact absurd h (by decide)

/-- An encoded byte is read back, whatever follows. -/
theorem formText_urlencodeByte (c : UInt8) (rest : Bytes) :
    formText (urlencodeByte c ++ rest) = c :: formText rest := by
  rw [urlencodeByte]
  by_cases hplain : isUnreserved c = true
  · rw [if_pos hplain]
    exact formText_cons (isUnreserved_plain hplain).1 (isUnreserved_plain hplain).2 rest
  · rw [if_neg hplain]
    by_cases hblank : c = 32
    · rw [if_pos hblank, hblank]
      exact formText_plus rest
    · rw [if_neg hblank]
      obtain ⟨hhigh, hlow⟩ := isUnreserved_hexDigit c
      exact formText_escape (isUnreserved_plain hhigh).1 (isUnreserved_plain hlow).1
        (escapedByte_hexDigit c) rest

theorem formText_urlencoded (value : Bytes) : formText (urlencoded value) = value := by
  induction value with
  | nil => rfl
  | cons c value ih => rw [urlencoded, List.flatMap_cons, formText_urlencodeByte, ← urlencoded, ih]

/-! ### Encoded parameters -/

/-- One parameter as it is written. -/
def encodedParam (field : QueryParam) : Bytes :=
  urlencoded field.name ++ str "=" ++ urlencoded field.value

def encodedParams (params : List QueryParam) : Bytes :=
  (str "&").intercalate (params.map encodedParam)

theorem encodedParam_eq (field : QueryParam) :
    encodedParam field = urlencoded field.name ++ 61 :: urlencoded field.value := by
  rw [encodedParam, List.append_assoc]
  rfl

theorem encodedParam_plain {c : UInt8} (hc : c ∈ str "#&/?") (field : QueryParam) :
    c ∉ encodedParam field := by
  have hall : ∀ c ∈ str "#&/?", c ∈ str "#&/=?\r\n" ∧ c ≠ 61 :=
    List.all_iff_forall_prop.mp (by decide)
  have hbytes := hall c hc
  rw [encodedParam_eq, List.mem_append, List.mem_cons, not_or, not_or]
  exact ⟨urlencoded_plain hbytes.1 _, hbytes.2, urlencoded_plain hbytes.1 _⟩

theorem encodedParams_plain {c : UInt8} (hc : c ∈ str "#/?") (params : List QueryParam) :
    c ∉ encodedParams params := by
  have hall : ∀ c ∈ str "#/?", c ∈ str "#&/?" ∧ c ≠ 38 :=
    List.all_iff_forall_prop.mp (by decide)
  have hbytes := hall c hc
  refine not_mem_intercalate hbytes.2 fun piece hpiece => ?_
  obtain ⟨field, -, rfl⟩ := List.mem_map.mp hpiece
  exact encodedParam_plain hbytes.1 field

theorem formPair_encodedParam (field : QueryParam) :
    formPair (encodedParam field) = (field.name, field.value) := by
  rw [encodedParam_eq, formPair_append (urlencoded_plain (by decide) _), formText_urlencoded,
    formText_urlencoded]

/-- The parameters are read back in their order. -/
theorem formDecode_encodedParams (params : List QueryParam) :
    formDecode (encodedParams params) = params.map fun field => (field.name, field.value) := by
  have hplain : ∀ piece ∈ params.map encodedParam, 38 ∉ piece := by
    intro piece hpiece
    obtain ⟨field, -, rfl⟩ := List.mem_map.mp hpiece
    exact encodedParam_plain (by decide) field
  have hne : ∀ piece ∈ params.map encodedParam, piece ≠ [] := by
    intro piece hpiece
    obtain ⟨field, -, rfl⟩ := List.mem_map.mp hpiece
    rw [encodedParam_eq]
    exact List.append_ne_nil_of_right_ne_nil _ (List.cons_ne_nil _ _)
  have hread : formDecode (encodedParams params) = (params.map encodedParam).map formPair :=
    formDecode_intercalate hplain hne
  rw [hread, List.map_map]
  exact List.map_congr_left fun field _ => formPair_encodedParam field

/-! ### Where they are put -/

/-- The byte before the added parameters. -/
def queryMark (front : Bytes) : UInt8 := if 63 ∈ front then 38 else 63

/-- Parameters are put before the fragment. -/
theorem appendQueryParams_eq (url : Bytes) {params : List QueryParam} (hparams : params ≠ []) :
    appendQueryParams url params =
      upTo 35 url ++ queryMark (upTo 35 url) :: encodedParams params ++ onward 35 url := by
  have hmark : ∀ front : Bytes, (if (findByte 63 front).isNone = true then str "?" else str "&") =
      [queryMark front] := by
    intro front
    rw [queryMark]
    by_cases hmem : 63 ∈ front
    · rw [if_pos hmem, if_neg fun hnone => findByte_isNone_iff.mp hnone hmem]
      rfl
    · rw [if_neg hmem, if_pos (findByte_isNone_iff.mpr hmem)]
      rfl
  have hjoin : ∀ front suffix : Bytes,
      front ++ (if (findByte 63 front).isNone = true then str "?" else str "&") ++
          encodedParams params ++ suffix =
        front ++ queryMark front :: encodedParams params ++ suffix := by
    intro front suffix
    rw [hmark, List.append_assoc front, List.singleton_append]
  have hempty : params.isEmpty = false := by
    cases params with
    | nil => exact absurd rfl hparams
    | cons field more => rfl
  rw [appendQueryParams, hempty, if_neg Bool.false_ne_true]
  rcases findByte_cases 35 url with ⟨hmem, hnone⟩ | ⟨fragment, hsome, -, htake, hdrop⟩
  · rw [hnone, upTo_of_not_mem hmem, onward_of_not_mem hmem]
    exact hjoin url []
  · rw [hsome, ← htake, ← hdrop]
    exact hjoin (url.take fragment) (url.drop fragment)

/-- The query of a URL: what stands between the first `?` and the fragment. -/
def queryText (url : Bytes) : Bytes := (onward 63 (upTo 35 url)).drop 1

/-- Scheme, host and port are read as before, what stands before the query and the fragment
are the same, and the query has the pairs added. -/
structure ChangesOnlyQuery (url added : Bytes) (params : List QueryParam) : Prop where
  origin : ∃ before after, H1.parseUrl url = .ok before ∧ H1.parseUrl added = .ok after ∧
    after.scheme = before.scheme ∧ after.host = before.host ∧ after.port = before.port
  path : upTo 63 (upTo 35 added) = upTo 63 (upTo 35 url)
  fragment : onward 35 added = onward 35 url
  query : formDecode (queryText added) =
    formDecode (queryText url) ++ params.map fun field => (field.name, field.value)

variable {url : Bytes} {params : List QueryParam}

theorem queryMark_plain (front : Bytes) : queryMark front ∉ str "#/:" := by
  rw [queryMark]
  split
  · decide
  · decide

/-- A URL with parameters is cut at its fragment where the URL is. -/
theorem fragment_appendQueryParams (url : Bytes) (hparams : params ≠ []) :
    upTo 35 (appendQueryParams url params) =
        upTo 35 url ++ queryMark (upTo 35 url) :: encodedParams params ∧
      onward 35 (appendQueryParams url params) = onward 35 url := by
  have hmark : queryMark (upTo 35 url) ≠ 35 := by
    intro heq
    apply queryMark_plain (upTo 35 url)
    rw [heq]
    decide
  have hfront : 35 ∉ upTo 35 url ++ queryMark (upTo 35 url) :: encodedParams params := by
    rw [List.mem_append, List.mem_cons, not_or, not_or]
    exact ⟨not_mem_upTo 35 url, hmark.symm, encodedParams_plain (by decide) params⟩
  rw [appendQueryParams_eq url hparams, upTo_append hfront, onward_append hfront, upTo_onward,
    onward_onward, List.append_nil]
  exact ⟨rfl, rfl⟩

/-- The parameters come after the path, and after the query if there is one. -/
theorem query_appendQueryParams (front : Bytes) (params : List QueryParam) :
    upTo 63 (front ++ queryMark front :: encodedParams params) = upTo 63 front ∧
      formDecode ((onward 63 (front ++ queryMark front :: encodedParams params)).drop 1) =
        formDecode ((onward 63 front).drop 1) ++
          params.map fun field => (field.name, field.value) := by
  rw [queryMark, ← formDecode_encodedParams]
  by_cases hmem : 63 ∈ front
  · rw [if_pos hmem, upTo_append_of_mem hmem, onward_append_of_mem hmem]
    refine ⟨rfl, ?_⟩
    rcases onward_cases 63 front with ⟨hnone, -⟩ | ⟨query, hcons, -⟩
    · exact absurd hmem hnone
    · rw [hcons]
      exact formDecode_append query (encodedParams params)
  · rw [if_neg hmem, upTo_append_cons hmem, onward_append_cons hmem, upTo_of_not_mem hmem,
      onward_of_not_mem hmem]
    exact ⟨rfl, rfl⟩

/-! ### Where the authority ends -/

/-- What follows the scheme of a URL. -/
def afterScheme (url : Bytes) : Bytes := (onward 58 url).drop 3

theorem afterScheme_compose {scheme : Bytes} (h : 58 ∉ scheme) (rest : Bytes) :
    afterScheme (scheme ++ str "://" ++ rest) = rest := by
  have hmark : str "://" ++ rest = 58 :: 47 :: 47 :: rest := rfl
  rw [afterScheme, List.append_assoc, hmark, onward_append_cons h]
  rfl

/-- A slash before the fragment ends the authority of both URLs. -/
theorem upTo_slash_of_mem {rest : Bytes} (h : 47 ∈ upTo 35 rest) (more : Bytes) :
    upTo 47 (upTo 35 rest ++ more) = upTo 47 rest := by
  have hrest : upTo 47 (upTo 35 rest ++ onward 35 rest) = upTo 47 (upTo 35 rest) :=
    upTo_append_of_mem h _
  rw [upTo_append_onward] at hrest
  rw [upTo_append_of_mem h, hrest]

/-- Without one, the parameters become a part of the authority, and host and port are not the
same. -/
theorem splitAuthority_ne {rest : Bytes} (h : 47 ∉ upTo 35 rest) {mark : UInt8}
    (hmark : mark ∉ str "#/:") (params : List QueryParam) (port : Bytes) :
    splitAuthority (upTo 47 (upTo 35 rest ++ mark :: encodedParams params ++ onward 35 rest))
        port ≠
      splitAuthority (upTo 47 rest) port := by
  have hbytes : mark ≠ 35 ∧ mark ≠ 47 ∧ mark ≠ 58 := by
    refine ⟨?_, ?_, ?_⟩
    all_goals
      rintro rfl
      exact hmark (by decide)
  have hrest : upTo 47 rest = upTo 35 rest ++ upTo 47 (onward 35 rest) := by
    have hcut : upTo 47 (upTo 35 rest ++ onward 35 rest) = _ := upTo_append h _
    rwa [upTo_append_onward] at hcut
  have hadded : 47 ∉ upTo 35 rest ++ mark :: encodedParams params := by
    rw [List.mem_append, List.mem_cons, not_or, not_or]
    exact ⟨h, hbytes.2.1.symm, encodedParams_plain (by decide) params⟩
  rw [upTo_append hadded, hrest]
  intro heq
  rcases splitAuthority_eq heq with hsame | hlonger | hshorter
  · have hlength := congrArg List.length hsame
    simp only [List.length_append, List.length_cons] at hlength
    omega
  · have hlength := congrArg List.length hlonger
    simp only [List.length_append, List.length_cons] at hlength
    omega
  · -- the added text would begin with a colon or a `#`
    rw [List.append_assoc, List.append_assoc, List.append_cancel_left_eq, List.cons_append]
      at hshorter
    rcases onward_cases 35 rest with ⟨-, hnil⟩ | ⟨fragment, hcons, -⟩
    · rw [hnil, upTo_nil, List.nil_append, List.cons.injEq] at hshorter
      exact hbytes.2.2 hshorter.1
    · have hskip : 47 ∉ [(35 : UInt8)] := by decide
      have hcut : upTo 47 (35 :: fragment) = [35] ++ upTo 47 fragment := upTo_append hskip fragment
      rw [hcons, hcut, List.singleton_append, List.cons_append, List.cons.injEq] at hshorter
      exact hbytes.1 hshorter.1

/-- The authority is the same exactly if such a slash ends it. -/
theorem origin_appendQueryParams_iff {scheme rest : Bytes}
    (hscheme : scheme = str "http" ∨ scheme = str "https")
    (hhost : (cutUrl scheme rest).host ≠ []) (hparams : params ≠ []) :
    (∃ before after, H1.parseUrl (scheme ++ str "://" ++ rest) = .ok before ∧
        H1.parseUrl (appendQueryParams (scheme ++ str "://" ++ rest) params) = .ok after ∧
        after.scheme = before.scheme ∧ after.host = before.host ∧ after.port = before.port) ↔
      47 ∈ upTo 35 rest := by
  have hplain : 35 ∉ scheme ++ str "://" := by
    rcases hscheme with rfl | rfl
    · decide
    · decide
  have hmark := queryMark_plain (upTo 35 (scheme ++ str "://" ++ rest))
  rw [H1.parseUrl_compose hscheme rest hhost, appendQueryParams_eq _ hparams]
  generalize queryMark (upTo 35 (scheme ++ str "://" ++ rest)) = mark at hmark
  rw [upTo_append hplain, onward_append hplain, List.append_assoc, List.append_assoc,
    H1.parseUrl_eq hscheme]
  by_cases hslash : 47 ∈ upTo 35 rest
  · -- the slash ends the authority also of the new URL
    have hsame : upTo 47 (upTo 35 rest ++ (mark :: encodedParams params ++ onward 35 rest)) =
        upTo 47 rest := upTo_slash_of_mem hslash _
    refine iff_of_true ?_ hslash
    rw [cutUrl_congr scheme hsame, if_neg hhost]
    exact ⟨_, _, rfl, rfl, rfl, rfl, rfl⟩
  · refine iff_of_false ?_ hslash
    rintro ⟨before, after, hbefore, hafter, -, hsameHost, hsamePort⟩
    obtain rfl := Except.ok.inj hbefore
    split at hafter
    · cases hafter
    · obtain rfl := Except.ok.inj hafter
      apply splitAuthority_ne hslash hmark params (schemePort scheme)
      rw [List.append_assoc]
      exact Prod.ext hsameHost hsamePort

/-- Adding parameters changes only the query if there are none, or a slash stands between the
`://` and the fragment. -/
theorem changesOnlyQuery_iff {parsed : ParsedUrl} (h : H1.parseUrl url = .ok parsed)
    (params : List QueryParam) :
    ChangesOnlyQuery url (appendQueryParams url params) params ↔
      params = [] ∨ 47 ∈ upTo 35 (afterScheme url) := by
  by_cases hparams : params = []
  · rw [hparams]
    refine iff_of_true ⟨⟨parsed, parsed, h, h, rfl, rfl, rfl⟩, rfl, rfl, ?_⟩ (Or.inl rfl)
    exact (List.append_nil _).symm
  · rw [or_iff_right hparams]
    obtain ⟨scheme, rest, rfl, hscheme, rfl, hhost⟩ := H1.exists_compose_of_parseUrl h
    rw [afterScheme_compose (noColon_of_http hscheme), ← origin_appendQueryParams_iff hscheme hhost
      hparams]
    obtain ⟨hupTo, honward⟩ := fragment_appendQueryParams (scheme ++ str "://" ++ rest) hparams
    obtain ⟨hpath, hquery⟩ :=
      query_appendQueryParams (upTo 35 (scheme ++ str "://" ++ rest)) params
    rw [← hupTo] at hpath hquery
    exact ⟨fun hchanges => hchanges.origin, fun h => ⟨h, hpath, honward, hquery⟩⟩

theorem changesOnlyQuery_iff_search :
    ChangesOnlyQuery (str "http://a/s?x=1#f/?")
      (appendQueryParams (str "http://a/s?x=1#f/?") [⟨str "q", str "&#"⟩]) [⟨str "q", str "&#"⟩] :=
  (changesOnlyQuery_iff (show H1.parseUrl (str "http://a/s?x=1#f/?") =
    .ok ⟨str "http", str "a", str "80", str "/s?x=1#f/?"⟩ by decide +kernel) _).mpr
      (Or.inr (by decide))

/-- Without a path the parameter becomes a part of the host. -/
theorem host_grows :
    H1.parseUrl (str "http://a") = .ok ⟨str "http", str "a", str "80", str "/"⟩ ∧
      H1.parseUrl (appendQueryParams (str "http://a") [⟨str "q", str "1"⟩]) =
        .ok ⟨str "http", str "a?q=1", str "80", str "/"⟩ ∧
      ¬ ChangesOnlyQuery (str "http://a")
        (appendQueryParams (str "http://a") [⟨str "q", str "1"⟩]) [⟨str "q", str "1"⟩] := by
  have hbefore : H1.parseUrl (str "http://a") = .ok ⟨str "http", str "a", str "80", str "/"⟩ := by
    decide +kernel
  have hafter : H1.parseUrl (appendQueryParams (str "http://a") [⟨str "q", str "1"⟩]) =
      .ok ⟨str "http", str "a?q=1", str "80", str "/"⟩ := by
    decide +kernel
  refine ⟨hbefore, hafter, ?_⟩
  rintro ⟨⟨before, after, hb, ha, -, hhost, -⟩, -, -, -⟩
  rw [hbefore] at hb
  rw [hafter] at ha
  obtain rfl := Except.ok.inj hb
  obtain rfl := Except.ok.inj ha
  exact absurd hhost (by decide)

end HttpClient.Policy
