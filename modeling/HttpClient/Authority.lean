import HttpClient.H1.BufferedExchange
import HttpClient.H1.WrittenRequest
import HttpClient.H2.HeaderBlock

/-!
# The authority that is sent

A request names the authority of its URL in a `Host` header or in the pseudo-header
`:authority`. There it should be what the absolute form of the URL has: the host, and the port
unless it is the scheme's own. The absolute form is written with the port; all other writers
write the host alone.

## Main definitions

* `authority` — what the absolute form has between scheme and target
* `AuthoritySent` — the three writers send it

## Main results

* `absoluteUri_eq` — the absolute form is put together from scheme, authority and target
* `hostLines_requestLines` — the only `Host` line of the lightweight exchange
* `authoritySent_iff` — the URLs whose authority is sent
* `port_left_out` — a URL with a port
-/

set_option autoImplicit false

namespace HttpClient

open Text

/-- The authority in the absolute form of a URL. -/
def authority (url : ParsedUrl) : Bytes :=
  url.host ++ if url.port = schemePort url.scheme then [] else str ":" ++ url.port

theorem absoluteUri_eq (url : ParsedUrl) :
    H1.absoluteUri url = url.scheme ++ str "://" ++ authority url ++ url.target := by
  rw [H1.absoluteUri, authority, ← List.append_assoc]

/-- The host by itself is the authority if the port is the scheme's own. -/
theorem authority_eq_host_iff (url : ParsedUrl) :
    authority url = url.host ↔ url.port = schemePort url.scheme := by
  rw [authority, List.append_right_eq_self]
  split
  · rename_i hdefault
    exact iff_of_true rfl hdefault
  · rename_i hother
    exact iff_of_false (List.cons_ne_nil _ _) hother

/-! ### The lightweight exchange -/

/-- The `Host` lines of a head, without the request line. -/
def hostLines (lines : List Bytes) : List Bytes := (lines.drop 1).filter (lineNamed (str "Host"))

/-- Whatever headers the request has, the head has one `Host` line. -/
theorem hostLines_requestLines (url : ParsedUrl) (request : Request) (absoluteTarget : Bool) :
    hostLines (H1.requestLines url request absoluteTarget) = [str "Host: " ++ url.host] := by
  have hnamed : ∀ field ∈ H1.sentFields url request,
      (lineNamed (str "Host") ∘ H1.RequestField.line) field =
        headerNameEqual field.name (str "Host") := by
    intro field hfield
    exact lineNamed_append (H1.noColon_of_mem_sentFields field hfield) field.text (str "Host")
  rw [hostLines, H1.requestLines_eq, List.drop_succ_cons, List.drop_zero, List.filter_map,
    List.filter_congr hnamed]
  have hfields := (H1.named_sentFields url request).1
  rw [H1.fieldsNamed] at hfields
  rw [hfields]
  rfl

/-! ### All writers -/

section Sent

variable {F : Type} {table : H1.FieldTable F} {stored : Bytes → Bytes}

/-- Both exchanges of HTTP/1.1, and HTTP/2 for `https`, send the authority of the URL. -/
structure AuthoritySent (table : H1.FieldTable F) (text : Bytes) (url : ParsedUrl)
    (request : Request) : Prop where
  light : ∀ absoluteTarget, hostLines (H1.requestLines url request absoluteTarget) =
    [str "Host: " ++ authority url]
  buffered : table.value (H1.httpExchangeFields table url request) (str "Host") =
    some (authority url)
  h2 : ∀ url', H2.parseUrl text = .ok url' →
    (H2.submitHeaders url' request).filter (fun field => field.1 = str ":authority") =
      [(str ":authority", authority url)]

/-- A URL that both clients accept is the same for both. -/
theorem H2.parseUrl_unique {text : Bytes} {url url' : ParsedUrl} (h : H1.parseUrl text = .ok url)
    (h' : H2.parseUrl text = .ok url') : url' = url := by
  obtain ⟨scheme, rest, rfl, hscheme, rfl, -⟩ := H1.exists_compose_of_parseUrl h
  rcases hscheme with rfl | rfl
  · rw [H2.parseUrl, splitUrl_compose (by decide)] at h'
    cases h'
  · rw [H2.parseUrl_compose] at h'
    exact (Except.ok.inj h').symm

/-- The authority is sent exactly if the port is the scheme's own, and the last `Host` header
of the request, if there is one, has the host of the URL. -/
theorem authoritySent_iff (h : table.Lawful stored) {text : Bytes} {url : ParsedUrl}
    (hurl : H1.parseUrl text = .ok url) (request : Request) :
    AuthoritySent table text url request ↔
      url.port = schemePort url.scheme ∧ stored (H1.requestedHost url request) = url.host := by
  rw [← authority_eq_host_iff]
  constructor
  · -- the lightweight exchange decides on the port, the buffered one on the header lines
    intro hsent
    have hhost := hsent.light false
    rw [hostLines_requestLines, List.singleton_inj, List.append_cancel_left_eq] at hhost
    have hbuffered := hsent.buffered
    rw [H1.value_httpExchangeFields_host h, Option.some.injEq] at hbuffered
    exact ⟨hhost.symm, hbuffered.trans hhost.symm⟩
  · rintro ⟨hhost, hstored⟩
    refine ⟨fun absoluteTarget => ?_, ?_, fun url' hurl' => ?_⟩
    · rw [hostLines_requestLines, hhost]
    · rw [H1.value_httpExchangeFields_host h, hstored, hhost]
    · rw [H2.parseUrl_unique hurl hurl', H2.submitHeaders_authority, hhost]

end Sent

/-- Put a field into a list, in place of those of its name. -/
def putField (fields : List (Bytes × Bytes)) (name value : Bytes) : List (Bytes × Bytes) :=
  fields.filter (fun field => !headerNameEqual field.1 name) ++ [(name, value)]

/-- The value of a name in a list of fields. -/
def fieldValue (fields : List (Bytes × Bytes)) (name : Bytes) : Option Bytes :=
  (fields.find? fun field => headerNameEqual field.1 name).map fun field => field.2

theorem fieldValue_put_same (fields : List (Bytes × Bytes)) {name other : Bytes} (value : Bytes)
    (h : headerNameEqual name other = true) :
    fieldValue (putField fields name value) other = some value := by
  have hnone : (fields.filter fun field => !headerNameEqual field.1 name).find?
      (fun field => headerNameEqual field.1 other) = none := by
    rw [List.find?_eq_none]
    -- a field that is left has another name than the one that is put
    intro field hfield hother
    have hkept := (List.mem_filter.mp hfield).2
    rw [headerNameEqual, beq_iff_eq] at h hother
    rw [headerNameEqual, hother, h] at hkept
    simp at hkept
  rw [fieldValue, putField, List.find?_append, hnone, Option.none_or, List.find?_singleton,
    if_pos h, Option.map_some]

theorem fieldValue_put_other (fields : List (Bytes × Bytes)) {name other : Bytes} (value : Bytes)
    (h : headerNameEqual name other = false) :
    fieldValue (putField fields name value) other = fieldValue fields other := by
  have hfilter : (fields.filter fun field => !headerNameEqual field.1 name).find?
      (fun field => headerNameEqual field.1 other) =
        fields.find? fun field => headerNameEqual field.1 other := by
    rw [List.find?_filter]
    congr 1
    funext field
    cases hother : headerNameEqual field.1 other with
    | false => simp
    | true =>
      -- a field of the other name is not one of this name
      have hdifferent : headerNameEqual field.1 name = false := by
        rw [headerNameEqual, beq_iff_eq] at hother
        rw [Bool.eq_false_iff]
        intro hsame
        rw [headerNameEqual, beq_iff_eq] at hsame
        rw [headerNameEqual, ← hsame, hother, beq_self_eq_true] at h
        cases h
      simp [hdifferent]
  have hput : ¬ headerNameEqual name other = true := by rw [h]; exact Bool.false_ne_true
  rw [fieldValue, fieldValue, putField, List.find?_append, hfilter, List.find?_singleton,
    if_neg hput, Option.or_none]

/-- A container that keeps its fields in a list, and the blanks around a value out of it. -/
def fieldList : H1.FieldTable (List (Bytes × Bytes)) where
  empty := []
  set fields name value := putField fields name (trim value)
  preparePayload fields body :=
    if body = [] then fields else putField fields (str "Content-Length") (decimal body.length)
  value := fieldValue

theorem fieldList_lawful : fieldList.Lawful trim where
  value_set_same fields _ _ value h := fieldValue_put_same fields (trim value) h
  value_set_other fields _ _ value h := fieldValue_put_other fields (trim value) h
  value_preparePayload fields body name hlength _ := by
    rw [fieldList]
    dsimp only
    split
    · rfl
    · refine fieldValue_put_other fields _ ?_
      rw [Bool.eq_false_iff, headerNameEqual, Ne, beq_iff_eq] at hlength ⊢
      exact fun heq => hlength heq.symm

theorem authoritySent_iff_defaultPort :
    AuthoritySent fieldList (str "https://a.example:443/")
      ⟨str "https", str "a.example", str "443", str "/"⟩ {} := by
  have hurl : H1.parseUrl (str "https://a.example:443/") =
      .ok ⟨str "https", str "a.example", str "443", str "/"⟩ := by
    decide +kernel
  exact (authoritySent_iff fieldList_lawful hurl {}).mpr (by decide +kernel)

/-- The port of a URL is in its absolute form only. -/
theorem port_left_out :
    H1.parseUrl (str "http://a.example:8080/") =
        .ok ⟨str "http", str "a.example", str "8080", str "/"⟩ ∧
      authority ⟨str "http", str "a.example", str "8080", str "/"⟩ = str "a.example:8080" ∧
      hostLines (H1.requestLines ⟨str "http", str "a.example", str "8080", str "/"⟩ {} false) =
        [str "Host: a.example"] ∧
      ¬ AuthoritySent fieldList (str "http://a.example:8080/")
        ⟨str "http", str "a.example", str "8080", str "/"⟩ {} := by
  refine ⟨by decide +kernel, by decide +kernel, hostLines_requestLines _ _ _, fun hsent => ?_⟩
  have hhost := hsent.light false
  rw [hostLines_requestLines] at hhost
  exact absurd hhost (by decide +kernel)

end HttpClient
