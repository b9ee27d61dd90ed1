import HttpClient.H1.Exchange
import HttpClient.Proxy
import HttpClient.Text.LineBreaks

/-!
# Line breaks in request heads

The head of a request is a block of lines, and the pieces of a request stand inside
its lines. If no piece contains a line break, none arises where the pieces meet: what
is written between them neither ends with CR nor begins with LF. The head then has one
line break for each of its lines, and one for the empty line.

The lines that a response head is split into contain no line break, whatever bytes the
peer has sent.

## Main definitions

* `UnbrokenRequest` — method, URL and header lines contain no line break
* `lightHead`, `lightLines` — the head that the exchange writes, and its lines

## Main results

* `unbroken_of_mem_headLines` — the lines of a response head
* `breaks_lightHead` — the head of an unbroken request
-/

set_option autoImplicit false

namespace HttpClient

open Text

/-- No piece of the request that goes into its head contains a line break. -/
structure UnbrokenRequest (request : Request) : Prop where
  method : Unbroken request.method
  url : Unbroken request.url
  headers : ∀ line ∈ request.headers, Unbroken line

/-! ### Header lines -/

theorem unbroken_splitHeaderView {line : Bytes} (h : Unbroken line) :
    Unbroken (splitHeaderView line).1 ∧ Unbroken (splitHeaderView line).2 := by
  rw [splitHeaderView]
  cases findByte 58 line with
  | none => exact ⟨h, unbroken_nil⟩
  | some pos => exact ⟨h.take pos, (h.drop (pos + 1)).trimLeft⟩

theorem unbroken_headerLine {name value : Bytes} (hname : Unbroken name)
    (hvalue : Unbroken value) : Unbroken (headerLine name value) := by
  have hsep : Unbroken (str ": ") := by decide
  refine (hname.append hsep (.right (by decide))).append hvalue (.left ?_)
  simp [str]

theorem unbroken_headerValue {name value : Bytes} {headers : List Bytes}
    (h : ∀ line ∈ headers, Unbroken line) (hvalue : headerValue name headers = some value) :
    Unbroken value := by
  obtain ⟨line, hline, rfl⟩ := Option.map_eq_some_iff.mp hvalue
  exact (unbroken_splitHeaderView (h line (List.mem_of_find?_eq_some hline))).2

theorem UnbrokenRequest.removeHeader {request : Request} (h : UnbrokenRequest request)
    (name : Bytes) : UnbrokenRequest (request.removeHeader name) :=
  ⟨h.method, h.url, fun line hline => h.headers line (Request.mem_removeHeader.mp hline).1⟩

theorem UnbrokenRequest.addHeaderLine {request : Request} (h : UnbrokenRequest request)
    {line : Bytes} (hline : Unbroken line) : UnbrokenRequest (request.addHeaderLine line) := by
  refine ⟨h.method, h.url, fun l hl => ?_⟩
  rcases List.mem_append.mp hl with hold | hnew
  · exact h.headers l hold
  · exact List.mem_singleton.mp hnew ▸ hline

theorem UnbrokenRequest.setHeader {request : Request} (h : UnbrokenRequest request)
    {name value : Bytes} (hname : Unbroken name) (hvalue : Unbroken value) :
    UnbrokenRequest (request.setHeader name value) :=
  (h.removeHeader name).addHeaderLine (unbroken_headerLine hname hvalue)

/-! ### Pieces of URLs -/

/-- The cuts of an unbroken URL; its target starts with a slash. -/
theorem unbroken_splitUrl {url scheme authority target : Bytes} (h : Unbroken url)
    (hcut : splitUrl url = .ok (scheme, authority, target)) :
    Unbroken scheme ∧ Unbroken authority ∧ Unbroken target ∧ target.head? = some 47 := by
  rw [splitUrl] at hcut
  cases hscheme : find (str "://") url with
  | none => simp [hscheme] at hcut
  | some schemeEnd =>
    simp only [hscheme] at hcut
    cases hpath : findByte 47 (url.drop (schemeEnd + 3)) with
    | none =>
      rw [hpath] at hcut
      cases hcut
      exact ⟨h.take _, h.drop _, by decide, by decide⟩
    | some pathStart =>
      rw [hpath] at hcut
      cases hcut
      refine ⟨h.take _, (h.drop _).take _, (h.drop _).drop _, ?_⟩
      rw [findByte_eq_some hpath]
      rfl

theorem unbroken_splitAuthority {authority defaultPort : Bytes} (h : Unbroken authority)
    (hport : Unbroken defaultPort) :
    Unbroken (splitAuthority authority defaultPort).1 ∧
      Unbroken (splitAuthority authority defaultPort).2 := by
  rw [splitAuthority]
  cases rfindByte 58 authority with
  | none => exact ⟨h, hport⟩
  | some colon => exact ⟨h.take _, h.drop _⟩

theorem unbroken_schemePort (scheme : Bytes) : Unbroken (schemePort scheme) := by
  rw [schemePort]
  split
  · decide
  · decide

/-- The parts of a URL without line breaks. -/
structure UnbrokenUrl (url : ParsedUrl) : Prop where
  scheme : Unbroken url.scheme
  host : Unbroken url.host
  port : Unbroken url.port
  target : Unbroken url.target
  target_head : url.target.head? = some 47

theorem unbrokenUrl_of_split {text scheme authority target : Bytes} (h : Unbroken text)
    (hcut : splitUrl text = .ok (scheme, authority, target)) :
    UnbrokenUrl
      { scheme, target
        host := (splitAuthority authority (schemePort scheme)).1
        port := (splitAuthority authority (schemePort scheme)).2 } := by
  obtain ⟨hscheme, hauthority, htarget, hhead⟩ := unbroken_splitUrl h hcut
  have haddress := unbroken_splitAuthority hauthority (unbroken_schemePort scheme)
  exact ⟨hscheme, haddress.1, haddress.2, htarget, hhead⟩

namespace H1

theorem unbroken_parseUrl {text : Bytes} {url : ParsedUrl} (h : Unbroken text)
    (hparse : parseUrl text = .ok url) : UnbrokenUrl url := by
  rw [parseUrl] at hparse
  cases hcut : splitUrl text with
  | error what => simp [hcut, bind, Except.bind] at hparse
  | ok parts =>
    obtain ⟨scheme, authority, target⟩ := parts
    simp only [hcut, bind, Except.bind] at hparse
    split at hparse
    · cases hparse
    · split at hparse
      · cases hparse
      · obtain rfl := Except.ok.inj hparse
        exact unbrokenUrl_of_split h hcut

/-! ### The lines of a response head -/

/-- Cutting into lines. The line being read is reversed, and it forms no line break with
the text that follows. -/
theorem unbroken_of_mem_linesAux {text line : Bytes} (current : Bytes)
    (hcurrent : Unbroken current.reverse) (hseam : Apart current.reverse text)
    (h : line ∈ linesAux current text) : Unbroken line := by
  induction current, text using linesAux.induct with
  | case1 current => simp [linesAux] at h
  | case2 current a => simp [linesAux] at h
  | case3 current a b text hbreak ih =>
    rw [linesAux, if_pos hbreak] at h
    rcases List.mem_cons.mp h with rfl | hmem
    · exact hcurrent
    · exact ih unbroken_nil (.left (by simp)) hmem
  | case4 current a b text hbreak ih =>
    rw [linesAux, if_neg hbreak] at h
    rw [List.reverse_cons] at ih
    refine ih (hcurrent.append rfl hseam) ?_ h
    by_cases ha : a = 13
    · exact .inr fun hb => hbreak ⟨ha, Option.some.inj hb⟩
    · refine .inl fun hlast => ha ?_
      simpa using hlast

/-- However a response head is split, its lines contain no line break. -/
theorem unbroken_of_mem_headLines {text line : Bytes} (h : line ∈ headLines text) :
    Unbroken line := by
  have hline : line ∈ linesAux [] text :=
    List.mem_of_mem_drop ((List.takeWhile_sublist _).mem h)
  exact unbroken_of_mem_linesAux [] unbroken_nil (.left (by simp)) hline

/-! ### The request head -/

def addProxyAuthorization (request : Request) (proxy : ProxySupport.EffectiveProxy) : Request :=
  if proxy.authorization ≠ [] ∧ (request.header (str "Proxy-Authorization")).isNone then
    request.setHeader (str "Proxy-Authorization") proxy.authorization
  else request

/-- Whether the request is sent to the proxy itself, and not through a tunnel. -/
def forwarded (url : ParsedUrl) (proxy : ProxySupport.EffectiveProxy) : Bool :=
  proxy.enabled && !url.tls && proxy.scheme != .socks5

/-- The head that is written for a request. -/
def lightHead (url : ParsedUrl) (proxy : ProxySupport.EffectiveProxy) (request : Request) : Bytes :=
  if forwarded url proxy then serializeHead url (addProxyAuthorization request proxy) true
  else serializeHead url request false

/-- The line of a header, unless the exchange writes that field itself. -/
def fieldLine (line : Bytes) : Option Bytes :=
  let (name, value) := splitHeaderView line
  if skipHeader name then none else some (name ++ str ": " ++ value)

/-- The request line and the header lines. -/
def requestLines (url : ParsedUrl) (request : Request) (absoluteTarget : Bool) : List Bytes :=
  [(if request.method = [] then str "GET" else request.method) ++ (str " " ++
      ((if absoluteTarget then absoluteUri url else url.target) ++ str " HTTP/1.1")),
    str "Host: " ++ url.host] ++
  (if hasHeader request (str "user-agent") then []
    else [str "User-Agent: httpclient-asio-light"]) ++
  (if hasHeader request (str "accept") then [] else [str "Accept: */*"]) ++
  request.headers.filterMap fieldLine ++
  (if request.bodyView = [] then []
    else [str "Content-Length: " ++ decimal request.bodyView.length]) ++
  [str "Connection: keep-alive"]

/-- The lines of the head that is written for a request. -/
def lightLines (url : ParsedUrl) (proxy : ProxySupport.EffectiveProxy) (request : Request) :
    List Bytes :=
  if forwarded url proxy then requestLines url (addProxyAuthorization request proxy) true
  else requestLines url request false

theorem renderLines_filterMap_fieldLine (headers : List Bytes) :
    renderLines (headers.filterMap fieldLine) = headers.flatMap headerField := by
  induction headers with
  | nil => rfl
  | cons line headers ih =>
    rw [List.flatMap_cons, ← ih, headerField]
    cases hfield : fieldLine line with
    | none =>
      rw [List.filterMap_cons_none hfield]
      have hskip : skipHeader (splitHeaderView line).1 = true := by
        rw [fieldLine] at hfield
        by_contra hskip
        simp [hskip] at hfield
      simp [hskip]
    | some text =>
      rw [List.filterMap_cons_some hfield]
      rw [fieldLine] at hfield
      by_cases hskip : skipHeader (splitHeaderView line).1 = true
      · simp [hskip] at hfield
      · simp only [hskip] at hfield ⊢
        obtain rfl := Option.some.inj hfield
        simp [str]

/-- The head is the block of its lines. -/
theorem serializeHead_eq (url : ParsedUrl) (request : Request) (absoluteTarget : Bool) :
    serializeHead url request absoluteTarget =
      renderLines (requestLines url request absoluteTarget) ++ crlf := by
  have hagent : ∀ text : Bytes,
      renderLines (if hasHeader request (str "user-agent") then [] else [text]) =
        if hasHeader request (str "user-agent") then [] else text ++ crlf := by
    intro text
    split <;> simp [renderLines, endLine]
  have haccept : ∀ text : Bytes,
      renderLines (if hasHeader request (str "accept") then [] else [text]) =
        if hasHeader request (str "accept") then [] else text ++ crlf := by
    intro text
    split <;> simp [renderLines, endLine]
  have hlength : ∀ text : Bytes,
      renderLines (if request.bodyView = [] then [] else [text]) =
        if request.bodyView = [] then [] else text ++ crlf := by
    intro text
    split <;> simp [renderLines, endLine]
  simp only [serializeHead, requestLines, renderLines_append, renderLines_filterMap_fieldLine,
    hagent, haccept, hlength]
  simp [renderLines, endLine, crlf, str]

theorem unbroken_absoluteUri {url : ParsedUrl} (h : UnbrokenUrl url) :
    Unbroken (absoluteUri url) := by
  have hsep : Unbroken (str "://") := by decide
  have hcolon : Unbroken (str ":") := by decide
  have hport : Unbroken (if url.port = schemePort url.scheme then [] else str ":" ++ url.port) := by
    split
    · exact unbroken_nil
    · exact hcolon.append h.port (.left (by decide))
  have hseam : Apart (url.scheme ++ str "://" ++ url.host)
      (if url.port = schemePort url.scheme then [] else str ":" ++ url.port) := by
    split
    · exact .right (by simp)
    · exact .right (by simp [str])
  have hscheme := h.scheme.append hsep (.right (by decide))
  have hhost := hscheme.append h.host (.left (by simp [str]))
  refine (hhost.append hport hseam).append h.target (.right ?_)
  rw [h.target_head]
  decide

/-- No line of the head contains a line break. -/
theorem unbroken_of_mem_requestLines {url : ParsedUrl} {request : Request}
    {absoluteTarget : Bool} {line : Bytes} (hmethod : Unbroken request.method)
    (hheaders : ∀ line ∈ request.headers, Unbroken line) (hurl : UnbrokenUrl url)
    (h : line ∈ requestLines url request absoluteTarget) : Unbroken line := by
  simp only [requestLines, List.mem_append, List.mem_cons, List.not_mem_nil, or_false] at h
  rcases h with (((((rfl | rfl) | hagent) | haccept) | hfield) | hlength) | rfl
  · have hverb : Unbroken (if request.method = [] then str "GET" else request.method) := by
      split
      · decide
      · exact hmethod
    have htarget : Unbroken (if absoluteTarget then absoluteUri url else url.target) := by
      split
      · exact unbroken_absoluteUri hurl
      · exact hurl.target
    have hversion : Unbroken (str " HTTP/1.1") := by decide
    have hspace : Unbroken (str " ") := by decide
    exact hverb.append (hspace.append (htarget.append hversion (.right (by decide)))
      (.left (by decide))) (.right (by simp [str]))
  · have hname : Unbroken (str "Host: ") := by decide
    exact hname.append hurl.host (.left (by decide))
  · split at hagent
    · exact absurd hagent List.not_mem_nil
    · obtain rfl := List.mem_singleton.mp hagent
      decide
  · split at haccept
    · exact absurd haccept List.not_mem_nil
    · obtain rfl := List.mem_singleton.mp haccept
      decide
  · obtain ⟨header, hheader, hread⟩ := List.mem_filterMap.mp hfield
    rw [fieldLine] at hread
    dsimp only at hread
    split at hread
    · cases hread
    · obtain rfl := Option.some.inj hread
      have hparts := unbroken_splitHeaderView (hheaders header hheader)
      exact unbroken_headerLine hparts.1 hparts.2
  · split at hlength
    · exact absurd hlength List.not_mem_nil
    · obtain rfl := List.mem_singleton.mp hlength
      have hname : Unbroken (str "Content-Length: ") := by decide
      have hdigits : IsLine (decimal request.bodyView.length) :=
        not_mem_of_digits isDigit_of_mem_decimal (by decide)
      exact hname.append hdigits.unbroken (.left (by decide))
  · decide

/-- A request without line breaks has a head with one for each line and one at its end. -/
theorem breaks_serializeHead {url : ParsedUrl} {request : Request} {absoluteTarget : Bool}
    (hmethod : Unbroken request.method) (hheaders : ∀ line ∈ request.headers, Unbroken line)
    (hurl : UnbrokenUrl url) :
    breaks (serializeHead url request absoluteTarget) =
      (requestLines url request absoluteTarget).length + 1 := by
  have hlines : ∀ line ∈ requestLines url request absoluteTarget, Unbroken line :=
    fun line hline => unbroken_of_mem_requestLines hmethod hheaders hurl hline
  rw [serializeHead_eq, breaks_append (.right (by decide)), breaks_renderLines hlines]
  rfl

/-- The text of base64 has neither CR nor LF. -/
theorem isLine_authorization {request : Request} {proxy : ProxySupport.EffectiveProxy}
    (h : ProxySupport.proxyForRequest request = .ok proxy) : IsLine proxy.authorization := by
  intro hmem
  rcases ProxySupport.mem_authorization h 13 hmem with hname | hletter
  · exact absurd hname (by decide)
  · exact absurd hletter (by decide)

/-- The head that is written for an unbroken request. -/
theorem breaks_lightHead {request : Request} {url : ParsedUrl}
    {proxy : ProxySupport.EffectiveProxy} (h : UnbrokenRequest request)
    (hurl : parseUrl request.url = .ok url)
    (hproxy : ProxySupport.proxyForRequest request = .ok proxy) :
    breaks (lightHead url proxy request) = (lightLines url proxy request).length + 1 := by
  have hparts := unbroken_parseUrl h.url hurl
  rw [lightHead, lightLines]
  split
  · have hname : Unbroken (str "Proxy-Authorization") := by decide
    have hsent : UnbrokenRequest (addProxyAuthorization request proxy) := by
      rw [addProxyAuthorization]
      split
      · exact h.setHeader hname (isLine_authorization hproxy).unbroken
      · exact h
    exact breaks_serializeHead hsent.method hsent.headers hparts
  · exact breaks_serializeHead h.method h.headers hparts

end H1

end HttpClient
