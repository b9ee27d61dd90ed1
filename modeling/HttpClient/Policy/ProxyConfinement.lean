import HttpClient.Authority
import HttpClient.H2.HeaderStorage
import HttpClient.Policy.HopCredentials

/-!
# Where proxy credentials go

A proxy URL may contain a user name and a password. An HTTP proxy is given them in a
`Proxy-Authorization` header, either of the request that opens a tunnel or of the request that
it is to forward. Whatever is sent in a tunnel, or on a direct connection, goes to the origin.

The header is put into the copy of the request that the transport has, on the branches that
send the request to the proxy itself. The policy loop keeps the request without it.

## Main definitions

* `establishHttpConnectTunnel` — the request that opens a tunnel
* `Way`, `deliveries` — what each transport sends, and to whom
* `Confined` — no `Proxy-Authorization` but to the proxy
* `Blind` — what is sent to the origin does not depend on the credentials

## Main results

* `deliveries_confined`, `deliveries_blind` — for one request
* `proxyCredentials_confined` — for every hop of every run
-/

set_option autoImplicit false

namespace HttpClient.Policy

open Text ProxySupport
open H1 (FieldTable addProxyAuthorization httpExchangeFields requestLines sentFields)

/-! ### What is sent -/

/-- Who reads what is sent. -/
inductive Peer where
  | proxy
  | origin
  deriving DecidableEq, Repr

/-- The request that opens a tunnel. -/
def establishHttpConnectTunnel (targetHost targetPort authorization : Bytes) : Bytes :=
  str "CONNECT " ++ targetHost ++ str ":" ++ targetPort ++ str " HTTP/1.1\r\nHost: " ++
    targetHost ++ str ":" ++ targetPort ++ str "\r\nProxy-Connection: keep-alive\r\n" ++
    (if authorization = [] then []
      else str "Proxy-Authorization: " ++ authorization ++ str "\r\n") ++
    str "\r\n"

def connectLines (targetHost targetPort authorization : Bytes) : List Bytes :=
  [str "CONNECT " ++ targetHost ++ str ":" ++ targetPort ++ str " HTTP/1.1",
    str "Host: " ++ targetHost ++ str ":" ++ targetPort, str "Proxy-Connection: keep-alive"] ++
  if authorization = [] then [] else [str "Proxy-Authorization: " ++ authorization]

/-- One message: of a SOCKS5 negotiation, the request for a tunnel, or a request by one of the
exchanges or on a stream of a session. A text is given by its lines. -/
inductive Message (F : Type) where
  | negotiation
  | tunnel (lines : List Bytes)
  | light (absoluteTarget : Bool) (lines : List Bytes)
  | buffered (absoluteTarget : Bool) (fields : F)
  | stream (fields : List (Bytes × Bytes))

structure Delivery (F : Type) where
  peer : Peer
  message : Message F

/-- Which transport a request is handed to: the pool of its origin, the connection of an actor,
a connection that is probed, or a session, which may be connected already. -/
inductive Way where
  | pooled
  | actor
  | probe
  | session (connected : Bool)
  deriving DecidableEq, Repr

section Transports

variable {F : Type} (table : FieldTable F)

/-- The value of a header of the message. -/
def Message.field (name : Bytes) : Message F → Option Bytes
  | negotiation => none
  | tunnel lines => headerValue name (lines.drop 1)
  | light _ lines => headerValue name (lines.drop 1)
  | buffered _ fields => table.value fields name
  | stream fields => fieldValue fields name

/-- A message that an HTTP proxy answers or forwards. -/
def Message.forProxy : Message F → Bool
  | negotiation => false
  | tunnel _ => true
  | light absoluteTarget _ => absoluteTarget
  | buffered absoluteTarget _ => absoluteTarget
  | stream _ => false

/-- The exchange that the options choose. -/
def exchange (useLightweightH1 : Bool) (url : ParsedUrl) (request : Request)
    (absoluteTarget : Bool) : Message F :=
  if useLightweightH1 then .light absoluteTarget (requestLines url request absoluteTarget)
  else .buffered absoluteTarget (httpExchangeFields table url request)

/-- What precedes a request in a tunnel. -/
def openTunnel (url : ParsedUrl) (proxy : EffectiveProxy) : Delivery F where
  peer := .proxy
  message :=
    if proxy.scheme = .socks5 then .negotiation
    else .tunnel (connectLines url.host url.port proxy.authorization)

def runPooledRequest (useLightweightH1 : Bool) (url : ParsedUrl) (request : Request) :
    Except Bytes (List (Delivery F)) := do
  let proxy ← proxyForRequest request
  if proxy.enabled then
    if url.tls then
      return [openTunnel url proxy, ⟨.origin, exchange table useLightweightH1 url request false⟩]
    else if proxy.scheme = .https then
      let request := addProxyAuthorization request proxy
      return [⟨.proxy, exchange table useLightweightH1 url request true⟩]
    else if proxy.scheme = .socks5 then
      return [openTunnel url proxy, ⟨.origin, exchange table useLightweightH1 url request false⟩]
    else
      let request := addProxyAuthorization request proxy
      return [⟨.proxy, exchange table useLightweightH1 url request true⟩]
  else return [⟨.origin, exchange table useLightweightH1 url request false⟩]

def submitOnSession (connected : Bool) (url : ParsedUrl) (request : Request) :
    Except Bytes (List (Delivery F)) := do
  let proxy ← proxyForRequest request
  let tunnel := if !connected && proxy.enabled then [openTunnel url proxy] else []
  return tunnel ++ [⟨.origin, .stream (H2.submitHeaders url request)⟩]

/-- What a transport sends for a request; an exception cuts the list short. The connections of an
actor and of a probe are direct. -/
def deliveries (useLightweightH1 : Bool) (url : ParsedUrl) (request : Request) :
    Way → Except Bytes (List (Delivery F))
  | .pooled => runPooledRequest table useLightweightH1 url request
  | .actor => .ok [⟨.origin, exchange table useLightweightH1 url request false⟩]
  | .probe => .ok [⟨.origin, exchange table useLightweightH1 url request false⟩]
  | .session connected => submitOnSession connected url request

/-! ### What is said of it -/

def proxyAuthorization : Bytes := str "Proxy-Authorization"

/-- Nothing that the origin reads has a `Proxy-Authorization`; what has one is a message to the
proxy, for a tunnel or with an absolute target. -/
structure Confined (sent : List (Delivery F)) : Prop where
  origin : ∀ delivery ∈ sent, delivery.peer = .origin →
    delivery.message.field table proxyAuthorization = none
  proxy : ∀ delivery ∈ sent, delivery.message.field table proxyAuthorization ≠ none →
    delivery.peer = .proxy ∧ delivery.message.forProxy = true

/-- What the origin reads. -/
def toOrigin (sent : List (Delivery F)) : List (Message F) :=
  (sent.filter fun delivery => delivery.peer = .origin).map Delivery.message

/-- Two proxies of the same kind, whatever their credentials. -/
def SameKind (proxy other : EffectiveProxy) : Prop :=
  proxy.enabled = other.enabled ∧ proxy.scheme = other.scheme

/-- With any other proxy URL of the same kind, the origin reads the same. -/
def Blind (useLightweightH1 : Bool) (url : ParsedUrl) (request : Request) (way : Way) : Prop :=
  ∀ (config : Option ProxyConfig) (proxy other : EffectiveProxy) (sent sent' : List (Delivery F)),
    proxyForRequest request = .ok proxy →
    proxyForRequest { request with proxy := config } = .ok other → SameKind proxy other →
    deliveries table useLightweightH1 url request way = .ok sent →
    deliveries table useLightweightH1 url { request with proxy := config } way = .ok sent' →
    toOrigin sent = toOrigin sent'

end Transports

/-! ### Requests without the header -/

section Fields

variable {F : Type} {table : FieldTable F} {stored : Bytes → Bytes} {url : ParsedUrl}
  {request : Request}

theorem not_named_of_linesNamed (hnone : linesNamed proxyAuthorization request = [])
    {header : Bytes} (hheader : header ∈ request.headers) :
    headerNameEqual (splitHeaderView header).1 proxyAuthorization = false := by
  cases hnamed : headerNameEqual (splitHeaderView header).1 proxyAuthorization with
  | false => rfl
  | true =>
    have hmem : header ∈ linesNamed proxyAuthorization request :=
      List.mem_filter.mpr ⟨hheader, hnamed⟩
    rw [hnone] at hmem
    exact absurd hmem List.not_mem_nil

theorem light_field (hnone : linesNamed proxyAuthorization request = []) (absoluteTarget : Bool) :
    headerValue proxyAuthorization ((requestLines url request absoluteTarget).drop 1) = none := by
  rw [headerValue, Option.map_eq_none_iff, List.find?_eq_none, H1.requestLines_eq,
    List.drop_succ_cons, List.drop_zero]
  intro line hline hnamed
  obtain ⟨field, hfield, rfl⟩ := List.mem_map.mp hline
  rw [H1.RequestField.line, lineNamed_append (H1.noColon_of_mem_sentFields field hfield)] at hnamed
  rcases H1.name_of_mem_sentFields hfield with hown | ⟨header, hheader, hname⟩
  · have hall : ([str "Host", str "User-Agent", str "Accept", str "Content-Length",
        str "Connection"].all fun name => !headerNameEqual name proxyAuthorization) = true := by
      decide
    have hother := List.all_eq_true.mp hall _ hown
    rw [hnamed] at hother
    cases hother
  · rw [hname, not_named_of_linesNamed hnone hheader] at hnamed
    cases hnamed

theorem buffered_field (hlaw : table.Lawful stored)
    (hempty : ∀ name, table.value table.empty name = none)
    (hnone : linesNamed proxyAuthorization request = []) :
    table.value (httpExchangeFields table url request) proxyAuthorization = none := by
  have hlength : headerNameEqual proxyAuthorization (str "Content-Length") = false := by decide
  have hcoding : headerNameEqual proxyAuthorization (str "Transfer-Encoding") = false := by decide
  have hagent : headerNameEqual (str "User-Agent") proxyAuthorization = false := by decide
  have hhost : headerNameEqual (str "Host") proxyAuthorization = false := by decide
  have hfilter : request.headers.filter (lineNamed proxyAuthorization) = [] := hnone
  rw [httpExchangeFields, hlaw.value_preparePayload _ _ _ hlength hcoding,
    H1.value_foldl_setHeaderField hlaw (by decide), hfilter]
  exact ((hlaw.value_set_other _ _ _ _ hagent).trans (hlaw.value_set_other _ _ _ _ hhost)).trans
    (hempty _)

theorem stream_field (hnone : linesNamed proxyAuthorization request = []) :
    fieldValue (H2.submitHeaders url request) proxyAuthorization = none := by
  rw [fieldValue, Option.map_eq_none_iff, List.find?_eq_none]
  have hall : ([str ":method", str ":scheme", str ":path", str ":authority", str "accept",
      str "content-length"].all fun name => !headerNameEqual name proxyAuthorization) = true := by
    decide
  simp only [List.all_cons, List.all_nil, Bool.and_eq_true, Bool.not_eq_true', and_true] at hall
  obtain ⟨hmethod, hscheme, hpath, hauthority, haccept, hlength⟩ := hall
  intro field hfield hnamed
  simp only [H2.submitHeaders, List.mem_append, List.mem_cons, List.not_mem_nil, or_false]
    at hfield
  rcases hfield with (((rfl | rfl | rfl | rfl) | hadded) | hadded) | hextra
  · exact Bool.eq_false_iff.mp hmethod hnamed
  · exact Bool.eq_false_iff.mp hscheme hnamed
  · exact Bool.eq_false_iff.mp hpath hnamed
  · exact Bool.eq_false_iff.mp hauthority hnamed
  · split at hadded
    · cases hadded
    · obtain rfl := List.mem_singleton.mp hadded
      exact Bool.eq_false_iff.mp haccept hnamed
  · split at hadded
    · cases hadded
    · obtain rfl := List.mem_singleton.mp hadded
      exact Bool.eq_false_iff.mp hlength hnamed
  · -- in lower case a name is named alike
    obtain ⟨header, hheader, hread⟩ := List.mem_filterMap.mp hextra
    rw [H2.extraHeader_eq] at hread
    split at hread
    · cases hread
    · obtain rfl := Option.some.inj hread
      rw [headerNameEqual, lowerCopy_lowerCopy] at hnamed
      exact Bool.eq_false_iff.mp (not_named_of_linesNamed hnone hheader) hnamed

/-- What an exchange sends for a request without the header has none. -/
theorem exchange_field (hlaw : table.Lawful stored)
    (hempty : ∀ name, table.value table.empty name = none)
    (hnone : linesNamed proxyAuthorization request = []) (useLightweightH1 absoluteTarget : Bool) :
    (exchange table useLightweightH1 url request absoluteTarget).field table proxyAuthorization =
      none := by
  cases useLightweightH1 with
  | true => exact light_field hnone absoluteTarget
  | false => exact buffered_field hlaw hempty hnone

end Fields

/-! ### One request -/

section Deliveries

variable {F : Type} {table : FieldTable F} {stored : Bytes → Bytes} {url : ParsedUrl}
  {request : Request} {sent : List (Delivery F)}

/-- What a transport sends to an origin. -/
def originMessage (table : FieldTable F) (useLightweightH1 : Bool) (url : ParsedUrl)
    (request : Request) (way : Way) : Message F :=
  match way with
  | .session _ => .stream (H2.submitHeaders url request)
  | _ => exchange table useLightweightH1 url request false

theorem originMessage_field (hlaw : table.Lawful stored)
    (hempty : ∀ name, table.value table.empty name = none)
    (hnone : linesNamed proxyAuthorization request = []) (useLightweightH1 : Bool) (way : Way) :
    (originMessage table useLightweightH1 url request way).field table proxyAuthorization =
      none := by
  cases way with
  | session connected => exact stream_field hnone
  | pooled => exact exchange_field hlaw hempty hnone useLightweightH1 false
  | actor => exact exchange_field hlaw hempty hnone useLightweightH1 false
  | probe => exact exchange_field hlaw hempty hnone useLightweightH1 false

/-- What is sent when the origin reads the request. -/
def Tunnelled (table : FieldTable F) (useLightweightH1 : Bool) (url : ParsedUrl)
    (request : Request) (way : Way) (sent : List (Delivery F)) : Prop :=
  sent = [⟨.origin, originMessage table useLightweightH1 url request way⟩] ∨
    ∃ proxy, sent = [openTunnel url proxy,
      ⟨.origin, originMessage table useLightweightH1 url request way⟩]

theorem runPooledRequest_cases {useLightweightH1 : Bool} {proxy : EffectiveProxy}
    (hproxy : proxyForRequest request = .ok proxy)
    (h : runPooledRequest table useLightweightH1 url request = .ok sent) :
    (H1.forwarded url proxy = false ∧
        Tunnelled table useLightweightH1 url request .pooled sent) ∨
      (H1.forwarded url proxy = true ∧ sent = [⟨.proxy,
        exchange table useLightweightH1 url (addProxyAuthorization request proxy) true⟩]) := by
  rw [runPooledRequest, hproxy] at h
  dsimp only [bind, Except.bind] at h
  split at h
  · rename_i henabled
    split at h
    · rename_i htls
      obtain rfl := Except.ok.inj h
      exact .inl ⟨by simp [H1.forwarded, htls], .inr ⟨proxy, rfl⟩⟩
    rename_i htls
    split at h
    · rename_i hscheme
      obtain rfl := Except.ok.inj h
      exact .inr ⟨by simp [H1.forwarded, henabled, htls, hscheme], rfl⟩
    split at h
    · rename_i hscheme
      obtain rfl := Except.ok.inj h
      exact .inl ⟨by simp [H1.forwarded, hscheme], .inr ⟨proxy, rfl⟩⟩
    · rename_i hscheme
      obtain rfl := Except.ok.inj h
      exact .inr ⟨by simp [H1.forwarded, henabled, htls, hscheme], rfl⟩
  · rename_i hdisabled
    obtain rfl := Except.ok.inj h
    exact .inl ⟨by simp [H1.forwarded, hdisabled], .inl rfl⟩

/-- On a stream of a session the origin reads the request, whatever the proxy is. -/
theorem submitOnSession_cases {useLightweightH1 connected : Bool}
    (h : submitOnSession connected url request = .ok sent) :
    Tunnelled table useLightweightH1 url request (.session connected) sent := by
  rw [submitOnSession] at h
  cases hproxy : proxyForRequest request with
  | error what =>
    rw [hproxy] at h
    cases h
  | ok proxy =>
    rw [hproxy] at h
    obtain rfl := Except.ok.inj h
    by_cases hopen : (!connected && proxy.enabled) = true
    · rw [if_pos hopen]
      exact .inr ⟨proxy, rfl⟩
    · rw [if_neg hopen]
      exact .inl rfl

/-- The request goes to the origin as it is, behind a message that opens a tunnel or none; or it
goes to the proxy, with the header. -/
theorem deliveries_cases {useLightweightH1 : Bool} {way : Way}
    (h : deliveries table useLightweightH1 url request way = .ok sent) :
    (Tunnelled table useLightweightH1 url request way sent ∧
        ∀ proxy, way = .pooled → proxyForRequest request = .ok proxy →
          H1.forwarded url proxy = false) ∨
      ∃ proxy, way = .pooled ∧ proxyForRequest request = .ok proxy ∧
        H1.forwarded url proxy = true ∧ sent = [⟨.proxy,
          exchange table useLightweightH1 url (addProxyAuthorization request proxy) true⟩] := by
  cases way with
  | actor => exact .inl ⟨.inl (Except.ok.inj h).symm, fun _ hway => by cases hway⟩
  | probe => exact .inl ⟨.inl (Except.ok.inj h).symm, fun _ hway => by cases hway⟩
  | session connected => exact .inl ⟨submitOnSession_cases h, fun _ hway => by cases hway⟩
  | pooled =>
    cases hproxy : proxyForRequest request with
    | error what =>
      rw [deliveries, runPooledRequest, hproxy] at h
      cases h
    | ok proxy =>
      rcases runPooledRequest_cases hproxy h with ⟨hdirect, htunnelled⟩ | ⟨hforwarded, hsent⟩
      · refine .inl ⟨htunnelled, fun other _ hother => ?_⟩
        rw [← Except.ok.inj hother]
        exact hdirect
      · exact .inr ⟨proxy, rfl, rfl, hforwarded, hsent⟩

/-- A message without the header may go to anyone. -/
theorem confined_cons_of_none {delivery : Delivery F}
    (hnone : delivery.message.field table proxyAuthorization = none) (h : Confined table sent) :
    Confined table (delivery :: sent) where
  origin other hother hpeer := by
    rcases List.mem_cons.mp hother with rfl | hrest
    · exact hnone
    · exact h.origin other hrest hpeer
  proxy other hother hfield := by
    rcases List.mem_cons.mp hother with rfl | hrest
    · exact absurd hnone hfield
    · exact h.proxy other hrest hfield

/-- A message that the proxy answers or forwards may have the header. -/
theorem confined_cons_of_proxy {delivery : Delivery F} (hpeer : delivery.peer = .proxy)
    (hforProxy : delivery.message.forProxy = true) (h : Confined table sent) :
    Confined table (delivery :: sent) where
  origin other hother horigin := by
    rcases List.mem_cons.mp hother with rfl | hrest
    · rw [hpeer] at horigin
      cases horigin
    · exact h.origin other hrest horigin
  proxy other hother hfield := by
    rcases List.mem_cons.mp hother with rfl | hrest
    · exact ⟨hpeer, hforProxy⟩
    · exact h.proxy other hrest hfield

theorem confined_nil : Confined table ([] : List (Delivery F)) where
  origin _ hmem := absurd hmem List.not_mem_nil
  proxy _ hmem := absurd hmem List.not_mem_nil

/-- The negotiation of SOCKS5 has no headers. -/
theorem confined_openTunnel (url : ParsedUrl) (proxy : EffectiveProxy)
    (h : Confined table sent) : Confined table (openTunnel url proxy :: sent) := by
  by_cases hscheme : proxy.scheme = .socks5
  · refine confined_cons_of_none ?_ h
    rw [openTunnel, if_pos hscheme]
    rfl
  · refine confined_cons_of_proxy rfl ?_ h
    rw [openTunnel, if_neg hscheme]
    rfl

/-- Credentials of the proxy stay with it, whichever transport sends the request. -/
theorem deliveries_confined (hlaw : table.Lawful stored)
    (hempty : ∀ name, table.value table.empty name = none)
    (hnone : linesNamed proxyAuthorization request = []) {useLightweightH1 : Bool} {way : Way}
    (h : deliveries table useLightweightH1 url request way = .ok sent) : Confined table sent := by
  have horigin : Confined table
      [⟨.origin, originMessage table useLightweightH1 url request way⟩] :=
    confined_cons_of_none (originMessage_field hlaw hempty hnone useLightweightH1 way)
      confined_nil
  rcases deliveries_cases h with ⟨rfl | ⟨proxy, rfl⟩, -⟩ | ⟨proxy, -, -, -, rfl⟩
  · exact horigin
  · exact confined_openTunnel url proxy horigin
  · refine confined_cons_of_proxy rfl ?_ confined_nil
    cases useLightweightH1 with
    | true => rfl
    | false => rfl

@[simp] theorem toOrigin_openTunnel (url : ParsedUrl) (proxy : EffectiveProxy) :
    toOrigin (openTunnel url proxy :: sent) = toOrigin sent := rfl

/-- Whether the origin reads the request is decided by the kind of the proxy. -/
theorem toOrigin_deliveries {useLightweightH1 : Bool} {way : Way} {proxy : EffectiveProxy}
    (hproxy : proxyForRequest request = .ok proxy)
    (h : deliveries table useLightweightH1 url request way = .ok sent) :
    toOrigin sent = if way = .pooled ∧ H1.forwarded url proxy then []
      else [originMessage table useLightweightH1 url request way] := by
  rcases deliveries_cases h with ⟨htunnelled, hdirect⟩ | ⟨other, hway, hother, hforwarded, rfl⟩
  · rw [if_neg fun hboth => Bool.eq_false_iff.mp (hdirect proxy hboth.1 hproxy) hboth.2]
    rcases htunnelled with rfl | ⟨opened, rfl⟩
    · rfl
    · rfl
  · obtain rfl := Except.ok.inj (hproxy.symm.trans hother)
    rw [if_pos ⟨hway, hforwarded⟩]
    rfl

/-- What a request sends to the origin does not depend on its proxy. -/
theorem originMessage_proxy (useLightweightH1 : Bool) (way : Way) (config : Option ProxyConfig) :
    originMessage table useLightweightH1 url { request with proxy := config } way =
      originMessage table useLightweightH1 url request way := rfl

theorem deliveries_blind (useLightweightH1 : Bool) (url : ParsedUrl) (request : Request)
    (way : Way) : Blind table useLightweightH1 url request way := by
  intro config proxy other sent sent' hproxy hother hkind hsent hsent'
  have hforwarded : H1.forwarded url proxy = H1.forwarded url other := by
    rw [H1.forwarded, H1.forwarded, hkind.1, hkind.2]
  rw [toOrigin_deliveries hproxy hsent, toOrigin_deliveries hother hsent', hforwarded,
    originMessage_proxy useLightweightH1 way config]

end Deliveries

/-- The request for a tunnel is its lines. -/
theorem establishHttpConnectTunnel_eq (targetHost targetPort authorization : Bytes) :
    establishHttpConnectTunnel targetHost targetPort authorization =
      renderLines (connectLines targetHost targetPort authorization) ++ crlf := by
  rw [establishHttpConnectTunnel, connectLines]
  split
  · simp [renderLines, endLine, crlf, str]
  · simp [renderLines, endLine, crlf, str]

/-! ### Every hop -/

section Runs

variable {ω τ : Type} {options : PolicyOptions} {externals : Externals ω τ} {request : Request}

theorem linesNamed_addHeaderLine {name line : Bytes} (hline : lineNamed name line = false)
    (request : Request) :
    linesNamed name (request.addHeaderLine line) = linesNamed name request := by
  simp [linesNamed, Request.addHeaderLine, List.filter_append, hline]

theorem linesNamed_setHeader {name other : Bytes} (value : Bytes)
    (hother : lowerCopy name ≠ lowerCopy other) (hcolon : 58 ∉ other) (request : Request) :
    linesNamed name (request.setHeader other value) = linesNamed name request := by
  have hline : lineNamed name (headerLine other value) = false := by
    have hspace : headerLine other value = other ++ 58 :: (32 :: value) := by
      simp [headerLine, str]
    rw [hspace, lineNamed_append hcolon, headerNameEqual, beq_eq_false_iff_ne]
    exact hother.symm
  exact (linesNamed_addHeaderLine hline _).trans (linesNamed_removeHeader hother request)

/-- Completing a request adds no line of a name that neither the default headers nor the hooks
bring. -/
theorem linesNamed_applySettings {name : Bytes}
    (hdefaults : ∀ line ∈ options.defaultHeaders, lineNamed name line = false)
    (haccept : lowerCopy name ≠ lowerCopy (str "Accept-Encoding")) (request : Request)
    (url : Bytes) :
    linesNamed name (applySettings options request url) = linesNamed name request := by
  have hadded : ∀ (lines : List Bytes) (sent : Request),
      (∀ line ∈ lines, lineNamed name line = false) →
        linesNamed name (lines.foldl applyDefaultHeader sent) = linesNamed name sent := by
    intro lines
    induction lines with
    | nil => exact fun _ _ => rfl
    | cons line lines ih =>
      intro sent hlines
      have hline := linesNamed_addHeaderLine (hlines line List.mem_cons_self) sent
      rw [List.foldl_cons, ih _ fun other hother => hlines other (List.mem_cons_of_mem _ hother),
        applyDefaultHeader]
      split
      · exact hline
      · split
        · exact hline
        · rfl
  have hfirst : linesNamed name (applyAutoDecompress options
      (applyTimeout options { request with url })) = linesNamed name request := by
    obtain ⟨timeout, timeoutMs, htimeout⟩ := applyTimeout_eq options { request with url }
    rw [applyAutoDecompress, htimeout]
    split
    · rfl
    · rfl
  have hdefault := (hadded _ (applyAutoDecompress options
    (applyTimeout options { request with url })) hdefaults).trans hfirst
  rw [applySettings, applyAcceptEncoding]
  split
  · exact (linesNamed_setHeader _ haccept (by decide) _).trans hdefault
  · exact hdefault

/-- What a caller may set without supplying the header. -/
structure SuppliesNone (options : PolicyOptions) (request : Request) : Prop where
  request : linesNamed proxyAuthorization request = []
  defaults : ∀ line ∈ options.defaultHeaders, lineNamed proxyAuthorization line = false
  hooks : ∀ hook ∈ options.requestHooks, ∀ current hooked, hook current = .ok hooked →
    linesNamed proxyAuthorization current = [] → linesNamed proxyAuthorization hooked = []

theorem SuppliesNone.completed (h : SuppliesNone options request)
    {getenv : Bytes → Option Bytes} {completed : Request}
    (hcompleted : applyDefaults options getenv request = .ok completed) :
    linesNamed proxyAuthorization completed = [] := by
  rw [applyDefaults_eq] at hcompleted
  cases hurl : resolveBaseUrl options.baseUrl request.url with
  | error what =>
    rw [hurl] at hcompleted
    cases hcompleted
  | ok url =>
    rw [hurl, Except.bind] at hcompleted
    cases hproxy : applyProxy options getenv (applySettings options request url) with
    | error what =>
      rw [hproxy] at hcompleted
      cases hcompleted
    | ok proxied =>
      rw [hproxy] at hcompleted
      obtain ⟨proxy, proxyOverride, rfl⟩ := applyProxy_ok hproxy
      have hproxied : linesNamed proxyAuthorization
          { applySettings options request url with proxy, proxyOverride } = [] :=
        (linesNamed_applySettings h.defaults (by decide) request url).trans h.request
      exact foldlM_hooks (P := fun sent => linesNamed proxyAuthorization sent = []) h.hooks
        hproxied hcompleted

/-- Neither the cookies of the jar nor a redirect brings the header. -/
theorem hopInvariant_suppliesNone (options : PolicyOptions) (externals : Externals ω τ) :
    HopInvariant options externals (fun _ => True)
      (fun sent => linesNamed proxyAuthorization sent = []) (fun _ => True) := by
  refine HopInvariant.ofRequests (fun current cookie _ h => ?_) fun sent status location next h
    hnext => ?_
  · rw [linesNamed_setHeader cookie (by decide) (by decide), h]
  · rw [(redirected_linesNamed (by decide) (by decide) hnext).1, h]

/-- Unless the caller supplies the header, what any hop of any try sends confines the
credentials of its proxy, and what the origin reads of it does not depend on them. -/
theorem proxyCredentials_confined {F : Type} {table : FieldTable F} {stored : Bytes → Bytes}
    (hlaw : table.Lawful stored) (hempty : ∀ name, table.value table.empty name = none)
    (hnone : SuppliesNone options request) (around : Around ω) :
    EveryHop (fun sent => ∀ (useLightweightH1 : Bool) (url : ParsedUrl) (way : Way),
        (∀ all, deliveries table useLightweightH1 url sent way = .ok all → Confined table all) ∧
          Blind table useLightweightH1 url sent way)
      ((requestWithHttpxPolicy options externals request).outcome { around }).2.tries := by
  have hhops : EveryHop (fun sent => linesNamed proxyAuthorization sent = [])
      ((requestWithHttpxPolicy options externals request).outcome { around }).2.tries :=
    (hopInvariant_suppliesNone options externals).hops trivial (everyHop_nil _)
      fun _ hcompleted => hnone.completed hcompleted
  intro hops hmem hop hhop useLightweightH1 url way
  refine ⟨fun all hall => ?_, deliveries_blind useLightweightH1 url hop.request way⟩
  exact deliveries_confined hlaw hempty (hhops hops hmem hop hhop) hall

end Runs

/-- Who is sent which `Proxy-Authorization` for a request that the pool sends. -/
def credentialsSent (request : Request) : List (Peer × Option Bytes) :=
  match (H1.parseUrl request.url).bind fun url =>
    deliveries fieldList true url request .pooled with
  | .error _ => []
  | .ok sent => sent.map fun delivery =>
      (delivery.peer, delivery.message.field fieldList proxyAuthorization)

/-- A request by way of a proxy that asks for credentials. -/
def withProxy : Request :=
  { url := str "https://a.example/", proxy := some { url := str "http://u:p@proxy.example" } }

/-- The proxy is given credentials for the tunnel to the first host, and again for the request
that it is to forward to the second; neither host reads them. They are what is read in place of
those of the URL: the user `pro`, without a password. -/
theorem proxyCredentials_confined_redirect :
    EveryHop (fun sent => ∀ (useLightweightH1 : Bool) (url : ParsedUrl) (way : Way),
        (∀ all, deliveries fieldList useLightweightH1 url sent way = .ok all →
          Confined fieldList all) ∧ Blind fieldList useLightweightH1 url sent way)
      ((requestWithHttpxPolicy { followRedirects := true }
        (redirectsTo (str "http://b.example/")) withProxy).outcome
          { around := { rest := () } }).2.tries ∧
    ((requestWithHttpxPolicy { followRedirects := true }
        (redirectsTo (str "http://b.example/")) withProxy).outcome
          { around := { rest := () } }).2.tries.map
        (List.map fun hop => credentialsSent hop.request) =
      [[[(.proxy, some (str "Basic cHJvOg=="))],
        [(.proxy, some (str "Basic cHJvOg==")), (.origin, none)]]] := by
  constructor
  · refine proxyCredentials_confined fieldList_lawful (fun _ => rfl) ?_ _
    exact ⟨rfl, fun _ h => absurd h List.not_mem_nil, fun _ h => absurd h List.not_mem_nil⟩
  · decide +kernel

end HttpClient.Policy
