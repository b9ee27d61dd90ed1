import HttpClient.Builder.FormBody
import HttpClient.Builder.Multipart
import HttpClient.ProxyCredentials
import HttpClient.Semantics.Multimap

/-!
# Building a request

The headers of a request are a list of lines, and so are those of a response. They stand for a
table that gives every name, up to case, the values of its lines. `set_header` puts a value into
it, `add_header` adds one and `remove_header` takes all values of a name out, as long as the name
has no colon: a line is read up to its first colon, so that a longer name is found by nobody, not
even by the next `set_header` that is to replace it.

The calls of the builder set headers, add lines as they are, or replace the body. What has been
built depends on the last call for each header and on the last body.

## Main definitions

* `fieldTable` — the table that header lines stand for
* `FieldUpdate` — what a request offers to change its headers
* `BuilderCall` — the calls of the builder

## Main results

* `fieldTable_iff` — when the lines follow the table, after every update
* `built_fields_iff` — when what has been built has the headers that the calls say
* `bodyView_built` — the body that has been built
-/

set_option autoImplicit false

namespace HttpClient

open Text Semantics

/-! ### Header lines as a table -/

/-- The values of all lines with the given name. -/
def headersNamed (headers : List Bytes) (name : Bytes) : List Bytes :=
  (headers.filter (lineNamed name)).map fun line => (splitHeaderView line).2

def Response.headersNamed (response : Response) (name : Bytes) : List Bytes :=
  HttpClient.headersNamed response.headers name

/-- The name that a line is found by. -/
def lineKey (line : Bytes) : Bytes := lowerCopy (splitHeaderView line).1

/-- The value that a line is read as. -/
def lineValue (line : Bytes) : Bytes := (splitHeaderView line).2

/-- The table that header lines stand for; its keys are names in lower case. -/
def fieldTable (headers : List Bytes) : Multimap Bytes Bytes :=
  .ofRecords lineKey lineValue headers

theorem lineNamed_eq (name line : Bytes) :
    lineNamed name line = decide (lineKey line = lowerCopy name) := by
  rw [lineNamed, headerNameEqual, lineKey]
  exact Bool.beq_eq_decide_eq _ _

theorem headersNamed_eq (headers : List Bytes) (name : Bytes) :
    headersNamed headers name = fieldTable headers (lowerCopy name) := by
  rw [headersNamed, funext (lineNamed_eq name)]
  rfl

/-- `header` reads the first of the values. -/
theorem headerValue_eq (headers : List Bytes) (name : Bytes) :
    headerValue name headers = (fieldTable headers (lowerCopy name)).head? := by
  rw [fieldTable, Multimap.head?_ofRecords, headerValue, funext (lineNamed_eq name)]
  rfl

/-- Nothing is found by a name with a colon. -/
theorem fieldTable_of_colon (headers : List Bytes) {name : Bytes} (hcolon : 58 ∈ name) :
    fieldTable headers (lowerCopy name) = [] := by
  refine Multimap.ofRecords_eq_nil _ _ _ fun line _ heq => ?_
  have hlower : 58 ∈ lowerCopy name := List.mem_map.mpr ⟨58, hcolon, by decide⟩
  rw [← heq] at hlower
  exact not_mem_lowerCopy (by decide) (noColon_splitHeaderView line) hlower

theorem headerLine_eq (name value : Bytes) : headerLine name value = name ++ 58 :: 32 :: value := by
  simp [headerLine, str]

theorem splitHeaderView_headerLine {name : Bytes} (hname : 58 ∉ name) (value : Bytes) :
    splitHeaderView (headerLine name value) = (name, trimLeft value) := by
  rw [headerLine_eq, splitHeaderView_append hname]
  rfl

/-! ### Updates -/

/-- What a request offers to change its headers. -/
inductive FieldUpdate where
  | setHeader (name value : Bytes)
  | addHeader (name value : Bytes)
  | addHeaderLine (line : Bytes)
  | removeHeader (name : Bytes)
  deriving DecidableEq, Repr

namespace FieldUpdate

def apply (request : Request) : FieldUpdate → Request
  | setHeader name value => request.setHeader name value
  | addHeader name value => request.addHeader name value
  | addHeaderLine line => request.addHeaderLine line
  | removeHeader name => request.removeHeader name

/-- What the update says about the table. White space in front of a value is not read. -/
def record (fields : Multimap Bytes Bytes) : FieldUpdate → Multimap Bytes Bytes
  | setHeader name value => fields.put (lowerCopy name) (trimLeft value)
  | addHeader name value => fields.add (lowerCopy name) (trimLeft value)
  | addHeaderLine line => fields.add (lineKey line) (lineValue line)
  | removeHeader name => fields.remove (lowerCopy name)

/-- The name under which the update inserts a value. -/
def inserted : FieldUpdate → Option Bytes
  | setHeader name _ => some name
  | addHeader name _ => some name
  | addHeaderLine _ => none
  | removeHeader _ => none

/-- The update inserts no value under a name with a colon. -/
def Plain (update : FieldUpdate) : Prop := ∀ name ∈ update.inserted, 58 ∉ name

end FieldUpdate

/-- The table agrees with the lines for every name, whatever its case. -/
def FollowsTable (headers : List Bytes) (fields : Multimap Bytes Bytes) : Prop :=
  ∀ name, headersNamed headers name = fields (lowerCopy name) ∧
    headerValue name headers = (fields (lowerCopy name)).head?

theorem followsTable_fieldTable (headers : List Bytes) :
    FollowsTable headers (fieldTable headers) := fun name =>
  ⟨headersNamed_eq headers name, headerValue_eq headers name⟩

/-- A table with a value under a name with a colon is not that of the lines. -/
theorem not_followsTable_of_colon {headers : List Bytes} {fields : Multimap Bytes Bytes}
    {name : Bytes} (hcolon : 58 ∈ name) (hvalue : fields (lowerCopy name) ≠ []) :
    ¬ FollowsTable headers fields := by
  intro h
  have hread := (h name).1
  rw [headersNamed_eq, fieldTable_of_colon headers hcolon] at hread
  exact hvalue hread.symm

theorem fieldTable_removeHeader (request : Request) (name : Bytes) :
    fieldTable (request.removeHeader name).headers =
      (fieldTable request.headers).remove (lowerCopy name) := by
  rw [fieldTable, fieldTable, ← Multimap.ofRecords_filter, Request.removeHeader]
  simp only [lineNamed_eq]

theorem fieldTable_addHeader (request : Request) {name : Bytes} (hname : 58 ∉ name)
    (value : Bytes) :
    fieldTable (request.addHeader name value).headers =
      (fieldTable request.headers).add (lowerCopy name) (trimLeft value) := by
  have hsplit := splitHeaderView_headerLine hname value
  rw [Request.addHeader, fieldTable, Multimap.ofRecords_concat, lineKey, lineValue, hsplit]
  rfl

theorem fieldTable_setHeader (request : Request) {name : Bytes} (hname : 58 ∉ name)
    (value : Bytes) :
    fieldTable (request.setHeader name value).headers =
      (fieldTable request.headers).put (lowerCopy name) (trimLeft value) := by
  rw [Request.setHeader, fieldTable_addHeader _ hname, fieldTable_removeHeader, Multimap.put_eq]

namespace FieldUpdate

theorem fieldTable_apply {update : FieldUpdate} (h : update.Plain) (request : Request) :
    fieldTable (update.apply request).headers = update.record (fieldTable request.headers) := by
  cases update with
  | setHeader name value => exact fieldTable_setHeader request (h name rfl) value
  | addHeader name value => exact fieldTable_addHeader request (h name rfl) value
  | addHeaderLine line => exact Multimap.ofRecords_concat lineKey lineValue request.headers line
  | removeHeader name => exact fieldTable_removeHeader request name

theorem record_inserted_ne_nil {update : FieldUpdate} {name : Bytes}
    (h : update.inserted = some name) (fields : Multimap Bytes Bytes) :
    update.record fields (lowerCopy name) ≠ [] := by
  cases update with
  | setHeader other value =>
    obtain rfl := Option.some.inj h
    rw [record, Multimap.put, Function.update_self]
    exact List.cons_ne_nil _ _
  | addHeader other value =>
    obtain rfl := Option.some.inj h
    rw [record, Multimap.add, Function.update_self]
    exact List.append_ne_nil_of_right_ne_nil _ (List.cons_ne_nil _ _)
  | addHeaderLine line => cases h
  | removeHeader other => cases h

end FieldUpdate

theorem fieldTable_foldl {updates : List FieldUpdate} (h : ∀ update ∈ updates, update.Plain)
    (request : Request) :
    fieldTable (updates.foldl FieldUpdate.apply request).headers =
      updates.foldl FieldUpdate.record (fieldTable request.headers) := by
  induction updates generalizing request with
  | nil => rfl
  | cons update updates ih =>
    rw [List.forall_mem_cons] at h
    rw [List.foldl_cons, List.foldl_cons, ih h.2, update.fieldTable_apply h.1]

/-- The header lines of a request follow the table after every update, if and only if nothing is
inserted under a name with a colon. -/
theorem fieldTable_iff (request : Request) (updates : List FieldUpdate) :
    (∀ update ∈ updates, update.Plain) ↔
      ∀ before after, updates = before ++ after →
        FollowsTable (before.foldl FieldUpdate.apply request).headers
          (before.foldl FieldUpdate.record (fieldTable request.headers)) := by
  constructor
  · rintro hplain before after rfl
    rw [← fieldTable_foldl (fun update hin => hplain update (List.mem_append_left _ hin)) request]
    exact followsTable_fieldTable _
  · intro hfollows
    induction updates generalizing request with
    | nil => exact fun update hin => absurd hin List.not_mem_nil
    | cons update updates ih =>
      -- the first update is plain, as the lines follow the table right after it
      have hplain : update.Plain := by
        intro name hname hcolon
        exact not_followsTable_of_colon hcolon (update.record_inserted_ne_nil hname _)
          (hfollows [update] updates rfl)
      have hrest := ih (update.apply request) fun before after heq => by
        have hlater := hfollows (update :: before) after (congrArg (update :: ·) heq)
        rwa [List.foldl_cons, List.foldl_cons, ← update.fieldTable_apply hplain request] at hlater
      exact List.forall_mem_cons.mpr ⟨hplain, hrest⟩

/-! ### The builder -/

/-- The calls of the builder. `multipart` is given the boundary that it makes. -/
inductive BuilderCall where
  | method (method : Bytes)
  | url (url : Bytes)
  | header (name value : Bytes)
  | headerLine (header : Bytes)
  | accept (value : Bytes)
  | contentType (value : Bytes)
  | queryParams (params : List Policy.QueryParam)
  | basicAuth (username password : Bytes)
  | bearerAuth (token : Bytes)
  | body (body : Bytes)
  | typedBody (body contentType : Bytes)
  | json (jsonText : Bytes)
  | formUrlencoded (fields : List Builder.FormField)
  | multipart (parts : List Builder.MultipartPart) (boundary : Bytes)
  | timeoutMs (timeoutMs : Int)
  | timeout (timeout : Timeout)
  | insecure (value : Bool)
  | noProxy (value : Bool)
  | proxy (proxyUrl : Bytes)
  | protocol (policy : ProtocolPolicy)
  | followRedirects (value : Bool)
  | maxRedirects (value : Int)
  | retries (maxRetries backoffMs : Int)
  | cookieJar (value : Bool)
  | autoDecompress (value : Bool)
  | onBodyChunk (handler : Bool)
  | streamResponse (handler storeBody : Bool)
  | storeResponse (body headers : Bool)

def Request.setContentType (request : Request) (value : Bytes) : Request :=
  request.setHeader (str "Content-Type") value

def Request.setAccept (request : Request) (value : Bytes) : Request :=
  request.setHeader (str "Accept") value

namespace BuilderCall

def apply (request : Request) : BuilderCall → Request
  | .method value => { request with method := value }
  | .url value => { request with url := value }
  | .header name value => request.setHeader name value
  | .headerLine line => request.addHeaderLine line
  | .accept value => request.setAccept value
  | .contentType value => request.setContentType value
  | .queryParams params => { request with url := Policy.appendQueryParams request.url params }
  | .basicAuth username password => request.basicAuth username password
  | .bearerAuth token => request.setHeader (str "Authorization") (str "Bearer " ++ token)
  | .body text => request.setBody text
  | .typedBody text type => (request.setBody text).setContentType type
  | .json text => (request.setBody text).setContentType (str "application/json")
  | .formUrlencoded fields =>
    (request.setBody (Builder.formUrlencode fields)).setContentType
      (str "application/x-www-form-urlencoded")
  | .multipart parts boundary =>
    (request.setBody (Builder.multipartFormDataBody parts boundary)).setContentType
      (str "multipart/form-data; boundary=" ++ boundary)
  | .timeoutMs ms => { request with timeoutMs := ms, timeout.totalMs := ms }
  | .timeout limits =>
    { request with
      timeout := limits
      timeoutMs := if 0 ≤ limits.totalMs then limits.totalMs else request.timeoutMs }
  | .insecure value => { request with verifyPeer := !value, verifyHost := !value }
  | .noProxy value =>
    if value then { request with disableProxy := true, proxy := none, proxyOverride := false }
    else { request with disableProxy := false }
  | .proxy proxyUrl =>
    { request with
      proxy := some { url := proxyUrl }
      disableProxy := false
      proxyOverride := true }
  | .protocol policy => { request with protocolPolicy := policy }
  | .followRedirects value => { request with followRedirects := some value }
  | .maxRedirects value => { request with maxRedirects := value }
  | .retries count backoffMs => { request with maxRetries := count, retryBackoffMs := backoffMs }
  | .cookieJar value => { request with useCookieJar := value }
  | .autoDecompress value => { request with autoDecompress := value }
  | .onBodyChunk handler => { request with onBodyChunk := handler }
  | .streamResponse handler storeBody =>
    { request with onBodyChunk := handler, storeResponseBody := storeBody }
  | .storeResponse storeBody storeHeaders =>
    { request with storeResponseBody := storeBody, storeResponseHeaders := storeHeaders }

/-- What the call does to the headers. -/
def update : BuilderCall → Option FieldUpdate
  | .header name value => some (.setHeader name value)
  | .headerLine line => some (.addHeaderLine line)
  | .accept value => some (.setHeader (str "Accept") value)
  | .contentType value => some (.setHeader (str "Content-Type") value)
  | .basicAuth username password =>
    some (.setHeader (str "Authorization") (basicAuthValue username password))
  | .bearerAuth token => some (.setHeader (str "Authorization") (str "Bearer " ++ token))
  | .typedBody _ type => some (.setHeader (str "Content-Type") type)
  | .json _ => some (.setHeader (str "Content-Type") (str "application/json"))
  | .formUrlencoded _ =>
    some (.setHeader (str "Content-Type") (str "application/x-www-form-urlencoded"))
  | .multipart _ boundary =>
    some (.setHeader (str "Content-Type") (str "multipart/form-data; boundary=" ++ boundary))
  | _ => none

def record (fields : Multimap Bytes Bytes) (call : BuilderCall) : Multimap Bytes Bytes :=
  call.update.toList.foldl FieldUpdate.record fields

/-- The call sets no header whose name has a colon. -/
def Plain (call : BuilderCall) : Prop := ∀ update ∈ call.update, update.Plain

/-- The body that the call sets. -/
def bodySet : BuilderCall → Option Bytes
  | .body text => some text
  | .typedBody text _ => some text
  | .json text => some text
  | .formUrlencoded fields => some (Builder.formUrlencode fields)
  | .multipart parts boundary => some (Builder.multipartFormDataBody parts boundary)
  | _ => none

end BuilderCall

/-- The request that a builder has after the calls. -/
def built (request : Request) (calls : List BuilderCall) : Request :=
  calls.foldl BuilderCall.apply request

namespace BuilderCall

/-- A call of the builder does to the headers what it says. -/
theorem headers_apply (call : BuilderCall) (request : Request) :
    (call.apply request).headers =
      (call.update.toList.foldl FieldUpdate.apply request).headers := by
  cases call with
  | noProxy value => cases value <;> rfl
  | _ => rfl

theorem bodyView_apply (call : BuilderCall) (request : Request) :
    (call.apply request).bodyView = call.bodySet.getD request.bodyView := by
  cases call with
  | noProxy value => cases value <;> rfl
  | body body => exact request.bodyView_setBody body
  | typedBody body contentType => exact request.bodyView_setBody body
  | json jsonText => exact request.bodyView_setBody jsonText
  | formUrlencoded fields => exact request.bodyView_setBody _
  | multipart parts boundary => exact request.bodyView_setBody _
  | _ => rfl

theorem fieldTable_apply {call : BuilderCall} (h : call.Plain) (request : Request) :
    fieldTable (call.apply request).headers = call.record (fieldTable request.headers) := by
  rw [headers_apply, record, fieldTable_foldl]
  exact fun update hin => h update (Option.mem_toList.mp hin)

/-- The builder takes no header away. -/
theorem record_ne_nil {fields : Multimap Bytes Bytes} {key : Bytes} (call : BuilderCall)
    (h : fields key ≠ []) : call.record fields key ≠ [] := by
  rw [record]
  cases hupdate : call.update with
  | none => exact h
  | some update =>
    cases update with
    | setHeader name value => exact Multimap.put_ne_nil _ _ h
    | addHeader name value => exact Multimap.add_ne_nil _ _ h
    | addHeaderLine line => exact Multimap.add_ne_nil _ _ h
    -- no call of the builder removes a header
    | removeHeader name => cases call <;> simp [update] at hupdate

end BuilderCall

theorem fieldTable_built {calls : List BuilderCall} (h : ∀ call ∈ calls, call.Plain)
    (request : Request) :
    fieldTable (built request calls).headers =
      calls.foldl BuilderCall.record (fieldTable request.headers) := by
  induction calls generalizing request with
  | nil => rfl
  | cons call calls ih =>
    rw [List.forall_mem_cons] at h
    rw [built, List.foldl_cons, List.foldl_cons, ← call.fieldTable_apply h.1]
    exact ih h.2 (call.apply request)

/-- What has been built has the headers that the calls say, if and only if no call sets a header
whose name has a colon. -/
theorem built_fields_iff (request : Request) (calls : List BuilderCall) :
    (∀ call ∈ calls, call.Plain) ↔
      FollowsTable (built request calls).headers
        (calls.foldl BuilderCall.record (fieldTable request.headers)) := by
  constructor
  · intro hplain
    rw [← fieldTable_built hplain]
    exact followsTable_fieldTable _
  · intro hfollows call hcall update hupdate name hname hcolon
    obtain ⟨before, after, rfl⟩ := List.append_of_mem hcall
    -- the value stays in the table, as no later call takes it away
    have hkept : ∀ (later : List BuilderCall) (fields : Multimap Bytes Bytes),
        fields (lowerCopy name) ≠ [] →
          later.foldl BuilderCall.record fields (lowerCopy name) ≠ [] := by
      intro later
      induction later with
      | nil => exact fun _ h => h
      | cons call later ih => exact fun fields h => ih _ (call.record_ne_nil h)
    refine not_followsTable_of_colon hcolon ?_ hfollows
    rw [List.foldl_append, List.foldl_cons]
    refine hkept after _ ?_
    rw [BuilderCall.record, Option.mem_def.mp hupdate]
    exact update.record_inserted_ne_nil hname _

/-- The last call that sets a body decides. -/
theorem bodyView_built (request : Request) (calls : List BuilderCall) :
    (built request calls).bodyView =
      (calls.filterMap BuilderCall.bodySet).getLast?.getD request.bodyView := by
  induction calls using List.reverseRecOn with
  | nil => rfl
  | append_singleton calls call ih =>
    have hlast : (built request (calls ++ [call])).bodyView =
        call.bodySet.getD (built request calls).bodyView := by
      rw [built, List.foldl_append]
      exact call.bodyView_apply _
    rw [hlast, ih, List.filterMap_append]
    cases hbody : call.bodySet with
    | none => simp [hbody]
    | some text => simp [hbody]

end HttpClient
