import HttpClient.Request
import HttpClient.Url

/-!
# The header block of an HTTP/2 request

`submit_stream` hands the session a list of fields: four pseudo-headers, an `accept` unless
the request has one, the length of the body, and the request's own headers with their names
in lower case. Headers that HTTP/2 does not know, or that are written already, are left out.

Here the fields are a list; the storage that it is put together in comes on top.

## Main definitions

* `skipHeader` — the headers that are left out
* `submitHeaders` — the list of fields

## Main results

* `submitHeaders_authority` — the authority stands in the list once
-/

set_option autoImplicit false

namespace HttpClient.H2

open Text

def skipHeader (name : Bytes) : Bool :=
  name == [] || name.head? == some 58 || headerNameEqual name (str "host") ||
    headerNameEqual name (str "connection") || headerNameEqual name (str "keep-alive") ||
    headerNameEqual name (str "proxy-connection") ||
    headerNameEqual name (str "transfer-encoding") || headerNameEqual name (str "upgrade") ||
    headerNameEqual name (str "content-length")

def hasUppercaseAscii (value : Bytes) : Bool := value.any fun c => 65 ≤ c && c ≤ 90

/-- The field for a header of the request. -/
def extraHeader (header : Bytes) : Option (Bytes × Bytes) :=
  let (name, value) := splitHeaderView header
  if skipHeader name then none
  else some (if hasUppercaseAscii name then lowerCopy name else name, value)

def hasAccept (request : Request) : Bool :=
  request.headers.any fun header =>
    !skipHeader (splitHeaderView header).1 &&
      headerNameEqual (splitHeaderView header).1 (str "accept")

def submitHeaders (url : ParsedUrl) (request : Request) : List (Bytes × Bytes) :=
  [(str ":method", if request.method = [] then str "GET" else request.method),
    (str ":scheme", url.scheme), (str ":path", url.target), (str ":authority", url.host)] ++
  (if hasAccept request then [] else [(str "accept", str "*/*")]) ++
  (if request.bodyView = [] then []
    else [(str "content-length", decimal request.bodyView.length)]) ++
  request.headers.filterMap extraHeader

/-- The name of a header has no colon, also in lower case. -/
theorem noColon_extraHeader {header : Bytes} {field : Bytes × Bytes}
    (h : extraHeader header = some field) : 58 ∉ field.1 := by
  rw [extraHeader] at h
  dsimp only at h
  split at h
  · cases h
  · obtain rfl := Option.some.inj h
    have hname := noColon_splitHeaderView header
    dsimp only
    split
    · exact not_mem_lowerCopy (by decide) hname
    · exact hname

/-- The authority is written once: no header of the request has the name of a pseudo-header. -/
theorem submitHeaders_authority (url : ParsedUrl) (request : Request) :
    (submitHeaders url request).filter (fun field => field.1 = str ":authority") =
      [(str ":authority", url.host)] := by
  have hextra : (request.headers.filterMap extraHeader).filter
      (fun field => field.1 = str ":authority") = [] := by
    rw [List.filter_eq_nil_iff]
    intro field hfield hname
    obtain ⟨header, -, hheader⟩ := List.mem_filterMap.mp hfield
    apply noColon_extraHeader hheader
    rw [of_decide_eq_true hname]
    decide
  have haccept : (if hasAccept request then [] else [(str "accept", str "*/*")]).filter
      (fun field => field.1 = str ":authority") = [] := by
    split
    · rfl
    · decide
  have hlength : (if request.bodyView = [] then []
      else [(str "content-length", decimal request.bodyView.length)]).filter
        (fun field => field.1 = str ":authority") = [] := by
    have hne : str "content-length" ≠ str ":authority" := by decide
    split
    · rfl
    · simp [hne]
  rw [submitHeaders, List.filter_append, List.filter_append, List.filter_append, hextra, haccept,
    hlength]
  rfl

end HttpClient.H2
