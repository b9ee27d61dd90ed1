import HttpClient.Request
import HttpClient.Url

/-!
# The request of the buffered HTTP/1.1 exchange

Without the lightweight exchange a request is put into a container of header fields, which is
then serialised. The container belongs to a library: setting a field removes the fields of
the same name, in any case, and stores the value; preparing the body may set the fields that
describe it.

## Main definitions

* `FieldTable`, `FieldTable.Lawful` — the container and what is known of it
* `httpExchangeFields` — the fields of a request

## Main results

* `value_httpExchangeFields_host` — the host that is written
-/

set_option autoImplicit false

namespace HttpClient.H1

open Text

/-- A container of header fields. -/
structure FieldTable (F : Type) where
  empty : F
  set : F → Bytes → Bytes → F
  preparePayload : F → Bytes → F
  /-- The value that is written for a name. -/
  value : F → Bytes → Option Bytes

/-- Setting a field replaces those of its name; `stored` is what becomes of a value, such as
without the blanks around it. Preparing the body leaves the other fields alone. -/
structure FieldTable.Lawful {F : Type} (table : FieldTable F) (stored : Bytes → Bytes) : Prop where
  value_set_same : ∀ fields name other value, headerNameEqual name other = true →
    table.value (table.set fields name value) other = some (stored value)
  value_set_other : ∀ fields name other value, headerNameEqual name other = false →
    table.value (table.set fields name value) other = table.value fields other
  value_preparePayload : ∀ fields body name,
    headerNameEqual name (str "Content-Length") = false →
    headerNameEqual name (str "Transfer-Encoding") = false →
      table.value (table.preparePayload fields body) name = table.value fields name

variable {F : Type} (table : FieldTable F)

/-- Set the field of a header line; a line without a name is left out. -/
def setHeaderField (fields : F) (header : Bytes) : F :=
  let (name, value) := splitHeaderView header
  if name ≠ [] then table.set fields name value else fields

def httpExchangeFields (url : ParsedUrl) (request : Request) : F :=
  let fields := table.set table.empty (str "Host") url.host
  let fields := table.set fields (str "User-Agent") (str "httpclient-asio")
  let fields := request.headers.foldl (setHeaderField table) fields
  table.preparePayload fields request.bodyView

/-- The host that a request asks for: the value of its last `Host` header, else the host of
the URL. -/
def requestedHost (url : ParsedUrl) (request : Request) : Bytes :=
  ((request.headers.filter (lineNamed (str "Host"))).getLast?.map
    fun header => (splitHeaderView header).2).getD url.host

variable {table} {stored : Bytes → Bytes}

/-- Of the header lines that are set one after the other, the last one of a name counts. -/
theorem value_foldl_setHeaderField (h : table.Lawful stored) {name : Bytes} (hname : name ≠ [])
    (headers : List Bytes) (fields : F) :
    table.value (headers.foldl (setHeaderField table) fields) name =
      match (headers.filter (lineNamed name)).getLast? with
      | none => table.value fields name
      | some header => some (stored (splitHeaderView header).2) := by
  induction headers using List.reverseRecOn with
  | nil => rfl
  | append_singleton headers header ih =>
    rw [List.foldl_append, List.foldl_cons, List.foldl_nil, List.filter_append, setHeaderField]
    dsimp only
    by_cases hnamed : lineNamed name header = true
    · -- the line has the name, and so is not empty
      have hset : (splitHeaderView header).1 ≠ [] := by
        intro hempty
        rw [lineNamed, hempty, headerNameEqual, beq_iff_eq] at hnamed
        exact hname (List.map_eq_nil_iff.mp hnamed.symm)
      rw [if_pos hset, h.value_set_same _ _ _ _ hnamed, List.filter_cons_of_pos hnamed]
      simp
    · rw [List.filter_cons_of_neg hnamed, List.filter_nil, List.append_nil, ← ih]
      split
      · exact h.value_set_other _ _ _ _ (Bool.eq_false_iff.mpr hnamed)
      · rfl

theorem value_httpExchangeFields_host (h : table.Lawful stored) (url : ParsedUrl)
    (request : Request) :
    table.value (httpExchangeFields table url request) (str "Host") =
      some (stored (requestedHost url request)) := by
  have hlength : headerNameEqual (str "Host") (str "Content-Length") = false := by decide
  have hcoding : headerNameEqual (str "Host") (str "Transfer-Encoding") = false := by decide
  have hagent : headerNameEqual (str "User-Agent") (str "Host") = false := by decide
  have hhost : headerNameEqual (str "Host") (str "Host") = true := by decide
  have hne : str "Host" ≠ [] := by decide
  rw [httpExchangeFields, h.value_preparePayload _ _ _ hlength hcoding,
    value_foldl_setHeaderField h hne, h.value_set_other _ _ _ _ hagent,
    h.value_set_same _ _ _ _ hhost, requestedHost]
  cases (request.headers.filter (lineNamed (str "Host"))).getLast? with
  | none => rfl
  | some header => rfl

end HttpClient.H1
