import HttpClient.H2.HeaderBlock
import HttpClient.Semantics.SpillList

/-!
# Where the header block is put together

`submit_stream` first reads the headers of the request, then knows a bound on the number of
fields, and writes the fields into an array of sixteen entries if that bound allows it, else
into a vector. What it passes on is the same list in either case.

## Main definitions

* `collectHeaders` — the loop over the headers of the request
* `passedHeaders`, `streamHeaders` — the fields that are passed on, for an array of a given size
  and for that of the source
* `plainHeaders` — what the request's own headers become
* `skippedNames` — the names that are left out

## Main results

* `skipHeader_iff`, `extraHeader_line` — the headers that are left out, and the field of a line
* `passedHeaders_eq` — the array and the vector hold the same list
* `streamHeaders_wellFormed` — what is passed on, for every request
-/

set_option autoImplicit false

namespace HttpClient.H2

open Text Semantics

/-- One header of the request: the fields so far, and whether one of them is an `accept`. -/
def collectHeaders (state : List (Bytes × Bytes) × Bool) (header : Bytes) :
    List (Bytes × Bytes) × Bool :=
  let (name, value) := splitHeaderView header
  if skipHeader name then state
  else
    (state.1 ++ [(if hasUppercaseAscii name then lowerCopy name else name, value)],
      state.2 || headerNameEqual name (str "accept"))

/-- The fields that are passed to the session; `none` is a write beyond the array. -/
def passedHeaders (size : Nat) (url : ParsedUrl) (request : Request) :
    Option (List (Bytes × Bytes)) := do
  let (extraHeaders, hasAccept) := request.headers.foldl collectHeaders ([], false)
  let maxHeaderCount := 6 + extraHeaders.length
  let headers : SpillList (Bytes × Bytes) size := .empty size maxHeaderCount ([], [])
  let headers ← headers.push
    (str ":method", if request.method = [] then str "GET" else request.method)
  let headers ← headers.push (str ":scheme", url.scheme)
  let headers ← headers.push (str ":path", url.target)
  let headers ← headers.push (str ":authority", url.host)
  let headers ← if hasAccept then pure headers else headers.push (str "accept", str "*/*")
  let headers ←
    if request.bodyView = [] then pure headers
    else headers.push (str "content-length", decimal request.bodyView.length)
  let headers ← extraHeaders.foldlM SpillList.push headers
  return headers.contents

/-- The array of the source has sixteen entries. -/
def streamHeaders (url : ParsedUrl) (request : Request) : Option (List (Bytes × Bytes)) :=
  passedHeaders 16 url request

/-- The request's own headers: those that are not left out, with names in lower case and
values without leading white space. -/
def plainHeaders (request : Request) : List (Bytes × Bytes) :=
  (request.headers.filter fun header => !skipHeader (splitHeaderView header).1).map
    fun header => (lowerCopy (splitHeaderView header).1, (splitHeaderView header).2)

/-! ### Reading the headers -/

theorem foldl_collectHeaders (headers : List Bytes) (fields : List (Bytes × Bytes))
    (accept : Bool) :
    headers.foldl collectHeaders (fields, accept) =
      (fields ++ headers.filterMap extraHeader,
        accept || headers.any fun header =>
          !skipHeader (splitHeaderView header).1 &&
            headerNameEqual (splitHeaderView header).1 (str "accept")) := by
  induction headers generalizing fields accept with
  | nil => simp
  | cons header headers ih =>
    rw [List.foldl_cons, List.any_cons, collectHeaders]
    dsimp only
    by_cases hskip : skipHeader (splitHeaderView header).1 = true
    · have hnone : extraHeader header = none := if_pos hskip
      rw [if_pos hskip, ih, List.filterMap_cons_none hnone, hskip, Bool.not_true, Bool.false_and,
        Bool.false_or]
    · have hsome : extraHeader header = some
          (if hasUppercaseAscii (splitHeaderView header).1 then
            lowerCopy (splitHeaderView header).1 else (splitHeaderView header).1,
            (splitHeaderView header).2) := if_neg hskip
      rw [if_neg hskip, ih, List.filterMap_cons_some hsome, Bool.eq_false_iff.mpr hskip,
        Bool.not_false, Bool.true_and, List.append_assoc, List.singleton_append, Bool.or_assoc]

theorem lower_of_not_uppercase {c : UInt8} (h : (65 ≤ c && c ≤ 90) = false) : lower c = c := by
  refine if_neg fun hupper => ?_
  rw [Bool.and_eq_false_iff, decide_eq_false_iff_not, decide_eq_false_iff_not] at h
  exact h.elim (fun hlow => hlow hupper.1) fun hhigh => hhigh hupper.2

/-- A name without capitals is its lower-case copy. -/
theorem lowerCopy_of_not_uppercase {name : Bytes} (h : hasUppercaseAscii name = false) :
    lowerCopy name = name := by
  rw [hasUppercaseAscii, List.any_eq_false] at h
  refine List.map_congr_left (fun c hc => ?_) |>.trans (List.map_id name)
  exact lower_of_not_uppercase (Bool.eq_false_iff.mpr (h c hc))

theorem extraHeader_eq (header : Bytes) :
    extraHeader header =
      if skipHeader (splitHeaderView header).1 then none
      else some (lowerCopy (splitHeaderView header).1, (splitHeaderView header).2) := by
  rw [extraHeader]
  dsimp only
  cases hupper : hasUppercaseAscii (splitHeaderView header).1 with
  | true => rfl
  | false => rw [lowerCopy_of_not_uppercase hupper, if_neg Bool.false_ne_true]

theorem filterMap_extraHeader (request : Request) :
    request.headers.filterMap extraHeader = plainHeaders request := by
  rw [plainHeaders]
  induction request.headers with
  | nil => rfl
  | cons header headers ih =>
    have hone := extraHeader_eq header
    cases hskip : skipHeader (splitHeaderView header).1 with
    | true =>
      rw [hskip, if_pos rfl] at hone
      rw [List.filterMap_cons_none hone, ih, List.filter_cons_of_neg (by simp [hskip])]
    | false =>
      rw [hskip, if_neg Bool.false_ne_true] at hone
      rw [List.filterMap_cons_some hone, ih, List.filter_cons_of_pos (by simp [hskip]),
        List.map_cons]

/-- The names, in lower case, of the fields that HTTP/2 has no use for or that are written by
`submit_stream` itself. -/
def skippedNames : List Bytes :=
  [str "host", str "connection", str "keep-alive", str "proxy-connection",
    str "transfer-encoding", str "upgrade", str "content-length"]

/-- A name is left out if it is empty, begins with a colon or is one of a list, in any case of its
letters. -/
theorem skipHeader_iff (name : Bytes) :
    skipHeader name = true ↔
      name = [] ∨ name.head? = some 58 ∨ lowerCopy name ∈ skippedNames := by
  have hnamed : ∀ other, lowerCopy other = other →
      (headerNameEqual name other = true ↔ lowerCopy name = other) := by
    intro other hlower
    rw [headerNameEqual, beq_iff_eq, hlower]
  have hlower : ∀ other ∈ skippedNames, lowerCopy other = other := by decide
  simp only [skippedNames, List.forall_mem_cons] at hlower
  obtain ⟨h₁, h₂, h₃, h₄, h₅, h₆, h₇, -⟩ := hlower
  simp only [skipHeader, skippedNames, Bool.or_eq_true, beq_iff_eq, hnamed _ h₁, hnamed _ h₂,
    hnamed _ h₃, hnamed _ h₄, hnamed _ h₅, hnamed _ h₆, hnamed _ h₇, List.mem_cons,
    List.not_mem_nil, or_false, or_assoc]

theorem skipHeader_iff_of_noColon {name : Bytes} (h : 58 ∉ name) :
    skipHeader name = true ↔ name = [] ∨ lowerCopy name ∈ skippedNames := by
  have hcolon : name.head? ≠ some 58 := fun hhead => h (List.mem_of_mem_head? hhead)
  rw [skipHeader_iff, or_iff_right hcolon]

/-- The field of a header line: the name ends at the first colon and gets small letters, and the
value begins after the blanks behind it. -/
theorem extraHeader_line {name blanks value : Bytes} (hname : 58 ∉ name)
    (hblanks : ∀ c ∈ blanks, isSpace c = true) (hvalue : ∀ c ∈ value.head?, isSpace c = false) :
    extraHeader (name ++ 58 :: (blanks ++ value)) =
      if name = [] ∨ lowerCopy name ∈ skippedNames then none else some (lowerCopy name, value) := by
  have htrim : trimLeft (blanks ++ value) = value := by
    rw [trimLeft, List.dropWhile_append_of_pos hblanks]
    cases value with
    | nil => rfl
    | cons c rest => exact List.dropWhile_cons_of_neg (by simpa using hvalue c rfl)
  rw [extraHeader_eq, splitHeaderView_append hname, htrim]
  exact if_congr (skipHeader_iff_of_noColon hname) rfl rfl

/-- A line without a colon is a name without a value. -/
theorem extraHeader_noColon {line : Bytes} (h : 58 ∉ line) :
    extraHeader line =
      if line = [] ∨ lowerCopy line ∈ skippedNames then none else some (lowerCopy line, []) := by
  have hsplit : splitHeaderView line = (line, []) := by
    rw [splitHeaderView, findByte_eq_none h]
  rw [extraHeader_eq, hsplit]
  exact if_congr (skipHeader_iff_of_noColon h) rfl rfl

/-- The names that are left out are not those of an `accept` header. -/
theorem skipHeader_accept {name : Bytes} (h : headerNameEqual name (str "accept") = true) :
    skipHeader name = false := by
  have hlower : lowerCopy name = str "accept" := by
    rw [headerNameEqual, beq_iff_eq] at h
    rw [h]
    decide
  rw [← Bool.not_eq_true, skipHeader_iff, hlower]
  rintro (rfl | hhead | hmem)
  · cases hlower
  · obtain ⟨rest, rfl⟩ := List.head?_eq_some_iff.mp hhead
    exact absurd (List.cons.inj hlower).1 (by decide)
  · exact absurd hmem (by decide)

theorem hasAccept_eq (request : Request) :
    hasAccept request = (request.header (str "accept")).isSome := by
  rw [hasAccept, Request.header, headerValue, Option.isSome_map, List.isSome_find?]
  congr 1
  funext header
  rw [lineNamed]
  cases haccept : headerNameEqual (splitHeaderView header).1 (str "accept") with
  | true =>
    rw [skipHeader_accept haccept]
    rfl
  | false => rw [Bool.and_false]

/-! ### Writing the fields -/

/-- The bound that is known beforehand. -/
theorem length_submitHeaders_le (url : ParsedUrl) (request : Request) :
    (submitHeaders url request).length ≤
      6 + (request.headers.filterMap extraHeader).length := by
  have haccept : (if hasAccept request then [] else [(str "accept", str "*/*")]).length ≤ 1 := by
    split
    · exact Nat.zero_le _
    · exact Nat.le_refl _
  have hbody : (if request.bodyView = [] then []
      else [(str "content-length", decimal request.bodyView.length)]).length ≤ 1 := by
    split
    · exact Nat.zero_le _
    · exact Nat.le_refl _
  rw [submitHeaders]
  simp only [List.length_append, List.length_cons, List.length_nil]
  omega

/-- The fields are pushed one after the other. -/
theorem passedHeaders_eq_foldlM (size : Nat) (url : ParsedUrl) (request : Request) :
    passedHeaders size url request =
      ((submitHeaders url request).foldlM SpillList.push
        (SpillList.empty size (6 + (request.headers.filterMap extraHeader).length) ([], []))).bind
          fun headers => some headers.contents := by
  have hcollect : request.headers.foldl collectHeaders ([], false) =
      (request.headers.filterMap extraHeader, hasAccept request) := by
    rw [foldl_collectHeaders, List.nil_append, Bool.false_or, hasAccept]
  rw [passedHeaders, hcollect, submitHeaders]
  cases haccept : hasAccept request with
  | true =>
    by_cases hbody : request.bodyView = []
    · simp [hbody, Option.bind_assoc]
    · simp [hbody, Option.bind_assoc]
  | false =>
    by_cases hbody : request.bodyView = []
    · simp [hbody, Option.bind_assoc]
    · simp [hbody, Option.bind_assoc]

/-- An array of any size and a vector hold the same list, and no write is beyond the array. -/
theorem passedHeaders_eq (size : Nat) (url : ParsedUrl) (request : Request) :
    passedHeaders size url request = some (submitHeaders url request) := by
  have hroom : ([] : List (Bytes × Bytes)).length + (submitHeaders url request).length ≤
      (SpillList.empty size (6 + (request.headers.filterMap extraHeader).length)
        (([], []) : Bytes × Bytes)).bound := by
    rw [List.length_nil, Nat.zero_add]
    exact length_submitHeaders_le url request
  obtain ⟨last, hlast, hholds⟩ := (SpillList.holds_empty size _ _).pushAll hroom
  rw [passedHeaders_eq_foldlM, hlast, Option.bind_some, hholds.contents_eq, List.nil_append]

/-- What is passed on, in the array or in a vector: the pseudo-headers, which no other field
repeats, an `accept` unless the request has one, the length of a body, and the plain headers of
the request. -/
theorem streamHeaders_wellFormed (url : ParsedUrl) (request : Request) :
    ∃ others, streamHeaders url request = some
        ([(str ":method", if request.method = [] then str "GET" else request.method),
          (str ":scheme", url.scheme), (str ":path", url.target), (str ":authority", url.host)] ++
          others) ∧
      others = (if (request.header (str "accept")).isSome then []
          else [(str "accept", str "*/*")]) ++
        (if request.bodyView = [] then []
          else [(str "content-length", decimal request.bodyView.length)]) ++
        plainHeaders request ∧
      (∀ field ∈ others, 58 ∉ field.1) ∧
      ∀ size, passedHeaders size url request = streamHeaders url request := by
  refine ⟨_, ?_, rfl, ?_, fun size => ?_⟩
  · rw [streamHeaders, passedHeaders_eq, submitHeaders, hasAccept_eq, filterMap_extraHeader,
      List.append_assoc, List.append_assoc, List.append_assoc]
  · intro field hfield
    rw [List.mem_append, List.mem_append, ← filterMap_extraHeader] at hfield
    rcases hfield with (haccept | hlength) | hplain
    · split at haccept
      · exact absurd haccept List.not_mem_nil
      · rw [List.mem_singleton.mp haccept]
        decide
    · split at hlength
      · exact absurd hlength List.not_mem_nil
      · have hname : 58 ∉ str "content-length" := by decide
        rwa [List.mem_singleton.mp hlength]
    · obtain ⟨header, -, hheader⟩ := List.mem_filterMap.mp hplain
      exact noColon_extraHeader hheader
  · rw [streamHeaders, passedHeaders_eq, passedHeaders_eq]

/-- A name without a value, a value with blanks and a colon, and five headers that are left out. -/
example : streamHeaders { scheme := str "https", host := str "h", port := [], target := str "/" }
    { headers := [str "HOST: x", str "no-colon", str "X-A:\t b : c", str ": v", str ":path: /x",
        str "Keep-Alive:5", str "content-LENGTH: 9"] } =
      some [(str ":method", str "GET"), (str ":scheme", str "https"), (str ":path", str "/"),
        (str ":authority", str "h"), (str "accept", str "*/*"), (str "no-colon", []),
        (str "x-a", str "b : c")] := by
  decide +kernel

/-- Eleven headers do not fit into the array. -/
example : streamHeaders { scheme := str "https", host := str "h", port := [], target := str "/" }
    { headers := List.replicate 11 (str "X: 1") } =
      some ([(str ":method", str "GET"), (str ":scheme", str "https"), (str ":path", str "/"),
        (str ":authority", str "h"), (str "accept", str "*/*")] ++
          List.replicate 11 (str "x", str "1")) := by
  decide +kernel

end HttpClient.H2
