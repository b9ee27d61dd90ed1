import HttpClient.Policy.Defaults

/-!
# The body after a change of method

A redirect that turns a request into a `GET` should take its body away, and so should the
`GET` that is sent to find out the protocol of an origin. Both clear the field `body` and
remove the headers of a body. But a body may be shared instead, and the view of a body is
that of the shared one where the field is empty.

## Main definitions

* `preconnectProbe` — the probe that `preconnect` sends
* `BodyRule` — what a redirect should leave of method, body and headers

## Main results

* `bodyRule_iff`, `bodyView_preconnectProbe` — the redirect and the probe by themselves
* `body_dropped_iff` — both drop the body unless it is shared
* `shared_body_kept` — a shared body that is sent again
-/

set_option autoImplicit false

namespace HttpClient.Policy

open Text

/-- The probe sent for a request while the protocol of its origin is unknown. -/
def preconnectProbe (request : Request) : Request :=
  let probe := { request with method := str "GET", body := [] }
  let probe := (probe.removeHeader (str "Content-Length")).removeHeader (str "Content-Type")
  { probe with
    storeResponseBody := false
    storeResponseHeaders := false
    maxRetries := 0
    protocolPolicy := .auto }

/-- A redirect that changes the method leaves no body, any other one the same body. -/
structure BodyRule (request : Request) (status : Nat) (next : Request) : Prop where
  changed : redirectChangesToGet status request.method = true →
    next.method = str "GET" ∧ next.bodyView = [] ∧
      next.header (str "Content-Type") = none ∧ next.header (str "Content-Length") = none
  kept : redirectChangesToGet status request.method = false →
    next.method = request.method ∧ next.bodyView = request.bodyView ∧
      next.headers = request.headers

variable {request next : Request} {status : Nat} {location : Bytes}

/-- Without a body of its own, the request is left with the shared one. -/
theorem bodyView_changeToGet (request : Request) :
    (changeToGet request).bodyView = request.sharedBody.getD [] :=
  Request.bodyView_of_body_nil rfl

theorem header_changeToGet (request : Request) :
    (changeToGet request).header (str "Content-Type") = none ∧
      (changeToGet request).header (str "Content-Length") = none := by
  rw [header_eq_none_iff, header_eq_none_iff, changeToGet]
  refine ⟨?_, linesNamed_removeHeader_self _ _⟩
  rw [linesNamed_removeHeader (by decide), linesNamed_removeHeader_self]

theorem bodyView_preconnectProbe (request : Request) :
    (preconnectProbe request).bodyView = request.sharedBody.getD [] :=
  Request.bodyView_of_body_nil rfl

theorem bodyRule_iff (h : redirected request status location = .ok next) :
    BodyRule request status next ↔
      (redirectChangesToGet status request.method = true → request.sharedBody.getD [] = []) := by
  rw [redirected] at h
  cases hurl : resolveRedirectUrl request.url location with
  | error what =>
    rw [hurl] at h
    cases h
  | ok url =>
    rw [hurl] at h
    obtain rfl := Except.ok.inj h
    cases hchanges : redirectChangesToGet status request.method with
    | false =>
      rw [if_neg Bool.false_ne_true]
      refine iff_of_true ⟨fun htrue => ?_, fun _ => ⟨rfl, rfl, rfl⟩⟩ (fun htrue => by cases htrue)
      rw [hchanges] at htrue
      cases htrue
    | true =>
      rw [if_pos rfl, ← bodyView_changeToGet]
      constructor
      · intro hrule _
        exact (hrule.changed hchanges).2.1
      · intro hempty
        refine ⟨fun _ => ⟨rfl, hempty rfl, header_changeToGet _⟩, fun hfalse => ?_⟩
        rw [hchanges] at hfalse
        cases hfalse

/-- A redirect keeps to the rule unless it changes the method of a request whose shared body
is not empty, and the probe has no body unless there is such a body. -/
theorem body_dropped_iff (h : redirected request status location = .ok next) :
    (BodyRule request status next ↔
        (redirectChangesToGet status request.method = true →
          request.sharedBody.getD [] = [])) ∧
      ((preconnectProbe request).bodyView = [] ↔ request.sharedBody.getD [] = []) := by
  refine ⟨bodyRule_iff h, ?_⟩
  rw [bodyView_preconnectProbe]

/-- A form that is posted to a page. -/
def form : Request :=
  { method := str "POST"
    url := str "http://a/f"
    headers := [str "Content-Type: text/plain"] }

theorem body_dropped_iff_form :
    redirected (form.setBody (str "x=1")) 303 (str "/done") =
        .ok { form with method := str "GET", url := str "http://a/done", headers := [] } ∧
      BodyRule (form.setBody (str "x=1")) 303
        { form with method := str "GET", url := str "http://a/done", headers := [] } := by
  have h : redirected (form.setBody (str "x=1")) 303 (str "/done") =
      .ok { form with method := str "GET", url := str "http://a/done", headers := [] } := by
    decide +kernel
  exact ⟨h, (body_dropped_iff h).1.mpr fun _ => rfl⟩

/-- A shared body is sent again, with a `GET` and without its headers, and with the probe. -/
theorem shared_body_kept :
    ∃ next, redirected (form.setSharedBody (some (str "x=1"))) 303 (str "/done") = .ok next ∧
      redirectChangesToGet 303 (form.setSharedBody (some (str "x=1"))).method = true ∧
      next.bodyView = str "x=1" ∧
      ¬ BodyRule (form.setSharedBody (some (str "x=1"))) 303 next ∧
      (preconnectProbe (form.setSharedBody (some (str "x=1")))).bodyView = str "x=1" := by
  refine ⟨{ form with method := str "GET", url := str "http://a/done", headers := [],
                      sharedBody := some (str "x=1") }, by decide +kernel, by decide, rfl, ?_, rfl⟩
  intro hrule
  exact absurd (hrule.changed (by decide)).2.1 (by decide)

end HttpClient.Policy
