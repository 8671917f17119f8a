import Gateway.Proofs.BoundArguments
import Gateway.Proofs.Pipeline

/-!
# Why requests are refused

`Refusal` lists the errors that a request can be refused with, each with what is known of the request then.  The
answer to most of them says nothing about the method and the path of the request (`render_eq`): only a method that is
not allowed and a rule that leads nowhere quote them.
-/

namespace Gateway

/-! ## Statuses -/

namespace GatewayError

/-- Only a rule that leads to no procedure is answered with 404. -/
theorem status_eq_notFound_iff (e : GatewayError) : e.status = 404 ↔ ∃ method, e = .methodNotFound method true := by
  cases e with
  | methodNotFound method routed =>
    cases routed with
    | true => simp [status]
    | false =>
      simp only [status, Bool.false_eq_true, if_false, methodNotFound.injEq, and_false, exists_false, iff_false]
      decide
  | _ =>
    simp only [status, reduceCtorEq, exists_false, iff_false]
    decide

/-- Only a refused method is answered with 405. -/
theorem status_eq_notAllowed_iff (e : GatewayError) :
    e.status = 405 ↔ ∃ method path verbs, e = .methodNotAllowed method path verbs := by
  cases e with
  | methodNotAllowed method path verbs => simp [status]
  | methodNotFound method routed =>
    simp only [status, reduceCtorEq, exists_false, iff_false]
    cases routed <;> decide
  | _ =>
    simp only [status, reduceCtorEq, exists_false, iff_false]
    decide

end GatewayError

namespace Response

theorem error_status (status : Number) (method path : String) (message : Option String) :
    (error status method path message).status = status := by
  unfold error ofEnvelope
  cases hjson : json status (Envelope.make status method path message).value with
  | error f => rfl
  | ok r => exact json_status hjson

/-- The envelopes of 404 and 405 quote the request, and no other does. -/
theorem error_eq {status : Number} (hfound : status ≠ 404) (hallowed : status ≠ 405) (method path method' path' : String)
    (message : Option String) : error status method path message = error status method' path' message := by
  have henvelope : Envelope.make status method path message = Envelope.make status method' path' message := by
    simp [Envelope.make, hfound, hallowed]
  rw [error, henvelope, ← error]

end Response

/-- A result is refused as a fault of the server. -/
theorem Procedure.validateResult_refused {defs : Definitions} {p : Procedure} {result : Value} {e : GatewayError}
    (h : p.validateResult defs result = .error (.refused e)) : ∃ nothing, e = p.fault defs nothing := by
  unfold validateResult at h
  split at h
  · split at h
    · cases h
    · exact ⟨true, by simpa [eq_comm] using h⟩
    · cases h
  · split at h
    · cases h
    · exact ⟨false, by simpa [eq_comm] using h⟩
    · cases h

/-- A call is answered with 200 or 400. -/
theorem Resolved.invoke_status (defs : Definitions) (r : Resolved) (args : Value) {response : Response}
    (h : (r.invoke defs args).result = .ok response) : response.status = 200 ∨ response.status = 400 := by
  have houtcome := r.invoke_outcome defs args
  generalize r.invoke defs args = outcome at houtcome h
  cases houtcome with
  | result => exact .inl (answer_status h)
  | declared => exact .inr (answer_status h)
  | mismatch => simp at h
  | uncheckedResult => simp at h
  | uncheckedError => simp at h
  | defect => simp at h
  | unshownDefect => simp at h

/-- A call is never refused because a method was not found. -/
theorem Resolved.invoke_refused (defs : Definitions) (r : Resolved) (args : Value) {error : GatewayError}
    (h : (r.invoke defs args).result = .error (.refused error)) : error.status = 500 := by
  have houtcome := r.invoke_outcome defs args
  generalize r.invoke defs args = outcome at houtcome h
  have hanswer : ∀ status v, answer status v ≠ .error (.refused error) := by
    intro status v
    unfold answer
    cases Response.json status v <;> simp
  cases houtcome with
  | result => exact absurd h (hanswer _ _)
  | declared => exact absurd h (hanswer _ _)
  | mismatch result error' hhandler hvalidate =>
    obtain ⟨nothing, rfl⟩ := Procedure.validateResult_refused hvalidate
    simp only [Except.error.injEq, CallFault.refused.injEq] at h
    subst h
    rfl
  | defect =>
    simp only [Except.error.injEq, CallFault.refused.injEq] at h
    subst h
    rfl
  | uncheckedResult => simp at h
  | uncheckedError => simp at h
  | unshownDefect => simp at h

namespace Endpoint

/-! ## Refusals -/

/-- The errors that a request can be refused with. -/
inductive Refusal (e : Endpoint) (request : Request) : GatewayError → Prop where
  | notAllowed (hallowed : (e.plan request).allowed = false) :
      Refusal e request (.methodNotAllowed request.method request.path (e.plan request).allowedVerbs)
  | body (text : String) : Refusal e request (.invalidJsonBody text)
  | unnamed (hroute : (e.plan request).route = none) : Refusal e request .missingMethodName
  | unknownNamed (name : String) (hroute : (e.plan request).route = none)
      (hunknown : e.implementation.resolve name = none) : Refusal e request (.methodNotFound name false)
  | unknownRouted (found : RouteMatch) (hroute : (e.plan request).route = some found)
      (hunknown : e.implementation.resolve found.rule.procedure = none) :
      Refusal e request (.methodNotFound found.rule.procedure true)
  | missing (procedure argument : String) : Refusal e request (.requiredArgumentMissing procedure argument)
  | invalid (procedure argument received expected : String) (description : Option String) :
      Refusal e request (.invalidArgumentValue procedure argument received expected description)
  | server (error : GatewayError) (hstatus : error.status = 500) : Refusal e request error

theorem refusal_of_perform {e : Endpoint} {request : Request} {error : GatewayError}
    (h : (e.perform (e.plan request) request).result = .error (.refused error)) : e.Refusal request error := by
  have hcourse := e.perform_course request
  generalize e.perform (e.plan request) request = outcome at hcourse h
  cases hcourse with
  | preflight => simp at h
  | refused error' hresolve =>
    obtain rfl : error' = error := by simpa using h
    rcases Plan.resolve_error hresolve with ⟨hallowed, rfl⟩ | ⟨text, rfl⟩
    · exact .notAllowed hallowed
    · exact .body text
  | unnamed call hresolve hname =>
    obtain rfl : .missingMethodName = error := by simpa using h
    rcases Plan.resolve_ok hresolve with ⟨body, hroute, -, -⟩ | ⟨found, body, -, -, rfl⟩
    · exact .unnamed hroute
    · cases hname
  | unknown call name hresolve hname hunknown =>
    obtain rfl : .methodNotFound name call.routed = error := by simpa using h
    rcases Plan.resolve_ok hresolve with ⟨body, hroute, -, rfl⟩ | ⟨found, body, hroute, -, rfl⟩
    · exact .unknownNamed name hroute hunknown
    · obtain rfl : found.rule.procedure = name := Option.some.inj hname
      exact .unknownRouted found hroute hunknown
  | unbound call name r fault hname hreached hbind =>
    obtain rfl : fault = .refused error := by simpa using h
    obtain ⟨q, hq, hfault⟩ := bindArguments_error hbind
    rcases Binding.bindParameter_refused _ _ _ hfault with ⟨-, -, rfl⟩ | ⟨received, rfl⟩
    · exact .missing _ _
    · exact .invalid _ _ _ _ _
  | invoked call name r args hname hreached hbind => exact .server error (r.invoke_refused e.definitions args h)

/-- The answer to an error that does not quote the request. -/
theorem render_eq {error : GatewayError} (hfound : error.status ≠ 404) (hallowed : error.status ≠ 405)
    (plan plan' : Plan) (request request' : Request) : render plan request error = render plan' request' error := by
  have hquoted : Response.ofError error request.method request.path =
      Response.ofError error request'.method request'.path :=
    Response.error_eq hfound hallowed _ _ _ _ _
  cases error with
  | methodNotAllowed => exact absurd rfl hallowed
  | _ => exact hquoted

theorem brokenResponse_eq (request request' : Request) : brokenResponse request = brokenResponse request' :=
  Response.error_eq (by decide) (by decide) _ _ _ _ _

/-! ## Answers -/

/-- The answer that is written for the outcome of a planned request. -/
def written (plan : Plan) (request : Request) : Except CallFault Response → Response
  | .ok response => response.withHeaders plan.cors.headers
  | .error (.refused error) => (render plan request error).withHeaders plan.cors.headers
  | .error (.broken _) => brokenResponse request

theorem handle_response (e : Endpoint) (requestId : String) (start finish : Number) (request : Request) :
    (e.handle requestId start finish request).response =
      written (e.plan request) request (e.perform (e.plan request) request).result := by
  cases hresult : (e.perform (e.plan request) request).result with
  | ok response => simp [handle, respond?, written, hresult]
  | error fault => cases fault <;> simp [handle, respond?, written, hresult]

theorem render_status (plan : Plan) (request : Request) (error : GatewayError) :
    (render plan request error).status = error.status := by
  cases error <;> exact Response.error_status _ _ _ _

/-- A request that is neither refused nor stopped is answered with 200 or 400. -/
theorem perform_status {e : Endpoint} {request : Request} {response : Response}
    (h : (e.perform (e.plan request) request).result = .ok response) :
    response.status = 200 ∨ response.status = 400 := by
  have hcourse := e.perform_course request
  generalize e.perform (e.plan request) request = outcome at hcourse h
  cases hcourse with
  | preflight =>
    obtain rfl : Response.preflight = response := by simpa using h
    exact .inl rfl
  | refused => simp at h
  | unnamed => simp at h
  | unknown => simp at h
  | unbound => simp at h
  | invoked call name r args hname hreached hbind => exact r.invoke_status e.definitions args h

/-- Any status but 200, 400 and 500 is that of the error that the request was refused with. -/
theorem refused_of_status {e : Endpoint} {requestId : String} {start finish : Number} {request : Request}
    {status : Number} (h : (e.handle requestId start finish request).response.status = status)
    (hresult : status ≠ 200) (hdeclared : status ≠ 400) (hfault : status ≠ 500) :
    ∃ error, (e.perform (e.plan request) request).result = .error (.refused error) ∧ error.status = status := by
  rw [handle_response] at h
  cases hperform : (e.perform (e.plan request) request).result with
  | ok response =>
    rw [hperform] at h
    rcases perform_status hperform with hok | hbad
    · exact absurd (h.symm.trans hok) hresult
    · exact absurd (h.symm.trans hbad) hdeclared
  | error fault =>
    rw [hperform] at h
    cases fault with
    | refused error => exact ⟨error, rfl, (render_status (e.plan request) request error).symm.trans h⟩
    | broken fault => exact absurd (h.symm.trans (Response.error_status 500 _ _ _)) hfault

end Endpoint

end Gateway
