import Gateway.Endpoint

/-!
# The course of a request

A request is answered as a preflight, refused before a procedure is known, refused because its arguments
cannot be bound, or it invokes a handler.  `Course` lists these ways with all that is known on each of them, and
`perform_course` says that every request takes one of them.  `Outcome` does the same for the call of a procedure.
Later statements follow the course and the outcome and do not open the pipeline again.
-/

namespace Gateway

/-! ## Answers -/

theorem Response.json_status {status : Number} {v : Value} {r : Response} (h : Response.json status v = .ok r) :
    r.status = status := by
  unfold Response.json at h
  cases hwrite : Json.write v with
  | error f =>
    rw [hwrite] at h
    cases h
  | ok text =>
    rw [hwrite] at h
    cases h
    rfl

theorem answer_eq_ok {status : Number} {v : Value} {r : Response} (h : answer status v = .ok r) :
    Response.json status v = .ok r := by
  unfold answer at h
  cases hjson : Response.json status v with
  | error f =>
    rw [hjson] at h
    cases h
  | ok response =>
    rw [hjson] at h
    rw [Except.ok.inj h]

theorem answer_status {status : Number} {v : Value} {r : Response} (h : answer status v = .ok r) :
    r.status = status :=
  Response.json_status (answer_eq_ok h)

/-! ## Calls -/

namespace Resolved

/-- The ways that the call of a procedure can end, each with its result and what it leaves for the log. -/
inductive Outcome (defs : Definitions) (r : Resolved) (args : Value) :
    Traced (Except CallFault Response) → Prop where
  | result (result encoded : Value) (hhandler : r.handler args = .ok result)
      (hvalidate : r.procedure.validateResult defs result = .ok encoded) :
      Outcome defs r args ⟨[.procedureCall r.procedure.wireName args], answer 200 encoded⟩
  | mismatch (result : Value) (error : GatewayError) (hhandler : r.handler args = .ok result)
      (hvalidate : r.procedure.validateResult defs result = .error (.refused error)) :
      Outcome defs r args
        ⟨[.procedureCall r.procedure.wireName args,
          .returnTypeMismatch r.procedure.wireName (r.procedure.returns.describe defs) result],
          .error (.refused error)⟩
  | uncheckedResult (result : Value) (fault : Fault) (hhandler : r.handler args = .ok result)
      (hvalidate : r.procedure.validateResult defs result = .error (.broken fault)) :
      Outcome defs r args ⟨[.procedureCall r.procedure.wireName args], .error (.broken fault)⟩
  | declared (failure : Failure) (error : Value) (hhandler : r.handler args = .error failure)
      (hform : declaredForm defs r.procedure failure = .ok (some error)) :
      Outcome defs r args
        ⟨[.procedureCall r.procedure.wireName args, .declaredError r.procedure.wireName error],
          answer 400 error⟩
  | uncheckedError (failure : Failure) (fault : Fault) (hhandler : r.handler args = .error failure)
      (hform : declaredForm defs r.procedure failure = .error fault) :
      Outcome defs r args ⟨[.procedureCall r.procedure.wireName args], .error (.broken fault)⟩
  | defect (failure : Failure) (cause : String) (hhandler : r.handler args = .error failure)
      (hform : declaredForm defs r.procedure failure = .ok none) (hsummary : failure.summary = .ok cause) :
      Outcome defs r args
        ⟨[.procedureCall r.procedure.wireName args, .handlerDefect r.procedure.wireName cause],
          .error (.refused (.handlerDefect r.procedure.wireName))⟩
  | unshownDefect (failure : Failure) (fault : Fault) (hhandler : r.handler args = .error failure)
      (hform : declaredForm defs r.procedure failure = .ok none) (hsummary : failure.summary = .error fault) :
      Outcome defs r args ⟨[.procedureCall r.procedure.wireName args], .error (.broken fault)⟩

/-- Every call ends in one of the outcomes. -/
theorem invoke_outcome (defs : Definitions) (r : Resolved) (args : Value) :
    r.Outcome defs args (r.invoke defs args) := by
  unfold invoke
  cases hhandler : r.handler args with
  | ok result =>
    cases hvalidate : r.procedure.validateResult defs result with
    | ok encoded => simpa [answerResult, hvalidate] using Outcome.result result encoded hhandler hvalidate
    | error fault =>
      cases fault with
      | refused error =>
        simpa [answerResult, hvalidate] using Outcome.mismatch result error hhandler hvalidate
      | broken fault =>
        simpa [answerResult, hvalidate] using Outcome.uncheckedResult result fault hhandler hvalidate
  | error failure =>
    cases hform : declaredForm defs r.procedure failure with
    | error fault => simpa [answerFailure, hform] using Outcome.uncheckedError failure fault hhandler hform
    | ok form =>
      cases form with
      | some error => simpa [answerFailure, hform] using Outcome.declared failure error hhandler hform
      | none =>
        cases hsummary : failure.summary with
        | ok cause =>
          simpa [answerFailure, hform, answerDefect, hsummary] using
            Outcome.defect failure cause hhandler hform hsummary
        | error fault =>
          simpa [answerFailure, hform, answerDefect, hsummary] using
            Outcome.unshownDefect failure fault hhandler hform hsummary

end Resolved

/-! ## Dispatch -/

namespace Plan

/-- A planned request is refused for its method or for its body only. -/
theorem resolve_error {service : Service} {request : Request} {plan : Plan} {error : GatewayError}
    (h : plan.resolve service request = .error error) :
    (plan.allowed = false ∧ error = .methodNotAllowed request.method request.path plan.allowedVerbs) ∨
      ∃ text, error = .invalidJsonBody text := by
  -- Routed or not, a body is read by the same reader.
  have hbody : ∀ body, Payload.parseBody body = .error error → ∃ text, error = .invalidJsonBody text := by
    intro body hparse
    unfold Payload.parseBody at hparse
    dsimp only at hparse
    split at hparse
    · cases hparse
    · split at hparse
      · cases hparse
      · exact ⟨_, (Except.error.inj hparse).symm⟩
  unfold resolve at h
  split at h
  · rename_i hallowed
    exact .inl ⟨by simpa using hallowed, (Except.error.inj h).symm⟩
  · refine .inr ?_
    cases hroute : plan.route with
    | none =>
      cases hparse : Payload.parseBody request.body with
      | ok body => simp [hroute, hparse] at h
      | error e =>
        simp only [hroute, hparse, Except.error.injEq] at h
        exact hbody request.body (h ▸ hparse)
    | some found =>
      cases hrule : ruleBody found.rule.verb request with
      | ok body => simp [hroute, hrule] at h
      | error e =>
        simp only [hroute, hrule, Except.error.injEq] at h
        subst h
        unfold ruleBody at hrule
        split at hrule
        · cases hrule
        · exact hbody request.body hrule

/-- A routed request is for the procedure of its rule; any other request names one in its query. -/
theorem resolve_ok {service : Service} {request : Request} {plan : Plan} {call : Call}
    (h : plan.resolve service request = .ok call) :
    (∃ body, plan.route = none ∧ Payload.parseBody request.body = .ok body ∧
        call = ⟨namedProcedure? request.query, false, Payload.merge [] body⟩) ∨
      ∃ found body, plan.route = some found ∧ ruleBody found.rule.verb request = .ok body ∧
        call = ⟨some found.rule.procedure, true,
          Payload.merge (Payload.captured (parametersOf service found.rule.procedure) found.captures) body⟩ := by
  unfold resolve at h
  split at h
  · cases h
  · cases hroute : plan.route with
    | none =>
      cases hparse : Payload.parseBody request.body with
      | error e => simp [hroute, hparse] at h
      | ok body =>
        simp only [hroute, hparse, Except.ok.injEq] at h
        exact .inl ⟨body, rfl, rfl, h.symm⟩
    | some found =>
      cases hrule : ruleBody found.rule.verb request with
      | error e => simp [hroute, hrule] at h
      | ok body =>
        simp only [hroute, hrule, Except.ok.injEq] at h
        exact .inr ⟨found, body, rfl, hrule, h.symm⟩

end Plan

/-! ## Requests -/

namespace Endpoint

/-- The definitions that the schemas of an endpoint refer to. -/
def definitions (e : Endpoint) : Definitions :=
  e.implementation.service.definitions

/-- The procedure that a request reaches, with its raw arguments. -/
def reached? (e : Endpoint) (request : Request) : Option (Resolved × Payload) :=
  if (e.plan request).allowed && request.method == "OPTIONS" then none
  else
    match (e.plan request).resolve e.implementation.service request with
    | .error _ => none
    | .ok call => (call.procedure.bind e.implementation.resolve).map fun r => (r, call.payload)

/-- The procedure whose handler a request invokes, with the object of arguments that the handler is given. -/
def invocation? (e : Endpoint) (request : Request) : Option (Resolved × Value) :=
  (e.reached? request).bind fun (r, payload) =>
    (bindArguments e.definitions r.procedure payload).toOption.map fun args => (r, args)

/-- The ways that a request can take, each with its outcome. -/
inductive Course (e : Endpoint) (request : Request) : Traced (Except CallFault Response) → Prop where
  | preflight (hallowed : (e.plan request).allowed = true) (hmethod : request.method = "OPTIONS")
      (hreached : e.reached? request = none) :
      Course e request ⟨[], .ok .preflight⟩
  | refused (error : GatewayError)
      (hresolve : (e.plan request).resolve e.implementation.service request = .error error)
      (hreached : e.reached? request = none) :
      Course e request ⟨[], .error (.refused error)⟩
  | unnamed (call : Call) (hresolve : (e.plan request).resolve e.implementation.service request = .ok call)
      (hname : call.procedure = none) (hreached : e.reached? request = none) :
      Course e request ⟨[], .error (.refused .missingMethodName)⟩
  | unknown (call : Call) (name : String)
      (hresolve : (e.plan request).resolve e.implementation.service request = .ok call)
      (hname : call.procedure = some name) (hunknown : e.implementation.resolve name = none)
      (hreached : e.reached? request = none) :
      Course e request
        ⟨[.routeResolved name call.routed], .error (.refused (.methodNotFound name call.routed))⟩
  | unbound (call : Call) (name : String) (r : Resolved) (fault : CallFault)
      (hname : call.procedure = some name) (hreached : e.reached? request = some (r, call.payload))
      (hbind : bindArguments e.definitions r.procedure call.payload = .error fault) :
      Course e request ⟨[.routeResolved name call.routed], .error fault⟩
  | invoked (call : Call) (name : String) (r : Resolved) (args : Value)
      (hname : call.procedure = some name) (hreached : e.reached? request = some (r, call.payload))
      (hbind : bindArguments e.definitions r.procedure call.payload = .ok args) :
      Course e request
        ⟨.routeResolved name call.routed :: (r.invoke e.definitions args).incidents,
          (r.invoke e.definitions args).result⟩

/-- Every request takes one of the courses. -/
theorem perform_course (e : Endpoint) (request : Request) :
    Course e request (e.perform (e.plan request) request) := by
  unfold perform
  by_cases hpreflight : ((e.plan request).allowed && request.method == "OPTIONS") = true
  · rw [if_pos hpreflight]
    obtain ⟨hallowed, hmethod⟩ := Bool.and_eq_true_iff.mp hpreflight
    exact .preflight hallowed (by simpa using hmethod) (by rw [reached?, if_pos hpreflight])
  · rw [if_neg hpreflight]
    cases hresolve : (e.plan request).resolve e.implementation.service request with
    | error error => exact .refused error hresolve (by rw [reached?, if_neg hpreflight, hresolve])
    | ok call =>
      have hreached : e.reached? request =
          (call.procedure.bind e.implementation.resolve).map fun r => (r, call.payload) := by
        rw [reached?, if_neg hpreflight, hresolve]
      cases hname : call.procedure with
      | none => simpa [hname] using Course.unnamed call hresolve hname (by simp [hreached, hname])
      | some name =>
        cases hfound : e.implementation.resolve name with
        | none =>
          have hcourse := Course.unknown call name hresolve hname hfound (by simp [hreached, hname, hfound])
          simpa [hname, callProcedure, hfound] using hcourse
        | some r =>
          have hreached : e.reached? request = some (r, call.payload) := by
            simp [hreached, hname, hfound]
          cases hbind : bindArguments e.implementation.service.definitions r.procedure call.payload with
          | error fault =>
            have hcourse := Course.unbound call name r fault hname hreached hbind
            simpa [hname, callProcedure, hfound, hbind] using hcourse
          | ok args =>
            have hcourse := Course.invoked call name r args hname hreached hbind
            simpa [hname, callProcedure, hfound, hbind, definitions] using hcourse

/-- The result of a request that has reached a procedure. -/
theorem perform_of_reached {e : Endpoint} {request : Request} {r : Resolved} {payload : Payload}
    (hreached : e.reached? request = some (r, payload)) :
    (e.perform (e.plan request) request).result =
      match bindArguments e.definitions r.procedure payload with
      | .error fault => .error fault
      | .ok args => (r.invoke e.definitions args).result := by
  have hcourse := e.perform_course request
  generalize e.perform (e.plan request) request = outcome at hcourse
  cases hcourse with
  | preflight _ _ hnone | refused _ _ hnone | unnamed _ _ _ hnone | unknown _ _ _ _ _ hnone =>
    rw [hnone] at hreached
    cases hreached
  | unbound call name r' fault _ hreached' hbind | invoked call name r' args _ hreached' hbind =>
    rw [hreached'] at hreached
    cases hreached
    rw [hbind]

/-- What a request reaches is what some name resolves to. -/
theorem resolve_of_reached {e : Endpoint} {request : Request} {r : Resolved} {payload : Payload}
    (hreached : e.reached? request = some (r, payload)) : ∃ name, e.implementation.resolve name = some r := by
  unfold reached? at hreached
  split at hreached
  · cases hreached
  · split at hreached
    · cases hreached
    · obtain ⟨found, hfound, hpair⟩ := Option.map_eq_some_iff.mp hreached
      obtain ⟨rfl, -⟩ := Prod.mk.inj hpair
      obtain ⟨name, -, hresolve⟩ := Option.bind_eq_some_iff.mp hfound
      exact ⟨name, hresolve⟩

theorem invocation?_of_reached {e : Endpoint} {request : Request} {r : Resolved} {payload : Payload}
    (hreached : e.reached? request = some (r, payload)) :
    e.invocation? request =
      (bindArguments e.definitions r.procedure payload).toOption.map fun args => (r, args) := by
  simp [invocation?, hreached]

/-- A handler is invoked exactly when the arguments of the procedure that was reached can be bound. -/
theorem invocation?_eq_some_iff (e : Endpoint) (request : Request) (r : Resolved) (args : Value) :
    e.invocation? request = some (r, args) ↔
      ∃ payload, e.reached? request = some (r, payload) ∧
        bindArguments e.definitions r.procedure payload = .ok args := by
  cases hreached : e.reached? request with
  | none => simp [invocation?, hreached]
  | some found =>
    obtain ⟨found, payload⟩ := found
    rw [invocation?_of_reached hreached]
    cases hbind : bindArguments e.definitions found.procedure payload with
    | error fault =>
      simp only [Except.toOption, Option.map_none, reduceCtorEq, Option.some.injEq, Prod.mk.injEq, false_iff]
      rintro ⟨_, ⟨rfl, rfl⟩, hok⟩
      rw [hbind] at hok
      cases hok
    | ok bound =>
      simp only [Except.toOption, Option.map_some, Option.some.injEq, Prod.mk.injEq]
      constructor
      · rintro ⟨rfl, rfl⟩
        exact ⟨payload, ⟨rfl, rfl⟩, hbind⟩
      · rintro ⟨_, ⟨rfl, rfl⟩, hok⟩
        rw [hbind] at hok
        exact ⟨rfl, Except.ok.inj hok⟩

end Endpoint

end Gateway
