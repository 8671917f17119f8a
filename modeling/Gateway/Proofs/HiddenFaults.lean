import Gateway.Proofs.CorsHeaders
import Gateway.Proofs.TwinEndpoints

/-!
# Faults of the server hide their values

A failure that was not declared is answered with one fixed body and status 500, whatever its value is.  The answer has
the cross-origin headers unless a fault stops it (`Failure.Stops`): the check of a declared type may break, and so may
the line for the log.  That is all that the answer shows of the value (`faults_hide_values`).  A result that the return
type rejects shows only whether it is nothing.
-/

namespace Gateway

/-! ## Failures that were not declared -/

/-- Whether no declared error type accepts the error value of a failure.  A defect has none, whatever its value. -/
def Failure.Undeclared (defs : Definitions) (p : Procedure) (failure : Failure) : Prop :=
  ∀ error, failure.firstError? = some error → ∀ s ∈ p.errors, s.accepts defs error ≠ .ok true

/-- Whether a fault stops the answer to a failure: a declared type cannot be checked, or the failure has no line for
the log. -/
def Failure.Stops (defs : Definitions) (p : Procedure) (failure : Failure) : Prop :=
  (∃ fault, declaredForm defs p failure = .error fault) ∨ ∃ fault, failure.summary = .error fault

theorem Procedure.firstAccepting_ne_some {defs : Definitions} {error : Value} {schemas : List Schema}
    (h : ∀ s ∈ schemas, s.accepts defs error ≠ .ok true) (form : Value) :
    firstAccepting defs error schemas ≠ .ok (some form) := by
  induction schemas with
  | nil => nofun
  | cons s rest ih =>
    have hrest := ih fun t ht => h t (List.mem_cons_of_mem s ht)
    cases haccepts : s.accepts defs error with
    | error fault => simp [firstAccepting, haccepts]
    | ok accepted =>
      cases accepted with
      | true => exact absurd haccepts (h s List.mem_cons_self)
      | false => simpa [firstAccepting, haccepts] using hrest

theorem Failure.Undeclared.declaredForm_ne_some {defs : Definitions} {p : Procedure} {failure : Failure}
    (h : failure.Undeclared defs p) (form : Value) : declaredForm defs p failure ≠ .ok (some form) := by
  unfold declaredForm
  cases herror : failure.firstError? with
  | none => nofun
  | some error => exact Procedure.firstAccepting_ne_some (h error herror) form

/-- A failure that was not declared is refused without a look at its value, unless a fault stops the answer. -/
theorem Failure.Undeclared.answerFailure {defs : Definitions} {p : Procedure} {failure : Failure}
    (h : failure.Undeclared defs p) :
    (failure.Stops defs p ∧ ∃ fault, (answerFailure defs p failure).result = .error (.broken fault)) ∨
    (¬ failure.Stops defs p ∧
      (answerFailure defs p failure).result = .error (.refused (.handlerDefect p.wireName))) := by
  unfold Gateway.answerFailure Failure.Stops
  cases hform : declaredForm defs p failure with
  | error fault => simp
  | ok form =>
    cases form with
    | some form => exact absurd hform (h.declaredForm_ne_some form)
    | none => cases hsummary : failure.summary <;> simp [answerDefect, hsummary]

/-! ## Results that are rejected -/

/-- Whether the return type rejects a result. -/
def Procedure.Rejects (defs : Definitions) (p : Procedure) (result : Value) : Prop :=
  ∃ error, p.validateResult defs result = .error (.refused error)

/-- A rejected result is told apart only by whether it is nothing. -/
theorem Procedure.Rejects.validateResult {defs : Definitions} {p : Procedure} {result : Value}
    (h : p.Rejects defs result) :
    p.validateResult defs result = .error (.refused (p.fault defs result.isNothing)) := by
  obtain ⟨error, herror⟩ := h
  rw [herror]
  unfold Procedure.validateResult at herror
  cases hnothing : result.isNothing with
  | true =>
    rw [hnothing, if_pos rfl] at herror
    split at herror
    · cases herror
    · rw [← herror]
    · cases herror
  | false =>
    rw [hnothing, if_neg Bool.false_ne_true] at herror
    split at herror
    · cases herror
    · rw [← herror]
    · cases herror

/-! ## Answers -/

namespace Endpoint

/-- The answer to a request that invokes a handler. -/
theorem handle_of_invoked {e : Endpoint} {request : Request} {r : Resolved} {args : Value}
    (h : e.invocation? request = some (r, args)) (requestId : String) (start finish : Number) :
    (e.handle requestId start finish request).response =
      written (e.plan request) request (r.invoke e.definitions args).result := by
  obtain ⟨payload, hreached, hbind⟩ := (e.invocation?_eq_some_iff request r args).mp h
  rw [handle_response, perform_of_reached hreached, hbind]

/-- A defect of a handler is answered as if the pipeline had broken, but with the cross-origin headers. -/
theorem render_handlerDefect (plan : Plan) (request : Request) (procedure : String) :
    render plan request (.handlerDefect procedure) = brokenResponse request := by
  have henvelope : Envelope.make 500 request.method request.path (some "Internal Server Error") =
      Envelope.make 500 request.method request.path none := by
    have hphrase : Status.phrase 500 = "Internal Server Error" := by decide
    have hbad : (500 : Number) ≠ 400 := by decide
    simp [Envelope.make, hphrase, hbad]
  show Response.error 500 request.method request.path (some "Internal Server Error") = _
  rw [Response.error, henvelope]
  rfl

/-- The answer to a failure that was not declared is the same for all values, with the cross-origin headers or without
them. -/
theorem handle_of_undeclared {e : Endpoint} {request : Request} {r : Resolved} {args : Value} {failure : Failure}
    (hinvoked : e.invocation? request = some (r, args)) (hfailed : r.handler args = .error failure)
    (hundeclared : failure.Undeclared e.definitions r.procedure) (requestId : String) (start finish : Number) :
    (failure.Stops e.definitions r.procedure ∧
      (e.handle requestId start finish request).response = brokenResponse request) ∨
    (¬ failure.Stops e.definitions r.procedure ∧ (e.handle requestId start finish request).response =
      (brokenResponse request).withHeaders (e.plan request).cors.headers) := by
  have hresult : (r.invoke e.definitions args).result =
      (answerFailure e.definitions r.procedure failure).result := by
    simp [Resolved.invoke, hfailed]
  rw [handle_of_invoked hinvoked, hresult]
  rcases hundeclared.answerFailure with ⟨hstops, fault, hbroken⟩ | ⟨hruns, hrefused⟩
  · rw [hbroken]
    exact .inl ⟨hstops, rfl⟩
  · rw [hrefused]
    refine .inr ⟨hruns, ?_⟩
    show (render _ _ _).withHeaders _ = _
    rw [render_handlerDefect]

theorem handle_of_rejected_result {e : Endpoint} {request : Request} {r : Resolved} {args result : Value}
    (hinvoked : e.invocation? request = some (r, args)) (hresult : r.handler args = .ok result)
    (hrejects : r.procedure.Rejects e.definitions result) (requestId : String) (start finish : Number) :
    (e.handle requestId start finish request).response =
      written (e.plan request) request
        (.error (.refused (r.procedure.fault e.definitions result.isNothing))) := by
  have hrefused : (r.invoke e.definitions args).result =
      .error (.refused (r.procedure.fault e.definitions result.isNothing)) := by
    simp [Resolved.invoke, hresult, answerResult, hrejects.validateResult]
  rw [handle_of_invoked hinvoked, hrefused]

/-- The cross-origin headers are there to be seen. -/
theorem withHeaders_brokenResponse_ne (e : Endpoint) (request : Request) :
    (brokenResponse request).withHeaders (e.plan request).cors.headers ≠ brokenResponse request := by
  have hown : (brokenResponse request).headers ∈ ownHeaders (e.plan request) := by
    rw [brokenResponse, Response.error_headers]
    simp [ownHeaders]
  have hcarries := e.carriesCors_withHeaders request (hasOwnNames_of_ownHeaders hown)
  intro hsame
  rw [hsame] at hcarries
  exact e.not_carriesCors_brokenResponse request hcarries

/-- Two implementations of one service answer alike to two failures that were not declared, but for the cross-origin
headers: they are there exactly if no fault stops the answer.  They answer alike to two rejected results that are
both nothing or both something. -/
theorem faults_hide_values {e e' : Endpoint} (htwins : e.Twins e') {request : Request} {r r' : Resolved}
    {args args' : Value} (hinvoked : e.invocation? request = some (r, args))
    (hinvoked' : e'.invocation? request = some (r', args')) (requestId requestId' : String)
    (start start' finish finish' : Number) :
    (r'.procedure = r.procedure ∧ args' = args) ∧
    (∀ failure failure', r.handler args = .error failure → r'.handler args = .error failure' →
      failure.Undeclared e.definitions r.procedure → failure'.Undeclared e.definitions r.procedure →
      (e.handle requestId start finish request).response.status = 500 ∧
      (e'.handle requestId' start' finish' request).response.status = 500 ∧
      (e'.handle requestId' start' finish' request).response.body =
        (e.handle requestId start finish request).response.body ∧
      ((e'.handle requestId' start' finish' request).response =
          (e.handle requestId start finish request).response ↔
        (failure'.Stops e.definitions r.procedure ↔ failure.Stops e.definitions r.procedure))) ∧
    (∀ result result', r.handler args = .ok result → r'.handler args = .ok result' →
      r.procedure.Rejects e.definitions result → r.procedure.Rejects e.definitions result' →
      result'.isNothing = result.isNothing →
      (e.handle requestId start finish request).response.status = 500 ∧
      (e'.handle requestId' start' finish' request).response =
        (e.handle requestId start finish request).response) := by
  obtain ⟨handler, hfound⟩ := htwins.invocation? hinvoked
  rw [hfound] at hinvoked'
  obtain ⟨rfl, rfl⟩ : ⟨r.procedure, handler⟩ = r' ∧ args = args' := by simpa using hinvoked'
  have hplan := htwins.plan_eq request
  have hdefinitions := htwins.definitions_eq
  refine ⟨⟨rfl, rfl⟩, ?_, ?_⟩
  · intro failure failure' hfailed hfailed' hundeclared hundeclared'
    have hanswer := handle_of_undeclared hinvoked hfailed hundeclared requestId start finish
    have hanswer' :=
      handle_of_undeclared hfound hfailed' (hdefinitions.symm ▸ hundeclared') requestId' start' finish'
    rw [hdefinitions, hplan] at hanswer'
    have hstatus : (brokenResponse request).status = 500 := Response.error_status 500 _ _ _
    have hne := e.withHeaders_brokenResponse_ne request
    generalize brokenResponse request = bare at hanswer hanswer' hstatus hne
    rcases hanswer with ⟨hstops, hanswer⟩ | ⟨hruns, hanswer⟩ <;>
      rcases hanswer' with ⟨hstops', hanswer'⟩ | ⟨hruns', hanswer'⟩ <;>
      rw [hanswer, hanswer']
    · exact ⟨hstatus, hstatus, rfl, by simp [hstops, hstops']⟩
    · exact ⟨hstatus, hstatus, rfl, by simp [hstops, hruns', hne]⟩
    · exact ⟨hstatus, hstatus, rfl, by simp [hruns, hstops', hne.symm]⟩
    · exact ⟨hstatus, hstatus, rfl, by simp [hruns, hruns']⟩
  · intro result result' hresult hresult' hrejects hrejects' hnothing
    have hanswer := handle_of_rejected_result hinvoked hresult hrejects requestId start finish
    have hanswer' :=
      handle_of_rejected_result hfound hresult' (hdefinitions.symm ▸ hrejects') requestId' start' finish'
    rw [hplan, hdefinitions, hnothing] at hanswer'
    refine ⟨?_, hanswer'.trans hanswer.symm⟩
    rw [hanswer]
    exact render_status _ _ _

/-! ## One procedure with several outcomes -/

/-- The procedure of `quotaTable`. -/
def quotaProcedure : Procedure :=
  .ofDefinition "quota" (((Definition.empty.returning .number).failing [.string]).routed "GET" "/quota")

/-- The request invokes the handler, whatever its outcome is. -/
theorem IsQuota.invocation? {outcome : Except Failure Value} {e : Endpoint} (h : IsQuota outcome e) :
    ∃ args, e.invocation? quotaRequest = some (⟨quotaProcedure, fun _ => outcome⟩, args) := by
  have hready : ∃ e₀, IsQuota (.ok .null) e₀ ∧ (e₀.invocation? quotaRequest).isSome = true :=
    ⟨_, ⟨_, _, rfl, rfl, rfl⟩, by decide +kernel⟩
  obtain ⟨e₀, he₀, hinvoked₀⟩ := hready
  obtain ⟨⟨r, args⟩, hfound⟩ := Option.isSome_iff_exists.mp hinvoked₀
  obtain ⟨handler, hinvoked⟩ := (he₀.twins h).invocation? hfound
  obtain ⟨payload, hreached, -⟩ := (e.invocation?_eq_some_iff _ _ _).mp hinvoked
  obtain ⟨name, hresolve⟩ := resolve_of_reached hreached
  obtain ⟨service, i, hbuild, hbind, hcreate⟩ := h
  obtain rfl := Except.ok.inj hbuild
  obtain rfl := Except.ok.inj hbind
  obtain rfl := Except.ok.inj hcreate
  obtain ⟨p, hp, hhandler⟩ := Option.bind_eq_some_iff.mp hresolve
  obtain rfl : p = quotaProcedure := List.mem_singleton.mp (Service.mem_of_lookup hp).1
  exact ⟨args, hinvoked.trans (by rw [← Option.some.inj hhandler])⟩

theorem IsQuota.definitions {outcome : Except Failure Value} {e : Endpoint} (h : IsQuota outcome e) :
    e.definitions = [] := by
  obtain ⟨service, i, hbuild, hbind, hcreate⟩ := h
  obtain rfl := Except.ok.inj hbuild
  obtain rfl := Except.ok.inj hbind
  obtain rfl := Except.ok.inj hcreate
  rfl

/-- A defect whose value would do as a declared error is answered as a failure with another value is, and a text
is rejected as a list is. -/
theorem faults_hide_values_quota :
    (∃ e e' : Endpoint, IsQuota (.error (.defect (.string "boom"))) e ∧ IsQuota (.error (.error (.number 7))) e' ∧
      Schema.string.accepts [] (.string "boom") = .ok true ∧
      (e.handle "req-1" 0 0 quotaRequest).response.status = 500 ∧
      (e'.handle "req-2" 0 0 quotaRequest).response = (e.handle "req-1" 0 0 quotaRequest).response) ∧
    (∃ e e' : Endpoint, IsQuota (.ok (.string "1")) e ∧ IsQuota (.ok (.array [])) e' ∧
      (e.handle "req-1" 0 0 quotaRequest).response.status = 500 ∧
      (e'.handle "req-2" 0 0 quotaRequest).response = (e.handle "req-1" 0 0 quotaRequest).response) := by
  have hquota : ∀ outcome, ∃ e, IsQuota outcome e := fun outcome => ⟨_, _, _, rfl, rfl, rfl⟩
  constructor
  · obtain ⟨e, he⟩ := hquota (.error (.defect (.string "boom")))
    obtain ⟨e', he'⟩ := hquota (.error (.error (.number 7)))
    obtain ⟨args, hinvoked⟩ := he.invocation?
    obtain ⟨args', hinvoked'⟩ := he'.invocation?
    obtain ⟨-, hfailures, -⟩ := faults_hide_values (he.twins he') hinvoked hinvoked' "req-1" "req-2" 0 0 0 0
    rw [he.definitions] at hfailures
    have hdefect : (Failure.defect (.string "boom")).Undeclared [] quotaProcedure := by
      intro error herror
      cases herror
    have herror : (Failure.error (.number 7)).Undeclared [] quotaProcedure := by
      intro error herror s hs
      obtain rfl := Option.some.inj herror
      obtain rfl : s = .string := List.mem_singleton.mp hs
      nofun
    have hruns : ¬ (Failure.defect (.string "boom")).Stops [] quotaProcedure := by
      rintro (⟨fault, hfault⟩ | ⟨fault, hfault⟩) <;> cases hfault
    have hruns' : ¬ (Failure.error (.number 7)).Stops [] quotaProcedure := by
      rintro (⟨fault, hfault⟩ | ⟨fault, hfault⟩) <;> cases hfault
    obtain ⟨hstatus, -, -, hsame⟩ := hfailures _ _ rfl rfl hdefect herror
    exact ⟨e, e', he, he', rfl, hstatus, hsame.mpr (iff_of_false hruns' hruns)⟩
  · obtain ⟨e, he⟩ := hquota (.ok (.string "1"))
    obtain ⟨e', he'⟩ := hquota (.ok (.array []))
    obtain ⟨args, hinvoked⟩ := he.invocation?
    obtain ⟨args', hinvoked'⟩ := he'.invocation?
    obtain ⟨-, -, hresults⟩ := faults_hide_values (he.twins he') hinvoked hinvoked' "req-1" "req-2" 0 0 0 0
    rw [he.definitions] at hresults
    obtain ⟨hstatus, hsame⟩ := hresults _ _ rfl rfl ⟨_, rfl⟩ ⟨_, rfl⟩ rfl
    exact ⟨e, e', he, he', hstatus, hsame⟩

/-- A defect without a line for the log costs the answer its cross-origin headers, and so shows itself. -/
theorem unprintable_defect_shows :
    ∃ e e' : Endpoint, IsQuota (.error (.defect (.string "boom"))) e ∧ IsQuota (.error (.defect (.bigint 7))) e' ∧
      (e.handle "req-1" 0 0 quotaRequest).response.headers.get? "Vary" = some "Origin" ∧
      (e'.handle "req-1" 0 0 quotaRequest).response.headers.get? "Vary" = none ∧
      (e'.handle "req-1" 0 0 quotaRequest).response ≠ (e.handle "req-1" 0 0 quotaRequest).response :=
  ⟨_, _, ⟨_, _, rfl, rfl, rfl⟩, ⟨_, _, rfl, rfl, rfl⟩, by decide +kernel, by decide +kernel, by decide +kernel⟩

end Endpoint

end Gateway
