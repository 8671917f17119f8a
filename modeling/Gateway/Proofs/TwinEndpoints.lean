import Gateway.Proofs.Refusals
import Gateway.Proofs.ServiceTables

/-!
# Endpoints that differ in their handlers

Two endpoints are twins if they have the same routes and the same cross-origin policy, and implement one service.  A
request takes the same way through both up to the call of a handler: it invokes the same procedure with the same
arguments (`Twins.invocation?`).  If it invokes none, its answer and its log are the same (`Twins.handle_eq`).
-/

namespace Gateway

namespace Implementation

/-- Two implementations of one service, with handlers under the same names. -/
structure Twins (i j : Implementation) : Prop where
  service : i.service = j.service
  names : Entries.keys i.handlers = Entries.keys j.handlers

theorem Twins.symm {i j : Implementation} (h : i.Twins j) : j.Twins i :=
  ⟨h.service.symm, h.names.symm⟩

/-- Whatever handlers are bound to a service, they make twins. -/
theorem twins_of_bind {service : Service} {table table' : Entries HandlerEntry} {i j : Implementation}
    (hi : bind service table = .ok i) (hj : bind service table' = .ok j) : i.Twins j := by
  obtain ⟨hservice, hnames⟩ := bind_spec hi
  obtain ⟨hservice', hnames'⟩ := bind_spec hj
  exact ⟨hservice.trans hservice'.symm, hnames.trans hnames'.symm⟩

/-- A name that resolves in one implementation resolves to the same procedure in its twin. -/
theorem Twins.resolve {i j : Implementation} (h : i.Twins j) {name : String} {r : Resolved}
    (hr : i.resolve name = some r) : ∃ handler, j.resolve name = some ⟨r.procedure, handler⟩ := by
  unfold Implementation.resolve at hr
  obtain ⟨p, hp, hhandler⟩ := Option.bind_eq_some_iff.mp hr
  obtain ⟨handler, hlisted, rfl⟩ := Option.map_eq_some_iff.mp hhandler
  have hname : p.name ∈ Entries.keys j.handlers := by
    rw [← h.names, ← Entries.get?_isSome_iff]
    exact Option.isSome_of_eq_some hlisted
  obtain ⟨handler', hlisted'⟩ := Option.isSome_iff_exists.mp ((Entries.get?_isSome_iff _ _).mpr hname)
  refine ⟨handler', ?_⟩
  rw [Implementation.resolve, ← h.service, hp, Option.bind_some,
    show j.handlers.lookup p.name = some handler' from hlisted', Option.map_some]

end Implementation

namespace Endpoint

/-- Two endpoints with the same routes and the same cross-origin policy that implement one service. -/
structure Twins (e e' : Endpoint) : Prop where
  routes : e.routes = e'.routes
  cors : e.cors = e'.cors
  implementation : e.implementation.Twins e'.implementation

/-- Whatever handlers are bound to a service, the endpoints that are made with them are twins. -/
theorem twins_of_create {service : Service} {table table' : Entries HandlerEntry} {i i' : Implementation}
    {options : EndpointOptions} {e e' : Endpoint} (hbind : Implementation.bind service table = .ok i)
    (hbind' : Implementation.bind service table' = .ok i') (hcreate : create i options = .ok e)
    (hcreate' : create i' options = .ok e') : e.Twins e' := by
  have htwins := Implementation.twins_of_bind hbind hbind'
  unfold create at hcreate hcreate'
  rw [← htwins.service] at hcreate'
  cases hroutes : RouteTable.ofService i.service with
  | error error => simp [hroutes] at hcreate
  | ok routes =>
    simp only [hroutes, Except.ok.injEq] at hcreate hcreate'
    subst hcreate hcreate'
    exact ⟨rfl, rfl, htwins⟩

namespace Twins

variable {e e' : Endpoint} (h : e.Twins e')

include h

theorem symm : e'.Twins e :=
  ⟨h.routes.symm, h.cors.symm, h.implementation.symm⟩

theorem plan_eq (request : Request) : e'.plan request = e.plan request := by
  rw [plan, plan, h.routes, h.cors]

theorem definitions_eq : e'.definitions = e.definitions := by
  rw [definitions, definitions, h.implementation.service]

/-- A request reaches the same procedure with the same raw arguments. -/
theorem reached? {request : Request} {r : Resolved} {payload : Payload}
    (hr : e.reached? request = some (r, payload)) :
    ∃ handler, e'.reached? request = some (⟨r.procedure, handler⟩, payload) := by
  unfold Endpoint.reached? at hr ⊢
  rw [h.plan_eq, ← h.implementation.service]
  split at hr
  · cases hr
  · rename_i hpreflight
    rw [if_neg hpreflight]
    split at hr
    · cases hr
    · obtain ⟨r', hr', hpair⟩ := Option.map_eq_some_iff.mp hr
      obtain ⟨rfl, rfl⟩ := Prod.mk.inj hpair
      obtain ⟨name, hname, hresolve⟩ := Option.bind_eq_some_iff.mp hr'
      obtain ⟨handler, hhandler⟩ := h.implementation.resolve hresolve
      exact ⟨handler, by simp [hname, hhandler]⟩

/-- A request invokes the handler of the same procedure with the same arguments. -/
theorem invocation? {request : Request} {r : Resolved} {args : Value}
    (hr : e.invocation? request = some (r, args)) :
    ∃ handler, e'.invocation? request = some (⟨r.procedure, handler⟩, args) := by
  obtain ⟨payload, hreached, hbind⟩ := (e.invocation?_eq_some_iff request r args).mp hr
  obtain ⟨handler, hreached'⟩ := h.reached? hreached
  refine ⟨handler, (e'.invocation?_eq_some_iff request _ args).mpr ⟨payload, hreached', ?_⟩⟩
  rw [h.definitions_eq]
  exact hbind

/-- A call whose arguments cannot be bound does not look at the handlers. -/
theorem callProcedure_eq {name : String} {payload : Payload}
    (hunbound : ∀ r args, e.implementation.resolve name = some r →
      bindArguments e.definitions r.procedure payload ≠ .ok args) (routed : Bool) :
    e'.callProcedure name routed payload = e.callProcedure name routed payload := by
  unfold callProcedure
  cases hresolve : e.implementation.resolve name with
  | none =>
    cases hresolve' : e'.implementation.resolve name with
    | none => rfl
    | some r' =>
      obtain ⟨handler, hfound⟩ := h.symm.implementation.resolve hresolve'
      rw [hfound] at hresolve
      cases hresolve
  | some r =>
    obtain ⟨handler, hresolve'⟩ := h.implementation.resolve hresolve
    simp only [hresolve', ← h.implementation.service]
    cases hbind : bindArguments e.implementation.service.definitions r.procedure payload with
    | error fault => rfl
    | ok args => exact absurd hbind (hunbound r args hresolve)

/-- The outcome of a request that invokes no handler. -/
theorem perform_eq {request : Request} (hnone : e.invocation? request = none) :
    e'.perform (e.plan request) request = e.perform (e.plan request) request := by
  unfold perform
  by_cases hpreflight : ((e.plan request).allowed && request.method == "OPTIONS") = true
  · rw [if_pos hpreflight, if_pos hpreflight]
  · rw [if_neg hpreflight, if_neg hpreflight, ← h.implementation.service]
    cases hresolve : (e.plan request).resolve e.implementation.service request with
    | error error => rfl
    | ok call =>
      cases hname : call.procedure with
      | none => simp only [hname]
      | some name =>
        have hcall : e'.callProcedure name call.routed call.payload =
            e.callProcedure name call.routed call.payload := by
          apply h.callProcedure_eq
          intro r args hfound hbind
          have hreached : e.reached? request = some (r, call.payload) := by
            simp [Endpoint.reached?, hpreflight, hresolve, hname, hfound]
          rw [(e.invocation?_eq_some_iff request r args).mpr ⟨_, hreached, hbind⟩] at hnone
          cases hnone
        simp only [hname, hcall]

/-- The answer to a request that invokes no handler, and its log. -/
theorem handle_eq {request : Request} (hnone : e.invocation? request = none) (requestId : String)
    (start finish : Number) : e'.handle requestId start finish request = e.handle requestId start finish request := by
  have hrespond : e'.respond? request = e.respond? request := by
    simp only [respond?, h.plan_eq, h.perform_eq hnone]
  rw [handle, handle, hrespond]

end Twins

/-! ## A procedure with any outcome -/

/-- A table with one procedure, which takes no arguments, returns a number and may fail with a text. -/
def quotaTable : Entries Definition :=
  [("quota", ((Definition.empty.returning .number).failing [.string]).routed "GET" "/quota")]

/-- A handler with a fixed outcome. -/
def quotaHandlers (outcome : Except Failure Value) : Entries HandlerEntry :=
  [("quota", .function fun _ => outcome)]

/-- A call of the procedure from an origin. -/
def quotaRequest : Request :=
  .make "GET" "/quota" "" [("Origin", "https://example.com")] []

/-- Whether an endpoint was built from the table and a handler with this outcome. -/
def IsQuota (outcome : Except Failure Value) (e : Endpoint) : Prop :=
  ∃ (service : Service) (i : Implementation), Service.build "s" [] quotaTable = .ok service ∧
    Implementation.bind service (quotaHandlers outcome) = .ok i ∧ create i .standard = .ok e

theorem IsQuota.twins {outcome outcome' : Except Failure Value} {e e' : Endpoint} (h : IsQuota outcome e)
    (h' : IsQuota outcome' e') : e.Twins e' := by
  obtain ⟨service, i, hbuild, hbind, hcreate⟩ := h
  obtain ⟨service', i', hbuild', hbind', hcreate'⟩ := h'
  obtain rfl : service = service' := Except.ok.inj (hbuild.symm.trans hbuild')
  exact twins_of_create hbind hbind' hcreate hcreate'

end Endpoint

end Gateway
