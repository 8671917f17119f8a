import Gateway.Proofs.Pipeline
import Gateway.Proofs.PortableSchemas

/-!
# What is sent as a result can be read

A result is checked by writing its value for the wire and reading that value back.  What travels is the JSON text of
the wire value, and JSON does not keep every value: a number that is not finite becomes null, and a function has no
text at all.  So a client reads the result with the declared return type exactly if that type takes what JSON keeps of
the wire value.  It always does if the wire value is a JSON value, and for a portable type if no scalar in it is lost.
-/

namespace Gateway

/-- Whether a client takes a value for one of a return type: null for an optional type, else what the type reads. -/
def Schema.Takes (defs : Definitions) (s : Schema) (v : Value) : Prop :=
  (v = .null ∧ s.isOptional? defs = .ok true) ∨ ∃ w, s.decode defs v = .accepted w

/-- Whether a body is a JSON text whose value a client takes for one of a return type. -/
def Schema.Readable (defs : Definitions) (s : Schema) (body : Bytes) : Prop :=
  ∃ v, Json.read? (Text.Utf8.decodeDocument body) = some v ∧ s.Takes defs v

namespace Procedure

variable {defs : Definitions} {p : Procedure} {result wire : Value}

/-- A result has a wire form if it is nothing and may be, or if it can be written and read back. -/
theorem validateResult_ok (h : p.validateResult defs result = .ok wire) :
    (wire = .null ∧ p.returns.isOptional? defs = .ok true) ∨
      p.returns.encode defs result = .accepted wire ∧ ∃ w, p.returns.decode defs wire = .accepted w := by
  unfold validateResult at h
  split at h
  · cases hoptional : p.returns.isOptional? defs with
    | error f =>
      rw [hoptional] at h
      cases h
    | ok optional =>
      rw [hoptional] at h
      cases optional with
      | false => cases h
      | true =>
        obtain rfl := Except.ok.inj h
        exact .inl ⟨rfl, rfl⟩
  · cases hback : writeBack defs p.returns result with
    | refused =>
      rw [hback] at h
      cases h
    | broken f =>
      rw [hback] at h
      cases h
    | accepted encoded =>
      rw [hback] at h
      obtain rfl := Except.ok.inj h
      obtain ⟨e, hencode, hread⟩ := Verdict.bind_eq_accepted hback
      obtain ⟨w, hw, rfl⟩ := Verdict.map_eq_accepted hread
      exact .inr ⟨hencode, w, hw⟩

/-- The wire form of a result is of the return type before it is written. -/
theorem takes_of_validateResult (h : p.validateResult defs result = .ok wire) : p.returns.Takes defs wire := by
  rcases validateResult_ok h with hnothing | ⟨-, hdecode⟩
  · exact .inl hnothing
  · exact .inr hdecode

/-- A portable return type has trees for wire forms. -/
theorem isTree_of_validateResult (hreturns : p.returns.Portable defs) (h : p.validateResult defs result = .ok wire) :
    Json.isTree wire = true := by
  rcases validateResult_ok h with ⟨rfl, -⟩ | ⟨hencode, -⟩
  · rfl
  · exact hreturns.isTree_of_encode hencode

end Procedure

namespace Resolved

/-- A procedure that returns the same value on every call. -/
def constant (returns : Schema) (v : Value) : Resolved :=
  ⟨.ofDefinition "constant" { Definition.empty with returns }, fun _ => .ok v⟩

/-- A call that answers 200 had a result, and answers with its wire form. -/
theorem result_of_status {defs : Definitions} {r : Resolved} {args : Value} {response : Response}
    (h : (r.invoke defs args).result = .ok response) (hstatus : response.status = 200) :
    ∃ result wire, r.handler args = .ok result ∧ r.procedure.validateResult defs result = .ok wire ∧
      Response.json 200 wire = .ok response := by
  have houtcome := r.invoke_outcome defs args
  generalize r.invoke defs args = outcome at houtcome h
  cases houtcome with
  | result result wire hhandler hvalidate => exact ⟨result, wire, hhandler, hvalidate, answer_eq_ok h⟩
  | declared =>
    rw [answer_status h] at hstatus
    exact absurd hstatus (by decide)
  | mismatch => cases h
  | uncheckedResult => cases h
  | uncheckedError => cases h
  | defect => cases h
  | unshownDefect => cases h

/-- The body of a result is read as what JSON keeps of the wire form, so it is readable with the return type exactly if
the type takes that.  It is readable if the wire form is a JSON value, and for a portable type if nothing in the wire
form is undefined, infinite, no number or a negative zero. -/
theorem result_readable_iff {defs : Definitions} {r : Resolved} {args : Value} {response : Response}
    (h : (r.invoke defs args).result = .ok response) (hstatus : response.status = 200) :
    ∃ result wire, r.handler args = .ok result ∧ r.procedure.validateResult defs result = .ok wire ∧
      Json.read? (Text.Utf8.decodeDocument response.body) = Json.kept wire ∧
      (r.procedure.returns.Readable defs response.body ↔
        ∃ v, Json.kept wire = some v ∧ r.procedure.returns.Takes defs v) ∧
      (Json.isJson wire = true → r.procedure.returns.Readable defs response.body) ∧
      (r.procedure.returns.Portable defs → Json.keepsScalars wire = true →
        r.procedure.returns.Readable defs response.body) := by
  obtain ⟨result, wire, hhandler, hvalidate, hjson⟩ := result_of_status h hstatus
  have hread := Json.read?_body hjson
  have hreadable : Json.isJson wire = true → r.procedure.returns.Readable defs response.body := by
    intro hwire
    refine ⟨wire, ?_, Procedure.takes_of_validateResult hvalidate⟩
    rw [hread, Json.kept_of_isJson hwire]
  refine ⟨result, wire, hhandler, hvalidate, hread, ?_, hreadable, ?_⟩
  · rw [Schema.Readable, hread]
  · intro hreturns hscalars
    exact hreadable (Json.isJson_of_isTree (Procedure.isTree_of_validateResult hreturns hvalidate) hscalars)

open Schema in
/-- A name, a size, a moment and some marks. -/
def itemSchema : Schema :=
  .struct none [required "name" .string, required "size" .number, required "made" .date,
    Schema.optional "marks" (.array (nullOr .trim))]

/-- An item with a fraction and with characters that are escaped. -/
def item : Value :=
  .object [("name", .string "a \"b\"\n😀"), ("size", .number (.ofRatio true 1 3)), ("made", .date (some 0)),
    ("marks", .array [.string "x", .null])]

theorem portable_itemSchema : itemSchema.Portable [] := by
  have hmark : (Schema.nullOr .trim).Everywhere Schema.WritesTrees :=
    .intro trivial (List.forall_mem_cons.mpr
      ⟨.intro trivial (List.forall_mem_nil _), List.forall_mem_singleton.mpr (.intro trivial (List.forall_mem_nil _))⟩)
  have hmarks : (Schema.array (.nullOr .trim)).Everywhere Schema.WritesTrees := by
    refine .intro trivial fun t ht => ?_
    obtain rfl : t = .nullOr .trim := List.mem_singleton.mp ht
    exact hmark
  refine ⟨.intro ⟨by decide, by decide, by decide⟩ fun t ht => ?_, nofun⟩
  simp only [itemSchema, Schema.parts, List.map_cons, List.map_nil, List.mem_cons, List.not_mem_nil, or_false] at ht
  rcases ht with rfl | rfl | rfl | rfl
  · exact .intro trivial (List.forall_mem_nil _)
  · exact .intro trivial (List.forall_mem_nil _)
  · exact .intro trivial (List.forall_mem_nil _)
  · exact .intro trivial (List.forall_mem_cons.mpr
      ⟨hmarks, List.forall_mem_singleton.mpr (.intro trivial (List.forall_mem_nil _))⟩)

theorem result_readable_iff_item :
    ∃ response, ((constant itemSchema item).invoke [] .null).result = .ok response ∧ response.status = 200 ∧
      itemSchema.Readable [] response.body := by
  have hrun : ((constant itemSchema item).invoke [] .null).result.toOption.map (·.status) = some 200 := by
    decide +kernel
  have hscalars :
      ((constant itemSchema item).procedure.validateResult [] item).toOption.map Json.keepsScalars = some true := by
    decide +kernel
  -- The response is kept abstract: its bytes are not evaluated.
  cases hresponse : ((constant itemSchema item).invoke [] .null).result with
  | error f =>
    rw [hresponse] at hrun
    cases hrun
  | ok response =>
    rw [hresponse] at hrun
    have hstatus : response.status = 200 := Option.some.inj hrun
    obtain ⟨result, wire, hhandler, hvalidate, -, -, -, hreadable⟩ := result_readable_iff hresponse hstatus
    obtain rfl : item = result := Except.ok.inj hhandler
    rw [hvalidate] at hscalars
    exact ⟨response, rfl, hstatus, hreadable portable_itemSchema (Option.some.inj hscalars)⟩

theorem not_readable_of_kept {defs : Definitions} {s : Schema} {status : Number} {wire : Value} {response : Response}
    (hjson : Response.json status wire = .ok response) (h : ∀ v, Json.kept wire = some v → ¬s.Takes defs v) :
    ¬s.Readable defs response.body := by
  rintro ⟨v, hread, htakes⟩
  rw [Json.read?_body hjson] at hread
  exact h v hread htakes

/-- Whether a value is sent as a result, in a body that cannot be read with the return type. -/
def SentUnreadable (returns : Schema) (v : Value) : Prop :=
  ∃ response, ((constant returns v).invoke [] .null).result = .ok response ∧ response.status = 200 ∧
    ¬returns.Readable [] response.body

/-- Results that are sent and cannot be read: a number that is not finite, a list with an undefined item, and a
function for a type that takes any value. -/
theorem unreadable_results :
    SentUnreadable .number (.number .nan) ∧ SentUnreadable (.array .undefined) (.array [.undefined]) ∧
      SentUnreadable .unknown (.function "f" .nothing) := by
  refine ⟨?_, ?_, ?_⟩
  · have hjson : Response.json 200 (.number .nan) = .ok ⟨200, Response.jsonHeaders, Text.Utf8.encode "null"⟩ := rfl
    refine ⟨_, rfl, rfl, not_readable_of_kept hjson ?_⟩
    rintro v hv (⟨-, hoptional⟩ | ⟨w, hw⟩)
    · cases hoptional
    · obtain rfl := Option.some.inj hv
      cases hw
  · have hjson : Response.json 200 (.array [.undefined]) =
        .ok ⟨200, Response.jsonHeaders, Text.Utf8.encode "[null]"⟩ := rfl
    refine ⟨_, rfl, rfl, not_readable_of_kept hjson ?_⟩
    rintro v hv (⟨-, hoptional⟩ | ⟨w, hw⟩)
    · cases hoptional
    · obtain rfl := Option.some.inj hv
      cases hw
  · have hjson : Response.json 200 (.function "f" .nothing) = .ok ⟨200, Response.jsonHeaders, []⟩ := rfl
    refine ⟨_, rfl, rfl, not_readable_of_kept hjson ?_⟩
    rintro v hv
    cases hv

end Resolved

end Gateway
