import Gateway.Proofs.BoundArguments
import Gateway.Proofs.Conversions
import Gateway.Proofs.ServiceTables

/-!
# Where an argument comes from

Each parameter is read from one source: the body if it has the wire name as a key, else what the URI captured under the
normalized wire name, else nothing.  A source offers its schema some values, one after the other, and the first that
is not refused decides.  Merging a body with the captures and binding the parameters from the merged payload comes to
the same as asking each parameter's source in the order of declaration (`bindArguments_by_source`), so keys of the body
that are no wire names do not matter.
-/

namespace Gateway

namespace Binding

/-! ## Sources -/

/-- Where the raw value of a parameter is. -/
inductive Source where
  | body (raw : Value)
  | uri (captured : Captured)
  | absent

/-- The source of a parameter: the body comes before the captures. -/
def sourceOf (captures : Captures) (body : Entries Value) (p : Parameter) : Source :=
  match Entries.get? body p.wireName with
  | some raw => .body raw
  | none =>
    match captures.lookup (normalizeName p.wireName) with
    | some captured => .uri captured
    | none => .absent

/-- What a text says as JSON; a text that is no JSON says itself. -/
def jsonOrText (text : String) : Value :=
  (Json.read? text).getD (.string text)

namespace Source

/-- The values that a source offers to the schema of a parameter, in order.  A body offers its value as it stands.  A
captured text is offered as text and then as JSON, to a list parameter as a list of one; several texts are offered to a
list parameter only.  Nothing is offered as null and then as undefined, to an optional parameter only. -/
def offers (defs : Definitions) (p : Parameter) : Source → List Value
  | .body raw => [raw]
  | .uri (.one text) =>
    if p.isList defs then [.array [.string text], .array [jsonOrText text]] else [.string text, jsonOrText text]
  | .uri (.many texts) =>
    if p.isList defs then [.array (texts.map .string), .array (texts.map jsonOrText)] else []
  | .absent => if p.isOptional defs then [.null, .undefined] else []

/-- The error of a parameter that takes nothing of what its source offers. -/
def error (defs : Definitions) (procedure : String) (p : Parameter) : Source → GatewayError
  | .body raw => invalid defs procedure p raw
  | .uri captured => invalid defs procedure p captured.value
  | .absent =>
    if p.isOptional defs then invalid defs procedure p .null else .requiredArgumentMissing procedure p.wireName

end Source

/-- The argument that a parameter gets from its source. -/
def readSource (defs : Definitions) (procedure : String) (captures : Captures) (body : Entries Value) (p : Parameter) :
    Except CallFault Value :=
  let source := sourceOf captures body p
  settle (.firstOf ((source.offers defs p).map (p.schema.decode defs))) (source.error defs procedure p)

/-! ## One parameter -/

theorem readItems_texts (texts : List String) : readItems (texts.map .string) = texts.map jsonOrText := by
  induction texts with
  | nil => rfl
  | cons text rest ih => rw [List.map_cons, readItems, ih, List.map_cons, readTexts, jsonOrText]

section Rules

variable (defs : Definitions) (procedure : String) (p : Parameter)

theorem bindBody_eq (raw : Value) :
    bindBody defs procedure p raw =
      settle (.firstOf (((Source.body raw).offers defs p).map (p.schema.decode defs)))
        ((Source.body raw).error defs procedure p) := by
  rw [Source.offers, List.map_singleton, Verdict.firstOf_single]
  rfl

theorem bindAbsent_eq :
    bindAbsent defs procedure p =
      settle (.firstOf ((Source.absent.offers defs p).map (p.schema.decode defs)))
        (Source.absent.error defs procedure p) := by
  unfold bindAbsent Source.offers Source.error
  cases p.isOptional defs with
  | false => rfl
  | true => exact congrArg (settle · _) (Verdict.firstOf_pair _ _).symm

theorem bindUri_eq (captured : Captured) :
    bindUri defs procedure p captured.value =
      settle (.firstOf (((Source.uri captured).offers defs p).map (p.schema.decode defs)))
        ((Source.uri captured).error defs procedure p) := by
  unfold bindUri Source.error
  cases captured with
  | one text =>
    cases hlist : p.isList defs with
    | false =>
      simp only [Captured.value, isList, Source.offers, hlist, List.map_cons, List.map_nil, Verdict.firstOf_pair,
        readTexts, jsonOrText, Bool.false_and, Bool.false_eq_true, if_false]
    | true =>
      simp only [Captured.value, isList, Source.offers, hlist, List.map_cons, List.map_nil, Verdict.firstOf_pair,
        readTexts, readItems, jsonOrText, Bool.false_and, Bool.not_false, Bool.and_self, Bool.false_eq_true, if_false,
        if_true]
  | many texts =>
    cases hlist : p.isList defs with
    | false => simp [Captured.value, isList, Source.offers, hlist, Verdict.firstOf, settle]
    | true =>
      simp only [Captured.value, isList, Source.offers, hlist, List.map_cons, List.map_nil, Verdict.firstOf_pair,
        readTexts, readItems_texts, Bool.not_true, Bool.and_false, Bool.false_eq_true, if_false, if_true]

end Rules

end Binding

/-! ## The merged payload -/

theorem Entries.get?_map {α β : Type} (f : α → β) (es : Entries α) (k : String) :
    get? (es.map fun e => (e.1, f e.2)) k = (get? es k).map f := by
  induction es with
  | nil => rfl
  | cons e rest ih =>
    rw [List.map_cons, get?_cons, get?_cons, ih]
    split <;> rfl

namespace Payload

theorem nodup_keys_captured (parameters : List Parameter) (captures : Captures) :
    (Entries.keys (captured parameters captures)).Nodup := by
  unfold captured
  refine List.foldlRecOn (motive := fun found => (Entries.keys found).Nodup) parameters _ List.nodup_nil ?_
  intro found hfound p _
  split
  · exact Entries.nodup_keys_set hfound _ _
  · exact hfound

/-- What the merged payload holds under a key is what the body holds, and else what was captured. -/
theorem get?_merge {captured : Entries Captured} {body : Entries Value} (hcaptured : (Entries.keys captured).Nodup)
    (hbody : (Entries.keys body).Nodup) {k : String} (hk : k ≠ Entries.reservedKey) :
    Entries.get? (merge captured body).values k =
      (Entries.get? body k).or ((Entries.get? captured k).map Captured.value) := by
  have hvalues : Entries.keys (captured.map fun c => (c.1, c.2.value)) = Entries.keys captured := by
    simp [Entries.keys]
  rw [merge, Entries.get?_assign (Entries.nodup_keys_ofPairs _) body hk, Entries.get?_reverse hbody,
    Entries.get?_ofPairs, Entries.get?_reverse (hvalues ▸ hcaptured), Entries.get?_map]

theorem mem_fromUri_merge (captured : Entries Captured) (body : Entries Value) (k : String) :
    k ∈ (merge captured body).fromUri ↔ k ∈ Entries.keys captured ∧ Entries.get? body k = none := by
  rw [merge, List.mem_filter, Entries.get?_eq_none_iff, ← Entries.has_iff_mem_keys body, Bool.not_eq_true,
    Bool.not_eq_true']

end Payload

namespace Binding

variable (defs : Definitions) (procedure : String)

/-- A parameter is bound from the merged payload as it is read from its source. -/
theorem bindParameter_merge {parameters : List Parameter} {p : Parameter} (hp : p ∈ parameters)
    (hname : p.wireName ≠ Entries.reservedKey) (captures : Captures) {body : Entries Value}
    (hbody : (Entries.keys body).Nodup) :
    bindParameter defs procedure (Payload.merge (Payload.captured parameters captures) body) p =
      readSource defs procedure captures body p := by
  have hcaptured : Entries.get? (Payload.captured parameters captures) p.wireName =
      captures.lookup (normalizeName p.wireName) := by
    rw [Payload.get?_captured, if_pos (List.mem_map_of_mem hp)]
  have hvalue := Payload.get?_merge (Payload.nodup_keys_captured parameters captures) hbody hname
  have huri := Payload.mem_fromUri_merge (Payload.captured parameters captures) body p.wireName
  rw [← Entries.get?_isSome_iff, hcaptured] at huri
  rw [hcaptured] at hvalue
  unfold bindParameter readSource sourceOf
  rw [hvalue]
  cases hraw : Entries.get? body p.wireName with
  | some raw =>
    have hnot : p.wireName ∉ (Payload.merge (Payload.captured parameters captures) body).fromUri := by
      simp [huri, hraw]
    simp only [Option.some_or, List.contains_iff_mem, hnot, if_false]
    exact bindBody_eq defs procedure p raw
  | none =>
    cases hlookup : captures.lookup (normalizeName p.wireName) with
    | none => exact bindAbsent_eq defs procedure p
    | some captured =>
      have hin : p.wireName ∈ (Payload.merge (Payload.captured parameters captures) body).fromUri := by
        simp [huri, hraw, hlookup]
      simp only [Option.none_or, Option.map_some, List.contains_iff_mem, hin, if_true]
      exact bindUri_eq defs procedure p captured

/-! ## All parameters -/

/-- Binding a list of parameters reads one after the other, up to the first that fails. -/
theorem bindAll_eq_mapM {payload : Payload} {parameters : List Parameter} {read : Parameter → Except CallFault Value}
    (hread : ∀ q ∈ parameters, bindParameter defs procedure payload q = read q) :
    bindAll defs procedure payload parameters = parameters.mapM fun q => (read q).map fun v => (q.name, v) := by
  induction parameters with
  | nil => rfl
  | cons p rest ih =>
    obtain ⟨hp, hrest⟩ := List.forall_mem_cons.mp hread
    rw [bindAll, hp, ih hrest, List.mapM_cons]
    cases read p with
    | error fault => rfl
    | ok v => cases rest.mapM fun q => (read q).map fun v => (q.name, v) <;> rfl

theorem bindAll_cons_eq_error_iff (payload : Payload) (p : Parameter) (rest : List Parameter) (fault : CallFault) :
    bindAll defs procedure payload (p :: rest) = .error fault ↔
      bindParameter defs procedure payload p = .error fault ∨
        (∃ v, bindParameter defs procedure payload p = .ok v) ∧ bindAll defs procedure payload rest = .error fault := by
  rw [bindAll]
  cases bindParameter defs procedure payload p with
  | error e => simp
  | ok v => cases bindAll defs procedure payload rest <;> simp

/-- Binding fails with the fault of the first parameter that cannot be read. -/
theorem bindAll_eq_error_iff {payload : Payload} {parameters : List Parameter}
    {read : Parameter → Except CallFault Value}
    (hread : ∀ q ∈ parameters, bindParameter defs procedure payload q = read q) (fault : CallFault) :
    bindAll defs procedure payload parameters = .error fault ↔
      ∃ before q after, parameters = before ++ q :: after ∧ (∀ r ∈ before, ∃ v, read r = .ok v) ∧
        read q = .error fault := by
  induction parameters with
  | nil => simp [bindAll]
  | cons p rest ih =>
    obtain ⟨hp, hrest⟩ := List.forall_mem_cons.mp hread
    rw [bindAll_cons_eq_error_iff, hp, ih hrest]
    constructor
    · rintro (hp | ⟨hp, before, q, after, rfl, hbefore, hq⟩)
      · exact ⟨[], p, rest, rfl, List.forall_mem_nil _, hp⟩
      · exact ⟨p :: before, q, after, rfl, List.forall_mem_cons.mpr ⟨hp, hbefore⟩, hq⟩
    · rintro ⟨before, q, after, hsplit, hbefore, hq⟩
      cases before with
      | nil =>
        obtain ⟨rfl, rfl⟩ := List.cons.inj hsplit
        exact .inl hq
      | cons r before =>
        obtain ⟨rfl, rfl⟩ := List.cons.inj hsplit
        obtain ⟨hp, hbefore⟩ := List.forall_mem_cons.mp hbefore
        exact .inr ⟨hp, before, q, after, rfl, hbefore, hq⟩

/-- A refused parameter is named in the error. -/
theorem argument_of_readSource {captures : Captures} {body : Entries Value} {p : Parameter} {e : GatewayError}
    (h : readSource defs procedure captures body p = .error (.refused e)) :
    Entries.get? e.fields "argument" = some (.string p.wireName) := by
  obtain ⟨-, rfl⟩ := (settle_eq_refused_iff _ _ _).mp h
  cases sourceOf captures body p with
  | body raw => rfl
  | uri captured => rfl
  | absent => cases hoptional : p.isOptional defs <;> simp only [Source.error, hoptional] <;> rfl

end Binding

theorem bindArguments_eq_error_iff (defs : Definitions) (p : Procedure) (payload : Payload) (fault : CallFault) :
    bindArguments defs p payload = .error fault ↔
      Binding.bindAll defs p.wireName payload p.parameters = .error fault := by
  unfold bindArguments
  cases Binding.bindAll defs p.wireName payload p.parameters <;> simp

/-- The arguments of a procedure from what the URI captured and the entries of a body. -/
def bindMerged (defs : Definitions) (p : Procedure) (captures : Captures) (body : Entries Value) :
    Except CallFault Value :=
  bindArguments defs p (Payload.merge (Payload.captured p.parameters captures) body)

/-- The arguments of a procedure of a service are those that its parameters get from their sources, one after the other
in the order of declaration.  Binding fails with the fault of the first parameter that fails, and a refusal names that
parameter.  Of the body only the values of wire names matter. -/
theorem bindArguments_by_source {name : String} {definitions : Definitions} {table : Entries Definition}
    {service : Service} (hbuild : Service.build name definitions table = .ok service) {p : Procedure}
    (hp : p ∈ service.procedures) (captures : Captures) {body : Entries Value}
    (hbody : (Entries.keys body).Nodup) :
    bindMerged definitions p captures body =
        (p.parameters.mapM fun q =>
          (Binding.readSource definitions p.wireName captures body q).map fun v => (q.name, v)).map Value.ofPairs ∧
      (∀ fault, bindMerged definitions p captures body = .error fault ↔
        ∃ before q after, p.parameters = before ++ q :: after ∧
          (∀ r ∈ before, ∃ v, Binding.readSource definitions p.wireName captures body r = .ok v) ∧
          Binding.readSource definitions p.wireName captures body q = .error fault) ∧
      (∀ q e, Binding.readSource definitions p.wireName captures body q = .error (.refused e) →
        Entries.get? e.fields "argument" = some (.string q.wireName)) ∧
      ∀ body' : Entries Value, (Entries.keys body').Nodup →
        (∀ q ∈ p.parameters, Entries.get? body' q.wireName = Entries.get? body q.wireName) →
        bindMerged definitions p captures body' = bindMerged definitions p captures body := by
  have hdistinguishable : Service.Distinguishable p.parameters :=
    (Service.wellFormed_of_build hbuild).parameters p hp
  -- Bodies with the same values of wire names give each parameter the same source.
  have hread : ∀ body' : Entries Value, (Entries.keys body').Nodup →
      (∀ q ∈ p.parameters, Entries.get? body' q.wireName = Entries.get? body q.wireName) → ∀ q ∈ p.parameters,
      Binding.bindParameter definitions p.wireName (Payload.merge (Payload.captured p.parameters captures) body') q =
        Binding.readSource definitions p.wireName captures body q := by
    intro body' hbody' hsame q hq
    rw [Binding.bindParameter_merge definitions p.wireName hq (hdistinguishable.ne_reservedKey hq) captures hbody',
      Binding.readSource, Binding.sourceOf, hsame q hq]
    rfl
  have hbound : ∀ body' : Entries Value, (Entries.keys body').Nodup →
      (∀ q ∈ p.parameters, Entries.get? body' q.wireName = Entries.get? body q.wireName) →
      bindMerged definitions p captures body' =
        (p.parameters.mapM fun q =>
          (Binding.readSource definitions p.wireName captures body q).map fun v => (q.name, v)).map Value.ofPairs := by
    intro body' hbody' hsame
    rw [bindMerged, bindArguments, Binding.bindAll_eq_mapM definitions p.wireName (hread body' hbody' hsame)]
    cases p.parameters.mapM fun q =>
      (Binding.readSource definitions p.wireName captures body q).map fun v => (q.name, v) <;> rfl
  have hhere := hbound body hbody fun _ _ => rfl
  refine ⟨hhere, ?_, ?_, ?_⟩
  · intro fault
    rw [bindMerged, bindArguments_eq_error_iff]
    exact Binding.bindAll_eq_error_iff definitions p.wireName (hread body hbody fun _ _ => rfl) fault
  · intro q e
    exact Binding.argument_of_readSource definitions p.wireName
  · intro body' hbody' hsame
    rw [hbound body' hbody' hsame, hhere]

/-- A table with one procedure, which takes a list, a number and a text that may be left out. -/
def searchTable : Entries Definition :=
  [("search", { Definition.empty with
    parameters :=
      [⟨"ids", "item-ids", .array .string⟩, ⟨"limit", "max", .number⟩, ⟨"note", "note", .nullOr .string⟩] })]

/-- The procedure of `searchTable`. -/
def searchProcedure : Procedure :=
  ⟨"search", "search", none,
    [⟨"ids", "item-ids", .array .string⟩, ⟨"limit", "max", .number⟩, ⟨"note", "note", .nullOr .string⟩],
    .void, [], none⟩

/-- What a URI captured for the first two parameters. -/
def searchCaptures : Captures :=
  [("item_ids", .one "7"), ("max", .one "10")]

/-- A body with a value for the second parameter, and with keys that are no wire names. -/
def searchBody : Entries Value :=
  [("max", .number 20), ("limit", .number 30), ("__proto__", .object [("note", .string "n")]), ("toString", .null)]

theorem bindArguments_by_source_search :
    (∃ service, Service.build "s" [] searchTable = .ok service ∧ searchProcedure ∈ service.procedures) ∧
      (Entries.keys searchBody).Nodup ∧
      bindMerged [] searchProcedure searchCaptures searchBody =
        .ok (.object [("ids", .array [.string "7"]), ("limit", .number 20), ("note", .null)]) ∧
      bindMerged [] searchProcedure searchCaptures [("max", .number 20)] =
        bindMerged [] searchProcedure searchCaptures searchBody := by
  have hservice : ∃ service, Service.build "s" [] searchTable = .ok service ∧ searchProcedure ∈ service.procedures :=
    ⟨_, rfl, List.mem_singleton.mpr rfl⟩
  obtain ⟨service, hbuild, hp⟩ := hservice
  have hbody : (Entries.keys searchBody).Nodup := by decide
  obtain ⟨hsources, -, -, hothers⟩ := bindArguments_by_source hbuild hp searchCaptures hbody
  refine ⟨⟨service, hbuild, hp⟩, hbody, hsources.trans rfl, hothers _ (by decide) ?_⟩
  simp only [searchProcedure, List.forall_mem_cons]
  exact ⟨rfl, rfl, rfl, List.forall_mem_nil _⟩

end Gateway
