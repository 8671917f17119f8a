import Gateway.Proofs.RoutedCalls
import Gateway.Proofs.SettledSchemas

/-!
# What a handler is given

The object of arguments of a handler has exactly the names of the parameters as its own keys, and under each name
the value that the parameter's schema has read from what the request carries for it.  So the schema does not refuse
the value, and accepts it unless a fault stops the check.
-/

namespace Gateway

namespace Entries

theorem mem_keys_assign_nil {α : Type} (pairs : List (String × α)) (k : String) :
    k ∈ keys (assign [] pairs) ↔ k ≠ reservedKey ∧ k ∈ keys pairs := by
  by_cases hk : k = reservedKey
  · subst hk
    simpa using reservedKey_not_mem_assign (by simp) pairs
  · rw [← get?_isSome_iff, get?_assign (by simp) pairs hk, get?_nil, Option.or_none, get?_isSome_iff, keys,
      List.map_reverse, List.mem_reverse]
    simp [hk, keys]

end Entries

namespace Value

theorem entries_ofPairs (pairs : List (String × Value)) : (ofPairs pairs).entries = Entries.assign [] pairs := by
  unfold ofPairs
  split <;> rfl

theorem own?_ofPairs (pairs : List (String × Value)) (key : String) :
    (ofPairs pairs).own? key = Entries.get? (Entries.assign [] pairs) key := by
  unfold ofPairs
  split <;> rfl

end Value

/-- Bound arguments stand under the names of the parameters, each once, and each is what its schema has read from a
source of the parameter. -/
theorem bindArguments_spec {defs : Definitions} {p : Procedure} {payload : Payload} {args : Value}
    (hnames : (p.parameters.map (·.name)).Nodup) (h : bindArguments defs p payload = .ok args) :
    (Entries.keys args.entries).Perm ((p.parameters.map (·.name)).filter (· != Entries.reservedKey)) ∧
      ∀ q ∈ p.parameters, q.name ≠ Entries.reservedKey →
        ∃ raw ∈ Binding.sources defs payload q, ∃ v,
          q.schema.decode defs raw = .accepted v ∧ args.own? q.name = some v := by
  obtain ⟨pairs, hall, rfl⟩ := (bindArguments_eq_ok_iff _ _ _ _).mp h
  have hbound := (Binding.bindAll_eq_ok_iff _ _ _ _ _).mp hall
  have hkeys := Binding.bindAll_keys _ _ _ hall
  constructor
  · rw [Value.entries_ofPairs]
    refine (List.perm_ext_iff_of_nodup (Entries.nodup_keys_assign (by simp) pairs) (hnames.filter _)).mpr ?_
    intro k
    rw [Entries.mem_keys_assign_nil, hkeys, List.mem_filter]
    simp [and_comm]
  · intro q hq hname
    obtain ⟨arg, harg, hsame, hread⟩ := exists_of_forall₂_mem hbound.flip hq
    obtain ⟨raw, hsource, hraw⟩ := Binding.bindParameter_ok _ _ _ hread
    refine ⟨raw, hsource, arg.2, hraw, ?_⟩
    -- The last pair of a name is the only one.
    have hnodup : (Entries.keys pairs).Nodup := hkeys ▸ hnames
    rw [Value.own?_ofPairs, Entries.get?_assign (by simp) pairs hname, Entries.get?_nil, Option.or_none,
      Entries.get?_reverse hnodup, ← hsame]
    exact Entries.get?_of_mem hnodup harg

namespace Endpoint

/-- A request reaches a procedure of the service only. -/
theorem reached?_mem {e : Endpoint} {request : Request} {r : Resolved} {payload : Payload}
    (h : e.reached? request = some (r, payload)) : r.procedure ∈ e.implementation.service.procedures := by
  obtain ⟨name, hresolve⟩ := resolve_of_reached h
  obtain ⟨p, hp, hhandler⟩ := Option.bind_eq_some_iff.mp hresolve
  obtain ⟨handler, -, rfl⟩ := Option.map_eq_some_iff.mp hhandler
  exact (Service.mem_of_lookup hp).1

/-! ## A call with one argument -/

/-- A table with one procedure, which takes one argument. -/
def checkTable (s : Schema) : Entries Definition :=
  [("check", { Definition.empty with parameters := [⟨"x", "x", s⟩], returns := .unknown })]

/-- A handler that gives back its arguments. -/
def checkHandlers : Entries HandlerEntry := [("check", .function fun args => .ok args)]

/-- A call of the procedure with a body. -/
def checkRequest (body : String) : Request :=
  .make "POST" "/" "method=check" [] (Text.Utf8.encode body)

/-- A text that is not empty once it is trimmed. -/
def nodeName : Schema := .filtered .trim (.minLength 1)

open Schema in
/-- A node with a name and further trees. -/
def node : Schema :=
  .struct none [required "kind" (.literal (.string "node")), required "name" nodeName,
    required "children" (.array (.suspend "Tree"))]

/-- What is left of a lost tree. -/
def lost : Schema := .errorClass "Lost" "Lost" [Schema.required "reason" nodeName]

/-- A number written as text, a node, or a lost tree. -/
def tree : Schema := .union [.numberFromString, node, lost]

/-- The definition that makes trees recursive. -/
def treeDefinitions : Definitions := [("Tree", tree)]

/-- A node with a number and a lost tree below it. -/
def treeBody : String :=
  "\x7b\"x\":\x7b\"kind\":\"node\",\"name\":\" a \",\"children\":[\"12\"," ++
    "\x7b\"_tag\":\"Lost\",\"reason\":\"b \"\x7d]\x7d\x7d"

theorem target_tree : Schema.target treeDefinitions "Tree" = .ok tree := rfl

theorem eq_tree_of_target {name : String} {s : Schema} (h : Schema.target treeDefinitions name = .ok s) :
    s = tree := by
  by_cases hname : name = "Tree"
  · subst hname
    exact (Except.ok.inj h).symm
  · have hnone : Entries.get? treeDefinitions name = none := by
      simp [treeDefinitions, Entries.get?_cons, hname]
    rw [Schema.target, hnone] at h
    cases h

theorem everywhere_tree {p : Schema → Prop} (htree : p tree) (hnumber : p .numberFromString) (hnode : p node)
    (hlost : p lost) (hkind : p (.literal (.string "node"))) (hname : p nodeName) (htrim : p .trim)
    (hchildren : p (.array (.suspend "Tree"))) (hsuspend : p (.suspend "Tree")) :
    Schema.Everywhere p tree := by
  have hnamed : Schema.Everywhere p nodeName :=
    .intro hname (List.forall_mem_singleton.mpr (.intro htrim (List.forall_mem_nil _)))
  refine .intro htree (List.forall_mem_cons.mpr ⟨.intro hnumber (List.forall_mem_nil _),
    List.forall_mem_cons.mpr ⟨.intro hnode ?_, List.forall_mem_singleton.mpr (.intro hlost ?_)⟩⟩)
  · intro t ht
    simp only [node, Schema.parts, Schema.required, List.map_cons, List.map_nil, List.mem_cons, List.not_mem_nil,
      or_false] at ht
    rcases ht with rfl | rfl | rfl
    · exact .intro hkind (List.forall_mem_nil _)
    · exact hnamed
    · exact .intro hchildren (List.forall_mem_singleton.mpr (.intro hsuspend (List.forall_mem_nil _)))
  · exact List.forall_mem_singleton.mpr hnamed

theorem regular_tree : Schema.Regular treeDefinitions ∧ Schema.Everywhere (Schema.Proper treeDefinitions) tree ∧
    Schema.Settled treeDefinitions tree := by
  have hproper : Schema.Everywhere (Schema.Proper treeDefinitions) tree := by
    refine everywhere_tree trivial trivial ⟨by decide, by decide⟩ ⟨by decide, by decide⟩ trivial ?_ trivial trivial
      trivial
    rintro kind ⟨⟩
    exact .base rfl
  have hmembers : ∀ n, ∀ s ∈ [Schema.numberFromString, node, lost], Schema.Settles treeDefinitions n s := fun n =>
    List.forall_mem_cons.mpr ⟨.guard rfl, List.forall_mem_cons.mpr ⟨.guard rfl,
      List.forall_mem_singleton.mpr (.guard rfl)⟩⟩
  have hsettled : Schema.Settled treeDefinitions tree :=
    everywhere_tree (.union (hmembers _)) (.guard rfl) (.guard rfl) (.guard rfl) (.guard rfl)
      (.filtered (.guard rfl)) (.guard rfl) (.guard rfl) (.suspend target_tree (.union (hmembers 0)))
  refine ⟨⟨?_, ?_, ?_⟩, hproper, hsettled⟩
  · intro name s h
    exact eq_tree_of_target h ▸ hproper
  · intro name s h
    exact eq_tree_of_target h ▸ hsettled
  · intro name s h
    exact eq_tree_of_target h ▸ rfl

/-! ## The arguments of a handler -/

/-- Whenever a handler is invoked, the own keys of its arguments are the names of the parameters, and the value of
each parameter is what its schema has read from what the request carries for it.  The schema does not refuse the
value if it is proper with its definitions; it accepts it if the definitions are regular, the schema settles and the
value can be displayed. -/
theorem handler_arguments_typed {name : String} {definitions : Definitions} {table : Entries Definition}
    {handlers : Entries HandlerEntry} {options : EndpointOptions} {service : Service}
    {implementation : Implementation} {e : Endpoint}
    (hbuild : Service.build name definitions table = .ok service)
    (hbind : Implementation.bind service handlers = .ok implementation)
    (hcreate : Endpoint.create implementation options = .ok e)
    {request : Request} {r : Resolved} {args : Value} (hinvoked : e.invocation? request = some (r, args)) :
    r.procedure ∈ service.procedures ∧
    (Entries.keys args.entries).Perm
      ((r.procedure.parameters.map (·.name)).filter (· != Entries.reservedKey)) ∧
    ∃ payload, e.reached? request = some (r, payload) ∧
      ∀ p ∈ r.procedure.parameters, p.name ≠ Entries.reservedKey →
        ∃ raw ∈ Binding.sources definitions payload p, ∃ v,
          p.schema.decode definitions raw = .accepted v ∧ args.own? p.name = some v ∧
          (p.schema.Everywhere (Schema.Proper definitions) → Schema.AllProper definitions →
            p.schema.accepts definitions v ≠ .ok false) ∧
          (p.schema.Everywhere (Schema.Proper definitions) → Schema.Regular definitions →
            Schema.Settled definitions p.schema → v.showable = true →
              p.schema.accepts definitions v = .ok true) := by
  have hbuilt := built_of_create hbuild hbind hcreate
  have hservice : e.implementation.service = service := by
    rw [hbuilt.implementation_eq, hbuilt.service_eq]
  have hdefinitions : e.definitions = definitions := by
    rw [Endpoint.definitions, hservice, ((Service.build_eq_ok_iff _ _ _ _).mp hbuild).2.1]
  obtain ⟨payload, hreached, hbound⟩ := (e.invocation?_eq_some_iff request r args).mp hinvoked
  have hmem : r.procedure ∈ service.procedures := hservice ▸ reached?_mem hreached
  obtain ⟨hkeys, hvalues⟩ := bindArguments_spec (hbuilt.wellFormed.parameters r.procedure hmem).names hbound
  refine ⟨hmem, hkeys, payload, hreached, fun p hp hname => ?_⟩
  obtain ⟨raw, hsource, v, hread, hv⟩ := hvalues p hp hname
  rw [hdefinitions] at hsource hread
  refine ⟨raw, hsource, v, hread, hv, fun hproper hall => ?_, fun hproper hregular hsettled hshow => ?_⟩
  · exact Schema.accepts_ne_false_of_decode hall hproper hread
  · exact Schema.accepts_of_decode hregular hproper hsettled hread hshow

theorem handler_arguments_typed_tree :
    ∃ (service : Service) (implementation : Implementation) (e : Endpoint) (r : Resolved) (args v : Value),
      Service.build "s" treeDefinitions (checkTable tree) = .ok service ∧
      Implementation.bind service checkHandlers = .ok implementation ∧
      Endpoint.create implementation .standard = .ok e ∧
      e.invocation? (checkRequest treeBody) = some (r, args) ∧ args.own? "x" = some v ∧ v.showable = true ∧
      tree.accepts treeDefinitions v = .ok true := by
  -- Only the invocation is evaluated; what the schema says of the value is a case of the theorem.
  have hready : ∃ (service : Service) (implementation : Implementation) (e : Endpoint),
      Service.build "s" treeDefinitions (checkTable tree) = .ok service ∧
      Implementation.bind service checkHandlers = .ok implementation ∧
      Endpoint.create implementation .standard = .ok e ∧
      ((e.invocation? (checkRequest treeBody)).bind fun i => (i.2.own? "x").map Value.showable) = some true :=
    ⟨_, _, _, rfl, rfl, rfl, by decide +kernel⟩
  obtain ⟨service, implementation, e, hbuild, hbind, hcreate, hrun⟩ := hready
  obtain ⟨⟨r, args⟩, hinvoked, hvalue⟩ := Option.bind_eq_some_iff.mp hrun
  obtain ⟨v, hv, hshow⟩ := Option.map_eq_some_iff.mp hvalue
  obtain ⟨hregular, hproper, hsettled⟩ := regular_tree
  obtain ⟨hmem, -, payload, -, hvalues⟩ := handler_arguments_typed hbuild hbind hcreate hinvoked
  have hparameters : r.procedure.parameters = [⟨"x", "x", tree⟩] := by
    rw [((Service.build_eq_ok_iff _ _ _ _).mp hbuild).2.2.1] at hmem
    rw [List.mem_singleton.mp hmem]
    rfl
  obtain ⟨raw, -, v', -, hv', -, haccepts⟩ := hvalues ⟨"x", "x", tree⟩ (by simp [hparameters]) (by decide)
  obtain rfl : v = v' := Option.some.inj (hv.symm.trans hv')
  exact ⟨service, implementation, e, r, args, v, hbuild, hbind, hcreate, hinvoked, hv, hshow,
    haccepts hproper hregular hsettled hshow⟩

/-- The handler is given a value of which its schema says this. -/
def GivesValue (definitions : Definitions) (s : Schema) (body : String) (answer : Attempt Bool) : Prop :=
  ∃ (service : Service) (implementation : Implementation) (e : Endpoint) (r : Resolved) (args v : Value),
    Service.build "s" definitions (checkTable s) = .ok service ∧
    Implementation.bind service checkHandlers = .ok implementation ∧
    Endpoint.create implementation .standard = .ok e ∧
    e.invocation? (checkRequest body) = some (r, args) ∧ args.own? "x" = some v ∧
    s.accepts definitions v = answer

theorem givesValue_of_run {definitions : Definitions} {s : Schema} {body : String} {answer : Attempt Bool}
    {service : Service} {implementation : Implementation} {e : Endpoint}
    (hbuild : Service.build "s" definitions (checkTable s) = .ok service)
    (hbind : Implementation.bind service checkHandlers = .ok implementation)
    (hcreate : Endpoint.create implementation .standard = .ok e)
    (hrun : ((e.invocation? (checkRequest body)).bind fun i => (i.2.own? "x").map (s.accepts definitions)) =
      some answer) : GivesValue definitions s body answer := by
  obtain ⟨⟨r, args⟩, hinvoked, hvalue⟩ := Option.bind_eq_some_iff.mp hrun
  obtain ⟨v, hv, haccepts⟩ := Option.map_eq_some_iff.mp hvalue
  exact ⟨service, implementation, e, r, args, v, hbuild, hbind, hcreate, hinvoked, hv, haccepts⟩

open Schema in
/-- A length that is asked of a choice of structs, of which only the second has one. -/
def measuredChoice : Schema :=
  .filtered
    (.union [.struct none [required "a" .number],
      .struct none [required "a" .numberFromString, required "length" .number]])
    (.minLength 1)

open Schema in
/-- A choice whose first member looks a field up among tags, and whose second leaves it as it is. -/
def taggedChoice : Schema :=
  .union [.struct none [required "p" .number,
      required "q" (.union [.struct none [required "kind" (.literal (.string "a"))],
        .struct none [required "kind" (.literal (.string "b"))]])],
    .struct none [required "p" .numberFromString, required "q" .unknown]]

/-- A choice whose second member sets what an object answers with to a date. -/
def datedChoice : Schema := .union [.date, .record .date]

theorem given_values_unaccepted :
    GivesValue [] measuredChoice "\x7b\"x\":\x7b\"a\":\"1\",\"length\":5\x7d\x7d" (.ok false) ∧
    GivesValue [] taggedChoice
      "\x7b\"x\":\x7b\"p\":\"1\",\"q\":\x7b\"kind\":\x7b\"toString\":1\x7d\x7d\x7d\x7d" (.error .noPrimitive) ∧
    GivesValue [] datedChoice "\x7b\"x\":\x7b\"__proto__\":\"2020-01-01\"\x7d\x7d" (.error .noDate) :=
  ⟨givesValue_of_run rfl rfl rfl (by decide +kernel), givesValue_of_run rfl rfl rfl (by decide +kernel),
    givesValue_of_run rfl rfl rfl (by decide +kernel)⟩

end Endpoint

end Gateway
