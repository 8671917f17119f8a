import Gateway.Proofs.BoundArguments
import Gateway.Proofs.CompiledTemplates
import Gateway.Proofs.RouteLookups
import Gateway.Proofs.ServiceTables
import Gateway.Proofs.TemplateCaptures

/-!
# Captures that two parameters share

A service tells the parameters of a procedure apart by their wire names as they are written, a template its placeholders
by their names with hyphens read as underscores, and a parameter finds its capture under the second reading of its wire
name.  So each placeholder is for one parameter exactly if the wire names remain distinct in that reading
(`captures_apart_iff`); two parameters whose wire names differ only in a hyphen are both accepted for one placeholder,
and both get what it captures (`hyphens_share_capture`).
-/

namespace Gateway

/-! ## Captured arguments -/

namespace Payload

/-- A capture supplies a parameter: it is there, and whatever stands under its name is the captured argument of the
parameter. -/
def Supplies (parameters : List Parameter) (captures : Captures) (name : String) (q : Parameter) : Prop :=
  name ∈ Entries.keys captures ∧
    ∀ c, Entries.get? (captured parameters (Entries.set captures name c)) q.wireName = some c

theorem supplies_iff {parameters : List Parameter} {q : Parameter} (hq : q ∈ parameters) (captures : Captures)
    (name : String) :
    Supplies parameters captures name q ↔ name ∈ Entries.keys captures ∧ normalizeName q.wireName = name := by
  have hget : ∀ c, Entries.get? (captured parameters (Entries.set captures name c)) q.wireName =
      if normalizeName q.wireName = name then some c else Entries.get? captures (normalizeName q.wireName) := by
    intro c
    rw [get?_captured, if_pos (List.mem_map_of_mem hq)]
    exact Entries.get?_set captures name (normalizeName q.wireName) c
  constructor
  · rintro ⟨hname, hsupplied⟩
    refine ⟨hname, ?_⟩
    -- Under another name the argument would not follow the capture.
    by_contra hne
    have hone := hsupplied (.one "")
    have hmany := hsupplied (.many [])
    rw [hget, if_neg hne] at hone hmany
    rw [hone] at hmany
    cases hmany
  · rintro ⟨hname, hsame⟩
    exact ⟨hname, fun c => by rw [hget, if_pos hsame]⟩

end Payload

/-! ## Parameters and placeholders -/

namespace RouteTable

/-- A placeholder of a template satisfies a parameter: it has its wire name, hyphens read as underscores. -/
def Satisfies (t : Template) (name : String) (q : Parameter) : Prop :=
  name ∈ t.names ∧ normalizeName q.wireName = name

/-- No name is for two different parameters. -/
def Apart (isFor : String → Parameter → Prop) (parameters : List Parameter) : Prop :=
  ∀ name, ∀ q ∈ parameters, ∀ r ∈ parameters, isFor name q → isFor name r → q = r

/-- The parameters that a template has a placeholder for. -/
def provided (t : Template) (parameters : List Parameter) : List Parameter :=
  parameters.filter fun q => t.names.contains (normalizeName q.wireName)

/-- The parameters that may not be left out. -/
def required (defs : Definitions) (parameters : List Parameter) : List Parameter :=
  parameters.filter fun q => !q.isOptional defs

theorem mem_provided {t : Template} {parameters : List Parameter} {q : Parameter} :
    q ∈ provided t parameters ↔ q ∈ parameters ∧ normalizeName q.wireName ∈ t.names := by
  simp [provided]

/-- If a name is for the parameters that it satisfies, it is for one of them at most exactly if the names of the
parameters that the template provides are distinct. -/
theorem apart_iff {t : Template} {parameters : List Parameter} (hparameters : parameters.Nodup)
    {isFor : String → Parameter → Prop} (hisFor : ∀ q ∈ parameters, ∀ name, isFor name q ↔ Satisfies t name q) :
    Apart isFor parameters ↔ ((provided t parameters).map fun q => normalizeName q.wireName).Nodup := by
  have hprovided : (provided t parameters).Nodup := hparameters.filter _
  rw [List.nodup_map_iff_inj_on hprovided]
  constructor
  · intro h q hq r hr hsame
    obtain ⟨hq, hprovided⟩ := mem_provided.mp hq
    obtain ⟨hr, -⟩ := mem_provided.mp hr
    exact h _ q hq r hr ((hisFor q hq _).mpr ⟨hprovided, rfl⟩) ((hisFor r hr _).mpr ⟨hprovided, hsame.symm⟩)
  · intro h name q hq r hr hforQ hforR
    obtain ⟨hname, hwireQ⟩ := (hisFor q hq name).mp hforQ
    obtain ⟨-, hwireR⟩ := (hisFor r hr name).mp hforR
    exact h q (mem_provided.mpr ⟨hq, hwireQ ▸ hname⟩) r (mem_provided.mpr ⟨hr, hwireR ▸ hname⟩)
      (hwireQ.trans hwireR.symm)

/-- The rules of an accepted table: every required parameter of the procedure has a placeholder, and placeholders have
distinct names.  No placeholder satisfies two required parameters exactly if their wire names are distinct with hyphens
read as underscores; and what a request captures supplies no two parameters exactly if this holds of all parameters
that the template has a placeholder for. -/
theorem captures_apart_iff {name : String} {definitions : Definitions} {table : Entries Definition} {service : Service}
    {routes : RouteTable} {rule : Rule} (hbuild : Service.build name definitions table = .ok service)
    (hroutes : ofService service = .ok routes) (hrule : rule ∈ routes.rules) :
    ∃ p, service.lookup rule.procedure = some p ∧ rule.template.names.Nodup ∧
      (∀ q ∈ required service.definitions p.parameters, ∃ placeholder, Satisfies rule.template placeholder q) ∧
      (Apart (Satisfies rule.template) (required service.definitions p.parameters) ↔
        ((required service.definitions p.parameters).map fun q => normalizeName q.wireName).Nodup) ∧
      ∀ method path query found, (routes.lookup method path query).selected = some found → found.rule = rule →
        (Apart (Payload.Supplies p.parameters found.captures) p.parameters ↔
          ((provided rule.template p.parameters).map fun q => normalizeName q.wireName).Nodup) := by
  have hwellFormed := Service.wellFormed_of_build hbuild
  obtain ⟨p, hp, r, -, hof⟩ := mem_ofService hroutes hrule
  obtain ⟨hcompile, hname, hunsatisfied⟩ := ruleOf_spec hof
  have hparameters : p.parameters.Nodup := (hwellFormed.parameters p hp).wireNames.of_map
  have hcovered : ∀ q ∈ required service.definitions p.parameters, normalizeName q.wireName ∈ rule.template.names := by
    intro q hq
    obtain ⟨hq, hrequired⟩ := List.mem_filter.mp hq
    exact (unsatisfied_eq_nil_iff _ _ _).mp hunsatisfied q hq (by simpa using hrequired)
  have hnames := (Template.compiled_of_compile hcompile).names_nodup
  refine ⟨p, hname ▸ Service.lookup_of_mem hwellFormed hp, hnames, ?_, ?_, ?_⟩
  · intro q hq
    exact ⟨_, hcovered q hq, rfl⟩
  · have hall : provided rule.template (required service.definitions p.parameters) =
        required service.definitions p.parameters := by
      rw [provided, List.filter_eq_self]
      simpa using hcovered
    have hrequired : (required service.definitions p.parameters).Nodup := hparameters.filter _
    rw [apart_iff hrequired fun _ _ _ => Iff.rfl, hall]
  · rintro method path query found hselected rfl
    obtain ⟨-, -, hmatch⟩ := lookup_selected hselected
    apply apart_iff hparameters
    intro q hq placeholder
    have hcaptured := Template.captures_iff found.rule.template path query hmatch placeholder
    rw [Payload.supplies_iff hq, Satisfies, ← hcaptured, ← Entries.get?_isSome_iff]
    rfl

/-- A table with one procedure, whose two parameters the template spells with other hyphens and underscores. -/
def rangeTable : Entries Definition :=
  [("range", { Definition.empty with
    parameters := [⟨"first", "from-page", .string⟩, ⟨"last", "to_page", .string⟩]
    resource := some ⟨"GET", "/pages/\x7bfrom_page\x7d-\x7bto-page\x7d"⟩ })]

/-- The only rule of `rangeTable`. -/
def rangeRule : Rule :=
  ⟨⟨"/pages/\x7bfrom_page\x7d-\x7bto-page\x7d", ⟨"/pages/", [("from_page", "-"), ("to-page", "")]⟩, []⟩, "GET", "range"⟩

theorem captures_apart_iff_range :
    ∃ service routes p, Service.build "s" [] rangeTable = .ok service ∧ ofService service = .ok routes ∧
      rangeRule ∈ routes.rules ∧ service.lookup rangeRule.procedure = some p ∧
      Apart (Satisfies rangeRule.template) (required service.definitions p.parameters) := by
  have hready : ∃ service routes p, Service.build "s" [] rangeTable = .ok service ∧ ofService service = .ok routes ∧
      rangeRule ∈ routes.rules ∧ service.lookup rangeRule.procedure = some p ∧
      ((required service.definitions p.parameters).map fun q => normalizeName q.wireName).Nodup :=
    ⟨_, _, _, rfl, rfl, by decide +kernel, rfl, by decide +kernel⟩
  obtain ⟨service, routes, p, hbuild, hroutes, hrule, hlookup, hnames⟩ := hready
  obtain ⟨p', hlookup', -, -, hapart, -⟩ := captures_apart_iff hbuild hroutes hrule
  obtain rfl : p = p' := Option.some.inj (hlookup.symm.trans hlookup')
  exact ⟨service, routes, p, hbuild, hroutes, hrule, hlookup, hapart.mpr hnames⟩

/-- A parameter whose wire name has a hyphen. -/
def firstPage : Parameter :=
  ⟨"first", "page-no", .string⟩

/-- A parameter whose wire name has an underscore in its place. -/
def lastPage : Parameter :=
  ⟨"last", "page_no", .string⟩

/-- A table with one procedure that takes the two parameters, and one placeholder for them. -/
def pagesTable : Entries Definition :=
  [("pages", { Definition.empty with
    parameters := [firstPage, lastPage], resource := some ⟨"GET", "/pages/\x7bpage-no\x7d"⟩ })]

/-- What the only rule of `pagesTable` captures from a request. -/
def pagesMatch : RouteMatch :=
  ⟨⟨⟨"/pages/\x7bpage-no\x7d", ⟨"/pages/", [("page-no", "")]⟩, []⟩, "GET", "pages"⟩, [("page_no", .one "7")]⟩

/-- Two required parameters are satisfied by one placeholder, and both are supplied by what it captures. -/
theorem hyphens_share_capture :
    ∃ service routes p, Service.build "s" [] pagesTable = .ok service ∧ ofService service = .ok routes ∧
      pagesMatch.rule ∈ routes.rules ∧ service.lookup pagesMatch.rule.procedure = some p ∧
      (routes.lookup "GET" "/pages/7" "").selected = some pagesMatch ∧
      firstPage ≠ lastPage ∧
      (∀ q ∈ [firstPage, lastPage], q ∈ required service.definitions p.parameters ∧
        Satisfies pagesMatch.rule.template "page_no" q ∧
        Payload.Supplies p.parameters pagesMatch.captures "page_no" q) ∧
      Payload.captured p.parameters pagesMatch.captures = [("page-no", .one "7"), ("page_no", .one "7")] := by
  have hready : ∃ service routes p, Service.build "s" [] pagesTable = .ok service ∧ ofService service = .ok routes ∧
      pagesMatch.rule ∈ routes.rules ∧ service.lookup pagesMatch.rule.procedure = some p ∧
      (routes.lookup "GET" "/pages/7" "").selected = some pagesMatch ∧ p.parameters = [firstPage, lastPage] ∧
      required service.definitions p.parameters = [firstPage, lastPage] :=
    ⟨_, _, _, rfl, rfl, by decide +kernel, rfl, by decide +kernel, rfl, rfl⟩
  obtain ⟨service, routes, p, hbuild, hroutes, hrule, hlookup, hselected, hparameters, hrequired⟩ := hready
  have hnames : ∀ q ∈ [firstPage, lastPage], normalizeName q.wireName = "page_no" := by
    intro q hq
    rcases List.mem_pair.mp hq with rfl | rfl <;> decide
  refine ⟨service, routes, p, hbuild, hroutes, hrule, hlookup, hselected, ?_, ?_, ?_⟩
  · intro hsame
    exact absurd (congrArg Parameter.name hsame) (by decide)
  · intro q hq
    refine ⟨hrequired ▸ hq, ⟨by decide +kernel, hnames q hq⟩, ?_⟩
    rw [hparameters, Payload.supplies_iff hq]
    exact ⟨by decide, hnames q hq⟩
  · rw [hparameters]
    decide +kernel

end RouteTable

end Gateway
