import Gateway.Template.Match
import Gateway.Proofs.CompiledTemplates
import Gateway.Proofs.LeastFillings
import Gateway.Proofs.PercentTexts

/-!
# Paths of expanded templates

No component has a line end, nor the unit that a separating literal starts with.  So a path in which each placeholder
was replaced by the component of a value gives the values back (`matchPath_fill`).
-/

namespace Gateway

namespace Template

open Text.Percent (encodeComponent)

/-! ## Paths -/

theorem units_fill (p : PathPattern) (text : String → String) :
    Text.units (p.fill text) =
      Text.units p.lead ++ p.gaps.flatMap fun g => Text.units (text g.1) ++ Text.units g.2 := by
  rw [PathPattern.fill, Text.units_ofList, List.flatMap_append, List.flatMap_assoc]
  congr 1
  apply List.flatMap_congr
  intro g _
  rw [List.flatMap_append]
  rfl

theorem dot_has_of_mem_units {s : String} {u : UInt16} (h : u ∈ Text.units (encodeComponent s)) :
    UnitSet.dot.has u = true := by
  obtain ⟨c, hc, hu⟩ := Text.Percent.exists_char_of_mem_units h
  have hbounds := Text.Percent.toNat_of_isComponentChar hc
  rw [← hu] at hbounds
  have hends : ∀ v ∈ UnitSet.dot.members, u ≠ v := by
    have hvalues : ∀ v ∈ UnitSet.dot.members, v.toNat ≤ 0x20 ∨ 0x80 ≤ v.toNat := by
      simp [UnitSet.dot]
    rintro v hv rfl
    have hv := hvalues u hv
    omega
  rw [UnitSet.has, bne_iff_ne, Ne, show UnitSet.dot.negated = true from rfl, List.contains_iff_mem]
  intro hmem
  exact hends u hmem rfl

/-- A literal that cannot be taken for a part of a component: it starts with a unit that no component has. -/
def Separates (literal : String) : Prop :=
  ∃ u rest, Text.units literal = u :: rest ∧ ∀ s, u ∉ Text.units (encodeComponent s)

/-- A literal separates if its first character is none of a component, as a slash is. -/
theorem separates_of_head {c : Char} (hc : Text.Percent.isComponentChar c = false) {literal : String}
    {cs : List Char} (hliteral : literal.toList = c :: cs) : Separates literal := by
  obtain ⟨u, rest, hunits⟩ := List.exists_cons_of_ne_nil (Text.unitsOfChar_ne_nil c)
  refine ⟨u, rest ++ cs.flatMap Text.unitsOfChar, by simp [Text.units, hliteral, hunits], ?_⟩
  intro s hmem
  obtain ⟨d, hd, hu⟩ := Text.Percent.exists_char_of_mem_units hmem
  have hbounds := Text.Percent.toNat_of_isComponentChar hd
  unfold Text.unitsOfChar at hunits
  split at hunits
  · rename_i hsmall
    rw [← (List.cons.inj hunits).1, Text.toNat_ofNat_unit hsmall, Char.toNat_inj] at hu
    rw [hu, hd] at hc
    cases hc
  · -- A surrogate is no ASCII character.
    have hvalid : c.toNat < 0xD800 ∨ 0xDFFF < c.toNat ∧ c.toNat < 0x110000 := c.valid
    rw [← (List.cons.inj hunits).1, Text.toNat_ofNat_unit (by omega)] at hu
    omega

theorem matchPath_fill {t : Template} (hlits : ∀ g ∈ t.path.gaps.dropLast, Separates g.2) {value : String → String}
    (hvalue : ∀ g ∈ t.path.gaps, value g.1 ≠ "") :
    t.matchPath (t.path.fill fun name => encodeComponent (value name)) =
      some (t.path.gaps.map fun g => (normalizeName g.1, value g.1)) := by
  -- The runs and literals of the path, in units.
  let runs := t.path.gaps.map fun g => (Text.units (encodeComponent (value g.1)), Text.units g.2)
  have hruns : ∀ r ∈ runs, r.1 ≠ [] ∧ ∀ u ∈ r.1, UnitSet.dot.has u = true := by
    intro r hr
    obtain ⟨g, hg, rfl⟩ := List.mem_map.mp hr
    dsimp only
    refine ⟨?_, fun u hu => dot_has_of_mem_units hu⟩
    rw [Ne, Text.units_eq_nil_iff]
    exact Text.Percent.encodeComponent_ne_empty (hvalue g hg)
  have hseparated : ∀ r ∈ runs.dropLast, ∃ u rest, r.2 = u :: rest ∧ u ∉ r.1 := by
    intro r hr
    rw [← List.map_dropLast] at hr
    obtain ⟨g, hg, rfl⟩ := List.mem_map.mp hr
    obtain ⟨u, rest, hunits, hfree⟩ := hlits g hg
    dsimp only
    exact ⟨u, rest, hunits, hfree (value g.1)⟩
  -- The literals between placeholders separate, so the gaps take back the components that were written.
  have hmatch := Gaps.match?_runs (Text.units t.path.lead) hruns hseparated
  simp only [runs, List.map_map, List.flatMap_map, Function.comp_def] at hmatch
  rw [matchPath, units_fill, capturePath, hmatch, Option.map_some, Option.map_some, captureTexts]
  simp [List.zip_map', Text.Percent.decodeOrKeep_encodeComponent, Text.ofUnits_units]

end Template

end Gateway
