import Gateway.Proofs.PercentTexts
import Gateway.Proofs.RegexMatches
import Gateway.Proofs.TemplateGrammar

/-!
# What it means for a path to match

A path fits the pattern of a template if it can be put together from the literals of the pattern and a run of units for
each placeholder.  Matching by the expression of the pattern, which goes back on its choices, gives what the search
without going back gives (`searchPath_eq`).  A path matches exactly if it fits, and the placeholders capture the runs
whose lengths come first in lexicographic order (`matchPath_least`).  Runs are measured in units, so two placeholders
side by side may share a character outside the basic plane.
-/

namespace Gateway

/-- The units that end a line. -/
def Template.lineEnds : List UInt16 :=
  [0x0A, 0x0D, 0x2028, 0x2029]

namespace PathPattern

/-- A path is the lead of a pattern followed by a run of units and the literal of each placeholder in turn; no run is
empty or holds a line end. -/
structure Fits (p : PathPattern) (path : List UInt16) (runs : List (List UInt16)) : Prop where
  length_eq : runs.length = p.gaps.length
  taken : ∀ run ∈ runs, run ≠ [] ∧ ∀ u ∈ run, u ∉ Template.lineEnds
  units_eq : path = Text.units p.lead ++ (List.zipWith (fun run g => run ++ Text.units g.2) runs p.gaps).flatten

/-- The placeholders of a pattern capture runs: each under its name, with an underscore for every hyphen, and decoded
if it spells a text. -/
def Captures (p : PathPattern) (runs : List (List UInt16)) (captures : List (String × List UInt16)) : Prop :=
  List.Forall₂ (fun g c => Template.ComparedAs g.1.1 c.1 ∧ Text.Percent.Decodes g.2 c.2) (p.gaps.zip runs) captures

end PathPattern

namespace Template

/-! ## The expression of a path -/

theorem group?_eq_lookup (m : Regex.Match) (number : Nat) : m.group? number = m.texts.lookup number := by
  rw [Regex.Match.group?, Regex.Match.texts]
  induction m.captured with
  | nil => rfl
  | cons p rest ih =>
    rw [List.map_cons, List.lookup_cons, List.lookup_cons, ← ih]
    cases number == p.1 <;> rfl

theorem lookup_numbered_of_lt {runs : List (List UInt16)} {number k : Nat} (hk : k < number) :
    (Regex.numbered number runs).reverse.lookup k = none := by
  induction runs generalizing number with
  | nil => rfl
  | cons run runs ih =>
    have hne : (k == number) = false := beq_eq_false_iff_ne.mpr (Nat.ne_of_lt hk)
    rw [Regex.numbered, List.reverse_cons, List.lookup_append, ih (Nat.lt_succ_of_lt hk), List.lookup_cons, hne]
    rfl

/-- Groups that were numbered one after the other are found under their numbers. -/
theorem lookup_numbered (runs : List (List UInt16)) (number k : Nat) :
    (Regex.numbered number runs).reverse.lookup (number + k) = runs[k]? := by
  induction runs generalizing number k with
  | nil => rfl
  | cons run runs ih =>
    rw [Regex.numbered, List.reverse_cons, List.lookup_append]
    cases k with
    | zero =>
      rw [Nat.add_zero, lookup_numbered_of_lt (Nat.lt_succ_self number), List.lookup_cons, beq_self_eq_true]
      rfl
    | succ k =>
      have hother : (number + (k + 1) == number) = false := beq_eq_false_iff_ne.mpr (by omega)
      rw [show number + (k + 1) = number + 1 + k by omega, ih, List.getElem?_cons_succ,
        show number + 1 + k = number + (k + 1) by omega, List.lookup_cons, hother]
      simp

/-- Placeholders that find their runs under their numbers capture them one by one. -/
theorem filterMap_zipIdx {groups : List (Nat × List UInt16)} {gaps : List (String × String)}
    {runs : List (List UInt16)} {number : Nat} (hlength : runs.length = gaps.length)
    (hgroups : ∀ k, groups.lookup (number + k) = runs[k]?) :
    ((gaps.zipIdx number).filterMap fun g =>
        (groups.lookup g.2).map fun raw => (normalizeName g.1.1, Text.Percent.decodeOrKeep raw)) =
      (gaps.map fun g => normalizeName g.1).zip (runs.map Text.Percent.decodeOrKeep) := by
  induction gaps generalizing number runs with
  | nil => rfl
  | cons g gaps ih =>
    obtain ⟨run, runs, rfl⟩ := List.exists_cons_of_length_eq_add_one hlength
    have hfirst : groups.lookup number = some run := hgroups 0
    have hfurther : ∀ k, groups.lookup (number + 1 + k) = runs[k]? := by
      intro k
      rw [Nat.add_right_comm]
      exact hgroups (k + 1)
    rw [List.zipIdx_cons, List.filterMap_cons, hfirst, Option.map_some, ih (Nat.succ.inj hlength) hfurther]
    rfl

/-- Going back on the choices of placeholders finds nothing that the first choices do not give. -/
theorem searchPath_eq (t : Template) (path : List UInt16) : t.searchPath path = t.capturePath path := by
  have hexec := Regex.exec_path (Text.units t.path.lead) (t.path.gaps.map fun g => Text.units g.2) path
  rw [searchPath, Regex.read?_pathSource, Option.bind_some, capturePath]
  simp only [group?_eq_lookup]
  cases hruns : Gaps.match? UnitSet.dot.has (Text.units t.path.lead) (t.path.gaps.map fun g => Text.units g.2) path with
  | none =>
    rw [hruns, Option.map_none, Option.map_eq_none_iff] at hexec
    rw [hexec]
    rfl
  | some runs =>
    rw [hruns] at hexec
    obtain ⟨found, hfound, htexts⟩ := Option.map_eq_some_iff.mp hexec
    obtain ⟨rest, -, hfill⟩ := (Gaps.match?_eq_some_iff _ _ _ _ _).mp hruns
    have hlength := ((Gaps.fills_iff _ _ _ _).mp (Gaps.fills_of_fill? hfill)).1
    rw [List.length_map] at hlength
    rw [hfound, Option.map_some, Option.map_some, htexts, filterMap_zipIdx hlength (lookup_numbered runs 1)]

/-! ## Fitting paths -/

theorem dot_has_iff (u : UInt16) : UnitSet.dot.has u = true ↔ u ∉ lineEnds := by
  simp [UnitSet.has, UnitSet.dot, lineEnds]

theorem fits_iff (p : PathPattern) (path : List UInt16) (runs : List (List UInt16)) :
    p.Fits path runs ↔
      ∃ rest, path = Text.units p.lead ++ rest ∧
        Gaps.Fills UnitSet.dot.has (p.gaps.map fun g => Text.units g.2) rest runs := by
  simp only [Gaps.fills_iff, dot_has_iff, List.length_map, List.zipWith_map_right]
  constructor
  · rintro ⟨hlength, htaken, hunits⟩
    exact ⟨_, hunits, hlength, htaken, rfl⟩
  · rintro ⟨_, hunits, hlength, htaken, rfl⟩
    exact ⟨hlength, htaken, hunits⟩

/-- The runs that the placeholders take are those that fit and come before all others. -/
theorem match?_units_iff (p : PathPattern) (path : List UInt16) (runs : List (List UInt16)) :
    Gaps.match? UnitSet.dot.has (Text.units p.lead) (p.gaps.map fun g => Text.units g.2) path = some runs ↔
      p.Fits path runs ∧ ∀ others, p.Fits path others → others ≠ runs → Gaps.Before runs others := by
  simp only [Gaps.match?_eq_some_iff, Gaps.fill?_eq_some_iff, fits_iff]
  constructor
  · rintro ⟨rest, hpath, hfills, hfirst⟩
    refine ⟨⟨rest, hpath, hfills⟩, ?_⟩
    rintro others ⟨rest', hpath', hothers⟩ hne
    obtain rfl : rest = rest' := List.append_cancel_left (hpath.symm.trans hpath')
    exact hfirst others hothers hne
  · rintro ⟨⟨rest, hpath, hfills⟩, hfirst⟩
    exact ⟨rest, hpath, hfills, fun others hothers hne => hfirst others ⟨rest, hpath, hothers⟩ hne⟩

theorem match?_units_isSome_iff (p : PathPattern) (path : List UInt16) :
    (Gaps.match? UnitSet.dot.has (Text.units p.lead) (p.gaps.map fun g => Text.units g.2) path).isSome ↔
      ∃ runs, p.Fits path runs := by
  rw [Option.isSome_iff_exists]
  constructor
  · rintro ⟨runs, hruns⟩
    exact ⟨runs, ((match?_units_iff p path runs).mp hruns).1⟩
  · rintro ⟨runs, hruns⟩
    obtain ⟨rest, hpath, hfills⟩ := (fits_iff p path runs).mp hruns
    obtain ⟨found, hfound, -⟩ := Gaps.exists_fill? hfills
    exact ⟨found, (Gaps.match?_eq_some_iff _ _ _ _ _).mpr ⟨rest, hpath, hfound⟩⟩

/-- What is captured of runs is what each placeholder captures of its run. -/
theorem captures_iff_eq {p : PathPattern} {runs : List (List UInt16)} (captures : List (String × List UInt16)) :
    p.Captures runs captures ↔
      (p.gaps.map fun g => normalizeName g.1).zip (runs.map Text.Percent.decodeOrKeep) = captures := by
  have hpair : ∀ (g : (String × String) × List UInt16) (c : String × List UInt16),
      (ComparedAs g.1.1 c.1 ∧ Text.Percent.Decodes g.2 c.2) ↔
        (normalizeName g.1.1, Text.Percent.decodeOrKeep g.2) = c := by
    rintro g ⟨name, text⟩
    rw [comparedAs_iff, ← Text.Percent.decodeOrKeep_eq_iff, Prod.mk.injEq]
  simp only [PathPattern.Captures, hpair]
  rw [← List.forall₂_map_left_iff, List.forall₂_eq_eq_eq, List.zip_map]
  rfl

/-- The text of an accepted template is cut at its placeholders in one way.  Matching a path without going back gives
what the expression of the path gives.  A path matches exactly if it can be put together from the literals of the cut
and runs without line ends, none of them empty, and captured are the runs of the way to do so whose lengths come first
in lexicographic order: each under the name of its placeholder, and percent-decoded if that is possible. -/
theorem matchPath_least {text : String} {t : Template} (hcompile : compile text = .ok t) :
    (∃ p : PathPattern, p.Cuts (pathPart text)) ∧
      ∀ p : PathPattern, p.Cuts (pathPart text) → ∀ path : List UInt16,
        t.capturePath path = t.searchPath path ∧
        ((t.capturePath path).isSome ↔ ∃ runs, p.Fits path runs) ∧
        ∀ captures, t.capturePath path = some captures ↔
          ∃ runs, p.Fits path runs ∧ (∀ others, p.Fits path others → others ≠ runs → Gaps.Before runs others) ∧
            p.Captures runs captures := by
  have hcut := (compiled_of_compile hcompile).cuts_iff
  refine ⟨⟨t.path, (hcut t.path).mpr rfl⟩, ?_⟩
  intro p hp path
  obtain rfl := (hcut p).mp hp
  refine ⟨(searchPath_eq t path).symm, ?_, ?_⟩
  · rw [capturePath, Option.isSome_map, match?_units_isSome_iff]
  · intro captures
    rw [capturePath, Option.map_eq_some_iff]
    constructor
    · rintro ⟨runs, hruns, hcaptures⟩
      obtain ⟨hfits, hfirst⟩ := (match?_units_iff t.path path runs).mp hruns
      exact ⟨runs, hfits, hfirst, (captures_iff_eq captures).mpr hcaptures⟩
    · rintro ⟨runs, hfits, hfirst, hcaptures⟩
      exact ⟨runs, (match?_units_iff t.path path runs).mpr ⟨hfits, hfirst⟩, (captures_iff_eq captures).mp hcaptures⟩

/-- A template with two placeholders side by side, and a literal that values may hold too. -/
def adjacentText : String :=
  "/\x7bx\x7d\x7by-z\x7d-\x7bw\x7d-?q=\x7bv\x7d"

/-- The template of `adjacentText`. -/
def adjacent : Template :=
  ⟨adjacentText, ⟨"/", [("x", ""), ("y-z", "-"), ("w", "-")]⟩, [⟨"q", "v"⟩]⟩

/-- The two halves of a surrogate pair go to different placeholders. -/
theorem matchPath_least_adjacent :
    compile adjacentText = .ok adjacent ∧
      adjacent.capturePath (Text.units "/😀-c-d%20-") =
        some [("x", [0xD83D]), ("y_z", [0xDE00]), ("w", Text.units "c-d ")] ∧
      adjacent.searchPath (Text.units "/😀-c-d%20-") =
        some [("x", [0xD83D]), ("y_z", [0xDE00]), ("w", Text.units "c-d ")] ∧
      ∃ runs, adjacent.path.Fits (Text.units "/😀-c-d%20-") runs ∧
        (∀ others, adjacent.path.Fits (Text.units "/😀-c-d%20-") others → others ≠ runs → Gaps.Before runs others) ∧
        adjacent.path.Captures runs [("x", [0xD83D]), ("y_z", [0xDE00]), ("w", Text.units "c-d ")] := by
  have hcompile : compile adjacentText = .ok adjacent := by decide +kernel
  have hmatch : adjacent.capturePath (Text.units "/😀-c-d%20-") =
      some [("x", [0xD83D]), ("y_z", [0xDE00]), ("w", Text.units "c-d ")] := by
    decide +kernel
  have hcut := ((compiled_of_compile hcompile).cuts_iff adjacent.path).mpr rfl
  obtain ⟨hsearch, -, hcaptures⟩ := (matchPath_least hcompile).2 _ hcut (Text.units "/😀-c-d%20-")
  exact ⟨hcompile, hmatch, hsearch ▸ hmatch, (hcaptures _).mp hmatch⟩

end Template

end Gateway
