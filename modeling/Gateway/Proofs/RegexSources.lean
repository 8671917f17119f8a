import Gateway.Cors.Policy
import Gateway.Template.Match
import Mathlib.Data.List.Basic

/-!
# Sources of regular expressions

A source is read unit by unit, so a reading goes through two sources one after the other if it goes through the first
and then through the second (`Reads.append`).  An escaped text adds its units as they are, whichever of them have a
meaning of their own (`reads_escape`).  So the sources of paths, query keys and host patterns are read whatever texts
are in them, and as the expressions they are meant to be (`read?_pathSource`, `read?_keySource`,
`read?_wildcardSource`).
-/

namespace Gateway

namespace Regex

/-- The expressions of a text that stands for itself. -/
def literal (text : List UInt16) : List Regex :=
  text.map fun u => one (.single u)

/-- A reading goes through a source and gets to another reading. -/
def Reads (r : Reading) (source : List UInt16) (r' : Reading) : Prop :=
  source.foldlM Reading.step r = some r'

theorem Reads.append {r r' r'' : Reading} {source further : List UInt16} (h : Reads r source r')
    (hfurther : Reads r' further r'') : Reads r (source ++ further) r'' := by
  rw [Reads, List.foldlM_append, h]
  exact hfurther

/-- A reading between two expressions: what was there, and the expressions that were added, in order. -/
def between (groups : Nat) (f : Frame) (outer : List Frame) (items : List Regex) : Reading :=
  ⟨.text, groups, { f with items := items.reverse ++ f.items }, outer⟩

/-- A source that adds expressions to the outermost group is read as these. -/
theorem read?_of_reads {source : List UInt16} {groups : Nat} {items : List Regex}
    (h : Reads .initial source (between groups (.fresh none) [] items)) : read? source = some (sequence items) := by
  rw [read?, h]
  simp [between, Reading.finish?, Frame.fresh, Frame.alternatives]

variable (groups : Nat) (f : Frame) (outer : List Frame) (items : List Regex)

theorem add_between (item : Regex) :
    (between groups f outer items).add item = between groups f outer (items ++ [item]) := by
  simp [between, Reading.add, Frame.push]

/-! ## Escaped texts -/

/-- A unit without a meaning of its own stands for itself. -/
theorem step_plain {u : UInt16} (hu : isSyntax u = false) :
    (between groups f outer items).step u = some ((between groups f outer items).add (one (.single u))) := by
  have hsigns : ".*+?^$\x7b\x7d()|[]\\".toList =
      ['.', '*', '+', '?', '^', '$', '{', '}', '(', ')', '|', '[', ']', '\\'] := by
    decide
  rw [isSyntax, hsigns] at hu
  show (between groups f outer items).stepText u = _
  unfold Reading.stepText
  split
  case h_15 => rfl
  all_goals
    rename_i hsign
    rw [hsign] at hu
    exact absurd hu (by decide)

/-- A unit with a meaning of its own stands for itself after a backslash. -/
theorem reads_escaped {u : UInt16} (hu : isSyntax u = true) :
    Reads (between groups f outer items) (Text.units "\\" ++ [u])
      ((between groups f outer items).add (one (.single u))) := by
  have hbackslash : Text.units "\\" = [0x5C] := by decide
  rw [hbackslash]
  show (({ between groups f outer items with mode := .escaped } : Reading).step u).bind some = _
  rw [Reading.step, if_pos hu]
  rfl

/-- An escaped text adds its units. -/
theorem reads_escape (text : List UInt16) :
    Reads (between groups f outer items) (escape text) (between groups f outer (items ++ literal text)) := by
  induction text generalizing items with
  | nil =>
    rw [literal, List.map_nil, List.append_nil]
    exact rfl
  | cons u text ih =>
    have hunit : Reads (between groups f outer items) (if isSyntax u then Text.units "\\" ++ [u] else [u])
        (between groups f outer (items ++ [one (.single u)])) := by
      rw [← add_between]
      split
      · rename_i hu
        exact reads_escaped groups f outer items hu
      · rename_i hu
        rw [Reads, List.foldlM_cons, step_plain groups f outer items (by simpa using hu)]
        rfl
    have hboth := hunit.append (ih (items ++ [one (.single u)]))
    rwa [List.append_assoc] at hboth

/-! ## Paths -/

theorem reads_caret :
    Reads (between groups f outer items) (Text.units "^") (between groups f outer (items ++ [start])) := by
  have hsource : Text.units "^" = [0x5E] := by decide
  rw [hsource, ← add_between]
  exact rfl

theorem reads_dollar :
    Reads (between groups f outer items) (Text.units "$") (between groups f outer (items ++ [finish])) := by
  have hsource : Text.units "$" = [0x24] := by decide
  rw [hsource, ← add_between]
  exact rfl

theorem reads_placeholder :
    Reads (between groups f outer items) (Text.units "(.+?)")
      (between (groups + 1) f outer (items ++ [group (groups + 1) (sequence [many .dot false])])) := by
  have hsource : Text.units "(.+?)" = [0x28, 0x2E, 0x2B, 0x3F, 0x29] := by decide
  rw [hsource]
  simp only [between, List.reverse_append, List.reverse_singleton, List.append_assoc]
  exact rfl

/-- The expressions of placeholders, numbered in order, and of the literals after them. -/
def gapItems : Nat → List (List UInt16) → List Regex
  | _, [] => []
  | number, lit :: tails => group number (sequence [many .dot false]) :: (literal lit ++ gapItems (number + 1) tails)

theorem reads_gaps (tails : List (List UInt16)) :
    Reads (between groups f outer items) (tails.flatMap fun lit => Text.units "(.+?)" ++ escape lit)
      (between (groups + tails.length) f outer (items ++ gapItems (groups + 1) tails)) := by
  induction tails generalizing groups items with
  | nil =>
    rw [gapItems, List.append_nil]
    exact rfl
  | cons lit tails ih =>
    have hfirst := (reads_placeholder groups f outer items).append (reads_escape (groups + 1) f outer _ lit)
    have hall := hfirst.append (ih (groups + 1) _)
    rw [List.flatMap_cons, gapItems, List.length_cons, Nat.add_comm tails.length, ← Nat.add_assoc]
    simpa using hall

/-- The source of a path is read as its literals, which stand for themselves, and its placeholders between them. -/
theorem read?_pathSource (p : PathPattern) :
    read? (Template.pathSource p) =
      some (sequence (start :: (literal (Text.units p.lead) ++
        (gapItems 1 (p.gaps.map fun g => Text.units g.2) ++ [finish])))) := by
  have hlead := (reads_caret 0 (.fresh none) [] []).append (reads_escape 0 (.fresh none) [] _ (Text.units p.lead))
  have hgaps := hlead.append (reads_gaps 0 (.fresh none) [] _ (p.gaps.map fun g => Text.units g.2))
  have hall := read?_of_reads (hgaps.append (reads_dollar _ (.fresh none) [] _))
  rw [List.flatMap_map] at hall
  rw [Template.pathSource]
  simpa using hall

/-! ## Query keys -/

/-- The units that end a segment of a query. -/
def separators : UnitSet :=
  ⟨false, [0x26, 0x3B]⟩

/-- The units that a value of a query may have. -/
def valueUnits : UnitSet :=
  ⟨true, [0x26, 0x3B]⟩

theorem reads_boundary :
    Reads (between groups f outer items) (Text.units "(?:^|[&;])")
      (between groups f outer (items ++ [either (sequence [start]) (sequence [one separators])])) := by
  have hsource : Text.units "(?:^|[&;])" = [0x28, 0x3F, 0x3A, 0x5E, 0x7C, 0x5B, 0x26, 0x3B, 0x5D, 0x29] := by decide
  rw [hsource]
  simp only [between, List.reverse_append, List.reverse_singleton, List.append_assoc]
  exact rfl

theorem reads_value :
    Reads (between groups f outer items) (Text.units "=([^&;]+)")
      (between (groups + 1) f outer
        (items ++ [one (.single 0x3D), group (groups + 1) (sequence [many valueUnits true])])) := by
  have hsource : Text.units "=([^&;]+)" = [0x3D, 0x28, 0x5B, 0x5E, 0x26, 0x3B, 0x5D, 0x2B, 0x29] := by decide
  rw [hsource]
  simp only [between, List.reverse_append, List.reverse_cons, List.reverse_nil, List.nil_append, List.append_assoc]
  exact rfl

/-- The source of a key is read as the start or a separator, the key with an equals sign, and a value. -/
theorem read?_keySource (key : String) :
    read? (Template.keySource key) =
      some (sequence (either (sequence [start]) (sequence [one separators]) ::
        (literal (Text.units key ++ [0x3D]) ++ [group 1 (sequence [many valueUnits true])]))) := by
  have hkey := (reads_boundary 0 (.fresh none) [] []).append (reads_escape 0 (.fresh none) [] _ (Text.units key))
  have hall := read?_of_reads (hkey.append (reads_value _ (.fresh none) [] _))
  rw [Template.keySource]
  simpa [literal] using hall

/-! ## Host patterns -/

/-- The units that a star stands for: all but the dot. -/
def labelUnits : UnitSet :=
  ⟨true, [0x2E]⟩

/-- The expressions of stars and of the literals after them. -/
def starItems (tails : List (List UInt16)) : List Regex :=
  tails.flatMap fun lit => many labelUnits true :: literal lit

theorem reads_star :
    Reads (between groups f outer items) (Text.units "[^.]+")
      (between groups f outer (items ++ [many labelUnits true])) := by
  have hsource : Text.units "[^.]+" = [0x5B, 0x5E, 0x2E, 0x5D, 0x2B] := by decide
  rw [hsource]
  simp only [between, List.reverse_append, List.reverse_singleton, List.append_assoc]
  exact rfl

theorem reads_stars (lead : List UInt16) (tails : List (List UInt16)) :
    Reads (between groups f outer items) ((Text.units "[^.]+").intercalate ((lead :: tails).map escape))
      (between groups f outer (items ++ (literal lead ++ starItems tails))) := by
  induction tails generalizing items lead with
  | nil =>
    have hlead := reads_escape groups f outer items lead
    rwa [List.map_singleton, List.intercalate_singleton, starItems, List.flatMap_nil, List.append_nil]
  | cons lit tails ih =>
    have hlead := reads_escape groups f outer items lead
    have hall := hlead.append ((reads_star groups f outer _).append (ih _ lit))
    rw [List.map_cons, List.map_cons, List.intercalate_cons_cons, ← List.map_cons, List.append_assoc]
    simpa [starItems] using hall

/-- The source of a host pattern is read as its literals, which stand for themselves, and its stars between them. -/
theorem read?_wildcardSource {pattern : String} {lead : List UInt16} {tails : List (List UInt16)}
    (hpieces : Text.splitWhere (· == 0x2A) (Text.units pattern) = lead :: tails) :
    read? (OriginPolicy.wildcardSource pattern) =
      some (sequence (start :: (literal lead ++ (starItems tails ++ [finish])))) := by
  have hstars := (reads_caret 0 (.fresh none) [] []).append (reads_stars 0 (.fresh none) [] _ lead tails)
  have hall := read?_of_reads (hstars.append (reads_dollar _ (.fresh none) [] _))
  rw [OriginPolicy.wildcardSource, hpieces]
  simpa using hall

end Regex

end Gateway
