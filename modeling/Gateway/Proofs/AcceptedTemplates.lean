import Gateway.Proofs.TemplateGrammar
import Mathlib.Data.List.Duplicate

/-!
# Which templates are accepted

A template text has a path, which is cut at its placeholders in one way, and a query clause in pieces.  It is accepted
exactly if every piece spells a pair of a key and a placeholder, and no two placeholders of path and query have the same
name (`compile_eq_ok_iff`).  A refusal tells which piece spells no pair or which name occurs twice
(`compile_eq_error`).
-/

namespace Gateway

namespace Template

/-! ## Names that occur twice -/

/-- The names of the placeholders of a path and of pairs, hyphens read as underscores. -/
def comparedNames (p : PathPattern) (pairs : List QueryPair) : List String :=
  (PathPattern.variables p ++ pairs.map (·.name)).map normalizeName

theorem names_eq_comparedNames (t : Template) : t.names = comparedNames t.path t.query := by
  simp [names, comparedNames, PathPattern.variables, Function.comp_def]

theorem comparedNames_eq_iff (p : PathPattern) (pairs : List QueryPair) (compared : List String) :
    List.Forall₂ ComparedAs (PathPattern.variables p ++ pairs.map (·.name)) compared ↔
      comparedNames p pairs = compared := by
  have hname : ComparedAs = fun name compared => normalizeName name = compared := by
    funext name compared
    exact propext (comparedAs_iff name compared)
  rw [hname, ← List.forall₂_map_left_iff, List.forall₂_eq_eq_eq, comparedNames]

theorem not_contains_of_nodup {seen later : List String} {name : String} (h : (seen ++ name :: later).Nodup) :
    ¬seen.contains name = true := by
  rw [List.contains_iff_mem]
  intro hmem
  exact (List.nodup_append.mp h).2.2 name hmem name List.mem_cons_self rfl

theorem duplicate_of_contains {seen later : List String} {name : String} (h : seen.contains name = true) :
    List.Duplicate name (seen ++ name :: later) := by
  rw [List.contains_iff_mem] at h
  rw [List.duplicate_iff_sublist]
  exact (List.singleton_sublist.mpr h).append (List.singleton_sublist.mpr List.mem_cons_self)

/-- Names that are new and pairwise distinct are all added. -/
theorem addNames_of_nodup {seen raws : List String} (h : (seen ++ raws.map normalizeName).Nodup) :
    addNames seen raws = .ok (seen ++ raws.map normalizeName) := by
  induction raws generalizing seen with
  | nil => simp [addNames]
  | cons raw rest ih =>
    rw [List.map_cons] at h
    have hnew := not_contains_of_nodup h
    rw [List.append_cons] at h
    rw [addNames, if_neg hnew, ih h, List.map_cons, List.append_assoc, List.singleton_append]

theorem addNames_eq_error {seen raws : List String} {fault : TemplateFault} (h : addNames seen raws = .error fault) :
    ∃ name, fault = .duplicateVariable name ∧ List.Duplicate name (seen ++ raws.map normalizeName) := by
  induction raws generalizing seen with
  | nil => cases h
  | cons raw rest ih =>
    rw [addNames] at h
    split at h
    · rename_i hseen
      cases h
      exact ⟨_, rfl, duplicate_of_contains hseen⟩
    · rw [List.map_cons, List.append_cons]
      exact ih h

/-! ## Pieces that spell pairs -/

/-- Pieces that spell pairs with new and pairwise distinct names are all read. -/
theorem addPairs_of_spells {seen : List String} {pairs : List QueryPair} {pieces : List (List Char)}
    (hpieces : List.Forall₂ Spells pairs pieces)
    (hnodup : (seen ++ (pairs.map (·.name)).map normalizeName).Nodup) : addPairs seen pieces = .ok pairs := by
  induction hpieces generalizing seen with
  | nil => rfl
  | cons hfirst _ ih =>
    rw [List.map_cons, List.map_cons] at hnodup
    have hnew := not_contains_of_nodup hnodup
    rw [List.append_cons] at hnodup
    rw [addPairs, (queryPair?_eq_some_iff _ _).mpr hfirst]
    simp only [if_neg hnew, ih hnodup]

/-- What the first fault of some pieces says is so: a piece spells no pair, or the pieces up to some place spell pairs
and the name occurs twice up to there. -/
theorem addPairs_eq_error {seen : List String} {pieces : List (List Char)} {fault : TemplateFault}
    (h : addPairs seen pieces = .error fault) :
    (∃ piece ∈ pieces, fault = .malformedClause (String.ofList piece) ∧ ∀ q, ¬Spells q piece) ∨
      ∃ first pairs name, first <+: pieces ∧ List.Forall₂ Spells pairs first ∧ fault = .duplicateVariable name ∧
        List.Duplicate name (seen ++ (pairs.map (·.name)).map normalizeName) := by
  induction pieces generalizing seen with
  | nil => cases h
  | cons piece rest ih =>
    rw [addPairs] at h
    cases hpiece : queryPair? piece with
    | none =>
      rw [hpiece] at h
      cases h
      refine .inl ⟨piece, List.mem_cons_self, rfl, ?_⟩
      intro q hq
      rw [(queryPair?_eq_some_iff piece q).mpr hq] at hpiece
      cases hpiece
    | some pair =>
      have hspells := (queryPair?_eq_some_iff piece pair).mp hpiece
      rw [hpiece] at h
      dsimp only at h
      split at h
      · rename_i hseen
        cases h
        exact .inr ⟨[piece], [pair], _, ⟨rest, rfl⟩, .cons hspells .nil, rfl, duplicate_of_contains hseen⟩
      · split at h
        · cases h
        · rename_i other hother
          cases h
          -- The further pieces are read with the name of the first among those seen.
          rcases ih hother with ⟨bad, hbad, hfault⟩ | ⟨first, pairs, name, hfirst, hpairs, hfault, hname⟩
          · exact .inl ⟨bad, List.mem_cons_of_mem piece hbad, hfault⟩
          · refine .inr ⟨piece :: first, pair :: pairs, name, (List.prefix_cons_inj piece).mpr hfirst,
              .cons hspells hpairs, hfault, ?_⟩
            rw [List.map_cons, List.map_cons, List.append_cons]
            exact hname

/-! ## Acceptance -/

/-- A template is read from a text: its pattern cuts the path, its pairs spell the pieces of the query clause, and no
two of its placeholders have the same name. -/
structure ReadFrom (text : String) (t : Template) : Prop where
  text_eq : t.text = text
  path : t.path.Cuts (pathPart text)
  query : List.Forall₂ Spells t.query (queryPieces text)
  names : (comparedNames t.path t.query).Nodup

/-- The names of the path are checked first, and then the pieces one by one; a refusal names the whole text. -/
theorem compile_eq (text : String) :
    compile text =
      Except.mapError (fun fault => ⟨text, fault⟩)
        ((addNames [] (PathPattern.variables (PathPattern.ofChars (pathPart text)))).bind fun seen =>
          (addPairs seen (queryPieces text)).map fun query => ⟨text, PathPattern.ofChars (pathPart text), query⟩) := by
  have hpieces := clausePieces_splitQuery text
  unfold compile
  rw [splitQuery_eq] at hpieces ⊢
  dsimp only at hpieces ⊢
  rw [hpieces]
  cases addNames [] (PathPattern.variables (PathPattern.ofChars (pathPart text))) with
  | error fault => rfl
  | ok seen =>
    dsimp only [Except.bind]
    cases addPairs seen (queryPieces text) <;> rfl

theorem readFrom_of_compile {text : String} {t : Template} (h : compile text = .ok t) : ReadFrom text t := by
  have hnodup := (compiled_of_compile h).names_nodup
  rw [compile_eq] at h
  cases hnames : addNames [] (PathPattern.variables (PathPattern.ofChars (pathPart text))) with
  | error fault =>
    rw [hnames] at h
    cases h
  | ok seen =>
    rw [hnames, Except.bind] at h
    cases hquery : addPairs seen (queryPieces text) with
    | error fault =>
      rw [hquery] at h
      cases h
    | ok query =>
      rw [hquery] at h
      cases h
      rw [names_eq_comparedNames] at hnodup
      exact ⟨rfl, (cuts_iff_ofChars _ _).mpr rfl, spells_of_addPairs hquery, hnodup⟩

/-- A text is accepted exactly as the template that is read from it. -/
theorem compile_eq_ok_iff (text : String) (t : Template) : compile text = .ok t ↔ ReadFrom text t := by
  constructor
  · exact readFrom_of_compile
  · rintro ⟨htext, hpath, hquery, hnames⟩
    obtain ⟨text', path, query⟩ := t
    obtain rfl : text' = text := htext
    rw [comparedNames, List.map_append] at hnames
    have hinPath := (List.nodup_append.mp hnames).1
    have hseen : addNames [] (PathPattern.variables path) = .ok ((PathPattern.variables path).map normalizeName) :=
      addNames_of_nodup (by rwa [List.nil_append])
    rw [compile_eq, (cuts_iff_ofChars path _).mp hpath, hseen, Except.bind, addPairs_of_spells hquery hnames]
    rfl

/-- What a fault says of a template text is so: the piece spells no pair, or the name occurs twice in the path and the
pieces up to some place. -/
def Explains (text : String) (p : PathPattern) : TemplateFault → Prop
  | .malformedClause clause => clause.toList ∈ queryPieces text ∧ ∀ q, ¬Spells q clause.toList
  | .duplicateVariable name =>
    ∃ first pairs compared, first <+: queryPieces text ∧ List.Forall₂ Spells pairs first ∧
      List.Forall₂ ComparedAs (PathPattern.variables p ++ pairs.map (·.name)) compared ∧
      List.Duplicate name compared
  | .rootResource | .unsatisfied _ _ => False

theorem compile_eq_error {text : String} {e : TemplateError} (h : compile text = .error e) :
    e.template = text ∧ Explains text (PathPattern.ofChars (pathPart text)) e.fault := by
  rw [compile_eq] at h
  cases hnames : addNames [] (PathPattern.variables (PathPattern.ofChars (pathPart text))) with
  | error fault =>
    rw [hnames] at h
    cases h
    obtain ⟨name, rfl, hname⟩ := addNames_eq_error hnames
    refine ⟨rfl, [], [], _, List.nil_prefix, .nil, (comparedNames_eq_iff _ _ _).mpr rfl, ?_⟩
    rw [List.nil_append] at hname
    rwa [comparedNames, List.map_nil, List.append_nil]
  | ok seen =>
    obtain ⟨hseen, -⟩ := addNames_eq_ok hnames
    rw [hnames, Except.bind] at h
    cases hquery : addPairs seen (queryPieces text) with
    | ok query =>
      rw [hquery] at h
      cases h
    | error fault =>
      rw [hquery] at h
      cases h
      rcases addPairs_eq_error hquery with
        ⟨piece, hpiece, rfl, hnone⟩ | ⟨first, pairs, name, hfirst, hpairs, rfl, hname⟩
      · refine ⟨rfl, ?_⟩
        rw [Explains, String.toList_ofList]
        exact ⟨hpiece, hnone⟩
      · refine ⟨rfl, first, pairs, _, hfirst, hpairs, (comparedNames_eq_iff _ _ _).mpr rfl, ?_⟩
        rwa [comparedNames, List.map_append, ← List.nil_append (List.map normalizeName _), ← hseen]

/-- The path of a template text is cut at its placeholders in one way.  The text is accepted exactly if the pieces of
its query clause spell pairs and no two names of the path and the pairs are the same, with an underscore for every
hyphen.  The template then has the cut as its path, and the names of the path followed by those of the pairs, compared
so, as its names.  Otherwise the text is refused, with a fault that is found in it. -/
theorem compile_grammar (text : String) :
    ∃ p : PathPattern, (∀ other : PathPattern, other.Cuts (pathPart text) ↔ other = p) ∧
      ((∃ t, compile text = .ok t) ↔
        ∃ pairs compared, List.Forall₂ Spells pairs (queryPieces text) ∧
          List.Forall₂ ComparedAs (PathPattern.variables p ++ pairs.map (·.name)) compared ∧ compared.Nodup) ∧
      (∀ t, compile text = .ok t →
        t.text = text ∧ t.path = p ∧ List.Forall₂ Spells t.query (queryPieces text) ∧
          List.Forall₂ ComparedAs (PathPattern.variables p ++ t.query.map (·.name)) t.names) ∧
      ((¬∃ t, compile text = .ok t) →
        ∃ fault, compile text = .error ⟨text, fault⟩ ∧ Explains text p fault) := by
  have hcut : ∀ other : PathPattern, other.Cuts (pathPart text) ↔ other = PathPattern.ofChars (pathPart text) := by
    intro other
    rw [cuts_iff_ofChars, eq_comm]
  refine ⟨PathPattern.ofChars (pathPart text), hcut, ⟨?_, ?_⟩, ?_, ?_⟩
  · rintro ⟨t, ht⟩
    have hread := readFrom_of_compile ht
    have hpath := (hcut t.path).mp hread.path
    exact ⟨t.query, _, hread.query, (comparedNames_eq_iff _ _ _).mpr rfl, hpath ▸ hread.names⟩
  · rintro ⟨pairs, compared, hpairs, hcompared, hnames⟩
    rw [← (comparedNames_eq_iff _ _ _).mp hcompared] at hnames
    have hread : ReadFrom text ⟨text, PathPattern.ofChars (pathPart text), pairs⟩ :=
      ⟨rfl, (hcut _).mpr rfl, hpairs, hnames⟩
    exact ⟨_, (compile_eq_ok_iff text _).mpr hread⟩
  · intro t ht
    have hread := readFrom_of_compile ht
    have hpath := (hcut t.path).mp hread.path
    refine ⟨hread.text_eq, hpath, hread.query, ?_⟩
    rw [← hpath, comparedNames_eq_iff, names_eq_comparedNames]
  · intro hrefused
    cases hcompile : compile text with
    | ok t => exact absurd ⟨t, hcompile⟩ hrefused
    | error e =>
      obtain ⟨rfl, hfault⟩ := compile_eq_error hcompile
      exact ⟨e.fault, rfl, hfault⟩

/-- A template in which braces around a placeholder belong to the literals, an empty piece of the query clause is left
out, and two names have a hyphen. -/
def hyphenText : String :=
  "/\x7b\x7ba\x7d\x7d/\x7bb-c\x7d?&x-y=\x7bb-d\x7d"

/-- A template with two names that are compared as the same. -/
def clashText : String :=
  "/\x7bb-c\x7d?x=\x7bb_c\x7d"

theorem compile_grammar_hyphens :
    (∃ t, compile hyphenText = .ok t ∧ List.Forall₂ ComparedAs ["a", "b-c", "b-d"] t.names ∧
      t.names = ["a", "b_c", "b_d"]) ∧
    compile clashText = .error ⟨clashText, .duplicateVariable "b_c"⟩ ∧
      ∃ p, Explains clashText p (.duplicateVariable "b_c") := by
  have hcompile : compile hyphenText =
      .ok ⟨hyphenText, ⟨"/\x7b", [("a", "\x7d/"), ("b-c", "")]⟩, [⟨"x-y", "b-d"⟩]⟩ := by
    decide +kernel
  have hclash : compile clashText = .error ⟨clashText, .duplicateVariable "b_c"⟩ := by decide +kernel
  obtain ⟨p, -, -, hnames, -⟩ := compile_grammar hyphenText
  obtain ⟨-, rfl, -, hcompared⟩ := hnames _ hcompile
  refine ⟨⟨_, hcompile, hcompared, by decide⟩, hclash, ?_⟩
  obtain ⟨p, -, -, -, hrefused⟩ := compile_grammar clashText
  obtain ⟨fault, hfault, hexplains⟩ := hrefused (by rw [hclash]; rintro ⟨t, h⟩; cases h)
  rw [hclash] at hfault
  cases hfault
  exact ⟨p, hexplains⟩

end Template

end Gateway
