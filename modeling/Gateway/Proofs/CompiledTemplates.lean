import Gateway.Template.Basic
import Mathlib.Data.List.Nodup

/-!
# Compiled templates

What `compile` guarantees of a template it accepts: the path pattern is the text before the question mark cut at its
placeholders (`toList_fill_braced`), no two placeholders have the same name (`names_nodup`), and the keys of the query
clause are made of name characters (`isKey_key`).
-/

namespace Gateway

/-- The path in which every placeholder is replaced by the text of its name. -/
def PathPattern.fill (p : PathPattern) (text : String → String) : String :=
  String.ofList (p.lead.toList ++ p.gaps.flatMap fun g => (text g.1).toList ++ g.2.toList)

namespace Template

/-! ## Paths -/

theorem placeholder?_eq_some {cs name rest : List Char} (h : placeholder? cs = some (name, rest)) :
    cs = name ++ '}' :: rest := by
  unfold placeholder? at h
  split at h
  · rename_i c taken left htaken hleft
    obtain ⟨rfl, rfl⟩ := Prod.mk.inj (Option.some.inj h)
    rw [← htaken, ← hleft, List.takeWhile_append_dropWhile]
  · cases h

/-- A path is its lead, followed by its placeholders in braces, each with its literal. -/
theorem scanPath_spec (cs : List Char) :
    cs = (scanPath cs).1 ++ (scanPath cs).2.flatMap fun g => '{' :: g.1 ++ '}' :: g.2 := by
  induction cs with
  | nil => rfl
  | cons c rest ih =>
    -- The rest is cut first: a brace takes its name from the lead of the rest.
    rw [scanPath]
    dsimp only
    split
    · rename_i name after hopen
      split at hopen
      · rename_i hbrace
        have hlead := placeholder?_eq_some hopen
        subst hbrace
        conv_lhs => rw [ih, hlead]
        simp
      · cases hopen
    · conv_lhs => rw [ih]
      rfl

/-- Putting the names in braces back gives the text that the path was read from. -/
theorem toList_fill_ofChars (cs : List Char) :
    ((PathPattern.ofChars cs).fill fun name => "\x7b" ++ name ++ "\x7d").toList = cs := by
  conv_rhs => rw [scanPath_spec cs]
  simp [PathPattern.fill, PathPattern.ofChars, List.flatMap_map]

/-! ## Names and keys -/

theorem nodup_snoc {seen : List String} {name : String} (hseen : seen.Nodup) (hnew : ¬seen.contains name = true) :
    (seen ++ [name]).Nodup := by
  rw [List.contains_iff_mem] at hnew
  rw [← List.concat_eq_append]
  exact hseen.concat hnew

theorem addNames_eq_ok {seen raws all : List String} (h : addNames seen raws = .ok all) :
    all = seen ++ raws.map normalizeName ∧ (seen.Nodup → all.Nodup) := by
  induction raws generalizing seen with
  | nil =>
    obtain rfl := Except.ok.inj h
    simp
  | cons raw rest ih =>
    unfold addNames at h
    split at h
    · cases h
    · rename_i hnew
      obtain ⟨rfl, hnodup⟩ := ih h
      refine ⟨by simp, ?_⟩
      intro hseen
      exact hnodup (nodup_snoc hseen hnew)

/-- The first piece is a pair with a new name, which the further pieces may not have again. -/
theorem addPairs_cons_eq_ok {seen : List String} {piece : List Char} {rest : List (List Char)} {pairs : List QueryPair}
    (h : addPairs seen (piece :: rest) = .ok pairs) :
    ∃ pair others, queryPair? piece = some pair ∧ ¬seen.contains (normalizeName pair.name) = true ∧
      addPairs (seen ++ [normalizeName pair.name]) rest = .ok others ∧ pairs = pair :: others := by
  unfold addPairs at h
  cases hpiece : queryPair? piece with
  | none => simp [hpiece] at h
  | some pair =>
    rw [hpiece] at h
    dsimp only at h
    split at h
    · cases h
    · rename_i hnew
      split at h
      · rename_i others hothers
        exact ⟨pair, others, rfl, hnew, hothers, (Except.ok.inj h).symm⟩
      · cases h

theorem addPairs_eq_ok {seen : List String} {pieces : List (List Char)} {pairs : List QueryPair}
    (h : addPairs seen pieces = .ok pairs) :
    (seen.Nodup → (seen ++ pairs.map fun q => normalizeName q.name).Nodup) ∧
      ∀ q ∈ pairs, ∃ piece ∈ pieces, queryPair? piece = some q := by
  induction pieces generalizing seen pairs with
  | nil =>
    obtain rfl := Except.ok.inj h
    simp
  | cons piece rest ih =>
    obtain ⟨pair, others, hpiece, hnew, hothers, rfl⟩ := addPairs_cons_eq_ok h
    obtain ⟨hnodup, hread⟩ := ih hothers
    constructor
    · intro hseen
      simpa using hnodup (nodup_snoc hseen hnew)
    · intro q hq
      rcases List.mem_cons.mp hq with rfl | hq
      · exact ⟨piece, List.mem_cons_self, hpiece⟩
      · obtain ⟨other, hmem, hother⟩ := hread q hq
        exact ⟨other, List.mem_cons_of_mem _ hmem, hother⟩

/-- A text of name characters, as a query key is. -/
def IsKey (key : String) : Prop :=
  ∀ c ∈ key.toList, isNameChar c = true

theorem isKey_of_queryPair? {piece : List Char} {q : QueryPair} (h : queryPair? piece = some q) : IsKey q.key := by
  unfold queryPair? at h
  split at h
  · rename_i k key rest htaken hrest
    split at h
    · obtain rfl := Option.some.inj h
      intro c hc
      rw [String.toList_ofList, ← htaken] at hc
      exact List.all_eq_true.mp List.all_takeWhile c hc
    · cases h
  · cases h

/-! ## Compiling -/

/-- The stages of compiling an accepted template. -/
structure Compiled (text : String) (t : Template) : Prop where
  path_eq : t.path = PathPattern.ofChars (splitQuery text).1
  named : ∃ seen, addNames [] (PathPattern.variables t.path) = .ok seen ∧
    addPairs seen (clausePieces (splitQuery text).2) = .ok t.query

theorem compiled_of_compile {text : String} {t : Template} (h : compile text = .ok t) : Compiled text t := by
  unfold compile at h
  dsimp only at h
  split at h
  · cases h
  · rename_i seen hseen
    split at h
    · cases h
    · rename_i query hquery
      obtain rfl := Except.ok.inj h
      exact ⟨rfl, seen, hseen, hquery⟩

namespace Compiled

variable {text : String} {t : Template}

theorem toList_fill_braced (h : Compiled text t) :
    (t.path.fill fun name => "\x7b" ++ name ++ "\x7d").toList = (splitQuery text).1 := by
  rw [h.path_eq, toList_fill_ofChars]

/-- No two placeholders have the same name, hyphens read as underscores. -/
theorem names_nodup (h : Compiled text t) : t.names.Nodup := by
  obtain ⟨seen, hseen, hquery⟩ := h.named
  obtain ⟨rfl, hnodup⟩ := addNames_eq_ok hseen
  have hall := (addPairs_eq_ok hquery).1 (hnodup List.nodup_nil)
  rw [List.nil_append, PathPattern.variables, List.map_map] at hall
  exact hall

theorem isKey_key (h : Compiled text t) {q : QueryPair} (hq : q ∈ t.query) : IsKey q.key := by
  obtain ⟨seen, -, hquery⟩ := h.named
  obtain ⟨piece, -, hread⟩ := (addPairs_eq_ok hquery).2 q hq
  exact isKey_of_queryPair? hread

end Compiled

end Template

end Gateway
