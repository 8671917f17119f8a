import Gateway.Proofs.CompiledTemplates
import Gateway.Proofs.SplitTexts
import Mathlib.Data.List.Forall2
import Mathlib.Data.List.Infix
import Mathlib.Tactic.Tauto

/-!
# The grammar of templates

A path text is cut at its placeholders in exactly one way: into literals in which no further placeholder is spelt, and
names that are not empty and made of name characters (`cuts_iff_ofChars`).  A piece of a query clause is a pair
exactly if it spells a key, an equals sign and a placeholder (`queryPair?_eq_some_iff`).
-/

namespace Gateway

namespace Template

/-! ## The parts of a template text -/

/-- The path of a template text: what stands before its first question mark. -/
def pathPart (text : String) : List Char :=
  text.toList.takeWhile (· != '?')

/-- The pieces of the query clause of a template text: what stands between the ampersands after its first question
mark, unless it is empty. -/
def queryPieces (text : String) : List (List Char) :=
  (((text.toList.dropWhile (· != '?')).drop 1).splitOn '&').filter (· ≠ [])

theorem splitQuery_eq (text : String) :
    splitQuery text = (pathPart text, (text.toList.dropWhile (· != '?')).tail?) := by
  unfold splitQuery Text.splitFirst pathPart
  dsimp only
  split <;> rename_i hdrop <;> simp [bne, hdrop]

theorem clausePieces_splitQuery (text : String) : clausePieces (splitQuery text).2 = queryPieces text := by
  have hkept : (fun piece : List Char => !piece.isEmpty) = fun piece => decide (piece ≠ []) := by
    funext piece
    cases piece <;> rfl
  rw [splitQuery_eq, queryPieces]
  cases text.toList.dropWhile (· != '?') with
  | nil => rfl
  | cons mark after =>
    rw [List.tail?_cons, clausePieces, Text.splitWhere_eq_splitOnP, hkept]
    rfl

/-! ## Names -/

/-- What a placeholder or a key may be called: letters and digits of ASCII, underscores and hyphens. -/
structure IsName (name : List Char) : Prop where
  ne_nil : name ≠ []
  spelt : ∀ c ∈ name, c.isAlphanum = true ∨ c = '_' ∨ c = '-'

theorem isNameChar_iff (c : Char) : isNameChar c = true ↔ c.isAlphanum = true ∨ c = '_' ∨ c = '-' := by
  have halnum : c.isAlphanum = ((decide ('A' ≤ c ∧ c ≤ 'Z') || (decide ('a' ≤ c) && decide (c ≤ 'z'))) ||
      (decide ('0' ≤ c) && decide (c ≤ '9'))) := rfl
  simp only [halnum, isNameChar, Bool.or_eq_true, Bool.and_eq_true, decide_eq_true_eq, beq_iff_eq]
  tauto

theorem isName_iff (name : List Char) : IsName name ↔ name ≠ [] ∧ ∀ c ∈ name, isNameChar c = true := by
  simp only [isNameChar_iff]
  exact ⟨fun h => ⟨h.ne_nil, h.spelt⟩, fun h => ⟨h.1, h.2⟩⟩

theorem IsName.chars {name : List Char} (h : IsName name) : ∀ c ∈ name, isNameChar c = true :=
  ((isName_iff name).mp h).2

/-- A name is compared as another: the same characters, but an underscore for every hyphen. -/
def ComparedAs (name compared : String) : Prop :=
  List.Forall₂ (fun c d => (c = '-' ∧ d = '_') ∨ (c ≠ '-' ∧ d = c)) name.toList compared.toList

theorem comparedAs_iff (name compared : String) : ComparedAs name compared ↔ normalizeName name = compared := by
  have hchar : ∀ c d : Char, ((c = '-' ∧ d = '_') ∨ (c ≠ '-' ∧ d = c)) ↔ (if c = '-' then '_' else c) = d := by
    intro c d
    split <;> simp_all [eq_comm]
  rw [ComparedAs, normalizeName, ← String.toList_inj, String.toList_ofList]
  simp only [hchar]
  rw [← List.forall₂_map_left_iff, List.forall₂_eq_eq_eq]

/-- A placeholder as it is spelt. -/
def braced (name : List Char) : List Char :=
  '{' :: name ++ ['}']

/-- A literal in which no placeholder is spelt. -/
def IsPlain (literal : List Char) : Prop :=
  ∀ name, IsName name → ¬braced name <:+: literal

/-! ## Placeholders -/

theorem ne_brace_of_isNameChar {c : Char} (h : isNameChar c = true) : c ≠ '{' := by
  rintro rfl
  revert h
  decide

theorem takeWhile_name {name : List Char} (h : IsName name) {mark : Char} (hmark : isNameChar mark = false)
    (rest : List Char) :
    (name ++ mark :: rest).takeWhile isNameChar = name ∧
      (name ++ mark :: rest).dropWhile isNameChar = mark :: rest := by
  constructor
  · rw [List.takeWhile_append_of_pos h.chars, List.takeWhile_cons_of_neg (by simp [hmark]), List.append_nil]
  · rw [List.dropWhile_append_of_pos h.chars, List.dropWhile_cons_of_neg (by simp [hmark])]

theorem placeholder?_eq_some_iff (cs name rest : List Char) :
    placeholder? cs = some (name, rest) ↔ cs = name ++ '}' :: rest ∧ IsName name := by
  constructor
  · intro h
    refine ⟨placeholder?_eq_some h, ?_⟩
    unfold placeholder? at h
    split at h
    · rename_i c taken left htaken _
      obtain ⟨rfl, rfl⟩ := Prod.mk.inj (Option.some.inj h)
      refine (isName_iff _).mpr ⟨List.cons_ne_nil c taken, ?_⟩
      rw [← htaken]
      exact List.all_eq_true.mp List.all_takeWhile
    · cases h
  · rintro ⟨rfl, hname⟩
    obtain ⟨htaken, hleft⟩ := takeWhile_name hname (by decide : isNameChar '}' = false) rest
    obtain ⟨c, taken, rfl⟩ := List.exists_cons_of_ne_nil hname.ne_nil
    rw [placeholder?, htaken, hleft]
    rfl

/-- A literal is plain if its rest is, and no placeholder is spelt at its start. -/
theorem isPlain_cons (c : Char) (cs : List Char) :
    IsPlain (c :: cs) ↔ IsPlain cs ∧ (c = '{' → placeholder? cs = none) := by
  constructor
  · intro h
    refine ⟨fun name hname hspelt => h name hname (hspelt.trans (List.suffix_cons c cs).isInfix), ?_⟩
    rintro rfl
    rw [Option.eq_none_iff_forall_not_mem]
    rintro ⟨name, rest⟩ hfound
    obtain ⟨rfl, hname⟩ := (placeholder?_eq_some_iff cs name rest).mp hfound
    apply h name hname
    exact List.IsPrefix.isInfix ⟨rest, by simp [braced]⟩
  · rintro ⟨hrest, hstart⟩ name hname hspelt
    rcases List.infix_cons_iff.mp hspelt with ⟨rest, hhere⟩ | hspelt
    · rw [braced, List.cons_append, List.cons_append, List.cons.injEq] at hhere
      have hfound := (placeholder?_eq_some_iff cs name rest).mpr ⟨by simp [← hhere.2], hname⟩
      rw [hstart hhere.1.symm] at hfound
      cases hfound
    · exact hrest name hname hspelt

theorem isPlain_nil : IsPlain [] := by
  intro name _ hspelt
  cases List.infix_nil.mp hspelt

/-- What follows in a plain literal is plain. -/
theorem IsPlain.of_append {before after : List Char} (h : IsPlain (before ++ after)) : IsPlain after :=
  fun name hname hspelt => h name hname (hspelt.trans (List.suffix_append before after).isInfix)

/-! ## Cutting a path -/

theorem scanPath_cons (c : Char) (rest : List Char) :
    scanPath (c :: rest) =
      match if c = '{' then placeholder? (scanPath rest).1 else none with
      | some (name, after) => ([], (name, after) :: (scanPath rest).2)
      | none => (c :: (scanPath rest).1, (scanPath rest).2) :=
  rfl

theorem scanPath_cons_of_none {c : Char} {rest : List Char} (h : c = '{' → placeholder? (scanPath rest).1 = none) :
    scanPath (c :: rest) = (c :: (scanPath rest).1, (scanPath rest).2) := by
  rw [scanPath_cons]
  by_cases hc : c = '{'
  · rw [if_pos hc, h hc]
  · rw [if_neg hc]

theorem scanPath_parts (cs : List Char) :
    IsPlain (scanPath cs).1 ∧ ∀ g ∈ (scanPath cs).2, IsName g.1 ∧ IsPlain g.2 := by
  induction cs with
  | nil => exact ⟨isPlain_nil, by simp [scanPath]⟩
  | cons c rest ih =>
    obtain ⟨hlead, hgaps⟩ := ih
    cases hopen : if c = '{' then placeholder? (scanPath rest).1 else none with
    | some found =>
      obtain ⟨name, after⟩ := found
      have hbrace : c = '{' := by
        by_contra hc
        rw [if_neg hc] at hopen
        cases hopen
      rw [if_pos hbrace, placeholder?_eq_some_iff] at hopen
      -- The literal after the placeholder is the end of the lead of the rest.
      have hafter : IsPlain after := by
        rw [hopen.1, List.append_cons] at hlead
        exact hlead.of_append
      have hscan : scanPath (c :: rest) = ([], (name, after) :: (scanPath rest).2) := by
        rw [scanPath_cons, if_pos hbrace, (placeholder?_eq_some_iff _ name after).mpr hopen]
      rw [hscan]
      exact ⟨isPlain_nil, List.forall_mem_cons.mpr ⟨⟨hopen.2, hafter⟩, hgaps⟩⟩
    | none =>
      have hnone : c = '{' → placeholder? (scanPath rest).1 = none := by
        intro hc
        rwa [if_pos hc] at hopen
      rw [scanPath_cons_of_none hnone]
      exact ⟨(isPlain_cons c _).mpr ⟨hlead, hnone⟩, hgaps⟩

/-- Characters other than an opening brace go to the lead. -/
theorem scanPath_append_of_ne {cs : List Char} (h : ∀ c ∈ cs, c ≠ '{') (rest : List Char) :
    scanPath (cs ++ rest) = (cs ++ (scanPath rest).1, (scanPath rest).2) := by
  induction cs with
  | nil => rfl
  | cons c cs ih =>
    obtain ⟨hc, hcs⟩ := List.forall_mem_cons.mp h
    rw [List.cons_append, scanPath_cons_of_none fun hbrace => absurd hbrace hc, ih hcs]
    rfl

theorem scanPath_braced {name : List Char} (hname : IsName name) (rest : List Char) :
    scanPath (braced name ++ rest) = ([], (name, (scanPath rest).1) :: (scanPath rest).2) := by
  have hne : ∀ c ∈ name ++ ['}'], c ≠ '{' := by
    intro c hc
    rcases List.mem_append.mp hc with hc | hc
    · exact ne_brace_of_isNameChar (hname.chars c hc)
    · rw [List.mem_singleton.mp hc]
      decide
  have hinside := scanPath_append_of_ne hne rest
  have hfound := (placeholder?_eq_some_iff _ name (scanPath rest).1).mpr ⟨rfl, hname⟩
  rw [List.append_assoc, List.singleton_append, List.append_assoc, List.singleton_append] at hinside
  rw [braced, List.cons_append, List.cons_append, List.append_assoc, List.singleton_append, scanPath_cons, hinside,
    if_pos rfl, hfound]

/-- A plain literal in front of a placeholder, or at the end, goes to the lead as a whole. -/
theorem scanPath_plain {literal rest : List Char} (h : IsPlain literal) (hrest : (scanPath rest).1 = []) :
    scanPath (literal ++ rest) = (literal, (scanPath rest).2) := by
  induction literal with
  | nil => rw [List.nil_append, ← hrest]
  | cons c literal ih =>
    obtain ⟨hplain, hstart⟩ := (isPlain_cons c literal).mp h
    have hscan := ih hplain
    rw [List.cons_append, scanPath_cons_of_none (by rw [hscan]; exact hstart), hscan]

/-- Literals and names that a path can be cut into are found by the scan. -/
theorem scanPath_cut {lead : List Char} {gaps : List (List Char × List Char)} (hlead : IsPlain lead)
    (hgaps : ∀ g ∈ gaps, IsName g.1 ∧ IsPlain g.2) :
    scanPath (lead ++ gaps.flatMap fun g => braced g.1 ++ g.2) = (lead, gaps) := by
  induction gaps generalizing lead with
  | nil => exact scanPath_plain hlead rfl
  | cons g gaps ih =>
    obtain ⟨⟨hname, hliteral⟩, hgaps⟩ := List.forall_mem_cons.mp hgaps
    have hscan := scanPath_braced hname (g.2 ++ gaps.flatMap fun g => braced g.1 ++ g.2)
    rw [ih hliteral hgaps] at hscan
    rw [List.flatMap_cons, List.append_assoc, scanPath_plain hlead (by rw [hscan]), hscan]

end Template

/-- A pattern cuts a path text at its placeholders: the text is put together from its literals and its names in braces,
and no literal spells a placeholder. -/
structure PathPattern.Cuts (p : PathPattern) (cs : List Char) : Prop where
  spelt : cs = p.lead.toList ++ p.gaps.flatMap fun g => Template.braced g.1.toList ++ g.2.toList
  lead : Template.IsPlain p.lead.toList
  gaps : ∀ g ∈ p.gaps, Template.IsName g.1.toList ∧ Template.IsPlain g.2.toList

namespace Template

/-- There is one cut of a path text, the pattern that is read from it. -/
theorem cuts_iff_ofChars (p : PathPattern) (cs : List Char) : p.Cuts cs ↔ PathPattern.ofChars cs = p := by
  constructor
  · intro h
    have hgaps : ∀ g ∈ p.gaps.map (fun g => (g.1.toList, g.2.toList)), IsName g.1 ∧ IsPlain g.2 := by
      intro g hg
      obtain ⟨g', hg', rfl⟩ := List.mem_map.mp hg
      exact h.gaps g' hg'
    have hscan := scanPath_cut h.lead hgaps
    rw [List.flatMap_map, ← h.spelt] at hscan
    simp [PathPattern.ofChars, hscan, Function.comp_def]
  · rintro rfl
    obtain ⟨hlead, hgaps⟩ := scanPath_parts cs
    refine ⟨?_, by simpa [PathPattern.ofChars] using hlead, ?_⟩
    · conv_lhs => rw [scanPath_spec cs]
      simp [PathPattern.ofChars, List.flatMap_map, braced]
    · intro g hg
      obtain ⟨g', hg', rfl⟩ := List.mem_map.mp hg
      simpa using hgaps g' hg'

theorem Compiled.cuts_iff {text : String} {t : Template} (h : Compiled text t) (p : PathPattern) :
    p.Cuts (pathPart text) ↔ p = t.path := by
  rw [cuts_iff_ofChars, h.path_eq, splitQuery_eq, eq_comm]

/-! ## Pieces of the query clause -/

/-- The characters of a pair of a query clause. -/
def pairChars (q : QueryPair) : List Char :=
  q.key.toList ++ '=' :: braced q.name.toList

/-- A pair is what a piece of a query clause spells: its key, an equals sign and its placeholder. -/
def Spells (q : QueryPair) (piece : List Char) : Prop :=
  piece = pairChars q ∧ IsName q.key.toList ∧ IsName q.name.toList

theorem queryPair?_eq_some_iff (piece : List Char) (q : QueryPair) : queryPair? piece = some q ↔ Spells q piece := by
  constructor
  · intro h
    unfold queryPair? at h
    split at h
    · rename_i k key rest htaken hleft
      split at h
      · rename_i name hfound
        obtain rfl := Option.some.inj h
        obtain ⟨rfl, hname⟩ := (placeholder?_eq_some_iff rest name []).mp hfound
        have hkey : IsName (k :: key) := by
          refine (isName_iff _).mpr ⟨List.cons_ne_nil k key, ?_⟩
          rw [← htaken]
          exact List.all_eq_true.mp List.all_takeWhile
        refine ⟨?_, by simpa using hkey, by simpa using hname⟩
        rw [← List.takeWhile_append_dropWhile (p := isNameChar) (l := piece), htaken, hleft]
        simp [pairChars, braced]
      · cases h
    · cases h
  · rintro ⟨rfl, hkey, hname⟩
    obtain ⟨htaken, hleft⟩ := takeWhile_name hkey (by decide : isNameChar '=' = false) (braced q.name.toList)
    obtain ⟨k, key, hcons⟩ := List.exists_cons_of_ne_nil hkey.ne_nil
    have hfound := (placeholder?_eq_some_iff (q.name.toList ++ ['}']) q.name.toList []).mpr ⟨rfl, hname⟩
    rw [queryPair?, pairChars, htaken, hleft, hcons]
    simp only [braced, List.cons_append]
    simp only [hfound, ← hcons, String.ofList_toList]

theorem spells_of_addPairs {seen : List String} {pieces : List (List Char)} {pairs : List QueryPair}
    (h : addPairs seen pieces = .ok pairs) : List.Forall₂ Spells pairs pieces := by
  induction pieces generalizing seen pairs with
  | nil =>
    obtain rfl := Except.ok.inj h
    exact .nil
  | cons piece rest ih =>
    obtain ⟨pair, others, hpiece, -, hothers, rfl⟩ := addPairs_cons_eq_ok h
    exact .cons ((queryPair?_eq_some_iff piece pair).mp hpiece) (ih hothers)

/-- The pairs of an accepted template spell the pieces of its query clause. -/
theorem Compiled.spells {text : String} {t : Template} (h : Compiled text t) :
    List.Forall₂ Spells t.query (queryPieces text) := by
  obtain ⟨_, -, hquery⟩ := h.named
  rw [clausePieces_splitQuery] at hquery
  exact spells_of_addPairs hquery

end Template

end Gateway
