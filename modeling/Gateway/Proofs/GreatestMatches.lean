import Gateway.Proofs.RouteOrder
import Mathlib.Data.List.Induction

/-!
# A look-up selects the greatest match

One rule outranks another if its template has more placeholders, or as many and a greater text.  A table lists no rule
after one that it outranks, and a look-up takes the first rule that offers a match, so no rule that offers a match
outranks the selected one.  The reported verbs are those of the matching rules in the order of the table, each at its
first place (`lookup_greatest`).
-/

namespace Gateway

/-! ## Ranks -/

namespace Rule

/-- The first rule comes before the second by its number of placeholders, or by its text if they have as many. -/
def Outranks (a b : Rule) : Prop :=
  b.template.names.length < a.template.names.length ∨
    b.template.names.length = a.template.names.length ∧
      Text.unitsBefore b.template.text a.template.text = true

instance (a b : Rule) : Decidable (Outranks a b) :=
  inferInstanceAs (Decidable (_ ∨ _ ∧ _))

theorem precedes_iff_not_outranks (a b : Rule) : precedes a b = true ↔ ¬Outranks b a := by
  rw [precedes_iff, Outranks]
  constructor
  · rintro (hmore | ⟨hnames, htext | hbefore⟩) (hmore' | ⟨hnames', hbefore'⟩)
    · omega
    · omega
    · omega
    · rw [htext] at hbefore'
      have hirreflexive := Text.unitsBefore_asymm hbefore'
      rw [hbefore'] at hirreflexive
      cases hirreflexive
    · omega
    · rw [Text.unitsBefore_asymm hbefore] at hbefore'
      cases hbefore'
  · intro h
    obtain ⟨hnames, htexts⟩ := not_or.mp h
    rcases Nat.lt_or_eq_of_le (Nat.not_lt.mp hnames) with hmore | heq
    · exact .inl hmore
    · refine .inr ⟨heq, ?_⟩
      by_cases htext : a.template.text = b.template.text
      · exact .inl htext
      · rcases Text.unitsBefore_total htext with hab | hba
        · exact absurd ⟨heq.symm, hab⟩ htexts
        · exact .inr hba

end Rule

namespace RouteTable

/-- Whether the template of a rule matches a path and a query. -/
def isMatch (path query : String) (rule : Rule) : Bool :=
  (rule.template.match? path query).isSome

/-- A rule that may be selected for a method: it has the method as verb, or the method is `OPTIONS`. -/
def Eligible (method : String) (rule : Rule) : Prop :=
  rule.verb = method ∨ method = "OPTIONS"

theorem rules_ofRules_ranked (rules : List Rule) :
    (ofRules rules).rules.Pairwise fun a b => ¬Rule.Outranks b a :=
  (rules_ofRules_pairwise rules).imp fun h => (Rule.precedes_iff_not_outranks _ _).mp h

/-! ## The reported verbs -/

/-- One more rule reports its verb at the end, if it matches and the verb is new. -/
theorem consider_verbs (method path query : String) (found : RouteLookup) (rule : Rule) :
    (consider method path query found rule).allowedVerbs =
      if isMatch path query rule = true ∧ rule.verb ∉ found.allowedVerbs then found.allowedVerbs ++ [rule.verb]
      else found.allowedVerbs := by
  unfold consider isMatch
  cases hmatch : rule.template.match? path query with
  | none => simp
  | some captures => by_cases hlisted : rule.verb ∈ found.allowedVerbs <;> simp [hlisted]

/-- The verbs of the matching rules among some, each at its first place. -/
def verbsOf (path query : String) (rules : List Rule) : List String :=
  ((rules.filter (isMatch path query)).map (·.verb)).eraseDups

theorem mem_verbsOf (path query : String) (rules : List Rule) (verb : String) :
    verb ∈ verbsOf path query rules ↔ ∃ rule ∈ rules, isMatch path query rule = true ∧ rule.verb = verb := by
  simp [verbsOf, and_assoc]

theorem verbsOf_concat (path query : String) (rules : List Rule) (rule : Rule) :
    verbsOf path query (rules ++ [rule]) =
      if isMatch path query rule = true ∧ rule.verb ∉ verbsOf path query rules then
        verbsOf path query rules ++ [rule.verb]
      else verbsOf path query rules := by
  unfold verbsOf
  rw [List.filter_append, List.map_append, List.eraseDups_append]
  generalize (rules.filter (isMatch path query)).map (·.verb) = verbs
  cases hmatch : isMatch path query rule with
  | false => simp [hmatch]
  | true => by_cases hlisted : rule.verb ∈ verbs <;> simp [hmatch, hlisted, List.removeAll, List.eraseDups_cons]

theorem nodup_verbsOf (path query : String) (rules : List Rule) : (verbsOf path query rules).Nodup := by
  induction rules using List.reverseRecOn with
  | nil => exact List.nodup_nil
  | append_singleton rest rule ih =>
    rw [verbsOf_concat]
    split
    · rename_i hnew
      rw [← List.concat_eq_append]
      exact ih.concat hnew.2
    · exact ih

theorem foldl_consider_verbs (method path query : String) (rules : List Rule) :
    (rules.foldl (consider method path query) ⟨none, []⟩).allowedVerbs = verbsOf path query rules := by
  induction rules using List.reverseRecOn with
  | nil => rfl
  | append_singleton rest rule ih =>
    rw [List.foldl_append, List.foldl_cons, List.foldl_nil, consider_verbs, ih, verbsOf_concat]

/-! ## The selected rule -/

/-- The first rule of a table that offers a match is outranked by no other that does. -/
theorem findSome?_candidate?_ranked {method path query : String} {rules : List Rule} {m : RouteMatch}
    (hranked : rules.Pairwise fun a b => ¬Rule.Outranks b a)
    (h : rules.findSome? (candidate? method path query) = some m) {r : Rule} (hr : r ∈ rules)
    (hmatch : isMatch path query r = true) (heligible : Eligible method r) : ¬Rule.Outranks r m.rule := by
  obtain ⟨before, rule, after, rfl, hcandidate, hbefore⟩ := List.findSome?_eq_some_iff.mp h
  obtain ⟨hrule, -, -⟩ := (candidate?_eq_some_iff method path query rule m).mp hcandidate
  rw [hrule]
  obtain ⟨-, hafter, -⟩ := List.pairwise_append.mp hranked
  rcases List.mem_append.mp hr with hr | hr
  · -- A rule before the first one offers no match.
    obtain ⟨captures, hcaptures⟩ := Option.isSome_iff_exists.mp hmatch
    have hoffers : candidate? method path query r = some ⟨r, captures⟩ :=
      (candidate?_eq_some_iff method path query r _).mpr ⟨rfl, heligible.imp_left Eq.symm, hcaptures⟩
    rw [hbefore r hr] at hoffers
    cases hoffers
  · rcases List.mem_cons.mp hr with rfl | hr
    · exact (Rule.precedes_iff_not_outranks r r).mp (by simpa using Rule.precedes_total r r)
    · exact (List.pairwise_cons.mp hafter).1 r hr

/-- Unless the path is the root, a look-up reports the verbs of the matching rules in the order of the table, each at
its first place.  A rule is selected exactly if the method is reported, or if it is `OPTIONS` and some verb is.  The
selected rule matches with the captures that are given, it has the method unless that is `OPTIONS`, and no matching rule
that is eligible outranks it.  For the root nothing is selected and no verb reported. -/
theorem lookup_greatest (rules : List Rule) (method path query : String) :
    ((ofRules rules).rules.Perm rules ∧ (ofRules rules).rules.Pairwise fun a b => ¬Rule.Outranks b a) ∧
    (path ≠ "" → path ≠ "/" →
      ((ofRules rules).lookup method path query).allowedVerbs = verbsOf path query (ofRules rules).rules ∧
      ((ofRules rules).lookup method path query).allowedVerbs.Nodup ∧
      (∀ verb, verb ∈ ((ofRules rules).lookup method path query).allowedVerbs ↔
        ∃ rule ∈ rules, isMatch path query rule = true ∧ rule.verb = verb) ∧
      (((ofRules rules).lookup method path query).selected.isSome = true ↔
        method ∈ ((ofRules rules).lookup method path query).allowedVerbs ∨
          method = "OPTIONS" ∧ ((ofRules rules).lookup method path query).allowedVerbs ≠ []) ∧
      ∀ m, ((ofRules rules).lookup method path query).selected = some m →
        m.rule ∈ rules ∧ m.rule.template.match? path query = some m.captures ∧
          (method ≠ "OPTIONS" → m.rule.verb = method) ∧
          ∀ r ∈ rules, isMatch path query r = true → Eligible method r → ¬Rule.Outranks r m.rule) ∧
    (path = "" ∨ path = "/" → (ofRules rules).lookup method path query = ⟨none, []⟩) := by
  have hmem : ∀ rule, rule ∈ (ofRules rules).rules ↔ rule ∈ rules := fun rule => (rules_ofRules_perm rules).mem_iff
  refine ⟨⟨rules_ofRules_perm rules, rules_ofRules_ranked rules⟩, ?_, ?_⟩
  · intro hempty hslash
    have hroot : isRoot path = false := by simp [isRoot, hempty, hslash]
    have hverbs : ((ofRules rules).lookup method path query).allowedVerbs =
        verbsOf path query (ofRules rules).rules := by
      rw [lookup, hroot, if_neg Bool.false_ne_true, foldl_consider_verbs]
    refine ⟨hverbs, ?_, ?_, lookup_linked _ method path query, ?_⟩
    · rw [hverbs]
      exact nodup_verbsOf path query _
    · intro verb
      simp only [hverbs, mem_verbsOf, hmem]
    · intro m hselected
      obtain ⟨hrule, hmethod, hmatch⟩ := lookup_selected hselected
      refine ⟨(hmem _).mp hrule, hmatch, fun hne => (hmethod.resolve_right hne).symm, ?_⟩
      intro r hr hmatches heligible
      rw [lookup_selected_eq _ _ _ hroot] at hselected
      exact findSome?_candidate?_ranked (rules_ofRules_ranked rules) hselected ((hmem r).mpr hr) hmatches heligible
  · intro hroot
    exact lookup_of_isRoot _ _ _ (by simpa [isRoot] using hroot)

theorem lookup_greatest_items :
    "/items/all" ≠ "" ∧ "/items/all" ≠ "/" ∧
      ∃ m, ((ofRules shuffledRules).lookup "GET" "/items/all" "").selected = some m ∧
        m.rule.procedure = "named" ∧ m.captures = [("name", .one "all")] := by
  obtain ⟨-, hlookup, -⟩ := lookup_greatest shuffledRules "GET" "/items/all" ""
  obtain ⟨-, -, hverbs, hselected, hgreatest⟩ := hlookup (by decide) (by decide)
  have hreported := (hverbs "GET").mpr ⟨_, List.mem_cons_self, by decide +kernel, rfl⟩
  obtain ⟨m, hm⟩ := Option.isSome_iff_exists.mp (hselected.mpr (.inl hreported))
  obtain ⟨hrule, hcaptures, hverb, hranked⟩ := hgreatest m hm
  refine ⟨by decide, by decide, m, hm, ?_⟩
  -- The rule with `name` outranks the two others with the method.
  have hname := hranked ⟨⟨"/items/\x7bname\x7d", ⟨"/items/", [("name", "")]⟩, []⟩, "GET", "named"⟩ (by decide)
    (by decide +kernel) (.inl rfl)
  obtain ⟨rule, captures⟩ := m
  dsimp only at hrule hcaptures hverb hname ⊢
  simp only [shuffledRules, List.mem_cons, List.not_mem_nil, or_false] at hrule
  rcases hrule with rfl | rfl | rfl | rfl
  · exact absurd (by decide +kernel) hname
  · exact absurd (by decide +kernel) hname
  · exact ⟨rfl, Option.some.inj (hcaptures.symm.trans (by decide +kernel))⟩
  · exact absurd (hverb (by decide)) (by decide)

end RouteTable

end Gateway
