import Gateway.Proofs.RouteLookups
import Gateway.Proofs.UnitTexts
import Mathlib.Data.List.Nodup

/-!
# The order of rules

`precedes` is a total preorder in which only rules with one template text stand level, so a table lists its rules in
an order that the declared order decides only among rules of one text.  A look-up takes the first rule that answers
to it (`lookup_selected_eq`).  Of rules with one text at most one has the request's method, so it does not matter in
which order rules are declared (`lookup_ofRules_perm`).
-/

namespace Gateway

/-! ## Comparing rules -/

namespace Rule

/-- More placeholders first, and of as many the greater text first. -/
theorem precedes_iff (a b : Rule) :
    precedes a b = true ↔
      b.template.names.length < a.template.names.length ∨
        b.template.names.length = a.template.names.length ∧
          (a.template.text = b.template.text ∨
            Text.unitsBefore b.template.text a.template.text = true) := by
  unfold precedes compare
  cases hnames : Ord.compare b.template.names.length a.template.names.length with
  | lt =>
    have hlt := Nat.compare_eq_lt.mp hnames
    simp [hlt]
  | gt =>
    have hgt := Nat.compare_eq_gt.mp hnames
    simp
    omega
  | eq =>
    have heq := Nat.compare_eq_eq.mp hnames
    by_cases htext : a.template.text = b.template.text
    · simp [heq, htext]
    · cases hbefore : Text.unitsBefore b.template.text a.template.text <;> simp [heq, htext]

theorem precedes_trans (a b c : Rule) (hab : precedes a b = true) (hbc : precedes b c = true) :
    precedes a c = true := by
  rw [precedes_iff] at *
  rcases hab with hab | ⟨hnames, hab⟩
  · refine .inl ?_
    rcases hbc with hbc | ⟨hnames, -⟩ <;> omega
  · rcases hbc with hbc | ⟨hnames', hbc⟩
    · exact .inl (by omega)
    · refine .inr ⟨by omega, ?_⟩
      rcases hab with hab | hab
      · rw [hab]
        exact hbc
      · rcases hbc with hbc | hbc
        · rw [← hbc]
          exact .inr hab
        · exact .inr (Text.unitsBefore_trans hbc hab)

theorem precedes_total (a b : Rule) : (precedes a b || precedes b a) = true := by
  rw [Bool.or_eq_true, precedes_iff, precedes_iff]
  rcases Nat.lt_trichotomy a.template.names.length b.template.names.length with hlt | heq | hgt
  · exact .inr (.inl hlt)
  · by_cases htext : a.template.text = b.template.text
    · exact .inl (.inr ⟨heq.symm, .inl htext⟩)
    · rcases Text.unitsBefore_total htext with hab | hba
      · exact .inr (.inr ⟨heq, .inr hab⟩)
      · exact .inl (.inr ⟨heq.symm, .inr hba⟩)
  · exact .inl (.inl hgt)

/-- Only rules with one template text stand level. -/
theorem text_eq_of_precedes {a b : Rule} (hab : precedes a b = true) (hba : precedes b a = true) :
    a.template.text = b.template.text := by
  rw [precedes_iff] at *
  rcases hab with hab | ⟨hnames, hab⟩
  · rcases hba with hba | ⟨hnames, -⟩ <;> omega
  · rcases hab with hab | hab
    · exact hab
    · rcases hba with hba | ⟨-, hba | hba⟩
      · omega
      · exact hba.symm
      · rw [Text.unitsBefore_asymm hab] at hba
        cases hba

end Rule

namespace RouteTable

/-! ## Tables of the same rules -/

theorem rules_ofRules_perm (rules : List Rule) : (ofRules rules).rules.Perm rules :=
  List.mergeSort_perm rules Rule.precedes

theorem rules_ofRules_pairwise (rules : List Rule) :
    (ofRules rules).rules.Pairwise fun a b => Rule.precedes a b = true :=
  List.pairwise_mergeSort Rule.precedes_trans Rule.precedes_total rules

/-- Two tables of the same rules list those of a class in one order, if no two rules of the class have one text. -/
theorem filter_rules_eq {rules rules' : List Rule} (hperm : rules.Perm rules') (inClass : Rule → Bool)
    (htexts : ∀ a ∈ rules, ∀ b ∈ rules, inClass a = true → inClass b = true →
      a.template.text = b.template.text → a = b) :
    (ofRules rules).rules.filter inClass = (ofRules rules').rules.filter inClass := by
  have hrules : (ofRules rules).rules.Perm (ofRules rules').rules :=
    (rules_ofRules_perm rules).trans (hperm.trans (rules_ofRules_perm rules').symm)
  refine List.Perm.eq_of_pairwise ?_ ((rules_ofRules_pairwise rules).filter inClass)
    ((rules_ofRules_pairwise rules').filter inClass) (hrules.filter inClass)
  intro a b ha hb hab hba
  obtain ⟨ha, hclass⟩ := List.mem_filter.mp ha
  obtain ⟨hb, hclass'⟩ := List.mem_filter.mp hb
  have hmem : b ∈ rules := (rules_ofRules_perm rules).mem_iff.mp (hrules.mem_iff.mpr hb)
  exact htexts a ((rules_ofRules_perm rules).mem_iff.mp ha) b hmem hclass hclass'
    (Rule.text_eq_of_precedes hab hba)

/-- Only rules with the request's method offer a match, unless the method is `OPTIONS`. -/
theorem findSome?_candidate?_eq {method : String} (hmethod : method ≠ "OPTIONS") (path query : String)
    (rules : List Rule) :
    rules.findSome? (candidate? method path query) =
      (rules.filter fun r => r.verb == method).findSome? (candidate? method path query) := by
  induction rules with
  | nil => rfl
  | cons rule rest ih =>
    by_cases hverb : rule.verb = method
    · simp [hverb, List.findSome?_cons, ih]
    · have hnone : candidate? method path query rule = none := by
        have hother : ¬ method = rule.verb := fun h => hverb h.symm
        simp [candidate?, hmethod, hother]
      simp [hverb, hnone, ih]

/-- The order in which rules are declared does not decide which of them is selected, unless the method is `OPTIONS`,
nor which verbs are reported.  If no two rules have one text, it does not decide anything. -/
theorem lookup_ofRules_perm {rules rules' : List Rule}
    (hdistinct : (rules.map fun r => (r.template.text, r.verb)).Nodup) (hperm : rules.Perm rules') :
    (∀ method path query, method ≠ "OPTIONS" →
      ((ofRules rules).lookup method path query).selected =
        ((ofRules rules').lookup method path query).selected) ∧
    (∀ method path query verb,
      verb ∈ ((ofRules rules).lookup method path query).allowedVerbs ↔
        verb ∈ ((ofRules rules').lookup method path query).allowedVerbs) ∧
    ((rules.map fun r => r.template.text).Nodup →
      (ofRules rules).rules = (ofRules rules').rules ∧
        ∀ method path query,
          (ofRules rules).lookup method path query = (ofRules rules').lookup method path query) := by
  refine ⟨?_, ?_, ?_⟩
  · intro method path query hmethod
    cases hroot : isRoot path with
    | true => rw [lookup_of_isRoot _ _ _ hroot, lookup_of_isRoot _ _ _ hroot]
    | false =>
      -- Rules with another verb offer nothing, and no two rules with this one have one text.
      have hrules := filter_rules_eq hperm (fun r => r.verb == method) (by
        intro a ha b hb hverb hverb' htext
        have hsame : a.verb = b.verb := by rw [beq_iff_eq.mp hverb, beq_iff_eq.mp hverb']
        exact List.inj_on_of_nodup_map hdistinct ha hb (by rw [htext, hsame]))
      rw [lookup_selected_eq _ _ _ hroot, lookup_selected_eq _ _ _ hroot, findSome?_candidate?_eq hmethod, hrules,
        ← findSome?_candidate?_eq hmethod]
  · intro method path query verb
    cases hroot : isRoot path with
    | true => rw [lookup_of_isRoot _ _ _ hroot, lookup_of_isRoot _ _ _ hroot]
    | false =>
      rw [mem_lookup_verbs _ _ _ hroot, mem_lookup_verbs _ _ _ hroot]
      have hmem : ∀ rule, rule ∈ (ofRules rules).rules ↔ rule ∈ (ofRules rules').rules := by
        intro rule
        rw [(rules_ofRules_perm rules).mem_iff, (rules_ofRules_perm rules').mem_iff, hperm.mem_iff]
      simp only [hmem]
  · intro htexts
    have hrules := filter_rules_eq hperm (fun _ => true) fun a ha b hb _ _ htext =>
      List.inj_on_of_nodup_map htexts ha hb htext
    have hequal : (ofRules rules).rules = (ofRules rules').rules := by
      rwa [List.filter_true, List.filter_true] at hrules
    exact ⟨hequal, fun method path query => by rw [lookup, lookup, hequal]⟩

/-- Four rules whose templates may all match one path, in no order. -/
def shuffledRules : List Rule :=
  [⟨⟨"/items/all", ⟨"/items/all", []⟩, []⟩, "GET", "all"⟩,
    ⟨⟨"/items/\x7bid\x7d", ⟨"/items/", [("id", "")]⟩, []⟩, "GET", "item"⟩,
    ⟨⟨"/items/\x7bname\x7d", ⟨"/items/", [("name", "")]⟩, []⟩, "GET", "named"⟩,
    ⟨⟨"/items/\x7bid\x7d", ⟨"/items/", [("id", "")]⟩, []⟩, "PUT", "replace"⟩]

/-- The rules of `shuffledRules` in table order, with the two of one text exchanged. -/
def orderedRules : List Rule :=
  [⟨⟨"/items/\x7bname\x7d", ⟨"/items/", [("name", "")]⟩, []⟩, "GET", "named"⟩,
    ⟨⟨"/items/\x7bid\x7d", ⟨"/items/", [("id", "")]⟩, []⟩, "PUT", "replace"⟩,
    ⟨⟨"/items/\x7bid\x7d", ⟨"/items/", [("id", "")]⟩, []⟩, "GET", "item"⟩,
    ⟨⟨"/items/all", ⟨"/items/all", []⟩, []⟩, "GET", "all"⟩]

theorem lookup_ofRules_perm_items :
    (shuffledRules.map fun r => (r.template.text, r.verb)).Nodup ∧ shuffledRules.Perm orderedRules ∧
      ((ofRules shuffledRules).lookup "PUT" "/items/all" "").selected =
        some ⟨⟨⟨"/items/\x7bid\x7d", ⟨"/items/", [("id", "")]⟩, []⟩, "PUT", "replace"⟩, [("id", .one "all")]⟩ := by
  have hdistinct : (shuffledRules.map fun r => (r.template.text, r.verb)).Nodup := by decide
  have hperm : shuffledRules.Perm orderedRules := by decide
  have hordered : ofRules orderedRules = ⟨orderedRules⟩ :=
    congrArg RouteTable.mk (List.mergeSort_of_pairwise (by decide +kernel))
  refine ⟨hdistinct, hperm, ?_⟩
  rw [(lookup_ofRules_perm hdistinct hperm).1 "PUT" "/items/all" "" (by decide), hordered]
  decide +kernel

end RouteTable

end Gateway
