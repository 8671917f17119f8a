import Gateway.Route.Table

/-!
# What a look-up finds

A look-up walks over the rules of a table and keeps two things: the first match that a rule offers, and the verbs of
all rules whose template matches.  The two are linked at every step of the walk (`Linked`): a rule is selected exactly
if the method is among the verbs.
-/

namespace Gateway.RouteTable

/-! ## The selected rule -/

/-- The match that a rule offers to a request: its template matches, and it has the request's method. -/
def candidate? (method path query : String) (rule : Rule) : Option RouteMatch :=
  if method = rule.verb ∨ method = "OPTIONS" then
    (rule.template.match? path query).map fun captures => ⟨rule, captures⟩
  else none

theorem consider_selected_eq (method path query : String) (found : RouteLookup) (rule : Rule) :
    (consider method path query found rule).selected =
      found.selected.or (candidate? method path query rule) := by
  unfold consider candidate?
  cases hmatch : rule.template.match? path query with
  | none => cases found.selected <;> simp
  | some captures => cases hselected : found.selected <;> simp

theorem foldl_consider_selected_eq (method path query : String) (rules : List Rule) (found : RouteLookup) :
    (rules.foldl (consider method path query) found).selected =
      found.selected.or (rules.findSome? (candidate? method path query)) := by
  induction rules generalizing found with
  | nil => simp
  | cons rule rest ih =>
    rw [List.foldl_cons, ih, consider_selected_eq, Option.or_assoc, List.findSome?_cons]
    cases candidate? method path query rule <;> simp

/-- The selected rule is the first that offers a match. -/
theorem lookup_selected_eq (table : RouteTable) (method query : String) {path : String}
    (hroot : isRoot path = false) :
    (table.lookup method path query).selected = table.rules.findSome? (candidate? method path query) := by
  rw [lookup, hroot, if_neg (by simp), foldl_consider_selected_eq, Option.none_or]

theorem lookup_of_isRoot (table : RouteTable) (method query : String) {path : String} (hroot : isRoot path = true) :
    table.lookup method path query = ⟨none, []⟩ := by
  rw [lookup, if_pos hroot]

theorem candidate?_eq_some_iff (method path query : String) (rule : Rule) (m : RouteMatch) :
    candidate? method path query rule = some m ↔
      m.rule = rule ∧ (method = rule.verb ∨ method = "OPTIONS") ∧
        rule.template.match? path query = some m.captures := by
  unfold candidate?
  by_cases hmethod : method = rule.verb ∨ method = "OPTIONS"
  · rw [if_pos hmethod, Option.map_eq_some_iff]
    constructor
    · rintro ⟨captures, hmatch, rfl⟩
      exact ⟨rfl, hmethod, hmatch⟩
    · rintro ⟨rfl, -, hmatch⟩
      exact ⟨m.captures, hmatch, rfl⟩
  · rw [if_neg hmethod]
    simp [hmethod]

/-- A selected rule is one of the table with the request's method, and matches it with the captures that are
reported. -/
theorem lookup_selected {table : RouteTable} {method path query : String} {m : RouteMatch}
    (h : (table.lookup method path query).selected = some m) :
    m.rule ∈ table.rules ∧ (method = m.rule.verb ∨ method = "OPTIONS") ∧
      m.rule.template.match? path query = some m.captures := by
  cases hroot : isRoot path with
  | true =>
    rw [lookup_of_isRoot _ _ _ hroot] at h
    cases h
  | false =>
    rw [lookup_selected_eq _ _ _ hroot] at h
    obtain ⟨rule, hrule, hcandidate⟩ := List.exists_of_findSome?_eq_some h
    obtain ⟨rfl, hmethod, hmatch⟩ := (candidate?_eq_some_iff method path query rule m).mp hcandidate
    exact ⟨hrule, hmethod, hmatch⟩

/-! ## The reported verbs -/

theorem mem_consider_verbs (method path query : String) (found : RouteLookup) (rule : Rule) (verb : String) :
    verb ∈ (consider method path query found rule).allowedVerbs ↔
      verb ∈ found.allowedVerbs ∨ (rule.template.match? path query).isSome ∧ verb = rule.verb := by
  unfold consider
  cases hmatch : rule.template.match? path query with
  | none => simp
  | some captures =>
    by_cases hlisted : rule.verb ∈ found.allowedVerbs
    · simp only [List.contains_iff_mem.mpr hlisted, if_true, Option.isSome_some, true_and]
      constructor
      · exact .inl
      · rintro (hmem | rfl)
        · exact hmem
        · exact hlisted
    · simp [hlisted]

theorem mem_foldl_consider_verbs (method path query : String) (rules : List Rule) (found : RouteLookup)
    (verb : String) :
    verb ∈ (rules.foldl (consider method path query) found).allowedVerbs ↔
      verb ∈ found.allowedVerbs ∨
        ∃ rule ∈ rules, (rule.template.match? path query).isSome ∧ verb = rule.verb := by
  induction rules generalizing found with
  | nil => simp
  | cons rule rest ih => simp only [List.foldl_cons, ih, mem_consider_verbs, List.mem_cons, exists_eq_or_imp, or_assoc]

/-- The reported verbs are those of the rules whose template matches. -/
theorem mem_lookup_verbs (table : RouteTable) (method query : String) {path : String}
    (hroot : isRoot path = false) (verb : String) :
    verb ∈ (table.lookup method path query).allowedVerbs ↔
      ∃ rule ∈ table.rules, (rule.template.match? path query).isSome ∧ verb = rule.verb := by
  rw [lookup, hroot, if_neg (by simp), mem_foldl_consider_verbs]
  simp

theorem consider_verbs_eq (method method' path query : String) {found found' : RouteLookup} (rule : Rule)
    (hverbs : found.allowedVerbs = found'.allowedVerbs) :
    (consider method path query found rule).allowedVerbs =
      (consider method' path query found' rule).allowedVerbs := by
  unfold consider
  cases rule.template.match? path query with
  | none => exact hverbs
  | some captures => simp [hverbs]

/-- The reported verbs do not depend on the method that is looked up. -/
theorem lookup_verbs_eq (table : RouteTable) (method method' path query : String) :
    (table.lookup method path query).allowedVerbs = (table.lookup method' path query).allowedVerbs := by
  have hfold : ∀ (rules : List Rule) (found found' : RouteLookup), found.allowedVerbs = found'.allowedVerbs →
      (rules.foldl (consider method path query) found).allowedVerbs =
        (rules.foldl (consider method' path query) found').allowedVerbs := by
    intro rules
    induction rules with
    | nil => exact fun _ _ hverbs => hverbs
    | cons rule rest ih =>
      intro found found' hverbs
      exact ih _ _ (consider_verbs_eq method method' path query rule hverbs)
  unfold lookup
  split
  · rfl
  · exact hfold table.rules _ _ rfl

theorem lookup_verbs_eq_nil_iff (table : RouteTable) (method path query : String) :
    (table.lookup method path query).allowedVerbs = [] ↔
      isRoot path = true ∨ ∀ rule ∈ table.rules, rule.template.match? path query = none := by
  cases hroot : isRoot path with
  | true => simp [lookup_of_isRoot _ _ _ hroot]
  | false =>
    rw [List.eq_nil_iff_forall_not_mem]
    simp only [mem_lookup_verbs table method query hroot, Bool.false_eq_true, false_or]
    constructor
    · intro hnone rule hrule
      rw [← Option.not_isSome_iff_eq_none]
      exact fun hmatch => hnone rule.verb ⟨rule, hrule, hmatch, rfl⟩
    · rintro hnone verb ⟨rule, hrule, hmatch, -⟩
      rw [hnone rule hrule] at hmatch
      cases hmatch

/-! ## The selected rule and the reported verbs -/

/-- A rule is selected exactly if the method is reported, or if it is `OPTIONS` and some verb is reported. -/
def Linked (method : String) (found : RouteLookup) : Prop :=
  found.selected.isSome = true ↔
    method ∈ found.allowedVerbs ∨ method = "OPTIONS" ∧ found.allowedVerbs ≠ []

theorem consider_linked {method path query : String} {found : RouteLookup} (h : Linked method found) (rule : Rule) :
    Linked method (consider method path query found rule) := by
  unfold Linked at *
  rw [consider_selected_eq, Option.isSome_or, Bool.or_eq_true, h, mem_consider_verbs]
  cases hmatch : rule.template.match? path query with
  | none => simp [consider, candidate?, hmatch]
  | some captures =>
    -- The rule's verb is reported now, so that some verb is.
    have hsome : (consider method path query found rule).allowedVerbs ≠ [] := by
      intro hnil
      have hverb := (mem_consider_verbs method path query found rule rule.verb).mpr (.inr ⟨by rw [hmatch]; rfl, rfl⟩)
      rw [hnil] at hverb
      cases hverb
    by_cases hmethod : method = rule.verb ∨ method = "OPTIONS"
    · simp only [candidate?, hmethod, hmatch, if_true, Option.map_some, Option.isSome_some, or_true, true_iff, ne_eq,
        hsome, not_false_eq_true, and_true, true_and]
      rcases hmethod with hverb | hoptions
      · exact .inl (.inr hverb)
      · exact .inr hoptions
    · obtain ⟨hverb, hoptions⟩ := not_or.mp hmethod
      simp [candidate?, hverb, hoptions]

theorem lookup_linked (table : RouteTable) (method path query : String) :
    Linked method (table.lookup method path query) := by
  have hempty : Linked method ⟨none, []⟩ := by simp [Linked]
  unfold lookup
  split
  · exact hempty
  · exact List.foldlRecOn table.rules _ hempty fun found hlinked rule _ => consider_linked hlinked rule

end Gateway.RouteTable
