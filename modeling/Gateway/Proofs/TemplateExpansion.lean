import Gateway.Proofs.QueryExpansion

/-!
# Matching undoes expansion

A template is expanded by writing the component of a value in the place of each placeholder: in the path, and in the
query as pairs `key=component` in any order that keeps the values of one key in theirs.  The template matches its
expansions and captures the values that were written (`match?_expansion`), if the literal between two placeholders of
the path starts with a unit that no component has, and no two pairs of the query clause have the same key.
-/

namespace Gateway

/-! ## Grouping -/

/-- What a placeholder captures from the texts under its name: one text stands alone. -/
def Captured.ofTexts : List String → Captured
  | [text] => .one text
  | texts => .many texts

namespace Template

open Text.Percent (encodeComponent)

theorem addCapture_new {groups : List (String × List String)} {name : String} (h : name ∉ groups.map (·.1))
    (text : String) : addCapture groups name text = groups ++ [(name, [text])] := by
  rw [addCapture, if_neg]
  rw [List.any_eq_true]
  rintro ⟨g, hg, hname⟩
  exact h (List.mem_map.mpr ⟨g, hg, beq_iff_eq.mp hname⟩)

theorem addCapture_last {groups : List (String × List String)} {name : String} (h : name ∉ groups.map (·.1))
    (texts : List String) (text : String) :
    addCapture (groups ++ [(name, texts)]) name text = groups ++ [(name, texts ++ [text])] := by
  have hkept : groups.map (fun g => if g.1 == name then (g.1, g.2 ++ [text]) else g) = groups := by
    conv_rhs => rw [← List.map_id groups]
    apply List.map_congr_left
    intro g hg
    rw [if_neg]
    · rfl
    · intro hname
      exact h (List.mem_map.mpr ⟨g, hg, beq_iff_eq.mp hname⟩)
  rw [addCapture, if_pos (by simp), List.map_append, hkept]
  simp

/-- The texts of a new name become its group. -/
theorem foldl_addCapture_block {groups : List (String × List String)} {name : String} (h : name ∉ groups.map (·.1))
    {texts : List String} (htexts : texts ≠ []) :
    (texts.map fun text => (name, text)).foldl (fun groups c => addCapture groups c.1 c.2) groups =
      groups ++ [(name, texts)] := by
  have hlater : ∀ later first : List String,
      (later.map fun text => (name, text)).foldl (fun groups c => addCapture groups c.1 c.2)
        (groups ++ [(name, first)]) = groups ++ [(name, first ++ later)] := by
    intro later
    induction later with
    | nil => simp
    | cons text later ih =>
      intro first
      rw [List.map_cons, List.foldl_cons, addCapture_last h, ih, List.append_assoc, List.singleton_append]
  -- The first text opens the group, the later ones are added at its end.
  obtain ⟨text, later, rfl⟩ := List.exists_cons_of_ne_nil htexts
  rw [List.map_cons, List.foldl_cons, addCapture_new h, hlater, List.singleton_append]

theorem foldl_addCapture_blocks {blocks groups : List (String × List String)}
    (hnames : ((groups ++ blocks).map (·.1)).Nodup) (htexts : ∀ b ∈ blocks, b.2 ≠ []) :
    (blocks.flatMap fun b => b.2.map fun text => (b.1, text)).foldl (fun groups c => addCapture groups c.1 c.2)
      groups = groups ++ blocks := by
  induction blocks generalizing groups with
  | nil => simp
  | cons b blocks ih =>
    have hnew : b.1 ∉ groups.map (·.1) := by
      intro hmem
      rw [List.map_append, List.nodup_append] at hnames
      exact hnames.2.2 b.1 hmem b.1 (by simp) rfl
    rw [List.flatMap_cons, List.foldl_append, foldl_addCapture_block hnew (htexts b List.mem_cons_self), ih]
    · simp
    · simpa using hnames
    · intro other hother
      exact htexts other (List.mem_cons_of_mem b hother)

/-- Texts that come name by name are grouped as they come. -/
theorem groupCaptures_blocks {blocks : List (String × List String)} (hnames : (blocks.map (·.1)).Nodup)
    (htexts : ∀ b ∈ blocks, b.2 ≠ []) :
    groupCaptures (blocks.flatMap fun b => b.2.map fun text => (b.1, text)) =
      blocks.map fun b => (b.1, .ofTexts b.2) := by
  rw [groupCaptures, foldl_addCapture_blocks (by simpa using hnames) htexts, List.nil_append]
  apply List.map_congr_left
  rintro ⟨name, texts⟩ _
  rcases texts with _ | ⟨text, _ | ⟨next, texts⟩⟩ <;> rfl

/-! ## Expansions -/

/-- A template matches what it is expanded to, and captures the values that were written: the path is the text before
the question mark with the component of its value for each placeholder, the query has the pairs of the query clause
in any order that keeps the values of one key in theirs, and nothing else is captured. -/
theorem match?_expansion {text : String} {t : Template} (hcompile : compile text = .ok t)
    (hliterals : ∀ g ∈ t.path.gaps.dropLast, Separates g.2) (hkeys : (t.query.map (·.key)).Nodup)
    {inPath : String → String} (hpath : ∀ g ∈ t.path.gaps, inPath g.1 ≠ "")
    {inQuery : String → List String}
    (hquery : ∀ q ∈ t.query, inQuery q.name ≠ [] ∧ ∀ value ∈ inQuery q.name, value ≠ "")
    {pairs : List (String × String)}
    (hpairs : Interleaving (t.query.map fun q => (inQuery q.name).map fun value => (q.key, value)) pairs) :
    (t.path.fill fun name => "\x7b" ++ name ++ "\x7d").toList = (splitQuery text).1 ∧
    t.names.Nodup ∧
    t.match? (t.path.fill fun name => encodeComponent (inPath name)) (queryText pairs) =
      some ((t.path.gaps.map fun g => (normalizeName g.1, .one (inPath g.1))) ++
        t.query.map fun q => (normalizeName q.name, .ofTexts (inQuery q.name))) := by
  have hcompiled := compiled_of_compile hcompile
  refine ⟨hcompiled.toList_fill_braced, hcompiled.names_nodup, ?_⟩
  -- Path and query capture one block of texts for each placeholder.
  let blocks := (t.path.gaps.map fun g => (normalizeName g.1, [inPath g.1])) ++
    t.query.map fun q => (normalizeName q.name, inQuery q.name)
  have hblocks : (t.path.gaps.map fun g => (normalizeName g.1, inPath g.1)) ++
      (t.query.flatMap fun q => (inQuery q.name).map fun value => (normalizeName q.name, value)) =
        blocks.flatMap fun b => b.2.map fun text => (b.1, text) := by
    simp [blocks, List.flatMap_map, ← List.map_eq_flatMap]
  have hnames : (blocks.map (·.1)).Nodup := by
    simpa [blocks, names, Function.comp_def] using hcompiled.names_nodup
  have htexts : ∀ b ∈ blocks, b.2 ≠ [] := by
    intro b hb
    rcases List.mem_append.mp hb with hb | hb
    · obtain ⟨g, -, rfl⟩ := List.mem_map.mp hb
      exact List.cons_ne_nil _ _
    · obtain ⟨q, hq, rfl⟩ := List.mem_map.mp hb
      exact (hquery q hq).1
  rw [match?, matchPath_fill hliterals hpath, Option.bind_some,
    hcompiled.matchQuery_queryText hkeys hquery hpairs, Option.map_some, hblocks,
    groupCaptures_blocks hnames htexts, List.map_append, List.map_map, List.map_map]
  rfl

/-- A listing of entries under a name, with two placeholders in the path and a key that may be repeated. -/
def listingText : String :=
  "/lists/\x7blist-name\x7d/by/\x7bsort\x7d.json?q=\x7bquery\x7d&p=\x7bpage-no\x7d"

/-- The template of `listingText`. -/
def listing : Template :=
  ⟨listingText, ⟨"/lists/", [("list-name", "/by/"), ("sort", ".json")]⟩, [⟨"q", "query"⟩, ⟨"p", "page-no"⟩]⟩

theorem match?_expansion_listing :
    compile listingText = .ok listing ∧
    listing.match? "/lists/%C3%A9%2Fby%2F100%25/by/a.json.json" "q=x%2By&p=2&q=%26z%3B" =
      some [("list_name", .one "é/by/100%"), ("sort", .one "a.json"), ("query", .many ["x+y", "&z;"]),
        ("page_no", .one "2")] := by
  have hcompile : compile listingText = .ok listing := by decide +kernel
  let inPath (name : String) : String := if name = "sort" then "a.json" else "é/by/100%"
  let inQuery (name : String) : List String := if name = "query" then ["x+y", "&z;"] else ["2"]
  have hliterals : ∀ g ∈ listing.path.gaps.dropLast, Separates g.2 := by
    intro g hg
    obtain rfl : g = ("list-name", "/by/") := by simpa [listing] using hg
    exact separates_of_head (by decide : Text.Percent.isComponentChar '/' = false) rfl
  have hpairs : Interleaving (listing.query.map fun q => (inQuery q.name).map fun value => (q.key, value))
      [("q", "x+y"), ("p", "2"), ("q", "&z;")] :=
    .cons (.cons .nil (.left .nil)) (.left (.right (.left .nil)))
  have hmatch := (match?_expansion hcompile hliterals (by decide) (by decide : ∀ g ∈ listing.path.gaps, inPath g.1 ≠ "")
    (by decide : ∀ q ∈ listing.query, inQuery q.name ≠ [] ∧ ∀ value ∈ inQuery q.name, value ≠ "") hpairs).2.2
  have hpath : (listing.path.fill fun name => encodeComponent (inPath name)) =
      "/lists/%C3%A9%2Fby%2F100%25/by/a.json.json" := by
    decide +kernel
  have hquery : queryText [("q", "x+y"), ("p", "2"), ("q", "&z;")] = "q=x%2By&p=2&q=%26z%3B" := by
    decide +kernel
  rw [hpath, hquery] at hmatch
  exact ⟨hcompile, hmatch⟩

end Template

end Gateway
