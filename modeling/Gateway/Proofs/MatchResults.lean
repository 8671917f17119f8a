import Gateway.Proofs.ListArguments

/-!
# What the result of a match binds

A template matches exactly if its path and its query clause do.  The result has the names of the template as its keys,
in order: a placeholder of the path has one text, and a placeholder of the query clause has the texts of all segments
with its key, one that stands alone or a list of two or more (`match?_binds_names`).
-/

namespace Gateway

/-- Texts that are not none stand alone if there is one of them, and in a list if there are more. -/
theorem Captured.ofTexts_cases {texts : List String} (h : texts ≠ []) :
    (∃ only, texts = [only] ∧ ofTexts texts = .one only) ∨ (2 ≤ texts.length ∧ ofTexts texts = .many texts) := by
  rcases texts with _ | ⟨first, _ | ⟨second, further⟩⟩
  · exact absurd rfl h
  · exact .inl ⟨first, rfl, rfl⟩
  · refine .inr ⟨?_, rfl⟩
    rw [List.length_cons, List.length_cons]
    omega

namespace Template

theorem isSome_match?_iff (t : Template) (path query : String) :
    (t.match? path query).isSome ↔ (t.matchPath path).isSome ∧ (t.matchQuery query).isSome := by
  rw [match?]
  cases t.matchPath path with
  | none => simp
  | some inPath => simp

/-- An accepted template matches a path and a query exactly if its path matches the one and its query clause the other.
The keys of the result are then the names of the template, in order.  Every placeholder of the path has the one text
that it took.  A placeholder of the query clause has the text of the segment with its key if there is one of them, and
the list of their texts, in order, if there are two or more. -/
theorem match?_binds_names {text : String} {t : Template} (hcompile : compile text = .ok t) (path query : String) :
    ((t.match? path query).isSome ↔ (t.matchPath path).isSome ∧ (t.matchQuery query).isSome) ∧
      ∀ captures, t.match? path query = some captures →
        Entries.keys captures = t.names ∧
        (∃ inPath, t.matchPath path = some inPath ∧
          inPath.map (·.1) = (PathPattern.variables t.path).map normalizeName ∧
          ∀ c ∈ inPath, Entries.get? captures c.1 = some (.one c.2)) ∧
        ∀ q ∈ t.query,
          (∃ only, queryTexts q.key query = [only] ∧
            Entries.get? captures (normalizeName q.name) = some (.one only)) ∨
          (2 ≤ (queryTexts q.key query).length ∧
            Entries.get? captures (normalizeName q.name) = some (.many (queryTexts q.key query))) := by
  refine ⟨isSome_match?_iff t path query, ?_⟩
  intro captures hmatch
  obtain ⟨hnodup, hkeys, inPath, hpath, hcaptures⟩ := match?_eq_blocks hcompile hmatch
  have hsome := ((isSome_match?_iff t path query).mp (Option.isSome_of_eq_some hmatch)).2
  obtain ⟨inQuery, hquery⟩ := Option.isSome_iff_exists.mp hsome
  refine ⟨hkeys, ⟨inPath, hpath, ?_, ?_⟩, ?_⟩
  · rw [names_of_matchPath t path hpath, PathPattern.variables, List.map_map]
    rfl
  · intro c hc
    refine Entries.get?_of_mem (hkeys ▸ hnodup) ?_
    rw [hcaptures]
    exact List.mem_append_left _ (List.mem_map_of_mem hc)
  · intro q hq
    rw [get?_match? hcompile hmatch hq]
    rcases Captured.ofTexts_cases ((matchQuery_eq hcompile hquery).1 q hq) with ⟨only, htexts, hone⟩ | ⟨hlength, hmany⟩
    · exact .inl ⟨only, htexts, by rw [hone]⟩
    · exact .inr ⟨hlength, by rw [hmany]⟩

/-- A match of `listing` in which one key has a value twice, and the other once beside an empty one. -/
theorem match?_binds_names_listing :
    compile listingText = .ok listing ∧
      ∃ captures, listing.match? "/lists/a%2Fb/by/x.json" "q=1&p=;p=2&q=%26z;" = some captures ∧
        Entries.keys captures = ["list_name", "sort", "query", "page_no"] ∧
        Entries.get? captures "sort" = some (.one "x") ∧
        Entries.get? captures "page_no" = some (.one "2") ∧
        Entries.get? captures "query" = some (.many ["1", "&z"]) := by
  have hcompile : compile listingText = .ok listing := by decide +kernel
  have hpath : listing.matchPath "/lists/a%2Fb/by/x.json" = some [("list_name", "a/b"), ("sort", "x")] := by
    decide +kernel
  have hquery : (listing.matchQuery "q=1&p=;p=2&q=%26z;").isSome := by decide +kernel
  have hfirst : queryTexts "q" "q=1&p=;p=2&q=%26z;" = ["1", "&z"] := by decide +kernel
  have hsecond : queryTexts "p" "q=1&p=;p=2&q=%26z;" = ["2"] := by decide +kernel
  obtain ⟨hsome, hbinds⟩ := match?_binds_names hcompile "/lists/a%2Fb/by/x.json" "q=1&p=;p=2&q=%26z;"
  obtain ⟨captures, hmatch⟩ := Option.isSome_iff_exists.mp (hsome.mpr ⟨by rw [hpath]; rfl, hquery⟩)
  obtain ⟨hkeys, ⟨inPath, hinPath, -, hone⟩, htexts⟩ := hbinds captures hmatch
  rw [hpath] at hinPath
  cases hinPath
  refine ⟨hcompile, captures, hmatch, hkeys, hone ("sort", "x") (by decide), ?_, ?_⟩
  · rcases htexts ⟨"p", "page-no"⟩ (by decide) with ⟨only, honly, hcaptured⟩ | ⟨hlength, -⟩
    · rw [hsecond] at honly
      cases honly
      exact hcaptured
    · rw [hsecond] at hlength
      exact absurd hlength (by decide)
  · rcases htexts ⟨"q", "query"⟩ (by decide) with ⟨only, honly, -⟩ | ⟨-, hcaptured⟩
    · rw [hfirst] at honly
      cases honly
    · rw [hfirst] at hcaptured
      exact hcaptured

end Template

end Gateway
