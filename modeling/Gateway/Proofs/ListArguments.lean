import Gateway.Proofs.ArgumentSources
import Gateway.Proofs.QuerySegments
import Gateway.Proofs.TemplateCaptures
import Gateway.Proofs.TemplateExpansion

/-!
# A list parameter takes all values of a query key

What a match captures comes name by name: one text for each placeholder of the path, and for each pair of the query
clause the texts of the segments with its key (`match?_eq_blocks`).  One text stands alone and several stand in a
list, but a parameter that is a list of texts is bound to the list of them in both cases (`bindUri_texts`).  It takes
the texts as they are, so none is read as JSON (`bindParameter_queryTexts`).
-/

namespace Gateway

/-! ## What a match captures -/

namespace Template

/-- The texts that the segments of a query have for a key, decoded, in order. -/
def queryTexts (key query : String) : List String :=
  (segmentValues key (Text.units query)).map fun value => Text.ofUnits (decodeQueryValue value)

/-- A query that matches has a text for every key, and what is captured is the texts of the pairs, one after the
other. -/
theorem matchQuery_eq {text : String} {t : Template} (hcompile : compile text = .ok t) {query : String}
    {captures : List (String × String)} (h : t.matchQuery query = some captures) :
    (∀ q ∈ t.query, queryTexts q.key query ≠ []) ∧
      captures = t.query.flatMap fun q => (queryTexts q.key query).map fun text => (normalizeName q.name, text) := by
  have hcompiled := compiled_of_compile hcompile
  obtain ⟨captured, hcaptured, rfl⟩ := Option.map_eq_some_iff.mp h
  obtain ⟨hsome, hvalues⟩ := capturePairs_eq (Text.units query) fun q hq => hcompiled.isKey_key hq
  constructor
  · intro q hq
    rw [queryTexts, Ne, List.map_eq_nil_iff]
    exact hsome.mp (Option.isSome_of_eq_some hcaptured) q hq
  · rw [hvalues captured hcaptured, captureTexts, clauseValues, List.map_map, List.map_flatMap]
    simp [queryTexts, Function.comp_def]

/-- A match captures the text of each placeholder of the path, and then the texts of each pair of the query clause. -/
theorem match?_eq_blocks {text : String} {t : Template} (hcompile : compile text = .ok t) {path query : String}
    {captures : Captures} (h : t.match? path query = some captures) :
    t.names.Nodup ∧ Entries.keys captures = t.names ∧
      ∃ inPath, t.matchPath path = some inPath ∧
        captures = (inPath.map fun c => (c.1, .one c.2)) ++
          t.query.map fun q => (normalizeName q.name, .ofTexts (queryTexts q.key query)) := by
  have hcompiled := compiled_of_compile hcompile
  obtain ⟨inPath, hpath, hrest⟩ := Option.bind_eq_some_iff.mp h
  obtain ⟨inQuery, hquery, rfl⟩ := Option.map_eq_some_iff.mp hrest
  obtain ⟨hne, hcaptured⟩ := matchQuery_eq hcompile hquery
  let blocks := (inPath.map fun c => (c.1, [c.2])) ++
    t.query.map fun q => (normalizeName q.name, queryTexts q.key query)
  have hblocks : inPath ++ inQuery = blocks.flatMap fun b => b.2.map fun text => (b.1, text) := by
    rw [hcaptured]
    simp [blocks, List.flatMap_map]
  have hnames : blocks.map (·.1) = t.names := by
    simp [blocks, names, Function.comp_def, ← names_of_matchPath t path hpath]
  have htexts : ∀ b ∈ blocks, b.2 ≠ [] := by
    intro b hb
    rcases List.mem_append.mp hb with hb | hb
    · obtain ⟨c, -, rfl⟩ := List.mem_map.mp hb
      exact List.cons_ne_nil _ _
    · obtain ⟨q, hq, rfl⟩ := List.mem_map.mp hb
      exact hne q hq
  have hgroups := groupCaptures_blocks (hnames ▸ hcompiled.names_nodup) htexts
  rw [← hblocks] at hgroups
  refine ⟨hcompiled.names_nodup, ?_, inPath, hpath, ?_⟩
  · rw [hgroups, Entries.keys, List.map_map, ← hnames]
    rfl
  · rw [hgroups, List.map_append, List.map_map, List.map_map]
    rfl

/-- A match captures under the name of a pair the texts of its key. -/
theorem get?_match? {text : String} {t : Template} (hcompile : compile text = .ok t) {path query : String}
    {captures : Captures} (h : t.match? path query = some captures) {q : QueryPair} (hq : q ∈ t.query) :
    Entries.get? captures (normalizeName q.name) = some (.ofTexts (queryTexts q.key query)) := by
  obtain ⟨hnodup, hkeys, inPath, -, hcaptures⟩ := match?_eq_blocks hcompile h
  refine Entries.get?_of_mem (hkeys ▸ hnodup) ?_
  rw [hcaptures]
  exact List.mem_append_right _ (List.mem_map_of_mem hq)

end Template

/-! ## From the capture to the argument -/

/-- Writing other keys leaves a key as it is, the reserved one as well. -/
theorem Entries.get?_assign_of_absent {α : Type} {es : Entries α} (h : (keys es).Nodup) {pairs : List (String × α)}
    {k : String} (hk : k ∉ keys pairs) : get? (assign es pairs) k = get? es k := by
  rw [assign, get?_arrange (nodup_keys_foldl_store pairs h)]
  clear h
  induction pairs generalizing es with
  | nil => rfl
  | cons pair rest ih =>
    rw [keys_cons, List.mem_cons, not_or] at hk
    rw [List.foldl_cons, ih hk.2, store]
    split
    · rfl
    · rw [get?_set, if_neg hk.1]

namespace Schema

theorem convertItems_texts (defs : Definitions) (follow : Follow) (texts : List String) :
    convertItems (convert defs follow .decode .string) (texts.map .string) = .accepted (texts.map .string) := by
  induction texts with
  | nil => rfl
  | cons text rest ih =>
    rw [List.map_cons, convertItems, ih]
    rfl

/-- A list of texts is read as it stands. -/
theorem decode_texts (defs : Definitions) (texts : List String) :
    decode defs (.array .string) (.array (texts.map .string)) = .accepted (.array (texts.map .string)) := by
  have hitems : decode defs (.array .string) (.array (texts.map .string)) =
      (convertItems (convert defs (followTo defs (followBound defs (.array (texts.map .string)))) .decode .string)
        (texts.map .string)).map fun tail => .array ([] ++ tail) := rfl
  rw [hitems, convertItems_texts]
  rfl

end Schema

namespace Binding

variable (defs : Definitions) (procedure : String)

/-- What the URI captured for a parameter is what it is bound from, if the body does not have the wire name as a
key. -/
theorem bindParameter_captured {parameters : List Parameter} {p : Parameter} (hp : p ∈ parameters)
    {captures : Captures} {captured : Captured}
    (hcaptured : Entries.get? captures (normalizeName p.wireName) = some captured) {body : Entries Value}
    (hbody : p.wireName ∉ Entries.keys body) :
    bindParameter defs procedure (Payload.merge (Payload.captured parameters captures) body) p =
      bindUri defs procedure p captured.value := by
  have hfound : Entries.get? (Payload.captured parameters captures) p.wireName = some captured := by
    rw [Payload.get?_captured, if_pos (List.mem_map_of_mem hp)]
    exact hcaptured
  have hvalue : Entries.get? (Payload.merge (Payload.captured parameters captures) body).values p.wireName =
      some captured.value := by
    have hkeys : Entries.keys ((Payload.captured parameters captures).map fun c => (c.1, c.2.value)) =
        Entries.keys (Payload.captured parameters captures) := by
      simp [Entries.keys]
    rw [Payload.merge, Entries.get?_assign_of_absent (Entries.nodup_keys_ofPairs _) hbody, Entries.get?_ofPairs,
      Entries.get?_reverse (hkeys ▸ Payload.nodup_keys_captured parameters captures), Entries.get?_map, hfound,
      Option.map_some]
  have huri : p.wireName ∈ (Payload.merge (Payload.captured parameters captures) body).fromUri := by
    rw [Payload.mem_fromUri_merge, ← Entries.get?_isSome_iff, hfound, Entries.get?_eq_none_iff]
    exact ⟨rfl, hbody⟩
  simp only [bindParameter, hvalue, List.contains_iff_mem, huri, if_true]

/-- A parameter that is a list of texts is bound to all captured texts, whether there is one or several. -/
theorem bindUri_texts {p : Parameter} (hschema : p.schema = .array .string) (texts : List String) :
    bindUri defs procedure p (Captured.ofTexts texts).value = .ok (.array (texts.map .string)) := by
  have hlist : p.isList defs = true := by
    rw [Parameter.isList, hschema]
    rfl
  -- The list of the texts is offered first, and it is accepted.
  have hoffers : ∃ further,
      (Source.uri (Captured.ofTexts texts)).offers defs p = .array (texts.map .string) :: further := by
    rcases texts with _ | ⟨text, _ | ⟨next, texts⟩⟩ <;> exact ⟨_, if_pos hlist⟩
  obtain ⟨further, hoffers⟩ := hoffers
  rw [bindUri_eq, hoffers, List.map_cons, Verdict.firstOf_cons, hschema, Schema.decode_texts]
  rfl

end Binding

/-- A parameter that is a list of texts, and has the name of a query placeholder, gets from each request that matches
the template the list of all texts that the query has for the placeholder's key, in their order, unless the body has
its wire name as a key. -/
theorem bindParameter_queryTexts {text : String} {t : Template} (hcompile : Template.compile text = .ok t)
    {pair : QueryPair} (hpair : pair ∈ t.query) {procedure : Procedure} {p : Parameter}
    (hp : p ∈ procedure.parameters) (hschema : p.schema = .array .string)
    (hname : normalizeName pair.name = normalizeName p.wireName) {path query : String} {captures : Captures}
    (hmatch : t.match? path query = some captures) {body : Entries Value} (hbody : p.wireName ∉ Entries.keys body)
    (defs : Definitions) :
    Binding.bindParameter defs procedure.wireName
        (Payload.merge (Payload.captured procedure.parameters captures) body) p =
      .ok (.array ((Template.queryTexts pair.key query).map .string)) ∧
    ∀ args, bindMerged defs procedure captures body = .ok args →
      ∃ pairs, args = Value.ofPairs pairs ∧ pairs.map (·.1) = procedure.parameters.map (·.name) ∧
        (p.name, .array ((Template.queryTexts pair.key query).map .string)) ∈ pairs := by
  have hcaptured := Template.get?_match? hcompile hmatch hpair
  rw [hname] at hcaptured
  have hbound := Binding.bindParameter_captured defs procedure.wireName hp hcaptured hbody
  rw [Binding.bindUri_texts defs procedure.wireName hschema] at hbound
  refine ⟨hbound, ?_⟩
  intro args hargs
  obtain ⟨pairs, hpairs, rfl⟩ := (bindArguments_eq_ok_iff _ _ _ _).mp hargs
  refine ⟨pairs, rfl, Binding.bindAll_keys _ _ _ hpairs, ?_⟩
  have hall := (Binding.bindAll_eq_ok_iff _ _ _ _ _).mp hpairs
  obtain ⟨⟨name, v⟩, hmem, rfl, hv⟩ := exists_of_forall₂_mem hall.flip hp
  rw [hbound] at hv
  rwa [Except.ok.inj hv]

/-- The parameter of `wordsProcedure` that is a list of texts. -/
def wordsParameter : Parameter :=
  ⟨"words", "q_text", .array .string⟩

/-- A procedure with a list of texts, which the template spells with a hyphen, and a number. -/
def wordsProcedure : Procedure :=
  ⟨"search", "search", none, [⟨"limit", "max", .number⟩, wordsParameter], .void, [], none⟩

theorem bindParameter_queryTexts_words :
    Template.compile Template.searchText = .ok Template.search ∧
      (∃ captures, Template.search.match? "/search" "q=1&tag=b;q=true&q=&qq=9&q=%5B1%5D+" = some captures ∧
        Binding.bindParameter [] "search"
            (Payload.merge (Payload.captured wordsProcedure.parameters captures) [("max", .number 5), ("words", .null)])
            wordsParameter =
          .ok (.array [.string "1", .string "true", .string "[1] "])) ∧
      ∃ captures, Template.search.match? "/search" "tag=b&q=null" = some captures ∧
        Binding.bindParameter [] "search"
            (Payload.merge (Payload.captured wordsProcedure.parameters captures) []) wordsParameter =
          .ok (.array [.string "null"]) := by
  have hcompile : Template.compile Template.searchText = .ok Template.search := by decide +kernel
  have hpair : (⟨"q", "q-text"⟩ : QueryPair) ∈ Template.search.query := by decide
  have hp : wordsParameter ∈ wordsProcedure.parameters := List.mem_cons_of_mem _ List.mem_cons_self
  have hname : normalizeName "q-text" = normalizeName wordsParameter.wireName := by decide
  refine ⟨hcompile, ?_, ?_⟩
  · obtain ⟨captures, hmatch⟩ := Option.isSome_iff_exists.mp
      (show (Template.search.match? "/search" "q=1&tag=b;q=true&q=&qq=9&q=%5B1%5D+").isSome by decide +kernel)
    have htexts : Template.queryTexts "q" "q=1&tag=b;q=true&q=&qq=9&q=%5B1%5D+" = ["1", "true", "[1] "] := by
      decide +kernel
    have hbody : wordsParameter.wireName ∉ Entries.keys [("max", Value.number 5), ("words", .null)] := by decide
    have hbound := bindParameter_queryTexts hcompile hpair hp rfl hname hmatch hbody []
    rw [htexts] at hbound
    exact ⟨captures, hmatch, hbound.1⟩
  · obtain ⟨captures, hmatch⟩ := Option.isSome_iff_exists.mp
      (show (Template.search.match? "/search" "tag=b&q=null").isSome by decide +kernel)
    have htexts : Template.queryTexts "q" "tag=b&q=null" = ["null"] := by decide +kernel
    have hbody : wordsParameter.wireName ∉ Entries.keys ([] : Entries Value) := List.not_mem_nil
    have hbound := bindParameter_queryTexts hcompile hpair hp rfl hname hmatch hbody []
    rw [htexts] at hbound
    exact ⟨captures, hmatch, hbound.1⟩

end Gateway
