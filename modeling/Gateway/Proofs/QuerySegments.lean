import Gateway.Proofs.MatchedPaths

/-!
# Matching a query segment by segment

A query is cut at its ampersands and semicolons.  The scan for a key takes the separator before the key, the key with
its equals sign and the value, and goes on behind the value.  A value goes up to the next separator, so each match ends
where a segment ends and none hides another (`matchesFrom_segment`).  The scan finds the values of the segments that
begin with the key and an equals sign, each once and in order (`queryValues_eq`).  A query clause matches exactly if
every key has such a segment, and captures all their values (`matchQuery_segments`).
-/

namespace Gateway

namespace Template

/-! ## Segments -/

/-- A unit that ends a segment of a query: an ampersand or a semicolon. -/
def isSegmentEnd (u : UInt16) : Bool :=
  decide (u = 0x26 ∨ u = 0x3B)

/-- What stands between the separators of a query. -/
def segments (query : List UInt16) : List (List UInt16) :=
  query.splitOnP isSegmentEnd

/-- The value that a segment has for a key: what follows the key and an equals sign, unless nothing does. -/
def segmentValue? (key : String) (segment : List UInt16) : Option (List UInt16) :=
  ((Text.units key ++ [0x3D]).isPrefixOf? segment).filter fun value => !value.isEmpty

/-- The values that the segments of a query have for a key, in order. -/
def segmentValues (key : String) (query : List UInt16) : List (List UInt16) :=
  (segments query).filterMap (segmentValue? key)

theorem segmentValue?_eq_some_iff (key : String) (segment value : List UInt16) :
    segmentValue? key segment = some value ↔ segment = Text.units key ++ 0x3D :: value ∧ value ≠ [] := by
  rw [segmentValue?, Option.filter_eq_some_iff, List.isPrefixOf?_eq_some_iff_append_eq, List.append_assoc,
    List.singleton_append, eq_comm, Bool.not_eq_true', List.isEmpty_eq_false_iff]

theorem segmentValues_ne_nil_iff (key : String) (query : List UInt16) :
    segmentValues key query ≠ [] ↔ ∃ value ≠ [], Text.units key ++ 0x3D :: value ∈ segments query := by
  constructor
  · intro hvalues
    obtain ⟨value, hvalue⟩ := List.exists_mem_of_ne_nil _ hvalues
    obtain ⟨segment, hsegment, hfound⟩ := List.mem_filterMap.mp hvalue
    obtain ⟨rfl, hne⟩ := (segmentValue?_eq_some_iff key segment value).mp hfound
    exact ⟨value, hne, hsegment⟩
  · rintro ⟨value, hne, hsegment⟩
    have hfound := (segmentValue?_eq_some_iff key _ value).mpr ⟨rfl, hne⟩
    exact List.ne_nil_of_mem (List.mem_filterMap.mpr ⟨_, hsegment, hfound⟩)

/-- A key has no separator. -/
theorem isSegmentEnd_of_isKey {key : String} (h : IsKey key) {u : UInt16} (hu : u ∈ Text.units key) :
    isSegmentEnd u = false := by
  obtain ⟨c, hc, hu⟩ := List.mem_flatMap.mp hu
  rw [isSegmentEnd, decide_eq_false_iff_not]
  rintro (rfl | rfl)
  · obtain rfl : '&' = c := Char.toNat_inj.mp (Text.toNat_eq_of_mem_unitsOfChar hu (by decide))
    exact absurd (h _ hc) (by decide)
  · obtain rfl : ';' = c := Char.toNat_inj.mp (Text.toNat_eq_of_mem_unitsOfChar hu (by decide))
    exact absurd (h _ hc) (by decide)

/-- The first segment of a query. -/
def firstSegment (query : List UInt16) : List UInt16 :=
  query.takeWhile fun u => !isSegmentEnd u

/-- A key and its equals sign lie in one segment. -/
theorem firstSegment_append {key : String} (hkey : IsKey key) (rest : List UInt16) :
    firstSegment (Text.units key ++ [0x3D] ++ rest) = Text.units key ++ [0x3D] ++ firstSegment rest := by
  rw [firstSegment, List.takeWhile_append_of_pos]
  · rfl
  · intro u hu
    rcases List.mem_append.mp hu with hu | hu
    · rw [isSegmentEnd_of_isKey hkey hu]
      rfl
    · rw [List.mem_singleton.mp hu]
      decide

/-- The value of the first segment follows the key and is not empty. -/
theorem segmentValue?_firstSegment {key : String} (hkey : IsKey key) (query : List UInt16) :
    segmentValue? key (firstSegment query) =
      (Gaps.strip? (Text.units key ++ [0x3D]) query).bind fun rest =>
        if firstSegment rest = [] then none else some (firstSegment rest) := by
  ext value
  rw [segmentValue?_eq_some_iff, Option.bind_eq_some_iff]
  constructor
  · rintro ⟨hsegment, hne⟩
    have hquery := List.takeWhile_append_dropWhile (p := fun u => !isSegmentEnd u) (l := query)
    rw [show query.takeWhile _ = firstSegment query from rfl, hsegment, List.append_cons, List.append_assoc] at hquery
    refine ⟨_, (Gaps.strip?_eq_some_iff _ _ _).mpr hquery.symm, ?_⟩
    rw [← hquery, firstSegment_append hkey, List.append_assoc, List.singleton_append] at hsegment
    rw [(List.cons.inj (List.append_cancel_left hsegment)).2, if_neg hne]
  · rintro ⟨rest, hstrip, hvalue⟩
    rw [(Gaps.strip?_eq_some_iff _ _ _).mp hstrip, firstSegment_append hkey]
    split at hvalue
    · cases hvalue
    · rename_i hne
      obtain rfl := Option.some.inj hvalue
      exact ⟨List.append_assoc _ _ _, hne⟩

/-! ## One match -/

/-- The expression of a key and its value, behind the separator. -/
def valueItems (key : String) : List Regex :=
  Regex.literal (Text.units key ++ [0x3D]) ++ [.group 1 (Regex.sequence [.many Regex.valueUnits true])]

/-- The expression that finds a key. -/
def keyRegex (key : String) : Regex :=
  Regex.sequence (.either (Regex.sequence [.start]) (Regex.sequence [.one Regex.separators]) :: valueItems key)

theorem has_separators (u : UInt16) : Regex.separators.has u = isSegmentEnd u := by
  simp [UnitSet.has, Regex.separators, isSegmentEnd]

theorem has_valueUnits (u : UInt16) : Regex.valueUnits.has u = !isSegmentEnd u := by
  simp [UnitSet.has, Regex.valueUnits, isSegmentEnd]

/-- A value goes up to the end of its segment. -/
theorem run_value (c : Regex.Cursor) :
    (Regex.sequence [.group 1 (Regex.sequence [.many Regex.valueUnits true])]).run some c =
      if firstSegment c.rest = [] then none
      else some ((c.past (firstSegment c.rest).length (c.rest.drop (firstSegment c.rest).length)).capture 1 c) := by
  have hunits : Regex.valueUnits.has = fun u => !isSegmentEnd u := funext has_valueUnits
  show (Regex.many Regex.valueUnits true).run (fun after => some (after.capture 1 c)) c = _
  rw [Regex.run_greedy, hunits, ← firstSegment]
  cases hlength : (firstSegment c.rest).length with
  | zero =>
    rw [if_pos (List.length_eq_zero_iff.mp hlength)]
    rfl
  | succ n =>
    have hne : firstSegment c.rest ≠ [] := by
      rw [← List.length_pos_iff, hlength]
      omega
    rw [if_neg hne, List.range_succ, List.reverse_append]
    rfl

/-- The key is found at a place exactly if the segment that starts there has a value for it. -/
theorem run_valueItems {key : String} (hkey : IsKey key) (c : Regex.Cursor) :
    (segmentValue? key (firstSegment c.rest) = none → (Regex.sequence (valueItems key)).run some c = none) ∧
      ∀ value, segmentValue? key (firstSegment c.rest) = some value →
        ∃ found, (Regex.sequence (valueItems key)).run some c = some found ∧
          found.index = c.index + (firstSegment c.rest).length ∧ found.texts = (1, value) :: c.texts := by
  rw [segmentValue?_firstSegment hkey, valueItems, Regex.run_literal]
  cases hstrip : Gaps.strip? (Text.units key ++ [0x3D]) c.rest with
  | none => exact ⟨fun _ => rfl, fun value h => by cases h⟩
  | some rest =>
    simp only [Option.bind_some, run_value]
    have hrest : c.rest = Text.units key ++ [0x3D] ++ rest := (Gaps.strip?_eq_some_iff _ _ _).mp hstrip
    by_cases hempty : firstSegment rest = []
    · simp [Regex.Cursor.past, hempty]
    · have hlength : (firstSegment c.rest).length = (Text.units key ++ [0x3D]).length + (firstSegment rest).length := by
        rw [hrest, firstSegment_append hkey, List.length_append]
      have hvalue : rest.take (firstSegment rest).length = firstSegment rest :=
        List.prefix_iff_eq_take.mp (List.takeWhile_prefix _) |>.symm
      rw [if_neg hempty]
      constructor
      · intro h
        cases h
      · intro value hsome
        obtain rfl := Option.some.inj hsome
        refine ⟨_, if_neg hempty, ?_, ?_⟩
        · rw [hlength, ← Nat.add_assoc]
          rfl
        · simp [Regex.Cursor.texts, Regex.Cursor.capture, Regex.Cursor.past, Regex.Span.units, hvalue]

/-- The expression that finds a key is tried at the start of a query first, and then behind a separator. -/
theorem run_keyRegex (key : String) (c : Regex.Cursor) :
    (keyRegex key).run some c =
      (if c.index = 0 then (Regex.sequence (valueItems key)).run some c else none).or
        (c.rest.head?.bind fun u =>
          if isSegmentEnd u then (Regex.sequence (valueItems key)).run some (c.advance c.rest.tail) else none) := by
  change (Regex.either (Regex.sequence [.start]) (Regex.sequence [.one Regex.separators])).run
    ((Regex.sequence (valueItems key)).run some) c = _
  rw [Regex.run_either]
  congr 1
  change (Regex.one Regex.separators).run ((Regex.sequence (valueItems key)).run some) c = _
  rw [Regex.run_one]
  simp only [has_separators]

/-! ## The scan -/

theorem isSegmentEnd_of_mem_firstSegment {query : List UInt16} {u : UInt16} (h : u ∈ firstSegment query) :
    isSegmentEnd u = false := by
  have hall := List.all_eq_true.mp (List.all_takeWhile (p := fun u => !isSegmentEnd u) (l := query)) u h
  simpa using hall

/-- What follows the first segment is nothing, or a separator and the other segments. -/
theorem query_cases (query : List UInt16) :
    (query = firstSegment query ∧ segments query = [firstSegment query]) ∨
      ∃ u rest, isSegmentEnd u = true ∧ query = firstSegment query ++ u :: rest ∧
        segments query = firstSegment query :: segments rest := by
  have hquery := List.takeWhile_append_dropWhile (p := fun u => !isSegmentEnd u) (l := query)
  have hends : ∀ u ∈ firstSegment query, isSegmentEnd u = false := fun _ => isSegmentEnd_of_mem_firstSegment
  cases hrest : query.dropWhile fun u => !isSegmentEnd u with
  | nil =>
    rw [hrest, List.append_nil] at hquery
    refine .inl ⟨hquery.symm, ?_⟩
    conv_lhs => rw [← hquery]
    exact List.splitOnP_eq_singleton hends
  | cons u rest =>
    have hu : isSegmentEnd u = true := by
      have hhead := List.head?_dropWhile_not (fun u => !isSegmentEnd u) query
      rw [hrest] at hhead
      simpa using hhead
    rw [hrest] at hquery
    refine .inr ⟨u, rest, hu, hquery.symm, ?_⟩
    conv_lhs => rw [← hquery]
    exact List.splitOnP_append_cons_of_forall_mem hends u hu rest

theorem segmentValue?_nil (key : String) : segmentValue? key [] = none := by
  rw [Option.eq_none_iff_forall_ne_some]
  intro value h
  have hsegment := ((segmentValue?_eq_some_iff key [] value).mp h).1
  simp at hsegment

variable {key : String}

/-- Inside a segment no match starts, so the scan goes on at its end. -/
theorem matchesFrom_segment {segment : List UInt16} (hends : ∀ u ∈ segment, isSegmentEnd u = false) {skipped : Nat}
    (hskipped : skipped ≤ segment.length) (index : Nat) (rest : List UInt16) :
    (keyRegex key).matchesFrom skipped (index + 1) (segment ++ rest) =
      (keyRegex key).matchesFrom 0 (index + 1 + segment.length) rest := by
  induction segment generalizing skipped index with
  | nil =>
    obtain rfl := Nat.le_zero.mp hskipped
    rfl
  | cons u segment ih =>
    obtain ⟨hu, hends⟩ := List.forall_mem_cons.mp hends
    have hlength : index + 1 + (u :: segment).length = index + 1 + 1 + segment.length := by
      rw [List.length_cons]
      omega
    rw [hlength]
    cases skipped with
    | succ skipped => exact ih hends (Nat.le_of_succ_le_succ hskipped) (index + 1)
    | zero =>
      have hnone : (keyRegex key).matchAt (index + 1) (u :: (segment ++ rest)) = none := by
        rw [Regex.matchAt, run_keyRegex]
        simp [hu]
      rw [List.cons_append, Regex.matchesFrom]
      simp only [hnone]
      exact ih hends (Nat.zero_le _) (index + 1)

/-- The values that the scan finds from a place on. -/
def scanFrom (key : String) (index : Nat) (query : List UInt16) : List (List UInt16) :=
  ((keyRegex key).matchesFrom 0 index query).filterMap fun found => found.group? 1

theorem scanFrom_nil (hkey : IsKey key) (index : Nat) : scanFrom key index [] = [] := by
  have hnone : (keyRegex key).matchAt index [] = none := by
    have hvalue := (run_valueItems hkey ⟨index, [], []⟩).1 (segmentValue?_nil key)
    rw [Regex.matchAt, run_keyRegex, hvalue]
    simp
  rw [scanFrom, Regex.matchesFrom, if_pos rfl, hnone]
  rfl

/-- If a match takes one unit and the segment behind it, the scan has its value and goes on behind the segment; if
there is none, it goes on there as well. -/
theorem scanFrom_cons {index : Nat} {u : UInt16} {segment rest : List UInt16}
    (hends : ∀ u ∈ segment, isSegmentEnd u = false) {found : Option (List UInt16)}
    (hnone : found = none → (keyRegex key).matchAt index (u :: (segment ++ rest)) = none)
    (hsome : ∀ value, found = some value → ∃ m, (keyRegex key).matchAt index (u :: (segment ++ rest)) = some m ∧
      m.length = segment.length + 1 ∧ m.group? 1 = some value) :
    scanFrom key index (u :: (segment ++ rest)) =
      found.toList ++ scanFrom key (index + 1 + segment.length) rest := by
  have hscan : ∀ skipped ≤ segment.length, (keyRegex key).matchesFrom skipped (index + 1) (segment ++ rest) =
      (keyRegex key).matchesFrom 0 (index + 1 + segment.length) rest :=
    fun _ hskipped => matchesFrom_segment hends hskipped index rest
  rw [scanFrom, Regex.matchesFrom]
  cases found with
  | none =>
    simp only [hnone rfl, hscan 0 (Nat.zero_le _)]
    rfl
  | some value =>
    obtain ⟨m, hm, hlength, hgroup⟩ := hsome value rfl
    simp only [hm, hlength, Nat.add_sub_cancel, hscan _ (Nat.le_refl _), List.filterMap_cons, hgroup]
    rfl

/-- Behind a separator the scan has the value of the segment that starts there. -/
theorem scanFrom_separator (hkey : IsKey key) {u : UInt16} (hu : isSegmentEnd u = true) (index : Nat)
    {segment query rest : List UInt16} (hsegment : segment = firstSegment query) (hquery : query = segment ++ rest) :
    scanFrom key index (u :: query) =
      (segmentValue? key segment).toList ++ scanFrom key (index + 1 + segment.length) rest := by
  have hends : ∀ u ∈ segment, isSegmentEnd u = false := by
    rw [hsegment]
    exact fun _ => isSegmentEnd_of_mem_firstSegment
  have hstart : (if index = 0 then (Regex.sequence (valueItems key)).run some ⟨index, u :: query, []⟩ else none) =
      none := by
    have hempty : firstSegment (u :: query) = [] := List.takeWhile_cons_of_neg (by simp [hu])
    rw [(run_valueItems hkey ⟨index, u :: query, []⟩).1 (by rw [hempty, segmentValue?_nil]), ite_self]
  have hmatch : (keyRegex key).matchAt index (u :: query) =
      ((Regex.sequence (valueItems key)).run some ⟨index + 1, query, []⟩).map fun found =>
        ⟨found.index - index, found.captured⟩ := by
    rw [Regex.matchAt, run_keyRegex, hstart, Option.none_or]
    simp only [List.head?_cons, Option.bind_some, hu, if_true]
    rfl
  obtain ⟨hnone, hsome⟩ := run_valueItems hkey ⟨index + 1, query, []⟩
  rw [← hsegment] at hnone hsome
  rw [hquery] at hmatch ⊢
  refine scanFrom_cons hends ?_ ?_
  · intro h
    rw [hmatch, ← hquery, hnone h]
    rfl
  · intro value h
    obtain ⟨found, hfound, hindex, htexts⟩ := hsome value h
    rw [hmatch, ← hquery, hfound]
    refine ⟨_, rfl, ?_, ?_⟩
    · show found.index - index = segment.length + 1
      rw [hindex]
      dsimp only
      omega
    · rw [group?_eq_lookup]
      show found.texts.lookup 1 = _
      rw [htexts]
      rfl

/-- At the start of a query the scan has the value of the first segment. -/
theorem scanFrom_start (hkey : IsKey key) {segment query rest : List UInt16} (hsegment : segment = firstSegment query)
    (hquery : query = segment ++ rest) :
    scanFrom key 0 query = (segmentValue? key segment).toList ++ scanFrom key segment.length rest := by
  cases segment with
  | nil =>
    rw [segmentValue?_nil, hquery]
    rfl
  | cons u segment =>
    have hends : ∀ v ∈ u :: segment, isSegmentEnd v = false := by
      rw [hsegment]
      exact fun _ => isSegmentEnd_of_mem_firstSegment
    obtain ⟨hu, hends⟩ := List.forall_mem_cons.mp hends
    have hmatch : (keyRegex key).matchAt 0 query =
        ((Regex.sequence (valueItems key)).run some ⟨0, query, []⟩).map fun found =>
          ⟨found.index, found.captured⟩ := by
      rw [Regex.matchAt, run_keyRegex, if_pos rfl]
      simp [hquery, hu]
    obtain ⟨hnone, hsome⟩ := run_valueItems hkey ⟨0, query, []⟩
    rw [← hsegment] at hnone hsome
    have hscan : scanFrom key 0 (u :: (segment ++ rest)) =
        (segmentValue? key (u :: segment)).toList ++ scanFrom key (0 + 1 + segment.length) rest := by
      rw [List.cons_append] at hquery
      rw [hquery] at hmatch
      refine scanFrom_cons hends ?_ ?_
      · intro h
        rw [hmatch, ← hquery, hnone h]
        rfl
      · intro value h
        obtain ⟨found, hfound, hindex, htexts⟩ := hsome value h
        rw [hmatch, ← hquery, hfound]
        refine ⟨_, rfl, ?_, ?_⟩
        · show found.index = segment.length + 1
          rw [hindex, List.length_cons, Nat.zero_add]
        · rw [group?_eq_lookup]
          show found.texts.lookup 1 = _
          rw [htexts]
          rfl
    rw [hquery, List.cons_append, hscan, List.length_cons, Nat.zero_add, Nat.add_comm]

/-- Behind a separator the scan has the values of all further segments, in order. -/
theorem scanFrom_segments (hkey : IsKey key) {u : UInt16} (hu : isSegmentEnd u = true) (index : Nat)
    (query : List UInt16) : scanFrom key index (u :: query) = segmentValues key query := by
  rcases query_cases query with ⟨hquery, hsegments⟩ | ⟨v, rest, hv, hquery, hsegments⟩
  · rw [scanFrom_separator hkey hu index rfl (hquery.trans (List.append_nil _).symm), scanFrom_nil hkey, segmentValues,
      hsegments, List.filterMap_cons]
    cases segmentValue? key (firstSegment query) <;> rfl
  · have hshorter : rest.length < query.length := by
      have hlength := congrArg List.length hquery
      rw [List.length_append, List.length_cons] at hlength
      omega
    rw [scanFrom_separator hkey hu index rfl hquery, scanFrom_segments hkey hv _ rest, segmentValues, segmentValues,
      hsegments, List.filterMap_cons]
    cases segmentValue? key (firstSegment query) <;> rfl
termination_by query.length

/-- The values of a key are those that the segments of the query have for it, in order. -/
theorem queryValues_eq (hkey : IsKey key) (query : List UInt16) : queryValues key query = segmentValues key query := by
  have hread : Regex.read? (keySource key) = some (keyRegex key) := Regex.read?_keySource key
  have hscan : queryValues key query = scanFrom key 0 query := by
    rw [queryValues, hread]
    rfl
  rw [hscan]
  rcases query_cases query with ⟨hquery, hsegments⟩ | ⟨u, rest, hu, hquery, hsegments⟩
  · rw [scanFrom_start hkey rfl (hquery.trans (List.append_nil _).symm), scanFrom_nil hkey, segmentValues, hsegments,
      List.filterMap_cons]
    cases segmentValue? key (firstSegment query) <;> rfl
  · rw [scanFrom_start hkey rfl hquery, scanFrom_segments hkey hu, segmentValues, segmentValues, hsegments,
      List.filterMap_cons]
    cases segmentValue? key (firstSegment query) <;> rfl

/-! ## The query clause -/

/-- The values of a query clause: pair by pair, those that the segments have for its key. -/
def clauseValues (pairs : List QueryPair) (query : List UInt16) : List (QueryPair × List UInt16) :=
  pairs.flatMap fun q => (segmentValues q.key query).map fun value => (q, value)

theorem capturePairs_eq (query : List UInt16) {pairs : List QueryPair} (hkeys : ∀ q ∈ pairs, IsKey q.key) :
    ((capturePairs query pairs).isSome ↔ ∀ q ∈ pairs, segmentValues q.key query ≠ []) ∧
      ∀ captures, capturePairs query pairs = some captures →
        captures = (clauseValues pairs query).map fun v => (normalizeName v.1.name, decodeQueryValue v.2) := by
  induction pairs with
  | nil => simp [capturePairs, clauseValues]
  | cons q pairs ih =>
    obtain ⟨hkey, hkeys⟩ := List.forall_mem_cons.mp hkeys
    obtain ⟨hsome, hcaptures⟩ := ih hkeys
    rw [capturePairs, queryValues_eq hkey, List.forall_mem_cons]
    cases hvalues : segmentValues q.key query with
    | nil => simp
    | cons value values =>
      simp only
      rw [Option.isSome_map, hsome]
      refine ⟨by simp, ?_⟩
      intro captures h
      obtain ⟨others, hothers, rfl⟩ := Option.map_eq_some_iff.mp h
      have hcons : clauseValues (q :: pairs) query =
          ((value :: values).map fun value => (q, value)) ++ clauseValues pairs query := by
        rw [clauseValues, List.flatMap_cons, hvalues]
        rfl
      rw [hcaptures others hothers, hcons, List.map_append, List.map_map]
      rfl

/-- A value with every plus sign read as a space. -/
def plusesRead (value : List UInt16) : List UInt16 :=
  value.map fun u => if u = 0x2B then 0x20 else u

/-- The query clause of an accepted template is a list of pairs of a key and a placeholder.  A query matches exactly if
each of the keys, with an equals sign and a value, is a segment of it; captured are, pair by pair and segment by
segment, the values of the segments that begin with the key, with plus signs read as spaces and percent-decoded if that
is possible. -/
theorem matchQuery_segments {text : String} {t : Template} (hcompile : compile text = .ok t) (query : List UInt16) :
    List.Forall₂ Spells t.query (queryPieces text) ∧
    ((t.captureQuery query).isSome ↔
      ∀ q ∈ t.query, ∃ value ≠ [], Text.units q.key ++ 0x3D :: value ∈ segments query) ∧
    ∀ captures, t.captureQuery query = some captures →
      List.Forall₂ (fun v c => ComparedAs v.1.name c.1 ∧ Text.Percent.Decodes (plusesRead v.2) c.2)
        (clauseValues t.query query) captures := by
  have hcompiled := compiled_of_compile hcompile
  obtain ⟨hsome, hcaptures⟩ := capturePairs_eq query fun q hq => hcompiled.isKey_key hq
  simp only [segmentValues_ne_nil_iff] at hsome
  refine ⟨hcompiled.spells, hsome, ?_⟩
  intro captures h
  rw [hcaptures captures h, List.forall₂_map_right_iff, List.forall₂_same]
  intro v _
  exact ⟨(comparedAs_iff _ _).mpr rfl, (Text.Percent.decodeOrKeep_eq_iff _ _).mp rfl⟩

/-- A search with two keys, one of which begins the other's value or a longer key in some queries. -/
def searchText : String :=
  "/search?tag=\x7btag\x7d&&q=\x7bq-text\x7d"

/-- The template of `searchText`. -/
def search : Template :=
  ⟨searchText, ⟨"/search", []⟩, [⟨"tag", "tag"⟩, ⟨"q", "q-text"⟩]⟩

theorem matchQuery_segments_search :
    compile searchText = .ok search ∧
      search.captureQuery (Text.units "tag=&tag=b;;a=tag=c&q=x%2By+z&tag=%E0+&qq=1") =
        some [("tag", Text.units "b"), ("tag", Text.units "%E0 "), ("q_text", Text.units "x+y z")] ∧
      List.Forall₂ (fun v c => ComparedAs v.1.name c.1 ∧ Text.Percent.Decodes (plusesRead v.2) c.2)
        (clauseValues search.query (Text.units "tag=&tag=b;;a=tag=c&q=x%2By+z&tag=%E0+&qq=1"))
        [("tag", Text.units "b"), ("tag", Text.units "%E0 "), ("q_text", Text.units "x+y z")] := by
  have hcompile : compile searchText = .ok search := by decide +kernel
  have hmatch : search.captureQuery (Text.units "tag=&tag=b;;a=tag=c&q=x%2By+z&tag=%E0+&qq=1") =
      some [("tag", Text.units "b"), ("tag", Text.units "%E0 "), ("q_text", Text.units "x+y z")] := by
    decide +kernel
  exact ⟨hcompile, hmatch, (matchQuery_segments hcompile _).2.2 _ hmatch⟩

end Template

end Gateway
