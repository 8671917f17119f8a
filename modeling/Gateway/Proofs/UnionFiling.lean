import Gateway.Schema.Choice
import Gateway.Proofs.EntryKeys

/-!
# Where the members of a union are found again

A member that is filed under a literal of a field has that literal among its tags (`ofMembers_under`), and a value
finds the member exactly when it shows the literal (`mem_shown`).  So two values that show the same literals are
tried against the same members.
-/

namespace Gateway.Schema

namespace Filing

/-! ## Filing -/

theorem get?_tagged_add (filing : Filing) (field text f : String) (member : Nat) :
    Entries.get? (filing.add field text member).tagged f =
      if f = field then
        some (if text = Entries.reservedKey then filing.buckets field
          else Entries.set (filing.buckets field) text (filing.under field text ++ [member]))
      else Entries.get? filing.tagged f := by
  unfold add
  exact Entries.get?_set _ _ _ _

/-- Adding a member changes no other pair of a field and a text. -/
theorem mem_under_add {filing : Filing} {field text : String} {member i : Nat} {f t : String}
    (h : i ∈ (filing.add field text member).under f t) :
    i ∈ filing.under f t ∨ (i = member ∧ f = field ∧ t = text) := by
  unfold under buckets at h
  rw [get?_tagged_add] at h
  by_cases hf : f = field
  · subst hf
    rw [if_pos rfl, Option.getD_some] at h
    by_cases htext : text = Entries.reservedKey
    · rw [if_pos htext] at h
      exact .inl h
    · rw [if_neg htext, Entries.get?_set] at h
      by_cases ht : t = text
      · rw [if_pos ht, Option.getD_some] at h
        rcases List.mem_append.mp h with hold | hnew
        · exact .inl (ht ▸ hold)
        · exact .inr ⟨List.mem_singleton.mp hnew, rfl, ht⟩
      · rw [if_neg ht] at h
        exact .inl h
  · rw [if_neg hf] at h
    exact .inl h

theorem nodup_keys_add {filing : Filing} (h : (Entries.keys filing.tagged).Nodup) (field text : String)
    (member : Nat) : (Entries.keys (filing.add field text member).tagged).Nodup :=
  Entries.nodup_keys_set h _ _

theorem fileTagged_spec {filing next : Filing} {member : Nat} {tags : List (String × String)}
    (h : filing.fileTagged member tags = .ok next) (hnodup : (Entries.keys filing.tagged).Nodup) :
    (Entries.keys next.tagged).Nodup ∧ ∀ i f t, i ∈ next.under f t →
      i ∈ filing.under f t ∨ (i = member ∧ (f, t) ∈ tags) := by
  induction tags with
  | nil =>
    obtain rfl : filing = next := Except.ok.inj h
    exact ⟨hnodup, fun i f t hi => .inl hi⟩
  | cons tag rest ih =>
    obtain ⟨field, text⟩ := tag
    unfold fileTagged at h
    split at h
    · cases h
    · split at h
      · obtain rfl : filing.add field text member = next := Except.ok.inj h
        refine ⟨nodup_keys_add hnodup field text member, fun i f t hi => ?_⟩
        rcases mem_under_add hi with hold | ⟨hmember, rfl, rfl⟩
        · exact .inl hold
        · exact .inr ⟨hmember, List.mem_cons_self⟩
      · obtain ⟨hkeys, hunder⟩ := ih h
        refine ⟨hkeys, fun i f t hi => ?_⟩
        rcases hunder i f t hi with hold | ⟨hi, hmem⟩
        · exact .inl hold
        · exact .inr ⟨hi, List.mem_cons_of_mem _ hmem⟩

theorem file_spec {filing next : Filing} {member : Nat} {tags : List (String × String)}
    (h : filing.file member tags = .ok next) (hnodup : (Entries.keys filing.tagged).Nodup) :
    (Entries.keys next.tagged).Nodup ∧ ∀ i f t, i ∈ next.under f t →
      i ∈ filing.under f t ∨ (i = member ∧ (f, t) ∈ tags) := by
  unfold file at h
  split at h
  · obtain rfl := Except.ok.inj h
    exact ⟨hnodup, fun i f t hi => .inl hi⟩
  · exact fileTagged_spec h hnodup

/-- Only a member without tags comes to the untagged ones. -/
theorem untagged_fileTagged {filing next : Filing} {member : Nat} {tags : List (String × String)}
    (h : filing.fileTagged member tags = .ok next) : next.untagged = filing.untagged := by
  induction tags with
  | nil =>
    obtain rfl : filing = next := Except.ok.inj h
    rfl
  | cons tag rest ih =>
    obtain ⟨field, text⟩ := tag
    unfold fileTagged at h
    split at h
    · cases h
    · split at h
      · obtain rfl := Except.ok.inj h
        rfl
      · exact ih h

theorem fileAll_cons {defs : Definitions} {side : Side} {filing filed : Filing} {position : Nat} {s : Schema}
    {rest : List Schema} (h : filing.fileAll defs side position (s :: rest) = .ok filed) :
    ∃ ts next, tags defs side s = .ok ts ∧ filing.file position ts = .ok next ∧
      next.fileAll defs side (position + 1) rest = .ok filed := by
  unfold fileAll at h
  cases htags : tags defs side s with
  | error fault => simp [htags] at h
  | ok ts =>
    cases hfile : filing.file position ts with
    | error fault => simp [htags, hfile] at h
    | ok next => exact ⟨ts, next, rfl, hfile, by simpa [htags, hfile] using h⟩

theorem tags_of_fileAll {defs : Definitions} {side : Side} {members : List Schema} {filing filed : Filing}
    {position : Nat} (h : filing.fileAll defs side position members = .ok filed) {s : Schema} (hs : s ∈ members) :
    ∃ ts, tags defs side s = .ok ts := by
  induction members generalizing filing position with
  | nil => cases hs
  | cons first rest ih =>
    obtain ⟨ts, next, htags, -, hrest⟩ := fileAll_cons h
    rcases List.mem_cons.mp hs with rfl | hs
    · exact ⟨ts, htags⟩
    · exact ih hrest hs

/-- What is filed from a position on is filed under a tag of the member at its place. -/
theorem fileAll_spec {defs : Definitions} {side : Side} {members : List Schema} {filing next : Filing}
    {position : Nat} (h : fileAll defs side filing position members = .ok next)
    (hnodup : (Entries.keys filing.tagged).Nodup) :
    (Entries.keys next.tagged).Nodup ∧ ∀ i f t, i ∈ next.under f t →
      i ∈ filing.under f t ∨ ∃ j s ts, i = position + j ∧ members[j]? = some s ∧
        tags defs side s = .ok ts ∧ (f, t) ∈ ts := by
  -- By induction on the members that are left; `position` is that of the first of them.
  induction members generalizing filing position with
  | nil =>
    obtain rfl : filing = next := Except.ok.inj h
    exact ⟨hnodup, fun i f t hi => .inl hi⟩
  | cons s rest ih =>
    obtain ⟨ts, filed, htags, hfile, h⟩ := fileAll_cons h
    obtain ⟨hkeys, hfiled⟩ := file_spec hfile hnodup
    obtain ⟨hnext, hrest⟩ := ih h hkeys
    refine ⟨hnext, fun i f t hi => ?_⟩
    rcases hrest i f t hi with hunder | ⟨j, s', ts', hj, hs', hts', hmem⟩
    · rcases hfiled i f t hunder with hold | ⟨hi, hmem⟩
      · exact .inl hold
      · exact .inr ⟨0, s, ts, hi, rfl, htags, hmem⟩
    · exact .inr ⟨j + 1, s', ts', by omega, hs', hts', hmem⟩

/-- A member is filed under one of its own tags. -/
theorem ofMembers_under {defs : Definitions} {side : Side} {members : List Schema} {filing : Filing}
    (h : ofMembers defs side members = .ok filing) {i : Nat} {field text : String}
    (hi : i ∈ filing.under field text) :
    ∃ s ts, members[i]? = some s ∧ tags defs side s = .ok ts ∧ (field, text) ∈ ts := by
  obtain ⟨-, hall⟩ := fileAll_spec h (by simp)
  rcases hall i field text hi with hnone | ⟨j, s, ts, hj, hs, hts, hmem⟩
  · cases hnone
  · obtain rfl : i = j := by omega
    exact ⟨s, ts, hs, hts, hmem⟩

theorem ofMembers_nodup {defs : Definitions} {side : Side} {members : List Schema} {filing : Filing}
    (h : ofMembers defs side members = .ok filing) : (Entries.keys filing.tagged).Nodup :=
  (fileAll_spec h (by simp)).1

/-! ## Finding -/

/-- A member is shown when the value holds a field whose text the member is filed under. -/
theorem mem_shown {v : Value} {tagged : Entries (Entries (List Nat))} {positions : List Nat}
    (h : shown v tagged = .ok positions) (i : Nat) :
    i ∈ positions ↔ ∃ field buckets x text, (field, buckets) ∈ tagged ∧ v.own? field = some x ∧
      x.display = .ok text ∧ i ∈ (Entries.get? buckets text).getD [] := by
  induction tagged generalizing positions with
  | nil =>
    obtain rfl : [] = positions := Except.ok.inj h
    simp
  | cons entry rest ih =>
    obtain ⟨field, buckets⟩ := entry
    unfold shown at h
    cases hown : v.own? field with
    | none =>
      rw [hown] at h
      rw [ih h]
      constructor
      · rintro ⟨f, bs, x, t, hmem, hrest⟩
        exact ⟨f, bs, x, t, List.mem_cons_of_mem _ hmem, hrest⟩
      · rintro ⟨f, bs, x, t, hmem, hx, hrest⟩
        rcases List.mem_cons.mp hmem with hsame | hmem
        · obtain ⟨rfl, rfl⟩ := Prod.mk.inj hsame
          rw [hown] at hx
          cases hx
        · exact ⟨f, bs, x, t, hmem, hx, hrest⟩
    | some x =>
      cases hdisplay : x.display with
      | error fault => simp [hown, hdisplay] at h
      | ok text =>
        cases hrest : shown v rest with
        | error fault => simp [hown, hdisplay, hrest, Except.map] at h
        | ok others =>
          simp only [hown, hdisplay, hrest, Except.map, Except.ok.injEq] at h
          subst h
          rw [List.mem_append, ih hrest]
          constructor
          · rintro (hhere | ⟨f, bs, x', t, hmem, hfound⟩)
            · exact ⟨field, buckets, x, text, List.mem_cons_self, hown, hdisplay, hhere⟩
            · exact ⟨f, bs, x', t, List.mem_cons_of_mem _ hmem, hfound⟩
          · rintro ⟨f, bs, x', t, hmem, hx', ht, hi⟩
            rcases List.mem_cons.mp hmem with hsame | hmem
            · obtain ⟨rfl, rfl⟩ := Prod.mk.inj hsame
              obtain rfl : x = x' := Option.some.inj (hown.symm.trans hx')
              obtain rfl : text = t := Except.ok.inj (hdisplay.symm.trans ht)
              exact .inl hi
            · exact .inr ⟨f, bs, x', t, hmem, hx', ht, hi⟩

/-- Only a held field without a text for display stops the search. -/
theorem shown_error {v : Value} {tagged : Entries (Entries (List Nat))} {fault : Fault}
    (h : shown v tagged = .error fault) : ∃ field x, v.own? field = some x ∧ x.display = .error fault := by
  induction tagged with
  | nil => cases h
  | cons entry rest ih =>
    obtain ⟨field, buckets⟩ := entry
    unfold shown at h
    cases hown : v.own? field with
    | none =>
      rw [hown] at h
      exact ih h
    | some x =>
      cases hdisplay : x.display with
      | error fault' =>
        simp only [hown, hdisplay, Except.error.injEq] at h
        exact ⟨field, x, hown, h ▸ hdisplay⟩
      | ok text =>
        cases hrest : shown v rest with
        | error fault' =>
          simp only [hown, hdisplay, hrest, Except.map, Except.error.injEq] at h
          exact ih (h ▸ hrest)
        | ok others => simp [hown, hdisplay, hrest, Except.map] at h

end Filing

/-! ## Candidates -/

/-- The candidates are the members that a composite value shows, and then those without a tag. -/
theorem candidates_eq_ok {defs : Definitions} {side : Side} {members : List Schema} {v : Value}
    {positions : List Nat} (h : candidates defs side members v = .ok positions) :
    ∃ filing, Filing.ofMembers defs side members = .ok filing ∧
      if v.isComposite then
        ∃ found, Filing.shown v (Entries.arrange filing.tagged) = .ok found ∧ positions = found ++ filing.untagged
      else positions = filing.untagged := by
  unfold candidates at h
  cases hfiling : Filing.ofMembers defs side members with
  | error fault => simp [hfiling, Except.bind] at h
  | ok filing =>
    refine ⟨filing, rfl, ?_⟩
    simp only [hfiling, Except.bind] at h
    unfold Filing.candidates at h
    split
    · rename_i hcomposite
      rw [if_pos hcomposite] at h
      cases hshown : Filing.shown v (Entries.arrange filing.tagged) with
      | error fault => simp [hshown, Except.map] at h
      | ok found =>
        rw [hshown] at h
        exact ⟨found, rfl, (Except.ok.inj h).symm⟩
    · rename_i hscalar
      rw [if_neg hscalar] at h
      exact (Except.ok.inj h).symm

/-- A candidate carries no tag, or it carries one that the value shows. -/
theorem candidates_mem {defs : Definitions} {side : Side} {members : List Schema} {v : Value}
    {positions : List Nat} (h : candidates defs side members v = .ok positions) {i : Nat}
    (hi : i ∈ positions) :
    (∃ filing, Filing.ofMembers defs side members = .ok filing ∧ i ∈ filing.untagged) ∨
      ∃ filing field text x s ts, Filing.ofMembers defs side members = .ok filing ∧
        i ∈ filing.under field text ∧ v.own? field = some x ∧ x.display = .ok text ∧
        members[i]? = some s ∧ tags defs side s = .ok ts ∧ (field, text) ∈ ts := by
  obtain ⟨filing, hfiling, hpositions⟩ := candidates_eq_ok h
  split at hpositions
  · obtain ⟨found, hshown, rfl⟩ := hpositions
    rcases List.mem_append.mp hi with hfound | huntagged
    · obtain ⟨field, buckets, x, text, hmem, hx, ht, hbucket⟩ := (Filing.mem_shown hshown i).mp hfound
      -- The fields are searched in another order than they were filed in.
      have hlisted := (Entries.arrange_perm filing.tagged).mem_iff.mp hmem
      have hunder : i ∈ filing.under field text := by
        rw [Filing.under, Filing.buckets, Entries.get?_of_mem (Filing.ofMembers_nodup hfiling) hlisted,
          Option.getD_some]
        exact hbucket
      obtain ⟨s, ts, hs, hts, htag⟩ := Filing.ofMembers_under hfiling hunder
      exact .inr ⟨filing, field, text, x, s, ts, hfiling, hunder, hx, ht, hs, hts, htag⟩
    · exact .inl ⟨filing, hfiling, huntagged⟩
  · subst hpositions
    exact .inl ⟨filing, hfiling, hi⟩

/-- A member without a tag is a candidate for every value. -/
theorem mem_candidates_of_untagged {defs : Definitions} {side : Side} {members : List Schema} {w : Value}
    {positions : List Nat} (h : candidates defs side members w = .ok positions) {filing : Filing}
    (hfiling : Filing.ofMembers defs side members = .ok filing) {i : Nat} (hi : i ∈ filing.untagged) :
    i ∈ positions := by
  obtain ⟨filing', hfiling', hpositions⟩ := candidates_eq_ok h
  obtain rfl : filing = filing' := Except.ok.inj (hfiling.symm.trans hfiling')
  split at hpositions
  · obtain ⟨found, -, rfl⟩ := hpositions
    exact List.mem_append_right found hi
  · exact hpositions ▸ hi

/-- A member that is filed under a literal is a candidate for every object or list that shows the literal. -/
theorem mem_candidates_of_under {defs : Definitions} {side : Side} {members : List Schema} {w x : Value}
    {positions : List Nat} (h : candidates defs side members w = .ok positions) {filing : Filing}
    (hfiling : Filing.ofMembers defs side members = .ok filing) {i : Nat} {field text : String}
    (hi : i ∈ filing.under field text) (hcomposite : w.isComposite = true) (hx : w.own? field = some x)
    (htext : x.display = .ok text) : i ∈ positions := by
  obtain ⟨filing', hfiling', hpositions⟩ := candidates_eq_ok h
  obtain rfl : filing = filing' := Except.ok.inj (hfiling.symm.trans hfiling')
  rw [if_pos hcomposite] at hpositions
  obtain ⟨found, hshown, rfl⟩ := hpositions
  refine List.mem_append_left _ ((Filing.mem_shown hshown i).mpr ?_)
  unfold Filing.under Filing.buckets at hi
  cases hbuckets : Entries.get? filing.tagged field with
  | none => simp [hbuckets] at hi
  | some buckets =>
    rw [hbuckets, Option.getD_some] at hi
    have hmem := (Entries.arrange_perm filing.tagged).mem_iff.mpr (Entries.mem_of_get? hbuckets)
    exact ⟨field, buckets, x, text, hmem, hx, htext, hi⟩

/-- Only members that cannot be filed, or a held field without a text for display, stop the choice. -/
theorem candidates_error {defs : Definitions} {side : Side} {members : List Schema} {v : Value} {fault : Fault}
    (h : candidates defs side members v = .error fault) {filing : Filing}
    (hfiling : Filing.ofMembers defs side members = .ok filing) :
    v.isComposite = true ∧ ∃ field x, v.own? field = some x ∧ x.display = .error fault := by
  unfold candidates at h
  simp only [hfiling, Except.bind] at h
  unfold Filing.candidates at h
  split at h
  · rename_i hcomposite
    cases hshown : Filing.shown v (Entries.arrange filing.tagged) with
    | ok found => simp [hshown, Except.map] at h
    | error fault' =>
      simp only [hshown, Except.map, Except.error.injEq] at h
      exact ⟨hcomposite, Filing.shown_error (h ▸ hshown)⟩
  · cases h

end Gateway.Schema
