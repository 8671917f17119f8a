import Gateway.Proofs.CaseChanges
import Gateway.Proofs.OriginLabels
import Gateway.Proofs.UnitTexts

/-!
# The canonical list of allowed headers

A policy lists the request headers that it allows in strictly increasing order, so the list is determined by its members
(`allowedHeaders_eq_of_mem_iff`), and these are the normal forms of the configured names.  Configurations that differ in
order, repetition, surrounding blanks and the lower case of characters only (`ConfiguredAlike`) have the same normal
forms, and a normal form is its own.  So such configurations give one list, and so does the list itself
(`allowedHeaders_canonical`).  A name in upper case may have another normal form (`upper_case_listed_apart`).
-/

namespace Gateway

/-! ## Normal forms of settings -/

/-- A setting as it is kept: trimmed and in lower case. -/
def normalSetting (setting : String) : String :=
  Text.lower (Text.trim setting)

theorem normalSetting_normalSetting (setting : String) :
    normalSetting (normalSetting setting) = normalSetting setting := by
  rw [normalSetting, normalSetting, Text.trim_lower, Text.trim_trim, Text.lower_lower]

/-- Two lists of settings that differ in the order, the repetition, the letter case and the surrounding blanks of their
entries only: each can be changed into the other by changes of these four kinds, letter case one character at a time. -/
inductive ConfiguredAlike : List String → List String → Prop where
  | order {a b : List String} (h : a.Perm b) : ConfiguredAlike a b
  | repetition {setting : String} {a : List String} (h : setting ∈ a) : ConfiguredAlike a (setting :: a)
  | letterCase {s t : List Char} (h : Text.CaseChange s t) (a : List String) :
      ConfiguredAlike (String.ofList s :: a) (String.ofList t :: a)
  | blanks {before after : List Char} (hbefore : ∀ c ∈ before, Text.isBlank c = true)
      (hafter : ∀ c ∈ after, Text.isBlank c = true) (s : String) (a : List String) :
      ConfiguredAlike (s :: a) ((String.ofList before ++ s ++ String.ofList after) :: a)
  | symm {a b : List String} (h : ConfiguredAlike a b) : ConfiguredAlike b a
  | trans {a b c : List String} (hab : ConfiguredAlike a b) (hbc : ConfiguredAlike b c) : ConfiguredAlike a c

theorem normalSetting_of_lower {s t : String} (h : Text.lower s = Text.lower t) :
    normalSetting s = normalSetting t := by
  rw [normalSetting, normalSetting, ← Text.trim_lower, ← Text.trim_lower, h]

/-- Lists that are alike have the same normal forms. -/
theorem ConfiguredAlike.mem_map_normalSetting {a b : List String} (h : ConfiguredAlike a b) (setting : String) :
    setting ∈ a.map normalSetting ↔ setting ∈ b.map normalSetting := by
  induction h with
  | order h => exact (h.map normalSetting).mem_iff
  | repetition h =>
    rw [List.map_cons, List.mem_cons]
    constructor
    · exact .inr
    · rintro (rfl | hmem)
      · exact List.mem_map_of_mem h
      · exact hmem
  | letterCase h a => rw [List.map_cons, List.map_cons, normalSetting_of_lower h.lower_eq]
  | blanks hbefore hafter s a =>
    rw [List.map_cons, List.map_cons, normalSetting, normalSetting, Text.trim_ofList_append hbefore hafter]
  | symm _ ih => exact ih.symm
  | trans _ _ ih ih' => exact ih.trans ih'

theorem mem_normalizeSettings_iff (entries : List String) (setting : String) :
    setting ∈ normalizeSettings entries ↔ setting ≠ "" ∧ setting ∈ entries.map normalSetting := by
  rw [mem_normalizeSettings, List.mem_map, and_comm]
  rfl

/-! ## Strictly increasing lists -/

theorem nodup_eraseDups (names : List String) : names.eraseDups.Nodup := by
  -- The recursion leaves the repetitions of the first name out, so the induction is on the length.
  induction hlength : names.length using Nat.strongRecOn generalizing names with
  | ind n ih =>
    cases names with
    | nil => exact List.nodup_nil
    | cons name rest =>
      have hshorter := List.length_filter_le (fun other => !other == name) rest
      rw [List.length_cons] at hlength
      rw [List.eraseDups_cons, List.nodup_cons]
      refine ⟨?_, ih _ (by omega) _ rfl⟩
      simp [List.mem_eraseDups]

/-- Names in strictly increasing order of their units. -/
def Increasing (names : List String) : Prop :=
  names.Pairwise fun a b => Text.unitsBefore a b = true

theorem Increasing.nodup {names : List String} (h : Increasing names) : names.Nodup := by
  refine h.imp ?_
  rintro a b hbefore rfl
  rw [Text.unitsBefore_irrefl] at hbefore
  cases hbefore

/-- An increasing list is determined by its members. -/
theorem Increasing.eq_of_mem_iff {names names' : List String} (h : Increasing names) (h' : Increasing names')
    (hmem : ∀ name, name ∈ names ↔ name ∈ names') : names = names' := by
  refine List.Perm.eq_of_pairwise ?_ h h' ((List.perm_ext_iff_of_nodup h.nodup h'.nodup).mpr hmem)
  intro a b _ _ hab hba
  rw [Text.unitsBefore_asymm hab] at hba
  cases hba

namespace CorsPolicy

theorem namePrecedes_iff (a b : String) : namePrecedes a b = true ↔ a = b ∨ Text.unitsBefore a b = true := by
  rw [namePrecedes, Bool.not_eq_true']
  constructor
  · intro hnot
    by_cases hsame : a = b
    · exact .inl hsame
    · rcases Text.unitsBefore_total hsame with hab | hba
      · exact .inr hab
      · rw [hnot] at hba
        cases hba
  · rintro (rfl | hab)
    · exact Text.unitsBefore_irrefl a
    · exact Text.unitsBefore_asymm hab

theorem namePrecedes_trans (a b c : String) (hab : namePrecedes a b = true) (hbc : namePrecedes b c = true) :
    namePrecedes a c = true := by
  rw [namePrecedes_iff] at hab hbc ⊢
  rcases hab with rfl | hab
  · exact hbc
  · rcases hbc with rfl | hbc
    · exact .inr hab
    · exact .inr (Text.unitsBefore_trans hab hbc)

theorem namePrecedes_total (a b : String) : (namePrecedes a b || namePrecedes b a) = true := by
  rw [Bool.or_eq_true, namePrecedes_iff, namePrecedes_iff]
  by_cases hsame : a = b
  · exact .inl (.inl hsame)
  · rcases Text.unitsBefore_total hsame with hab | hba
    · exact .inl (.inr hab)
    · exact .inr (.inr hba)

/-! ## Allowed headers -/

theorem allowedHeaders_perm (origins entries : List String) :
    (make origins entries).allowedHeaders.Perm (normalizeSettings entries).eraseDups :=
  List.mergeSort_perm _ _

theorem mem_allowedHeaders (origins entries : List String) (name : String) :
    name ∈ (make origins entries).allowedHeaders ↔ name ≠ "" ∧ name ∈ entries.map normalSetting := by
  rw [(allowedHeaders_perm origins entries).mem_iff, List.mem_eraseDups, mem_normalizeSettings_iff]

theorem allowedHeaders_increasing (origins entries : List String) :
    Increasing (make origins entries).allowedHeaders := by
  have hsorted : (make origins entries).allowedHeaders.Pairwise fun a b => namePrecedes a b = true :=
    List.pairwise_mergeSort namePrecedes_trans namePrecedes_total _
  have hnodup : (make origins entries).allowedHeaders.Nodup :=
    (allowedHeaders_perm origins entries).nodup_iff.mpr (nodup_eraseDups _)
  refine (hsorted.and hnodup).imp ?_
  rintro a b ⟨hprecedes, hne⟩
  exact ((namePrecedes_iff a b).mp hprecedes).resolve_left hne

theorem allowedHeaders_eq_of_mem_iff {origins origins' entries entries' : List String}
    (h : ∀ name, name ≠ "" → (name ∈ entries.map normalSetting ↔ name ∈ entries'.map normalSetting)) :
    (make origins entries).allowedHeaders = (make origins' entries').allowedHeaders := by
  refine (allowedHeaders_increasing origins entries).eq_of_mem_iff (allowedHeaders_increasing origins' entries') ?_
  intro name
  rw [mem_allowedHeaders, mem_allowedHeaders]
  exact and_congr_right (h name)

/-- Allowed headers are in normal form already. -/
theorem mem_map_allowedHeaders (origins entries : List String) (name : String) :
    name ∈ (make origins entries).allowedHeaders.map normalSetting ↔ name ∈ (make origins entries).allowedHeaders := by
  have hnormal : ∀ listed ∈ (make origins entries).allowedHeaders, normalSetting listed = listed := by
    intro listed hlisted
    obtain ⟨entry, -, rfl⟩ := List.mem_map.mp ((mem_allowedHeaders origins entries listed).mp hlisted).2
    exact normalSetting_normalSetting entry
  rw [List.map_congr_left hnormal, List.map_id']

/-- The allowed headers are listed in strictly increasing order of their units, and they are the configured names that
are not blank, trimmed and in lower case.  The list stays the same if it is itself configured, and if the configuration
changes in order, repetition and surrounding blanks only, or if a character is replaced by its lower case or the other
way round. -/
theorem allowedHeaders_canonical (origins entries : List String) :
    Increasing (make origins entries).allowedHeaders ∧
    (∀ name, name ∈ (make origins entries).allowedHeaders ↔
      name ≠ "" ∧ ∃ entry ∈ entries, Text.lower (Text.trim entry) = name) ∧
    (∀ origins' entries', ConfiguredAlike entries entries' →
      (make origins' entries').allowedHeaders = (make origins entries).allowedHeaders) ∧
    (∀ origins', (make origins' (make origins entries).allowedHeaders).allowedHeaders =
      (make origins entries).allowedHeaders) := by
  refine ⟨allowedHeaders_increasing origins entries, ?_, ?_, ?_⟩
  · intro name
    rw [mem_allowedHeaders, List.mem_map]
    rfl
  · intro origins' entries' halike
    exact allowedHeaders_eq_of_mem_iff fun name _ => (halike.mem_map_normalSetting name).symm
  · intro origins'
    apply allowedHeaders_eq_of_mem_iff
    intro name hname
    rw [mem_map_allowedHeaders, mem_allowedHeaders]
    exact and_iff_right hname

theorem allowedHeaders_canonical_respelled :
    ConfiguredAlike ["é-id"] ["é-id", " É-id "] ∧
    (make [] ["é-id", " É-id "]).allowedHeaders = (make [] ["é-id"]).allowedHeaders := by
  have hspace : ∀ c ∈ [' '], Text.isBlank c = true := by simp [Text.isBlank]
  have hspaced : " É-id " = String.ofList [' '] ++ "É-id" ++ String.ofList [' '] := by decide
  have hchange : Text.CaseChange ['É', '-', 'i', 'd'] ['é', '-', 'i', 'd'] := by
    have hlower : Text.lowerChar 'É' = ['é'] := by decide +kernel
    have hletter := Text.CaseChange.lower [] (by decide : 'É' ≠ Text.capitalSigma) ['-', 'i', 'd']
    rwa [hlower] at hletter
  have hrepeated : ConfiguredAlike ["é-id"] ["é-id", "é-id"] := .repetition List.mem_cons_self
  have hupper : ConfiguredAlike ["é-id", "é-id"] ["É-id", "é-id"] := .symm (.letterCase hchange ["é-id"])
  have hblanks : ConfiguredAlike ["É-id", "é-id"] [" É-id ", "é-id"] := by
    rw [hspaced]
    exact .blanks hspace hspace "É-id" ["é-id"]
  have hswapped : ConfiguredAlike [" É-id ", "é-id"] ["é-id", " É-id "] := .order (.swap _ _ [])
  have halike := ((hrepeated.trans hupper).trans hblanks).trans hswapped
  exact ⟨halike, (allowedHeaders_canonical [] ["é-id"]).2.2.1 [] _ halike⟩

/-- A name and the same in upper case need not be listed alike: the sigma of the one is small, that of the other
ends a word. -/
theorem upper_case_listed_apart :
    Text.upper "ασ" = "ΑΣ" ∧ (make [] ["ασ"]).allowedHeaders = ["ασ"] ∧ (make [] ["ΑΣ"]).allowedHeaders = ["ας"] := by
  decide +kernel

end CorsPolicy

end Gateway
