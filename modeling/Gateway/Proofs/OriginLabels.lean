import Gateway.Cors.Policy
import Gateway.Proofs.RegexMatches
import Gateway.Proofs.SplitTexts
import Gateway.Proofs.UnitTexts
import Mathlib.Data.List.Forall2

/-!
# Origins are matched label by label

A host fits an entry of the policy if it is the entry with every star replaced by some text that is not empty and has no
dot.  Since no replacement has a dot, the host then has as many labels as the entry, and each label of the host fits the
label of the entry at its place; and hosts that fit label by label fit as a whole (`expands_iff_labels`).  The policy
keeps entries without a star apart from those with one, and matches an escaped expression with all its ways back for
the latter (`fits_iff_expands`), but it allows exactly the hosts that fit some entry (`allows_iff_labels`).
-/

namespace Gateway

/-- A setting is some configured value, trimmed and in lower case, that is not empty. -/
theorem mem_normalizeSettings (values : List String) (setting : String) :
    setting ∈ normalizeSettings values ↔ (∃ v ∈ values, Text.lower (Text.trim v) = setting) ∧ setting ≠ "" := by
  rw [normalizeSettings, List.mem_filter, List.mem_map, bne_iff_ne]

namespace OriginPolicy

/-! ## Replacing stars -/

/-- A text is a pattern in which every star is replaced by some text that is not empty and has no dot; every other
unit stands for itself. -/
inductive Expands : List UInt16 → List UInt16 → Prop where
  | nil : Expands [] []
  | literal {c : UInt16} {pattern text : List UInt16} (hc : c ≠ 0x2A) (h : Expands pattern text) :
      Expands (c :: pattern) (c :: text)
  | star {run pattern text : List UInt16} (hne : run ≠ []) (hdot : 0x2E ∉ run) (h : Expands pattern text) :
      Expands (0x2A :: pattern) (run ++ text)

namespace Expands

theorem nil_iff (text : List UInt16) : Expands [] text ↔ text = [] := by
  constructor
  · intro h
    cases h
    rfl
  · rintro rfl
    exact .nil

theorem literal_iff {c : UInt16} (hc : c ≠ 0x2A) (pattern text : List UInt16) :
    Expands (c :: pattern) text ↔ ∃ rest, text = c :: rest ∧ Expands pattern rest := by
  constructor
  · intro h
    cases h with
    | literal _ hrest => exact ⟨_, rfl, hrest⟩
    | star => exact absurd rfl hc
  · rintro ⟨rest, rfl, hrest⟩
    exact .literal hc hrest

theorem star_iff (pattern text : List UInt16) :
    Expands (0x2A :: pattern) text ↔
      ∃ run rest, text = run ++ rest ∧ run ≠ [] ∧ 0x2E ∉ run ∧ Expands pattern rest := by
  constructor
  · intro h
    cases h with
    | literal hc => exact absurd rfl hc
    | star hne hdot hrest => exact ⟨_, _, rfl, hne, hdot, hrest⟩
  · rintro ⟨run, rest, rfl, hne, hdot, hrest⟩
    exact .star hne hdot hrest

theorem append {pattern text pattern' text' : List UInt16} (h : Expands pattern text) (h' : Expands pattern' text') :
    Expands (pattern ++ pattern') (text ++ text') := by
  induction h with
  | nil => exact h'
  | literal hc _ ih => exact .literal hc ih
  | star hne hdot _ ih =>
    rw [List.append_assoc]
    exact .star hne hdot ih

/-- A pattern without a star stands for itself only. -/
theorem iff_eq_of_plain {pattern : List UInt16} (hplain : 0x2A ∉ pattern) (text : List UInt16) :
    Expands pattern text ↔ text = pattern := by
  induction pattern generalizing text with
  | nil => exact nil_iff text
  | cons c pattern ih =>
    obtain ⟨hc, hplain⟩ := List.ne_and_not_mem_of_not_mem_cons hplain
    simp [literal_iff (Ne.symm hc), ih hplain]

end Expands

/-! ## Label by label -/

theorem splitOn_append_of_not_mem {run : List UInt16} (hdot : 0x2E ∉ run) (text : List UInt16) :
    (run ++ text).splitOn 0x2E = (text.splitOn 0x2E).modifyHead (run ++ ·) := by
  induction run with
  | nil => exact (congrFun List.modifyHead_id _).symm
  | cons c run ih =>
    obtain ⟨hc, hdot⟩ := List.ne_and_not_mem_of_not_mem_cons hdot
    rw [List.cons_append, List.splitOn_cons_eq_if_modifyHead, if_neg (by simpa using hc.symm), ih hdot,
      List.modifyHead_modifyHead]
    rfl

theorem forall₂_modifyHead {pieces texts : List (List UInt16)} (h : List.Forall₂ Expands pieces texts)
    {f g : List UInt16 → List UInt16} (hhead : ∀ piece text, Expands piece text → Expands (f piece) (g text)) :
    List.Forall₂ Expands (pieces.modifyHead f) (texts.modifyHead g) := by
  cases h with
  | nil => exact .nil
  | cons hfirst hrest => exact .cons (hhead _ _ hfirst) hrest

theorem labels_of_expands {pattern text : List UInt16} (h : Expands pattern text) :
    List.Forall₂ Expands (pattern.splitOn 0x2E) (text.splitOn 0x2E) := by
  induction h with
  | nil => exact .cons .nil .nil
  | @literal c pattern text hc _ ih =>
    rw [List.splitOn_cons_eq_if_modifyHead, List.splitOn_cons_eq_if_modifyHead]
    split
    · exact .cons .nil ih
    · exact forall₂_modifyHead ih fun _ _ => .literal hc
  | star hne hdot _ ih =>
    -- What takes the place of a star stays in one label.
    rw [List.splitOn_cons_eq_if_modifyHead, if_neg (by decide), splitOn_append_of_not_mem hdot]
    exact forall₂_modifyHead ih fun _ _ => .star hne hdot

theorem expands_intercalate {pieces texts : List (List UInt16)} (h : List.Forall₂ Expands pieces texts) :
    Expands ([0x2E].intercalate pieces) ([0x2E].intercalate texts) := by
  induction h with
  | nil => exact .nil
  | cons hfirst hrest ih =>
    cases hrest with
    | nil => simpa using hfirst
    | cons =>
      rw [List.intercalate_cons_cons, List.intercalate_cons_cons, List.append_assoc, List.append_assoc]
      exact hfirst.append (.literal (by decide) ih)

/-- A text expands a pattern as a whole exactly if it does so label by label. -/
theorem expands_iff_labels (pattern text : List UInt16) :
    Expands pattern text ↔ List.Forall₂ Expands (pattern.splitOn 0x2E) (text.splitOn 0x2E) := by
  constructor
  · exact labels_of_expands
  · intro h
    have hjoined := expands_intercalate h
    rwa [List.intercalate_splitOn, List.intercalate_splitOn] at hjoined

/-! ## The expression of a pattern -/

theorem has_labelUnits_iff {run : List UInt16} :
    (∀ u ∈ run, Regex.labelUnits.has u = true) ↔ (0x2E : UInt16) ∉ run := by
  have hunit : ∀ u, Regex.labelUnits.has u = true ↔ u ≠ 0x2E := by
    intro u
    simp [UnitSet.has, Regex.labelUnits]
  simp only [hunit]
  exact ⟨fun h hdot => h _ hdot rfl, fun h u hu heq => h (heq ▸ hu)⟩

/-- The gaps of a pattern are its stars: a text expands the pattern exactly if it fills them. -/
theorem expands_iff_fills {pattern lead : List UInt16} {tails : List (List UInt16)}
    (hpattern : pattern.splitOn 0x2A = lead :: tails) (text : List UInt16) :
    Expands pattern text ↔ ∃ rest runs, text = lead ++ rest ∧ Gaps.Fills Regex.labelUnits.has tails rest runs := by
  induction pattern generalizing lead tails text with
  | nil =>
    obtain ⟨rfl, rfl⟩ : [] = lead ∧ [] = tails := List.cons.inj hpattern
    rw [Expands.nil_iff]
    constructor
    · rintro rfl
      exact ⟨[], [], rfl, .nil⟩
    · rintro ⟨rest, runs, rfl, hfills⟩
      cases hfills
      rfl
  | cons u pattern ih =>
    obtain ⟨lead', tails', hsplit⟩ := List.exists_cons_of_ne_nil (List.splitOn_ne_nil 0x2A pattern)
    rw [List.splitOn_cons_eq_if_modifyHead, hsplit] at hpattern
    split at hpattern
    · -- The literal after the star is the lead of the pattern that is left.
      rename_i hu
      obtain rfl := eq_of_beq hu
      obtain ⟨rfl, rfl⟩ := List.cons.inj hpattern
      rw [Expands.star_iff]
      constructor
      · rintro ⟨run, text, rfl, hne, hdot, hexpands⟩
        obtain ⟨rest, runs, rfl, hfills⟩ := (ih hsplit text).mp hexpands
        exact ⟨_, run :: runs, rfl, .cons hne (has_labelUnits_iff.mpr hdot) hfills⟩
      · rintro ⟨_, _, rfl, hfills⟩
        cases hfills with
        | cons hne hadmits hfurther =>
          exact ⟨_, _, rfl, hne, has_labelUnits_iff.mp hadmits, (ih hsplit _).mpr ⟨_, _, rfl, hfurther⟩⟩
    · rename_i hu
      obtain ⟨rfl, rfl⟩ := List.cons.inj hpattern
      rw [Expands.literal_iff (by simpa using hu)]
      constructor
      · rintro ⟨text, rfl, hexpands⟩
        obtain ⟨rest, runs, rfl, hfills⟩ := (ih hsplit text).mp hexpands
        exact ⟨rest, runs, rfl, hfills⟩
      · rintro ⟨rest, runs, rfl, hfills⟩
        exact ⟨_, rfl, (ih hsplit _).mpr ⟨rest, runs, rfl, hfills⟩⟩

/-- The expression of a pattern finds the hosts that the pattern expands to. -/
theorem fits_iff_expands (pattern host : String) :
    fits pattern host = true ↔ Expands (Text.units pattern) (Text.units host) := by
  obtain ⟨lead, tails, hsplit⟩ := List.exists_cons_of_ne_nil (List.splitOn_ne_nil 0x2A (Text.units pattern))
  have hpieces : Text.splitWhere (· == 0x2A) (Text.units pattern) = lead :: tails :=
    (Text.splitWhere_eq_splitOnP _ _).trans hsplit
  rw [expands_iff_fills hsplit, ← Regex.test_wildcard, fits, Regex.read?_wildcardSource hpieces]

/-! ## The policy -/

/-- The labels of a host name or an entry: what stands between its dots. -/
def labels (name : String) : List (List UInt16) :=
  (Text.units name).splitOn 0x2E

theorem isPattern_iff (entry : String) : isPattern entry = true ↔ 0x2A ∈ Text.units entry := by
  rw [isPattern, List.contains_iff_mem, Text.units, List.mem_flatMap]
  constructor
  · intro hmem
    exact ⟨'*', hmem, by decide⟩
  · rintro ⟨c, hc, hu⟩
    obtain rfl : '*' = c := Char.toNat_inj.mp (Text.toNat_eq_of_mem_unitsOfChar hu (by decide))
    exact hc

/-- The policy of some entries allows the hosts that one of the settings expands to. -/
theorem allowsHost_iff_expands (entries : List String) (host : String) :
    (make entries).allowsHost host = true ↔
      ∃ setting ∈ normalizeSettings entries, Expands (Text.units setting) (Text.units host) := by
  have hhosts : (make entries).hosts.contains host = true ↔
      ∃ setting ∈ normalizeSettings entries, isPattern setting = false ∧ host = setting := by
    simp [make]
  have hpatterns : (make entries).patterns.any (fits · host) = true ↔
      ∃ setting ∈ normalizeSettings entries,
        isPattern setting = true ∧ Expands (Text.units setting) (Text.units host) := by
    simp [make, fits_iff_expands]
  rw [allowsHost, Bool.or_eq_true, hhosts, hpatterns]
  constructor
  · rintro (⟨setting, hmem, hplain, rfl⟩ | ⟨setting, hmem, -, hexpands⟩)
    · have hstar : 0x2A ∉ Text.units host := by
        rw [← isPattern_iff, hplain]
        exact Bool.false_ne_true
      exact ⟨host, hmem, (Expands.iff_eq_of_plain hstar _).mpr rfl⟩
    · exact ⟨setting, hmem, hexpands⟩
  · rintro ⟨setting, hmem, hexpands⟩
    cases hpattern : isPattern setting with
    | true => exact .inr ⟨setting, hmem, hpattern, hexpands⟩
    | false =>
      have hstar : 0x2A ∉ Text.units setting := by
        rw [← isPattern_iff, hpattern]
        exact Bool.false_ne_true
      refine .inl ⟨setting, hmem, hpattern, Text.units_injective ?_⟩
      exact (Expands.iff_eq_of_plain hstar _).mp hexpands

/-- A web origin whose host name is the given one, for a reader of URLs. -/
def HasHost (parse : String → Option Url) (origin host : String) : Prop :=
  ∃ url, parse origin = some url ∧ (url.scheme = "http" ∨ url.scheme = "https") ∧ url.host = some host

theorem hostname?_eq_some_iff (parse : String → Option Url) (origin host : String) :
    hostname? parse origin = some host ↔ HasHost parse origin host := by
  rw [hostname?, Option.bind_eq_some_iff]
  constructor
  · rintro ⟨url, hurl, hhost⟩
    split at hhost
    · rename_i hscheme
      exact ⟨url, hurl, hscheme, hhost⟩
    · cases hhost
  · rintro ⟨url, hurl, hscheme, hhost⟩
    exact ⟨url, hurl, by rw [if_pos hscheme, hhost]⟩

/-- An origin is allowed exactly if it has a host name and some entry, trimmed, in lower case and not empty, has as many
labels as the host name and each label of the host name is that of the entry with every star replaced by some text that
is not empty and has no dot.  That holds whichever way URLs are read.  An entry without a star stands for itself only,
whatever other signs it has, and it does not matter in which order or how often entries are given. -/
theorem allows_iff_labels (entries : List String) (origin : String) :
    (∀ parse, allowsBy parse (make entries) origin = true ↔
      ∃ host, HasHost parse origin host ∧
        ∃ e ∈ entries, Text.lower (Text.trim e) ≠ "" ∧
          List.Forall₂ Expands (labels (Text.lower (Text.trim e))) (labels host)) ∧
    (make entries).allows origin = allowsBy Url.parse? (make entries) origin ∧
    (∀ setting host : String, 0x2A ∉ Text.units setting →
      (List.Forall₂ Expands (labels setting) (labels host) ↔ host = setting)) ∧
    ∀ entries' : List String, (∀ e, e ∈ entries' ↔ e ∈ entries) →
      ∀ parse, allowsBy parse (make entries') origin = allowsBy parse (make entries) origin := by
  have hallows : ∀ (entries : List String) parse, allowsBy parse (make entries) origin = true ↔
      ∃ host, HasHost parse origin host ∧
        ∃ e ∈ entries, Text.lower (Text.trim e) ≠ "" ∧
          List.Forall₂ Expands (labels (Text.lower (Text.trim e))) (labels host) := by
    intro entries parse
    simp only [labels, ← expands_iff_labels, ← hostname?_eq_some_iff]
    unfold allowsBy
    cases hostname? parse origin with
    | none => simp
    | some host => simp [allowsHost_iff_expands, mem_normalizeSettings, and_assoc]
  refine ⟨hallows entries, rfl, ?_, ?_⟩
  · intro setting host hplain
    rw [labels, labels, ← expands_iff_labels, Expands.iff_eq_of_plain hplain, Text.units_injective.eq_iff]
  · intro entries' hsame parse
    rw [Bool.eq_iff_iff, hallows, hallows]
    simp only [hsame]

/-- Entries with stars, blanks and upper case, one of them a kelvin sign, and one that has a sign with a meaning in
regular expressions, twice. -/
def wildcardEntries : List String :=
  [" *.Cdn*.example.com ", "a+b.example", "\u212Aiwi.example", "a+b.example"]

theorem allows_iff_labels_wildcards :
    (∀ e, e ∈ ["\u212Aiwi.example", "a+b.example", " *.Cdn*.example.com "] ↔ e ∈ wildcardEntries) ∧
      0x2A ∉ Text.units "a+b.example" ∧
      (make wildcardEntries).allows "https://eu.cdn12.example.com:8443" = true ∧
      (make wildcardEntries).allows "https://kiwi.example" = true ∧
      allowsBy Url.parse? (make ["\u212Aiwi.example", "a+b.example", " *.Cdn*.example.com "])
        "https://eu.cdn12.example.com:8443" = true ∧
      ¬List.Forall₂ Expands (labels "a+b.example") (labels "aab.example") := by
  have hsame : ∀ e, e ∈ ["\u212Aiwi.example", "a+b.example", " *.Cdn*.example.com "] ↔ e ∈ wildcardEntries := by
    intro e
    simp only [wildcardEntries, List.mem_cons, List.not_mem_nil, or_false]
    tauto
  have hplain : 0x2A ∉ Text.units "a+b.example" := by decide
  obtain ⟨hallows, hby, hliteral, horder⟩ := allows_iff_labels wildcardEntries "https://eu.cdn12.example.com:8443"
  have hexpands := (fits_iff_expands "*.cdn*.example.com" "eu.cdn12.example.com").mp (by decide +kernel)
  have hhost : HasHost Url.parse? "https://eu.cdn12.example.com:8443" "eu.cdn12.example.com" :=
    (hostname?_eq_some_iff _ _ _).mp (by decide +kernel)
  have hallowed : allowsBy Url.parse? (make wildcardEntries) "https://eu.cdn12.example.com:8443" = true := by
    refine (hallows _).mpr ⟨"eu.cdn12.example.com", hhost, " *.Cdn*.example.com ", by decide, by decide +kernel, ?_⟩
    rw [show Text.lower (Text.trim " *.Cdn*.example.com ") = "*.cdn*.example.com" by decide +kernel]
    exact labels_of_expands hexpands
  refine ⟨hsame, hplain, hby.trans hallowed, by decide +kernel, (horder _ hsame _).trans hallowed, ?_⟩
  rw [hliteral _ _ hplain]
  decide

end OriginPolicy

end Gateway
