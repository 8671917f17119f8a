import Gateway.Log.Logger
import Mathlib.Data.List.Infix

/-!
# Logs do not depend on sensitive values

Two values are alike for a list of sensitive fields if they differ only below sensitive keys, at any depth and also in
objects inside lists (`Redaction.Alike`).  Redaction shows alike values alike (`apply_of_alike`), because a sensitive
value is replaced before anything is asked of it; so the records of two runs that differ only in sensitive values are
the same (`sensitive_values_unlogged`).  The keys themselves are shown, and so is how many of them there are.
-/

namespace Gateway.Text

theorem containsChars_iff (needle cs : List Char) : containsChars needle cs = true ↔ needle <:+: cs := by
  induction cs with
  | nil => simp [containsChars]
  | cons c cs ih =>
    rw [containsChars, Bool.or_eq_true, List.isPrefixOf_iff_prefix, ih, List.infix_cons_iff]

end Gateway.Text

namespace Gateway.Redaction

/-! ## Alike values -/

/-- A key is sensitive if one of the fields stands in it, both in lower case. -/
def Sensitive (fields : List String) (key : String) : Prop :=
  ∃ field ∈ fields, (Text.lower field).toList <:+: (Text.lower key).toList

theorem isSensitive_iff (r : Redaction) (key : String) : r.isSensitive key = true ↔ Sensitive r.fields key := by
  simp [isSensitive, Sensitive, Text.contains, Text.containsChars_iff]

mutual

/-- Values that differ only below sensitive keys. -/
inductive Alike (fields : List String) : Value → Value → Prop where
  | same (v : Value) : Alike fields v v
  | array {vs ws : List Value} (h : AlikeItems fields vs ws) : Alike fields (.array vs) (.array ws)
  /-- Any two objects that list the same keys, of whatever kind they are. -/
  | object {v w : Value} (hv : v.isObject = true) (hw : w.isObject = true)
    (h : AlikeEntries fields v.entries w.entries) : Alike fields v w

/-- Lists of the same length with alike items. -/
inductive AlikeItems (fields : List String) : List Value → List Value → Prop where
  | nil : AlikeItems fields [] []
  | cons {v w : Value} {vs ws : List Value} (h : Alike fields v w) (hrest : AlikeItems fields vs ws) :
    AlikeItems fields (v :: vs) (w :: ws)

/-- The same keys in the same order, with alike values at the keys that are not sensitive. -/
inductive AlikeEntries (fields : List String) : List (String × Value) → List (String × Value) → Prop where
  | nil : AlikeEntries fields [] []
  | cons (key : String) {v w : Value} {es fs : List (String × Value)} (h : ¬Sensitive fields key → Alike fields v w)
    (hrest : AlikeEntries fields es fs) : AlikeEntries fields ((key, v) :: es) ((key, w) :: fs)

end

/-! ## What is shown of an object -/

theorem applyEntries_append (r : Redaction) (depth : Number) (listed : String → Value → Bool)
    (es fs : List (String × Value)) :
    applyEntries r depth listed (es ++ fs) = applyEntries r depth listed es ++ applyEntries r depth listed fs := by
  induction es with
  | nil => rfl
  | cons e rest ih =>
    rw [List.cons_append, applyEntries, applyEntries, ih]
    split <;> rfl

/-- Entries that are not listed may as well be absent. -/
theorem applyEntries_filter (r : Redaction) (depth : Number) (listed : String → Value → Bool)
    (es : List (String × Value)) :
    applyEntries r depth listed es = applyEntries r depth (fun _ _ => true) (es.filter fun e => listed e.1 e.2) := by
  induction es with
  | nil => rfl
  | cons e rest ih =>
    cases hlisted : listed e.1 e.2 with
    | false => simp [applyEntries, hlisted, ih]
    | true => simp [applyEntries, hlisted, ih]

/-- An object is shown through the entries it lists, whatever kind of object it is. -/
theorem apply_of_isObject (r : Redaction) (depth : Number) {v : Value} (h : v.isObject = true) :
    r.apply depth v =
      if r.isTooDeep depth then tooDeep
      else .object (applyEntries r (depth.add 1) (fun _ _ => true) v.entries) := by
  cases v with
  | raised mark fields =>
    -- The tag of a raised error is shown as one more entry would be.
    have htag : applyEntries r (depth.add 1) (fun _ _ => true) [Value.tagEntry mark] =
        [shownTag r (depth.add 1) mark.tag] := by
      have hkey : ("_tag" == Entries.reservedKey) = false := by decide
      simp [applyEntries, Value.tagEntry, shownTag, apply, hkey]
    rw [apply, Value.entries, applyEntries_append, htag, applyEntries_filter]
  | date moment => simp only [apply, Value.entries, applyEntries]
  | error kind message => simp only [apply, Value.entries, applyEntries]
  | object es => rw [apply, Value.entries]
  | heir parent es => rw [apply, Value.entries]
  | _ => cases h

/-! ## Alike values are shown alike -/

mutual

/-- At any depth, redaction shows alike values alike. -/
theorem apply_of_alike (r : Redaction) (depth : Number) : ∀ {v w : Value}, Alike r.fields v w →
    r.apply depth v = r.apply depth w
  | _, _, .same _ => rfl
  | _, _, .array h => by rw [apply, apply, applyItems_of_alike r (depth.add 1) h]
  | _, _, .object hv hw h => by
    rw [apply_of_isObject r depth hv, apply_of_isObject r depth hw, applyEntries_of_alike r (depth.add 1) h]

theorem applyItems_of_alike (r : Redaction) (depth : Number) : ∀ {vs ws : List Value}, AlikeItems r.fields vs ws →
    r.applyItems depth vs = r.applyItems depth ws
  | _, _, .nil => rfl
  | _, _, .cons h hrest => by
    rw [applyItems, applyItems, apply_of_alike r depth h, applyItems_of_alike r depth hrest]

theorem applyEntries_of_alike (r : Redaction) (depth : Number) : ∀ {es fs : List (String × Value)},
    AlikeEntries r.fields es fs →
    r.applyEntries depth (fun _ _ => true) es = r.applyEntries depth (fun _ _ => true) fs
  | _, _, .nil => rfl
  | _, _, .cons (v := v) (w := w) key h hrest => by
    -- A sensitive value is hidden before it is looked at; any other is alike.
    have hvalue : (if r.isSensitive key then hidden else r.apply depth v) =
        if r.isSensitive key then hidden else r.apply depth w := by
      split
      · rfl
      · next hplain => exact apply_of_alike r depth (h (hplain ∘ (isSensitive_iff r key).mpr))
    rw [applyEntries, applyEntries, hvalue, applyEntries_of_alike r depth hrest]

end

end Gateway.Redaction

namespace Gateway

/-! ## Alike runs leave the same records -/

/-- Incidents of one kind that differ at most in alike arguments, errors or results. -/
inductive Incident.Alike (fields : List String) : Incident → Incident → Prop where
  | procedureCall (procedure : String) {args args' : Value} (h : Redaction.Alike fields args args') :
    Incident.Alike fields (.procedureCall procedure args) (.procedureCall procedure args')
  | declaredError (procedure : String) {error error' : Value} (h : Redaction.Alike fields error error') :
    Incident.Alike fields (.declaredError procedure error) (.declaredError procedure error')
  | returnTypeMismatch (procedure returnType : String) {output output' : Value}
    (h : Redaction.Alike fields output output') :
    Incident.Alike fields (.returnTypeMismatch procedure returnType output)
      (.returnTypeMismatch procedure returnType output')

/-- Entries of the log that are the same, or events of one request with alike incidents. -/
inductive LogEntry.Alike (fields : List String) : LogEntry → LogEntry → Prop where
  | same (entry : LogEntry) : LogEntry.Alike fields entry entry
  | event (requestId : String) {i j : Incident} (h : i.Alike fields j) :
    LogEntry.Alike fields (.event ⟨requestId, i⟩) (.event ⟨requestId, j⟩)

theorem Incident.Alike.message_eq {fields : List String} {i j : Incident} (h : i.Alike fields j) :
    i.message = j.message := by
  cases h <;> rfl

theorem Incident.Alike.details_eq {l : Logger} {i j : Incident} (h : i.Alike l.redaction.fields j) :
    l.details i = l.details j := by
  cases h with
  | procedureCall procedure h => simp only [Logger.details, Redaction.redact, Redaction.apply_of_alike _ _ h]
  | declaredError procedure h => simp only [Logger.details, Redaction.redact, Redaction.apply_of_alike _ _ h]
  | returnTypeMismatch procedure returnType h =>
    simp only [Logger.details, Redaction.redact, Redaction.apply_of_alike _ _ h]

/-- Alike incidents are of one category, one kind and one level. -/
theorem Incident.Alike.kind_eq {fields : List String} {i j : Incident} (h : i.Alike fields j) :
    i.category = j.category ∧ i.name = j.name ∧ i.level = j.level := by
  cases h <;> exact ⟨rfl, rfl, rfl⟩

namespace Logger

theorem annotations_of_alike (l : Logger) (requestId : String) {i j : Incident} (h : i.Alike l.redaction.fields j) :
    l.annotations ⟨requestId, i⟩ = l.annotations ⟨requestId, j⟩ := by
  obtain ⟨hcategory, hname, -⟩ := h.kind_eq
  simp only [annotations, hcategory, hname, h.details_eq]

theorem record?_of_alike (l : Logger) {e f : LogEntry} (h : e.Alike l.redaction.fields f) :
    LogEntry.record? l e = LogEntry.record? l f := by
  cases h with
  | same entry => rfl
  | event requestId h =>
    obtain ⟨hcategory, -, hlevel⟩ := h.kind_eq
    simp only [LogEntry.record?, Logger.record?, hcategory, hlevel, h.message_eq, l.annotations_of_alike requestId h]

theorem records_of_alike (l : Logger) (least : LogLevel) {entries entries' : List LogEntry}
    (h : List.Forall₂ (LogEntry.Alike l.redaction.fields) entries entries') :
    LogEntry.records l least entries = LogEntry.records l least entries' := by
  have hrecords : entries.filterMap (LogEntry.record? l) = entries'.filterMap (LogEntry.record? l) := by
    induction h with
    | nil => rfl
    | cons he _ ih => rw [List.filterMap_cons, List.filterMap_cons, record?_of_alike l he, ih]
  rw [LogEntry.records, LogEntry.records, hrecords]

/-- Alike values are redacted alike at every depth and under all limits; events with alike arguments, errors or results
have the same message and the same annotations; and two runs that differ only so leave the same records. -/
theorem sensitive_values_unlogged :
    (∀ (r : Redaction) (depth : Number) (v w : Value), Redaction.Alike r.fields v w →
      r.apply depth v = r.apply depth w) ∧
    (∀ (l : Logger) (requestId : String) (i j : Incident), i.Alike l.redaction.fields j →
      i.message = j.message ∧ l.annotations ⟨requestId, i⟩ = l.annotations ⟨requestId, j⟩) ∧
    ∀ (l : Logger) (least : LogLevel) (entries entries' : List LogEntry),
      List.Forall₂ (LogEntry.Alike l.redaction.fields) entries entries' →
      LogEntry.records l least entries = LogEntry.records l least entries' := by
  refine ⟨?_, ?_, ?_⟩
  · intro r depth v w h
    exact r.apply_of_alike depth h
  · intro l requestId i j h
    exact ⟨h.message_eq, l.annotations_of_alike requestId h⟩
  · intro l least entries entries' h
    exact l.records_of_alike least h

/-- The arguments of a call with two secrets, one of them in an object inside a list. -/
def accountArguments (password key : Value) : Value :=
  .object [("user", .object [("name", .string "guest"), ("userPassword", password)]),
    ("sessions", .array [.object [("id", .number 1), ("ApiKEY2", key)]])]

theorem accountArguments_alike (password key password' key' : Value) :
    Redaction.Alike development.redaction.fields (accountArguments password key)
      (accountArguments password' key') := by
  have hpassword : Redaction.Sensitive development.redaction.fields "userPassword" :=
    (Redaction.isSensitive_iff _ _).mp (by decide +kernel)
  have hkey : Redaction.Sensitive development.redaction.fields "ApiKEY2" :=
    (Redaction.isSensitive_iff _ _).mp (by decide +kernel)
  refine .object rfl rfl (.cons "user" (fun _ => ?_) (.cons "sessions" (fun _ => ?_) .nil))
  · exact .object rfl rfl (.cons "name" (fun _ => .same _) (.cons _ (absurd hpassword) .nil))
  · refine .array (.cons ?_ .nil)
    exact .object rfl rfl (.cons "id" (fun _ => .same _) (.cons _ (absurd hkey) .nil))

theorem sensitive_values_unlogged_account :
    (Redaction.mk ["пароль"] 3 10).apply 1 (.object [("ПАРОЛЬ", .string "hunter2")]) =
        (Redaction.mk ["пароль"] 3 10).apply 1 (.object [("ПАРОЛЬ", .null)]) ∧
      development.redaction.redact (accountArguments (.string "hunter2") .null) =
        development.redaction.redact (accountArguments (.array []) (.bigint 7)) ∧
      development.annotations ⟨"req-1", .procedureCall "login" (accountArguments (.string "hunter2") .null)⟩ =
        development.annotations ⟨"req-1", .procedureCall "login" (accountArguments (.array []) (.bigint 7))⟩ ∧
      LogEntry.records development .debug
          [.event ⟨"req-1", .procedureCall "login" (accountArguments (.string "hunter2") .null)⟩, .breakdown] =
        LogEntry.records development .debug
          [.event ⟨"req-1", .procedureCall "login" (accountArguments (.array []) (.bigint 7))⟩, .breakdown] := by
  have halike := accountArguments_alike (.string "hunter2") .null (.array []) (.bigint 7)
  have hcapitals : Redaction.Sensitive ["пароль"] "ПАРОЛЬ" :=
    (Redaction.isSensitive_iff ⟨["пароль"], 3, 10⟩ _).mp (by decide +kernel)
  obtain ⟨hredaction, hevents, hruns⟩ := sensitive_values_unlogged
  refine ⟨hredaction _ 1 _ _ (.object rfl rfl (.cons _ (absurd hcapitals) .nil)),
    hredaction development.redaction 0 _ _ halike, ?_, ?_⟩
  · exact (hevents development "req-1" _ _ (.procedureCall "login" halike)).2
  · exact hruns development .debug _ _ (.cons (.event "req-1" (.procedureCall "login" halike)) (.cons (.same _) .nil))

end Logger

end Gateway
