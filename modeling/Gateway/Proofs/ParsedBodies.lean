import Gateway.Call.Payload
import Gateway.Proofs.JsonValues

/-!
# Written objects are parsed again

The body of a JSON answer with an object in it is a body that the gateway takes arguments from (`parseBody_json`): it
holds an equal object, with the same keys in the same order at every depth.  `isData` tells the values this is about;
a key may be any text, the reserved one included, as long as the keys of an object are different and stand in the order
of an object.  Equal does not mean identical: a negative zero comes back as zero.
-/

namespace Gateway.Json

/-! ## Data and equality of data -/

mutual

/-- Whether a value is null, a truth, a finite number, a text, or a list or an object of such values. -/
def isData : Value → Bool
  | .null | .bool _ | .string _ => true
  | .number n => hasNumeral n
  | .array items => areData items
  | .object entries => Entries.inOrder entries && haveData entries
  | _ => false

/-- Whether all items of a list are data. -/
def areData : List Value → Bool
  | [] => true
  | v :: rest => isData v && areData rest

/-- Whether the values of all entries are data. -/
def haveData : List (String × Value) → Bool
  | [] => true
  | (_, v) :: rest => isData v && haveData rest

end

mutual

/-- Equality of data: numbers as quantities, lists item by item, objects key by key in their order. -/
inductive Equal : Value → Value → Prop where
  | null : Equal .null .null
  | bool (b : Bool) : Equal (.bool b) (.bool b)
  | number {m n : Number} (h : m.same n = true) : Equal (.number m) (.number n)
  | string (s : String) : Equal (.string s) (.string s)
  | array {vs ws : List Value} (h : EqualItems vs ws) : Equal (.array vs) (.array ws)
  | object {es fs : Entries Value} (h : EqualEntries es fs) : Equal (.object es) (.object fs)

/-- Lists of the same length with equal items. -/
inductive EqualItems : List Value → List Value → Prop where
  | nil : EqualItems [] []
  | cons {v w : Value} {vs ws : List Value} (h : Equal v w) (hrest : EqualItems vs ws) :
    EqualItems (v :: vs) (w :: ws)

/-- The same keys in the same order with equal values. -/
inductive EqualEntries : List (String × Value) → List (String × Value) → Prop where
  | nil : EqualEntries [] []
  | cons (key : String) {v w : Value} {es fs : List (String × Value)} (h : Equal v w)
    (hrest : EqualEntries es fs) : EqualEntries ((key, v) :: es) ((key, w) :: fs)

end

theorem EqualEntries.keys_eq : ∀ {es fs : Entries Value}, EqualEntries es fs → Entries.keys es = Entries.keys fs
  | _, _, .nil => rfl
  | _, _, .cons key _ hrest => by rw [Entries.keys_cons, Entries.keys_cons, hrest.keys_eq]

theorem haveData_iff (es : List (String × Value)) : haveData es = true ↔ ∀ e ∈ es, isData e.2 = true := by
  induction es with
  | nil => simp [haveData]
  | cons e rest ih => simp [haveData, ih]

/-- An object of data answers to `toJSON` with no function. -/
theorem formOf_toJSON_of_haveData {es : Entries Value} (h : haveData es = true) :
    formOf ((Value.object es).member "toJSON") = .entries := by
  refine formOf_toJSON_of_get? ?_
  intro v hget
  have hv := (haveData_iff es).mp h _ (Entries.mem_of_get? hget)
  cases v with
  | function name routine => cases hv
  | _ => rfl

/-! ## Data is written -/

mutual

/-- Data can be written. -/
theorem write_isOk : ∀ {v : Value}, isData v = true → ∃ text, write v = .ok text
  | .null, _ | .bool _, _ | .number _, _ | .string _, _ => ⟨_, rfl⟩
  | .array items, h => by
    obtain ⟨parts, hparts⟩ := writeItems_isOk h
    exact ⟨_, by rw [write, hparts]; rfl⟩
  | .object entries, h => by
    rw [isData, Bool.and_eq_true] at h
    obtain ⟨parts, hparts⟩ := writeMembers_isOk h.2
    exact ⟨_, by rw [write, formOf_toJSON_of_haveData h.2, hparts]; rfl⟩
  | .undefined, h | .bigint _, h | .symbol _, h | .function _ _, h | .date _, h | .error _ _, h
  | .raised _ _, h | .heir _ _, h => by cases h

theorem writeItems_isOk : ∀ {items : List Value}, areData items = true → ∃ parts, writeItems items = .ok parts
  | [], _ => ⟨_, rfl⟩
  | v :: rest, h => by
    rw [areData, Bool.and_eq_true] at h
    obtain ⟨text, htext⟩ := write_isOk h.1
    obtain ⟨parts, hparts⟩ := writeItems_isOk h.2
    exact ⟨_, by rw [writeItems, htext, hparts]; rfl⟩

theorem writeMembers_isOk : ∀ {entries : List (String × Value)}, haveData entries = true →
    ∃ parts, writeMembers (fun _ _ => true) entries = .ok parts
  | [], _ => ⟨_, rfl⟩
  | (key, v) :: rest, h => by
    rw [haveData, Bool.and_eq_true] at h
    obtain ⟨text, htext⟩ := write_isOk h.1
    obtain ⟨parts, hparts⟩ := writeMembers_isOk h.2
    rw [writeMembers, if_pos rfl, htext, hparts]
    cases text with
    | none => exact ⟨_, rfl⟩
    | some cs => exact ⟨_, rfl⟩

end

/-! ## Data is kept -/

/-- A text keeps a finite number as a quantity. -/
theorem keptNumber_same {n : Number} (h : hasNumeral n = true) : (keptNumber n).same n = true := by
  cases n with
  | nan => cases h
  | infinity negative => cases h
  | negZero => rfl
  | int n => simp [keptNumber, Number.same, Number.compare?, Number.parts?, Number.compareParts]
  | scaled negative m e hscaled =>
    simp [keptNumber, Number.same, Number.compare?, Number.parts?, Number.compareParts]

mutual

/-- A text keeps an equal value of data. -/
theorem kept_of_isData : ∀ {v : Value}, isData v = true → ∃ w, kept v = some w ∧ Equal w v
  | .null, _ => ⟨_, rfl, .null⟩
  | .bool b, _ => ⟨_, rfl, .bool b⟩
  | .string s, _ => ⟨_, rfl, .string s⟩
  | .number n, h => by
    rw [isData] at h
    exact ⟨_, by rw [kept, keptOfNumber, if_pos h], .number (keptNumber_same h)⟩
  | .array items, h => ⟨_, rfl, .array (keptItems_of_areData h)⟩
  | .object entries, h => by
    rw [isData, Bool.and_eq_true] at h
    have hentries := keptMembers_of_haveData h.2
    -- The members that are read have the keys of the object, so they are in order as well.
    have hmembers := Entries.ofPairs_of_inOrder (Entries.inOrder_of_keys hentries.keys_eq.symm h.1)
    exact ⟨_, by rw [kept, formOf_toJSON_of_haveData h.2, keptObject, hmembers], .object hentries⟩
  | .undefined, h | .bigint _, h | .symbol _, h | .function _ _, h | .date _, h | .error _ _, h
  | .raised _ _, h | .heir _ _, h => by cases h

theorem keptItems_of_areData : ∀ {items : List Value}, areData items = true → EqualItems (keptItems items) items
  | [], _ => .nil
  | v :: rest, h => by
    rw [areData, Bool.and_eq_true] at h
    obtain ⟨w, hkept, hequal⟩ := kept_of_isData h.1
    rw [keptItems, hkept]
    exact .cons hequal (keptItems_of_areData h.2)

theorem keptMembers_of_haveData : ∀ {entries : List (String × Value)}, haveData entries = true →
    EqualEntries (keptMembers (fun _ _ => true) entries) entries
  | [], _ => .nil
  | (key, v) :: rest, h => by
    rw [haveData, Bool.and_eq_true] at h
    obtain ⟨w, hkept, hequal⟩ := kept_of_isData h.1
    rw [keptMembers, if_pos rfl, hkept]
    exact .cons key hequal (keptMembers_of_haveData h.2)

end

/-! ## Bodies -/

/-- A body is parsed as the object that is read from its text. -/
theorem parseBody_of_read? {body : Bytes} {es : Entries Value}
    (h : read? (Text.Utf8.decodeDocument body) = some (.object es)) : Payload.parseBody body = .ok es := by
  have hne : Text.Utf8.decodeDocument body ≠ "" := by
    intro hempty
    rw [hempty] at h
    cases h
  simp only [Payload.parseBody, if_neg hne, h]

/-- An object of data is written, and its body is parsed as an equal object with the keys in the same order; the very
same object if no zero in it is negative. -/
theorem parseBody_json (status : Number) {es : Entries Value} (h : isData (.object es) = true) :
    ∃ r w, Response.json status (.object es) = .ok r ∧ r.status = status ∧ Payload.parseBody r.body = .ok w ∧
      Equal (.object w) (.object es) ∧ (isJson (.object es) = true → w = es) := by
  obtain ⟨text, htext⟩ := write_isOk h
  obtain ⟨v, hkept, hequal⟩ := kept_of_isData h
  obtain ⟨r, hr, hstatus⟩ : ∃ r, Response.json status (.object es) = .ok r ∧ r.status = status :=
    ⟨_, by rw [Response.json, htext]; rfl, rfl⟩
  have hread := read?_body hr
  cases hequal with
  | @object w _ hentries =>
    refine ⟨r, w, hr, hstatus, parseBody_of_read? (hread.trans hkept), .object hentries, ?_⟩
    intro hwhole
    rw [kept_of_isJson hwhole] at hkept
    exact (Value.object.inj (Option.some.inj hkept)).symm

/-- A nested object with index-like keys, the reserved key, escapes, a byte order mark and a text outside the basic
plane. -/
def nestedSample (n : Number) : Entries Value :=
  [("2", .number n), ("10", .array [.null, .object [("0", .bool true), ("", .array [])]]),
    ("__proto__", .object [("__proto__", .null), ("\"\\\n\x01\u007f", .string "\ufeffé😀\x1f/")]),
    ("toJSON", .string ""), ("02", .number (Number.ofInt (-9007199254740991)))]

theorem parseBody_json_nestedSample :
    (∃ r, Response.json 200 (.object (nestedSample 0)) = .ok r ∧ Payload.parseBody r.body = .ok (nestedSample 0)) ∧
      ∃ r w, Response.json 200 (.object (nestedSample .negZero)) = .ok r ∧ Payload.parseBody r.body = .ok w ∧
        Equal (.object w) (.object (nestedSample .negZero)) := by
  constructor
  · have h : isData (.object (nestedSample 0)) = true := by decide +kernel
    obtain ⟨r, w, hr, -, hparsed, -, hwhole⟩ := parseBody_json 200 h
    rw [hwhole (by decide +kernel)] at hparsed
    exact ⟨r, hr, hparsed⟩
  · have h : isData (.object (nestedSample .negZero)) = true := by decide +kernel
    obtain ⟨r, w, hr, -, hparsed, hequal, -⟩ := parseBody_json 200 h
    exact ⟨r, w, hr, hparsed, hequal⟩

end Gateway.Json
