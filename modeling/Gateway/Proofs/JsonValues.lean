import Gateway.Http.Message
import Gateway.Proofs.EntryKeys
import Gateway.Proofs.JsonTexts
import Gateway.Proofs.Utf8Bytes

/-!
# JSON values survive the wire

The body of a JSON answer is read as what JSON keeps of the value in it (`read?_body`).  `isJson` tells the values that
are kept whole: null, truths, finite numbers other than the negative zero, texts, and lists and objects of such values.
-/

namespace Gateway.Json

/-! ## Values that are kept whole -/

mutual

/-- Whether a JSON text keeps a value whole. -/
def isJson : Value → Bool
  | .null | .bool _ | .string _ => true
  | .number n => hasNumeral n && n != .negZero
  | .array items => areJson items
  | .object entries => Entries.inOrder entries && haveJson entries
  | _ => false

/-- Whether all items of a list are kept whole. -/
def areJson : List Value → Bool
  | [] => true
  | v :: rest => isJson v && areJson rest

/-- Whether the values of all entries are kept whole. -/
def haveJson : List (String × Value) → Bool
  | [] => true
  | (_, v) :: rest => isJson v && haveJson rest

end

mutual

/-- Whether a value is a tree of lists and objects over scalars that a JSON text may keep or not. -/
def isTree : Value → Bool
  | .null | .bool _ | .string _ | .number _ | .undefined => true
  | .array items => areTrees items
  | .object entries => Entries.inOrder entries && haveTrees entries
  | _ => false

/-- Whether all items of a list are trees. -/
def areTrees : List Value → Bool
  | [] => true
  | v :: rest => isTree v && areTrees rest

/-- Whether the values of all entries are trees. -/
def haveTrees : List (String × Value) → Bool
  | [] => true
  | (_, v) :: rest => isTree v && haveTrees rest

end

mutual

/-- Whether nothing in a tree is undefined, no number is infinite or none, and no zero is negative. -/
def keepsScalars : Value → Bool
  | .undefined => false
  | .number n => hasNumeral n && n != .negZero
  | .array items => allKeepScalars items
  | .object entries => entriesKeepScalars entries
  | _ => true

/-- The same for the items of a list. -/
def allKeepScalars : List Value → Bool
  | [] => true
  | v :: rest => keepsScalars v && allKeepScalars rest

/-- The same for the values of all entries. -/
def entriesKeepScalars : List (String × Value) → Bool
  | [] => true
  | (_, v) :: rest => keepsScalars v && entriesKeepScalars rest

end

mutual

/-- A tree is kept whole if its scalars are. -/
theorem isJson_of_isTree : ∀ {v : Value}, isTree v = true → keepsScalars v = true → isJson v = true
  | .null, _, _ | .bool _, _, _ | .string _, _, _ => rfl
  | .number _, _, hkeeps => hkeeps
  | .array _, htree, hkeeps => areJson_of_areTrees htree hkeeps
  | .object entries, htree, hkeeps => by
    rw [isTree, Bool.and_eq_true] at htree
    rw [isJson, htree.1, haveJson_of_haveTrees htree.2 hkeeps]
    rfl
  | .undefined, _, h => by cases h
  | .bigint _, h, _ | .symbol _, h, _ | .function _ _, h, _ | .date _, h, _ | .error _ _, h, _
  | .raised _ _, h, _ | .heir _ _, h, _ => by cases h

theorem areJson_of_areTrees : ∀ {items : List Value}, areTrees items = true → allKeepScalars items = true →
    areJson items = true
  | [], _, _ => rfl
  | v :: rest, htree, hkeeps => by
    rw [areTrees, Bool.and_eq_true] at htree
    rw [allKeepScalars, Bool.and_eq_true] at hkeeps
    rw [areJson, isJson_of_isTree htree.1 hkeeps.1, areJson_of_areTrees htree.2 hkeeps.2]
    rfl

theorem haveJson_of_haveTrees : ∀ {entries : List (String × Value)}, haveTrees entries = true →
    entriesKeepScalars entries = true → haveJson entries = true
  | [], _, _ => rfl
  | (key, v) :: rest, htree, hkeeps => by
    rw [haveTrees, Bool.and_eq_true] at htree
    rw [entriesKeepScalars, Bool.and_eq_true] at hkeeps
    rw [haveJson, isJson_of_isTree htree.1 hkeeps.1, haveJson_of_haveTrees htree.2 hkeeps.2]
    rfl

end

theorem areTrees_iff (items : List Value) : areTrees items = true ↔ ∀ v ∈ items, isTree v = true := by
  induction items with
  | nil => simp [areTrees]
  | cons v rest ih => simp [areTrees, ih]

theorem haveTrees_iff (entries : List (String × Value)) :
    haveTrees entries = true ↔ ∀ e ∈ entries, isTree e.2 = true := by
  induction entries with
  | nil => simp [haveTrees]
  | cons e rest ih => simp [haveTrees, ih]

theorem isJson_of_get? {es : Entries Value} (h : haveJson es = true) {key : String} {v : Value}
    (hv : Entries.get? es key = some v) : isJson v = true := by
  induction es with
  | nil => cases hv
  | cons e rest ih =>
    rw [haveJson, Bool.and_eq_true] at h
    rw [Entries.get?_cons] at hv
    split at hv
    · obtain rfl := Option.some.inj hv
      exact h.1
    · exact ih h.2 hv

/-- An object is written entry by entry if its own answer to `toJSON`, where it has one, asks for that. -/
theorem formOf_toJSON_of_get? {es : Entries Value}
    (h : ∀ v, Entries.get? es "toJSON" = some v → formOf v = .entries) :
    formOf ((Value.object es).member "toJSON") = .entries := by
  have hmember : (Value.object es).member "toJSON" = (Entries.get? es "toJSON").getD .undefined := rfl
  rw [hmember]
  cases hget : Entries.get? es "toJSON" with
  | none => rfl
  | some v => exact h v hget

/-- An object of JSON values answers to `toJSON` with no function. -/
theorem formOf_toJSON {es : Entries Value} (h : haveJson es = true) :
    formOf ((Value.object es).member "toJSON") = .entries := by
  refine formOf_toJSON_of_get? ?_
  intro v hget
  have hv := isJson_of_get? h hget
  cases v with
  | function name routine => cases hv
  | _ => rfl

mutual

theorem kept_of_isJson : ∀ {v : Value}, isJson v = true → kept v = some v
  | .null, _ | .bool _, _ | .string _, _ => rfl
  | .number n, h => by
    simp only [isJson, Bool.and_eq_true, bne_iff_ne] at h
    have hkept : keptNumber n = n := by
      cases n with
      | negZero => exact absurd rfl h.2
      | _ => rfl
    simp [kept, keptOfNumber, h.1, hkept]
  | .array items, h => by
    rw [kept, keptItems_of_areJson h]
  | .object entries, h => by
    rw [isJson, Bool.and_eq_true] at h
    rw [kept, formOf_toJSON h.2, keptMembers_of_haveJson h.2, keptObject, Entries.ofPairs_of_inOrder h.1]
  | .undefined, h | .bigint _, h | .symbol _, h | .function _ _, h | .date _, h | .error _ _, h
  | .raised _ _, h | .heir _ _, h => by cases h

theorem keptItems_of_areJson : ∀ {items : List Value}, areJson items = true → keptItems items = items
  | [], _ => rfl
  | v :: rest, h => by
    rw [areJson, Bool.and_eq_true] at h
    rw [keptItems, kept_of_isJson h.1, keptItems_of_areJson h.2, Option.getD_some]

theorem keptMembers_of_haveJson : ∀ {entries : List (String × Value)}, haveJson entries = true →
    keptMembers (fun _ _ => true) entries = entries
  | [], _ => rfl
  | (key, v) :: rest, h => by
    rw [haveJson, Bool.and_eq_true] at h
    rw [keptMembers, if_pos rfl, kept_of_isJson h.1, keptMembers_of_haveJson h.2]

end

/-! ## Whole texts and bodies -/

theorem endsNumber_nil : EndsNumber [] := by
  constructor <;> intros <;> simp_all

theorem read?_of_reads {cs : List Char} {v : Value} (h : Reads cs v) : read? (String.ofList cs) = some v := by
  have hread := h.read (Nat.le_succ cs.length) endsNumber_nil
  rw [List.append_nil] at hread
  rw [read?, String.toList_ofList, readChars?, hread]
  rfl

/-- A text that starts with a plain character is read back from its bytes. -/
theorem decodeDocument_encode {c : Char} (hc : c.toNat < 0x80) (cs : List Char) :
    Text.Utf8.decodeDocument (Text.Utf8.encode (String.ofList (c :: cs))) = String.ofList (c :: cs) := by
  have hbytes : Text.Utf8.encode (String.ofList (c :: cs)) =
      UInt8.ofNat c.toNat :: cs.flatMap Text.Utf8.encodeChar := by
    simp [Text.Utf8.encode, Text.Utf8.encodeChar, hc]
  have hfirst : UInt8.ofNat c.toNat ≠ 0xEF := by
    intro h
    have hnat := congrArg UInt8.toNat h
    rw [UInt8.toNat_ofNat_of_lt' (Nat.lt_trans hc (by decide))] at hnat
    have : c.toNat = 0xEF := hnat
    omega
  rw [Text.Utf8.decodeDocument]
  · exact Text.Utf8.decodeLossy_encode _
  · intro bs h
    rw [hbytes] at h
    exact hfirst (List.cons.inj h).1

/-- The body of a JSON answer is read as what JSON keeps of the value in it. -/
theorem read?_body {status : Number} {v : Value} {r : Response} (h : Response.json status v = .ok r) :
    read? (Text.Utf8.decodeDocument r.body) = kept v := by
  unfold Response.json at h
  cases hwrite : write v with
  | error f =>
    rw [hwrite] at h
    cases h
  | ok text =>
    have hread := reads_write hwrite
    rw [hwrite] at h
    obtain rfl := Except.ok.inj h
    generalize kept v = w at hread
    cases hread with
    | none => rfl
    | @some cs w hcs =>
      -- A text of a value starts with a plain character, so its bytes start with no byte order mark.
      obtain ⟨c, more, rfl, hc⟩ := hcs.start
      have hbody := decodeDocument_encode hc.2.2 more
      simp only [Option.map_some, Option.getD_some, hbody]
      exact read?_of_reads hcs

end Gateway.Json
