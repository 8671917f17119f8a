import Gateway.Proofs.BoundArguments
import Gateway.Proofs.UnsignedReading

/-!
# Arguments written as JSON in the URI

A parameter that takes no text reads the JSON text of a value in the URI as it reads the value itself in the body
(`bindParameter_jsonText`): both are bound, to the same value, or both are refused as an invalid value of the same
parameter, or both end in the same fault of reading.  The only thing a JSON text changes is the sign of a zero
(`read?_text`), and that reading does not look at (`Schema.respects_decode`).
-/

namespace Gateway

/-! ## Reading the text of a value -/

namespace Json

open Value (unsigned unsignedItems unsignedEntries)

mutual

/-- A text keeps of data all but the signs of zeros. -/
theorem kept_eq_unsigned : ∀ {v : Value}, isData v = true → kept v = some v.unsigned
  | .null, _ | .bool _, _ | .string _, _ => rfl
  | .number n, h => by
    rw [isData] at h
    rw [kept, keptOfNumber, if_pos h, unsigned]
  | .array items, h => by rw [kept, keptItems_eq_unsigned h, unsigned]
  | .object entries, h => by
    rw [isData, Bool.and_eq_true] at h
    have hkeys : Entries.keys (unsignedEntries entries) = Entries.keys entries := by
      simp [Entries.keys]
    rw [kept, formOf_toJSON_of_haveData h.2, keptMembers_eq_unsigned h.2, keptObject,
      Entries.ofPairs_of_inOrder (Entries.inOrder_of_keys hkeys.symm h.1), unsigned]
  | .undefined, h | .bigint _, h | .symbol _, h | .function _ _, h | .date _, h | .error _ _, h
  | .raised _ _, h | .heir _ _, h => by cases h

theorem keptItems_eq_unsigned : ∀ {items : List Value}, areData items = true → keptItems items = unsignedItems items
  | [], _ => rfl
  | v :: rest, h => by
    rw [areData, Bool.and_eq_true] at h
    rw [keptItems, kept_eq_unsigned h.1, keptItems_eq_unsigned h.2, unsignedItems]
    rfl

theorem keptMembers_eq_unsigned : ∀ {entries : List (String × Value)}, haveData entries = true →
    keptMembers (fun _ _ => true) entries = unsignedEntries entries
  | [], _ => rfl
  | (key, v) :: rest, h => by
    rw [haveData, Bool.and_eq_true] at h
    rw [keptMembers, if_pos rfl, kept_eq_unsigned h.1, keptMembers_eq_unsigned h.2, unsignedEntries]

end

/-- Data has a JSON text, and reading it gives the data without negative zeros. -/
theorem read?_text {v : Value} (h : isData v = true) : ∃ text, text? v = some text ∧ read? text = some v.unsigned := by
  obtain ⟨written, hwritten⟩ := write_isOk h
  have hreads := reads_write hwritten
  rw [kept_eq_unsigned h] at hreads
  cases hreads with
  | some hreads => exact ⟨_, by rw [text?, hwritten], read?_of_reads hreads⟩

end Json

/-! ## Binding from both sides -/

namespace Binding

variable (defs : Definitions) (procedure : String) (p : Parameter)

/-- What comes of a value in the URI, as its text, and in the body: the same argument up to the signs of zeros, or
refusals of an invalid value that name the same parameter and the same expected type, or the same fault. -/
inductive Agrees (v : Value) : Except CallFault Value → Except CallFault Value → Prop where
  | bound {x y : Value} (h : x.unsigned = y.unsigned) : Agrees v (.ok x) (.ok y)
  | refused :
    Agrees v
      (.error (.refused (.invalidArgumentValue procedure p.wireName "string" (p.schema.describe defs) none)))
      (.error (.refused (.invalidArgumentValue procedure p.wireName v.typeName (p.schema.describe defs) none)))
  | broken (fault : Fault) : Agrees v (.error (.broken fault)) (.error (.broken fault))

variable {defs procedure p}

theorem agrees_settle (v : Value) (text : String) {a b : Verdict Value}
    (h : a.map Value.unsigned = b.map Value.unsigned) :
    Agrees defs procedure p v (settle a (invalid defs procedure p (.string text)))
      (settle b (invalid defs procedure p v)) := by
  rcases Verdict.cases_of_map h with ⟨x, y, rfl, rfl, hxy⟩ | ⟨rfl, rfl⟩ | ⟨fault, rfl, rfl⟩
  · exact .bound hxy
  · exact .refused
  · exact .broken fault

/-- A parameter that is no list, and does not take the text in the URI as it stands, reads it as JSON. -/
theorem bindParameter_ofUri {uri : Payload} {text : String} (hlist : p.isList defs = false)
    (hrefused : p.schema.decode defs (.string text) = .refused)
    (htext : Entries.get? uri.values p.wireName = some (.string text)) (huri : p.wireName ∈ uri.fromUri) {v : Value}
    (hread : Json.read? text = some v) :
    bindParameter defs procedure uri p =
      settle (p.schema.decode defs v) (invalid defs procedure p (.string text)) := by
  simp [bindParameter, htext, huri, bindUri, isList, hlist, hrefused, Verdict.orElse, readTexts, hread]

theorem bindParameter_ofBody {body : Payload} {v : Value} (hvalue : Entries.get? body.values p.wireName = some v)
    (hbody : p.wireName ∉ body.fromUri) :
    bindParameter defs procedure body p = settle (p.schema.decode defs v) (invalid defs procedure p v) := by
  simp [bindParameter, hvalue, hbody, bindBody]

/-- A parameter that is no list and takes no text is bound alike to a value in the body and to its JSON text in the
URI; to the very same value if no zero in it is negative. -/
theorem bindParameter_jsonText (hlist : p.isList defs = false)
    (hstrings : ∀ s, p.schema.decode defs (.string s) = .refused) {v : Value} (hv : Json.isData v = true) :
    ∃ text, Json.text? v = some text ∧
      ∀ uri body : Payload, Entries.get? uri.values p.wireName = some (.string text) → p.wireName ∈ uri.fromUri →
        Entries.get? body.values p.wireName = some v → p.wireName ∉ body.fromUri →
        Agrees defs procedure p v (bindParameter defs procedure uri p) (bindParameter defs procedure body p) ∧
        (Json.isJson v = true → ∀ x,
          bindParameter defs procedure uri p = .ok x ↔ bindParameter defs procedure body p = .ok x) := by
  obtain ⟨text, htext, hread⟩ := Json.read?_text hv
  refine ⟨text, htext, ?_⟩
  intro uri body huri hmem hbody hnotmem
  rw [bindParameter_ofUri hlist (hstrings text) huri hmem hread, bindParameter_ofBody hbody hnotmem]
  constructor
  · exact agrees_settle v text (Schema.respects_decode defs p.schema _ _ (Value.unsigned_unsigned v))
  · intro hwhole x
    have hsame : v.unsigned = v :=
      Option.some.inj ((Json.kept_eq_unsigned hv).symm.trans (Json.kept_of_isJson hwhole))
    rw [hsame, settle_eq_ok_iff, settle_eq_ok_iff]

/-- A parameter that is an object with a number and a list of texts. -/
def markParameter : Parameter :=
  ⟨"mark", "mark", .struct none [Schema.required "x" .number, Schema.required "names" (.array .string)]⟩

/-- A value of `markParameter` with a negative zero, and with an entry that is dropped. -/
def mark : Value :=
  .object [("x", .number .negZero), ("names", .array [.string "a\"b"]), ("more", .null)]

/-- The JSON text of `mark`. -/
def markText : String :=
  "\x7b\"x\":0,\"names\":[\"a\\\"b\"],\"more\":null\x7d"

theorem bindParameter_jsonText_mark :
    Json.text? mark = some markText ∧
      ∃ x y, bindParameter [] "draw" ⟨[("mark", .string markText)], ["mark"]⟩ markParameter = .ok x ∧
        bindParameter [] "draw" ⟨[("mark", mark)], []⟩ markParameter = .ok y ∧ x.unsigned = y.unsigned := by
  have htext : Json.text? mark = some markText := by decide +kernel
  have hlist : markParameter.isList [] = false := by decide +kernel
  have hstrings : ∀ s, markParameter.schema.decode [] (.string s) = .refused := fun s => rfl
  have hdata : Json.isData mark = true := by decide +kernel
  obtain ⟨text, hfound, hbind⟩ := @bindParameter_jsonText [] "draw" markParameter hlist hstrings mark hdata
  obtain rfl := Option.some.inj (hfound.symm.trans htext)
  obtain ⟨hagrees, -⟩ := hbind ⟨[("mark", .string markText)], ["mark"]⟩ ⟨[("mark", mark)], []⟩ rfl (by decide) rfl
    (by decide)
  have hbody : ∃ y, bindParameter [] "draw" ⟨[("mark", mark)], []⟩ markParameter = .ok y := ⟨_, rfl⟩
  obtain ⟨y, hy⟩ := hbody
  rw [hy] at hagrees
  generalize bindParameter [] "draw" ⟨[("mark", .string markText)], ["mark"]⟩ markParameter = outcome at hagrees ⊢
  cases hagrees with
  | @bound x _ h => exact ⟨htext, x, y, rfl, hy, h⟩

/-- A parameter that is a number, or an object with a literal. -/
def choiceParameter : Parameter :=
  ⟨"x", "x", .union [.struct none [Schema.required "k" (.literal (.string "a"))], .number]⟩

theorem decode_choice_string (s : String) : choiceParameter.schema.decode [] (.string s) = .refused := by
  have hprepare : Schema.prepare [] .decode choiceParameter.schema = .ok () := rfl
  have hfiling : Schema.Filing.ofMembers [] .wire
      [.struct none [Schema.required "k" (.literal (.string "a"))], .number] = .ok ⟨[("k", [("a", [0])])], [1]⟩ := rfl
  rw [Schema.decode, Schema.run, Schema.walk, hprepare]
  simp only [Verdict.after, choiceParameter, Schema.convert, Schema.candidates, Schema.Direction.side, hfiling,
    Except.bind, Schema.Filing.candidates]
  rfl

/-- An object without a text, where the text of a literal is looked for. -/
def textless : Value :=
  .object [("k", .object [("toString", .number 1)])]

/-- The JSON text of `textless`. -/
def textlessText : String :=
  "\x7b\"k\":\x7b\"toString\":1\x7d\x7d"

/-- A parameter that takes no text may neither bind nor refuse a value and its JSON text: reading ends in a fault. -/
theorem textless_literal_breaks :
    choiceParameter.isList [] = false ∧ (∀ s, choiceParameter.schema.decode [] (.string s) = .refused) ∧
      Json.isData textless = true ∧ Json.text? textless = some textlessText ∧
      bindParameter [] "p" ⟨[("x", .string textlessText)], ["x"]⟩ choiceParameter = .error (.broken .noPrimitive) ∧
      bindParameter [] "p" ⟨[("x", textless)], []⟩ choiceParameter = .error (.broken .noPrimitive) := by
  have hlist : choiceParameter.isList [] = false := by decide +kernel
  have hdata : Json.isData textless = true := by decide +kernel
  have htext : Json.text? textless = some textlessText := by decide +kernel
  have hbroken : choiceParameter.schema.decode [] textless = .broken .noPrimitive :=
    (Verdict.stop?_eq_broken_iff _ _).mp (by decide +kernel)
  refine ⟨hlist, decode_choice_string, hdata, htext, ?_, ?_⟩
  · obtain ⟨text, hfound, hread⟩ := Json.read?_text hdata
    obtain rfl := Option.some.inj (hfound.symm.trans htext)
    have hunsigned : textless.unsigned = textless := by rfl
    rw [bindParameter_ofUri hlist (decode_choice_string _) rfl (by decide) hread, hunsigned, hbroken]
    rfl
  · rw [bindParameter_ofBody rfl (by decide), hbroken]
    rfl

end Binding

end Gateway
