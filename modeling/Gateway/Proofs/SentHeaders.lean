import Gateway.Proofs.EntryKeys
import Gateway.Proofs.MergedHeaders
import Gateway.Transport.Stream

/-!
# Headers as an object

The headers of a response are written to a stream as an object, one after the other: a value is put after what the
object answers to its name.  Every object answers to some names before anything is written, so the values of such a
name stand after the text of a member, and the reserved name is not written at all.  All other names are listed once
each, with just their own values (`ofResponse_groups_iff`).
-/

namespace Gateway.SentResponse

open Headers (names joined appended)

/-! ## What an object answers -/

/-- The text that every object answers to a name. -/
def memberText? (name : String) : Option String :=
  match Member.find name with
  | .absent => none
  | .function f _ => some (Member.sourceText f)
  | .shared => some (Value.object []).kindText

theorem memberText?_eq_none_iff (name : String) : memberText? name = none ↔ Member.find name = .absent := by
  unfold memberText?
  cases Member.find name <;> simp

theorem listed?_eq (es : Entries String) (name : String) :
    listed? es name = (Entries.get? es name).or (memberText? name) := by
  unfold listed? memberText?
  cases Entries.get? es name with
  | none => cases Member.find name <;> rfl
  | some value => rfl

theorem addHeader_eq (es : Entries String) (name value : String) :
    addHeader es name value = Entries.store es name (appended (listed? es name) value) := by
  unfold addHeader appended
  cases listed? es name <;> rfl

/-! ## Writing one header -/

theorem get?_addHeader {name : String} (hname : name ≠ Entries.reservedKey) (es : Entries String)
    (added value : String) :
    Entries.get? (addHeader es added value) name =
      if name = added then some (appended (listed? es name) value) else Entries.get? es name := by
  rw [addHeader_eq, Entries.get?_store hname]
  split
  · rename_i hsame
    rw [hsame]
  · rfl

theorem listed?_addHeader {name : String} (hname : name ≠ Entries.reservedKey) (es : Entries String)
    (h : String × String) :
    listed? (addHeader es h.1 h.2) name =
      if h.1 == name then some (appended (listed? es name) h.2) else listed? es name := by
  rw [listed?_eq, get?_addHeader hname]
  by_cases hsame : name = h.1
  · rw [if_pos hsame, if_pos (by simp [hsame]), Option.some_or]
  · rw [if_neg hsame, if_neg (by simpa using Ne.symm hsame), listed?_eq]

theorem mem_keys_addHeader {name : String} (hname : name ≠ Entries.reservedKey) (es : Entries String)
    (added value : String) :
    name ∈ Entries.keys (addHeader es added value) ↔ name = added ∨ name ∈ Entries.keys es := by
  rw [← Entries.get?_isSome_iff, get?_addHeader hname, ← Entries.get?_isSome_iff]
  split
  · rename_i hsame
    simp [hsame]
  · rename_i hother
    simp [hother]

/-! ## Writing a list of headers -/

/-- The object of a list of headers, in the order in which it is written. -/
def object (headers : Headers) : Entries String :=
  headers.foldl (fun es h => addHeader es h.1 h.2) []

/-- The values that are listed under just this name, in order. -/
def exactValues (headers : Headers) (name : String) : List String :=
  (headers.filter fun h => h.1 == name).map (·.2)

theorem exactValues_ne_nil {headers : Headers} {name : String} (h : name ∈ names headers) :
    exactValues headers name ≠ [] := by
  obtain ⟨header, hmem, rfl⟩ := List.mem_map.mp h
  have hvalue : header.2 ∈ exactValues headers header.1 :=
    List.mem_map_of_mem (List.mem_filter.mpr ⟨hmem, by simp⟩)
  exact List.ne_nil_of_mem hvalue

theorem listed?_object {name : String} (hname : name ≠ Entries.reservedKey) (headers : Headers) :
    listed? (object headers) name = joined ((memberText? name).toList ++ exactValues headers name) :=
  Headers.seen_foldl (listed? · name) (fun es h => addHeader es h.1 h.2) (fun h => h.1 == name)
    (listed?_addHeader hname) headers []

theorem reservedKey_not_mem_object (headers : Headers) : Entries.reservedKey ∉ Entries.keys (object headers) := by
  refine List.foldlRecOn (motive := fun es => Entries.reservedKey ∉ Entries.keys es) headers _ List.not_mem_nil ?_
  intro es hes h _
  rw [addHeader_eq]
  exact Entries.reservedKey_not_mem_store hes _ _

theorem nodup_keys_object (headers : Headers) : (Entries.keys (object headers)).Nodup := by
  refine List.foldlRecOn (motive := fun es => (Entries.keys es).Nodup) headers _ List.nodup_nil ?_
  intro es hes h _
  rw [addHeader_eq]
  exact Entries.nodup_keys_store hes _ _

theorem mem_keys_foldl_addHeader {name : String} (hname : name ≠ Entries.reservedKey) (headers : Headers)
    (es : Entries String) :
    name ∈ Entries.keys (headers.foldl (fun es h => addHeader es h.1 h.2) es) ↔
      name ∈ Entries.keys es ∨ name ∈ names headers := by
  induction headers generalizing es with
  | nil => simp [names]
  | cons h rest ih =>
    rw [List.foldl_cons, ih, mem_keys_addHeader hname, Headers.names_cons, List.mem_cons]
    tauto

theorem mem_keys_object (headers : Headers) (name : String) :
    name ∈ Entries.keys (object headers) ↔ name ∈ names headers ∧ name ≠ Entries.reservedKey := by
  by_cases hname : name = Entries.reservedKey
  · subst hname
    simpa using reservedKey_not_mem_object headers
  · simp [object, mem_keys_foldl_addHeader hname, hname]

theorem get?_object {headers : Headers} {name : String} (h : name ∈ names headers)
    (hname : name ≠ Entries.reservedKey) :
    Entries.get? (object headers) name =
      some (", ".intercalate ((memberText? name).toList ++ exactValues headers name)) := by
  obtain ⟨value, hvalue⟩ := Option.isSome_iff_exists.mp
    ((Entries.get?_isSome_iff _ _).mpr ((mem_keys_object headers name).mpr ⟨h, hname⟩))
  have hlisted := listed?_object hname headers
  rw [listed?_eq, hvalue, Option.some_or] at hlisted
  obtain ⟨first, rest, hvalues⟩ := List.exists_cons_of_ne_nil
    (List.append_ne_nil_of_right_ne_nil (memberText? name).toList (exactValues_ne_nil h))
  rw [hvalue, hlisted, hvalues]
  rfl

/-! ## Responses as they are written -/

/-- An object has exactly the names of a list of headers, each once and with its values joined in their order. -/
structure Groups (headers : Headers) (es : Entries String) : Prop where
  once : (Entries.keys es).Nodup
  keys : ∀ name, name ∈ Entries.keys es ↔ name ∈ names headers
  values : ∀ name ∈ names headers, Entries.get? es name = some (", ".intercalate (exactValues headers name))

theorem intercalate_cons_ne (text : String) {values : List String} (h : values ≠ []) :
    ", ".intercalate (text :: values) ≠ ", ".intercalate values := by
  obtain ⟨first, rest, rfl⟩ := List.exists_cons_of_ne_nil h
  intro heq
  have hlength := congrArg String.length heq
  rw [String.intercalate_cons_cons, String.length_append, String.length_append] at hlength
  have hcomma : ", ".length = 2 := rfl
  omega

theorem find_reservedKey : Member.find Entries.reservedKey = .shared := by
  decide

section

variable (r : Response)

theorem ofResponse_headers : (ofResponse r).headers = Entries.arrange (object r.headers) := rfl

theorem nodup_keys_ofResponse : (Entries.keys (ofResponse r).headers).Nodup :=
  (Entries.keys_arrange_perm _).nodup_iff.mpr (nodup_keys_object r.headers)

theorem mem_keys_ofResponse (name : String) :
    name ∈ Entries.keys (ofResponse r).headers ↔ name ∈ names r.headers ∧ name ≠ Entries.reservedKey := by
  rw [ofResponse_headers, (Entries.keys_arrange_perm _).mem_iff, mem_keys_object]

theorem get?_ofResponse {name : String} (h : name ∈ names r.headers) (hname : name ≠ Entries.reservedKey) :
    Entries.get? (ofResponse r).headers name =
      some (", ".intercalate ((memberText? name).toList ++ exactValues r.headers name)) := by
  rw [ofResponse_headers, Entries.get?_arrange (nodup_keys_object r.headers), get?_object h hname]

theorem find_eq_absent_of_groups (hgroups : Groups r.headers (ofResponse r).headers) {name : String}
    (h : name ∈ names r.headers) : Member.find name = .absent := by
  have hname : name ≠ Entries.reservedKey := ((mem_keys_ofResponse r name).mp ((hgroups.keys name).mpr h)).2
  rw [← memberText?_eq_none_iff, Option.eq_none_iff_forall_ne_some]
  intro text htext
  have hwritten := get?_ofResponse r h hname
  rw [hgroups.values name h, htext] at hwritten
  -- The text of the member would have to vanish in front of the values.
  exact intercalate_cons_ne text (exactValues_ne_nil h) (Option.some.inj hwritten).symm

theorem groups_of_absent (habsent : ∀ name ∈ names r.headers, Member.find name = .absent) :
    Groups r.headers (ofResponse r).headers := by
  have hname : ∀ name ∈ names r.headers, name ≠ Entries.reservedKey := by
    rintro name h rfl
    have hfind := habsent _ h
    rw [find_reservedKey] at hfind
    cases hfind
  refine ⟨nodup_keys_ofResponse r, ?_, ?_⟩
  · intro name
    rw [mem_keys_ofResponse]
    exact ⟨And.left, fun h => ⟨h, hname name h⟩⟩
  · intro name h
    rw [get?_ofResponse r h (hname name h), (memberText?_eq_none_iff name).mpr (habsent name h)]
    rfl

/-- A response is written with its status and its body.  The object of its headers has each name once, except the
reserved one, and under it the values of just this name, joined in their order after the text that every object answers
to the name.  So it groups the headers exactly if no object answers to any of their names. -/
theorem ofResponse_groups_iff :
    (ofResponse r).status = r.status ∧ (ofResponse r).body = r.body ∧
    (Entries.keys (ofResponse r).headers).Nodup ∧
    (∀ name, name ∈ Entries.keys (ofResponse r).headers ↔ name ∈ names r.headers ∧ name ≠ Entries.reservedKey) ∧
    (∀ name ∈ Entries.keys (ofResponse r).headers, Entries.get? (ofResponse r).headers name =
      some (", ".intercalate ((memberText? name).toList ++ exactValues r.headers name))) ∧
    (Groups r.headers (ofResponse r).headers ↔ ∀ name ∈ names r.headers, Member.find name = .absent) := by
  refine ⟨rfl, rfl, nodup_keys_ofResponse r, mem_keys_ofResponse r, ?_, ?_⟩
  · intro name hkey
    obtain ⟨h, hname⟩ := (mem_keys_ofResponse r name).mp hkey
    exact get?_ofResponse r h hname
  · exact ⟨fun hgroups name h => find_eq_absent_of_groups r hgroups h, groups_of_absent r⟩

end

/-- A header named `constructor` is written with the text of a member in front of its value, and one with the reserved
name is lost. -/
theorem member_headers_altered :
    Entries.get? (ofResponse ⟨200, [("constructor", "a")], []⟩).headers "constructor" =
      some "function Object() \x7b [native code] \x7d, a" ∧
    ¬Groups [("constructor", "a")] (ofResponse ⟨200, [("constructor", "a")], []⟩).headers ∧
    (ofResponse ⟨200, [(Entries.reservedKey, "a")], []⟩).headers = [] ∧
    ¬Groups [(Entries.reservedKey, "a")] (ofResponse ⟨200, [(Entries.reservedKey, "a")], []⟩).headers := by
  refine ⟨by decide, ?_, by decide, ?_⟩
  · intro hgroups
    have habsent := find_eq_absent_of_groups ⟨200, [("constructor", "a")], []⟩ hgroups List.mem_cons_self
    revert habsent
    decide
  · intro hgroups
    have habsent := find_eq_absent_of_groups ⟨200, [(Entries.reservedKey, "a")], []⟩ hgroups List.mem_cons_self
    revert habsent
    decide

end Gateway.SentResponse
