import Gateway.Http.Headers
import Mathlib.Data.List.Basic

/-!
# Merged headers

Headers are added one at a time, to the first entry of their name or at the end.  What one addition does to the names
(`names_add`), to the value that a name finds (`get?_add`) and to each entry (`add_entry`) carries over to a whole list:
no name and no value is lost, no name is listed twice that was not listed twice before, and the values of each name
stand in their order (`merge_keeps_headers`).
-/

namespace Gateway.Headers

/-! ## Values that are joined -/

/-- Values as one text, if there are any. -/
def joined : List String → Option String
  | [] => none
  | value :: values => some (", ".intercalate (value :: values))

/-- A value after the text that is there already. -/
def appended (existing : Option String) (value : String) : String :=
  match existing with
  | some text => text ++ ", " ++ value
  | none => value

theorem joined_appended (existing : Option String) (value : String) (values : List String) :
    joined (appended existing value :: values) = joined (existing.toList ++ value :: values) := by
  cases existing with
  | none => rfl
  | some text =>
    show some (", ".intercalate ((text ++ ", " ++ value) :: values)) =
      some (", ".intercalate (text :: value :: values))
    rw [String.intercalate_cons_append, String.intercalate_cons_cons]

theorem joined_toList (text : Option String) : joined text.toList = text := by
  cases text with
  | none => rfl
  | some text => simp [joined]

/-- If each header of some kind is put after the text that is seen, and no other header changes what is seen, then a
whole list of headers leaves the text that was seen before it and the values of that kind. -/
theorem seen_foldl {σ : Type} (see : σ → Option String) (put : σ → String × String → σ)
    (ofKind : String × String → Bool)
    (hput : ∀ s h, see (put s h) = if ofKind h then some (appended (see s) h.2) else see s)
    (headers : Headers) (s : σ) :
    see (headers.foldl put s) = joined ((see s).toList ++ (headers.filter ofKind).map (·.2)) := by
  induction headers generalizing s with
  | nil => rw [List.foldl_nil, List.filter_nil, List.map_nil, List.append_nil, joined_toList]
  | cons h rest ih =>
    rw [List.foldl_cons, ih, hput]
    by_cases hkind : ofKind h = true
    · rw [if_pos hkind, List.filter_cons_of_pos hkind, List.map_cons, ← joined_appended]
      rfl
    · rw [if_neg hkind, List.filter_cons_of_neg hkind]

/-! ## Names -/

/-- The names of headers, in order. -/
def names (headers : Headers) : List String :=
  headers.map (·.1)

theorem names_cons (h : String × String) (headers : Headers) : names (h :: headers) = h.1 :: names headers := rfl

/-- Whether a name is listed, in whatever letter case. -/
def lists (known : List String) (name : String) : Bool :=
  known.any (sameName · name)

/-- The names that are not known yet, each once, in the order and the spelling of their first occurrence. -/
def newNames (known found : List String) : List String :=
  (found.filter fun name => !lists known name).eraseDupsBy sameName

/-- No two headers have one name. -/
def Distinct (headers : Headers) : Prop :=
  (names headers).Pairwise fun a b => sameName a b = false

theorem sameName_comm (a b : String) : sameName a b = sameName b a :=
  Bool.beq_comm

theorem sameName_congr_left {a b : String} (h : sameName a b = true) (c : String) : sameName a c = sameName b c := by
  rw [sameName, beq_iff_eq] at h
  rw [sameName, sameName, h]

theorem lists_cons (known : List String) (first name : String) :
    lists (first :: known) name = (sameName first name || lists known name) := rfl

theorem lists_append (known : List String) (first name : String) :
    lists (known ++ [first]) name = (lists known name || sameName first name) := by
  simp [lists]

theorem lists_congr {a b : String} (h : sameName a b = true) (known : List String) : lists known a = lists known b := by
  unfold lists
  congr 1
  funext name
  rw [sameName_comm, sameName_congr_left h, sameName_comm]

theorem add_cons (name value : String) (h : String × String) (rest : Headers) :
    add name value (h :: rest) =
      if sameName h.1 name then (h.1, h.2 ++ ", " ++ value) :: rest else h :: add name value rest := rfl

theorem names_add (name value : String) (headers : Headers) :
    names (add name value headers) =
      if lists (names headers) name then names headers else names headers ++ [name] := by
  induction headers with
  | nil => rfl
  | cons h rest ih =>
    rw [add_cons, names_cons, lists_cons]
    by_cases hsame : sameName h.1 name = true
    · rw [if_pos hsame, hsame, Bool.true_or, if_pos rfl, names_cons]
    · rw [if_neg hsame, eq_false_of_ne_true hsame, Bool.false_or, names_cons, ih]
      split <;> rfl

/-- A name that is known already adds nothing to the new names, and one that is not comes first among them. -/
theorem newNames_cons (known : List String) (first : String) (found : List String) :
    newNames known (first :: found) =
      if lists known first then newNames known found else first :: newNames (known ++ [first]) found := by
  unfold newNames
  split
  · rename_i hknown
    rw [List.filter_cons_of_neg (by simp [hknown])]
  · rename_i hnew
    rw [List.filter_cons_of_pos (by simp [hnew]), List.eraseDupsBy_cons, List.filter_filter]
    congr 2
    apply List.filter_congr
    intro name _
    rw [lists_append, sameName_comm first name]
    cases sameName name first <;> simp

theorem names_merge (base extra : Headers) :
    names (merge base extra) = names base ++ newNames (names base) (names extra) := by
  induction extra generalizing base with
  | nil => simp [merge, names, newNames]
  | cons h rest ih =>
    have hstep : merge base (h :: rest) = merge (add h.1 h.2 base) rest := rfl
    rw [hstep, ih, names_add, names_cons, newNames_cons]
    split
    · rfl
    · rw [List.append_assoc, List.singleton_append]

theorem distinct_add {headers : Headers} (h : Distinct headers) (name value : String) :
    Distinct (add name value headers) := by
  unfold Distinct at h ⊢
  rw [names_add]
  split
  · exact h
  · rename_i hnew
    rw [List.pairwise_append]
    refine ⟨h, List.pairwise_singleton _ _, ?_⟩
    intro a ha b hb
    rw [List.mem_singleton.mp hb]
    simpa using fun hsame => hnew (List.any_eq_true.mpr ⟨a, ha, hsame⟩)

theorem distinct_merge {base : Headers} (h : Distinct base) (extra : Headers) : Distinct (merge base extra) :=
  List.foldlRecOn (motive := Distinct) extra _ h fun _ h e _ => distinct_add h e.1 e.2

/-! ## Values -/

/-- The values that are listed under a name, in order. -/
def values (headers : Headers) (name : String) : List String :=
  (headers.filter fun h => sameName h.1 name).map (·.2)

theorem values_cons (h : String × String) (headers : Headers) (name : String) :
    values (h :: headers) name = if sameName h.1 name then h.2 :: values headers name else values headers name := by
  unfold values
  rw [List.filter_cons]
  split <;> rfl

theorem get?_cons (h : String × String) (headers : Headers) (name : String) :
    get? (h :: headers) name = if sameName h.1 name then some h.2 else get? headers name := by
  unfold get?
  rw [List.find?_cons]
  cases sameName h.1 name <;> rfl

theorem get?_add (added value name : String) (headers : Headers) :
    get? (add added value headers) name =
      if sameName added name then some (appended (get? headers name) value) else get? headers name := by
  induction headers with
  | nil => rw [add, get?_cons]; rfl
  | cons h rest ih =>
    rw [add_cons]
    split
    · rename_i hsame
      rw [get?_cons, get?_cons, sameName_congr_left hsame]
      split <;> rfl
    · rename_i hother
      rw [get?_cons, get?_cons, ih]
      by_cases hname : sameName h.1 name = true
      · have hadded : sameName added name = false := by
          rw [sameName_comm, ← sameName_congr_left hname added]
          simpa using hother
        simp [hname, hadded]
      · rw [if_neg hname, if_neg hname]

theorem get?_merge (base extra : Headers) (name : String) :
    get? (merge base extra) name = joined ((get? base name).toList ++ values extra name) :=
  seen_foldl (get? · name) (fun merged h => add h.1 h.2 merged) (fun h => sameName h.1 name)
    (fun merged h => get?_add h.1 h.2 name merged) extra base

/-! ## Entries -/

/-- A header is added before or after a place, by whether its name is listed before that place. -/
theorem add_append (name value : String) (before after : Headers) :
    add name value (before ++ after) =
      if lists (names before) name then add name value before ++ after else before ++ add name value after := by
  induction before with
  | nil => rfl
  | cons h rest ih =>
    rw [List.cons_append, add_cons, add_cons, names_cons, lists_cons]
    by_cases hsame : sameName h.1 name = true
    · rw [if_pos hsame, if_pos hsame, hsame, Bool.true_or, if_pos rfl, List.cons_append]
    · rw [if_neg hsame, if_neg hsame, eq_false_of_ne_true hsame, Bool.false_or, ih]
      split <;> rfl

/-- What becomes of an entry when a header is added: it gets the value if it is the first of that name, and the names
before it stay as they are. -/
theorem add_entry (before after : Headers) (name value added addedValue : String) :
    ∃ before' after', names before' = names before ∧
      add added addedValue (before ++ (name, value) :: after) =
        before' ++ (name, if !lists (names before) added && sameName name added then value ++ ", " ++ addedValue
          else value) :: after' := by
  rw [add_append]
  by_cases hlisted : lists (names before) added = true
  · refine ⟨add added addedValue before, after, ?_, ?_⟩
    · rw [names_add, if_pos hlisted]
    · rw [if_pos hlisted, hlisted]
      rfl
  · rw [if_neg hlisted, add_cons, eq_false_of_ne_true hlisted]
    by_cases hsame : sameName name added = true
    · exact ⟨before, after, rfl, by rw [if_pos hsame, hsame]; rfl⟩
    · exact ⟨before, add added addedValue after, rfl, by rw [if_neg hsame, eq_false_of_ne_true hsame]; rfl⟩

/-- What becomes of an entry in a merge: it gets all values of its name if it is the first of that name. -/
theorem merge_entry (before after extra : Headers) (name value : String) :
    ∃ before' after', names before' = names before ∧
      merge (before ++ (name, value) :: after) extra =
        before' ++ (name, if lists (names before) name then value
          else ", ".intercalate (value :: values extra name)) :: after' := by
  induction extra generalizing before value after with
  | nil => exact ⟨before, after, rfl, by simp [merge, values]⟩
  | cons e rest ih =>
    obtain ⟨middle, middle', hmiddle, hadd⟩ := add_entry before after name value e.1 e.2
    obtain ⟨before', after', hbefore, hmerge⟩ := ih middle middle'
      (if !lists (names before) e.1 && sameName name e.1 then value ++ ", " ++ e.2 else value)
    refine ⟨before', after', hbefore.trans hmiddle, ?_⟩
    have hstep : merge (before ++ (name, value) :: after) (e :: rest) =
        merge (add e.1 e.2 (before ++ (name, value) :: after)) rest := rfl
    rw [hstep, hadd, hmerge, hmiddle, values_cons, sameName_comm e.1 name]
    by_cases hsame : sameName name e.1 = true
    · -- The header has the name of the entry, so it is for the entry unless the name is listed before.
      rw [← lists_congr hsame, hsame]
      cases lists (names before) name with
      | true => rfl
      | false => simp [String.intercalate_cons_append, String.intercalate_cons_cons]
    · rw [eq_false_of_ne_true hsame, Bool.and_false, if_neg Bool.false_ne_true, if_neg Bool.false_ne_true]

theorem getElem?_merge (before after extra : Headers) (name value : String) :
    (merge (before ++ (name, value) :: after) extra)[before.length]? =
      some (name, if lists (names before) name then value else ", ".intercalate (value :: values extra name)) := by
  obtain ⟨before', after', hnames, hmerge⟩ := merge_entry before after extra name value
  have hlength : before'.length = before.length := by
    simpa [names] using congrArg List.length hnames
  rw [hmerge, ← hlength]
  simp

/-- Merging several lists one after the other is merging them as one list. -/
theorem foldl_merge (base : Headers) (extras : List Headers) : extras.foldl merge base = merge base extras.flatten :=
  List.foldl_flatten.symm

/-- The merged list starts with the names of the first list and goes on with the new names of the second, once each as
they are first spelled.  Each name finds its first value in the first list, if it has one, and all its values in the
second, joined in this order.  They are joined to the first entry of the name, and every other entry of the first list
stays as it is.  Lists may be merged one after the other or as one, and different names stay different. -/
theorem merge_keeps_headers (base extra : Headers) :
    names (merge base extra) = names base ++ newNames (names base) (names extra) ∧
    (∀ name, get? (merge base extra) name = joined ((get? base name).toList ++ values extra name)) ∧
    (∀ before name value after, base = before ++ (name, value) :: after →
      (merge base extra)[before.length]? =
        some (name, if lists (names before) name then value else ", ".intercalate (value :: values extra name))) ∧
    (∀ extras : List Headers, extras.foldl merge base = merge base extras.flatten) ∧
    (Distinct base → Distinct (merge base extra)) := by
  refine ⟨names_merge base extra, get?_merge base extra, ?_, foldl_merge base, fun h => distinct_merge h extra⟩
  rintro before name value after rfl
  exact getElem?_merge before after extra name value

/-- Headers with a name in two spellings. -/
def respelledBase : Headers := [("Vary", "a"), ("vary", "b"), ("Allow", "c")]

/-- Headers that repeat names of `respelledBase` and a new one, in other spellings. -/
def respelledExtra : Headers := [("X-Id", "d"), ("ALLOW", "e"), ("x-id", "f"), ("VARY", "g")]

theorem merge_keeps_headers_respelled :
    names (merge respelledBase respelledExtra) = ["Vary", "vary", "Allow", "X-Id"] ∧
    get? (merge respelledBase respelledExtra) "x-ID" = some "d, f" ∧
    get? (merge respelledBase respelledExtra) "vary" = some "a, g" ∧
    (merge respelledBase respelledExtra)[1]? = some ("vary", "b") ∧
    Distinct (merge [("Vary", "a")] respelledExtra) := by
  obtain ⟨hnames, hget, hentries, -, -⟩ := merge_keeps_headers respelledBase respelledExtra
  obtain ⟨-, -, -, -, hdistinct⟩ := merge_keeps_headers [("Vary", "a")] respelledExtra
  refine ⟨hnames.trans (by decide), (hget "x-ID").trans (by decide), (hget "vary").trans (by decide), ?_, ?_⟩
  · exact (hentries [("Vary", "a")] "vary" "b" [("Allow", "c")] rfl).trans (by decide)
  · exact hdistinct (List.pairwise_singleton _ _)

end Gateway.Headers
