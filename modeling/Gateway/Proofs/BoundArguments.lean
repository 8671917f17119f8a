import Gateway.Call.Binding
import Gateway.Proofs.EntryKeys
import Mathlib.Data.List.Induction

/-!
# What binding gives and why it fails

An argument that was bound is what the parameter's schema reads from one of the `sources` that the payload has for
the parameter.  A parameter is reported as missing exactly when the payload does not hold it and it is required.
-/

namespace Gateway

namespace Binding

theorem settle_eq_ok_iff (verdict : Verdict Value) (error : GatewayError) (v : Value) :
    settle verdict error = .ok v ↔ verdict = .accepted v := by
  cases verdict <;> simp [settle]

theorem settle_eq_refused_iff (verdict : Verdict Value) (error e : GatewayError) :
    settle verdict error = .error (.refused e) ↔ verdict = .refused ∧ e = error := by
  cases verdict <;> simp [settle, eq_comm]

theorem orElse_eq_accepted {first : Verdict Value} {second : Unit → Verdict Value} {v : Value}
    (h : first.orElse second = .accepted v) : first = .accepted v ∨ second () = .accepted v := by
  cases first with
  | accepted w => exact .inl h
  | refused => exact .inr h
  | broken f => cases h

variable (defs : Definitions) (procedure : String) (payload : Payload)

/-- What a parameter is read from, in the order in which it is tried: nothing at all, a value of the body, or what
the URI captured as text and as JSON. -/
def sources (p : Parameter) : List Value :=
  match Entries.get? payload.values p.wireName with
  | none => [.null, .undefined]
  | some raw =>
    if payload.fromUri.contains p.wireName then
      let value := if p.isList defs && !isList raw then .array [raw] else raw
      [value, readTexts value]
    else [raw]

/-- A bound argument is read from one of the sources with the schema of its parameter. -/
theorem bindParameter_ok {p : Parameter} {v : Value} (h : bindParameter defs procedure payload p = .ok v) :
    ∃ raw ∈ sources defs payload p, p.schema.decode defs raw = .accepted v := by
  unfold bindParameter at h
  unfold sources
  cases hget : Entries.get? payload.values p.wireName with
  | none =>
    simp only [hget, bindAbsent] at h
    split at h
    · cases h
    · rw [settle_eq_ok_iff] at h
      rcases orElse_eq_accepted h with hnull | hundefined
      · exact ⟨.null, by simp, hnull⟩
      · exact ⟨.undefined, by simp, hundefined⟩
  | some raw =>
    simp only [hget] at h ⊢
    split at h
    · rename_i huri
      rw [if_pos huri]
      unfold bindUri at h
      split at h
      · cases h
      · rw [settle_eq_ok_iff] at h
        rcases orElse_eq_accepted h with htext | hjson
        · exact ⟨_, List.mem_cons_self, htext⟩
        · exact ⟨_, List.mem_cons_of_mem _ List.mem_cons_self, hjson⟩
    · rename_i hbody
      rw [if_neg hbody]
      exact ⟨raw, List.mem_cons_self, (settle_eq_ok_iff _ _ _).mp h⟩

/-- A parameter is refused because it is missing, or because its value is not taken. -/
theorem bindParameter_refused {p : Parameter} {e : GatewayError}
    (h : bindParameter defs procedure payload p = .error (.refused e)) :
    (Entries.get? payload.values p.wireName = none ∧ p.isOptional defs = false ∧
        e = .requiredArgumentMissing procedure p.wireName) ∨
      ∃ received, e = invalid defs procedure p received := by
  unfold bindParameter at h
  split at h
  · rename_i habsent
    unfold bindAbsent at h
    split at h
    · rename_i hrequired
      simp only [Except.error.injEq, CallFault.refused.injEq] at h
      exact .inl ⟨habsent, by simpa using hrequired, h.symm⟩
    · exact .inr ⟨.null, ((settle_eq_refused_iff _ _ _).mp h).2⟩
  · rename_i raw _
    refine .inr ⟨raw, ?_⟩
    split at h
    · unfold bindUri at h
      split at h
      · simp only [Except.error.injEq, CallFault.refused.injEq] at h
        exact h.symm
      · exact ((settle_eq_refused_iff _ _ _).mp h).2
    · exact ((settle_eq_refused_iff _ _ _).mp h).2

/-- Binding a list of parameters succeeds exactly when each of them can be bound; the arguments stand under the
names of the parameters, in their order. -/
theorem bindAll_eq_ok_iff (parameters : List Parameter) (args : List (String × Value)) :
    bindAll defs procedure payload parameters = .ok args ↔
      List.Forall₂ (fun p arg => arg.1 = p.name ∧ bindParameter defs procedure payload p = .ok arg.2)
        parameters args := by
  induction parameters generalizing args with
  | nil => simp [bindAll, eq_comm]
  | cons p rest ih =>
    unfold bindAll
    rw [List.forall₂_cons_left_iff]
    cases hbind : bindParameter defs procedure payload p with
    | error e => simp
    | ok v =>
      cases hrest : bindAll defs procedure payload rest with
      | error e =>
        simp only [reduceCtorEq, false_iff]
        rintro ⟨arg, others, -, hothers, -⟩
        rw [(ih others).mpr hothers] at hrest
        cases hrest
      | ok others =>
        simp only [Except.ok.injEq]
        constructor
        · rintro rfl
          exact ⟨(p.name, v), others, ⟨rfl, rfl⟩, (ih others).mp hrest, rfl⟩
        · rintro ⟨⟨name, w⟩, others', ⟨hname, hv⟩, hothers, rfl⟩
          rw [(ih others').mpr hothers] at hrest
          obtain rfl := Except.ok.inj hrest
          obtain rfl : v = w := hv
          rw [← hname]

theorem bindAll_keys {parameters : List Parameter} {args : List (String × Value)}
    (h : bindAll defs procedure payload parameters = .ok args) :
    Entries.keys args = parameters.map (·.name) := by
  have hbound := (bindAll_eq_ok_iff defs procedure payload parameters args).mp h
  clear h
  induction hbound with
  | nil => rfl
  | cons hfirst _ ih => rw [Entries.keys_cons, List.map_cons, ih, hfirst.1]

/-- If binding fails, it fails for one of the parameters. -/
theorem bindAll_error {parameters : List Parameter} {fault : CallFault}
    (h : bindAll defs procedure payload parameters = .error fault) :
    ∃ p ∈ parameters, bindParameter defs procedure payload p = .error fault := by
  induction parameters with
  | nil => cases h
  | cons p rest ih =>
    unfold bindAll at h
    cases hbind : bindParameter defs procedure payload p with
    | error e =>
      simp only [hbind, Except.error.injEq] at h
      exact ⟨p, List.mem_cons_self, h ▸ hbind⟩
    | ok v =>
      cases hrest : bindAll defs procedure payload rest with
      | ok others => simp [hbind, hrest] at h
      | error e =>
        simp only [hbind, hrest, Except.error.injEq] at h
        obtain ⟨q, hq, hfault⟩ := ih (h ▸ hrest)
        exact ⟨q, List.mem_cons_of_mem p hq, hfault⟩

/-- Binding looks at the raw values of the parameters and at where they came from, and at nothing else. -/
theorem bindAll_congr {payload payload' : Payload} {parameters : List Parameter}
    (h : ∀ p ∈ parameters, Entries.get? payload.values p.wireName = Entries.get? payload'.values p.wireName ∧
      payload.fromUri.contains p.wireName = payload'.fromUri.contains p.wireName) :
    bindAll defs procedure payload parameters = bindAll defs procedure payload' parameters := by
  induction parameters with
  | nil => rfl
  | cons p rest ih =>
    obtain ⟨hvalue, hsource⟩ := h p List.mem_cons_self
    have hfirst : bindParameter defs procedure payload p = bindParameter defs procedure payload' p := by
      rw [bindParameter, bindParameter, hvalue, hsource]
    rw [bindAll, bindAll, hfirst, ih fun q hq => h q (List.mem_cons_of_mem p hq)]

end Binding

theorem bindArguments_eq_ok_iff (defs : Definitions) (p : Procedure) (payload : Payload) (args : Value) :
    bindArguments defs p payload = .ok args ↔
      ∃ pairs, Binding.bindAll defs p.wireName payload p.parameters = .ok pairs ∧
        args = Value.ofPairs pairs := by
  unfold bindArguments
  cases Binding.bindAll defs p.wireName payload p.parameters <;> simp [eq_comm]

/-- If the arguments of a procedure cannot be bound, one of its parameters cannot be. -/
theorem bindArguments_error {defs : Definitions} {p : Procedure} {payload : Payload} {fault : CallFault}
    (h : bindArguments defs p payload = .error fault) :
    ∃ q ∈ p.parameters, Binding.bindParameter defs p.wireName payload q = .error fault := by
  unfold bindArguments at h
  cases hall : Binding.bindAll defs p.wireName payload p.parameters with
  | ok pairs => simp [hall] at h
  | error e =>
    simp only [hall, Except.error.injEq] at h
    exact Binding.bindAll_error defs p.wireName payload (h ▸ hall)

/-! ## Raw arguments -/

namespace Payload

theorem captured_concat (parameters : List Parameter) (p : Parameter) (captures : Captures) :
    captured (parameters ++ [p]) captures =
      (captures.lookup (normalizeName p.wireName)).elim (captured parameters captures)
        (Entries.set (captured parameters captures) p.wireName) := by
  rw [captured, List.foldl_append, List.foldl_cons, List.foldl_nil, ← captured]
  cases captures.lookup (normalizeName p.wireName) <;> rfl

/-- A parameter gets what was captured under its wire name with hyphens read as underscores. -/
theorem get?_captured (parameters : List Parameter) (captures : Captures) (k : String) :
    Entries.get? (captured parameters captures) k =
      if k ∈ parameters.map (·.wireName) then captures.lookup (normalizeName k) else none := by
  induction parameters using List.reverseRecOn with
  | nil => rfl
  | append_singleton rest p ih =>
    -- What the last parameter writes is found under its own wire name only.
    rw [captured_concat]
    by_cases hk : k = p.wireName
    · subst hk
      cases hlookup : captures.lookup (normalizeName p.wireName) with
      | none => simp [ih, hlookup]
      | some c => simp [Entries.get?_set]
    · cases captures.lookup (normalizeName p.wireName) <;> simp [Entries.get?_set, ih, hk]

/-- The captured arguments are those whose wire name a placeholder provides. -/
theorem mem_keys_captured (parameters : List Parameter) (captures : Captures) (k : String) :
    k ∈ Entries.keys (captured parameters captures) ↔
      ∃ p ∈ parameters, p.wireName = k ∧ (captures.lookup (normalizeName p.wireName)).isSome := by
  rw [← Entries.get?_isSome_iff, get?_captured]
  constructor
  · intro h
    split at h
    · rename_i hk
      obtain ⟨p, hp, rfl⟩ := List.mem_map.mp hk
      exact ⟨p, hp, rfl, h⟩
    · cases h
  · rintro ⟨p, hp, rfl, hcaptured⟩
    rwa [if_pos (List.mem_map_of_mem hp)]

/-- What the URI provides is not lost in the merge, whatever the body holds. -/
theorem merge_keeps_captured (captured : Entries Captured) (body : Entries Value) {k : String}
    (hk : k ≠ Entries.reservedKey) (hmem : k ∈ Entries.keys captured) :
    ∃ raw, Entries.get? (merge captured body).values k = some raw := by
  unfold merge
  rw [Entries.get?_assign (Entries.nodup_keys_ofPairs _) body hk]
  have hlisted : k ∈ Entries.keys (captured.map fun c => (c.1, c.2.value)) := by
    simpa [Entries.keys] using hmem
  have hkept := (Entries.get?_isSome_iff _ _).mpr ((Entries.mem_keys_ofPairs _ k).mpr hlisted)
  apply Option.isSome_iff_exists.mp
  rw [Option.isSome_or, hkept, Bool.or_true]

/-- A body that holds a value for all that the URI provides leaves nothing of it. -/
theorem merge_of_covered {captured : Entries Captured} {body : Entries Value}
    (hcovered : ∀ k ∈ Entries.keys captured, k ∈ Entries.keys body) :
    (merge captured body).fromUri = [] ∧
      ∀ k ≠ Entries.reservedKey,
        Entries.get? (merge captured body).values k = Entries.get? (merge [] body).values k := by
  constructor
  · rw [merge, List.filter_eq_nil_iff]
    intro k hk
    simp [(Entries.has_iff_mem_keys body k).mpr (hcovered k hk)]
  · intro k hreserved
    unfold merge
    rw [Entries.get?_assign (Entries.nodup_keys_ofPairs _) body hreserved,
      Entries.get?_assign (Entries.nodup_keys_ofPairs _) body hreserved]
    by_cases hbody : k ∈ Entries.keys body
    · -- What the body holds is found in both.
      have hlisted : k ∈ Entries.keys body.reverse := by simpa [Entries.keys] using hbody
      obtain ⟨v, hv⟩ := Option.isSome_iff_exists.mp ((Entries.get?_isSome_iff _ _).mpr hlisted)
      rw [hv, Option.some_or, Option.some_or]
    · have hcaptured : k ∉ Entries.keys (Entries.ofPairs (captured.map fun c => (c.1, c.2.value))) := by
        rw [Entries.mem_keys_ofPairs]
        intro hmem
        exact hbody (hcovered k (by simpa [Entries.keys] using hmem))
      rw [(Entries.get?_eq_none_iff _ _).mpr hcaptured]
      rfl

end Payload

end Gateway
