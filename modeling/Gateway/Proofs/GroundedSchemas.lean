import Gateway.Proofs.SettledSchemas
import Gateway.Schema.Wire
import Mathlib.Data.List.Perm.Subperm

/-!
# What a schema leads to at once

Before any part of a value is looked at, a schema leads on through its conditions, the members of its unions and the
definitions of its suspended schemas, until it comes to a guard.  It is grounded if no suspended schema on the way leads
back to itself, so that every cycle goes into a part of the value.  There are then no more definitions to follow in one
branch than there are definitions (`Grounded.bounded`), which is as many as the walks allow.
-/

namespace Gateway.Schema

/-- The schemas that a schema leads to before any part of a value is looked at. -/
inductive AtOnce (defs : Definitions) : Schema → Schema → Prop where
  | refl (s : Schema) : AtOnce defs s s
  | filtered {of t : Schema} {f : Filter} (h : AtOnce defs of t) : AtOnce defs (.filtered of f) t
  | union {members : List Schema} {s t : Schema} (hs : s ∈ members) (h : AtOnce defs s t) :
      AtOnce defs (.union members) t
  | suspend {name : String} {s t : Schema} (htarget : target defs name = .ok s) (h : AtOnce defs s t) :
      AtOnce defs (.suspend name) t

/-- No suspended schema that a schema leads to at once leads back to itself at once. -/
def Grounded (defs : Definitions) (s : Schema) : Prop :=
  ∀ name t, AtOnce defs s (.suspend name) → target defs name = .ok t → ¬AtOnce defs t (.suspend name)

/-- A schema from which no branch follows more than so many definitions at once. -/
inductive Bounded (defs : Definitions) : Nat → Schema → Prop where
  | guard {n : Nat} {s : Schema} (hguard : s.isGuard = true) : Bounded defs n s
  | filtered {n : Nat} {of : Schema} {f : Filter} (hof : Bounded defs n of) : Bounded defs n (.filtered of f)
  | union {n : Nat} {members : List Schema} (hmembers : ∀ s ∈ members, Bounded defs n s) :
      Bounded defs n (.union members)
  | unresolved {n : Nat} {name : String} {fault : Fault} (htarget : target defs name = .error fault) :
      Bounded defs n (.suspend name)
  | suspend {n : Nat} {name : String} {s : Schema} (htarget : target defs name = .ok s) (hs : Bounded defs n s) :
      Bounded defs (n + 1) (.suspend name)

/-- A statement about schemas and the number of definitions that may still be followed holds of all, if it holds of the
guards and is carried from what a schema leads to in one step to the schema. -/
theorem walk_induction {P : Nat → Schema → Prop} (guard : ∀ n s, s.isGuard = true → P n s)
    (filtered : ∀ n of f, P n of → P n (.filtered of f))
    (union : ∀ n members, (∀ s ∈ members, P n s) → P n (.union members))
    (last : ∀ name, P 0 (.suspend name)) (suspend : ∀ n name, (∀ s, P n s) → P (n + 1) (.suspend name)) (n : Nat)
    (s : Schema) : P n s := by
  have hall : ∀ n, (∀ name, P n (.suspend name)) → ∀ s, P n s := by
    intro n hsuspend s
    induction s using parts_induction with
    | step s ih =>
      cases s with
      | filtered of f => exact filtered n of f (ih of (by simp [parts]))
      | union members => exact union n members ih
      | suspend name => exact hsuspend name
      | _ => exact guard n _ rfl
  induction n generalizing s with
  | zero => exact hall 0 last s
  | succ n ih => exact hall (n + 1) (fun name => suspend n name ih) s

section

variable {defs : Definitions}

theorem AtOnce.trans {s t u : Schema} (hst : AtOnce defs s t) (htu : AtOnce defs t u) : AtOnce defs s u := by
  induction hst with
  | refl => exact htu
  | filtered _ ih => exact .filtered (ih htu)
  | union hs _ ih => exact .union hs (ih htu)
  | suspend htarget _ ih => exact .suspend htarget (ih htu)

theorem Grounded.of_atOnce {s t : Schema} (h : Grounded defs s) (hst : AtOnce defs s t) : Grounded defs t :=
  fun name u hsuspend => h name u (hst.trans hsuspend)

namespace Bounded

variable {n : Nat}

theorem of_filtered {of : Schema} {f : Filter} (h : Bounded defs n (.filtered of f)) : Bounded defs n of := by
  cases h with
  | guard hguard => cases hguard
  | filtered hof => exact hof

theorem of_union {members : List Schema} (h : Bounded defs n (.union members)) : ∀ s ∈ members, Bounded defs n s := by
  cases h with
  | guard hguard => cases hguard
  | union hmembers => exact hmembers

theorem of_suspend {name : String} {s : Schema} (h : Bounded defs n (.suspend name)) (hs : target defs name = .ok s) :
    ∃ m, n = m + 1 ∧ Bounded defs m s := by
  cases h with
  | guard hguard => cases hguard
  | unresolved htarget =>
    rw [hs] at htarget
    cases htarget
  | suspend htarget hbelow =>
    obtain rfl := Except.ok.inj (hs.symm.trans htarget)
    exact ⟨_, rfl, hbelow⟩

end Bounded

theorem mem_keys_of_target {name : String} {s : Schema} (h : target defs name = .ok s) : name ∈ Entries.keys defs := by
  rw [← Entries.get?_isSome_iff]
  unfold target at h
  cases hdefinition : Entries.get? defs name with
  | none => simp [hdefinition] at h
  | some t => rfl

/-- Names of definitions, no two of them alike, that are followed one after the other from a schema to another. -/
structure Trail (defs : Definitions) (root : Schema) (names : List String) (s : Schema) : Prop where
  reached : AtOnce defs root s
  nodup : names.Nodup
  follows : ∀ name ∈ names, ∃ t, target defs name = .ok t ∧ AtOnce defs root (.suspend name) ∧ AtOnce defs t s

namespace Trail

variable {root s t : Schema} {names : List String} {name : String}

theorem step (h : Trail defs root names s) (hst : AtOnce defs s t) : Trail defs root names t := by
  refine ⟨h.reached.trans hst, h.nodup, ?_⟩
  intro name hname
  obtain ⟨u, htarget, hreached, hleads⟩ := h.follows name hname
  exact ⟨u, htarget, hreached, hleads.trans hst⟩

/-- A trail from a grounded schema takes no definition twice. -/
theorem follow (h : Trail defs root names (.suspend name)) (hgrounded : Grounded defs root)
    (htarget : target defs name = .ok t) : Trail defs root (name :: names) t := by
  obtain ⟨hreached, hnodup, hfollows⟩ := h.step (.suspend htarget (.refl t))
  refine ⟨hreached, List.nodup_cons.mpr ⟨?_, hnodup⟩, ?_⟩
  · intro hname
    obtain ⟨u, hu, hsuspend, hleads⟩ := h.follows name hname
    exact hgrounded name u hsuspend hu hleads
  · exact List.forall_mem_cons.mpr ⟨⟨t, htarget, h.reached, .refl t⟩, hfollows⟩

theorem length_le (h : Trail defs root names s) : names.length ≤ defs.length := by
  have hsubset : names ⊆ Entries.keys defs := by
    intro name hname
    obtain ⟨t, htarget, -⟩ := h.follows name hname
    exact mem_keys_of_target htarget
  calc names.length ≤ (Entries.keys defs).length := (List.subperm_of_subset h.nodup hsubset).length_le
    _ = defs.length := by rw [Entries.keys, List.length_map]

/-- At the end of a trail there are at most the definitions to follow that it has not taken. -/
theorem bounded (hgrounded : Grounded defs root) (n : Nat) (s : Schema) :
    ∀ names, Trail defs root names s → defs.length ≤ names.length + n → Bounded defs n s := by
  induction n, s using walk_induction with
  | guard n s hguard =>
    intro names _ _
    exact .guard hguard
  | filtered n of f ih =>
    intro names htrail hlength
    exact .filtered (ih names (htrail.step (.filtered (.refl of))) hlength)
  | union n members ih =>
    intro names htrail hlength
    exact .union fun s hs => ih s hs names (htrail.step (.union hs (.refl s))) hlength
  | last name =>
    intro names htrail hlength
    cases htarget : target defs name with
    | error fault => exact .unresolved htarget
    | ok t =>
      -- The trail has taken all definitions, and there is one more.
      have hlonger := (htrail.follow hgrounded htarget).length_le
      rw [List.length_cons] at hlonger
      omega
  | suspend n name ih =>
    intro names htrail hlength
    cases htarget : target defs name with
    | error fault => exact .unresolved htarget
    | ok t =>
      refine .suspend htarget (ih t (name :: names) (htrail.follow hgrounded htarget) ?_)
      rw [List.length_cons]
      omega

end Trail

/-- From a grounded schema no branch follows more definitions at once than there are. -/
theorem Grounded.bounded {s : Schema} (h : Grounded defs s) {n : Nat} (hn : defs.length ≤ n) : Bounded defs n s :=
  Trail.bounded h n s [] ⟨.refl s, List.nodup_nil, List.forall_mem_nil _⟩ (by simpa using hn)

end

end Gateway.Schema
