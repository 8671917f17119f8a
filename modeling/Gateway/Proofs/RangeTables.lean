import Gateway.Text.Case
import Mathlib.Data.List.Sort

/-!
# Comparing tables of ranges

Two tables of ranges in ascending order are compared in one sweep: each range of the first is compared with what it
meets first in the second.  A sweep shows that two tables have no number in common (`not_listed_of_sweep`), or that all
numbers of one are in the other (`listed_of_sweep`), and costs no more than reading both once.
-/

namespace Gateway.Text

/-! ## Sweeps -/

/-- Compares ranges with the first of some others that does not end before they start. -/
def meets (test : Nat × Nat → Option (Nat × Nat) → Bool) (x : Nat × Nat) (next : List (Nat × Nat) → Bool) :
    List (Nat × Nat) → Bool
  | [] => test x none && next []
  | y :: ys => if y.2 < x.1 then meets test x next ys else test x (some y) && next (y :: ys)

/-- Compares each range of a table with the first of another table that does not end before it starts. -/
def sweep (test : Nat × Nat → Option (Nat × Nat) → Bool) : List (Nat × Nat) → List (Nat × Nat) → Bool
  | [] => fun _ => true
  | x :: xs => meets test x (sweep test xs)

/-- Whether ranges start one after the other, from a number on. -/
def ascends (low : Nat) : List (Nat × Nat) → Bool
  | [] => true
  | x :: xs => low ≤ x.1 && ascends x.1 xs

theorem ascends_iff (low : Nat) (xs : List (Nat × Nat)) :
    ascends low xs = true ↔ (∀ x ∈ xs, low ≤ x.1) ∧ xs.Pairwise fun x y => x.1 ≤ y.1 := by
  induction xs generalizing low with
  | nil => simp [ascends]
  | cons x xs ih =>
    rw [ascends, Bool.and_eq_true, decide_eq_true_iff, ih, List.forall_mem_cons, List.pairwise_cons]
    constructor
    · rintro ⟨hlow, hfrom, hrest⟩
      exact ⟨⟨hlow, fun y hy => hlow.trans (hfrom y hy)⟩, hfrom, hrest⟩
    · rintro ⟨⟨hlow, -⟩, hfrom, hrest⟩
      exact ⟨hlow, hfrom, hrest⟩

section Sweep

variable {test : Nat × Nat → Option (Nat × Nat) → Bool}

theorem meets_iff (x : Nat × Nat) (next : List (Nat × Nat) → Bool) (ys : List (Nat × Nat)) :
    meets test x next ys = true ↔
      test x (ys.find? fun y => x.1 ≤ y.2) = true ∧ next (ys.dropWhile fun y => y.2 < x.1) = true := by
  induction ys with
  | nil => simp [meets]
  | cons y ys ih =>
    rw [meets]
    by_cases hbelow : y.2 < x.1
    · rw [if_pos hbelow, ih, List.find?_cons_of_neg (by simpa using hbelow), List.dropWhile_cons_of_pos (by simpa)]
    · rw [if_neg hbelow, Bool.and_eq_true, List.find?_cons_of_pos (by simpa using hbelow),
        List.dropWhile_cons_of_neg (by simpa using hbelow)]

/-- What ended before one range started is not what a later range meets first. -/
theorem find?_dropWhile_of_le {low x : Nat} (h : low ≤ x) (ys : List (Nat × Nat)) :
    (ys.dropWhile fun y => y.2 < low).find? (fun y => x ≤ y.2) = ys.find? fun y => x ≤ y.2 := by
  induction ys with
  | nil => rfl
  | cons y ys ih =>
    by_cases hbelow : y.2 < low
    · rw [List.dropWhile_cons_of_pos (by simpa), ih, List.find?_cons_of_neg (by simp; omega)]
    · rw [List.dropWhile_cons_of_neg (by simpa using hbelow)]

theorem test_of_sweep {xs : List (Nat × Nat)} (hxs : xs.Pairwise fun x y => x.1 ≤ y.1) {ys : List (Nat × Nat)}
    (h : sweep test xs ys = true) : ∀ x ∈ xs, test x (ys.find? fun y => x.1 ≤ y.2) = true := by
  induction xs generalizing ys with
  | nil => exact List.forall_mem_nil _
  | cons x xs ih =>
    obtain ⟨hafter, hrest⟩ := List.pairwise_cons.mp hxs
    obtain ⟨hfirst, hnext⟩ := (meets_iff x (sweep test xs) ys).mp h
    refine List.forall_mem_cons.mpr ⟨hfirst, ?_⟩
    intro z hz
    have hz' := ih hrest hnext z hz
    rwa [find?_dropWhile_of_le (hafter z hz)] at hz'

end Sweep

/-- A range ends before what it meets first. -/
def endsBefore (x : Nat × Nat) (y : Option (Nat × Nat)) : Bool :=
  y.all fun y => x.2 < y.1

/-- A range lies in what it meets first. -/
def liesIn (x : Nat × Nat) (y : Option (Nat × Nat)) : Bool :=
  y.any fun y => y.1 ≤ x.1 && x.2 ≤ y.2

/-- A number is in some range of a table. -/
def Listed (n : Nat) (xs : List (Nat × Nat)) : Prop :=
  ∃ x ∈ xs, x.1 ≤ n ∧ n ≤ x.2

theorem listed_of_inRanges {n : Nat} {ys : List (Nat × Nat)} (h : inRanges n ys = true) : Listed n ys := by
  induction ys with
  | nil => cases h
  | cons y ys ih =>
    obtain ⟨low, high⟩ := y
    rw [inRanges] at h
    split at h
    · cases h
    · rename_i hlow
      rcases Bool.or_eq_true_iff.mp h with hhigh | hrest
      · exact ⟨(low, high), List.mem_cons_self, Nat.le_of_not_lt hlow, of_decide_eq_true hhigh⟩
      · obtain ⟨x, hx, hbounds⟩ := ih hrest
        exact ⟨x, List.mem_cons_of_mem _ hx, hbounds⟩

theorem inRanges_of_listed {n : Nat} {ys : List (Nat × Nat)} (hys : ys.Pairwise fun x y => x.1 ≤ y.1)
    (h : Listed n ys) : inRanges n ys = true := by
  obtain ⟨y, hy, hlow, hhigh⟩ := h
  induction ys with
  | nil => cases hy
  | cons x ys ih =>
    obtain ⟨hafter, hrest⟩ := List.pairwise_cons.mp hys
    rw [inRanges]
    rcases List.mem_cons.mp hy with rfl | hy
    · rw [if_neg (Nat.not_lt.mpr hlow), decide_eq_true hhigh, Bool.true_or]
    · rw [if_neg (Nat.not_lt.mpr ((hafter y hy).trans hlow)), ih hrest hy, Bool.or_true]

/-- Two tables that a sweep finds apart have no number in common. -/
theorem not_listed_of_sweep {xs ys : List (Nat × Nat)} (hxs : xs.Pairwise fun x y => x.1 ≤ y.1)
    (hys : ys.Pairwise fun x y => x.1 ≤ y.1) (h : sweep endsBefore xs ys = true) {n : Nat} (hn : Listed n xs) :
    ¬Listed n ys := by
  rintro ⟨y, hy, hlow, hhigh⟩
  obtain ⟨x, hx, hbelow, habove⟩ := hn
  have htest := test_of_sweep hxs h x hx
  -- What the range meets first does not start after `y`, which holds one of its numbers.
  cases hfound : ys.find? fun y => x.1 ≤ y.2 with
  | none =>
    have hnone := List.find?_eq_none.mp hfound y hy
    simp only [decide_eq_true_eq] at hnone
    omega
  | some z =>
    obtain ⟨-, before, after, rfl, hbefore⟩ := List.find?_eq_some_iff_append.mp hfound
    have hz : x.2 < z.1 := by simpa [hfound, endsBefore] using htest
    have hzy : z.1 ≤ y.1 := by
      rcases List.mem_append.mp hy with hy | hy
      · have hended := hbefore y hy
        simp only [Bool.not_eq_true', decide_eq_false_iff_not] at hended
        omega
      · rcases List.mem_cons.mp hy with rfl | hy
        · exact Nat.le_refl _
        · exact (List.pairwise_cons.mp (List.pairwise_append.mp hys).2.1).1 y hy
    omega

/-- A table that a sweep finds inside another has only numbers of that one. -/
theorem listed_of_sweep {xs ys : List (Nat × Nat)} (hxs : xs.Pairwise fun x y => x.1 ≤ y.1)
    (h : sweep liesIn xs ys = true) {n : Nat} (hn : Listed n xs) : Listed n ys := by
  obtain ⟨x, hx, hbelow, habove⟩ := hn
  have htest := test_of_sweep hxs h x hx
  rw [liesIn, Option.any_eq_true] at htest
  obtain ⟨y, hfound, hinside⟩ := htest
  simp only [Bool.and_eq_true, decide_eq_true_eq] at hinside
  exact ⟨y, List.mem_of_find?_eq_some hfound, by omega, by omega⟩

/-- A table in ascending order. -/
def sorted (xs : List (Nat × Nat)) : List (Nat × Nat) :=
  xs.insertionSort fun x y => x.1 ≤ y.1

theorem pairwise_sorted (xs : List (Nat × Nat)) : (sorted xs).Pairwise fun x y => x.1 ≤ y.1 :=
  have : Std.Total fun x y : Nat × Nat => x.1 ≤ y.1 := ⟨fun x y => Nat.le_total x.1 y.1⟩
  have : IsTrans (Nat × Nat) fun x y => x.1 ≤ y.1 := ⟨fun _ _ _ => Nat.le_trans⟩
  List.pairwise_insertionSort _ xs

theorem listed_sorted {n : Nat} {xs : List (Nat × Nat)} (h : Listed n xs) : Listed n (sorted xs) := by
  obtain ⟨x, hx, hbounds⟩ := h
  exact ⟨x, (List.mem_insertionSort _).mpr hx, hbounds⟩

end Gateway.Text
