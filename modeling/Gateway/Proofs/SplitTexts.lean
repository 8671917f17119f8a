import Gateway.Text.Split

/-!
# Texts that are cut at separators

Cutting a list at its separators is the library's `splitOnP` (`splitWhere_eq_splitOnP`).  Hence cutting at a symbol and
joining with it undo each other: joining the pieces gives every list back (`intercalate_splitWhere`), and cutting gives
the pieces back if none of them holds the symbol (`splitWhere_intercalate`).  No piece of a list holds a separator.
-/

namespace Gateway.Text

variable {α : Type} (isSeparator : α → Bool)

theorem splitWhereFrom_eq (piece input : List α) :
    splitWhereFrom isSeparator piece input = input.splitOnPPrepend isSeparator piece := by
  induction input generalizing piece with
  | nil => rfl
  | cons c rest ih =>
    rw [splitWhereFrom, List.splitOnPPrepend_cons_eq_if, ih, ih]
    rfl

theorem splitWhere_eq_splitOnP (input : List α) : splitWhere isSeparator input = input.splitOnP isSeparator :=
  splitWhereFrom_eq isSeparator [] input

variable {isSeparator}

theorem not_isSeparator_of_mem_splitWhereFrom {piece : List α} (hpiece : ∀ c ∈ piece, isSeparator c = false)
    {input p : List α} (hp : p ∈ splitWhereFrom isSeparator piece input) : ∀ c ∈ p, isSeparator c = false := by
  -- The piece that is being read has no separator so far; a separator ends it and starts an empty one.
  induction input generalizing piece with
  | nil =>
    obtain rfl := List.mem_singleton.mp hp
    exact fun c hc => hpiece c (List.mem_reverse.mp hc)
  | cons d rest ih =>
    rw [splitWhereFrom] at hp
    split at hp
    · rcases List.mem_cons.mp hp with rfl | hp
      · exact fun c hc => hpiece c (List.mem_reverse.mp hc)
      · exact ih (List.forall_mem_nil _) hp
    · rename_i hd
      exact ih (List.forall_mem_cons.mpr ⟨Bool.eq_false_iff.mpr hd, hpiece⟩) hp

theorem not_isSeparator_of_mem_splitWhere {input p : List α} (hp : p ∈ splitWhere isSeparator input) :
    ∀ c ∈ p, isSeparator c = false :=
  not_isSeparator_of_mem_splitWhereFrom (List.forall_mem_nil _) hp

section Symbol

variable [BEq α] [LawfulBEq α] (s : α)

/-- Joining with a symbol undoes cutting at it. -/
theorem intercalate_splitWhere (input : List α) : [s].intercalate (splitWhere (· == s) input) = input := by
  rw [splitWhere_eq_splitOnP]
  exact List.intercalate_splitOn s

/-- Cutting at a symbol undoes joining with it. -/
theorem splitWhere_intercalate {pieces : List (List α)} (hpieces : ∀ p ∈ pieces, s ∉ p) (hne : pieces ≠ []) :
    splitWhere (· == s) ([s].intercalate pieces) = pieces := by
  rw [splitWhere_eq_splitOnP]
  exact List.splitOn_intercalate s hpieces hne

end Symbol

end Gateway.Text
