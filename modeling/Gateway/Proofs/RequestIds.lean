import Gateway.Proofs.RadixIntegers

/-!
# Request ids do not repeat

The counter of request ids runs through all values below `limit` and starts again at zero, so it repeats after `limit`
ids and not before (`next_iterate`).  An id ends in the digits of its counter value, which hold no dash, and so the time
and the counter value can be told from it (`make_inj`).  Two ids of a run are the same only if the times read the same
and a whole round of the counter lies between them (`ids_distinct`).
-/

namespace Gateway.RequestId

/-! ## The counter -/

theorem next_eq_mod {counter : Nat} (h : counter < limit) : next counter = (counter + 1) % limit := by
  unfold next
  split
  · have hlast : counter + 1 = limit := by omega
    rw [hlast, Nat.mod_self]
  · rw [Nat.mod_eq_of_lt (by omega)]

theorem next_iterate (count : Nat) : next^[count] 0 = count % limit := by
  induction count with
  | zero => rfl
  | succ count ih =>
    rw [Function.iterate_succ_apply', ih, next_eq_mod (Nat.mod_lt count (by decide)), Nat.mod_add_mod]

/-- The counter has the same value twice only after a whole round. -/
theorem limit_le_of_next_iterate_eq {earlier i j : Nat} (hij : i < j)
    (h : next^[i] (next^[earlier] 0) = next^[j] (next^[earlier] 0)) : limit ≤ j - i := by
  rw [← Function.iterate_add_apply, ← Function.iterate_add_apply, next_iterate, next_iterate] at h
  unfold limit at h ⊢
  omega

/-! ## Single ids -/

/-- What follows the last dash of a text, read from its end. -/
theorem takeWhile_reverse (before : List Char) {after : List Char} (hafter : '-' ∉ after) :
    (before ++ '-' :: after).reverse.takeWhile (· != '-') = after.reverse := by
  have hno : ∀ c ∈ after.reverse, (c != '-') = true := by
    intro c hc
    rw [bne_iff_ne]
    rintro rfl
    exact hafter (List.mem_reverse.mp hc)
  rw [List.reverse_append, List.reverse_cons, List.append_assoc, List.singleton_append,
    List.takeWhile_append_of_pos hno, List.takeWhile_cons_of_neg (by decide), List.append_nil]

/-- A text is cut at its last dash in one way. -/
theorem append_dash_inj {before before' after after' : List Char} (hafter : '-' ∉ after) (hafter' : '-' ∉ after')
    (h : before ++ '-' :: after = before' ++ '-' :: after') : before = before' ∧ after = after' := by
  have hlast := takeWhile_reverse before hafter
  rw [h, takeWhile_reverse before' hafter'] at hlast
  obtain rfl : after' = after := List.reverse_injective hlast
  exact ⟨List.append_cancel_right h, rfl⟩

theorem make_inj {time time' : Number} {counter counter' : Nat} (h : make time counter = make time' counter') :
    time.radixChars 36 = time'.radixChars 36 ∧ counter = counter' := by
  obtain ⟨htime, hcounter⟩ := append_dash_inj (dash_not_mem_counterText counter) (dash_not_mem_counterText counter')
    (String.ofList_injective h)
  refine ⟨htime, ?_⟩
  rw [← foldl_counterText counter, hcounter, foldl_counterText]

/-! ## Runs of ids -/

theorem getElem?_sequence (counter : Nat) (times : List Number) (i : Nat) :
    (sequence counter times)[i]? = times[i]?.map fun time => make time (next^[i] counter) := by
  induction times generalizing counter i with
  | nil => rfl
  | cons time rest ih =>
    cases i with
    | zero => rfl
    | succ i =>
      rw [sequence, List.getElem?_cons_succ, List.getElem?_cons_succ, ih, Function.iterate_succ_apply]

/-- Two ids of a run are the same only if their times read the same and a whole round of the counter lies between. -/
theorem of_ids_eq {earlier i j : Nat} {times : List Number} {id : String} (hij : i < j)
    (hi : (sequence (next^[earlier] 0) times)[i]? = some id) (hj : (sequence (next^[earlier] 0) times)[j]? = some id) :
    limit ≤ j - i ∧ ∃ time time', times[i]? = some time ∧ times[j]? = some time' ∧
      time.radixChars 36 = time'.radixChars 36 := by
  rw [getElem?_sequence, Option.map_eq_some_iff] at hi hj
  obtain ⟨time, htime, rfl⟩ := hi
  obtain ⟨time', htime', hsame⟩ := hj
  obtain ⟨hchars, hcounter⟩ := make_inj hsame.symm
  exact ⟨limit_le_of_next_iterate_eq hij hcounter, time, time', htime, htime', hchars⟩

theorem sequence_nodup (earlier : Nat) {times : List Number} (h : times.length ≤ limit) :
    (sequence (next^[earlier] 0) times).Nodup := by
  rw [List.nodup_iff_getElem?_ne_getElem?]
  intro i j hij hj hsame
  obtain ⟨id, hid⟩ : ∃ id, (sequence (next^[earlier] 0) times)[j]? = some id := ⟨_, List.getElem?_eq_getElem hj⟩
  obtain ⟨hround, _, _, _, hlast, -⟩ := of_ids_eq hij (hsame.trans hid) hid
  have hlength := (List.getElem?_eq_some_iff.mp hlast).1
  omega

/-- Readings that never decrease, and are the same at two places, are the same at every place between. -/
theorem eq_between {times : List SafeInt} (hclock : times.Pairwise fun a b => a.val ≤ b.val) {i j k : Nat}
    {time : SafeInt} (hi : times[i]? = some time) (hj : times[j]? = some time) (hik : i < k) (hkj : k < j) :
    times[k]? = some time := by
  obtain ⟨hilength, hfirst⟩ := List.getElem?_eq_some_iff.mp hi
  obtain ⟨hjlength, hlast⟩ := List.getElem?_eq_some_iff.mp hj
  have hklength : k < times.length := hkj.trans hjlength
  rw [List.pairwise_iff_getElem] at hclock
  have hlow := hclock i k hilength hklength hik
  have hhigh := hclock k j hklength hjlength hkj
  rw [hfirst] at hlow
  rw [hlast] at hhigh
  rw [List.getElem?_eq_getElem hklength, SafeInt.eq_of_val_eq (Int.le_antisymm hhigh hlow)]

/-- Ids of at most 2^31 - 1 requests in a row are pairwise distinct, from any value of the counter on and whatever the
clock reads.  If the clock reads integers and never goes back, two requests of a run of any length have the same id only
if there are at least 2^31 - 2 requests between them, at all of which the clock reads the same. -/
theorem ids_distinct (earlier : Nat) :
    (∀ times : List Number, times.length ≤ 2 ^ 31 - 1 → (sequence (next^[earlier] 0) times).Nodup) ∧
      ∀ times : List SafeInt, times.Pairwise (fun a b => a.val ≤ b.val) →
        ∀ i j id, i < j → (sequence (next^[earlier] 0) (times.map .int))[i]? = some id →
          (sequence (next^[earlier] 0) (times.map .int))[j]? = some id →
          2 ^ 31 - 2 ≤ j - i - 1 ∧ ∃ time, ∀ k, i ≤ k → k ≤ j → times[k]? = some time := by
  refine ⟨fun times hlength => sequence_nodup earlier hlength, ?_⟩
  intro times hclock i j id hij hi hj
  obtain ⟨hround, time, time', htime, htime', hchars⟩ := of_ids_eq hij hi hj
  rw [List.getElem?_map, Option.map_eq_some_iff] at htime htime'
  obtain ⟨first, hfirst, rfl⟩ := htime
  obtain ⟨last, hlast, rfl⟩ := htime'
  obtain rfl := radixChars_int_injective hchars
  refine ⟨?_, first, ?_⟩
  · unfold limit at hround
    omega
  · intro k hik hkj
    rcases Nat.eq_or_lt_of_le hik with rfl | hik
    · exact hfirst
    · rcases Nat.eq_or_lt_of_le hkj with rfl | hkj
      · exact hlast
      · exact eq_between hclock hfirst hlast hik hkj

/-- The counter starts again after its last value, at times that go back; and where the clock stands still for a whole
round, the first id comes again right after it. -/
theorem ids_distinct_round :
    sequence (next^[2 ^ 31 - 2] 0) [7, 7, 3] = ["7-zik0zi", "7-0000", "3-0001"] ∧
      (sequence (next^[2 ^ 31 - 2] 0) [7, 7, 3]).Nodup ∧
      ∃ id, (sequence (next^[0] 0) ((List.replicate (2 ^ 31) (0 : SafeInt)).map .int))[0]? = some id ∧
        (sequence (next^[0] 0) ((List.replicate (2 ^ 31) (0 : SafeInt)).map .int))[2 ^ 31 - 1]? = some id ∧
        2 ^ 31 - 2 ≤ (2 ^ 31 - 1) - 0 - 1 ∧
        ∃ time, ∀ k, 0 ≤ k → k ≤ 2 ^ 31 - 1 → (List.replicate (2 ^ 31) (0 : SafeInt))[k]? = some time := by
  have hids : sequence (next^[2 ^ 31 - 2] 0) [7, 7, 3] = ["7-zik0zi", "7-0000", "3-0001"] := by
    rw [next_iterate]
    decide +kernel
  have hid : ∀ i, i < 2 ^ 31 →
      (sequence (next^[0] 0) ((List.replicate (2 ^ 31) (0 : SafeInt)).map .int))[i]? =
        some (make (.int 0) (i % limit)) := by
    intro i hi
    rw [getElem?_sequence, List.getElem?_map, List.getElem?_replicate, if_pos hi, ← Function.iterate_add_apply,
      next_iterate]
    rfl
  have hfirst := hid 0 (by decide)
  have hagain := hid (2 ^ 31 - 1) (by decide)
  have hstands : (List.replicate (2 ^ 31) (0 : SafeInt)).Pairwise fun a b => a.val ≤ b.val :=
    List.pairwise_replicate.mpr (.inr (Int.le_refl _))
  obtain ⟨hround, htime⟩ := (ids_distinct 0).2 _ hstands 0 (2 ^ 31 - 1) _ (by decide) hfirst hagain
  exact ⟨hids, (ids_distinct (2 ^ 31 - 2)).1 [7, 7, 3] (by decide), _, hfirst, hagain, hround, htime⟩

end Gateway.RequestId
