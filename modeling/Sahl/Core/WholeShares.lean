import Mathlib.Tactic
import Mathlib.Data.List.GetD
import Sahl.Lib.Apportion
import Sahl.Core.Allocation

/-! # A share that is the whole amount

    The least amount has a magnitude that no `i64` holds, and is allocated wherever no single share
    has to hold it. Which weights leave it to one share is read off those that are positive
    (`allocate_answers_iff`). -/

namespace Sahl

namespace Money

/-! ## Section 1: The positive weights -/

/-- Weights that leave the least amount to one share: a single positive one, or the greatest before
    a single one. -/
def TakesAll (weights : List U64) : Prop :=
  let positive := (weights.map (·.val)).filter (0 < ·)
  positive.length = 1 ∨ positive = [18446744073709551615, 1]

instance (weights : List U64) : Decidable (TakesAll weights) :=
  inferInstanceAs (Decidable (_ ∨ _))

theorem filter_pos_eq_nil {xs : List Nat} : xs.filter (0 < ·) = [] ↔ xs.sum = 0 := by
  rw [List.filter_eq_nil_iff, List.sum_eq_zero_iff]
  refine forall₂_congr fun x _ => ?_
  rw [decide_eq_true_eq]
  omega

theorem sum_filter_pos (xs : List Nat) : (xs.filter (0 < ·)).sum = xs.sum := by
  induction xs with
  | nil => rfl
  | cons x xs ih =>
    by_cases hx : 0 < x
    · rw [List.filter_cons_of_pos (by simpa using hx), List.sum_cons, List.sum_cons, ih]
    · rw [List.filter_cons_of_neg (by simpa using hx), List.sum_cons, ih]
      omega

/-- Only a single one comes to one. -/
theorem filter_pos_of_sum_one {xs : List Nat} (h : xs.sum = 1) : xs.filter (0 < ·) = [1] := by
  induction xs with
  | nil => cases h
  | cons x xs ih =>
    rw [List.sum_cons] at h
    by_cases hx : 0 < x
    · have hone : x = 1 := by omega
      have hrest : xs.sum = 0 := by omega
      rw [List.filter_cons_of_pos (by simpa using hx), filter_pos_eq_nil.mpr hrest, hone]
    · rw [List.filter_cons_of_neg (by simpa using hx)]
      exact ih (by omega)

/-! ## Section 2: The share of one weight -/

/-- A weight takes everything where the weights before it stay behind, and those after it do not
    get ahead. -/
theorem sweeps_split {amount weight : Nat} {before after : List Nat} :
    Apportion.Sweeps amount (before ++ weight :: after) before.length ↔
      (∀ v ∈ before, amount * (v + (before.sum + after.sum)) <
        weight + (before.sum + after.sum)) ∧
      ∀ v ∈ after, amount * (v + (before.sum + after.sum)) ≤
        weight + (before.sum + after.sum) := by
  have hsum : (before ++ weight :: after).sum = weight + (before.sum + after.sum) := by
    rw [List.sum_append, List.sum_cons]
    omega
  have hself : (before ++ weight :: after).getD before.length 0 = weight := by simp
  unfold Apportion.Sweeps
  rw [hself, hsum, Nat.add_sub_cancel_left]
  constructor
  · intro h
    constructor
    · intro v hv
      obtain ⟨j, hj, rfl⟩ := List.getElem_of_mem hv
      have hstays := h j (by simp; omega) hj.ne
      rw [List.getD_append _ _ _ _ hj, List.getD_eq_getElem _ _ hj] at hstays
      omega
    · intro v hv
      obtain ⟨j, hj, rfl⟩ := List.getElem_of_mem hv
      have hstays := h (before.length + (j + 1)) (by simp; omega) (by omega)
      rw [List.getD_append_right _ _ _ _ (by omega), Nat.add_sub_cancel_left, List.getD_cons_succ,
        List.getD_eq_getElem _ _ hj] at hstays
      omega
  · -- a position beside it stands before it or after it
    intro h j hj hne
    obtain ⟨hbefore, hafter⟩ := h
    rw [List.length_append, List.length_cons] at hj
    rcases lt_or_gt_of_ne hne with hless | hmore
    · rw [List.getD_append _ _ _ _ hless, List.getD_eq_getElem _ _ hless]
      exact .inl (hbefore _ (List.getElem_mem hless))
    · obtain ⟨k, rfl⟩ := Nat.exists_eq_add_of_lt hmore
      have hk : k < after.length := by omega
      rw [Nat.add_assoc, List.getD_append_right _ _ _ _ (by omega), Nat.add_sub_cancel_left,
        List.getD_cons_succ, List.getD_eq_getElem _ _ hk]
      have hstays := hafter _ (List.getElem_mem hk)
      omega

section Positive

variable {ws : List Nat}

/-- A single positive weight takes everything, and so does the greatest before a single one. -/
theorem sweeps_of_positive (h : (ws.filter (0 < ·)).length = 1 ∨
    ws.filter (0 < ·) = [18446744073709551615, 1]) :
    ∃ i < ws.length, Apportion.Sweeps (2 ^ 63) ws i := by
  -- the first positive weight, and what comes before and after it
  have hfirst : ∃ w rest, ws.filter (0 < ·) = w :: rest ∧ (rest = [] ∨
      w = 18446744073709551615 ∧ rest = [1]) := by
    rcases h with h | h
    · obtain ⟨w, hw⟩ := List.length_eq_one_iff.mp h
      exact ⟨w, [], hw, .inl rfl⟩
    · exact ⟨_, _, h, .inr ⟨rfl, rfl⟩⟩
  obtain ⟨w, rest, hfilter, hrest⟩ := hfirst
  obtain ⟨before, after, rfl, hnone, hw, hafter⟩ := List.filter_eq_cons_iff.mp hfilter
  have hzero : ∀ v ∈ before, v = 0 := fun v hv => by simpa using hnone v hv
  have hbefore : before.sum = 0 := List.sum_eq_zero_iff.mpr hzero
  have hwpos : 0 < w := by simpa using hw
  have htotal : after.sum = rest.sum := by rw [← hafter, sum_filter_pos]
  refine ⟨before.length, by simp, sweeps_split.mpr ⟨fun v hv => ?_, fun v hv => ?_⟩⟩
  · rw [hzero v hv, hbefore, htotal]
    rcases hrest with rfl | ⟨rfl, rfl⟩
    · simpa using hwpos
    · decide
  · have hle := List.single_le_sum (fun _ _ => Nat.zero_le _) v hv
    rw [hbefore, htotal]
    rw [htotal] at hle
    rcases hrest with rfl | ⟨rfl, rfl⟩
    · simp only [List.sum_nil] at hle ⊢
      omega
    · simp only [List.sum_singleton] at hle ⊢
      omega

/-- A weight that takes the least amount has no positive one before it, and after it at most a
    single one, where it is the greatest itself. -/
theorem positive_of_sweeps (hpositive : 0 < ws.sum) (hsmall : ∀ w ∈ ws, w < 2 ^ 64) {i : Nat}
    (hi : i < ws.length) (hsweeps : Apportion.Sweeps (2 ^ 63) ws i) :
    (ws.filter (0 < ·)).length = 1 ∨ ws.filter (0 < ·) = [18446744073709551615, 1] := by
  have hsplit : ws = ws.take i ++ ws[i] :: ws.drop (i + 1) := by simp
  have hlength : (ws.take i).length = i := by
    rw [List.length_take]
    omega
  generalize hbefore : ws.take i = before at hsplit hlength
  generalize hafter : ws.drop (i + 1) = after at hsplit
  generalize hweight : ws[i] = w at hsplit
  have hw : w < 2 ^ 64 := hsmall w (by rw [hsplit]; simp)
  rw [hsplit, ← hlength, sweeps_split] at hsweeps
  obtain ⟨hless, hle⟩ := hsweeps
  rw [hsplit, List.sum_append, List.sum_cons] at hpositive
  rw [hsplit, List.filter_append]
  by_cases hothers : before.sum + after.sum = 0
  · -- all the others are nothing
    have hwpos : 0 < w := by omega
    rw [filter_pos_eq_nil.mpr (by omega), List.nil_append,
      List.filter_cons_of_pos (by simpa using hwpos), filter_pos_eq_nil.mpr (by omega)]
    exact .inl rfl
  · -- a positive one before it would have to weigh less than nothing, and one after it weighs one
    have hnone : before.sum = 0 := by
      rw [List.sum_eq_zero_iff]
      intro v hv
      have hstays := hless v hv
      omega
    have hone : after.sum = 1 ∧ w = 18446744073709551615 := by
      obtain ⟨v, hv, hpos⟩ : ∃ v ∈ after, 0 < v := by
        by_contra hzero
        have hsum : after.sum = 0 := List.sum_eq_zero_iff.mpr fun v hv => by
          by_contra hpos
          exact hzero ⟨v, hv, Nat.pos_of_ne_zero hpos⟩
        omega
      have hstays := hle v hv
      omega
    rw [filter_pos_eq_nil.mpr hnone, List.nil_append,
      List.filter_cons_of_pos (by simp [hone.2]), filter_pos_of_sum_one hone.1, hone.2]
    exact .inr rfl

end Positive

/-- Among 64-bit weights one takes the least amount as a single positive weight, or as the
    greatest there is before a single one. -/
theorem takesAll_iff {weights : List U64} (hpositive : 0 < (weights.map (·.val)).sum) :
    TakesAll weights ↔ ∃ i < (weights.map (·.val)).length,
      Apportion.Sweeps (2 ^ 63) (weights.map (·.val)) i := by
  have hsmall : ∀ w ∈ weights.map (·.val), w < 2 ^ 64 := by
    intro w hw
    obtain ⟨weight, -, rfl⟩ := List.mem_map.mp hw
    exact weight.isLt
  constructor
  · exact sweeps_of_positive
  · intro h
    obtain ⟨i, hi, hsweeps⟩ := h
    exact positive_of_sweeps hpositive hsmall hi hsweeps

/-! ## Section 3: Which requests are answered -/

/-- A magnitude has its share where an `i64` holds it. -/
theorem signedShare_isOkay {m : Money} {magnitude : Nat} :
    (signedShare (m.minor.val < 0) m.currency magnitude).isOkay = true ↔
      magnitude < 9223372036854775808 := by
  rw [Except.isOkay_iff]
  constructor
  · intro h
    obtain ⟨share, hshare⟩ := h
    exact (signedShare_eq_ok.mp hshare).1
  · intro h
    by_cases hnegative : m.minor.val < 0
    · exact ⟨⟨I64.lit (-magnitude) (decide_eq_true (by omega)), m.currency⟩,
        signedShare_eq_ok.mpr ⟨h, rfl, (if_pos hnegative).symm⟩⟩
    · exact ⟨⟨I64.lit magnitude (decide_eq_true (by omega)), m.currency⟩,
        signedShare_eq_ok.mpr ⟨h, rfl, (if_neg hnegative).symm⟩⟩

/-- A share is too great only as the whole of the least amount, in the hands of one weight. -/
theorem magnitudes_fit_iff {m : Money} {weights : List U64}
    (hpositive : 0 < (weights.map (·.val)).sum) :
    (∀ magnitude ∈ m.magnitudes weights, magnitude < 9223372036854775808) ↔
      ¬ (m.minor.val = -9223372036854775808 ∧ TakesAll weights) := by
  have hsum := @sum_magnitudes m weights hpositive
  have hbound := m.natAbs_minor_le
  have hlow := m.minor.lo'
  have hhigh := m.minor.hi'
  -- a share of the least amount is too great only as all of it
  have hwhole : ∀ {i magnitude : Nat}, m.minor.val = -9223372036854775808 →
      (m.magnitudes weights)[i]? = some magnitude →
      (magnitude = 2 ^ 63 ↔ Apportion.Sweeps (2 ^ 63) (weights.map (·.val)) i) := by
    intro i magnitude hleast hmagnitude
    have habs : m.minor.val.natAbs = 2 ^ 63 := by omega
    have hi := (List.getElem?_eq_some_iff.mp hmagnitude).1
    rw [magnitudes, Apportion.length_shares] at hi
    rw [magnitudes, habs] at hmagnitude
    exact Apportion.shares_eq_amount_iff hpositive (by decide) (leftoverOrder_places _ _)
      (leftoverOrder_ahead _ _) hmagnitude (List.getElem?_eq_getElem hi)
  constructor
  · intro hfits h
    obtain ⟨hleast, htakes⟩ := h
    obtain ⟨i, hi, hsweeps⟩ := (takesAll_iff hpositive).mp htakes
    have hlength : i < (m.magnitudes weights).length := by
      rw [magnitudes, Apportion.length_shares]
      exact hi
    have hall := (hwhole hleast (List.getElem?_eq_getElem hlength)).mpr hsweeps
    have hless := hfits _ (List.getElem_mem hlength)
    omega
  · intro h magnitude hmem
    by_contra hgreat
    have hle := List.single_le_sum (fun _ _ => Nat.zero_le _) magnitude hmem
    have hleast : m.minor.val = -9223372036854775808 := by omega
    obtain ⟨i, hi⟩ := List.mem_iff_getElem?.mp hmem
    refine h ⟨hleast, (takesAll_iff hpositive).mpr ⟨i, ?_, (hwhole hleast hi).mp (by omega)⟩⟩
    rw [← @Apportion.length_shares m.minor.val.natAbs (weights.map (·.val))]
    exact (List.getElem?_eq_some_iff.mp hi).1

/-- **Which requests are answered**: an amount is allocated over weights with a total that a `u128`
    holds, unless it is the least one and the weights leave it to a single share. -/
theorem allocate_answers_iff {m : Money} {weights : List U64}
    (hpositive : 0 < (weights.map (·.val)).sum) :
    (∃ shares, m.allocate weights = .ok shares) ↔ (weights.map (·.val)).sum < 2 ^ 128 ∧
      ¬ (m.minor.val = -9223372036854775808 ∧ TakesAll weights) := by
  rw [← magnitudes_fit_iff hpositive]
  have hanswered : ∀ hfits : (weights.map (·.val)).sum < 2 ^ 128,
      (∃ shares, m.allocate weights = .ok shares) ↔
        ∀ magnitude ∈ m.magnitudes weights, magnitude < 9223372036854775808 := by
    intro hfits
    rw [allocate_eq hpositive hfits, ← Except.isOkay_iff, mapM_isOkay]
    exact forall₂_congr fun _ _ => signedShare_isOkay
  constructor
  · intro h
    obtain ⟨shares, hshares⟩ := h
    have hfits := (allocate_weights hshares).2
    exact ⟨hfits, (hanswered hfits).mp ⟨shares, hshares⟩⟩
  · intro h
    exact (hanswered h.1).mpr h.2

/-- The least amount is split in halves, which fit. -/
theorem allocate_answers_halves :
    ∃ shares, (⟨I64.lit (-9223372036854775808), .bdt⟩ : Money).allocate [1, 1] = .ok shares :=
  (allocate_answers_iff (by decide)).mpr ⟨by decide, by decide⟩

/-- The least amount is not allocated to the one who is to have all of it. -/
theorem least_refused : ¬ ∀ (m : Money) (weights : List U64), weights ≠ [] →
    0 < (weights.map (·.val)).sum → ∃ shares, m.allocate weights = .ok shares := by
  intro hclaim
  obtain ⟨shares, hshares⟩ :=
    hclaim ⟨I64.lit (-9223372036854775808), .bdt⟩ [1] (by decide) (by decide)
  have hrefused : (⟨I64.lit (-9223372036854775808), .bdt⟩ : Money).allocate [1] =
      .error .overflow := by decide +kernel
  rw [hrefused] at hshares
  cases hshares

end Money

end Sahl
