import Mathlib.Tactic
import Mathlib.Data.List.Sort

/-! # Apportionment by largest remainder

    An amount is split in proportion to weights: everyone gets the whole part of their share, and
    the units left over go out one each, largest remainder first. The shares come to the amount,
    and where the amount is no more than the weights together, no share is more than its weight. -/

namespace Apportion

/-! ## One more unit for some positions -/

/-- One more unit at position `i`. -/
def bump (shares : List Nat) (i : Nat) : List Nat := shares.modify i (· + 1)

theorem sum_bump {shares : List Nat} {i : Nat} (h : i < shares.length) :
    (bump shares i).sum = shares.sum + 1 := by
  unfold bump
  induction shares generalizing i with
  | nil => simp at h
  | cons share shares ih =>
    cases i with
    | zero =>
      simp
      omega
    | succ i =>
      have hrest : i < shares.length := by simpa using h
      simp [ih hrest]
      omega

theorem length_foldl_bump (positions shares : List Nat) :
    (positions.foldl bump shares).length = shares.length := by
  induction positions generalizing shares with
  | nil => rfl
  | cons i positions ih =>
    rw [List.foldl_cons, ih]
    simp [bump]

theorem sum_foldl_bump {positions shares : List Nat} (h : ∀ i ∈ positions, i < shares.length) :
    (positions.foldl bump shares).sum = shares.sum + positions.length := by
  induction positions generalizing shares with
  | nil => rfl
  | cons i positions ih =>
    obtain ⟨hi, hrest⟩ := List.forall_mem_cons.mp h
    have hbumped : ∀ j ∈ positions, j < (bump shares i).length := by
      intro j hj
      simpa [bump] using hrest j hj
    rw [List.foldl_cons, ih hbumped, sum_bump hi, List.length_cons]
    omega

theorem getElem?_foldl_bump (positions shares : List Nat) (j : Nat) :
    (positions.foldl bump shares)[j]? = shares[j]?.map (· + positions.count j) := by
  induction positions generalizing shares with
  | nil => simp
  | cons i positions ih =>
    rw [List.foldl_cons, ih, bump, List.getElem?_modify, List.count_cons]
    cases shares[j]? with
    | none => rfl
    | some share =>
      by_cases hij : i = j
      · simp [hij]
        omega
      · simp [hij]

/-! ## Who the units left over go to -/

/-- Of positions in falling order of a figure, the first few have a positive one, when at least
    that many do. -/
theorem take_positive {figure : Nat → Nat} {order positions : List Nat} {k : Nat}
    (hperm : order.Perm positions) (hsorted : order.Pairwise fun a b => figure b ≤ figure a)
    (hk : k ≤ (positions.filter (0 < figure ·)).length) : ∀ i ∈ order.take k, 0 < figure i := by
  intro i hi
  by_contra hzero
  obtain ⟨n, hn, rfl⟩ := List.getElem_of_mem hi
  rw [List.length_take] at hn
  rw [List.getElem_take] at hzero
  -- nothing from position `n` on has a positive figure
  have hafter : (order.drop n).filter (0 < figure ·) = [] := by
    rw [List.filter_eq_nil_iff]
    intro j hj
    rw [List.drop_eq_getElem_cons (by omega)] at hj
    rcases List.mem_cons.mp hj with rfl | hj
    · simpa using hzero
    · have hsplit := hsorted
      rw [← List.take_append_drop n order, List.pairwise_append,
        List.drop_eq_getElem_cons (by omega), List.pairwise_cons] at hsplit
      have hle := hsplit.2.1.1 j hj
      simp only [decide_eq_true_eq]
      omega
  have hcount : (positions.filter (0 < figure ·)).length ≤ n := by
    rw [← (hperm.filter _).length_eq, ← List.take_append_drop n order, List.filter_append, hafter,
      List.append_nil]
    exact (List.length_filter_le _ _).trans (by rw [List.length_take]; omega)
  omega

/-! ## The split -/

section Split

variable (amount : Nat) (weights : List Nat)

/-- The whole parts. -/
def whole : List Nat := weights.map (amount * · / weights.sum)

/-- What is left of each. -/
def left : List Nat := weights.map (amount * · % weights.sum)

variable {amount weights}

theorem sum_div_add_sum_mod (amount total : Nat) (weights : List Nat) :
    (weights.map (amount * · / total)).sum * total + (weights.map (amount * · % total)).sum =
      amount * weights.sum := by
  induction weights with
  | nil => simp
  | cons weight weights ih =>
    have hone := Nat.div_add_mod (amount * weight) total
    rw [mul_comm] at hone
    simp only [List.map_cons, List.sum_cons, add_mul, mul_add]
    omega

/-- What is left of all of them is a whole number of units. -/
theorem sum_left (amount : Nat) (h : 0 < weights.sum) :
    (whole amount weights).sum ≤ amount ∧
      (amount - (whole amount weights).sum) * weights.sum = (left amount weights).sum := by
  have hsum := sum_div_add_sum_mod amount weights.sum weights
  have hle : (whole amount weights).sum ≤ amount := by
    refine Nat.le_of_mul_le_mul_right ?_ h
    unfold whole
    omega
  refine ⟨hle, ?_⟩
  rw [Nat.sub_mul]
  unfold whole left
  omega

theorem sum_le_mul_positive {figures : List Nat} {total : Nat} (h : ∀ n ∈ figures, n ≤ total) :
    figures.sum ≤ (figures.filter (0 < ·)).length * total := by
  induction figures with
  | nil => simp
  | cons n figures ih =>
    obtain ⟨hn, hrest⟩ := List.forall_mem_cons.mp h
    have hsum := ih hrest
    by_cases hpos : 0 < n
    · simp only [List.sum_cons, List.filter_cons, hpos, decide_true, if_true, List.length_cons,
        add_mul, one_mul]
      omega
    · simp only [List.sum_cons, List.filter_cons, hpos, decide_false]
      simp only [Bool.false_eq_true, if_false]
      omega

/-- There is something left of at least as many as there are units left over. -/
theorem leftover_le_positive (amount : Nat) (h : 0 < weights.sum) :
    amount - (whole amount weights).sum ≤
      ((List.range weights.length).filter (0 < (left amount weights).getD · 0)).length := by
  have hlist : left amount weights =
      (List.range weights.length).map ((left amount weights).getD · 0) := by
    refine List.ext_getElem (by simp [left]) fun i hi _ => ?_
    rw [List.getElem_map, List.getElem_range, List.getD_eq_getElem?_getD,
      List.getElem?_eq_getElem hi, Option.getD_some]
  have hcount : ((List.range weights.length).filter (0 < (left amount weights).getD · 0)).length =
      ((left amount weights).filter (0 < ·)).length := by
    rw [hlist, List.filter_map, List.length_map, ← hlist]
    rfl
  have hleft : ∀ n ∈ left amount weights, n ≤ weights.sum := by
    intro n hn
    obtain ⟨weight, -, rfl⟩ := List.mem_map.mp hn
    exact (Nat.mod_lt _ h).le
  rw [hcount]
  refine Nat.le_of_mul_le_mul_right ?_ h
  rw [(sum_left amount h).2]
  exact sum_le_mul_positive hleft

/-- The shares, the units left over going out in the given order. -/
def shares (amount : Nat) (weights order : List Nat) : List Nat :=
  (order.take (amount - (whole amount weights).sum)).foldl bump (whole amount weights)

variable {order : List Nat}

theorem length_shares : (shares amount weights order).length = weights.length := by
  rw [shares, length_foldl_bump, whole, List.length_map]

/-- The shares come to the amount. -/
theorem sum_shares (h : 0 < weights.sum) (hperm : order.Perm (List.range weights.length)) :
    (shares amount weights order).sum = amount := by
  have hplaces : ∀ i ∈ order.take (amount - (whole amount weights).sum),
      i < (whole amount weights).length := by
    intro i hi
    have hmem := hperm.mem_iff.mp (List.mem_of_mem_take hi)
    simpa [whole] using hmem
  have henough := leftover_le_positive amount h
  have hfew : amount - (whole amount weights).sum ≤ order.length := by
    rw [hperm.length_eq]
    exact henough.trans (List.length_filter_le _ _)
  rw [shares, sum_foldl_bump hplaces, List.length_take, min_eq_left hfew]
  have := (sum_left amount h).1
  omega

/-- A share is its whole part, and one unit more where its position is among the first few. -/
theorem share_eq (hperm : order.Perm (List.range weights.length)) {i share weight : Nat}
    (hshare : (shares amount weights order)[i]? = some share)
    (hweight : weights[i]? = some weight) :
    share = amount * weight / weights.sum +
      if i ∈ order.take (amount - (whole amount weights).sum) then 1 else 0 := by
  rw [shares, getElem?_foldl_bump, whole, List.getElem?_map, hweight] at hshare
  simp only [Option.map_some, Option.some.injEq] at hshare
  rw [← hshare]
  have honce : (order.take (amount - (whole amount weights).sum)).Nodup :=
    (hperm.nodup_iff.mpr List.nodup_range).sublist (List.take_sublist _ _)
  unfold whole at honce ⊢
  split
  · rename_i hmem
    rw [List.count_eq_one_of_mem honce hmem]
  · rename_i hmem
    rw [List.count_eq_zero_of_not_mem hmem]

/-- A share is its exact part, rounded down or up: nothing is added to a part that is whole. -/
theorem share_near (h : 0 < weights.sum) (hperm : order.Perm (List.range weights.length))
    (hsorted : order.Pairwise fun a b =>
      (left amount weights).getD b 0 ≤ (left amount weights).getD a 0)
    {i share weight : Nat} (hshare : (shares amount weights order)[i]? = some share)
    (hweight : weights[i]? = some weight) :
    share = amount * weight / weights.sum ∨
      0 < amount * weight % weights.sum ∧ share = amount * weight / weights.sum + 1 := by
  have heq := share_eq hperm hshare hweight
  by_cases hmem : i ∈ order.take (amount - (whole amount weights).sum)
  · -- a unit left over goes to someone whose share has a fraction
    have hpositive := take_positive hperm hsorted (leftover_le_positive amount h) i hmem
    rw [if_pos hmem] at heq
    exact .inr ⟨by simpa [left, List.getD_eq_getElem?_getD, hweight] using hpositive, heq⟩
  · rw [if_neg hmem] at heq
    exact .inl heq

/-- No share is more than its weight. -/
theorem shares_le (h : 0 < weights.sum) (hle : amount ≤ weights.sum)
    (hperm : order.Perm (List.range weights.length))
    (hsorted : order.Pairwise fun a b =>
      (left amount weights).getD b 0 ≤ (left amount weights).getD a 0)
    {i share weight : Nat} (hshare : (shares amount weights order)[i]? = some share)
    (hweight : weights[i]? = some weight) : share ≤ weight := by
  have hscaled : amount * weight ≤ weight * weights.sum := by
    rw [mul_comm weight]
    exact Nat.mul_le_mul_right weight hle
  have hparts := Nat.div_add_mod (amount * weight) weights.sum
  rw [mul_comm] at hparts
  rcases share_near h hperm hsorted hshare hweight with hwhole | ⟨hfraction, hmore⟩
  · rw [hwhole]
    refine Nat.le_of_mul_le_mul_right (c := weights.sum) ?_ h
    omega
  · have hless : amount * weight / weights.sum < weight := by
      refine Nat.lt_of_mul_lt_mul_right (a := weights.sum) ?_
      omega
    omega

/-! ## Who gets nothing -/

/-- The records of a sorted list that come before one of them are those that rank before it. -/
theorem mem_take_iff_rank {α : Type} {before : α → α → Prop} [DecidableRel before]
    {xs : List α} {x : α} (hasymm : ∀ a b, before a b → ¬ before b a)
    (hsorted : xs.Pairwise before) (hx : x ∈ xs) (k : Nat) :
    x ∈ xs.take k ↔ (xs.filter (before · x)).length < k := by
  obtain ⟨earlier, later, rfl⟩ := List.append_of_mem hx
  obtain ⟨-, hlater, hbefore⟩ := List.pairwise_append.mp hsorted
  have hself : ¬ before x x := fun h => hasymm x x h h
  -- those in front rank before it, and of the rest none does
  have hearlier : earlier.filter (before · x) = earlier :=
    List.filter_eq_self.mpr fun a ha => by simpa using hbefore a ha x List.mem_cons_self
  have hrest : (x :: later).filter (before · x) = [] := by
    rw [List.filter_eq_nil_iff]
    intro a ha
    rcases List.mem_cons.mp ha with rfl | ha
    · simpa using hself
    · simpa using hasymm x a ((List.pairwise_cons.mp hlater).1 a ha)
  rw [List.filter_append, hearlier, hrest, List.append_nil]
  constructor
  · intro hmem
    by_contra hfew
    rw [List.take_append_of_le_length (by omega)] at hmem
    exact hself (hbefore x (List.mem_of_mem_take hmem) x List.mem_cons_self)
  · intro hmany
    rw [List.take_append, List.take_of_length_le (by omega), List.mem_append,
      show k - earlier.length = (k - earlier.length - 1) + 1 by omega, List.take_succ_cons]
    exact .inr List.mem_cons_self

variable (amount weights) in
/-- Whether a position is ahead of another for the units left over. -/
def Ahead (j i : Nat) : Prop :=
  (left amount weights).getD i 0 < (left amount weights).getD j 0 ∨
    (left amount weights).getD i 0 = (left amount weights).getD j 0 ∧ j < i

instance (amount : Nat) (weights : List Nat) : DecidableRel (Ahead amount weights) :=
  fun _ _ => inferInstanceAs (Decidable (_ ∨ _))

theorem ahead_asymm {a b : Nat} (hab : Ahead amount weights a b) : ¬ Ahead amount weights b a := by
  intro hba
  unfold Ahead at hab hba
  omega

variable (amount weights) in
/-- A position with no whole part, and with no fewer positions ahead of it than there are units
    left over: all that is left, in whole units. -/
def Spared (i : Nat) : Prop :=
  amount * weights.getD i 0 < weights.sum ∧
    (left amount weights).sum ≤
      ((List.range weights.length).filter (Ahead amount weights · i)).length * weights.sum

instance (amount : Nat) (weights : List Nat) (i : Nat) : Decidable (Spared amount weights i) :=
  inferInstanceAs (Decidable (_ ∧ _))

/-- A share is nothing exactly where its position is spared. -/
theorem shares_eq_zero_iff (h : 0 < weights.sum)
    (hperm : order.Perm (List.range weights.length))
    (hsorted : order.Pairwise (Ahead amount weights)) {i share : Nat}
    (hshare : (shares amount weights order)[i]? = some share) :
    share = 0 ↔ Spared amount weights i := by
  have hi : i < weights.length := by
    rw [← @length_shares amount weights order]
    exact (List.getElem?_eq_some_iff.mp hshare).1
  have hmem : i ∈ order := hperm.mem_iff.mpr (List.mem_range.mpr hi)
  have hrank := mem_take_iff_rank (fun _ _ => ahead_asymm) hsorted hmem
    (amount - (whole amount weights).sum)
  rw [(hperm.filter _).length_eq] at hrank
  have hunits := (sum_left amount h).2
  rw [shares, getElem?_foldl_bump, whole, List.getElem?_map, List.getElem?_eq_getElem hi] at hshare
  simp only [Option.map_some, Option.some.injEq] at hshare
  have hweight : weights.getD i 0 = weights[i] := by
    rw [List.getD_eq_getElem?_getD, List.getElem?_eq_getElem hi, Option.getD_some]
  rw [Spared, hweight, ← Nat.div_eq_zero_iff_lt h, ← hunits, Nat.mul_le_mul_right_iff h,
    ← not_lt, ← hrank, ← List.count_eq_zero, ← hshare]
  exact Nat.add_eq_zero_iff

/-- Whoever is among the first few is ahead of whoever is not. -/
theorem ahead_of_take (hahead : order.Pairwise (Ahead amount weights)) {i j k : Nat}
    (hj : j ∈ order) (hfirst : i ∈ order.take k) (hlater : j ∉ order.take k) :
    Ahead amount weights i j := by
  rw [← List.take_append_drop k order, List.mem_append] at hj
  rw [← List.take_append_drop k order, List.pairwise_append] at hahead
  exact hahead.2.2 i hfirst j (hj.resolve_left hlater)

/-! ## A larger weight -/

/-- A larger weight has no smaller share. -/
theorem share_mono (hperm : order.Perm (List.range weights.length))
    (hahead : order.Pairwise (Ahead amount weights)) {i j share share' weight weight' : Nat}
    (hshare : (shares amount weights order)[i]? = some share)
    (hshare' : (shares amount weights order)[j]? = some share')
    (hweight : weights[i]? = some weight) (hweight' : weights[j]? = some weight')
    (hless : weight < weight') : share ≤ share' := by
  set units := amount - (whole amount weights).sum with hunits
  have heq := share_eq hperm hshare hweight
  have heq' := share_eq hperm hshare' hweight'
  have hparts := Nat.div_add_mod (amount * weight) weights.sum
  have hparts' := Nat.div_add_mod (amount * weight') weights.sum
  have hscaled : amount * weight ≤ amount * weight' := Nat.mul_le_mul_left amount hless.le
  have hwhole : amount * weight / weights.sum ≤ amount * weight' / weights.sum :=
    Nat.div_le_div_right hscaled
  rw [← hunits] at heq heq'
  by_cases hmem : i ∈ order.take units
  · by_cases hmem' : j ∈ order.take units
    · rw [if_pos hmem] at heq
      rw [if_pos hmem'] at heq'
      omega
    · -- a unit goes to the smaller weight alone only where the whole parts differ
      rw [if_pos hmem] at heq
      rw [if_neg hmem'] at heq'
      have hj : j ∈ order :=
        hperm.mem_iff.mpr (List.mem_range.mpr (List.getElem?_eq_some_iff.mp hweight').1)
      have hij := ahead_of_take hahead hj hmem hmem'
      have hpositive : 0 < amount := by
        by_contra hzero
        have hnone : units = 0 := by omega
        rw [hnone, List.take_zero] at hmem
        exact List.not_mem_nil hmem
      have hstrict : amount * weight < amount * weight' :=
        Nat.mul_lt_mul_of_pos_left hless hpositive
      unfold Ahead left at hij
      simp only [List.getD_eq_getElem?_getD, List.getElem?_map, hweight, hweight', Option.map_some,
        Option.getD_some] at hij
      by_contra hcon
      have hsame : amount * weight / weights.sum = amount * weight' / weights.sum := by omega
      rw [hsame] at hparts
      omega
  · rw [if_neg hmem] at heq
    omega

/-! ## Who gets everything -/

variable (amount weights) in
/-- A position that takes the whole amount: every other one stays behind it by what all the others
    weigh together. -/
def Sweeps (i : Nat) : Prop := ∀ j < weights.length, j ≠ i →
  amount * (weights.getD j 0 + (weights.sum - weights.getD i 0)) < weights.sum ∨
    amount * (weights.getD j 0 + (weights.sum - weights.getD i 0)) = weights.sum ∧ i < j

/-- Where one number is the sum of all, the others are nothing. -/
theorem eq_zero_of_sum_le {xs : List Nat} {i j x y : Nat} (hx : xs[i]? = some x)
    (hsum : xs.sum ≤ x) (hy : xs[j]? = some y) (hne : j ≠ i) : y = 0 := by
  induction xs generalizing i j with
  | nil => cases hx
  | cons z xs ih =>
    rw [List.sum_cons] at hsum
    -- any entry is at most the sum of those it is among
    have hle : ∀ {k w : Nat}, xs[k]? = some w → w ≤ xs.sum := fun h =>
      List.single_le_sum (fun _ _ => Nat.zero_le _) _ (List.mem_of_getElem? h)
    cases i with
    | zero =>
      have hz : z = x := by simpa using hx
      cases j with
      | zero => exact absurd rfl hne
      | succ j =>
        have hy := hle (by simpa using hy)
        omega
    | succ i =>
      have hx : xs[i]? = some x := by simpa using hx
      have hxle := hle hx
      cases j with
      | zero =>
        have hz : z = y := by simpa using hy
        omega
      | succ j => exact ih hx (by omega) (by simpa using hy) (by omega)

/-- A weight short of the whole by less than one unit's worth has all units but one, and that is
    what is left for it. -/
theorem parts_of_short {weight : Nat} (hweight : weight ≤ weights.sum)
    (hshort : amount * (weights.sum - weight) < weights.sum) (hpositive : weight < weights.sum)
    (hamount : 0 < amount) :
    amount * weight / weights.sum + 1 = amount ∧
      amount * weight % weights.sum = weights.sum - amount * (weights.sum - weight) := by
  have hscaled : amount * weight + amount * (weights.sum - weight) = amount * weights.sum := by
    rw [← Nat.mul_add, Nat.add_sub_cancel' hweight]
  have hone : 0 < amount * (weights.sum - weight) := Nat.mul_pos hamount (by omega)
  have hparts : amount * weight =
      weights.sum * (amount - 1) + (weights.sum - amount * (weights.sum - weight)) := by
    have hall : weights.sum * amount = weights.sum * (amount - 1) + weights.sum := by
      rw [← Nat.mul_succ, Nat.succ_eq_add_one, Nat.sub_add_cancel hamount]
    rw [Nat.mul_comm amount weights.sum] at hscaled
    omega
  have hless : weights.sum - amount * (weights.sum - weight) < weights.sum := by omega
  rw [hparts, Nat.mul_add_div (by omega), Nat.div_eq_of_lt hless, Nat.mul_add_mod,
    Nat.mod_eq_of_lt hless]
  omega

/-- Where a number is short of the sum of all, another one is positive. -/
theorem exists_pos_of_lt_sum {xs : List Nat} {i x : Nat} (hx : xs[i]? = some x)
    (hsum : x < xs.sum) : ∃ j y, j ≠ i ∧ xs[j]? = some y ∧ 0 < y := by
  induction xs generalizing i with
  | nil => cases hx
  | cons z xs ih =>
    rw [List.sum_cons] at hsum
    cases i with
    | zero =>
      have hz : z = x := by simpa using hx
      obtain ⟨y, hy, hpos⟩ : ∃ y ∈ xs, 0 < y := by
        by_contra hnone
        have hzero : xs.sum = 0 := List.sum_eq_zero_iff.mpr fun y hy => by
          by_contra hpos
          exact hnone ⟨y, hy, Nat.pos_of_ne_zero hpos⟩
        omega
      obtain ⟨j, hj⟩ := List.mem_iff_getElem?.mp hy
      exact ⟨j + 1, y, by omega, by simpa using hj, hpos⟩
    | succ i =>
      by_cases hz : 0 < z
      · exact ⟨0, z, by omega, rfl, hz⟩
      · obtain ⟨j, y, hne, hy, hpos⟩ := ih (by simpa using hx) (by omega)
        exact ⟨j + 1, y, by omega, by simpa using hy, hpos⟩

theorem getD_left {i weight : Nat} (hweight : weights[i]? = some weight) :
    (left amount weights).getD i 0 = amount * weight % weights.sum := by
  simp [left, List.getD_eq_getElem?_getD, hweight]

theorem sorted_of_ahead (hahead : order.Pairwise (Ahead amount weights)) :
    order.Pairwise fun a b => (left amount weights).getD b 0 ≤ (left amount weights).getD a 0 :=
  hahead.imp fun h => h.elim le_of_lt fun h => h.1.le

/-- What a position has to stay behind to be swept, by its weight. -/
theorem sweeps_iff {i weight : Nat} (hweight : weights[i]? = some weight) :
    Sweeps amount weights i ↔ ∀ j v, weights[j]? = some v → j ≠ i →
      amount * v + amount * (weights.sum - weight) < weights.sum ∨
        amount * v + amount * (weights.sum - weight) = weights.sum ∧ i < j := by
  have hi : weights.getD i 0 = weight := by
    rw [List.getD_eq_getElem?_getD, hweight, Option.getD_some]
  unfold Sweeps
  rw [hi]
  simp only [Nat.mul_add]
  constructor
  · intro h j v hv hne
    have hstays := h j (List.getElem?_eq_some_iff.mp hv).1 hne
    rwa [List.getD_eq_getElem?_getD, hv, Option.getD_some] at hstays
  · intro h j hj hne
    rw [List.getD_eq_getElem?_getD, List.getElem?_eq_getElem hj, Option.getD_some]
    exact h j _ (List.getElem?_eq_getElem hj) hne

section Whole

variable {i share weight : Nat}

/-- A weight short of the whole has everything only with a unit left over: the others have nothing
    then, and it is ahead of all of them. -/
theorem sweeps_of_share (h : 0 < weights.sum) (hamount : 0 < amount)
    (hperm : order.Perm (List.range weights.length))
    (hahead : order.Pairwise (Ahead amount weights))
    (hshare : (shares amount weights order)[i]? = some amount)
    (hweight : weights[i]? = some weight) (hpositive : weight < weights.sum) :
    Sweeps amount weights i := by
  have hscaled : amount * weight + amount * (weights.sum - weight) = amount * weights.sum := by
    rw [← Nat.mul_add, Nat.add_sub_cancel' hpositive.le]
  have hless : amount * weight / weights.sum < amount := by
    rw [Nat.div_lt_iff_lt_mul h]
    exact Nat.mul_lt_mul_of_pos_left hpositive hamount
  obtain ⟨hrest, hone⟩ :=
    (share_near h hperm (sorted_of_ahead hahead) hshare hweight).resolve_left (by omega)
  -- so what is left of the amount short of the others is less than one unit's worth
  have hdivided := Nat.div_add_mod (amount * weight) weights.sum
  have hlast : amount * weight / weights.sum = amount - 1 := by omega
  have hmult : weights.sum * (amount - 1) + weights.sum = amount * weights.sum := by
    rw [← Nat.mul_succ, Nat.succ_eq_add_one, Nat.sub_add_cancel hamount, Nat.mul_comm]
  rw [hlast] at hdivided
  obtain ⟨-, hremainder⟩ := parts_of_short hpositive.le (by omega) hpositive hamount
  have heq := share_eq hperm hshare hweight
  have hmem : i ∈ order.take (amount - (whole amount weights).sum) := by
    by_contra hnot
    rw [if_neg hnot] at heq
    omega
  refine (sweeps_iff hweight).mpr fun j v hv hne => ?_
  have hj := (List.getElem?_eq_some_iff.mp hv).1
  have hsharej : j < (shares amount weights order).length := by
    rw [length_shares]
    exact hj
  have hzero := eq_zero_of_sum_le hshare (sum_shares h hperm).le
    (List.getElem?_eq_getElem hsharej) hne
  have hnone := share_eq hperm (List.getElem?_eq_getElem hsharej) hv
  rw [hzero, eq_comm, Nat.add_eq_zero_iff, Nat.div_eq_zero_iff_lt h] at hnone
  obtain ⟨hsmall, hnotmem⟩ := hnone
  have hnotmem : j ∉ order.take (amount - (whole amount weights).sum) := by
    intro hin
    rw [if_pos hin] at hnotmem
    cases hnotmem
  have hij := ahead_of_take hahead (hperm.mem_iff.mpr (List.mem_range.mpr hj)) hmem hnotmem
  unfold Ahead at hij
  rw [getD_left hweight, getD_left hv, Nat.mod_eq_of_lt hsmall, hremainder] at hij
  omega

/-- Nobody is ahead of a position that takes everything, so the first unit left over is its own. -/
theorem share_of_sweeps (h : 0 < weights.sum) (hamount : 0 < amount)
    (hperm : order.Perm (List.range weights.length))
    (hahead : order.Pairwise (Ahead amount weights))
    (hshare : (shares amount weights order)[i]? = some share)
    (hweight : weights[i]? = some weight) (hpositive : weight < weights.sum)
    (hsweeps : Sweeps amount weights i) : share = amount := by
  rw [sweeps_iff hweight] at hsweeps
  have hshort : amount * (weights.sum - weight) < weights.sum := by
    obtain ⟨other, v, hother, hv, hvpos⟩ := exists_pos_of_lt_sum hweight hpositive
    have hstays := hsweeps other v hv hother
    have hpos := Nat.mul_pos hamount hvpos
    omega
  obtain ⟨hwhole, hremainder⟩ := parts_of_short hpositive.le hshort hpositive hamount
  -- a position that is ahead would have to leave more, and all the others leave nothing as large
  have hnobody : order.filter (fun j => decide (Ahead amount weights j i)) = [] := by
    rw [List.filter_eq_nil_iff]
    intro j hj hij
    have hij := of_decide_eq_true hij
    have hv := List.getElem?_eq_getElem (List.mem_range.mp (hperm.mem_iff.mp hj))
    have hne : j ≠ i := by
      rintro rfl
      exact ahead_asymm hij hij
    have hpos : 0 < amount * (weights.sum - weight) := Nat.mul_pos hamount (by omega)
    have hstays := hsweeps j _ hv hne
    unfold Ahead at hij
    rw [getD_left hweight, hremainder, getD_left hv, Nat.mod_eq_of_lt (by omega)] at hij
    omega
  have hmem : i ∈ order.take (amount - (whole amount weights).sum) := by
    have hin : i ∈ order :=
      hperm.mem_iff.mpr (List.mem_range.mpr (List.getElem?_eq_some_iff.mp hweight).1)
    have hunits := (sum_left amount h).2
    have hfraction : amount * weight % weights.sum ≤ (left amount weights).sum :=
      List.single_le_sum (fun _ _ => Nat.zero_le _) _
        (List.mem_map.mpr ⟨weight, List.mem_of_getElem? hweight, rfl⟩)
    rw [mem_take_iff_rank (fun _ _ => ahead_asymm) hahead hin, hnobody, List.length_nil]
    refine Nat.pos_of_mul_pos_right (b := weights.sum) ?_
    omega
  have heq := share_eq hperm hshare hweight
  rw [if_pos hmem] at heq
  omega

/-- A share is the whole amount exactly where its position takes it. -/
theorem shares_eq_amount_iff (h : 0 < weights.sum) (hamount : 0 < amount)
    (hperm : order.Perm (List.range weights.length))
    (hahead : order.Pairwise (Ahead amount weights))
    (hshare : (shares amount weights order)[i]? = some share)
    (hweight : weights[i]? = some weight) : share = amount ↔ Sweeps amount weights i := by
  have hle : weight ≤ weights.sum :=
    List.single_le_sum (fun _ _ => Nat.zero_le _) _ (List.mem_of_getElem? hweight)
  by_cases hall : weight = weights.sum
  · -- the only weight there is
    have hnear := share_near h hperm (sorted_of_ahead hahead) hshare hweight
    rw [hall, Nat.mul_div_cancel _ h, Nat.mul_mod_left] at hnear
    refine iff_of_true (by omega) ((sweeps_iff hweight).mpr fun j v hv hne => .inl ?_)
    rw [eq_zero_of_sum_le hweight hall.ge hv hne, hall, Nat.sub_self, Nat.mul_zero]
    exact h
  · constructor
    · rintro rfl
      exact sweeps_of_share h hamount hperm hahead hshare hweight (by omega)
    · exact share_of_sweeps h hamount hperm hahead hshare hweight (by omega)

end Whole

end Split

end Apportion
