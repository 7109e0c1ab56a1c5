import Mathlib.Tactic
import Sahl.Core.Refunds

/-! # Quotients as they are rounded

    What a rule of rounding makes of a rational is stated without a divisor (`Rounding.RoundsOff`);
    it settles the result and follows the order. A division of integers keeps to it for either sign
    of both operands (`divideRounded_roundsOff`). -/

namespace Sahl

/-! ## Section 1: Rounding a rational -/

/-- A whole number that stands for `x` by the rule. -/
structure Rounding.RoundsOff (mode : Rounding) (x : ℚ) (q : ℤ) : Prop where
  near : |x - q| < 1
  nearest : mode ≠ .towardZero → |x - q| ≤ 1 / 2
  inward : mode = .towardZero → |(q : ℚ)| ≤ |x|
  /-- Of two that are as near, the one away from zero. -/
  outward : mode = .halfUp → |x - q| = 1 / 2 → |x| < |(q : ℚ)|
  /-- Of two that are as near, the even one. -/
  even : mode = .halfEven → |x - q| = 1 / 2 → Even q

namespace Rounding.RoundsOff

variable {mode : Rounding} {x y : ℚ} {q r t : ℤ}

/-- The rules do not know the direction of the number line. -/
theorem neg (h : mode.RoundsOff x q) : mode.RoundsOff (-x) (-q) := by
  have hleft : |-x - ((-q : ℤ) : ℚ)| = |x - q| := by
    rw [Int.cast_neg, neg_sub_neg, abs_sub_comm]
  have hsize : |((-q : ℤ) : ℚ)| = |(q : ℚ)| := by rw [Int.cast_neg, abs_neg]
  constructor
  · rw [hleft]
    exact h.near
  · rw [hleft]
    exact h.nearest
  · rw [hsize, abs_neg]
    exact h.inward
  · rw [hleft, hsize, abs_neg]
    exact h.outward
  · rw [hleft, even_neg]
    exact h.even

/-- A whole number stands for itself. -/
theorem eq_of_whole (h : mode.RoundsOff x q) {m : ℤ} (hx : x = m) : q = m := by
  have hnear := h.near
  rw [hx, ← Int.cast_sub, ← Int.cast_abs] at hnear
  have hless : |m - q| < 1 := by exact_mod_cast hnear
  have hzero := Int.abs_lt_one_iff.mp hless
  omega

/-- Towards zero, results out of order would be on either side of what they stand for. -/
theorem le_of_inward (hx : mode.RoundsOff x q) (hy : mode.RoundsOff y r)
    (hmode : mode = .towardZero) (hxy : x ≤ y) : q ≤ r := by
  by_contra hlt
  have hstep : (r : ℚ) + 1 ≤ q := by exact_mod_cast Int.not_le.mp hlt
  have hxnear := abs_lt.mp hx.near
  have hynear := abs_lt.mp hy.near
  have hxin := hx.inward hmode
  have hyin := hy.inward hmode
  by_cases hq : 0 < q
  · have hone : (1 : ℚ) ≤ q := by exact_mod_cast hq
    rw [abs_of_nonneg (by linarith), abs_of_nonneg (by linarith)] at hxin
    linarith
  · have hzero : (q : ℚ) ≤ 0 := by exact_mod_cast not_lt.mp hq
    rw [abs_of_nonpos (by linarith), abs_of_nonpos (by linarith)] at hyin
    linarith

/-- A half with both its neighbours for results: the rule settles on one of them. -/
theorem not_both_of_half (hmode : mode ≠ .towardZero) (hq : mode.RoundsOff x q)
    (hr : mode.RoundsOff x r) (habove : (q : ℚ) = x + 1 / 2) (hbelow : (r : ℚ) = x - 1 / 2) :
    False := by
  have hqtie : |x - q| = 1 / 2 := by
    rw [habove, sub_add_cancel_left, abs_neg, abs_of_pos one_half_pos]
  have hrtie : |x - r| = 1 / 2 := by
    rw [hbelow, sub_sub_cancel, abs_of_pos one_half_pos]
  cases mode with
  | towardZero => exact hmode rfl
  | halfUp =>
    -- both would be further out than the half, which is then too near to zero to be one
    have hqsquare := sq_lt_sq.mpr (hq.outward rfl hqtie)
    have hrsquare := sq_lt_sq.mpr (hr.outward rfl hrtie)
    rw [habove] at hqsquare
    rw [hbelow] at hrsquare
    have hlow : -(1 / 4) < x := by linarith
    have hhigh : x < 1 / 4 := by linarith
    have hpos : 0 < q := by
      have hpos : (0 : ℚ) < q := by linarith
      exact_mod_cast hpos
    have hone : (1 : ℚ) ≤ q := by exact_mod_cast hpos
    linarith
  | halfEven =>
    obtain ⟨a, ha⟩ := hq.even rfl hqtie
    obtain ⟨b, hb⟩ := hr.even rfl hrtie
    have hnext : (q : ℚ) = r + 1 := by linarith
    have hnext : q = r + 1 := by exact_mod_cast hnext
    omega

/-- A greater number is not rounded to a lesser one. -/
theorem le (hx : mode.RoundsOff x q) (hy : mode.RoundsOff y r) (hxy : x ≤ y) : q ≤ r := by
  by_cases hmode : mode = .towardZero
  · exact hx.le_of_inward hy hmode hxy
  · by_contra hlt
    have hstep : (r : ℚ) + 1 ≤ q := by exact_mod_cast Int.not_le.mp hlt
    have hxhalf := abs_le.mp (hx.nearest hmode)
    have hyhalf := abs_le.mp (hy.nearest hmode)
    -- both numbers are the half between the two results
    have hsame : y = x := by linarith
    rw [hsame] at hy
    exact not_both_of_half hmode hx hy (by linarith) (by linarith)

/-- The rule settles the result. -/
theorem unique (hq : mode.RoundsOff x q) (hr : mode.RoundsOff x r) : q = r :=
  Int.le_antisymm (hq.le hr le_rfl) (hr.le hq le_rfl)

/-- At or above zero a number may stand for what is less than one above it. -/
theorem of_below (ht : 0 ≤ t) (hle : (t : ℚ) ≤ x) (hlt : x < t + 1)
    (hhalf : mode ≠ .towardZero → x - t ≤ 1 / 2) (hup : mode = .halfUp → x - t ≠ 1 / 2)
    (heven : mode = .halfEven → x - t = 1 / 2 → Even t) : mode.RoundsOff x t := by
  have htpos : (0 : ℚ) ≤ t := by exact_mod_cast ht
  have hleft : |x - t| = x - t := abs_of_nonneg (by linarith)
  constructor
  · rw [hleft]
    linarith
  · rw [hleft]
    exact hhalf
  · rw [abs_of_nonneg htpos, abs_of_nonneg (by linarith)]
    exact fun _ => hle
  · rw [hleft]
    exact fun hmode htie => absurd htie (hup hmode)
  · rw [hleft]
    exact heven

/-- Above zero the next number may stand for what is at least one half beyond the last. -/
theorem of_above (ht : 0 ≤ t) (hlt : x < t + 1) (hhalf : 1 / 2 ≤ x - t)
    (hmode : mode ≠ .towardZero) (hodd : mode = .halfEven → x - t = 1 / 2 → Odd t) :
    mode.RoundsOff x (t + 1) := by
  have htpos : (0 : ℚ) ≤ t := by exact_mod_cast ht
  have hleft : |x - ((t + 1 : ℤ) : ℚ)| = 1 - (x - t) := by
    rw [Int.cast_add, Int.cast_one, abs_of_nonpos (by linarith)]
    ring
  constructor
  · rw [hleft]
    linarith
  · rw [hleft]
    exact fun _ => by linarith
  · exact fun h => absurd h hmode
  · rw [hleft, Int.cast_add, Int.cast_one, abs_of_nonneg (show 0 ≤ x by linarith),
      abs_of_nonneg (by linarith)]
    exact fun _ _ => hlt
  · rw [hleft]
    intro hrule htie
    exact (hodd hrule (by linarith)).add_one

end Rounding.RoundsOff

/-! ## Section 2: Dividing integers -/

/-- No rule knows on which operand a sign stands. -/
theorem Rounding.quotient_neg_right (mode : Rounding) (n : ℤ) {d : ℤ} (hd : d ≠ 0) :
    mode.quotient n (-d) = -mode.quotient n d := by
  have hstep : (if (n < 0) = (-d < 0) then 1 else -1 : ℤ) =
      -(if (n < 0) = (d < 0) then 1 else -1) := by
    by_cases hn : n < 0 <;> by_cases hneg : d < 0 <;> simp [hn, hneg] <;> omega
  unfold quotient
  rw [Int.tdiv_neg, Int.tmod_neg, abs_neg, away_neg, hstep]
  split
  · rfl
  · split
    · omega
    · rfl

section Fraction

variable {n d : ℤ}

/-- The fraction of a quotient is what the whole part leaves of it. -/
theorem div_sub_ediv (hd : 0 < d) : (n : ℚ) / d - (n / d : ℤ) = (n % d : ℤ) / d := by
  have hdpos : (0 : ℚ) < d := by exact_mod_cast hd
  have hparts : (n : ℚ) = d * (n / d : ℤ) + (n % d : ℤ) := by
    exact_mod_cast (Int.mul_ediv_add_emod n d).symm
  rw [eq_div_iff hdpos.ne', sub_mul, div_mul_cancel₀ _ hdpos.ne']
  linarith

/-- The whole part is at most the quotient, and less than one below it. -/
theorem ediv_le_div (hd : 0 < d) :
    ((n / d : ℤ) : ℚ) ≤ (n : ℚ) / d ∧ (n : ℚ) / d < (n / d : ℤ) + 1 := by
  have hdpos : (0 : ℚ) < d := by exact_mod_cast hd
  have hsplit := @div_sub_ediv n d hd
  have hfraction : (0 : ℚ) ≤ (n % d : ℤ) / d :=
    div_nonneg (by exact_mod_cast Int.emod_nonneg n hd.ne') hdpos.le
  have hone : ((n % d : ℤ) : ℚ) / d < 1 :=
    (div_lt_one hdpos).mpr (by exact_mod_cast Int.emod_lt_of_pos n hd)
  constructor <;> linarith

/-- The fraction is compared with one half as twice the remainder is with the divisor. -/
theorem half_le_iff (hd : 0 < d) : 1 / 2 ≤ (n : ℚ) / d - (n / d : ℤ) ↔ d ≤ n % d * 2 := by
  have hdpos : (0 : ℚ) < d := by exact_mod_cast hd
  rw [div_sub_ediv hd, div_le_div_iff₀ two_pos hdpos, one_mul]
  exact_mod_cast Iff.rfl

theorem le_half_iff (hd : 0 < d) : (n : ℚ) / d - (n / d : ℤ) ≤ 1 / 2 ↔ n % d * 2 ≤ d := by
  have hdpos : (0 : ℚ) < d := by exact_mod_cast hd
  rw [div_sub_ediv hd, div_le_div_iff₀ hdpos two_pos, one_mul]
  exact_mod_cast Iff.rfl

theorem half_iff (hd : 0 < d) : (n : ℚ) / d - (n / d : ℤ) = 1 / 2 ↔ n % d * 2 = d := by
  rw [le_antisymm_iff, le_half_iff hd, half_le_iff hd]
  omega

end Fraction

/-- When a fraction goes away from zero: not towards zero, from one half on, and from a half itself
    to even only where the whole part is odd. -/
theorem Rounding.away_eq_true_iff {mode : Rounding} {t twice magnitude : ℤ} (ht : 0 ≤ t) :
    mode.away t twice magnitude = true ↔ mode ≠ .towardZero ∧ magnitude ≤ twice ∧
      (mode = .halfEven → twice = magnitude → Odd t) := by
  have hodd : |t.tmod 2| = 1 ↔ Odd t := by
    rw [Int.tmod_eq_emod_of_nonneg ht, abs_of_nonneg (Int.emod_nonneg _ two_ne_zero),
      Int.odd_iff]
  cases mode with
  | towardZero => simp [away]
  | halfUp => simp [away]
  | halfEven =>
    simp only [away, hodd, decide_eq_true_eq, ne_eq, reduceCtorEq, not_false_eq_true, true_and,
      forall_const]
    constructor
    · rintro (hmore | ⟨hequal, hodd⟩)
      · exact ⟨hmore.le, fun hequal => absurd hequal hmore.ne'⟩
      · exact ⟨hequal.le, fun _ => hodd⟩
    · intro h
      obtain ⟨hle, hodd⟩ := h
      rcases hle.lt_or_eq with hmore | hequal
      · exact .inl hmore
      · exact .inr ⟨hequal, hodd hequal.symm⟩

/-- At or above zero the quotient is the whole part, or the next number. -/
theorem Rounding.quotient_of_nonneg (mode : Rounding) {n d : ℤ} (hn : 0 ≤ n) (hd : 0 < d) :
    mode.RoundsOff ((n : ℚ) / d) (mode.quotient n d) := by
  have hwhole : 0 ≤ n / d := Int.ediv_nonneg hn hd.le
  obtain ⟨hle, hlt⟩ := @ediv_le_div n d hd
  have hstep : (if (n < 0) = (d < 0) then 1 else -1 : ℤ) = 1 :=
    if_pos (propext (iff_of_false (by omega) (by omega)))
  have haway := @away_eq_true_iff mode _ (n % d * 2) d hwhole
  unfold quotient
  rw [Int.tdiv_eq_ediv_of_nonneg hn, Int.tmod_eq_emod_of_nonneg hn,
    abs_of_nonneg (Int.emod_nonneg n hd.ne'), abs_of_pos hd, hstep]
  by_cases hexact : n % d = 0
  · have hzero : (n : ℚ) / d - (n / d : ℤ) = 0 := by
      rw [div_sub_ediv hd, hexact, Int.cast_zero, zero_div]
    rw [if_pos hexact]
    apply RoundsOff.of_below hwhole hle hlt <;> norm_num [hzero]
  rw [if_neg hexact]
  by_cases hup : mode.away (n / d) (n % d * 2) d = true
  · obtain ⟨hmode, hmore, hodd⟩ := haway.mp hup
    rw [if_pos hup]
    refine RoundsOff.of_above hwhole hlt ((half_le_iff hd).mpr hmore) hmode fun hrule htie => ?_
    exact hodd hrule ((half_iff hd).mp htie)
  · rw [if_neg hup]
    rw [haway] at hup
    refine RoundsOff.of_below hwhole hle hlt (fun hmode => ?_) (fun hrule htie => ?_)
      (fun hrule htie => ?_)
    · -- more than one half would go away from zero
      rw [le_half_iff hd]
      by_contra hmore
      exact hup ⟨hmode, by omega, fun _ hequal => by omega⟩
    · have hequal := (half_iff hd).mp htie
      refine hup ⟨by simp [hrule], hequal.ge, fun heven => ?_⟩
      rw [hrule] at heven
      cases heven
    · have hequal := (half_iff hd).mp htie
      rw [← Int.not_odd_iff_even]
      exact fun hodd => hup ⟨by simp [hrule], hequal.ge, fun _ _ => hodd⟩

/-- An integer quotient stands for the exact one, for either sign of both operands. -/
theorem Rounding.quotient_roundsOff (mode : Rounding) (n : ℤ) {d : ℤ} (hd : d ≠ 0) :
    mode.RoundsOff ((n : ℚ) / d) (mode.quotient n d) := by
  have hpositive : ∀ {d : ℤ}, 0 < d → mode.RoundsOff ((n : ℚ) / d) (mode.quotient n d) := by
    intro d hd
    by_cases hn : 0 ≤ n
    · exact mode.quotient_of_nonneg hn hd
    · have hflip := (mode.quotient_of_nonneg (show 0 ≤ -n by omega) hd).neg
      rw [mode.quotient_neg, neg_neg, Int.cast_neg, neg_div, neg_neg] at hflip
      exact hflip
  rcases lt_or_gt_of_ne hd with hneg | hpos
  · have hflip := (hpositive (show 0 < -d by omega)).neg
    rw [mode.quotient_neg_right n hd, neg_neg, Int.cast_neg, div_neg, neg_neg] at hflip
    exact hflip
  · exact hpositive hpos

/-- A quotient is no further out than its numerator. -/
theorem Rounding.abs_quotient_le (mode : Rounding) (n : ℤ) {d : ℤ} (hd : d ≠ 0) :
    |mode.quotient n d| ≤ |n| := by
  have hnear := (mode.quotient_roundsOff n hd).near
  have hone : (1 : ℚ) ≤ |(d : ℚ)| := by exact_mod_cast Int.one_le_abs hd
  have hshrink : |(n : ℚ) / d| ≤ |(n : ℚ)| := by
    rw [abs_div]
    exact div_le_self (abs_nonneg _) hone
  have hless := abs_sub_abs_le_abs_sub (mode.quotient n d : ℚ) ((n : ℚ) / d)
  rw [abs_sub_comm] at hless
  have hbound : |(mode.quotient n d : ℚ)| < |(n : ℚ)| + 1 := by linarith
  have hbound' : |mode.quotient n d| < |n| + 1 := by exact_mod_cast hbound
  omega

/-! ## Section 3: Dividing 128-bit integers -/

/-- Where something is left over, the divisor is at least two and the quotient fits with room. -/
theorem natAbs_tdiv_le_half {n d : ℤ} (hleft : n.tmod d ≠ 0) :
    2 * (n.tdiv d).natAbs ≤ n.natAbs := by
  have hunit : d ≠ 0 → d.natAbs ≠ 1 := by
    intro _ hone
    rcases Int.natAbs_eq_iff.mp hone with rfl | rfl
    · exact hleft (by simp)
    · exact hleft (by simp)
  by_cases hzero : d = 0
  · rw [hzero, Int.tdiv_zero, Int.natAbs_zero]
    exact Nat.zero_le _
  · have hunit := hunit hzero
    have htwo : 2 ≤ d.natAbs := by omega
    rw [Int.natAbs_tdiv]
    calc 2 * (n.natAbs / d.natAbs) ≤ d.natAbs * (n.natAbs / d.natAbs) :=
          Nat.mul_le_mul_right _ htwo
      _ ≤ n.natAbs := Nat.mul_div_le n.natAbs d.natAbs

section Divide

variable {n d q : I128} {mode : Rounding}

/-- Where something is left over, an answer has doubled it and taken the sign from the divisor. -/
theorem fits_of_divideRounded (h : divideRounded n d mode = .ok q)
    (hleft : n.val.tmod d.val ≠ 0) :
    |n.val.tmod d.val| * 2 < 2 ^ (128 - 1) ∧ |d.val| < 2 ^ (128 - 1) := by
  unfold divideRounded at h
  obtain ⟨-, h⟩ := Except.ite_error_eq_ok.mp h
  simp only [Except.bind_eq_ok, Except.okOr_eq_ok, SInt.checkedRem, SInt.ofInt?_eq_some,
    Option.bind_eq_some_iff] at h
  obtain ⟨quotient, -, remainder, ⟨_, -, hremainder⟩, h⟩ := h
  rw [← hremainder] at hleft ⊢
  rw [if_neg hleft] at h
  simp only [Except.bind_eq_ok, Except.okOr_eq_ok, SInt.checkedAbs, SInt.ofInt?_eq_some,
    Option.bind_eq_some_iff] at h
  obtain ⟨twice, ⟨size, hsize, htwice⟩, magnitude, hmagnitude, -⟩ := h
  rw [← hsize, ← htwice, ← hmagnitude]
  exact ⟨twice.hi, magnitude.hi⟩

/-- Where nothing is left over, the quotient is answered if it can be written. -/
theorem divideRounded_of_whole (hd : d.val ≠ 0) (hquotient : q.val = mode.quotient n.val d.val)
    (hwhole : n.val.tmod d.val = 0) : divideRounded n d mode = .ok q := by
  unfold divideRounded
  refine Except.ite_error_eq_ok.mpr ⟨hd, ?_⟩
  simp only [Except.bind_eq_ok, Except.okOr_eq_ok, SInt.checkedDiv, SInt.checkedRem, if_neg hd]
  rw [Rounding.quotient, if_pos hwhole] at hquotient
  refine ⟨q, SInt.ofInt?_eq_some.mpr hquotient, 0, ?_, ?_⟩
  · rw [← hquotient, SInt.ofInt?_val, Option.bind_some, hwhole]
    rfl
  · rw [if_pos SInt.val_zero]

/-- Where something is left over, the quotient is answered if the fraction can be compared. -/
theorem divideRounded_of_left (hd : d.val ≠ 0) (hquotient : q.val = mode.quotient n.val d.val)
    (hleft : n.val.tmod d.val ≠ 0) (htwice : |n.val.tmod d.val| * 2 < 2 ^ (128 - 1))
    (hmagnitude : |d.val| < 2 ^ (128 - 1)) : divideRounded n d mode = .ok q := by
  unfold divideRounded
  refine Except.ite_error_eq_ok.mpr ⟨hd, ?_⟩
  simp only [Except.bind_eq_ok, Except.okOr_eq_ok, SInt.checkedDiv, SInt.checkedRem, if_neg hd]
  have hhalf := natAbs_tdiv_le_half hleft
  have hlow := n.lo
  have hhigh := n.hi
  -- each intermediate value of the code fits: what is left over leaves room in the quotient
  obtain ⟨truncated, htruncated, hval⟩ :=
    @SInt.ofInt?_of_fits 128 (n.val.tdiv d.val) (by norm_num at hlow hhigh ⊢; omega)
  have hpos := abs_nonneg (n.val.tmod d.val)
  obtain ⟨remainder, hremainder, hrest⟩ :=
    @SInt.ofInt?_of_fits 128 (n.val.tmod d.val) (by
      have hbounds := abs_le.mp (le_refl |n.val.tmod d.val|)
      norm_num at htwice ⊢
      omega)
  obtain ⟨size, hsize, hs⟩ := @SInt.ofInt?_of_fits 128 |remainder.val| (by
    rw [hrest]
    norm_num at htwice ⊢
    omega)
  obtain ⟨twice, hof, ht⟩ := @SInt.ofInt?_of_fits 128 (size.val * 2) (by
    rw [hs, hrest]
    norm_num at htwice ⊢
    omega)
  obtain ⟨magnitude, habs, hm⟩ := @SInt.ofInt?_of_fits 128 |d.val| (by
    have hdpos := abs_nonneg d.val
    norm_num at hmagnitude ⊢
    omega)
  obtain ⟨away, haway⟩ := mode.roundsAway_isOkay truncated twice magnitude
  refine ⟨truncated, htruncated, remainder, ?_, ?_⟩
  · rw [htruncated, Option.bind_some, hremainder]
  · rw [if_neg (by rw [hrest]; exact hleft)]
    simp only [Except.bind_eq_ok, Except.okOr_eq_ok, SInt.checkedAbs]
    refine ⟨twice, by rw [hsize, Option.bind_some, hof], magnitude, habs, away, haway, ?_⟩
    have hrule := Rounding.roundsAway_eq_ok haway
    rw [hval, ht, hs, hrest, hm] at hrule
    rw [Rounding.quotient, if_neg hleft, ← hrule] at hquotient
    cases away with
    | true =>
      rw [if_pos rfl] at hquotient
      rw [if_pos rfl, Except.okOr_eq_ok, hval, ← hquotient, SInt.ofInt?_val]
    | false =>
      rw [if_neg Bool.false_ne_true, ← hval] at hquotient
      rw [if_neg Bool.false_ne_true, SInt.ext hquotient]

/-- A division is answered with the quotient where that fits, and with it twice what is left over
    and the divisor without its sign, both of them needed for a fraction alone. -/
theorem divideRounded_eq_ok_iff :
    divideRounded n d mode = .ok q ↔ d.val ≠ 0 ∧ q.val = mode.quotient n.val d.val ∧
      (n.val.tmod d.val ≠ 0 →
        |n.val.tmod d.val| * 2 < 2 ^ (128 - 1) ∧ |d.val| < 2 ^ (128 - 1)) := by
  constructor
  · intro h
    have hd : d.val ≠ 0 := by
      unfold divideRounded at h
      exact (Except.ite_error_eq_ok.mp h).1
    exact ⟨hd, divideRounded_eq_ok h, fits_of_divideRounded h⟩
  · intro h
    obtain ⟨hd, hquotient, hfits⟩ := h
    by_cases hleft : n.val.tmod d.val = 0
    · exact divideRounded_of_whole hd hquotient hleft
    · exact divideRounded_of_left hd hquotient hleft (hfits hleft).1 (hfits hleft).2

end Divide

/-- A division that is answered stands for the exact quotient. -/
theorem divideRounded_roundsOff {n d q : I128} {mode : Rounding}
    (h : divideRounded n d mode = .ok q) :
    mode.RoundsOff ((n.val : ℚ) / d.val) q.val := by
  obtain ⟨hd, hquotient, -⟩ := divideRounded_eq_ok_iff.mp h
  rw [hquotient]
  exact mode.quotient_roundsOff n.val hd

/-- **Rounding**: an answered division stands for the exact quotient by its rule, and for a whole
    one is that; greater numerators do not give lesser answers; and a sign taken from either
    operand is taken from the answer, which is given wherever it can be written. -/
theorem divideRounded_correct {n d q : I128} {mode : Rounding}
    (h : divideRounded n d mode = .ok q) :
    mode.RoundsOff ((n.val : ℚ) / d.val) q.val ∧
    (∀ m : ℤ, (n.val : ℚ) / d.val = m → q.val = m) ∧
    (0 < d.val → ∀ m r : I128, n.val ≤ m.val → divideRounded m d mode = .ok r →
      q.val ≤ r.val) ∧
    (∀ m : I128, m.val = -n.val → ∃ r : I128, r.val = -q.val ∧ divideRounded m d mode = .ok r) ∧
    ∀ e : I128, e.val = -d.val →
      ∀ r : I128, divideRounded n e mode = .ok r ↔ r.val = -q.val := by
  have hrounds := divideRounded_roundsOff h
  obtain ⟨hd, hquotient, hfits⟩ := divideRounded_eq_ok_iff.mp h
  refine ⟨hrounds, fun m hm => hrounds.eq_of_whole hm, ?_, ?_, ?_⟩
  · intro hpos m r hnm hr
    refine hrounds.le (divideRounded_roundsOff hr) ?_
    have hdpos : (0 : ℚ) ≤ d.val := by exact_mod_cast hpos.le
    have hcast : (n.val : ℚ) ≤ m.val := by exact_mod_cast hnm
    exact div_le_div_of_nonneg_right hcast hdpos
  · intro m hm
    -- a numerator that has an opposite is not the least, and no quotient of it is
    have hsize := abs_le.mp (mode.abs_quotient_le n.val hd)
    rw [← hquotient] at hsize
    have hlow := m.lo
    have hhigh := m.hi
    have hnlow := n.lo
    have hnhigh := n.hi
    have htop : |n.val| < 2 ^ (128 - 1) := abs_lt.mpr (by omega)
    obtain ⟨r, -, hr⟩ := @SInt.ofInt?_of_fits 128 (-q.val) (by omega)
    refine ⟨r, hr, divideRounded_eq_ok_iff.mpr ⟨hd, ?_, ?_⟩⟩
    · rw [hr, hquotient, hm, mode.quotient_neg]
    · rw [hm, Int.neg_tmod, abs_neg, neg_ne_zero]
      exact hfits
  · intro e he r
    have hflip : mode.quotient n.val e.val = -q.val := by
      rw [he, mode.quotient_neg_right n.val hd, hquotient]
    constructor
    · intro hr
      rw [divideRounded_eq_ok hr, hflip]
    · intro hr
      refine divideRounded_eq_ok_iff.mpr ⟨by omega, by rw [hr, hflip], ?_⟩
      rw [he, Int.tmod_neg, abs_neg]
      exact hfits

/-- Two and a half below zero are rounded to three below. -/
theorem divideRounded_correct_half : ∃ n d q : I128, n.val = -5 ∧ d.val = 2 ∧ q.val = -3 ∧
    divideRounded n d .halfUp = .ok q ∧
    Rounding.halfUp.RoundsOff ((n.val : ℚ) / d.val) q.val := by
  have hdivide : divideRounded ⟨-5, by norm_num, by norm_num⟩ ⟨2, by norm_num, by norm_num⟩
      .halfUp = .ok ⟨-3, by norm_num, by norm_num⟩ := by decide +kernel
  exact ⟨_, _, _, rfl, rfl, rfl, hdivide, (divideRounded_correct hdivide).1⟩

end Sahl
