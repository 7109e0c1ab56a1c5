import Mathlib.Tactic

/-! # Rounded quotients

    An integer stands for a quotient when it is less than one away from it. Such a quotient stays
    within every whole bound of the exact one. Nearest and truncated quotients are the two kinds
    in use; of both, the quotient of a sum is within one of the sum of the quotients. Which of two
    nearest quotients is meant is settled for halves that go away from zero. -/

namespace Rounded

/-- `q` is less than one away from `n / d`. -/
structure Quotient (n d q : Int) : Prop where
  pos : 0 < d
  near : |n - q * d| < d

/-- `q` is at most one half away from `n / d`. -/
def Nearest (n d q : Int) : Prop := 0 < d ∧ 2 * |n - q * d| ≤ d

/-- `q` is `n / d` without its fraction. -/
def Truncated (n d q : Int) : Prop := 0 < d ∧ q = n.tdiv d

variable {n m d q r s : Int}

theorem Nearest.quotient (h : Nearest n d q) : Quotient n d q := by
  obtain ⟨hpos, hhalf⟩ := h
  have := abs_nonneg (n - q * d)
  exact ⟨hpos, by omega⟩

/-- What truncation leaves has the sign of the numerator. -/
theorem Truncated.remainder (h : Truncated n d q) :
    |n - q * d| < d ∧ (0 ≤ n → 0 ≤ n - q * d) ∧ (n ≤ 0 → n - q * d ≤ 0) := by
  obtain ⟨hpos, rfl⟩ := h
  have hrem : n - n.tdiv d * d = n.tmod d := by
    have := Int.tmod_add_tdiv_mul n d
    omega
  rw [hrem]
  refine ⟨abs_lt.mpr ⟨Int.lt_tmod_of_pos n hpos, Int.tmod_lt_of_pos n hpos⟩, ?_, ?_⟩
  · exact fun hn => Int.tmod_nonneg d hn
  · intro hn
    have hneg := Int.tmod_nonneg d (show 0 ≤ -n by omega)
    rw [Int.neg_tmod] at hneg
    omega

theorem Truncated.quotient (h : Truncated n d q) : Quotient n d q := ⟨h.1, h.remainder.1⟩

/-! ## Whole bounds -/

theorem Quotient.le (h : Quotient n d q) (hn : n ≤ m * d) : q ≤ m := by
  by_contra hcon
  have hstep : (m + 1) * d ≤ q * d := Int.mul_le_mul_of_nonneg_right (by omega) h.pos.le
  have hnear := abs_lt.mp h.near
  rw [add_mul, one_mul] at hstep
  omega

theorem Quotient.ge (h : Quotient n d q) (hn : m * d ≤ n) : m ≤ q := by
  by_contra hcon
  have hstep : (q + 1) * d ≤ m * d := Int.mul_le_mul_of_nonneg_right (by omega) h.pos.le
  have hnear := abs_lt.mp h.near
  rw [add_mul, one_mul] at hstep
  omega

theorem Quotient.nonneg (h : Quotient n d q) (hn : 0 ≤ n) : 0 ≤ q :=
  h.ge (by rwa [zero_mul])

/-! ## Sums -/

/-- Numbers whose multiples of `d` are less than two apart are at most one apart. -/
theorem within_one (hd : 0 < d) (h : |q * d| < 2 * d) : |q| ≤ 1 := by
  rw [abs_mul, abs_of_pos hd] at h
  by_contra hcon
  have hstep : 2 * d ≤ |q| * d := Int.mul_le_mul_of_nonneg_right (by omega) hd.le
  omega

theorem Nearest.add (hn : Nearest n d q) (hm : Nearest m d r) (hs : Nearest (n + m) d s) :
    |s - q - r| ≤ 1 := by
  refine within_one hn.1 ?_
  have hsplit : (s - q - r) * d =
      (n - q * d) + (m - r * d) - (n + m - s * d) := by ring
  have h1 := hn.2
  have h2 := hm.2
  have h3 := hs.2
  have hpos := hn.1
  rw [hsplit]
  have hsum := abs_add_le (n - q * d + (m - r * d)) (-(n + m - s * d))
  have hpair := abs_add_le (n - q * d) (m - r * d)
  rw [abs_neg, ← sub_eq_add_neg] at hsum
  omega

theorem Truncated.add (hn : Truncated n d q) (hm : Truncated m d r) (hs : Truncated (n + m) d s) :
    |s - q - r| ≤ 1 := by
  refine within_one hn.1 ?_
  have hsplit : (s - q - r) * d =
      (n - q * d) + (m - r * d) - (n + m - s * d) := by ring
  obtain ⟨h1, h1pos, h1neg⟩ := hn.remainder
  obtain ⟨h2, h2pos, h2neg⟩ := hm.remainder
  obtain ⟨h3, h3pos, h3neg⟩ := hs.remainder
  rw [hsplit]
  rw [abs_lt] at h1 h2 h3 ⊢
  -- the remainders of two numerators of one sign add up on that side
  by_cases hnSign : 0 ≤ n
  · by_cases hmSign : 0 ≤ m
    · have := h1pos hnSign
      have := h2pos hmSign
      have := h3pos (by omega)
      omega
    · have := h1pos hnSign
      have := h2neg (by omega)
      omega
  · by_cases hmSign : 0 ≤ m
    · have := h1neg (by omega)
      have := h2pos hmSign
      omega
    · have := h1neg (by omega)
      have := h2neg (by omega)
      have := h3neg (by omega)
      omega

/-! ## Halves away from zero -/

/-- `n / d` to the nearest integer, halves away from zero. -/
def halfAway (n d : Int) : Int :=
  if n < 0 then -((2 * -n + d) / (2 * d)) else (2 * n + d) / (2 * d)

/-- What may be left of a numerator of this sign: at most one half, and the half itself on the side
    of zero only. -/
def Negligible (n d left : Int) : Prop :=
  if n < 0 then -d < 2 * left ∧ 2 * left ≤ d else -d ≤ 2 * left ∧ 2 * left < d

instance (n d left : Int) : Decidable (Negligible n d left) :=
  inferInstanceAs (Decidable (if n < 0 then -d < 2 * left ∧ 2 * left ≤ d
    else -d ≤ 2 * left ∧ 2 * left < d))

theorem ediv_two_mul_eq_iff (hd : 0 < d) :
    (2 * n + d) / (2 * d) = q ↔ -d ≤ 2 * (n - q * d) ∧ 2 * (n - q * d) < d := by
  have hpos : 0 < 2 * d := by omega
  have hscaled : q * (2 * d) = 2 * (q * d) := by ring
  have hnext : (q + 1) * (2 * d) = 2 * (q * d) + 2 * d := by ring
  constructor
  · intro h
    have hle := (Int.le_ediv_iff_mul_le hpos).mp h.ge
    have hlt := (Int.ediv_lt_iff_lt_mul hpos).mp (show (2 * n + d) / (2 * d) < q + 1 by omega)
    omega
  · intro h
    have hle := (Int.le_ediv_iff_mul_le hpos).mpr (show q * (2 * d) ≤ 2 * n + d by omega)
    have hlt := (Int.ediv_lt_iff_lt_mul hpos).mpr
      (show 2 * n + d < (q + 1) * (2 * d) by omega)
    omega

/-- A quotient is the one with halves away from zero where what it leaves is negligible. -/
theorem halfAway_eq_iff (hd : 0 < d) : halfAway n d = q ↔ Negligible n d (n - q * d) := by
  unfold halfAway Negligible
  by_cases hn : n < 0
  · rw [if_pos hn, if_pos hn, neg_eq_iff_eq_neg, ediv_two_mul_eq_iff hd]
    have hflip : -n - -q * d = -(n - q * d) := by ring
    rw [hflip]
    omega
  · rw [if_neg hn, if_neg hn, ediv_two_mul_eq_iff hd]

/-- A truncated quotient goes one away from zero where at least one half is left of it. -/
theorem Truncated.halfAway (h : Truncated n d q) : halfAway n d =
    if d ≤ 2 * |n - q * d| then q + (if n < 0 then -1 else 1) else q := by
  obtain ⟨hnear, hpos, hneg⟩ := h.remainder
  have hstep : ∀ e : Int, n - (q + e) * d = n - q * d - e * d := by
    intro e
    ring
  rw [halfAway_eq_iff h.1, Negligible]
  -- what truncation leaves has the sign of the numerator
  by_cases hn : n < 0
  · have hleft := hneg hn.le
    rw [abs_of_nonpos hleft] at hnear ⊢
    rw [if_pos hn, if_pos hn]
    split
    · rw [hstep]
      omega
    · omega
  · have hleft := hpos (by omega)
    rw [abs_of_nonneg hleft] at hnear ⊢
    rw [if_neg hn, if_neg hn]
    split
    · rw [hstep]
      omega
    · omega

end Rounded
