import Mathlib.Tactic

/-! # Check digits

    Digits carry weights by their position, and the last of them brings the weighted sum to a
    multiple of a modulus. A weight prime to the modulus lets no change of its digit go unseen. -/

namespace CheckDigit

variable {modulus : Nat} {weight : Nat → Nat}

/-- The weighted sum of digits, the first of them at position `i`. -/
def weighted (weight : Nat → Nat) : Nat → List Nat → Nat
  | _, [] => 0
  | i, d :: ds => weight i * d + weighted weight (i + 1) ds

/-- The digits' weighted sum is a multiple of the modulus. -/
def Closes (modulus : Nat) (weight : Nat → Nat) (ds : List Nat) : Prop :=
  weighted weight 0 ds % modulus = 0

instance (ds : List Nat) : Decidable (Closes modulus weight ds) :=
  inferInstanceAs (Decidable (_ = _))

theorem weighted_append (i : Nat) (xs ys : List Nat) :
    weighted weight i (xs ++ ys) = weighted weight i xs + weighted weight (i + xs.length) ys := by
  induction xs generalizing i with
  | nil => exact (Nat.zero_add _).symm
  | cons x rest ih =>
    show weight i * x + weighted weight (i + 1) (rest ++ ys) =
      weight i * x + weighted weight (i + 1) rest + weighted weight (i + (rest.length + 1)) ys
    rw [ih, show i + 1 + rest.length = i + (rest.length + 1) by omega, Nat.add_assoc]

/-- The digit that closes a text, under weight one. -/
theorem closes_append_iff {ds : List Nat} {check : Nat} (hweight : weight ds.length = 1)
    (hcheck : check < modulus) : Closes modulus weight (ds ++ [check]) ↔
      check = (modulus - weighted weight 0 ds % modulus) % modulus := by
  have hpos : 0 < modulus := by omega
  have hlast : weighted weight ds.length [check] = check := by
    show weight ds.length * check + 0 = check
    rw [hweight, Nat.one_mul, Nat.add_zero]
  have hlt : weighted weight 0 ds % modulus < modulus := Nat.mod_lt _ hpos
  rw [Closes, weighted_append, Nat.zero_add, hlast, Nat.add_mod, Nat.mod_eq_of_lt hcheck]
  by_cases hzero : weighted weight 0 ds % modulus = 0
  · rw [hzero, Nat.zero_add, Nat.sub_zero, Nat.mod_self, Nat.mod_eq_of_lt hcheck]
  · rw [Nat.mod_eq_of_lt (show modulus - weighted weight 0 ds % modulus < modulus by omega)]
    by_cases hwraps : weighted weight 0 ds % modulus + check < modulus
    · rw [Nat.mod_eq_of_lt hwraps]
      omega
    · rw [Nat.mod_eq_sub_mod (by omega), Nat.mod_eq_of_lt (by omega)]
      omega

/-- One changed digit changes the sum by its weight alone. -/
theorem weighted_set {ds : List Nat} {j : Nat} (i d : Nat) (hj : j < ds.length) :
    weighted weight i (ds.set j d) + weight (i + j) * ds[j] =
      weighted weight i ds + weight (i + j) * d := by
  induction ds generalizing i j with
  | nil => exact absurd hj (Nat.not_lt_zero _)
  | cons first rest ih =>
    cases j with
    | zero =>
      show weight i * d + weighted weight (i + 1) rest + weight i * first =
        weight i * first + weighted weight (i + 1) rest + weight i * d
      omega
    | succ j =>
      have hin : j < rest.length := Nat.lt_of_succ_lt_succ hj
      have hrest := ih (i + 1) hin
      rw [show i + 1 + j = i + (j + 1) by omega] at hrest
      show weight i * first + weighted weight (i + 1) (rest.set j d) +
        weight (i + (j + 1)) * rest[j] =
          weight i * first + weighted weight (i + 1) rest + weight (i + (j + 1)) * d
      omega

/-- **A changed digit is seen**, where its weight is prime to the modulus. -/
theorem not_closes_of_set {ds : List Nat} {i d : Nat} (hi : i < ds.length)
    (hcoprime : (weight i).Coprime modulus) (hold : ds[i] < modulus) (hnew : d < modulus)
    (hne : d ≠ ds[i]) (h : Closes modulus weight ds) : ¬ Closes modulus weight (ds.set i d) := by
  intro hset
  have hsum : weighted weight 0 (ds.set i d) + weight (0 + i) * ds[i] =
      weighted weight 0 ds + weight (0 + i) * d := weighted_set 0 d hi
  rw [Nat.zero_add] at hsum
  -- both sums vanish, so the weighted digits agree, and the weight can be cancelled
  have hdigits : weight i * ds[i] ≡ weight i * d [MOD modulus] := by
    have hleft : weighted weight 0 (ds.set i d) ≡ 0 [MOD modulus] := hset
    have hright : weighted weight 0 ds ≡ 0 [MOD modulus] := h
    have hboth : 0 + weight i * ds[i] ≡ 0 + weight i * d [MOD modulus] :=
      (hleft.symm.add_right _).trans (hsum ▸ hright.add_right _)
    rwa [Nat.zero_add, Nat.zero_add] at hboth
  have hcancel := Nat.ModEq.cancel_left_of_coprime (Nat.coprime_comm.mp hcoprime) hdigits
  exact hne (Nat.ModEq.eq_of_lt_of_lt hcancel hold hnew).symm

end CheckDigit
