import Mathlib.Tactic
import Mathlib.Algebra.BigOperators.Group.Finset.Basic
import Mathlib.Algebra.BigOperators.Ring.Finset
import Mathlib.Algebra.Order.BigOperators.Group.Finset

/-! # Lists by how often each member is in them

    A sum over a list is a sum over its members, each as often as it is there, and there is a
    list for every way of counting. The best of a weighted count is at one end of its range. -/

namespace Counts

variable {α : Type}

/-- How many to take, between `low` and `high`, of what is worth `top`. -/
def bestCount (low high : ℕ) (top : ℤ) : ℕ := if 0 ≤ top then high else low

/-- What as many are worth. -/
def best (low high : ℕ) (top : ℤ) : ℤ := bestCount low high top * top

theorem bestCount_bounds {low high : ℕ} (h : low ≤ high) (top : ℤ) :
    low ≤ bestCount low high top ∧ bestCount low high top ≤ high := by
  unfold bestCount
  split <;> omega

/-- A number between the bounds, each worth at most `top`, comes to no more than the best. -/
theorem weighted_le_best {S : Finset α} {n : α → ℕ} {f : α → ℤ} {low high : ℕ} {top : ℤ}
    (hlow : low ≤ ∑ x ∈ S, n x) (hhigh : ∑ x ∈ S, n x ≤ high)
    (htop : ∀ x ∈ S, 0 < n x → f x ≤ top) :
    ∑ x ∈ S, (n x : ℤ) * f x ≤ best low high top := by
  have hworth : ∑ x ∈ S, (n x : ℤ) * f x ≤ (∑ x ∈ S, n x : ℕ) * top := by
    rw [Nat.cast_sum, Finset.sum_mul]
    refine Finset.sum_le_sum fun x hx => ?_
    by_cases hn : n x = 0
    · simp [hn]
    · exact mul_le_mul_of_nonneg_left (htop x hx (Nat.pos_of_ne_zero hn)) (Nat.cast_nonneg _)
  have hlow' : (low : ℤ) ≤ (∑ x ∈ S, n x : ℕ) := by exact_mod_cast hlow
  have hhigh' : ((∑ x ∈ S, n x : ℕ) : ℤ) ≤ high := by exact_mod_cast hhigh
  unfold best bestCount
  by_cases hsign : 0 ≤ top
  · rw [if_pos hsign]
    exact hworth.trans (mul_le_mul_of_nonneg_right hhigh' hsign)
  · rw [if_neg hsign]
    exact hworth.trans (mul_le_mul_of_nonpos_right hlow' (le_of_not_ge hsign))

variable [DecidableEq α]

/-- A sum over a list of what is nothing outside a set. -/
theorem sum_map_eq {S : Finset α} {f : α → ℤ} (hf : ∀ x, x ∉ S → f x = 0) (xs : List α) :
    (xs.map f).sum = ∑ x ∈ S, (xs.count x : ℤ) * f x := by
  induction xs with
  | nil => simp
  | cons y ys ih =>
    have hcount : ∀ x, ((y :: ys).count x : ℤ) * f x =
        (ys.count x : ℤ) * f x + if y = x then f x else 0 := by
      intro x
      rw [List.count_cons]
      by_cases hx : y = x
      · simp [hx, add_mul]
      · simp [hx]
    rw [List.map_cons, List.sum_cons, ih, Finset.sum_congr rfl fun x _ => hcount x,
      Finset.sum_add_distrib, Finset.sum_ite_eq, add_comm]
    by_cases hy : y ∈ S
    · rw [if_pos hy]
    · rw [if_neg hy, hf y hy]

/-- How many members of a list are in a set. -/
theorem countP_eq {S : Finset α} (xs : List α) :
    xs.countP (· ∈ S) = ∑ x ∈ S, xs.count x := by
  induction xs with
  | nil => simp
  | cons y ys ih =>
    simp only [List.count_cons, Finset.sum_add_distrib, ← ih, List.countP_cons, beq_iff_eq,
      Finset.sum_ite_eq, decide_eq_true_eq]

/-- Every way of counting the members of a set is that of a list. -/
theorem exists_list (S : Finset α) (n : α → ℕ) : ∃ xs : List α, ∀ x ∈ S, xs.count x = n x := by
  refine ⟨(∑ x ∈ S, Multiset.replicate (n x) x).toList, fun x hx => ?_⟩
  rw [← Multiset.coe_count, Multiset.coe_toList, Multiset.count_sum']
  simp [Multiset.count_replicate, hx]

end Counts
