import Mathlib.Tactic

/-! # Drawing from a list in order

    A quantity is filled from a list of holdings, the first of them first, until nothing more is
    wanted. What is drawn comes to the quantity or, where the holdings do not, to all of them; and
    nothing is drawn from a holding before those ahead of it are empty. -/

namespace Drain

variable {α : Type}

/-- What is drawn from each holding to fill a quantity, in order. -/
def draw (amount : α → Int) : Int → List α → List (α × Int)
  | _, [] => []
  | wanted, x :: xs =>
    if wanted ≤ 0 then []
    else (x, min wanted (amount x)) :: draw amount (wanted - min wanted (amount x)) xs

variable {amount : α → Int} {wanted : Int} {x y : α} {xs ys : List α} {taken : Int}

theorem draw_of_nonpos (hwanted : wanted ≤ 0) (xs : List α) : draw amount wanted xs = [] := by
  cases xs with
  | nil => rfl
  | cons x xs => rw [draw, if_pos hwanted]

/-- What is drawn comes to the quantity, or to all there is. -/
theorem sum_draw (hamount : ∀ x ∈ xs, 0 ≤ amount x) (hwanted : 0 ≤ wanted) :
    ((draw amount wanted xs).map (·.2)).sum = min wanted (xs.map amount).sum := by
  induction xs generalizing wanted with
  | nil => simp [draw, hwanted]
  | cons x xs ih =>
    obtain ⟨hx, hxs⟩ := List.forall_mem_cons.mp hamount
    have hrest : 0 ≤ (xs.map amount).sum := List.sum_nonneg fun n hn => by
      obtain ⟨y, hy, rfl⟩ := List.mem_map.mp hn
      exact hxs y hy
    rw [List.map_cons, List.sum_cons]
    by_cases hzero : wanted ≤ 0
    · rw [draw_of_nonpos hzero]
      simp only [List.map_nil, List.sum_nil]
      omega
    · rw [draw, if_neg hzero, List.map_cons, List.sum_cons, ih hxs (by omega)]
      omega

/-- From two lists in turn, the second gives what the first falls short by. -/
theorem draw_append (hamount : ∀ x ∈ xs, 0 ≤ amount x) : draw amount wanted (xs ++ ys) =
    draw amount wanted xs ++ draw amount (wanted - (xs.map amount).sum) ys := by
  induction xs generalizing wanted with
  | nil => simp [draw]
  | cons x xs ih =>
    obtain ⟨hx, hxs⟩ := List.forall_mem_cons.mp hamount
    have hrest : 0 ≤ (xs.map amount).sum := List.sum_nonneg fun n hn => by
      obtain ⟨y, hy, rfl⟩ := List.mem_map.mp hn
      exact hxs y hy
    rw [List.map_cons, List.sum_cons, List.cons_append]
    by_cases hzero : wanted ≤ 0
    · rw [draw_of_nonpos hzero, draw_of_nonpos hzero, draw_of_nonpos (by omega)]
      rfl
    · rw [draw, draw, if_neg hzero, if_neg hzero, ih hxs, List.cons_append]
      by_cases hless : wanted ≤ amount x
      · rw [min_eq_left hless, draw_of_nonpos (by omega) xs, draw_of_nonpos (by omega) ys,
          draw_of_nonpos (by omega) ys]
      · rw [min_eq_right (by omega), sub_sub]

/-- A list that does not come to more than the quantity is drawn empty. -/
theorem draw_all (hamount : ∀ x ∈ xs, 0 < amount x) (hwanted : (xs.map amount).sum ≤ wanted) :
    draw amount wanted xs = xs.map fun x => (x, amount x) := by
  induction xs generalizing wanted with
  | nil => rfl
  | cons x xs ih =>
    obtain ⟨hx, hxs⟩ := List.forall_mem_cons.mp hamount
    have hrest : 0 ≤ (xs.map amount).sum := List.sum_nonneg fun n hn => by
      obtain ⟨y, hy, rfl⟩ := List.mem_map.mp hn
      exact (hxs y hy).le
    rw [List.map_cons, List.sum_cons] at hwanted
    rw [draw, if_neg (by omega), min_eq_right (by omega), ih hxs (by omega), List.map_cons]

/-- Holdings are drawn from in their order, each of them once. -/
theorem draw_prefix (amount : α → Int) (wanted : Int) (xs : List α) :
    (draw amount wanted xs).map Prod.fst <+: xs := by
  induction xs generalizing wanted with
  | nil => exact List.nil_prefix
  | cons x xs ih =>
    by_cases hzero : wanted ≤ 0
    · rw [draw_of_nonpos hzero]
      exact List.nil_prefix
    · rw [draw, if_neg hzero, List.map_cons, List.prefix_cons_inj]
      exact ih _

/-- A holding is drawn from for something, and for no more than it holds. -/
theorem mem_draw (hamount : ∀ x ∈ xs, 0 < amount x) (h : (x, taken) ∈ draw amount wanted xs) :
    x ∈ xs ∧ 0 < taken ∧ taken ≤ amount x := by
  induction xs generalizing wanted with
  | nil => cases h
  | cons y xs ih =>
    obtain ⟨hy, hxs⟩ := List.forall_mem_cons.mp hamount
    rw [draw] at h
    split at h
    · cases h
    · rcases List.mem_cons.mp h with h | h
      · cases h
        exact ⟨List.mem_cons_self, by omega, by omega⟩
      · obtain ⟨hmem, hbounds⟩ := ih hxs h
        exact ⟨List.mem_cons_of_mem _ hmem, hbounds⟩

/-- What is ahead of a holding that is drawn from is drawn empty. -/
theorem mem_draw_of_ahead (hamount : ∀ x ∈ xs, 0 < amount x) {r : α → α → Prop}
    (hsorted : xs.Pairwise r) (hirrefl : ∀ x, ¬ r x x) (hasymm : ∀ x y, r x y → ¬ r y x)
    (h : (x, taken) ∈ draw amount wanted xs) (hy : y ∈ xs) (hahead : r y x) :
    (y, amount y) ∈ draw amount wanted xs := by
  obtain ⟨hmem, -⟩ := mem_draw hamount h
  obtain ⟨before, after, rfl⟩ := List.append_of_mem hmem
  have hbefore : ∀ z ∈ before, 0 < amount z := fun z hz =>
    hamount z (List.mem_append_left _ hz)
  obtain ⟨-, hafter, hacross⟩ := List.pairwise_append.mp hsorted
  rw [draw_append fun z hz => (hbefore z hz).le] at h ⊢
  refine List.mem_append_left _ ?_
  have hin : y ∈ before := by
    rcases List.mem_append.mp hy with hy | hy
    · exact hy
    · rcases List.mem_cons.mp hy with rfl | hy
      · exact absurd hahead (hirrefl y)
      · exact absurd hahead (hasymm x y ((List.pairwise_cons.mp hafter).1 y hy))
  -- the holding itself is not among those before it, so something was still wanted after them
  have hsecond : (x, taken) ∈ draw amount (wanted - (before.map amount).sum) (x :: after) := by
    rcases List.mem_append.mp h with h | h
    · have hearlier := (mem_draw hbefore h).1
      exact absurd (hacross x hearlier x List.mem_cons_self) (hirrefl x)
    · exact h
  have hwanted : (before.map amount).sum ≤ wanted := by
    by_contra hless
    rw [draw_of_nonpos (by omega)] at hsecond
    cases hsecond
  rw [draw_all hbefore hwanted]
  exact List.mem_map.mpr ⟨y, hin, rfl⟩

/-- Where what is drawn falls short, every holding is drawn empty. -/
theorem mem_draw_of_short (hamount : ∀ x ∈ xs, 0 < amount x)
    (hshort : ((draw amount wanted xs).map (·.2)).sum < wanted) (hy : y ∈ xs) :
    (y, amount y) ∈ draw amount wanted xs := by
  by_cases hwanted : 0 ≤ wanted
  · rw [sum_draw (fun x hx => (hamount x hx).le) hwanted] at hshort
    rw [draw_all hamount (by omega)]
    exact List.mem_map.mpr ⟨y, hy, rfl⟩
  · rw [draw_of_nonpos (by omega)] at hshort
    simp only [List.map_nil, List.sum_nil] at hshort
    omega

end Drain
