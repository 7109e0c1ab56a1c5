import Mathlib.Tactic
import Mathlib.Data.List.Sort
import Sahl.Lib.Lists

/-! # Replaying a log in another order

    A log is folded into a state by a step that can fail. Sorting the log does not change what it
    folds to, provided every two records the sort turns round can be applied in either order. -/

namespace Replay

variable {ε α σ : Type} {f : σ → α → Except ε σ}

/-- `b`, read after `a`, may as well be read before it. -/
def Swappable (f : σ → α → Except ε σ) (a b : α) : Prop :=
  ∀ s t u, f s a = .ok t → f t b = .ok u → ∃ t', f s b = .ok t' ∧ f t' a = .ok u

/-- The records a sort turns round are swappable. -/
def SwappableWhereTurned (f : σ → α → Except ε σ) (r : α → α → Prop) (xs : List α) : Prop :=
  xs.Pairwise fun a b => ¬ r a b → Swappable f a b

variable {r : α → α → Prop} [DecidableRel r]

/-- A record moves to its place past the ones it may be swapped with. -/
theorem foldlM_orderedInsert {a : α} {xs : List α}
    (hswap : ∀ b ∈ xs, ¬ r a b → Swappable f a b) {s t : σ}
    (h : (a :: xs).foldlM f s = .ok t) : (xs.orderedInsert r a).foldlM f s = .ok t := by
  induction xs generalizing s with
  | nil => exact h
  | cons b xs ih =>
    by_cases hab : r a b
    · rw [List.orderedInsert_cons_of_le _ _ hab]
      exact h
    · rw [List.orderedInsert_of_not_le _ _ hab]
      obtain ⟨u, ha, hrest⟩ := foldlM_cons_eq_ok.mp h
      obtain ⟨v, hb, hrest⟩ := foldlM_cons_eq_ok.mp hrest
      obtain ⟨u', hb', ha'⟩ := hswap b List.mem_cons_self hab s u v ha hb
      have hmoved : (xs.orderedInsert r a).foldlM f u' = .ok t :=
        ih (fun c hc => hswap c (List.mem_cons_of_mem _ hc))
          (foldlM_cons_eq_ok.mpr ⟨v, ha', hrest⟩)
      exact foldlM_cons_eq_ok.mpr ⟨u', hb', hmoved⟩

/-- A log sorted past swappable records only folds to what it folded to before. -/
theorem foldlM_insertionSort {xs : List α} (hswap : SwappableWhereTurned f r xs) {s t : σ}
    (h : xs.foldlM f s = .ok t) : (xs.insertionSort r).foldlM f s = .ok t := by
  induction xs generalizing s with
  | nil => exact h
  | cons a xs ih =>
    obtain ⟨ha, hxs⟩ := List.pairwise_cons.mp hswap
    obtain ⟨u, hstep, hrest⟩ := foldlM_cons_eq_ok.mp h
    rw [List.insertionSort_cons]
    refine foldlM_orderedInsert (fun b hb => ha b ?_) ?_
    · exact (List.perm_insertionSort r xs).mem_iff.mp hb
    · exact foldlM_cons_eq_ok.mpr ⟨u, hstep, ih hxs hrest⟩

end Replay
