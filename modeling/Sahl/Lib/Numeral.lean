import Mathlib.Tactic
import Mathlib.Data.List.Lex

/-! # Numbers in a fixed number of digits

    `width` digits in some base, the most significant first. They read back as what was written
    (`value_digits`), and numbers of as many digits compare as their digits do,
    the first digit that differs deciding (`digits_lt_iff`). -/

namespace Numeral

/-! ## Section 1: Writing and reading -/

/-- The last `width` digits of `n`. -/
def digits (base : Nat) : Nat → Nat → List Nat
  | 0, _ => []
  | width + 1, n => digits base width (n / base) ++ [n % base]

def value (base : Nat) (ds : List Nat) : Nat := ds.foldl (fun n d => n * base + d) 0

@[simp] theorem digits_length (base width n : Nat) : (digits base width n).length = width := by
  induction width generalizing n with
  | zero => rfl
  | succ width ih => simp [digits, ih]

theorem digits_lt_base {base : Nat} (hbase : 0 < base) (width n : Nat) :
    ∀ d ∈ digits base width n, d < base := by
  induction width generalizing n with
  | zero => exact fun d hd => absurd hd List.not_mem_nil
  | succ width ih =>
    intro d hd
    rcases List.mem_append.mp hd with hd | hd
    · exact ih _ d hd
    · rw [List.mem_singleton.mp hd]
      exact Nat.mod_lt _ hbase

theorem value_concat (base : Nat) (ds : List Nat) (d : Nat) :
    value base (ds ++ [d]) = value base ds * base + d := by
  simp [value, List.foldl_append]

/-- What is written reads back. -/
theorem value_digits {base width n : Nat} (h : n < base ^ width) :
    value base (digits base width n) = n := by
  induction width generalizing n with
  | zero =>
    have hzero : n = 0 := by simpa using h
    rw [hzero]
    rfl
  | succ width ih =>
    have hrest : n / base < base ^ width := Nat.div_lt_of_lt_mul (by rw [mul_comm]; exact h)
    rw [digits, value_concat, ih hrest, mul_comm, Nat.div_add_mod]

/-! ## Section 2: Order -/

/-- Of two lists that begin with as many entries, those decide where they differ. -/
theorem append_lt_append_iff {α : Type*} [LT α] [Std.Irrefl (· < · : α → α → Prop)]
    {xs ys us vs : List α} (h : xs.length = ys.length) :
    xs ++ us < ys ++ vs ↔ xs < ys ∨ xs = ys ∧ us < vs := by
  induction xs generalizing ys with
  | nil =>
    rw [List.length_nil] at h
    rw [List.length_eq_zero_iff.mp h.symm]
    simp
  | cons x xs ih =>
    cases ys with
    | nil => cases h
    | cons y ys =>
      rw [List.cons_append, List.cons_append, List.cons_lt_cons_iff, List.cons_lt_cons_iff,
        ih (Nat.succ.inj h), List.cons.injEq]
      constructor
      · rintro (hlt | ⟨rfl, hlt | ⟨rfl, hlt⟩⟩)
        · exact .inl (.inl hlt)
        · exact .inl (.inr ⟨rfl, hlt⟩)
        · exact .inr ⟨⟨rfl, rfl⟩, hlt⟩
      · rintro ((hlt | ⟨rfl, hlt⟩) | ⟨⟨rfl, rfl⟩, hlt⟩)
        · exact .inl hlt
        · exact .inr ⟨rfl, .inl hlt⟩
        · exact .inr ⟨rfl, .inr ⟨rfl, hlt⟩⟩

/-- Symbols in the order of what they stand for keep the order. -/
theorem map_lt_map_iff {α β : Type*} [LT α] [LT β] {f : α → β} {xs ys : List α}
    (hlt : ∀ x ∈ xs, ∀ y ∈ ys, f x < f y ↔ x < y) (heq : ∀ x ∈ xs, ∀ y ∈ ys, f x = f y ↔ x = y) :
    xs.map f < ys.map f ↔ xs < ys := by
  induction xs generalizing ys with
  | nil => cases ys <;> simp
  | cons x xs ih =>
    cases ys with
    | nil => simp
    | cons y ys =>
      rw [List.map_cons, List.map_cons, List.cons_lt_cons_iff, List.cons_lt_cons_iff,
        hlt x List.mem_cons_self y List.mem_cons_self, heq x List.mem_cons_self y List.mem_cons_self,
        ih (fun a ha b hb => hlt a (List.mem_cons_of_mem _ ha) b (List.mem_cons_of_mem _ hb))
          (fun a ha b hb => heq a (List.mem_cons_of_mem _ ha) b (List.mem_cons_of_mem _ hb))]

/-- Numbers compare as their digits do. -/
theorem digits_lt_iff {base width m n : Nat} (hm : m < base ^ width) (hn : n < base ^ width) :
    digits base width m < digits base width n ↔ m < n := by
  induction width generalizing m n with
  | zero => simp_all [digits]
  | succ width ih =>
    have hmRest : m / base < base ^ width := Nat.div_lt_of_lt_mul (by rw [mul_comm]; exact hm)
    have hnRest : n / base < base ^ width := Nat.div_lt_of_lt_mul (by rw [mul_comm]; exact hn)
    have hsame : digits base width (m / base) = digits base width (n / base) ↔
        m / base = n / base := by
      refine ⟨fun h => ?_, fun h => by rw [h]⟩
      rw [← value_digits hmRest, h, value_digits hnRest]
    rw [digits, digits, append_lt_append_iff (by simp), ih hmRest hnRest, hsame,
      List.cons_lt_cons_iff]
    have hmParts := Nat.div_add_mod m base
    have hnParts := Nat.div_add_mod n base
    have hbase : 0 < base := by
      refine Nat.pos_of_ne_zero fun hzero => ?_
      rw [hzero, pow_succ, Nat.mul_zero] at hm
      exact absurd hm (Nat.not_lt_zero _)
    constructor
    · rintro (hlt | ⟨heq, hlt | ⟨-, hlt⟩⟩)
      · exact Nat.lt_of_div_lt_div hlt
      · rw [heq] at hmParts
        omega
      · exact absurd hlt (List.not_lt_nil _)
    · intro hlt
      rcases Nat.lt_or_ge (m / base) (n / base) with hless | hge
      · exact .inl hless
      · have heq : m / base = n / base := Nat.le_antisymm (Nat.div_le_div_right hlt.le) hge
        rw [heq] at hmParts
        exact .inr ⟨heq, .inl (by omega)⟩

end Numeral
