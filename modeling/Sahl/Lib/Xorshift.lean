import Mathlib.Tactic

/-! # Xorshift generators

    A generator that steps its state by shifts and exclusive ors. Each of the three is undone by no
    more than its own value, so a step loses nothing: states that differ stay apart, and a state
    other than zero never gets to zero, where the generator would stand still. -/

namespace Xorshift

variable {w : Nat}

/-! ## Section 1: One shift -/

/-- A value that a shift leaves as it is has no bit set, from the lowest up. -/
theorem eq_zero_of_shiftLeft {z : BitVec w} {k : Nat} (hk : 0 < k) (h : z <<< k = z) : z = 0#w := by
  refine BitVec.eq_of_getLsbD_eq fun i _ => ?_
  rw [BitVec.getLsbD_zero]
  induction i using Nat.strongRecOn with
  | _ i ih =>
    rw [← h, BitVec.getLsbD_shiftLeft]
    by_cases hlow : i < k
    · simp [hlow]
    · rw [ih (i - k) (by omega) (by omega), Bool.and_false]

/-- From the highest down, where the shift is to the right. -/
theorem eq_zero_of_ushiftRight {z : BitVec w} {k : Nat} (hk : 0 < k) (h : z >>> k = z) :
    z = 0#w := by
  refine BitVec.eq_of_getLsbD_eq fun i hi => ?_
  rw [BitVec.getLsbD_zero]
  obtain ⟨n, hn⟩ : ∃ n, w - i = n := ⟨_, rfl⟩
  induction n using Nat.strongRecOn generalizing i with
  | _ n ih =>
    rw [← h, BitVec.getLsbD_ushiftRight]
    by_cases hhigh : w ≤ k + i
    · exact BitVec.getLsbD_of_ge z _ hhigh
    · exact ih (w - (k + i)) (by omega) (k + i) (by omega) rfl

/-- What differs differs after an exclusive or with its own shift. -/
theorem xor_injective {f : BitVec w → BitVec w} (hxor : ∀ x y, f (x ^^^ y) = f x ^^^ f y)
    (hzero : ∀ z, f z = z → z = 0#w) : Function.Injective fun x => x ^^^ f x := by
  intro x y h
  have hsame : x ^^^ f x = y ^^^ f y := h
  have hfixed : f (x ^^^ y) = x ^^^ y := by
    rw [hxor]
    calc f x ^^^ f y = x ^^^ (x ^^^ f x) ^^^ f y := by
          rw [← BitVec.xor_assoc, BitVec.xor_self, BitVec.zero_xor]
      _ = x ^^^ (y ^^^ f y) ^^^ f y := by rw [hsame]
      _ = x ^^^ y := by
          rw [BitVec.xor_assoc, BitVec.xor_assoc, BitVec.xor_self, BitVec.xor_zero]
  exact BitVec.xor_eq_zero_iff.mp (hzero _ hfixed)

/-! ## Section 2: A step of the generator -/

/-- Shift left, right and left again, each time into an exclusive or. -/
def mix (a b c : Nat) (x : BitVec w) : BitVec w :=
  let x := x ^^^ (x <<< a)
  let x := x ^^^ (x >>> b)
  x ^^^ (x <<< c)

variable {a b c : Nat}

theorem mix_zero : mix a b c 0#w = 0#w := by
  simp [mix]

/-- A step loses nothing. -/
theorem mix_injective (ha : 0 < a) (hb : 0 < b) (hc : 0 < c) :
    Function.Injective (mix a b c : BitVec w → BitVec w) := by
  have hleft : ∀ k, 0 < k → Function.Injective fun x : BitVec w => x ^^^ (x <<< k) := fun k hk =>
    xor_injective (fun x y => BitVec.shiftLeft_xor_distrib x y k) fun z => eq_zero_of_shiftLeft hk
  have hright : Function.Injective fun x : BitVec w => x ^^^ (x >>> b) :=
    xor_injective (fun x y => BitVec.ushiftRight_xor_distrib x y b) fun z =>
      eq_zero_of_ushiftRight hb
  exact (hleft c hc).comp (hright.comp (hleft a ha))

/-- A state other than zero never gets there. -/
theorem mix_ne_zero (ha : 0 < a) (hb : 0 < b) (hc : 0 < c) {x : BitVec w} (h : x ≠ 0#w) :
    mix a b c x ≠ 0#w := by
  intro hzero
  exact h (mix_injective ha hb hc (hzero.trans mix_zero.symm))

end Xorshift
