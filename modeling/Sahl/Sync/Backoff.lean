import Mathlib.Tactic
import Sahl.Lib.Xorshift

/-! # How long to wait between sync attempts

    The wait doubles with each failure up to a cap, and half of it is drawn at random, so that
    tills that lost the network together do not all come back at one moment. The draw is a
    generator of the till's own: with another seed its state is another at every failure
    (`seeds_apart`). -/

namespace Sahl

/-! ## Section 1: Durations -/

/-- A span of time in nanoseconds; its seconds are a 64 bit number. -/
@[ext] structure Duration where
  nanos : Nat
  fits : nanos < 2 ^ 64 * 1000000000
  deriving DecidableEq

namespace Duration

/-- What a saturating operation gives. -/
def clamp (nanos : Nat) : Duration :=
  ⟨min nanos (2 ^ 64 * 1000000000 - 1), by omega⟩

theorem clamp_nanos {n : Nat} (h : n < 2 ^ 64 * 1000000000) : (clamp n).nanos = n := by
  show min n (2 ^ 64 * 1000000000 - 1) = n
  omega

def zero : Duration := ⟨0, by decide⟩

def fromSecs (n : Nat) : Duration := clamp (n * 1000000000)

def fromMillis (n : Nat) : Duration := clamp (n * 1000000)

def saturatingMul (d : Duration) (n : Nat) : Duration := clamp (d.nanos * n)

def saturatingAdd (d e : Duration) : Duration := clamp (d.nanos + e.nanos)

def saturatingSub (d e : Duration) : Duration := ⟨d.nanos - e.nanos, by have := d.fits; omega⟩

/-- `checked_div(2)`. -/
def half (d : Duration) : Duration := ⟨d.nanos / 2, by have := d.fits; omega⟩

def asMillis (d : Duration) : Nat := d.nanos / 1000000

/-- The shorter of two. -/
def shorter (d e : Duration) : Duration := if d.nanos ≤ e.nanos then d else e

theorem shorter_nanos (d e : Duration) : (d.shorter e).nanos = min d.nanos e.nanos := by
  unfold shorter
  split <;> omega

end Duration

/-! ## Section 2: The schedule -/

structure Backoff where
  base : Duration
  max : Duration
  attempt : Nat
  /-- What the jitter is drawn from. -/
  seed : BitVec 64

namespace Backoff

/-- The wait between rounds when there is nothing pending. -/
def idle : Duration := .fromSecs 30

def new (base max : Duration) (seed : BitVec 64) : Backoff := ⟨base, max, 0, seed⟩

/-- First retry in a second, capped at five minutes. -/
def standard (seed : BitVec 64) : Backoff := new (.fromSecs 1) (.fromSecs 300) seed

/-- A round succeeded. -/
def reset (b : Backoff) : Backoff := { b with attempt := 0 }

/-- The generator, xorshift on 64 bits. -/
def advance (seed : BitVec 64) : BitVec 64 := Xorshift.mix 13 7 17 seed

theorem advance_injective : Function.Injective advance :=
  Xorshift.mix_injective (by decide) (by decide) (by decide)

/-- A draw below `span`. -/
def jitter (b : Backoff) (span : Duration) : Duration × Backoff :=
  if span.nanos = 0 then (.zero, b)
  else
    let seed := advance b.seed
    let spanMillis := Nat.max (min span.asMillis (2 ^ 64 - 1)) 1
    (.fromMillis (seed.toNat % spanMillis), { b with seed })

/-- The wait before any of it is drawn: the base, doubled at each attempt, up to the cap. The
    shift is held at 30, so that it never wraps. -/
def capped (b : Backoff) : Duration :=
  (b.base.saturatingMul (min (2 ^ min b.attempt 30) (2 ^ 32 - 1))).shorter b.max

/-- How long to wait before the next attempt. -/
def nextDelay (b : Backoff) : Duration × Backoff :=
  let half := b.capped.half
  let spread := b.capped.saturatingSub half
  let drawn := jitter { b with attempt := min (b.attempt + 1) (2 ^ 32 - 1) } spread
  (half.saturatingAdd drawn.1, drawn.2)

/-! ## Section 3: What is waited -/

/-- A draw is shorter than what it is drawn from. -/
theorem jitter_le (b : Backoff) (span : Duration) : (b.jitter span).1.nanos ≤ span.nanos := by
  unfold jitter
  split
  · exact Nat.zero_le _
  · show min (_ % Nat.max (min (span.nanos / 1000000) (2 ^ 64 - 1)) 1 * 1000000) _ ≤ span.nanos
    have hlt := Nat.mod_lt (advance b.seed).toNat
      (show 0 < Nat.max (min (span.nanos / 1000000) (2 ^ 64 - 1)) 1 from Nat.le_max_right _ _)
    generalize (advance b.seed).toNat % _ = drawn at hlt ⊢
    -- of less than a millisecond nothing is drawn
    by_cases hshort : span.nanos / 1000000 = 0
    · rw [hshort] at hlt
      have hzero : drawn = 0 := Nat.lt_one_iff.mp hlt
      rw [hzero]
      omega
    · have hbound : drawn < span.nanos / 1000000 := by
        refine hlt.trans_le (Nat.max_le.mpr ⟨min_le_left _ _, Nat.one_le_iff_ne_zero.mpr hshort⟩)
      omega

/-- At least half of the wait is kept, and all of it is never exceeded. -/
theorem nextDelay_bounds (b : Backoff) : b.capped.nanos / 2 ≤ b.nextDelay.1.nanos ∧
    b.nextDelay.1.nanos ≤ b.capped.nanos := by
  have hdrawn := jitter_le { b with attempt := min (b.attempt + 1) (2 ^ 32 - 1) }
    (b.capped.saturatingSub b.capped.half)
  have hfits := b.capped.fits
  have hspread : (b.capped.saturatingSub b.capped.half).nanos =
      b.capped.nanos - b.capped.nanos / 2 := rfl
  rw [hspread] at hdrawn
  have hnanos : b.nextDelay.1.nanos = b.capped.nanos / 2 + (jitter { b with
      attempt := min (b.attempt + 1) (2 ^ 32 - 1) }
        (b.capped.saturatingSub b.capped.half)).1.nanos := by
    refine Duration.clamp_nanos ?_
    show b.capped.nanos / 2 + _ < _
    omega
  omega

theorem jitter_attempt (b : Backoff) (span : Duration) : (b.jitter span).2.attempt = b.attempt := by
  unfold jitter
  split <;> rfl

theorem nextDelay_attempt (b : Backoff) :
    b.nextDelay.2.attempt = min (b.attempt + 1) (2 ^ 32 - 1) :=
  jitter_attempt _ _

/-- A failure counts, and moves the generator on where there is something to draw. -/
theorem nextDelay_next (b : Backoff) (h : 1 < b.capped.nanos) : b.nextDelay.2 =
    { b with attempt := min (b.attempt + 1) (2 ^ 32 - 1), seed := advance b.seed } := by
  have hspread : (b.capped.saturatingSub b.capped.half).nanos ≠ 0 := by
    show b.capped.nanos - b.capped.nanos / 2 ≠ 0
    omega
  show (jitter _ (b.capped.saturatingSub b.capped.half)).2 = _
  rw [jitter, if_neg hspread]

/-- The standard schedule after `n` failures in a row, and `draws` in all. -/
def standardAt (seed : BitVec 64) (n draws : Nat) : Backoff :=
  { standard seed with attempt := min n (2 ^ 32 - 1), seed := advance^[draws] seed }

/-- It waits a second, doubled with each failure, up to five minutes. -/
theorem standardAt_capped (seed : BitVec 64) (n draws : Nat) :
    (standardAt seed n draws).capped.nanos = min (2 ^ n) 300 * 1000000000 := by
  have hsecond : (Duration.fromSecs 1).nanos = 1000000000 := by decide
  have hmax : (Duration.fromSecs 300).nanos = 300 * 1000000000 := by decide
  show (((Duration.fromSecs 1).saturatingMul (min (2 ^ min (min n (2 ^ 32 - 1)) 30)
    (2 ^ 32 - 1))).shorter (.fromSecs 300)).nanos = _
  rw [Duration.shorter_nanos, hmax, Duration.saturatingMul, hsecond]
  by_cases hsmall : n ≤ 30
  · have hshift : min (min n (2 ^ 32 - 1)) 30 = n := by omega
    have hpow : (2 : Nat) ^ n ≤ 2 ^ 30 := Nat.pow_le_pow_right (by decide) hsmall
    have hfactor : min (2 ^ n) (2 ^ 32 - 1) = 2 ^ n := by omega
    rw [hshift, hfactor, Duration.clamp_nanos (by omega)]
    omega
  · -- past thirty the shift stays, and the cap has long been reached
    have hshift : min (min n (2 ^ 32 - 1)) 30 = 30 := by omega
    have hpow : (2 : Nat) ^ 30 ≤ 2 ^ n := Nat.pow_le_pow_right (by decide) (by omega)
    have hfactor : min ((2 : Nat) ^ 30) (2 ^ 32 - 1) = 2 ^ 30 := by decide
    rw [hshift, hfactor, Duration.clamp_nanos (by decide)]
    omega

theorem standardAt_next (seed : BitVec 64) (n draws : Nat) :
    (standardAt seed n draws).nextDelay.2 = standardAt seed (n + 1) (draws + 1) := by
  have hlong : 1 < (standardAt seed n draws).capped.nanos := by
    rw [standardAt_capped]
    have hpow : 0 < 2 ^ n := Nat.two_pow_pos n
    omega
  have hattempt : min (min n (2 ^ 32 - 1) + 1) (2 ^ 32 - 1) = min (n + 1) (2 ^ 32 - 1) := by omega
  rw [nextDelay_next _ hlong]
  show Backoff.mk _ _ (min (min n (2 ^ 32 - 1) + 1) (2 ^ 32 - 1)) _ = Backoff.mk _ _ _ _
  rw [hattempt, Function.iterate_succ_apply']
  rfl

theorem standardAt_reset (seed : BitVec 64) (n draws : Nat) :
    (standardAt seed n draws).reset = standardAt seed 0 draws := rfl

/-- **Seeds stay apart**: tills whose seeds differ have generators that differ after the same
    number of draws, whatever became of their rounds. -/
theorem seeds_apart {seed seed' : BitVec 64} (h : seed ≠ seed') (n m draws : Nat) :
    (standardAt seed n draws).seed ≠ (standardAt seed' m draws).seed :=
  fun hsame => h (advance_injective.iterate draws hsame)

/-- A generator that did not start at zero never stands still. -/
theorem seed_ne_zero {seed : BitVec 64} (h : seed ≠ 0) (n draws : Nat) :
    (standardAt seed n draws).seed ≠ 0 := by
  show advance^[draws] seed ≠ 0
  induction draws with
  | zero => exact h
  | succ draws ih =>
    rw [Function.iterate_succ_apply']
    exact Xorshift.mix_ne_zero (by decide) (by decide) (by decide) ih

end Backoff

end Sahl
