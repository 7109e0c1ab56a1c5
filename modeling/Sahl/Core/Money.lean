import Mathlib.Tactic
import Mathlib.Data.List.Sort
import Sahl.Lib.Lists
import Sahl.Lib.Rounding
import Sahl.Core.Ids

/-! # Money

    An amount is an exact count of minor units in a currency. Every operation is checked:
    it is exact or it fails. Quantities are exact thousandths of a unit, rates are basis points. -/

namespace Sahl

/-! ## Currency, errors, rounding -/

inductive Currency where
  | bdt
  | sar
  | aed
  | usd
  deriving DecidableEq

namespace Currency

def code : Currency → String
  | bdt => "BDT"
  | sar => "SAR"
  | aed => "AED"
  | usd => "USD"

/-- Number of decimal digits in the minor unit. -/
def exponent : Currency → Nat
  | bdt | sar | aed | usd => 2

/-- Minor units per major unit. -/
def minorPerMajor (currency : Currency) : Nat :=
  match currency.exponent with
  | 0 => 1
  | 1 => 10
  | 2 => 100
  | 3 => 1000
  | _ => 100

/-- The minor unit is the last of the currency's decimal places. -/
theorem minorPerMajor_eq (currency : Currency) :
    currency.minorPerMajor = 10 ^ currency.exponent := by
  cases currency <;> rfl

end Currency

inductive MoneyError where
  | currencyMismatch (left right : Currency)
  | overflow
  | divisionByZero
  | invalidWeights
  | unknownCurrency (code : String)
  deriving DecidableEq

/-- How to resolve a fraction of a minor unit. -/
inductive Rounding where
  /-- Half away from zero. -/
  | halfUp
  /-- Half to even. -/
  | halfEven
  | towardZero
  deriving DecidableEq

/-- Whether a non-zero remainder moves the truncated quotient away from zero. -/
def Rounding.roundsAway (mode : Rounding) (quotient twiceRemainder magnitude : I128) :
    Except MoneyError Bool :=
  match mode with
  | .towardZero => .ok false
  | .halfUp => .ok (magnitude.val ≤ twiceRemainder.val)
  | .halfEven =>
    if magnitude.val < twiceRemainder.val then .ok true
    else if twiceRemainder.val < magnitude.val then .ok false
    else .ok (quotient.val.tmod 2 = 1 ∨ quotient.val.tmod 2 = -1)

/-- Divide, resolving the fraction per `mode`. -/
def divideRounded (numerator denominator : I128) (mode : Rounding) : Except MoneyError I128 :=
  if denominator.val = 0 then .error .divisionByZero
  else do
    let quotient ← Except.okOr (numerator.checkedDiv denominator) .overflow
    let remainder ← Except.okOr (numerator.checkedRem denominator) .overflow
    if remainder.val = 0 then .ok quotient
    else do
      -- the direction that moves away from zero: truncation left the sign of the true result
      let step : Int := if (numerator.val < 0) = (denominator.val < 0) then 1 else -1
      let twiceRemainder ← Except.okOr
        (remainder.checkedAbs.bind fun r => SInt.ofInt? (r.val * 2)) .overflow
      let magnitude ← Except.okOr denominator.checkedAbs .overflow
      if ← mode.roundsAway quotient twiceRemainder magnitude then
        Except.okOr (SInt.ofInt? (quotient.val + step)) .overflow
      else .ok quotient

/-- The quotient a rounding mode asks for. -/
def Rounding.Rounds (mode : Rounding) (numerator denominator quotient : Int) : Prop :=
  match mode with
  | .towardZero => Rounded.Truncated numerator denominator quotient
  | .halfUp | .halfEven => Rounded.Nearest numerator denominator quotient

theorem Rounding.Rounds.quotient {mode : Rounding} {n d q : Int} (h : mode.Rounds n d q) :
    Rounded.Quotient n d q := by
  cases mode with
  | towardZero => exact Rounded.Truncated.quotient h
  | halfUp | halfEven => exact Rounded.Nearest.quotient h

/-- The quotient of a sum is within one of the sum of the quotients. -/
theorem Rounding.Rounds.add {mode : Rounding} {n m d q r s : Int} (hn : mode.Rounds n d q)
    (hm : mode.Rounds m d r) (hs : mode.Rounds (n + m) d s) : |s - q - r| ≤ 1 := by
  cases mode with
  | towardZero => exact Rounded.Truncated.add hn hm hs
  | halfUp | halfEven => exact Rounded.Nearest.add hn hm hs

/-- What is left of the numerator, once the quotient is rounded away or not. -/
theorem Rounding.roundsAway_rounds {mode : Rounding} {quotient twice magnitude : I128}
    {n : Int} {away : Bool} {q : Int} (hd : 0 < magnitude.val)
    (hq : quotient.val = n.tdiv magnitude.val)
    (htwice : twice.val = |n.tmod magnitude.val| * 2)
    (haway : mode.roundsAway quotient twice magnitude = .ok away)
    (hstep : q = if away then quotient.val + (if n < 0 then -1 else 1) else quotient.val) :
    mode.Rounds n magnitude.val q := by
  have htrunc : Rounded.Truncated n magnitude.val quotient.val := ⟨hd, hq⟩
  obtain ⟨hnear, hpos, hneg⟩ := htrunc.remainder
  have hleft : n - quotient.val * magnitude.val = n.tmod magnitude.val := by
    have := Int.tmod_add_tdiv_mul n magnitude.val
    rw [hq]
    omega
  -- moving away from zero leaves the other side of the unit
  have hmoved : 2 * |n - (quotient.val + (if n < 0 then -1 else 1)) * magnitude.val| =
      2 * magnitude.val - twice.val := by
    rw [add_mul, htwice]
    rw [abs_lt] at hnear
    by_cases hn : n < 0
    · have := hneg hn.le
      rw [if_pos hn, abs_of_nonneg (by omega), abs_of_nonpos (by omega)]
      omega
    · have := hpos (by omega)
      rw [if_neg hn, abs_of_nonpos (by omega), abs_of_nonneg (by omega)]
      omega
  have hkept : 2 * |n - quotient.val * magnitude.val| = twice.val := by
    rw [hleft, htwice]
    omega
  have hnearest : (away = true → magnitude.val ≤ twice.val) →
      (away = false → twice.val ≤ magnitude.val) → Rounded.Nearest n magnitude.val q := by
    intro hup hdown
    refine ⟨hd, ?_⟩
    cases away with
    | true =>
      have := hup rfl
      rw [hstep, if_pos rfl, hmoved]
      omega
    | false =>
      have := hdown rfl
      rw [hstep, if_neg Bool.false_ne_true, hkept]
      omega
  cases mode with
  | towardZero =>
    cases haway
    exact ⟨hd, hstep.trans hq⟩
  | halfUp =>
    refine hnearest (fun h => ?_) (fun h => ?_)
    · subst h
      simpa [Rounding.roundsAway] using haway
    · subst h
      have := haway
      simp [Rounding.roundsAway] at this
      omega
  | halfEven =>
    simp only [Rounding.roundsAway] at haway
    split at haway
    · cases haway
      exact hnearest (fun _ => by omega) (fun h => by cases h)
    · split at haway
      · cases haway
        exact hnearest (fun h => by cases h) (fun _ => by omega)
      · exact hnearest (fun _ => by omega) (fun _ => by omega)

theorem divideRounded_rounds {n d q : I128} {mode : Rounding} (hd : 0 < d.val)
    (h : divideRounded n d mode = .ok q) : mode.Rounds n.val d.val q.val := by
  unfold divideRounded at h
  rw [if_neg hd.ne'] at h
  simp only [Except.bind_eq_ok, Except.okOr_eq_ok, SInt.checkedDiv, SInt.checkedRem,
    if_neg hd.ne', SInt.ofInt?_eq_some, Option.bind_eq_some_iff] at h
  obtain ⟨quotient, hquotient, remainder, ⟨_, -, hremainder⟩, h⟩ := h
  split at h
  · rename_i hzero
    cases h
    -- nothing is left over, and every rule gives the quotient
    have hexact : n.val - q.val * d.val = 0 := by
      have := Int.tmod_add_tdiv_mul n.val d.val
      rw [hquotient]
      omega
    cases mode with
    | towardZero => exact ⟨hd, hquotient⟩
    | halfUp | halfEven => exact ⟨hd, by rw [hexact]; simpa using hd.le⟩
  · simp only [Except.bind_eq_ok, Except.okOr_eq_ok, SInt.checkedAbs, SInt.ofInt?_eq_some,
      Option.bind_eq_some_iff] at h
    obtain ⟨twice, ⟨r, hr, htwice⟩, magnitude, hmagnitude, away, haway, h⟩ := h
    have hsize : magnitude.val = d.val := by rw [hmagnitude, abs_of_pos hd]
    have hsign : ¬ d.val < 0 := by omega
    rw [← hsize] at hquotient hremainder ⊢
    refine Rounding.roundsAway_rounds (by omega) hquotient ?_ haway ?_
    · rw [htwice, hr, hremainder]
    · -- away from zero is up or down by the sign of the dividend
      cases away with
      | true =>
        simp only [if_true, Except.okOr_eq_ok, SInt.ofInt?_eq_some, hsign] at h
        rw [if_pos rfl, h]
        by_cases hn : n.val < 0 <;> simp [hn]
      | false =>
        cases h
        rfl

theorem Rounding.roundsAway_isOkay (mode : Rounding) (quotient twice magnitude : I128) :
    ∃ away, mode.roundsAway quotient twice magnitude = .ok away := by
  cases mode with
  | towardZero => exact ⟨_, rfl⟩
  | halfUp => exact ⟨_, rfl⟩
  | halfEven =>
    simp only [Rounding.roundsAway]
    split
    · exact ⟨_, rfl⟩
    · split
      all_goals exact ⟨_, rfl⟩

theorem roundingStep_le (n d : I128) :
    |(if (n.val < 0) = (d.val < 0) then 1 else -1 : Int)| ≤ 1 := by
  split <;> simp

/-- Division by a positive number is answered, where the figures leave room for one more. -/
theorem divideRounded_isOkay {n d : I128} (mode : Rounding) (hd : 0 < d.val)
    (hsmall : d.val < 2 ^ 126) (hn : |n.val| ≤ 2 ^ 126) :
    ∃ q, divideRounded n d mode = .ok q := by
  -- no step of the division leaves 2 ^ 126 by more than one
  have hfits : ∀ {m : Int}, |m| ≤ 2 ^ 126 + 1 → -2 ^ (128 - 1) ≤ m ∧ m < 2 ^ (128 - 1) := by
    intro m hm
    rw [abs_le] at hm
    norm_num at hm ⊢
    omega
  have hdiv : |n.val.tdiv d.val| ≤ 2 ^ 126 := by
    refine le_trans ?_ hn
    rw [Int.abs_eq_natAbs, Int.abs_eq_natAbs]
    exact_mod_cast Int.natAbs_tdiv_le_natAbs n.val d.val
  have hrem : |n.val.tmod d.val| < d.val := by
    exact abs_lt.mpr ⟨Int.lt_tmod_of_pos n.val hd, Int.tmod_lt_of_pos n.val hd⟩
  obtain ⟨quotient, hquotient, hq⟩ :=
    SInt.ofInt?_of_fits (w := 128) (hfits (hdiv.trans (by norm_num)))
  obtain ⟨remainder, hremainder, hr⟩ :=
    SInt.ofInt?_of_fits (w := 128) (hfits (m := n.val.tmod d.val) (by omega))
  obtain ⟨size, hsize, hs⟩ := SInt.ofInt?_of_fits (w := 128) (hfits (m := |remainder.val|) (by
    rw [abs_abs, hr]
    omega))
  obtain ⟨twice, htwice, -⟩ := SInt.ofInt?_of_fits (w := 128) (n := size.val * 2) (by
    rw [hs, hr]
    have := abs_nonneg (n.val.tmod d.val)
    norm_num at hsmall ⊢
    omega)
  obtain ⟨magnitude, hmagnitude, -⟩ := SInt.ofInt?_of_fits (w := 128) (hfits (m := |d.val|) (by
    rw [abs_abs, abs_of_pos hd]
    omega))
  obtain ⟨away, haway⟩ := mode.roundsAway_isOkay quotient twice magnitude
  have hnext : ∀ step : Int, |step| ≤ 1 → |quotient.val + step| ≤ 2 ^ 126 + 1 := by
    intro step hstep
    have := abs_add_le quotient.val step
    rw [hq] at this ⊢
    omega
  unfold divideRounded
  rw [if_neg hd.ne']
  simp only [SInt.checkedDiv, SInt.checkedRem, SInt.checkedAbs, if_neg hd.ne', hquotient,
    hremainder, Option.bind_some, Except.okOr, bind, Except.bind]
  split
  · exact ⟨_, rfl⟩
  · simp only [hsize, Option.bind_some, htwice, hmagnitude, haway]
    split
    · obtain ⟨moved, hmoved, -⟩ := SInt.ofInt?_of_fits (w := 128)
        (hfits (hnext _ (roundingStep_le n d)))
      exact ⟨moved, by rw [hmoved]⟩
    · exact ⟨_, rfl⟩

/-- Half up is to the nearest integer, halves away from zero. -/
theorem divideRounded_halfUp {n d q : I128} (hd : 0 < d.val)
    (h : divideRounded n d .halfUp = .ok q) : q.val = Rounded.halfAway n.val d.val := by
  unfold divideRounded at h
  rw [if_neg hd.ne'] at h
  simp only [Except.bind_eq_ok, Except.okOr_eq_ok, SInt.checkedDiv, SInt.checkedRem,
    if_neg hd.ne', SInt.ofInt?_eq_some, Option.bind_eq_some_iff] at h
  obtain ⟨quotient, hquotient, remainder, ⟨_, -, hremainder⟩, h⟩ := h
  have htruncated : Rounded.Truncated n.val d.val quotient.val := ⟨hd, hquotient⟩
  -- the remainder is what the truncated quotient leaves of the numerator
  have hleft : n.val - quotient.val * d.val = remainder.val := by
    have := Int.tmod_add_tdiv_mul n.val d.val
    rw [hquotient, hremainder]
    omega
  rw [htruncated.halfAway, hleft]
  split at h
  · rename_i hzero
    cases h
    rw [hzero, abs_zero, if_neg (by omega)]
  · simp only [Except.bind_eq_ok, Except.okOr_eq_ok, SInt.checkedAbs, SInt.ofInt?_eq_some,
      Option.bind_eq_some_iff, Rounding.roundsAway, Except.ok.injEq, exists_eq_left'] at h
    obtain ⟨twice, ⟨r, hr, htwice⟩, magnitude, hmagnitude, h⟩ := h
    rw [abs_of_pos hd] at hmagnitude
    rw [htwice, hr, hmagnitude, mul_comm] at h
    have hsign : ¬ d.val < 0 := by omega
    split at h
    · rename_i haway
      simp only [hsign, Except.okOr_eq_ok, SInt.ofInt?_eq_some, eq_iff_iff, iff_false] at h
      rw [if_pos (of_decide_eq_true haway), h]
      by_cases hn : n.val < 0 <;> simp [hn]
    · rename_i haway
      cases h
      rw [if_neg (by simpa using haway)]

/-! ## Rate and quantity -/

/-- A proportional rate in basis points. -/
structure Rate where
  basisPoints : I32
  deriving DecidableEq

namespace Rate

def zero : Rate := ⟨0⟩
def isZero (r : Rate) : Bool := r.basisPoints.val = 0

/-- `i64::from`, which an `i32` always survives. -/
def basisPoints64 (r : Rate) : I64 :=
  ⟨r.basisPoints.val,
    by have := r.basisPoints.lo; norm_num at this ⊢; omega,
    by have := r.basisPoints.hi; norm_num at this ⊢; omega⟩

end Rate

/-- An exact quantity in thousandths of a unit. -/
structure Quantity where
  milli : I64
  deriving DecidableEq

namespace Quantity

def milliPerUnit : I64 := I64.lit 1000
def zero : Quantity := ⟨0⟩
def one : Quantity := ⟨milliPerUnit⟩
def isZero (q : Quantity) : Bool := q.milli.val = 0
def isNegative (q : Quantity) : Bool := q.milli.val < 0

def checkedAdd (a b : Quantity) : Except MoneyError Quantity :=
  .mk <$> Except.okOr (a.milli.checkedAdd b.milli) .overflow

def checkedNeg (a : Quantity) : Except MoneyError Quantity :=
  .mk <$> Except.okOr a.milli.checkedNeg .overflow

theorem checkedAdd_eq_ok {a b c : Quantity} :
    a.checkedAdd b = .ok c ↔ c.milli.val = a.milli.val + b.milli.val := by
  obtain ⟨milli⟩ := c
  simp [checkedAdd, Except.map_eq_ok]

/-- Nothing but an overflow refuses a sum. -/
theorem checkedAdd_eq_overflow {a b : Quantity} (h : ¬ I64.Fits (a.milli.val + b.milli.val)) :
    a.checkedAdd b = .error .overflow := by
  have hnone : a.milli.checkedAdd b.milli = none := by
    by_contra hsome
    obtain ⟨sum, hsum⟩ := Option.ne_none_iff_exists'.mp hsome
    exact h (I64.fits_iff.mpr ⟨sum, SInt.checkedAdd_eq_some.mp hsum⟩)
  rw [checkedAdd, hnone]
  rfl

theorem checkedNeg_eq_ok {a c : Quantity} :
    a.checkedNeg = .ok c ↔ c.milli.val = -a.milli.val := by
  obtain ⟨milli⟩ := c
  simp [checkedNeg, Except.map_eq_ok]

/-- There is a quantity of every figure that fits. -/
theorem fits_iff {n : Int} : I64.Fits n ↔ ∃ q : Quantity, q.milli.val = n := by
  rw [I64.fits_iff]
  constructor
  · rintro ⟨x, h⟩
    exact ⟨⟨x⟩, h⟩
  · rintro ⟨q, h⟩
    exact ⟨q.milli, h⟩

end Quantity

/-! ## Money -/

/-- A monetary amount, held as an exact count of minor units. -/
structure Money where
  minor : I64
  currency : Currency
  deriving DecidableEq

namespace Money

theorem eq_of_val {a b : Money} (hcurrency : a.currency = b.currency)
    (hval : a.minor.val = b.minor.val) : a = b := by
  cases a
  cases b
  rw [Money.mk.injEq]
  exact ⟨SInt.ext hval, hcurrency⟩

def zero (currency : Currency) : Money := ⟨0, currency⟩
def isZero (m : Money) : Bool := m.minor.val = 0
def isPositive (m : Money) : Bool := 0 < m.minor.val
def isNegative (m : Money) : Bool := m.minor.val < 0

def assertSameCurrency (a b : Money) : Except MoneyError Unit :=
  if a.currency = b.currency then .ok ()
  else .error (.currencyMismatch a.currency b.currency)

def checkedAdd (a b : Money) : Except MoneyError Money := do
  a.assertSameCurrency b
  let minor ← Except.okOr (a.minor.checkedAdd b.minor) .overflow
  .ok { minor, currency := a.currency }

def checkedSub (a b : Money) : Except MoneyError Money := do
  a.assertSameCurrency b
  let minor ← Except.okOr (a.minor.checkedSub b.minor) .overflow
  .ok { minor, currency := a.currency }

def checkedNeg (a : Money) : Except MoneyError Money := do
  let minor ← Except.okOr a.minor.checkedNeg .overflow
  .ok { minor, currency := a.currency }

/-- Sum amounts that must all share `currency`. -/
def trySum (amounts : List Money) (currency : Currency) : Except MoneyError Money :=
  amounts.foldlM checkedAdd (zero currency)

/-! ### Reading the checked operations back -/

theorem assertSameCurrency_eq_ok {a b : Money} {u : Unit} :
    a.assertSameCurrency b = .ok u ↔ a.currency = b.currency := by
  unfold assertSameCurrency
  split <;> simp_all

theorem checkedAdd_eq_ok {a b c : Money} :
    a.checkedAdd b = .ok c ↔
      a.currency = b.currency ∧ c.currency = a.currency ∧
        c.minor.val = a.minor.val + b.minor.val := by
  obtain ⟨cm, cc⟩ := c
  simp only [checkedAdd, Except.bind_eq_ok, assertSameCurrency_eq_ok, Except.okOr_eq_ok,
    SInt.checkedAdd_eq_some]
  constructor
  · rintro ⟨_, hcur, minor, hsum, heq⟩
    cases heq
    exact ⟨hcur, rfl, hsum⟩
  · rintro ⟨hcur, rfl, hsum⟩
    exact ⟨(), hcur, cm, hsum, rfl⟩

theorem checkedSub_eq_ok {a b c : Money} :
    a.checkedSub b = .ok c ↔
      a.currency = b.currency ∧ c.currency = a.currency ∧
        c.minor.val = a.minor.val - b.minor.val := by
  obtain ⟨cm, cc⟩ := c
  simp only [checkedSub, Except.bind_eq_ok, assertSameCurrency_eq_ok, Except.okOr_eq_ok,
    SInt.checkedSub_eq_some]
  constructor
  · rintro ⟨_, hcur, minor, hsub, heq⟩
    cases heq
    exact ⟨hcur, rfl, hsub⟩
  · rintro ⟨hcur, rfl, hsub⟩
    exact ⟨(), hcur, cm, hsub, rfl⟩

/-- `total` is the exact sum of `parts`, all in its currency. -/
structure IsSum (total : Money) (parts : List Money) : Prop where
  currency : ∀ part ∈ parts, part.currency = total.currency
  minor : total.minor.val = (parts.map (·.minor.val)).sum

theorem isSum_map {α : Type} {f : α → Money} {xs : List α} {total : Money} :
    total.IsSum (xs.map f) ↔ (∀ x ∈ xs, (f x).currency = total.currency) ∧
      total.minor.val = (xs.map fun x => (f x).minor.val).sum := by
  constructor
  · intro h
    have hminor := h.minor
    rw [List.map_map] at hminor
    exact ⟨fun x hx => h.currency _ (List.mem_map_of_mem hx), hminor⟩
  · rintro ⟨hcurrency, hminor⟩
    refine ⟨fun part hpart => ?_, ?_⟩
    · obtain ⟨x, hx, rfl⟩ := List.mem_map.mp hpart
      exact hcurrency x hx
    · rw [hminor, List.map_map]
      rfl

/-- Amounts, where there are any, have one sum. -/
theorem IsSum.unique {a b : Money} {parts : List Money} (hparts : parts ≠ [])
    (ha : a.IsSum parts) (hb : b.IsSum parts) : a = b := by
  obtain ⟨part, hpart⟩ := List.exists_mem_of_ne_nil parts hparts
  have hcurrency : a.currency = b.currency :=
    (ha.currency part hpart).symm.trans (hb.currency part hpart)
  exact eq_of_val hcurrency (ha.minor.trans hb.minor.symm)

theorem isSum_zero {currency : Currency} : (zero currency).IsSum [] := ⟨by simp, by simp [zero]⟩

/-- Adding to a sum sums one amount more. -/
theorem IsSum.concat {total total' amount : Money} {parts : List Money} (h : total.IsSum parts)
    (hadd : total.checkedAdd amount = .ok total') : total'.IsSum (parts ++ [amount]) := by
  obtain ⟨hsame, hcurrency, hminor⟩ := checkedAdd_eq_ok.mp hadd
  constructor
  · intro part hpart
    rcases List.mem_append.mp hpart with hpart | hpart
    · rw [hcurrency, h.currency part hpart]
    · rw [List.mem_singleton.mp hpart, hcurrency, hsame]
  · rw [hminor, h.minor]
    simp

/-- A sum that is answered is exact. -/
theorem trySum_isSum {amounts : List Money} {currency : Currency} {total : Money}
    (h : trySum amounts currency = .ok total) :
    total.currency = currency ∧ total.IsSum amounts := by
  refine foldlM_invariant
    (fun seen (acc : Money) => acc.currency = currency ∧ acc.IsSum seen) ?_ ⟨rfl, isSum_zero⟩ h
  intro seen acc amount acc' ⟨hcurrency, hsum⟩ hadd
  exact ⟨(checkedAdd_eq_ok.mp hadd).2.1.trans hcurrency, hsum.concat hadd⟩

theorem checkedAdd_isOkay {a b : Money} :
    (a.checkedAdd b).isOkay ↔ a.currency = b.currency ∧ I64.Fits (a.minor.val + b.minor.val) := by
  rw [Except.isOkay_iff, I64.fits_iff]
  simp only [checkedAdd_eq_ok]
  constructor
  · rintro ⟨c, hsame, -, hminor⟩
    exact ⟨hsame, c.minor, hminor⟩
  · rintro ⟨hsame, minor, hminor⟩
    exact ⟨⟨minor, a.currency⟩, hsame, rfl, hminor⟩

theorem checkedSub_isOkay {a b : Money} :
    (a.checkedSub b).isOkay ↔ a.currency = b.currency ∧ I64.Fits (a.minor.val - b.minor.val) := by
  rw [Except.isOkay_iff, I64.fits_iff]
  simp only [checkedSub_eq_ok]
  constructor
  · rintro ⟨c, hsame, -, hminor⟩
    exact ⟨hsame, c.minor, hminor⟩
  · rintro ⟨hsame, minor, hminor⟩
    exact ⟨⟨minor, a.currency⟩, hsame, rfl, hminor⟩

theorem checkedNeg_isOkay {a : Money} : a.checkedNeg.isOkay ↔ I64.Fits (-a.minor.val) := by
  rw [I64.fits_iff]
  simp only [checkedNeg, Except.bind_isOkay, Except.okOr_eq_ok, SInt.checkedNeg_eq_some]
  simp [Except.isOkay]

/-- Amounts that can be added to a start one after the other: all are in the currency, and every
    total on the way is held. -/
def AddsUp (currency : Currency) : Int → List Money → Prop
  | _, [] => True
  | total, amount :: rest => amount.currency = currency ∧ I64.Fits (total + amount.minor.val) ∧
      AddsUp currency (total + amount.minor.val) rest

theorem AddsUp.currency {currency : Currency} {total : Int} {amounts : List Money}
    (h : AddsUp currency total amounts) : ∀ amount ∈ amounts, amount.currency = currency := by
  induction amounts generalizing total with
  | nil => simp
  | cons amount rest ih => exact List.forall_mem_cons.mpr ⟨h.1, ih h.2.2⟩

/-- Amounts that could not leave an `i64` in any order add up in this one. -/
theorem addsUp_of_bound {currency : Currency} {total : Int} {amounts : List Money}
    (hcurrency : ∀ amount ∈ amounts, amount.currency = currency)
    (hbound : total.natAbs + (amounts.map (·.minor.val.natAbs)).sum < 9223372036854775808) :
    AddsUp currency total amounts := by
  induction amounts generalizing total with
  | nil => trivial
  | cons amount rest ih =>
    obtain ⟨hamount, hrest⟩ := List.forall_mem_cons.mp hcurrency
    rw [List.map_cons, List.sum_cons] at hbound
    refine ⟨hamount, ?_, ih hrest (by omega)⟩
    unfold I64.Fits
    omega

theorem foldlM_checkedAdd_minor {amounts : List Money} {start total : Money}
    (h : amounts.foldlM checkedAdd start = .ok total) :
    total.minor.val = start.minor.val + (amounts.map (·.minor.val)).sum := by
  induction amounts generalizing start with
  | nil =>
    cases h
    simp
  | cons amount rest ih =>
    obtain ⟨next, hnext, hrest⟩ := foldlM_cons_eq_ok.mp h
    rw [ih hrest, (checkedAdd_eq_ok.mp hnext).2.2, List.map_cons, List.sum_cons, add_assoc]

theorem foldlM_checkedAdd_isOkay_iff (amounts : List Money) (start : Money) :
    (amounts.foldlM checkedAdd start).isOkay ↔
      AddsUp start.currency start.minor.val amounts := by
  induction amounts generalizing start with
  | nil => exact ⟨fun _ => trivial, fun _ => rfl⟩
  | cons amount rest ih =>
    rw [foldlM_cons_isOkay, AddsUp]
    constructor
    · rintro ⟨next, hnext, hrest⟩
      obtain ⟨hsame, hcurrency, hminor⟩ := checkedAdd_eq_ok.mp hnext
      have hadds := (ih next).mp hrest
      rw [hcurrency, hminor] at hadds
      exact ⟨hsame.symm, (checkedAdd_isOkay.mp (Except.isOkay_iff.mpr ⟨_, hnext⟩)).2, hadds⟩
    · rintro ⟨hsame, hfits, hadds⟩
      obtain ⟨next, hnext⟩ := Except.isOkay_iff.mp (checkedAdd_isOkay.mpr ⟨hsame.symm, hfits⟩)
      obtain ⟨-, hcurrency, hminor⟩ := checkedAdd_eq_ok.mp hnext
      refine ⟨next, hnext, (ih next).mpr ?_⟩
      rw [hcurrency, hminor]
      exact hadds

theorem trySum_isOkay_iff (amounts : List Money) (currency : Currency) :
    (trySum amounts currency).isOkay ↔ AddsUp currency 0 amounts :=
  foldlM_checkedAdd_isOkay_iff amounts (zero currency)

theorem foldlM_checkedAdd_isOkay {amounts : List Money} {start : Money}
    (hcur : ∀ a ∈ amounts, a.currency = start.currency) (hstart : 0 ≤ start.minor.val)
    (hpos : ∀ a ∈ amounts, 0 ≤ a.minor.val)
    (hfits : start.minor.val + (amounts.map (·.minor.val)).sum < 9223372036854775808) :
    ∃ total, amounts.foldlM checkedAdd start = .ok total := by
  induction amounts generalizing start with
  | nil => exact ⟨start, rfl⟩
  | cons a rest ih =>
    rw [List.map_cons, List.sum_cons] at hfits
    have ha := hpos a List.mem_cons_self
    have hrest : 0 ≤ (rest.map (·.minor.val)).sum :=
      List.sum_nonneg fun y hy => by
        obtain ⟨x, hx, rfl⟩ := List.mem_map.mp hy
        exact hpos x (List.mem_cons_of_mem _ hx)
    let next : Money := ⟨I64.lit (start.minor.val + a.minor.val) (decide_eq_true (by omega)), start.currency⟩
    have hnext : start.checkedAdd a = .ok next :=
      checkedAdd_eq_ok.mpr ⟨(hcur a List.mem_cons_self).symm, rfl, rfl⟩
    have hnextPos : 0 ≤ next.minor.val := by simp [next]; omega
    have hnextCur : ∀ b ∈ rest, b.currency = next.currency :=
      fun b hb => hcur b (List.mem_cons_of_mem _ hb)
    obtain ⟨total, htotal⟩ := ih hnextCur hnextPos
      (fun b hb => hpos b (List.mem_cons_of_mem _ hb)) (by simp [next]; omega)
    exact ⟨total, foldlM_cons_eq_ok.mpr ⟨next, hnext, htotal⟩⟩

/-- Amounts that are not negative and come to an `i64` have a sum. -/
theorem trySum_isOkay {amounts : List Money} {currency : Currency}
    (hcur : ∀ a ∈ amounts, a.currency = currency) (hpos : ∀ a ∈ amounts, 0 ≤ a.minor.val)
    (hfits : (amounts.map (·.minor.val)).sum < 9223372036854775808) :
    ∃ total, trySum amounts currency = .ok total :=
  foldlM_checkedAdd_isOkay hcur (by simp [zero]) hpos (by simpa [zero] using hfits)

/-- Scale by `numerator / denominator`; the intermediate product is an `i128`. -/
def mulRatio (m : Money) (numerator denominator : I64) (rounding : Rounding) :
    Except MoneyError Money := do
  let product ← Except.okOr (SInt.ofInt? (m.minor.val * numerator.val)) .overflow
  let scaled ← divideRounded product
    ⟨denominator.val, by have := denominator.lo'; norm_num; omega,
      by have := denominator.hi'; norm_num; omega⟩ rounding
  let minor ← Except.okOr (SInt.ofInt? scaled.val) .overflow
  .ok { minor, currency := m.currency }

/-- Scaling rounds the exact product. -/
theorem mulRatio_rounds {m t : Money} {numerator denominator : I64} {rounding : Rounding}
    (hd : 0 < denominator.val) (h : m.mulRatio numerator denominator rounding = .ok t) :
    rounding.Rounds (m.minor.val * numerator.val) denominator.val t.minor.val := by
  simp only [mulRatio, Except.bind_eq_ok, Except.okOr_eq_ok, SInt.ofInt?_eq_some] at h
  obtain ⟨product, hproduct, scaled, hscaled, minor, hminor, h⟩ := h
  cases h
  rw [← hproduct, hminor]
  exact divideRounded_rounds hd hscaled

theorem mulRatio_currency {m t : Money} {numerator denominator : I64} {rounding : Rounding}
    (h : m.mulRatio numerator denominator rounding = .ok t) : t.currency = m.currency := by
  simp only [mulRatio, Except.bind_eq_ok] at h
  obtain ⟨_, _, _, _, _, _, h⟩ := h
  cases h
  rfl

/-- The product of two `i64` figures leaves an `i128` room. -/
theorem abs_mul_le (a b : I64) : |a.val * b.val| ≤ 2 ^ 126 := by
  have ha : |a.val| ≤ 2 ^ 63 := abs_le.mpr ⟨by have := a.lo'; omega, by have := a.hi'; omega⟩
  have hb : |b.val| ≤ 2 ^ 63 := abs_le.mpr ⟨by have := b.lo'; omega, by have := b.hi'; omega⟩
  rw [abs_mul]
  exact (mul_le_mul ha hb (abs_nonneg _) (by norm_num)).trans (by norm_num)

/-- Scaling half up is exact to the nearest minor unit, and answered where that fits. -/
theorem mulRatio_halfUp_eq_ok {m t : Money} {numerator denominator : I64}
    (hd : 0 < denominator.val) : m.mulRatio numerator denominator .halfUp = .ok t ↔
      t.currency = m.currency ∧
        t.minor.val = Rounded.halfAway (m.minor.val * numerator.val) denominator.val := by
  have hsize := abs_mul_le m.minor numerator
  obtain ⟨product, hproduct, hvalue⟩ := SInt.ofInt?_of_fits (w := 128)
    (n := m.minor.val * numerator.val) (by
      rw [abs_le] at hsize
      norm_num at hsize ⊢
      omega)
  -- 128 bits hold the product of two 64-bit numbers, and a quotient of it
  have hwide : denominator.val < 2 ^ 126 := by
    have := denominator.hi'
    norm_num
    omega
  obtain ⟨scaled, hscaled⟩ := divideRounded_isOkay (n := product)
    (d := ⟨denominator.val, by have := denominator.lo'; norm_num; omega,
      by have := denominator.hi'; norm_num; omega⟩) .halfUp hd hwide (by rwa [hvalue])
  have hrounded := divideRounded_halfUp (by exact hd) hscaled
  rw [hvalue] at hrounded
  unfold mulRatio
  rw [hproduct]
  simp only [Except.okOr, bind, Except.bind, hscaled]
  rw [← hrounded]
  obtain ⟨minor, currency⟩ := t
  constructor
  · intro h
    split at h
    · cases h
    · rename_i found hfound
      cases h
      exact ⟨rfl, SInt.ofInt?_eq_some.mp (Except.okOr_eq_ok.mp hfound)⟩
  · intro h
    obtain ⟨rfl, hminor⟩ := h
    rw [SInt.ofInt?_eq_some.mpr hminor]

/-- Apply a proportional rate. -/
def applyRate (m : Money) (rate : Rate) (rounding : Rounding) : Except MoneyError Money :=
  m.mulRatio rate.basisPoints64 (I64.lit 10000) rounding

/-! ### Allocation -/

/-- The positions in the order the leftover units go out: largest remainder first,
    ties by position. -/
def leftoverOrder (remainders : List Nat) : List Nat :=
  (List.range remainders.length).insertionSort fun left right =>
    remainders.getD right 0 < remainders.getD left 0 ∨
      (remainders.getD right 0 = remainders.getD left 0 ∧ left ≤ right)

/-- One more unit for the share at `index`. -/
def bumpShare (shares : List Nat) (index : Nat) : Except MoneyError (List Nat) :=
  match shares[index]? with
  | none => .ok shares
  | some share => do
    let share ← Except.okOr (u128? (share + 1)) .overflow
    .ok (shares.set index share)

/-- A share back under the sign of the amount. -/
def signedShare (negative : Bool) (currency : Currency) (share : Nat) :
    Except MoneyError Money := do
  let value : I64 ← Except.okOr (SInt.ofInt? (share : Int)) .overflow
  let minor ← if negative then Except.okOr value.checkedNeg .overflow else .ok value
  .ok { minor, currency }

/-- Divide this amount across `weights` by largest remainder. -/
def allocate (m : Money) (weights : List U64) : Except MoneyError (List Money) :=
  if weights.isEmpty then .error .invalidWeights
  else do
    let totalWeight ← Except.okOr
      (weights.foldlM (fun acc (weight : U64) => u128? (acc + weight.val)) 0) .overflow
    if totalWeight = 0 then .error .invalidWeights
    else do
      let negative : Bool := m.minor.val < 0
      let magnitude := m.minor.unsignedAbs.val
      let products ← weights.mapM fun (weight : U64) =>
        Except.okOr (u128? (magnitude * weight.val)) .overflow
      let shares := products.map (· / totalWeight)
      let remainders := products.map (· % totalWeight)
      let distributed ← Except.okOr
        (shares.foldlM (fun acc share => u128? (acc + share)) 0) .overflow
      let leftover ← Except.okOr
        (if distributed ≤ magnitude then some (magnitude - distributed) else none) .overflow
      let shares ← ((leftoverOrder remainders).take leftover).foldlM bumpShare shares
      shares.mapM (signedShare negative m.currency)

/-- Split evenly into `parts`. -/
def split (m : Money) (parts : Nat) : Except MoneyError (List Money) :=
  if parts = 0 then .error .invalidWeights
  else m.allocate (List.replicate parts 1)

end Money

end Sahl
