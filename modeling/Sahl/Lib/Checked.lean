import Mathlib.Tactic

/-! # Fixed-width integers with checked arithmetic

    A signed integer of width `w` is an `Int` together with the bounds that make it
    representable, so a value out of range cannot be built. The checked operations
    compute in `Int` and answer `none` when the exact result does not fit.

    The second half collects the rules for reading a successful `Except` computation
    back into its steps. -/

/-! ## Signed integers -/

/-- A two's complement integer of `w` bits. -/
@[ext] structure SInt (w : Nat) where
  val : Int
  lo : -2 ^ (w - 1) ≤ val
  hi : val < 2 ^ (w - 1)

namespace SInt

variable {w : Nat}

/-- The value as a `w`-bit integer, when it fits (`try_from`). -/
def ofInt? (n : Int) : Option (SInt w) :=
  if h : -2 ^ (w - 1) ≤ n ∧ n < 2 ^ (w - 1) then some ⟨n, h.1, h.2⟩ else none

theorem ofInt?_eq_some {n : Int} {x : SInt w} : ofInt? n = some x ↔ x.val = n := by
  unfold ofInt?
  constructor
  · intro h
    split at h
    · cases h; rfl
    · cases h
  · intro h
    subst h
    simp [x.lo, x.hi]

theorem ofInt?_val (x : SInt w) : ofInt? x.val = some x := ofInt?_eq_some.mpr rfl

theorem ofInt?_of_fits {n : Int} (h : -2 ^ (w - 1) ≤ n ∧ n < 2 ^ (w - 1)) :
    ∃ x : SInt w, ofInt? n = some x ∧ x.val = n := ⟨⟨n, h.1, h.2⟩, ofInt?_eq_some.mpr rfl, rfl⟩

instance : Zero (SInt w) := ⟨⟨0, by simp, by positivity⟩⟩

@[simp] theorem val_zero : (0 : SInt w).val = 0 := rfl

def checkedAdd (a b : SInt w) : Option (SInt w) := ofInt? (a.val + b.val)
def checkedSub (a b : SInt w) : Option (SInt w) := ofInt? (a.val - b.val)
def checkedNeg (a : SInt w) : Option (SInt w) := ofInt? (-a.val)
def checkedAbs (a : SInt w) : Option (SInt w) := ofInt? |a.val|

/-- Truncating division; `none` on a zero divisor and on the one quotient that overflows. -/
def checkedDiv (a b : SInt w) : Option (SInt w) :=
  if b.val = 0 then none else ofInt? (a.val.tdiv b.val)

/-- The remainder of `checkedDiv`, refused exactly where that is. -/
def checkedRem (a b : SInt w) : Option (SInt w) :=
  (a.checkedDiv b).bind fun _ => ofInt? (a.val.tmod b.val)

/-- `saturating_add`: the sum, held at the ends of the range. -/
def saturatingAdd (a b : SInt w) : SInt w :=
  if h : -2 ^ (w - 1) ≤ a.val + b.val ∧ a.val + b.val < 2 ^ (w - 1) then
    ⟨a.val + b.val, h.1, h.2⟩
  else if a.val < 0 then
    ⟨-2 ^ (w - 1), le_refl _, by have := a.lo; have := a.hi; omega⟩
  else
    ⟨2 ^ (w - 1) - 1, by have := a.lo; have := a.hi; omega, by omega⟩

/-- `saturating_sub`: the difference, held at the ends of the range. -/
def saturatingSub (a b : SInt w) : SInt w :=
  if h : -2 ^ (w - 1) ≤ a.val - b.val ∧ a.val - b.val < 2 ^ (w - 1) then
    ⟨a.val - b.val, h.1, h.2⟩
  else if a.val < b.val then
    ⟨-2 ^ (w - 1), le_refl _, by have := a.lo; have := a.hi; omega⟩
  else
    ⟨2 ^ (w - 1) - 1, by have := a.lo; have := a.hi; omega, by omega⟩

/-- `saturating_mul`: the product, held at the ends of the range. -/
def saturatingMul (a b : SInt w) : SInt w :=
  if h : -2 ^ (w - 1) ≤ a.val * b.val ∧ a.val * b.val < 2 ^ (w - 1) then
    ⟨a.val * b.val, h.1, h.2⟩
  else if a.val * b.val < 0 then
    ⟨-2 ^ (w - 1), le_refl _, by have := a.lo; have := a.hi; omega⟩
  else
    ⟨2 ^ (w - 1) - 1, by have := a.lo; have := a.hi; omega, by omega⟩

/-- `saturating_abs`: the magnitude, held at the top of the range. -/
def saturatingAbs (a : SInt w) : SInt w :=
  if h : |a.val| < 2 ^ (w - 1) then
    ⟨|a.val|, by have := a.lo; have := abs_nonneg a.val; have := a.hi; omega, h⟩
  else
    ⟨2 ^ (w - 1) - 1, by have := a.lo; have := a.hi; omega, by omega⟩

@[simp] theorem checkedAdd_eq_some {a b c : SInt w} :
    a.checkedAdd b = some c ↔ c.val = a.val + b.val := ofInt?_eq_some

@[simp] theorem checkedSub_eq_some {a b c : SInt w} :
    a.checkedSub b = some c ↔ c.val = a.val - b.val := ofInt?_eq_some

@[simp] theorem checkedNeg_eq_some {a c : SInt w} :
    a.checkedNeg = some c ↔ c.val = -a.val := ofInt?_eq_some

/-! ### Order -/

instance : LinearOrder (SInt w) :=
  LinearOrder.lift' SInt.val (fun _ _ h => SInt.ext h)

theorem le_def {a b : SInt w} : a ≤ b ↔ a.val ≤ b.val := Iff.rfl
theorem lt_def {a b : SInt w} : a < b ↔ a.val < b.val := Iff.rfl

theorem min_val (a b : SInt w) : (min a b).val = min a.val b.val :=
  Monotone.map_min fun _ _ h => h

theorem max_val (a b : SInt w) : (max a b).val = max a.val b.val :=
  Monotone.map_max fun _ _ h => h

/-- A sum onto a value that has to fit by itself. -/
theorem ofInt?_bind_checkedAdd {w : Nat} {n : Int} {a b : SInt w} :
    (ofInt? n).bind (·.checkedAdd a) = some b ↔
      (-2 ^ (w - 1) ≤ n ∧ n < 2 ^ (w - 1)) ∧ b.val = n + a.val := by
  constructor
  · intro h
    obtain ⟨x, hx, hadd⟩ := Option.bind_eq_some_iff.mp h
    have hx : x.val = n := ofInt?_eq_some.mp hx
    have hadd : b.val = x.val + a.val := ofInt?_eq_some.mp hadd
    exact ⟨hx ▸ ⟨x.lo, x.hi⟩, hx ▸ hadd⟩
  · intro h
    obtain ⟨hfits, hb⟩ := h
    obtain ⟨x, hof, hx⟩ := ofInt?_of_fits hfits
    rw [hof, Option.bind_some, checkedAdd, hx, ← hb, ofInt?_val]

end SInt

/-! ## The widths in use -/

/-- An `i64`. -/
abbrev I64 := SInt 64

/-- An `i128`. -/
abbrev I128 := SInt 128

/-- An `i32`. -/
abbrev I32 := SInt 32

/-- A `u64`. -/
abbrev U64 := Fin (2 ^ 64)

/-- A `u32`. -/
abbrev U32 := Fin (2 ^ 32)

theorem I64.lo' (x : I64) : -9223372036854775808 ≤ x.val := by have := x.lo; simpa using this
theorem I64.hi' (x : I64) : x.val < 9223372036854775808 := by have := x.hi; simpa using this

/-- A saturated difference is the exact one, held within the range. -/
theorem I64.saturatingSub_val (a b : I64) : (a.saturatingSub b).val =
    max (-9223372036854775808) (min 9223372036854775807 (a.val - b.val)) := by
  unfold SInt.saturatingSub
  split
  · rename_i h
    norm_num at h
    simp only
    omega
  · rename_i h
    norm_num at h
    split
    · norm_num
      omega
    · norm_num
      omega

theorem I64.saturatingMul_val (a b : I64) : (a.saturatingMul b).val =
    max (-9223372036854775808) (min 9223372036854775807 (a.val * b.val)) := by
  unfold SInt.saturatingMul
  split
  · rename_i h
    norm_num at h
    simp only
    omega
  · rename_i h
    norm_num at h
    split
    · norm_num
      omega
    · norm_num
      omega

theorem I64.saturatingAbs_val (a : I64) :
    a.saturatingAbs.val = min 9223372036854775807 |a.val| := by
  unfold SInt.saturatingAbs
  split
  · rename_i h
    norm_num at h
    simp only
    omega
  · rename_i h
    norm_num at h
    norm_num
    omega

/-- A figure an `i64` holds. -/
def I64.Fits (n : Int) : Prop := -9223372036854775808 ≤ n ∧ n < 9223372036854775808

instance (n : Int) : Decidable (I64.Fits n) := inferInstanceAs (Decidable (_ ∧ _))

theorem I64.fits_iff {n : Int} : I64.Fits n ↔ ∃ x : I64, x.val = n := by
  constructor
  · intro h
    exact ⟨⟨n, by simpa using h.1, by simpa using h.2⟩, rfl⟩
  · rintro ⟨x, rfl⟩
    exact ⟨x.lo', x.hi'⟩

/-- `unsigned_abs` of an `i64`: the magnitude, which always fits the unsigned type. -/
def I64.unsignedAbs (x : I64) : U64 :=
  ⟨x.val.natAbs, by have := x.lo'; have := x.hi'; omega⟩

/-- A checked result in `u128`. -/
def u128? (n : Nat) : Option Nat := if n < 2 ^ 128 then some n else none

/-- An `i64` from a literal in range. -/
def I64.lit (n : Int)
    (h : decide (-9223372036854775808 ≤ n ∧ n < 9223372036854775808) = true := by
      exact (rfl : true = true)) : I64 :=
  ⟨n, by simpa using (of_decide_eq_true h).1, by simpa using (of_decide_eq_true h).2⟩

@[simp] theorem I64.lit_val (n : Int) (h) : (I64.lit n h).val = n := rfl

theorem I64.lit_small (n : Fin 1000) :
    decide (-9223372036854775808 ≤ (n.val : Int) ∧ (n.val : Int) < 9223372036854775808) = true :=
  decide_eq_true (by omega)

/-- An `i32` from a literal in range. -/
def I32.lit (n : Int)
    (h : decide (-2147483648 ≤ n ∧ n < 2147483648) = true := by
      exact (rfl : true = true)) : I32 :=
  ⟨n, by simpa using (of_decide_eq_true h).1, by simpa using (of_decide_eq_true h).2⟩

/-! ### Widths above zero -/

instance neZero_two_pow_32 : NeZero (2 ^ 32 : Nat) := ⟨by decide⟩

instance neZero_two_pow_64 : NeZero (2 ^ 64 : Nat) := ⟨by decide⟩

instance neZero_two_pow_256 : NeZero (2 ^ 256 : Nat) := ⟨by decide⟩

instance neZero_thousand : NeZero (1000 : Nat) := ⟨by decide⟩

/-! ## Reading `Except` computations back -/

namespace Except

variable {ε ε' α β : Type}

theorem bind_eq_ok {x : Except ε α} {f : α → Except ε β} {b : β} :
    x >>= f = .ok b ↔ ∃ a, x = .ok a ∧ f a = .ok b := by
  cases x with
  | error e => simp [bind, Except.bind]
  | ok a => simp [bind, Except.bind]

theorem mapError_eq_ok {x : Except ε α} {f : ε → ε'} {a : α} :
    x.mapError f = .ok a ↔ x = .ok a := by
  cases x <;> simp [Except.mapError]

theorem map_eq_ok {x : Except ε α} {f : α → β} {b : β} :
    f <$> x = .ok b ↔ ∃ a, x = .ok a ∧ f a = b := by
  cases x with
  | error e => simp [Functor.map, Except.map]
  | ok a => simp [Functor.map, Except.map]

theorem pure_eq_ok {a b : α} : (pure a : Except ε α) = .ok b ↔ a = b := by
  simp [pure, Except.pure]

/-- `Option::ok_or`. -/
def okOr (x : Option α) (e : ε) : Except ε α :=
  match x with
  | some a => .ok a
  | none => .error e

@[simp] theorem okOr_eq_ok {x : Option α} {e : ε} {a : α} :
    okOr x e = .ok a ↔ x = some a := by
  cases x <;> simp [okOr]

/-- A computation has an answer. -/
def isOkay : Except ε α → Bool
  | .ok _ => true
  | .error _ => false

theorem isOkay_iff {x : Except ε α} : x.isOkay = true ↔ ∃ a, x = .ok a := by
  cases x <;> simp [isOkay]

/-- A refusal on a condition, and the way on where it does not hold. -/
theorem ite_error_eq_ok {c : Prop} [Decidable c] {e : ε} {x : Except ε α} {a : α} :
    (if c then .error e else x) = .ok a ↔ ¬ c ∧ x = .ok a := by
  by_cases h : c <;> simp [h]

theorem toOption_eq_some {x : Except ε α} {a : α} : x.toOption = some a ↔ x = .ok a := by
  cases x <;> simp [Except.toOption]

theorem bind_isOkay {x : Except ε α} {f : α → Except ε β} :
    (x >>= f).isOkay ↔ ∃ a, x = .ok a ∧ (f a).isOkay := by
  cases x with
  | error e => simp [bind, Except.bind, isOkay]
  | ok a => simp [bind, Except.bind]

/-- What is made of two results that look alike looks alike. -/
theorem map_bind_congr {γ δ : Type} {look : α → β} {show' : γ → δ}
    {x y : Except ε α} {f g : α → Except ε γ} (hxy : x.map look = y.map look)
    (hfg : ∀ a b, look a = look b → (f a).map show' = (g b).map show') :
    (x >>= f).map show' = (y >>= g).map show' := by
  cases x with
  | error error =>
    cases y with
    | error error' =>
      cases hxy
      rfl
    | ok b => cases hxy
  | ok a =>
    cases y with
    | error error => cases hxy
    | ok b => exact hfg a b (ok.inj hxy)

end Except

/-! ## Methods on a mutable value -/

/-- What a fallible method on `&mut self` leaves: its answer, and the value as it then stands.
    A refusal may leave the value changed. -/
structure Outcome (ε σ : Type) where
  state : σ
  answer : Except ε Unit

namespace Outcome

variable {ε σ τ : Type}

def done (s : σ) : Outcome ε σ := ⟨s, .ok ()⟩

def refused (s : σ) (e : ε) : Outcome ε σ := ⟨s, .error e⟩

/-- A method that changes nothing when it refuses. -/
def ofExcept (s : σ) : Except ε σ → Outcome ε σ
  | .ok s' => done s'
  | .error e => refused s e

/-- The value, where the method succeeded. -/
def toExcept (o : Outcome ε σ) : Except ε σ :=
  match o.answer with
  | .ok _ => .ok o.state
  | .error e => .error e

@[simp] theorem done_state (s : σ) : (done s : Outcome ε σ).state = s := rfl
@[simp] theorem refused_state (s : σ) (e : ε) : (refused s e).state = s := rfl

@[simp] theorem toExcept_done (s : σ) : (done s : Outcome ε σ).toExcept = .ok s := rfl
@[simp] theorem toExcept_refused (s : σ) (e : ε) : (refused s e).toExcept = .error e := rfl

@[simp] theorem toExcept_ofExcept (s : σ) (x : Except ε σ) : (ofExcept s x).toExcept = x := by
  cases x <;> rfl

theorem toExcept_eq_ok {o : Outcome ε σ} {s : σ} :
    o.toExcept = .ok s ↔ o.answer = .ok () ∧ o.state = s := by
  obtain ⟨state, answer⟩ := o
  cases answer <;> simp [toExcept]

end Outcome

/-! ### The body of such a method -/

/-- The body of a method on `&mut self`, change by change: it stops at the first refusal, and what
    it changed until then stays changed. -/
abbrev Method (ε σ : Type) : Type → Type := ExceptT ε (StateM σ)

namespace Method

variable {ε σ α : Type}

/-- An early return with an error. -/
def refuseIf (c : Prop) [Decidable c] (e : ε) : Method ε σ Unit := if c then throw e else pure ()

/-- A call that only answers. -/
def check (x : Except ε α) : Method ε σ α := liftExcept x

/-- What a body leaves of a value, and answers. -/
def on (body : Method ε σ Unit) (s : σ) : Outcome ε σ := ⟨(body.run.run s).2, (body.run.run s).1⟩

@[simp] theorem on_pure (s : σ) : on (pure () : Method ε σ Unit) s = .done s := rfl

@[simp] theorem on_get_bind (f : σ → Method ε σ Unit) (s : σ) :
    on (get >>= f) s = on (f s) s := rfl

@[simp] theorem on_modify (g : σ → σ) (s : σ) :
    on (modify g : Method ε σ Unit) s = .done (g s) := rfl

@[simp] theorem on_modify_bind (g : σ → σ) (f : Unit → Method ε σ Unit) (s : σ) :
    on (modify g >>= f) s = on (f ()) (g s) := rfl

/-- An early return and its opposite branch. -/
theorem on_refuseIf_bind {c : Prop} [Decidable c] {e : ε} {f : Unit → Method ε σ Unit} {s : σ}
    {x : Except ε σ} (h : on (f ()) s = .ofExcept s x) :
    on (refuseIf c e >>= f) s = .ofExcept s (if c then .error e else x) := by
  unfold refuseIf
  split
  · rfl
  · exact h

/-- A check changes nothing: the body goes on with its answer, or stops. -/
theorem on_check_bind {x : Except ε α} {f : α → Method ε σ Unit} {g : α → Except ε σ} {s : σ}
    (h : ∀ a, on (f a) s = .ofExcept s (g a)) :
    on (check x >>= f) s = .ofExcept s (x >>= g) := by
  cases x with
  | error e => rfl
  | ok a => exact h a

end Method
