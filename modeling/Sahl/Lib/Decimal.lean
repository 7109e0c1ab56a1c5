import Mathlib.Tactic
import Sahl.Lib.Delimited

/-! # Decimal text

    An integer of minor units is written with a fixed number of decimal places, and read back. -/

namespace Decimal

/-! ## Digits -/

/-- The digits of a number, at least one. -/
def digits (n : Nat) : List Char := Nat.toDigits 10 n

/-- Zeros on the left up to a width (`{:0width$}`). -/
def padLeft (width : Nat) (s : List Char) : List Char := List.replicate (width - s.length) '0' ++ s

theorem digits_ne_nil (n : Nat) : digits n ≠ [] := Nat.toDigits_ne_nil

theorem isDigit_of_mem_digits {n : Nat} {c : Char} (h : c ∈ digits n) : c.isDigit = true :=
  Nat.isDigit_of_mem_toDigits (by decide) (by decide) h

theorem isDigit_of_mem_padLeft {width n : Nat} {c : Char} (h : c ∈ padLeft width (digits n)) :
    c.isDigit = true := by
  rcases List.mem_append.mp h with hzero | hdigit
  · rw [List.eq_of_mem_replicate hzero]
    decide
  · exact isDigit_of_mem_digits hdigit

theorem length_padLeft {width n : Nat} (hwidth : 0 < width) (hn : n < 10 ^ width) :
    (padLeft width (digits n)).length = width := by
  have hlength : (digits n).length ≤ width :=
    (Nat.length_toDigits_le_iff (by decide) hwidth).mpr hn
  rw [padLeft, List.length_append, List.length_replicate]
  omega

/-- Digits are read for their value. -/
theorem digits?_eq_some {s : List Char} (hne : s ≠ []) (hs : ∀ c ∈ s, c.isDigit = true) :
    Text.digits? s = some (Nat.ofDigitChars 10 s 0) := by
  have hfold : ∀ (s : List Char) (value : Nat), (∀ c ∈ s, c.isDigit = true) →
      s.foldlM (fun value c => if c.isDigit then some (10 * value + (c.toNat - 48)) else none)
        value = some (Nat.ofDigitChars 10 s value) := by
    intro s
    induction s with
    | nil =>
      intro value _
      rfl
    | cons c rest ih =>
      intro value hs
      obtain ⟨hc, hrest⟩ := List.forall_mem_cons.mp hs
      rw [List.foldlM_cons, if_pos hc]
      exact ih _ hrest
  rw [Text.digits?, if_neg (by simpa using hne)]
  exact hfold s 0 hs

theorem digits?_digits (n : Nat) : Text.digits? (digits n) = some n := by
  rw [digits?_eq_some (digits_ne_nil n) fun _ => isDigit_of_mem_digits, digits,
    Nat.ofDigitChars_ten_toDigits]

/-- Zeros on the left are read for nothing. -/
theorem digits?_padLeft (width n : Nat) : Text.digits? (padLeft width (digits n)) = some n := by
  have hne : padLeft width (digits n) ≠ [] := by simp [padLeft, digits_ne_nil]
  rw [digits?_eq_some hne fun _ => isDigit_of_mem_padLeft, padLeft, Nat.ofDigitChars_append,
    Nat.ofDigitChars_replicate_zero, Nat.mul_zero, digits, Nat.ofDigitChars_ten_toDigits]

/-! ## A number of places -/

/-- The sign, the whole units, and the fraction at its full width. -/
def render (places : Nat) (n : Int) : List Char :=
  (if n < 0 then ['-'] else []) ++ digits (n.natAbs / 10 ^ places) ++
    if places = 0 then [] else '.' :: padLeft places (digits (n.natAbs % 10 ^ places))

theorem render_zero (n : Int) :
    render 0 n = (if n < 0 then ['-'] else []) ++ digits n.natAbs := by
  rw [render, if_pos rfl, List.append_nil, Nat.pow_zero, Nat.div_one]

/-- Read whole units and a fraction of exactly so many places. -/
def magnitude? (places : Nat) (s : List Char) : Option Nat :=
  if places = 0 then Text.digits? s
  else
    let (whole, fraction) := Text.splitOnce '.' s
    if fraction.length = places then do
      let units ← Text.digits? whole
      let parts ← Text.digits? fraction
      some (units * 10 ^ places + parts)
    else none

/-- Read a decimal for its count of minor units. -/
def read (places : Nat) : List Char → Option Int
  | '-' :: rest => (magnitude? places rest).map fun n : Nat => -(n : Int)
  | s => (magnitude? places s).map fun n : Nat => (n : Int)

theorem splitOnce_digits {s rest : List Char} (hs : ∀ c ∈ s, c.isDigit = true) :
    Text.splitOnce '.' (s ++ '.' :: rest) = (s, rest) :=
  Text.splitOnce_append fun hpoint => absurd (hs _ hpoint) (by decide)

/-- What is written of a magnitude is read back. -/
theorem magnitude?_render (places n : Nat) :
    magnitude? places (digits (n / 10 ^ places) ++
      if places = 0 then [] else '.' :: padLeft places (digits (n % 10 ^ places))) = some n := by
  unfold magnitude?
  by_cases hplaces : places = 0
  · simp [hplaces, digits?_digits]
  · have hlength := length_padLeft (Nat.pos_of_ne_zero hplaces)
      (Nat.mod_lt n (Nat.pow_pos (n := places) (by decide : 0 < 10)))
    rw [if_neg hplaces, if_neg hplaces, splitOnce_digits fun _ => isDigit_of_mem_digits]
    simp only [hlength, if_true, digits?_digits, digits?_padLeft, Option.bind_eq_bind,
      Option.bind_some, Nat.div_add_mod']

/-- A number is read back from its decimal. -/
theorem read_render (places : Nat) (n : Int) : read places (render places n) = some n := by
  unfold render
  by_cases hn : n < 0
  · rw [if_pos hn, List.append_assoc, List.singleton_append]
    show (magnitude? places _).map (fun n : Nat => -(n : Int)) = some n
    rw [magnitude?_render, Option.map_some]
    congr 1
    omega
  · rw [if_neg hn, List.nil_append]
    obtain ⟨c, rest, hdigits⟩ := List.exists_cons_of_ne_nil
      (digits_ne_nil (n.natAbs / 10 ^ places))
    have hc : c ≠ '-' := by
      rintro rfl
      exact absurd (@isDigit_of_mem_digits (n.natAbs / 10 ^ places) '-' (by simp [hdigits]))
        (by decide)
    -- no sign is read where the first character is a digit
    have hread : ∀ tail : List Char, read places (c :: tail) =
        (magnitude? places (c :: tail)).map fun n : Nat => (n : Int) := by
      intro tail
      unfold read
      split
      · rename_i heq
        exact absurd (List.cons.inj heq).1 hc
      · rfl
    have hmagnitude := magnitude?_render places n.natAbs
    rw [hdigits, List.cons_append] at hmagnitude ⊢
    rw [hread, hmagnitude, Option.map_some]
    congr 1
    omega

theorem render_injective (places : Nat) : Function.Injective (render places) := by
  intro m n h
  have hread := read_render places m
  rw [h, read_render] at hread
  exact (Option.some.inj hread).symm

/-- An integer is written with a sign and digits alone. -/
theorem newline_notMem_render (n : Int) : '\n' ∉ render 0 n := by
  intro hmem
  rw [render, if_pos rfl, List.append_nil] at hmem
  rcases List.mem_append.mp hmem with hsign | hdigit
  · split at hsign
    · exact absurd (List.mem_singleton.mp hsign) (by decide)
    · cases hsign
  · exact absurd (isDigit_of_mem_digits hdigit) (by decide)

/-! ## What a text denotes -/

/-- The value of some digits. -/
def valueOf (s : List Char) : Nat := Nat.ofDigitChars 10 s 0

/-- Digits with at most one point among them and no more decimals than there are places, for
    their count of units of the last place. -/
def Denotes (places : Nat) (s : List Char) (amount : Nat) : Prop :=
  ∃ whole fraction, (s = whole ++ '.' :: fraction ∨ s = whole ∧ fraction = []) ∧
    whole ++ fraction ≠ [] ∧ (∀ c ∈ whole ++ fraction, c.isDigit = true) ∧
    fraction.length ≤ places ∧
    amount = valueOf (whole ++ fraction) * 10 ^ (places - fraction.length)

theorem valueOf_append (s t : List Char) :
    valueOf (s ++ t) = valueOf s * 10 ^ t.length + valueOf t := by
  unfold valueOf
  rw [Nat.ofDigitChars_append, Nat.ofDigitChars_eq_ofDigitChars_zero, Nat.mul_comm]

theorem valueOf_padRight (s : List Char) (width : Nat) :
    valueOf (Text.padRight s width) = valueOf s * 10 ^ (width - s.length) := by
  have hzeros : valueOf (List.replicate (width - s.length) '0') = 0 := by
    rw [valueOf, Nat.ofDigitChars_replicate_zero, Nat.mul_zero]
  rw [Text.padRight, valueOf_append, List.length_replicate, hzeros, Nat.add_zero]

theorem valueOf_lt {s : List Char} (hs : ∀ c ∈ s, c.isDigit = true) :
    valueOf s < 10 ^ s.length := by
  induction s using List.reverseRecOn with
  | nil => decide
  | append_singleton s c ih =>
    have hrest := ih fun c hc => hs c (List.mem_append_left _ hc)
    have hc : c.toNat ≤ 57 := by
      have hdigit := hs c (by simp)
      simp only [Char.isDigit, Bool.and_eq_true, decide_eq_true_eq] at hdigit
      exact hdigit.2
    have hlast : valueOf [c] ≤ 9 := by
      show 10 * 0 + (c.toNat - 48) ≤ 9
      omega
    rw [valueOf_append, List.length_append, List.length_singleton, Nat.pow_succ]
    omega

theorem valueOf_digits (n : Nat) : valueOf (digits n) = n := Nat.ofDigitChars_ten_toDigits

theorem valueOf_padLeft (width n : Nat) : valueOf (padLeft width (digits n)) = n := by
  rw [padLeft, valueOf_append, valueOf_digits, valueOf, Nat.ofDigitChars_replicate_zero,
    Nat.mul_zero, Nat.zero_mul, Nat.zero_add]

/-- Digits are told apart by their number and their value. -/
theorem eq_of_valueOf {s t : List Char} (hs : ∀ c ∈ s, c.isDigit = true)
    (ht : ∀ c ∈ t, c.isDigit = true) (hlength : s.length = t.length)
    (hvalue : valueOf s = valueOf t) : s = t := by
  induction s using List.reverseRecOn generalizing t with
  | nil => exact (List.length_eq_zero_iff.mp hlength.symm).symm
  | append_singleton s c ih =>
    rcases List.eq_nil_or_concat' t with rfl | ⟨rest, d, rfl⟩
    · simp at hlength
    · rw [List.forall_mem_append, List.forall_mem_singleton] at hs ht
      rw [valueOf_append, valueOf_append] at hvalue
      -- the last digit is the value's remainder
      have hc := valueOf_lt (List.forall_mem_singleton.mpr hs.2)
      have hd := valueOf_lt (List.forall_mem_singleton.mpr ht.2)
      have hlast : valueOf [c] = valueOf [d] ∧ valueOf s = valueOf rest := by
        simp only [List.length_singleton, Nat.pow_one] at hc hd hvalue
        omega
      have hrest := ih hs.1 ht.1 (by simpa using hlength) hlast.2
      have hdigit : ∀ {e : Char}, e.isDigit = true → 48 ≤ e.toNat ∧ e.toNat - 48 = valueOf [e] := by
        intro e he
        simp only [Char.isDigit, Bool.and_eq_true, decide_eq_true_eq] at he
        refine ⟨he.1, ?_⟩
        show e.toNat - 48 = 10 * 0 + (e.toNat - 48)
        omega
      have hcd : c.toNat = d.toNat := by
        have hlow := hdigit hs.2
        have hlow' := hdigit ht.2
        omega
      rw [hrest, Char.toNat_inj.mp hcd]

/-- A number at its full width is its whole units and its fraction. -/
theorem padLeft_succ {places : Nat} (hplaces : 0 < places) (n : Nat) :
    padLeft (places + 1) (digits n) =
      digits (n / 10 ^ places) ++ padLeft places (digits (n % 10 ^ places)) := by
  have hpow : 0 < 10 ^ places := Nat.pow_pos (by decide)
  have hfraction := length_padLeft hplaces (Nat.mod_lt n hpow)
  -- the whole units are as many digits shorter as there are places
  have hwidth : ∀ k, 0 < k →
      ((digits (n / 10 ^ places)).length ≤ k ↔ (digits n).length ≤ k + places) := by
    intro k hk
    rw [digits, digits, Nat.length_toDigits_le_iff (by decide) hk,
      Nat.length_toDigits_le_iff (by decide) (Nat.add_pos_left hk _), Nat.div_lt_iff_lt_mul hpow,
      Nat.pow_add]
  apply eq_of_valueOf
  · exact fun c hc => isDigit_of_mem_padLeft hc
  · intro c hc
    rcases List.mem_append.mp hc with hc | hc
    · exact isDigit_of_mem_digits hc
    · exact isDigit_of_mem_padLeft hc
  · have hwhole := List.length_pos_of_ne_nil (digits_ne_nil (n / 10 ^ places))
    have hle := (hwidth _ hwhole).mp le_rfl
    have hge := hwidth ((digits n).length - places)
    rw [List.length_append, hfraction, padLeft, List.length_append, List.length_replicate]
    -- a number with no whole unit is padded to a single zero before the point
    by_cases hshort : (digits n).length ≤ places + 1
    · have hone := (hwidth 1 Nat.one_pos).mpr (by omega)
      omega
    · have hlong := (hge (by omega)).mpr (by omega)
      omega
  · rw [valueOf_append, hfraction, valueOf_digits, valueOf_padLeft, valueOf_padLeft,
      Nat.div_add_mod']

/-- Whole units and a fraction denote the whole units and the fraction filled up to the places. -/
theorem denotes_parts {places : Nat} {s whole fraction : List Char}
    (hs : s = whole ++ '.' :: fraction ∨ s = whole ∧ fraction = []) (hne : whole ≠ [])
    (hwhole : ∀ c ∈ whole, c.isDigit = true) (hfraction : ∀ c ∈ fraction, c.isDigit = true)
    (hfits : fraction.length ≤ places) :
    Denotes places s (valueOf whole * 10 ^ places + valueOf (Text.padRight fraction places)) := by
  have hpow : 10 ^ fraction.length * 10 ^ (places - fraction.length) = 10 ^ places := by
    rw [← Nat.pow_add, Nat.add_sub_cancel' hfits]
  refine ⟨whole, fraction, hs, List.append_ne_nil_of_left_ne_nil hne _, ?_, hfits, ?_⟩
  · intro c hc
    rcases List.mem_append.mp hc with hc | hc
    · exact hwhole c hc
    · exact hfraction c hc
  · rw [valueOf_append, valueOf_padRight, Nat.add_mul, Nat.mul_assoc, hpow]

/-- What denotes an amount holds digits and points alone. -/
theorem Denotes.mem {places amount : Nat} {s : List Char} (h : Denotes places s amount) {c : Char}
    (hc : c ∈ s) : c.isDigit = true ∨ c = '.' := by
  obtain ⟨whole, fraction, hs, -, hdigits, -⟩ := h
  rcases hs with rfl | ⟨rfl, -⟩
  · rcases List.mem_append.mp hc with hwhole | hrest
    · exact .inl (hdigits c (List.mem_append_left _ hwhole))
    · rcases List.mem_cons.mp hrest with hpoint | hfraction
      · exact .inr hpoint
      · exact .inl (hdigits c (List.mem_append_right _ hfraction))
  · exact .inl (hdigits c (List.mem_append_left _ hc))

/-- A text denotes one amount. -/
theorem Denotes.unique {places a b : Nat} {s : List Char} (ha : Denotes places s a)
    (hb : Denotes places s b) : a = b := by
  obtain ⟨whole, fraction, hs, -, hdigits, -, rfl⟩ := ha
  obtain ⟨whole', fraction', hs', -, hdigits', -, rfl⟩ := hb
  have hpoint : ∀ {t rest : List Char}, (∀ c ∈ t ++ rest, c.isDigit = true) → '.' ∉ t :=
    fun h hmem => absurd (h _ (List.mem_append_left _ hmem)) (by decide)
  have hparts : whole = whole' ∧ fraction = fraction' := by
    rcases hs with rfl | ⟨rfl, rfl⟩
    · rcases hs' with hs' | ⟨rfl, -⟩
      · exact Text.append_first_inj (hpoint hdigits) (hpoint hdigits') hs'
      · exact absurd (by simp) (hpoint hdigits')
    · rcases hs' with rfl | ⟨rfl, rfl⟩
      · exact absurd (by simp) (hpoint hdigits)
      · exact ⟨rfl, rfl⟩
  rw [hparts.1, hparts.2]

/-- Exactly digits are read, for their value. -/
theorem digits?_eq_some_iff {s : List Char} {n : Nat} : Text.digits? s = some n ↔
    s ≠ [] ∧ (∀ c ∈ s, c.isDigit = true) ∧ n = valueOf s := by
  constructor
  · intro h
    -- the loop is quantified over where it starts, for the induction
    have hall : ∀ (s : List Char) (value n : Nat),
        s.foldlM (fun value c => if c.isDigit then some (10 * value + (c.toNat - 48)) else none)
          value = some n → ∀ c ∈ s, c.isDigit = true := by
      intro s
      induction s with
      | nil => exact fun _ _ _ _ hc => absurd hc List.not_mem_nil
      | cons c rest ih =>
        intro value n h
        rw [List.foldlM_cons] at h
        by_cases hc : c.isDigit = true
        · rw [if_pos hc] at h
          exact List.forall_mem_cons.mpr ⟨hc, ih _ n h⟩
        · rw [if_neg hc] at h
          cases h
    have hne : s ≠ [] := by
      rintro rfl
      cases h
    have hdigits : ∀ c ∈ s, c.isDigit = true := by
      rw [Text.digits?, if_neg (by simpa using hne)] at h
      exact hall s 0 n h
    rw [digits?_eq_some hne hdigits] at h
    exact ⟨hne, hdigits, (Option.some.inj h).symm⟩
  · intro h
    obtain ⟨hne, hdigits, rfl⟩ := h
    exact digits?_eq_some hne hdigits

theorem integer?_minus {s : List Char} {n : Int} : Text.integer? ('-' :: s) = some n ↔
    ∃ k : Nat, Text.digits? s = some k ∧ n = -k := by
  cases hdigits : Text.digits? s <;> simp [Text.integer?, hdigits, eq_comm]

theorem integer?_unsigned {c : Char} {s : List Char} {n : Int} (hplus : c ≠ '+')
    (hminus : c ≠ '-') :
    Text.integer? (c :: s) = some n ↔ ∃ k : Nat, Text.digits? (c :: s) = some k ∧ n = k := by
  unfold Text.integer?
  split
  · rename_i heq
    exact absurd (List.cons.inj heq).1 hminus
  · rename_i heq
    exact absurd (List.cons.inj heq).1 hplus
  · cases Text.digits? (c :: s) <;> simp [eq_comm]

/-- Without a plus, an integer is digits, or digits under a minus sign. -/
theorem integer?_eq_some_iff {s : List Char} {n : Int} (hplus : '+' ∉ s) :
    Text.integer? s = some n ↔ (∃ k : Nat, Text.digits? s = some k ∧ n = k) ∨
      ∃ rest, ∃ k : Nat, s = '-' :: rest ∧ Text.digits? rest = some k ∧ n = -k := by
  cases s with
  | nil => simp [Text.integer?, Text.digits?]
  | cons c rest =>
    by_cases hminus : c = '-'
    · have hnone : Text.digits? ('-' :: rest) = none := rfl
      rw [hminus, integer?_minus, hnone]
      simp only [reduceCtorEq, false_and, exists_false, false_or, List.cons.injEq, true_and,
        exists_and_left, exists_eq_left']
    · have hc : c ≠ '+' := fun h => hplus (h ▸ List.mem_cons_self)
      rw [integer?_unsigned hc hminus]
      constructor
      · exact fun h => .inl h
      · intro h
        rcases h with h | ⟨_, _, heq, -⟩
        · exact h
        · exact absurd (List.cons.inj heq).1 hminus

/-- A text is what stands before its separator, the separator and what stands after it, or it has
    none. -/
theorem splitOnce_parts {separator : Char} {s whole fraction : List Char}
    (h : Text.splitOnce separator s = (whole, fraction)) :
    s = whole ++ separator :: fraction ∨ s = whole ∧ fraction = [] := by
  obtain ⟨hwhole, hfraction⟩ := Prod.mk.inj h
  have hparts := List.takeWhile_append_dropWhile (p := fun c => decide (c ≠ separator)) (l := s)
  cases hdrop : s.dropWhile (fun c => decide (c ≠ separator)) with
  | nil =>
    rw [hdrop] at hfraction hparts
    rw [List.append_nil, hwhole] at hparts
    exact .inr ⟨hparts.symm, hfraction.symm⟩
  | cons c rest =>
    have hhead := List.head?_dropWhile_not (fun c => decide (c ≠ separator)) s
    rw [hdrop] at hhead
    have hc : c = separator := by simpa using hhead
    rw [hdrop] at hfraction hparts
    rw [hwhole] at hparts
    rw [← hparts, ← hfraction, hc]
    exact .inl rfl

/-! ### Filling up -/

theorem isDigit_of_mem_padRight {s : List Char} {width : Nat} (hs : ∀ c ∈ s, c.isDigit = true) :
    ∀ c ∈ Text.padRight s width, c.isDigit = true := by
  intro c hc
  rcases List.mem_append.mp hc with hc | hc
  · exact hs c hc
  · rw [List.eq_of_mem_replicate hc]
    decide

theorem length_padRight {s : List Char} {width : Nat} (h : s.length ≤ width) :
    (Text.padRight s width).length = width := by
  rw [Text.padRight, List.length_append, List.length_replicate]
  omega

/-- The zeros taken off the end of a text are those that fill it up again. -/
theorem padRight_rdropWhile (s : List Char) :
    Text.padRight (s.rdropWhile (· = '0')) s.length = s := by
  induction s using List.reverseRecOn with
  | nil => rfl
  | append_singleton s c ih =>
    by_cases hc : c = '0'
    · have hshort : (s.rdropWhile (· = '0')).length ≤ s.length :=
        (List.rdropWhile_prefix _ _).length_le
      rw [List.rdropWhile_concat, if_pos (decide_eq_true hc), List.length_append,
        List.length_singleton, Text.padRight, Nat.sub_add_comm hshort, List.replicate_succ',
        ← List.append_assoc, ← Text.padRight, ih, hc]
    · rw [List.rdropWhile_concat, if_neg (by simpa using hc), Text.padRight, Nat.sub_self,
        List.replicate_zero, List.append_nil]

/-- Zeros are taken off the end as far as the point. -/
theorem rdropWhile_point (whole fraction : List Char) :
    (whole ++ '.' :: fraction).rdropWhile (· = '0') =
      whole ++ '.' :: fraction.rdropWhile (· = '0') := by
  induction fraction using List.reverseRecOn with
  | nil => exact List.rdropWhile_concat_neg _ _ _ (by decide)
  | append_singleton fraction c ih =>
    rw [← List.cons_append, ← List.append_assoc, List.rdropWhile_concat, ih,
      List.rdropWhile_concat]
    split <;> simp

/-- Whole units, and a fraction of so many places less the zeros at its end. -/
def trimmed (places : Nat) (whole : Int) (fraction : Nat) : List Char :=
  if fraction = 0 then render 0 whole
  else (render 0 whole ++ '.' :: padLeft places (digits fraction)).rdropWhile (· = '0')

/-- A trimmed text is the sign of its whole units and what denotes both parts. -/
theorem trimmed_denotes {places : Nat} (hplaces : 0 < places) (whole : Int) {fraction : Nat}
    (hfraction : fraction < 10 ^ places) : ∃ unsigned,
    Denotes places unsigned (whole.natAbs * 10 ^ places + fraction) ∧
      trimmed places whole fraction = (if whole < 0 then ['-'] else []) ++ unsigned := by
  have hdigits : ∀ n : Nat, ∀ c ∈ digits n, c.isDigit = true := fun _ _ => isDigit_of_mem_digits
  unfold trimmed
  by_cases hzero : fraction = 0
  · rw [if_pos hzero, render_zero, hzero]
    refine ⟨_, ?_, rfl⟩
    have hdenotes := @denotes_parts places _ _ _ (.inr ⟨rfl, rfl⟩)
      (digits_ne_nil whole.natAbs) (hdigits _) nofun (Nat.zero_le places)
    have hfill : valueOf (Text.padRight [] places) = 0 := by
      rw [valueOf_padRight]
      exact Nat.zero_mul _
    rw [valueOf_digits, hfill] at hdenotes
    exact hdenotes
  · rw [if_neg hzero, render_zero, rdropWhile_point, List.append_assoc]
    refine ⟨_, ?_, rfl⟩
    have hlength := length_padLeft hplaces hfraction
    -- filling up puts back the zeros that were trimmed
    have hfill := padRight_rdropWhile (padLeft places (digits fraction))
    have hshort := List.rdropWhile_prefix (· = '0') (padLeft places (digits fraction))
    have hdenotes := @denotes_parts places _ _ _ (.inl rfl)
      (digits_ne_nil whole.natAbs) (hdigits _)
      (fun c hc => isDigit_of_mem_padLeft (hshort.subset hc)) (hshort.length_le.trans hlength.le)
    rw [hlength] at hfill
    rw [valueOf_digits, hfill, valueOf_padLeft] at hdenotes
    exact hdenotes

theorem padRight_cons (c : Char) (s : List Char) (width : Nat) :
    Text.padRight (c :: s) (width + 1) = c :: Text.padRight s width := by
  rw [Text.padRight, List.length_cons, Nat.add_sub_add_right]
  rfl

/-! ### Integers of a width -/

theorem parseInt?_eq_some_iff {w : Nat} {s : List Char} {n : SInt w} (hplus : '+' ∉ s) :
    Text.parseInt? w s = some n ↔ (∃ k : Nat, Text.digits? s = some k ∧ n.val = k) ∨
      ∃ rest, ∃ k : Nat, s = '-' :: rest ∧ Text.digits? rest = some k ∧ n.val = -k := by
  rw [Text.parseInt?, Option.bind_eq_some_iff, ← integer?_eq_some_iff hplus]
  constructor
  · intro h
    obtain ⟨value, hread, hfits⟩ := h
    rw [hread, SInt.ofInt?_eq_some.mp hfits]
  · intro h
    exact ⟨_, h, SInt.ofInt?_val n⟩

/-- Digits are parsed for their value where it fits. -/
theorem parseInt?_digits {w : Nat} {s : List Char} (hne : s ≠ [])
    (hs : ∀ c ∈ s, c.isDigit = true) (hfits : (valueOf s : Int) < 2 ^ (w - 1)) :
    ∃ n : SInt w, Text.parseInt? w s = some n ∧ n.val = valueOf s := by
  have hlow : -2 ^ (w - 1) ≤ (valueOf s : Int) := by
    have hpos : (0 : Int) ≤ 2 ^ (w - 1) := by positivity
    omega
  obtain ⟨n, -, hval⟩ := @SInt.ofInt?_of_fits w (valueOf s) ⟨hlow, hfits⟩
  have hplus : '+' ∉ s := fun hc => absurd (hs _ hc) (by decide)
  have hdigits := digits?_eq_some_iff.mpr ⟨hne, hs, rfl⟩
  exact ⟨n, (parseInt?_eq_some_iff hplus).mpr (.inl ⟨_, hdigits, hval⟩), hval⟩

/-- Digits under a minus sign are parsed for the value below zero where it fits. -/
theorem parseInt?_minus {w : Nat} {s : List Char} (hne : s ≠ [])
    (hs : ∀ c ∈ s, c.isDigit = true) (hfits : (valueOf s : Int) ≤ 2 ^ (w - 1)) :
    ∃ n : SInt w, Text.parseInt? w ('-' :: s) = some n ∧ n.val = -valueOf s := by
  have hhigh : -(valueOf s : Int) < 2 ^ (w - 1) := by
    have hpos : (0 : Int) < 2 ^ (w - 1) := by positivity
    omega
  obtain ⟨n, -, hval⟩ := @SInt.ofInt?_of_fits w (-valueOf s) ⟨by omega, hhigh⟩
  have hplus : '+' ∉ '-' :: s := by
    intro hc
    rcases List.mem_cons.mp hc with hc | hc
    · exact absurd hc (by decide)
    · exact absurd (hs _ hc) (by decide)
  have hdigits := digits?_eq_some_iff.mpr ⟨hne, hs, rfl⟩
  exact ⟨n, (parseInt?_eq_some_iff hplus).mpr (.inr ⟨s, _, rfl, hdigits, hval⟩), hval⟩

end Decimal
