import Mathlib.Tactic
import Mathlib.Order.WithBot
import Sahl.Lib.Decimal
import Sahl.Core.Money

/-! # Typed amounts

    The screens render money from exact integers and read it back from what is typed. The rendering
    cuts a padded string of digits; the reading tests a pattern, fills the fraction up and asks for
    one number. They meet in the value of the digits (`parseMinor_exact`). -/

namespace Sahl

/-! ## Section 1: Rendering -/

/-- Minor-unit exponents, kept beside those of the core. -/
def currencyExponent : Currency → Nat
  | .bdt => 2
  | .sar => 2
  | .aed => 2
  | .usd => 2

theorem currencyExponent_eq (currency : Currency) :
    currencyExponent currency = currency.exponent := by
  cases currency <;> rfl

/-- Render an exact integer of minor units as a decimal string. -/
def minorToDecimalString (minor : Int) (exponent : Nat) : List Char :=
  let digits := Decimal.padLeft (exponent + 1) (Decimal.digits minor.natAbs)
  let splitAt := digits.length - exponent
  let whole := digits.take splitAt
  let fraction := digits.drop splitAt
  let sign := if minor < 0 then ['-'] else []
  if exponent = 0 then sign ++ whole else sign ++ whole ++ '.' :: fraction

/-! ## Section 2: Reading -/

/-- What `String.prototype.trim` takes off: the white space and the line ends of the language, not
    quite those of the Unicode property. -/
def isJsWhitespace (c : Char) : Bool :=
  let n := c.toNat
  (0x0009 ≤ n ∧ n ≤ 0x000D) ∨ n = 0x0020 ∨ n = 0x00A0 ∨ n = 0x1680 ∨
    (0x2000 ≤ n ∧ n ≤ 0x200A) ∨ n = 0x2028 ∨ n = 0x2029 ∨ n = 0x202F ∨ n = 0x205F ∨ n = 0x3000 ∨
    n = 0xFEFF

def jsTrim (s : List Char) : List Char :=
  (s.dropWhile isJsWhitespace).rdropWhile isJsWhitespace

/-- What stands behind a minus sign, if there is one. -/
def unsigned (s : List Char) : List Char := if s.head? = some '-' then s.drop 1 else s

/-- Whether a text matches `^(\.\d{1,exponent})?$`. -/
def fractionPattern (exponent : Nat) : List Char → Bool
  | [] => true
  | c :: fraction =>
    c = '.' && !fraction.isEmpty && decide (fraction.length ≤ exponent) &&
      fraction.all Char.isDigit

/-- Whether a text matches `^-?\d+(\.\d{1,exponent})?$`; a point is no digit, so the digits
    before it are all there are. -/
def amountPattern (exponent : Nat) (s : List Char) : Bool :=
  !((unsigned s).takeWhile Char.isDigit).isEmpty &&
    fractionPattern exponent ((unsigned s).dropWhile Char.isDigit)

/-- `Number.MAX_SAFE_INTEGER`. -/
def maxSafeInteger : Nat := 2 ^ 53 - 1

/-- A number that is a safe integer, among those digits can stand for: integers and infinity. -/
def safeInteger? : WithTop Nat → Option Nat
  | ⊤ => none
  | (n : Nat) => if n ≤ maxSafeInteger then some n else none

/-- Parse a typed decimal string into exact minor units; `number` is `Number` of a string of
    digits. Minus zero is zero. -/
def parseMinor (number : List Char → WithTop Nat) (entry : List Char) (currency : Currency) :
    Option Int :=
  let exponent := currencyExponent currency
  let trimmed := jsTrim entry
  if !amountPattern exponent trimmed then none
  else
    let negative := trimmed.head? = some '-'
    let parts := (unsigned trimmed).splitOn '.'
    let whole := parts[0]?.getD ['0']
    let fraction := parts[1]?.getD []
    let digits := whole ++ Text.padRight fraction exponent
    (safeInteger? (number digits)).map fun value : Nat =>
      if negative then -(value : Int) else value

/-- What is relied on of `Number`: it is exact on digits up to the greatest safe integer, and no
    digits beyond come out below it. -/
structure ExactOnDigits (number : List Char → WithTop Nat) : Prop where
  exact : ∀ s : List Char, s ≠ [] → (∀ c ∈ s, c.isDigit = true) →
    Decimal.valueOf s ≤ maxSafeInteger → number s = Decimal.valueOf s
  above : ∀ s : List Char, s ≠ [] → (∀ c ∈ s, c.isDigit = true) →
    2 ^ 53 ≤ Decimal.valueOf s → ((2 ^ 53 : Nat) : WithTop Nat) ≤ number s

/-! ## Section 3: What may be typed -/

/-- One or more digits and optionally a point with between one and so many digits. -/
structure Unsigned (exponent : Nat) (body whole fraction : List Char) : Prop where
  text : body = whole ∧ fraction = [] ∨ body = whole ++ '.' :: fraction ∧ fraction ≠ []
  nonempty : whole ≠ []
  wholeDigits : ∀ c ∈ whole, c.isDigit = true
  fractionDigits : ∀ c ∈ fraction, c.isDigit = true
  fits : fraction.length ≤ exponent

/-- The value of a decimal in minor units. -/
def magnitude (exponent : Nat) (whole fraction : List Char) : Nat :=
  Decimal.valueOf (whole ++ fraction) * 10 ^ (exponent - fraction.length)

/-- An optional minus sign. -/
def signed (negative : Bool) (body : List Char) : List Char :=
  if negative then '-' :: body else body

/-- An optional minus sign before such a decimal, for its value in minor units. -/
def Amount (exponent : Nat) (s : List Char) (minor : Int) : Prop :=
  ∃ negative body whole fraction, s = signed negative body ∧
    Unsigned exponent body whole fraction ∧
    minor = if negative then -(magnitude exponent whole fraction : Int)
      else magnitude exponent whole fraction

variable {exponent : Nat} {body whole fraction : List Char}

namespace Unsigned

/-- A decimal begins with a digit. -/
theorem head_isDigit (h : Unsigned exponent body whole fraction) :
    ∃ c rest, body = c :: rest ∧ c.isDigit = true := by
  obtain ⟨c, rest, hwhole⟩ := List.exists_cons_of_ne_nil h.nonempty
  have hc : c.isDigit = true := h.wholeDigits c (by rw [hwhole]; exact List.mem_cons_self)
  rcases h.text with ⟨htext, -⟩ | ⟨htext, -⟩
  · exact ⟨c, rest, by rw [htext, hwhole], hc⟩
  · exact ⟨c, rest ++ '.' :: fraction, by rw [htext, hwhole, List.cons_append], hc⟩

theorem unsigned_signed (h : Unsigned exponent body whole fraction) (negative : Bool) :
    unsigned (signed negative body) = body := by
  obtain ⟨c, rest, hbody, hc⟩ := h.head_isDigit
  cases negative with
  | true => rfl
  | false =>
    have hsign : body.head? ≠ some '-' := by
      rw [hbody, List.head?_cons]
      intro hminus
      cases hminus
      exact absurd hc (by decide)
    exact if_neg hsign

theorem head_signed (h : Unsigned exponent body whole fraction) (negative : Bool) :
    (signed negative body).head? = some '-' ↔ negative = true := by
  obtain ⟨c, rest, hbody, hc⟩ := h.head_isDigit
  cases negative with
  | true => exact ⟨fun _ => rfl, fun _ => rfl⟩
  | false =>
    rw [signed, if_neg Bool.false_ne_true, hbody, List.head?_cons]
    constructor
    · intro hminus
      cases hminus
      exact absurd hc (by decide)
    · exact nofun

theorem point_notMem {s : List Char} (h : ∀ c ∈ s, c.isDigit = true) : '.' ∉ s :=
  fun hmem => absurd (h _ hmem) (by decide)

/-- The parts around the point are the whole units and the fraction. -/
theorem parts (h : Unsigned exponent body whole fraction) :
    (body.splitOn '.')[0]?.getD ['0'] = whole ∧ (body.splitOn '.')[1]?.getD [] = fraction := by
  rcases h.text with ⟨rfl, rfl⟩ | ⟨rfl, -⟩
  · rw [List.splitOn_eq_singleton (point_notMem h.wholeDigits)]
    exact ⟨rfl, rfl⟩
  · rw [List.splitOn_append_cons_self_of_not_mem (point_notMem h.wholeDigits),
      List.splitOn_eq_singleton (point_notMem h.fractionDigits)]
    exact ⟨rfl, rfl⟩

/-- The digits a number is asked of stand for the value in minor units. -/
theorem digits (h : Unsigned exponent body whole fraction) :
    whole ++ Text.padRight fraction exponent ≠ [] ∧
      (∀ c ∈ whole ++ Text.padRight fraction exponent, c.isDigit = true) ∧
      Decimal.valueOf (whole ++ Text.padRight fraction exponent) =
        magnitude exponent whole fraction := by
  have hpadded : whole ++ Text.padRight fraction exponent =
      Text.padRight (whole ++ fraction) (whole.length + exponent) := by
    rw [Text.padRight, Text.padRight, List.length_append, Nat.add_sub_add_left, List.append_assoc]
  refine ⟨List.append_ne_nil_of_left_ne_nil h.nonempty _, ?_, ?_⟩
  · intro c hc
    rcases List.mem_append.mp hc with hc | hc
    · exact h.wholeDigits c hc
    · exact Decimal.isDigit_of_mem_padRight h.fractionDigits c hc
  · rw [hpadded, Decimal.valueOf_padRight, List.length_append, Nat.add_sub_add_left]
    rfl

/-- The pattern lets a decimal through, signed or not. -/
theorem pattern (h : Unsigned exponent body whole fraction) (negative : Bool) :
    amountPattern exponent (signed negative body) = true := by
  have hparts : body.takeWhile Char.isDigit = whole ∧
      fractionPattern exponent (body.dropWhile Char.isDigit) = true := by
    rcases h.text with ⟨rfl, rfl⟩ | ⟨rfl, hfraction⟩
    · rw [List.takeWhile_eq_self_iff.mpr h.wholeDigits, List.dropWhile_eq_nil_iff.mpr h.wholeDigits]
      exact ⟨rfl, rfl⟩
    · rw [List.takeWhile_append_of_pos h.wholeDigits, List.dropWhile_append_of_pos h.wholeDigits,
        List.takeWhile_cons_of_neg (by decide), List.dropWhile_cons_of_neg (by decide),
        List.append_nil]
      refine ⟨rfl, ?_⟩
      simp only [fractionPattern, decide_true, Bool.true_and, Bool.and_eq_true, Bool.not_eq_true',
        List.isEmpty_eq_false_iff, decide_eq_true_eq, List.all_eq_true]
      exact ⟨⟨hfraction, h.fits⟩, h.fractionDigits⟩
  rw [amountPattern, h.unsigned_signed negative, hparts.1, hparts.2,
    List.isEmpty_eq_false_iff.mpr h.nonempty]
  rfl

end Unsigned

/-- What the pattern lets through is such a decimal, signed or not. -/
theorem unsigned_of_pattern {s : List Char} (h : amountPattern exponent s = true) :
    ∃ negative body whole fraction, s = signed negative body ∧
      Unsigned exponent body whole fraction := by
  have hsign : ∃ negative, s = signed negative (unsigned s) := by
    by_cases hminus : s.head? = some '-'
    · obtain ⟨rest, rfl⟩ := List.head?_eq_some_iff.mp hminus
      exact ⟨true, rfl⟩
    · exact ⟨false, (if_neg hminus).symm⟩
  obtain ⟨negative, hs⟩ := hsign
  have hparts := List.takeWhile_append_dropWhile (p := Char.isDigit) (l := unsigned s)
  have hdigits : ∀ c ∈ (unsigned s).takeWhile Char.isDigit, c.isDigit = true :=
    fun c hc => List.mem_takeWhile_imp hc
  rw [amountPattern, Bool.and_eq_true, Bool.not_eq_true', List.isEmpty_eq_false_iff] at h
  obtain ⟨hwhole, hfraction⟩ := h
  -- the digits end the text, or a point follows with more of them
  cases hrest : (unsigned s).dropWhile Char.isDigit with
  | nil =>
    rw [hrest, List.append_nil] at hparts
    exact ⟨negative, _, _, [], hs, .inl ⟨hparts.symm, rfl⟩, hwhole, hdigits, by simp,
      Nat.zero_le _⟩
  | cons c fraction =>
    rw [hrest] at hparts hfraction
    simp only [fractionPattern, Bool.and_eq_true, Bool.not_eq_true', List.isEmpty_eq_false_iff,
      decide_eq_true_eq, List.all_eq_true] at hfraction
    obtain ⟨⟨⟨rfl, hsome⟩, hfits⟩, hall⟩ := hfraction
    exact ⟨negative, _, _, fraction, hs, .inr ⟨hparts.symm, hsome⟩, hwhole, hdigits, hall, hfits⟩

/-! ## Section 4: What is read -/

theorem safeInteger?_number {number : List Char → WithTop Nat} (hnumber : ExactOnDigits number)
    {s : List Char} (hne : s ≠ []) (hs : ∀ c ∈ s, c.isDigit = true) :
    safeInteger? (number s) =
      if Decimal.valueOf s ≤ maxSafeInteger then some (Decimal.valueOf s) else none := by
  by_cases hsafe : Decimal.valueOf s ≤ maxSafeInteger
  · rw [hnumber.exact s hne hs hsafe, if_pos hsafe]
    exact if_pos hsafe
  · have habove := hnumber.above s hne hs (by unfold maxSafeInteger at hsafe; omega)
    rw [if_neg hsafe]
    cases hvalue : number s with
    | top => rfl
    | coe n =>
      rw [hvalue] at habove
      have hn : 2 ^ 53 ≤ n := WithTop.coe_le_coe.mp habove
      exact if_neg (by unfold maxSafeInteger; omega)

/-- What is read of a decimal, signed or not. -/
theorem parseMinor_signed {number : List Char → WithTop Nat} (hnumber : ExactOnDigits number)
    {entry : List Char} {currency : Currency} {negative : Bool}
    (h : Unsigned (currencyExponent currency) body whole fraction)
    (hentry : jsTrim entry = signed negative body) :
    parseMinor number entry currency =
      if magnitude (currencyExponent currency) whole fraction ≤ maxSafeInteger then
        some (if negative then -(magnitude (currencyExponent currency) whole fraction : Int)
          else magnitude (currencyExponent currency) whole fraction)
      else none := by
  obtain ⟨hne, hdigits, hvalue⟩ := h.digits
  obtain ⟨hwhole, hfraction⟩ := h.parts
  unfold parseMinor
  simp only [hentry, h.pattern negative, h.unsigned_signed negative, hwhole, hfraction,
    safeInteger?_number hnumber hne hdigits, hvalue, h.head_signed negative]
  by_cases hsafe : magnitude (currencyExponent currency) whole fraction ≤ maxSafeInteger
  · simp [hsafe]
  · simp [hsafe]

/-- A number is read of an amount within the safe range, and of nothing else. -/
theorem parseMinor_eq_some_iff {number : List Char → WithTop Nat} (hnumber : ExactOnDigits number)
    {entry : List Char} {currency : Currency} {minor : Int} :
    parseMinor number entry currency = some minor ↔
      Amount (currencyExponent currency) (jsTrim entry) minor ∧ |minor| ≤ maxSafeInteger := by
  have habs : ∀ (negative : Bool) (n : Nat), |if negative then -(n : Int) else n| = n := by
    intro negative n
    cases negative <;> simp
  constructor
  · intro h
    -- what does not match the pattern is not read
    have hpattern : amountPattern (currencyExponent currency) (jsTrim entry) = true := by
      by_contra hrefused
      rw [Bool.not_eq_true] at hrefused
      simp [parseMinor, hrefused] at h
    obtain ⟨negative, body, whole, fraction, hentry, hunsigned⟩ := unsigned_of_pattern hpattern
    rw [parseMinor_signed hnumber hunsigned hentry] at h
    obtain ⟨hsafe, h⟩ := Option.ite_none_right_eq_some.mp h
    cases h
    refine ⟨⟨negative, body, whole, fraction, hentry, hunsigned, rfl⟩, ?_⟩
    rw [habs]
    exact_mod_cast hsafe
  · intro h
    obtain ⟨⟨negative, body, whole, fraction, hentry, hunsigned, rfl⟩, hsafe⟩ := h
    rw [habs] at hsafe
    rw [parseMinor_signed hnumber hunsigned hentry, if_pos (by exact_mod_cast hsafe)]

/-! ## Section 5: What is rendered is read back -/

/-- The rendering cuts the digits where as many are left as the exponent says. -/
theorem minorToDecimalString_eq (minor : Int) (exponent : Nat) : ∃ whole fraction,
    minorToDecimalString minor exponent = signed (decide (minor < 0))
      (if exponent = 0 then whole else whole ++ '.' :: fraction) ∧
    whole ≠ [] ∧ fraction.length = exponent ∧ (∀ c ∈ whole ++ fraction, c.isDigit = true) ∧
    Decimal.valueOf (whole ++ fraction) = minor.natAbs := by
  -- padded to one digit more than the exponent, so that one is left before the point
  let digits := Decimal.padLeft (exponent + 1) (Decimal.digits minor.natAbs)
  have hlength : exponent + 1 ≤ digits.length := by
    show exponent + 1 ≤ (Decimal.padLeft (exponent + 1) (Decimal.digits minor.natAbs)).length
    rw [Decimal.padLeft, List.length_append, List.length_replicate]
    omega
  refine ⟨digits.take (digits.length - exponent), digits.drop (digits.length - exponent),
    ?_, ?_, ?_, ?_, ?_⟩
  · show (if exponent = 0 then
        (if minor < 0 then ['-'] else []) ++ digits.take (digits.length - exponent)
      else (if minor < 0 then ['-'] else []) ++ digits.take (digits.length - exponent) ++
        '.' :: digits.drop (digits.length - exponent)) = _
    by_cases hexponent : exponent = 0
    · rw [if_pos hexponent, if_pos hexponent]
      by_cases hminor : minor < 0 <;> simp [hminor, signed]
    · rw [if_neg hexponent, if_neg hexponent]
      by_cases hminor : minor < 0 <;> simp [hminor, signed]
  · intro hnil
    have hnone := congrArg List.length hnil
    rw [List.length_take, List.length_nil] at hnone
    omega
  · rw [List.length_drop]
    omega
  · rw [List.take_append_drop]
    exact fun _ => Decimal.isDigit_of_mem_padLeft
  · rw [List.take_append_drop]
    exact (Decimal.digits?_eq_some_iff.mp (Decimal.digits?_padLeft _ _)).2.2.symm

/-- What is rendered is an amount, of the integer it renders. -/
theorem minorToDecimalString_amount (minor : Int) (exponent : Nat) :
    Amount exponent (minorToDecimalString minor exponent) minor := by
  obtain ⟨whole, fraction, htext, hwhole, hlength, hdigits, hvalue⟩ :=
    minorToDecimalString_eq minor exponent
  refine ⟨_, _, whole, fraction, htext, ?_, ?_⟩
  · have hcut : (if exponent = 0 then whole else whole ++ '.' :: fraction) = whole ∧
        fraction = [] ∨ (if exponent = 0 then whole else whole ++ '.' :: fraction) =
          whole ++ '.' :: fraction ∧ fraction ≠ [] := by
      by_cases hexponent : exponent = 0
      · exact .inl ⟨if_pos hexponent, List.eq_nil_of_length_eq_zero (hlength.trans hexponent)⟩
      · refine .inr ⟨if_neg hexponent, fun hnil => hexponent ?_⟩
        rw [← hlength, hnil, List.length_nil]
    exact ⟨hcut, hwhole, fun c hc => hdigits c (List.mem_append_left _ hc),
      fun c hc => hdigits c (List.mem_append_right _ hc), hlength.le⟩
  · rw [magnitude, hvalue, hlength, Nat.sub_self, Nat.pow_zero, Nat.mul_one]
    by_cases hminor : minor < 0
    · rw [if_pos (decide_eq_true hminor)]
      omega
    · rw [if_neg (by simpa using hminor)]
      omega

/-- An amount has no white space in it. -/
theorem Amount.jsTrim {s : List Char} {minor : Int} (h : Amount exponent s minor) :
    jsTrim s = s := by
  obtain ⟨negative, body, whole, fraction, rfl, hunsigned, -⟩ := h
  have hdigit : ∀ c : Char, c.isDigit = true → isJsWhitespace c = false := by
    intro c hc
    have hrange := Char.isDigit_iff_toNat.mp hc
    have hlow : 48 ≤ c.toNat := hrange.1
    have hhigh : c.toNat ≤ 57 := hrange.2
    simp only [isJsWhitespace, decide_eq_false_iff_not]
    omega
  have hbody : ∀ c ∈ body, isJsWhitespace c = false := by
    intro c hc
    rcases hunsigned.text with ⟨rfl, -⟩ | ⟨rfl, -⟩
    · exact hdigit c (hunsigned.wholeDigits c hc)
    · rcases List.mem_append.mp hc with hc | hc
      · exact hdigit c (hunsigned.wholeDigits c hc)
      · rcases List.mem_cons.mp hc with rfl | hc
        · decide
        · exact hdigit c (hunsigned.fractionDigits c hc)
  -- neither end is white space: sign, point and digits alone
  refine Text.dropWhile_rdropWhile_eq_self fun c hc => ?_
  cases negative with
  | false => exact hbody c hc
  | true =>
    rcases List.mem_cons.mp hc with rfl | hc
    · decide
    · exact hbody c hc

/-- **A typed amount is the amount.** A number is read exactly of an optional minus sign, one or
    more digits and optionally a point with between one and as many digits as the currency has,
    where its value in minor units is a safe integer, and it is that value; and every safe integer
    is read back from its rendering. -/
theorem parseMinor_exact {number : List Char → WithTop Nat} (hnumber : ExactOnDigits number)
    (currency : Currency) :
    (∀ entry minor, parseMinor number entry currency = some minor ↔
      Amount currency.exponent (Sahl.jsTrim entry) minor ∧ |minor| ≤ 2 ^ 53 - 1) ∧
    ∀ minor : Int, |minor| ≤ 2 ^ 53 - 1 →
      parseMinor number (minorToDecimalString minor currency.exponent) currency = some minor := by
  have hread : ∀ entry minor, parseMinor number entry currency = some minor ↔
      Amount currency.exponent (Sahl.jsTrim entry) minor ∧ |minor| ≤ 2 ^ 53 - 1 := by
    intro entry minor
    rw [parseMinor_eq_some_iff hnumber, currencyExponent_eq]
    rfl
  refine ⟨hread, fun minor hsafe => (hread _ _).mpr ⟨?_, hsafe⟩⟩
  have hamount := minorToDecimalString_amount minor currency.exponent
  rw [hamount.jsTrim]
  exact hamount

/-- A number for every string of digits, exact throughout. -/
theorem exactOnDigits_valueOf : ExactOnDigits fun s => Decimal.valueOf s :=
  ⟨fun _ _ _ _ => rfl, fun _ _ _ h => WithTop.coe_le_coe.mpr h⟩

/-- Four hundred ninety-nine and a half taka, taken out of the drawer. -/
theorem parseMinor_exact_taka :
    parseMinor (fun s => Decimal.valueOf s) (minorToDecimalString (-49950) Currency.bdt.exponent)
      .bdt = some (-49950) :=
  (parseMinor_exact exactOnDigits_valueOf .bdt).2 (-49950) (by norm_num)

end Sahl
