import Mathlib.Tactic
import Sahl.Lib.Decimal
import Sahl.Core.ImportRows

/-! # The price of an imported row

    A price cell is read for its digits, points and minus signs. What is read is the number these
    denote, with one exception: a minus right after the point is taken for the sign of the
    fraction, and what should be refused is read for less (`fromDelimited_sane_iff`). -/

namespace Sahl

/-! ## Section 1: Price cells -/

/-- What is looked at of a price cell: its digits, points and minus signs. -/
def keptOf (cell : String) : List Char :=
  cell.toList.filter fun c => c.isDigit || c = '.' || c = '-'

/-- Whole units that fit, a point, a minus, and after it fewer digits than the currency has
    decimals. -/
def Slips (currency : Currency) (cell : String) : Prop :=
  ∃ whole rest, keptOf cell = whole ++ '.' :: '-' :: rest ∧ whole ≠ [] ∧
    (∀ c ∈ whole ++ rest, c.isDigit = true) ∧ rest.length + 1 ≤ currency.exponent ∧
    Decimal.valueOf whole * 10 ^ currency.exponent < 2 ^ 63

section Cell

variable {cell : String} {currency : Currency} {price : Money}

/-- A cell that slips denotes no amount. -/
theorem Slips.not_denotes (h : Slips currency cell) (amount : Nat) :
    ¬ Decimal.Denotes currency.exponent (keptOf cell) amount := by
  obtain ⟨whole, rest, hkept, -⟩ := h
  intro hdenotes
  have hminus : '-' ∈ keptOf cell := by simp [hkept]
  rcases hdenotes.mem hminus with hdigit | hpoint
  · exact absurd hdigit (by decide)
  · exact absurd hpoint (by decide)

/-- A price is read of whole units that are not negative and of a fraction filled up to the
    decimals of the currency. -/
theorem parseMoney_eq_ok {whole fraction : List Char}
    (hsplit : Text.splitOnce '.' (keptOf cell) = (whole, fraction)) :
    parseMoney cell currency = .ok price ↔
      keptOf cell ≠ [] ∧ fraction.length ≤ currency.exponent ∧
        ∃ major, Text.parseInt? 64 whole = some major ∧ ∃ minor : I64,
          (if fraction = [] then minor = 0
            else Text.parseInt? 64 (Text.padRight fraction currency.exponent) = some minor) ∧
          0 ≤ major.val ∧ (keptOf cell).head? ≠ some '-' ∧
          major.val * 10 ^ currency.exponent < 2 ^ 63 ∧ price.currency = currency ∧
          price.minor.val = major.val * 10 ^ currency.exponent + minor.val := by
  -- first the steps as the code takes them, then the arithmetic they come to
  have hread : parseMoney cell currency = .ok price ↔
      keptOf cell ≠ [] ∧ fraction.length ≤ currency.exponent ∧
        ∃ major, Text.parseInt? 64 whole = some major ∧ ∃ minor : I64,
          (if fraction = [] then minor = 0
            else Text.parseInt? 64 (Text.padRight fraction currency.exponent) = some minor) ∧
          ¬ (major.val < 0 ∨ (keptOf cell).head? = some '-') ∧ ∃ total,
            ((SInt.ofInt? (major.val * 10 ^ currency.exponent)).bind (·.checkedAdd minor)) =
              some total ∧ ⟨total, currency⟩ = price := by
    unfold parseMoney
    rw [show (cell.toList.filter fun c => c.isDigit || c = '.' || c = '-') = keptOf cell from rfl]
    simp only [hsplit, Except.ite_error_eq_ok, Except.bind_eq_ok, Except.okOr_eq_ok,
      List.isEmpty_iff, Nat.not_lt]
    by_cases hempty : fraction = []
    · simp only [hempty, if_true, Except.bind_eq_ok, Except.ite_error_eq_ok, Except.okOr_eq_ok,
        Except.ok.injEq, @eq_comm I64 0, ne_eq]
    · simp only [hempty, if_false, Except.bind_eq_ok, Except.ite_error_eq_ok, Except.okOr_eq_ok,
        Except.ok.injEq, ne_eq]
  rw [hread]
  refine and_congr_right fun _ => and_congr_right fun _ => exists_congr fun major =>
    and_congr_right fun _ => exists_congr fun minor => and_congr_right fun _ => ?_
  simp only [SInt.ofInt?_bind_checkedAdd, not_or, Int.not_lt]
  constructor
  · intro h
    obtain ⟨⟨hmajor, hhead⟩, total, ⟨⟨-, hfits⟩, htotal⟩, rfl⟩ := h
    exact ⟨hmajor, hhead, hfits, rfl, htotal⟩
  · intro h
    obtain ⟨hmajor, hhead, hfits, hcurrency, hprice⟩ := h
    have hscaled : 0 ≤ major.val * 10 ^ currency.exponent := mul_nonneg hmajor (by positivity)
    have hlow : -2 ^ (64 - 1) ≤ major.val * 10 ^ currency.exponent := by omega
    exact ⟨⟨hmajor, hhead⟩, price.minor, ⟨⟨hlow, hfits⟩, hprice⟩, by rw [← hcurrency]⟩

theorem plus_not_mem_keptOf : '+' ∉ keptOf cell := by
  intro h
  exact absurd (List.mem_filter.mp h).2 (by decide)

/-- A price that is read is the amount its cell denotes, unless the cell slips. -/
theorem parseMoney_denotes (h : parseMoney cell currency = .ok price)
    (hslips : ¬ Slips currency cell) : price.currency = currency ∧
      ∃ amount, Decimal.Denotes currency.exponent (keptOf cell) amount ∧
        price.minor.val = amount := by
  obtain ⟨whole, fraction, hsplit⟩ : ∃ whole fraction,
      Text.splitOnce '.' (keptOf cell) = (whole, fraction) := ⟨_, _, rfl⟩
  obtain ⟨hkept, hlength, major, hmajor, minor, hminor, hsign, hhead, hfits, hcurrency, hprice⟩ :=
    (parseMoney_eq_ok hsplit).mp h
  have hparts := Decimal.splitOnce_parts hsplit
  have hmem : ∀ c, c ∈ whole ∨ c ∈ fraction → c ∈ keptOf cell := by
    intro c hc
    rcases hparts with hs | ⟨hs, hnone⟩
    · rcases hc with hc | hc <;> simp [hs, hc]
    · rcases hc with hc | hc
      · simpa [hs] using hc
      · simp [hnone] at hc
  -- whole units under a minus would put it in front of the cell
  have hwhole : Text.digits? whole = some (Decimal.valueOf whole) ∧
      major.val = Decimal.valueOf whole := by
    have hplus : '+' ∉ whole := fun hc => plus_not_mem_keptOf (hmem _ (.inl hc))
    rcases (Decimal.parseInt?_eq_some_iff hplus).mp hmajor with
      ⟨k, hk, hval⟩ | ⟨rest, k, hminus, -⟩
    · have hk' := (Decimal.digits?_eq_some_iff.mp hk).2.2
      exact ⟨hk' ▸ hk, hk' ▸ hval⟩
    · refine absurd ?_ hhead
      rcases hparts with hs | ⟨hs, -⟩ <;> simp [hs, hminus]
  obtain ⟨hne, hdigits, -⟩ := Decimal.digits?_eq_some_iff.mp hwhole.1
  have hfraction : (∀ c ∈ fraction, c.isDigit = true) ∧
      minor.val = Decimal.valueOf (Text.padRight fraction currency.exponent) := by
    by_cases hempty : fraction = []
    · rw [if_pos hempty] at hminor
      rw [hminor, hempty, Decimal.valueOf_padRight]
      exact ⟨fun c hc => absurd hc List.not_mem_nil, by simp [Decimal.valueOf]⟩
    · rw [if_neg hempty] at hminor
      have hplus : '+' ∉ Text.padRight fraction currency.exponent := by
        intro hc
        rcases List.mem_append.mp hc with hc | hc
        · exact plus_not_mem_keptOf (hmem _ (.inr hc))
        · exact absurd (List.eq_of_mem_replicate hc) (by decide)
      rcases (Decimal.parseInt?_eq_some_iff hplus).mp hminor with
        ⟨k, hk, hval⟩ | ⟨rest, k, hminus, hk, -⟩
      · obtain ⟨-, hpadded, rfl⟩ := Decimal.digits?_eq_some_iff.mp hk
        exact ⟨fun c hc => hpadded c (List.mem_append_left _ hc), hval⟩
      · -- the sign of the fraction: what the cell slips by
        obtain ⟨-, hrest, -⟩ := Decimal.digits?_eq_some_iff.mp hk
        obtain ⟨c, tail, rfl⟩ := List.exists_cons_of_ne_nil hempty
        obtain ⟨rfl, hpadded⟩ := List.cons.inj hminus
        have hs := hparts.resolve_right fun h => absurd h.2 (by simp)
        refine absurd ⟨whole, tail, hs, hne, ?_, hlength, ?_⟩ hslips
        · intro c hc
          rcases List.mem_append.mp hc with hc | hc
          · exact hdigits c hc
          · exact hrest c (hpadded ▸ List.mem_append_left _ hc)
        · rw [hwhole.2] at hfits
          exact_mod_cast hfits
  refine ⟨hcurrency, _, Decimal.denotes_parts hparts hne hdigits hfraction.1 hlength, ?_⟩
  rw [hprice, hwhole.2, hfraction.2]
  push_cast
  rfl

/-- The fraction of a cell that slips is parsed for its sign. -/
theorem parse_signed {rest : List Char} (hdigits : ∀ c ∈ rest, c.isDigit = true)
    (hlength : rest.length + 1 ≤ currency.exponent) :
    ∃ minor : I64, Text.parseInt? 64 (Text.padRight ('-' :: rest) currency.exponent) = some minor ∧
      -10 < minor.val ∧ minor.val ≤ 0 := by
  have hexponent : currency.exponent = 1 + 1 := by cases currency <;> rfl
  have hpadded := @Decimal.isDigit_of_mem_padRight rest 1 hdigits
  have hone : (Text.padRight rest 1).length = 1 := Decimal.length_padRight (by omega)
  have hsmall := Decimal.valueOf_lt hpadded
  rw [hone] at hsmall
  obtain ⟨minor, hminor, hval⟩ := @Decimal.parseInt?_minus 64 (Text.padRight rest 1)
    (List.ne_nil_of_length_pos (by omega)) hpadded (by omega)
  rw [hexponent, Decimal.padRight_cons]
  exact ⟨minor, hminor, by omega, by omega⟩

/-- A cell that slips is read for a price. -/
theorem Slips.parseMoney_isOkay (h : Slips currency cell) : (parseMoney cell currency).isOkay := by
  obtain ⟨whole, rest, hkept, hne, hdigits, hlength, hfits⟩ := h
  have hwhole : ∀ c ∈ whole, c.isDigit = true := fun c hc => hdigits c (List.mem_append_left _ hc)
  have hsplit : Text.splitOnce '.' (keptOf cell) = (whole, '-' :: rest) := by
    rw [hkept, Decimal.splitOnce_digits hwhole]
  have hsmall : Decimal.valueOf whole < 2 ^ 63 :=
    Nat.lt_of_le_of_lt (Nat.le_mul_of_pos_right _ (by positivity)) hfits
  -- the whole units, and the fraction under its sign
  obtain ⟨major, hmajor, hval⟩ := @Decimal.parseInt?_digits 64 whole hne hwhole
    (by exact_mod_cast hsmall)
  obtain ⟨minor, hminor, hlow, hhigh⟩ :=
    parse_signed (fun c hc => hdigits c (List.mem_append_right _ hc)) hlength
  have hscaled : major.val * 10 ^ currency.exponent < 2 ^ 63 := by
    rw [hval]
    exact_mod_cast hfits
  have hpositive : 0 ≤ major.val * 10 ^ currency.exponent := by
    rw [hval]
    positivity
  obtain ⟨total, -, htotal⟩ := @SInt.ofInt?_of_fits 64
    (major.val * 10 ^ currency.exponent + minor.val) ⟨by omega, by omega⟩
  have hhead : (keptOf cell).head? ≠ some '-' := by
    obtain ⟨c, tail, rfl⟩ := List.exists_cons_of_ne_nil hne
    have hc := hwhole c List.mem_cons_self
    intro h
    simp only [hkept, List.cons_append, List.head?_cons, Option.some.injEq] at h
    exact absurd hc (h ▸ by decide)
  refine Except.isOkay_iff.mpr ⟨⟨total, currency⟩, (parseMoney_eq_ok hsplit).mpr ⟨by simp [hkept],
    hlength, major, hmajor, minor, ?_, by omega, hhead, hscaled, rfl, htotal⟩⟩
  rw [if_neg (by simp)]
  exact hminor

end Cell

/-! ## Section 2: A file's prices -/

/-- A file whose rows are read in their order: a product costs the amount its price cell denotes,
    which is never negative, and a row whose cell denotes none is a problem. -/
structure Import.Sane (contents : Import) (text : String) (delimiter : Char) (currency : Currency)
    (defaultVat : I32) : Prop where
  rows : contents.Tells ((countedLines text).map
    (readLine (headerOf text delimiter) currency defaultVat delimiter))
  prices : ∀ row ∈ countedLines text, ∀ product,
    readLine (headerOf text delimiter) currency defaultVat delimiter row = .ok product →
      0 ≤ product.price.minor.val ∧ product.price.currency = currency ∧
        ∃ amount, Decimal.Denotes currency.exponent
          (keptOf (priceCell (headerOf text delimiter) delimiter row.1)) amount ∧
            product.price.minor.val = amount
  reported : ∀ row ∈ countedLines text,
    (∀ amount, ¬ Decimal.Denotes currency.exponent
      (keptOf (priceCell (headerOf text delimiter) delimiter row.1)) amount) →
    ∃ problem ∈ contents.problems, problem.line = row.2

section File

variable {text : String} {currency : Currency} {defaultVat : I32} {delimiter : Char}
  {contents : Import}

/-- The prices of a file are sane exactly where no legible row has a price cell that slips. -/
theorem fromDelimited_sane_iff
    (h : fromDelimited text delimiter currency defaultVat = .ok contents) :
    contents.Sane text delimiter currency defaultVat ↔
      ∀ row ∈ countedLines text, Legible (headerOf text delimiter) delimiter row.1 →
        ¬ Slips currency (priceCell (headerOf text delimiter) delimiter row.1) := by
  have htells := fromDelimited_tells h
  constructor
  · intro hsane row hrow hlegible hslips
    obtain ⟨price, hprice⟩ := Except.isOkay_iff.mp hslips.parseMoney_isOkay
    obtain ⟨product, hproduct, -⟩ := readLine_price.mpr ⟨hlegible, hprice⟩
    -- the row is a product, yet the only row of its number would have to be a problem
    obtain ⟨problem, hproblem, hline⟩ := hsane.reported row hrow hslips.not_denotes
    rw [htells.problems] at hproblem
    obtain ⟨outcome, houtcome, hfound⟩ := List.mem_filterMap.mp hproblem
    obtain ⟨other, hother, rfl⟩ := List.mem_map.mp houtcome
    have hrefused := problem?_eq_some.mp hfound
    have hsame : other = row :=
      countedLines_unique hother hrow ((readRow_line hrefused).symm.trans hline)
    rw [hsame, hproduct] at hrefused
    cases hrefused
  · intro hclear
    have hdenotes : ∀ row ∈ countedLines text, ∀ product,
        readLine (headerOf text delimiter) currency defaultVat delimiter row = .ok product →
          product.price.currency = currency ∧ ∃ amount, Decimal.Denotes currency.exponent
            (keptOf (priceCell (headerOf text delimiter) delimiter row.1)) amount ∧
              product.price.minor.val = amount := by
      intro row hrow product hproduct
      obtain ⟨hlegible, hprice⟩ := readLine_price.mp ⟨product, hproduct, rfl⟩
      exact parseMoney_denotes hprice (hclear row hrow hlegible)
    refine ⟨htells, ?_, ?_⟩
    · intro row hrow product hproduct
      obtain ⟨hcurrency, amount, hamount, hprice⟩ := hdenotes row hrow product hproduct
      exact ⟨hprice ▸ Int.natCast_nonneg amount, hcurrency, amount, hamount, hprice⟩
    · intro row hrow hnone
      cases hread : readLine (headerOf text delimiter) currency defaultVat delimiter row with
      | ok product =>
        obtain ⟨-, amount, hamount, -⟩ := hdenotes row hrow product hread
        exact absurd hamount (hnone amount)
      | error problem =>
        refine ⟨problem, ?_, readRow_line hread⟩
        rw [htells.problems]
        exact List.mem_filterMap.mpr ⟨_, List.mem_map_of_mem hrow, problem?_eq_some.mpr hread⟩

end File

/-! ## Section 3: Two files -/

/-- A file with a minus after the points of its prices. -/
def slippedFile : String := "Name,Price\nRice,12.-5\nSalt,0.-5"

/-- The rice is read for five less than twelve, and the salt for less than nothing. -/
theorem slippedFile_negative : ∃ contents, readFile slippedFile = .ok contents ∧
    contents.products.map (·.price.minor.val) = [1195, -5] ∧ contents.problems = [] ∧
      ¬ contents.Sane slippedFile ',' .bdt (I32.lit 1500) := by
  have hread : (readFile slippedFile).toOption.any (fun contents =>
      contents.products.map (·.price.minor.val) = [1195, -5] ∧ contents.problems = []) = true := by
    decide +kernel
  have hsalt : (readLine (headerOf slippedFile ',') .bdt (I32.lit 1500) ','
      ("Salt,0.-5", 3)).toOption.any (·.price.minor.val < 0) = true := by
    decide +kernel
  obtain ⟨contents, hcontents, hprices⟩ := (Option.any_eq_true _ _).mp hread
  obtain ⟨product, hproduct, hnegative⟩ := (Option.any_eq_true _ _).mp hsalt
  obtain ⟨hprices, hproblems⟩ := of_decide_eq_true hprices
  refine ⟨contents, Except.toOption_eq_some.mp hcontents, hprices, hproblems, ?_⟩
  intro h
  have hrow : ("Salt,0.-5", 3) ∈ countedLines slippedFile := by decide +kernel
  obtain ⟨hpositive, -⟩ := h.prices _ hrow product (Except.toOption_eq_some.mp hproduct)
  have hnegative : product.price.minor.val < 0 := of_decide_eq_true hnegative
  omega

/-- Where no price has a minus, the prices are those that are written. -/
theorem plainFile_sane : ∃ contents, readFile plainFile = .ok contents ∧
    contents.Sane plainFile ',' .bdt (I32.lit 1500) := by
  have hread : (readFile plainFile).toOption.isSome = true := by decide +kernel
  obtain ⟨contents, hcontents⟩ := Option.isSome_iff_exists.mp hread
  have hcontents : readFile plainFile = .ok contents := Except.toOption_eq_some.mp hcontents
  have hunsigned : ∀ row ∈ countedLines plainFile,
      '-' ∉ keptOf (priceCell (headerOf plainFile ',') ',' row.1) := by
    decide +kernel
  refine ⟨contents, hcontents, (fromDelimited_sane_iff hcontents).mpr ?_⟩
  intro row hrow _ hslips
  obtain ⟨whole, rest, hkept, -⟩ := hslips
  exact hunsigned row hrow (by simp [hkept])

end Sahl
