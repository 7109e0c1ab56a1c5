import Mathlib.Tactic
import Sahl.Lib.Decimal
import Sahl.Core.LowStock
import Sahl.Escpos.Receipt
import Sahl.Fiscal.Zatca

/-! # What is printed of a figure

    A row holds its amount (`columns_holds_iff`), the amount on paper is the one in the QR code
    (`amount_is_decimal`), and the three texts of a quantity are compared with the quantity
    (`quantities_state_iff`). -/

namespace Sahl.Escpos

/-! ## Section 1: Rows -/

/-- A row never wraps its amount: it fits the paper, and an amount that leaves room for more ends
    a full row, set apart by a space. -/
structure RowHolds (label amount : List Char) (width : ℕ) : Prop where
  fits : (columns label amount width).length ≤ width
  full : amount.length < width → (columns label amount width).length = width
  ends : amount.length < width → ∃ rest, columns label amount width = rest ++ ' ' :: amount

/-- An amount as wide as the paper is cut to it. -/
theorem columns_of_wide {label amount : List Char} {width : ℕ} (h : width ≤ amount.length) :
    columns label amount width = amount.take width := if_pos h

/-- A label that does not fit is cut before an ellipsis. -/
theorem columns_of_long {label amount : List Char} {width : ℕ} (h : amount.length < width)
    (hlabel : width - amount.length - 1 < label.length) : columns label amount width =
      label.take (width - amount.length - 1 - 1) ++ '…' :: ' ' :: amount := by
  simp only [columns]
  rw [if_neg (Nat.not_le.mpr h), if_pos hlabel]

/-- Between a label that fits and its amount there are spaces. -/
theorem columns_of_short {label amount : List Char} {width : ℕ} (h : amount.length < width)
    (hlabel : label.length ≤ width - amount.length - 1) : columns label amount width =
      label ++ List.replicate (width - label.length - amount.length) ' ' ++ amount := by
  simp only [columns]
  rw [if_neg (Nat.not_le.mpr h), if_neg (Nat.not_lt.mpr hlabel)]

/-- Beside a label that is cut, the ellipsis and a space are printed whatever room there is. -/
theorem length_columns_of_long {label amount : List Char} {width : ℕ}
    (h : amount.length < width) (hlabel : width - amount.length - 1 < label.length) :
    (columns label amount width).length = width - amount.length - 1 - 1 + (amount.length + 2) := by
  rw [columns_of_long h hlabel, List.length_append, List.length_take, List.length_cons,
    List.length_cons, min_eq_left (by omega)]

/-- A row holds its amount where that leaves room for nothing, or for more than one character, or
    where there is no label. -/
theorem row_holds {label amount : List Char} {width : ℕ}
    (hroom : label = [] ∨ amount.length + 1 ≠ width) : RowHolds label amount width := by
  -- the amount alone fills the row, or the label is cut, or spaces fill what is left
  by_cases hwide : width ≤ amount.length
  · have hrow : (columns label amount width).length = width := by
      rw [columns_of_wide hwide, List.length_take]
      omega
    exact ⟨hrow.le, fun _ => hrow, fun h => absurd hwide (Nat.not_le.mpr h)⟩
  rw [Nat.not_le] at hwide
  by_cases hlabel : width - amount.length - 1 < label.length
  · have hne : label ≠ [] := List.ne_nil_of_length_pos (by omega)
    have hmore := hroom.resolve_left hne
    have hlength := length_columns_of_long hwide hlabel
    refine ⟨by omega, fun _ => by omega, fun _ =>
      ⟨label.take (width - amount.length - 1 - 1) ++ ['…'], ?_⟩⟩
    rw [columns_of_long hwide hlabel, List.append_assoc, List.singleton_append]
  · rw [Nat.not_lt] at hlabel
    have hrow := columns_of_short hwide hlabel
    have hlength : (columns label amount width).length = width := by
      rw [hrow, List.length_append, List.length_append, List.length_replicate]
      omega
    obtain ⟨spaces, hspaces⟩ :=
      Nat.exists_eq_add_of_lt (show 0 < width - label.length - amount.length by omega)
    refine ⟨hlength.le, fun _ => hlength, fun _ => ⟨label ++ List.replicate spaces ' ', ?_⟩⟩
    rw [hrow, hspaces, Nat.zero_add, List.replicate_succ', ← List.append_assoc,
      List.append_assoc _ [' '], List.singleton_append]

/-- **Rows**: a row holds its amount if and only if there is no label, or the amount does not
    leave room for exactly one character. There the ellipsis and the space take two. -/
theorem columns_holds_iff (label amount : List Char) (width : ℕ) :
    RowHolds label amount width ↔ label = [] ∨ amount.length + 1 ≠ width := by
  constructor
  · intro h
    by_contra hcut
    obtain ⟨hlabel, hone⟩ := not_or.mp hcut
    have hpos := List.length_pos_of_ne_nil hlabel
    have hlength := @length_columns_of_long label amount width (by omega) (by omega)
    have hfits := h.fits
    omega
  · exact row_holds

/-- Two digits on three columns are printed on four. -/
theorem row_wraps : ¬ ∀ (label amount : List Char) (width : ℕ), 1 ≤ width →
    RowHolds label amount width := by
  intro hclaim
  have hfits := (hclaim ['x'] ['1', '2'] 3 (by decide)).fits
  exact absurd hfits (by decide)

/-! ## Section 2: Amounts -/

/-- The amount on paper, at any number of places. -/
def amountAt (exponent : ℕ) (minor : I64) : List Char :=
  let digits := Decimal.digits minor.unsignedAbs.val
  let padded := List.replicate (exponent + 1 - digits.length) '0' ++ digits
  let split := padded.length - exponent
  let sign := if minor.val < 0 then ['-'] else []
  if exponent = 0 then sign ++ padded.take split
  else sign ++ padded.take split ++ '.' :: padded.drop split

/-- The amount in the QR code, at any number of places. -/
def decimalAt (places : ℕ) (minor : I64) : List Char :=
  let sign := if minor.val < 0 then ['-'] else []
  let magnitude := minor.unsignedAbs.val
  let major := Decimal.digits (magnitude / 10 ^ places)
  let rest := magnitude % 10 ^ places
  if places = 0 then sign ++ major
  else sign ++ major ++ '.' :: Decimal.padLeft places (Decimal.digits rest)

theorem amount_eq (money : Money) :
    amount money = amountAt money.currency.exponent money.minor := by
  simp only [amount, amountAt, Money.isNegative, decide_eq_true_eq]

theorem decimal_eq (money : Money) : (Fiscal.Zatca.decimal money).toList =
    decimalAt money.currency.exponent money.minor := by
  simp only [Fiscal.Zatca.decimal, decimalAt, Money.isNegative, decide_eq_true_eq,
    Currency.minorPerMajor_eq]
  split <;> rw [String.toList_ofList]

theorem decimalAt_eq (places : ℕ) (minor : I64) :
    decimalAt places minor = Decimal.render places minor.val := by
  simp only [decimalAt, Decimal.render, I64.unsignedAbs]
  by_cases hplaces : places = 0
  · rw [if_pos hplaces, if_pos hplaces, List.append_nil]
  · rw [if_neg hplaces, if_neg hplaces]

/-- Padded to one digit more than there are places, the digits split at the point. -/
theorem amountAt_eq (exponent : ℕ) (minor : I64) :
    amountAt exponent minor = Decimal.render exponent minor.val := by
  have hpadded : List.replicate
      (exponent + 1 - (Decimal.digits minor.unsignedAbs.val).length) '0' ++
        Decimal.digits minor.unsignedAbs.val =
      Decimal.padLeft (exponent + 1) (Decimal.digits minor.val.natAbs) := rfl
  simp only [amountAt, Decimal.render, hpadded]
  by_cases hexponent : exponent = 0
  · have hone : Decimal.padLeft (0 + 1) (Decimal.digits minor.val.natAbs) =
        Decimal.digits minor.val.natAbs := by
      have hpos := List.length_pos_of_ne_nil (Decimal.digits_ne_nil minor.val.natAbs)
      rw [Decimal.padLeft, Nat.sub_eq_zero_of_le hpos, List.replicate_zero, List.nil_append]
    rw [if_pos hexponent, if_pos hexponent, hexponent, hone, Nat.sub_zero, List.take_length,
      Nat.pow_zero, Nat.div_one, List.append_nil]
  · have hplaces := Nat.pos_of_ne_zero hexponent
    have hfraction := Decimal.length_padLeft hplaces
      (Nat.mod_lt minor.val.natAbs (Nat.pow_pos (n := exponent) (by decide : 0 < 10)))
    rw [if_neg hexponent, if_neg hexponent, Decimal.padLeft_succ hplaces, List.length_append,
      hfraction, Nat.add_sub_cancel, List.take_left', List.drop_left'] <;> rfl

/-- **The paper and the QR code**: an amount is printed as it is encoded and read back for its
    minor units, and so it would be at any number of places. -/
theorem amount_is_decimal :
    (∀ money : Money, String.ofList (amount money) = Fiscal.Zatca.decimal money ∧
      Decimal.read money.currency.exponent (amount money) = some money.minor.val) ∧
    ∀ (exponent : ℕ) (minor : I64), amountAt exponent minor = decimalAt exponent minor ∧
      Decimal.read exponent (amountAt exponent minor) = some minor.val := by
  constructor
  · intro money
    have htext : amount money = (Fiscal.Zatca.decimal money).toList := by
      rw [amount_eq, decimal_eq, amountAt_eq, decimalAt_eq]
    rw [htext, String.ofList_toList]
    exact ⟨rfl, Fiscal.Zatca.read_decimal money⟩
  · intro exponent minor
    rw [amountAt_eq, decimalAt_eq]
    exact ⟨rfl, Decimal.read_render exponent minor.val⟩

example : String.ofList (amount ⟨I64.lit (-9223372036854775808), .sar⟩) =
    "-92233720368547758.08" := by decide +kernel

/-- The digits of an amount, its point and its sign come to 21 characters at most. -/
theorem length_amount_le (money : Money) : (amount money).length ≤ 21 := by
  have hexponent : money.currency.exponent = 2 := by cases money.currency <;> rfl
  have hlow := money.minor.lo
  have hhigh := money.minor.hi
  have hwhole : (Decimal.digits (money.minor.val.natAbs / 10 ^ 2)).length ≤ 17 :=
    (Nat.length_toDigits_le_iff (by decide) (by decide)).mpr (by omega)
  have hfraction := Decimal.length_padLeft (by decide : 0 < 2)
    (Nat.mod_lt money.minor.val.natAbs (by decide : 0 < 10 ^ 2))
  have hsign : (if money.minor.val < 0 then ['-'] else []).length ≤ 1 := by
    split <;> decide
  rw [amount_eq, amountAt_eq, hexponent, Decimal.render, if_neg (by decide : ¬ 2 = 0),
    List.length_append, List.length_append, List.length_cons, hfraction]
  omega

/-- So the rows of a receipt hold its amounts, on either paper and under any label. -/
theorem amount_row_holds (label : List Char) (money : Money) (paper : PaperWidth) :
    RowHolds label (amount money) paper.columns := by
  have hlength := length_amount_le money
  have hpaper : 32 ≤ paper.columns := by cases paper <;> decide
  exact row_holds (.inr (by omega))

/-! ## Section 3: Quantities -/

/-- On paper both parts are taken towards zero. -/
theorem thousandths_eq (milli : ℤ) : thousandths milli =
    Decimal.trimmed 3 (milli.tdiv 1000) (milli.tmod 1000).natAbs := by
  simp only [thousandths, Decimal.trimmed, integer, Decimal.render_zero, Int.natAbs_eq_zero]

/-- Towards zero the parts are those of the magnitude, and the sign is left to the whole one. -/
theorem parts_towards_zero (milli : ℤ) :
    (milli.tdiv 1000).natAbs * 10 ^ 3 + (milli.tmod 1000).natAbs = milli.natAbs ∧
      (milli.tmod 1000).natAbs < 10 ^ 3 ∧ (milli.tdiv 1000 < 0 ↔ milli ≤ -1000) := by
  by_cases hsign : 0 ≤ milli
  · rw [Int.tdiv_eq_ediv_of_nonneg hsign, Int.tmod_eq_emod_of_nonneg hsign]
    omega
  · have hwhole : milli.tdiv 1000 = -(-milli / 1000) := by
      rw [← Int.tdiv_eq_ediv_of_nonneg (by omega), Int.neg_tdiv, Int.neg_neg]
    have hfraction : milli.tmod 1000 = -(-milli % 1000) := by
      rw [← Int.tmod_eq_emod_of_nonneg (by omega), Int.neg_tmod, Int.neg_neg]
    rw [hwhole, hfraction]
    omega

/-- On paper a quantity loses its sign where it has no whole unit to carry it. -/
theorem thousandths_states_iff (milli : ℤ) :
    States (thousandths milli) milli ↔ milli ≤ -1000 ∨ 0 ≤ milli := by
  obtain ⟨hmagnitude, hfraction, hsign⟩ := parts_towards_zero milli
  obtain ⟨unsigned, hdenotes, htext⟩ :=
    Decimal.trimmed_denotes (by decide) (milli.tdiv 1000) hfraction
  rw [hmagnitude] at hdenotes
  rw [thousandths_eq, htext, states_signed _ hdenotes]
  split <;> omega

/-- A quantity is rendered as what it is: alike on the receipt, in the kitchen and to the owner,
    and to its thousandths. -/
structure RendersQuantity (value : Quantity) : Prop where
  kitchen : quantityLabel value = quantity value
  owner : Sahl.quantity value = quantity value
  states : States (quantity value) value.milli.val

/-- **Quantities**: a quantity is rendered as what it is if and only if it is not below zero by a
    part of a unit. The receipt drops the sign of half a unit, and the owner's text counts the
    fraction up from the whole unit below. -/
theorem quantities_state_iff (value : Quantity) :
    RendersQuantity value ↔ 0 ≤ value.milli.val ∨ (1000 : ℤ) ∣ value.milli.val := by
  constructor
  · intro h
    rw [← quantity_states_iff, h.owner]
    exact h.states
  · intro h
    have hwhole : value.milli.val.tdiv 1000 = value.milli.val / 1000 := by
      rcases h with h | h
      · exact Int.tdiv_eq_ediv_of_nonneg h
      · exact Int.tdiv_eq_ediv_of_dvd h
    have hfraction : (value.milli.val.tmod 1000).natAbs = (value.milli.val % 1000).toNat := by
      have hparts := Int.mul_tdiv_add_tmod value.milli.val 1000
      omega
    have howner : Sahl.quantity value = quantity value := by
      rw [quantity_eq, quantity, thousandths_eq, hwhole, hfraction]
    refine ⟨rfl, howner, ?_⟩
    rw [← howner, quantity_states_iff]
    exact h

/-- Half a unit short is half a unit on the receipt, and one and a half short to the owner. -/
theorem half_unit_short : ¬ ∀ value : Quantity, RendersQuantity value := by
  intro hclaim
  exact absurd (hclaim ⟨I64.lit (-500)⟩).owner (by decide +kernel)

end Sahl.Escpos
