import Mathlib.Tactic
import Sahl.Lib.Decimal
import Sahl.Core.Money

/-! # Receipt layout

    Column arithmetic over a grid of characters of one width, and the texts of amounts and
    quantities. -/

namespace Sahl

/-- Paper width, in printable character columns at the default font. -/
inductive PaperWidth where
  | mm58
  | mm80
  deriving DecidableEq

def PaperWidth.columns : PaperWidth → ℕ
  | mm58 => 32
  | mm80 => 48

namespace Escpos

/-! ## Section 1: Texts -/

/-- A full-width rule. -/
def rule (width : ℕ) (character : Char) : List Char := List.replicate width character

/-- What is printed of a label beside an amount. -/
def printedLabel (label amount : List Char) (width : ℕ) : List Char :=
  let room := width - amount.length - 1
  if width ≤ amount.length then []
  else if room < label.length then label.take (room - 1)
  else label

/-- Label left, amount hard right. Truncates the label rather than wrapping the price. -/
def columns (label amount : List Char) (width : ℕ) : List Char :=
  let amountWidth := amount.length
  if width ≤ amountWidth then amount.take width
  else
    let room := width - amountWidth - 1
    let labelWidth := label.length
    if room < labelWidth then label.take (room - 1) ++ '…' :: ' ' :: amount
    else label ++ List.replicate (width - labelWidth - amountWidth) ' ' ++ amount

/-- Exact amount as a plain decimal. -/
def amount (money : Money) : List Char :=
  let exponent := money.currency.exponent
  let digits := Decimal.digits money.minor.unsignedAbs.val
  let padded := List.replicate (exponent + 1 - digits.length) '0' ++ digits
  let split := padded.length - exponent
  let sign := if money.isNegative then ['-'] else []
  if exponent = 0 then sign ++ padded.take split
  else sign ++ padded.take split ++ '.' :: padded.drop split

/-- An integer as it is displayed. -/
def integer (n : ℤ) : List Char :=
  (if n < 0 then ['-'] else []) ++ Decimal.digits n.natAbs

/-- Thousandths as a decimal with trailing zeros trimmed; division is towards zero. -/
def thousandths (milli : ℤ) : List Char :=
  if milli.tmod 1000 = 0 then integer (milli.tdiv 1000)
  else (integer (milli.tdiv 1000) ++
    '.' :: Decimal.padLeft 3 (Decimal.digits (milli.tmod 1000).natAbs)).rdropWhile (· = '0')

/-- A quantity on a receipt: whole units read as "2", not "2.000". -/
def quantity (value : Quantity) : List Char := thousandths value.milli.val

/-- A quantity as a cook reads it. -/
def quantityLabel (value : Quantity) : List Char := thousandths value.milli.val

/-! ## Section 2: Characters that print -/

/-- A character no printer takes for a control. -/
def Printable (c : Char) : Prop := c.toNat ≠ 0x1B ∧ c.toNat ≠ 0x1D

instance (c : Char) : Decidable (Printable c) := inferInstanceAs (Decidable (_ ∧ _))

/-- A text with no control in it. -/
def Inert (text : List Char) : Prop := ∀ c ∈ text, Printable c

instance (text : List Char) : Decidable (Inert text) := List.decidableBAll Printable text

theorem inert_append {a b : List Char} : Inert (a ++ b) ↔ Inert a ∧ Inert b := by
  unfold Inert
  exact List.forall_mem_append

theorem inert_cons {c : Char} {rest : List Char} :
    Inert (c :: rest) ↔ Printable c ∧ Inert rest := List.forall_mem_cons

theorem inert_nil : Inert [] := by simp [Inert]

theorem inert_replicate {n : ℕ} {c : Char} (h : Printable c) : Inert (List.replicate n c) := by
  intro d hd
  rw [List.eq_of_mem_replicate hd]
  exact h

theorem Inert.sublist {a b : List Char} (h : Inert b) (hsub : a.Sublist b) : Inert a :=
  fun c hc => h c (hsub.subset hc)

theorem inert_digits (n : ℕ) : Inert (Decimal.digits n) := by
  intro c hc
  have hdigit := Decimal.isDigit_of_mem_digits hc
  rw [Char.isDigit, Bool.and_eq_true, decide_eq_true_eq, decide_eq_true_eq] at hdigit
  have hlow : 48 ≤ c.toNat := hdigit.1
  constructor <;> omega

theorem inert_sign (negative : Prop) [Decidable negative] :
    Inert (if negative then ['-'] else []) := by
  by_cases h : negative
  · rw [if_pos h]
    decide
  · rw [if_neg h]
    exact inert_nil

theorem inert_rule {width : ℕ} {c : Char} (h : Printable c) : Inert (rule width c) :=
  inert_replicate h

theorem inert_amount (money : Money) : Inert (amount money) := by
  have hdigits : Inert (Decimal.digits money.minor.unsignedAbs.val) := inert_digits _
  have hpadded : Inert (List.replicate (money.currency.exponent + 1 -
      (Decimal.digits money.minor.unsignedAbs.val).length) '0' ++
      Decimal.digits money.minor.unsignedAbs.val) :=
    inert_append.mpr ⟨inert_replicate (by decide), hdigits⟩
  have hwhole := fun n => hpadded.sublist (List.take_sublist n _)
  have hfraction := fun n => hpadded.sublist (List.drop_sublist n _)
  simp only [amount]
  by_cases hexponent : money.currency.exponent = 0
  · rw [if_pos hexponent]
    exact inert_append.mpr ⟨inert_sign _, hwhole _⟩
  · rw [if_neg hexponent]
    exact inert_append.mpr ⟨inert_append.mpr ⟨inert_sign _, hwhole _⟩,
      inert_cons.mpr ⟨by decide, hfraction _⟩⟩

theorem inert_thousandths (milli : ℤ) : Inert (thousandths milli) := by
  have hinteger : ∀ n : ℤ, Inert (integer n) := by
    intro n
    exact inert_append.mpr ⟨inert_sign _, inert_digits _⟩
  unfold thousandths
  by_cases hwhole : milli.tmod 1000 = 0
  · rw [if_pos hwhole]
    exact hinteger _
  · rw [if_neg hwhole]
    refine Inert.sublist ?_ (List.rdropWhile_prefix _ _).sublist
    refine inert_append.mpr ⟨hinteger _, inert_cons.mpr ⟨by decide, ?_⟩⟩
    exact inert_append.mpr ⟨inert_replicate (by decide), inert_digits _⟩

theorem inert_printedLabel {label amount : List Char} {width : ℕ} (h : Inert label) :
    Inert (printedLabel label amount width) := by
  simp only [printedLabel]
  split
  · exact inert_nil
  · split
    · exact h.sublist (List.take_sublist _ _)
    · exact h

/-- Beside an amount, a label has no control exactly where the printed part of it has none. -/
theorem inert_columns {label amount : List Char} {width : ℕ} (hamount : Inert amount) :
    Inert (columns label amount width) ↔ Inert (printedLabel label amount width) := by
  simp only [columns, printedLabel]
  by_cases hwide : width ≤ amount.length
  · rw [if_pos hwide, if_pos hwide]
    exact iff_of_true (hamount.sublist (List.take_sublist _ _)) inert_nil
  · rw [if_neg hwide, if_neg hwide]
    by_cases hroom : width - amount.length - 1 < label.length
    · rw [if_pos hroom, if_pos hroom, inert_append, inert_cons, inert_cons]
      exact ⟨fun h => h.1, fun h => ⟨h, by decide, by decide, hamount⟩⟩
    · rw [if_neg hroom, if_neg hroom, inert_append, inert_append]
      exact ⟨fun h => h.1.1, fun h => ⟨⟨h, inert_replicate (by decide)⟩, hamount⟩⟩

end Escpos

end Sahl
