import Mathlib.Tactic
import Sahl.Lib.Text
import Sahl.Core.Tax

/-! # Invoices, as the fiscal layer sees them

    A completed sale goes in, a document that a jurisdiction recognises comes out. The regimes
    share the invoice they start from, the checks of its texts and two figures of a line. -/

namespace Sahl.Fiscal

inductive FiscalError where
  | money (error : MoneyError)
  | missing (field document : String)
  | empty
  | invalid (message : String)
  deriving DecidableEq

/-- Who is issuing, as the jurisdiction has registered them. -/
structure Seller where
  name : String
  /-- Bangladesh: the BIN. Saudi: the VAT registration number. -/
  registration : String
  address : String
  deriving DecidableEq

/-- Who is buying, when the jurisdiction requires them named. -/
structure Buyer where
  name : Option String
  registration : Option String
  address : Option String
  deriving DecidableEq

/-- One line: what was sold, and how it is counted. -/
structure FiscalLine where
  description : String
  unit : String
  quantityMilli : I64
  deriving DecidableEq

/-- A completed sale, ready to become a document. -/
structure Invoice where
  saleId : Uuid
  sequence : U64
  issuedAt : Timestamp
  seller : Seller
  buyer : Buyer
  /-- Line descriptions, in the order of `totals.lines`. -/
  lines : List FiscalLine
  totals : OrderTotals
  destination : Option String
  deriving DecidableEq

/-- A text a document cannot be issued without. -/
def required (value : Option String) (field document : String) : Except FiscalError Unit :=
  if value.all Text.isBlank then .error (.missing field document) else .ok ()

/-- The net value of a line spread back over its quantity. -/
def perUnit (net : Money) (quantityMilli : I64) : Except MoneyError Money :=
  if quantityMilli = 0 then .ok (Money.zero net.currency)
  else net.mulRatio Quantity.milliPerUnit quantityMilli .halfUp

/-- The rate a document states; zero-rated and exempt both show a zero rate. -/
def rateOf : TaxClass → I32
  | .standard rate => rate.basisPoints
  | .zeroRated | .exempt => 0

/-- A text that is there and is not blank. -/
def Stated (value : Option String) : Prop := ∃ text, value = some text ∧ Text.isBlank text = false

theorem required_eq_ok {value : Option String} {field document : String} :
    required value field document = .ok () ↔ Stated value := by
  unfold required Stated
  cases value with
  | none => simp
  | some text => simp

/-- The stated rate is zero exactly where the engine charges none. -/
theorem rateOf_eq_zero {taxClass : TaxClass} : rateOf taxClass = 0 ↔ taxClass.rate.isZero := by
  cases taxClass with
  | standard rate =>
    show rate.basisPoints = 0 ↔ decide (rate.basisPoints.val = 0) = true
    rw [decide_eq_true_eq, SInt.ext_iff]
    rfl
  | zeroRated => simp [rateOf, TaxClass.rate, Rate.zero, Rate.isZero]
  | exempt => simp [rateOf, TaxClass.rate, Rate.zero, Rate.isZero]

end Sahl.Fiscal
