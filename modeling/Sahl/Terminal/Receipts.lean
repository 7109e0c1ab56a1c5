import Mathlib.Tactic
import Sahl.Escpos.Document
import Sahl.Terminal.Views

/-! # The receipt of a sale

    A receipt sets the lines of a sale beside the figures of the engine. Its totals come from the
    engine; what it shows for an active line is the unit price alone, without the options on the
    line and without its quantity.

    The main result is `receipt_addsUp_iff`: when such a receipt adds up. -/

namespace Sahl

open Escpos (ReceiptData ReceiptLine ReceiptTaxGroup)

/-! ## Section 1: Texts -/

/-- The hyphenated form of an identifier. -/
def Uuid.text (id : Uuid) : String :=
  let digits := Decimal.padLeft 32 (Nat.toDigits 16 id.bits.val)
  String.ofList (digits.take 8 ++ '-' :: (digits.drop 8).take 4 ++ '-' :: (digits.drop 12).take 4 ++
    '-' :: (digits.drop 16).take 4 ++ '-' :: digits.drop 20)

/-- A rate as a percentage. -/
def Rate.text (rate : Rate) : String :=
  let whole := Escpos.integer (rate.basisPoints.val.tdiv 100)
  let hundredths := (rate.basisPoints.val.tmod 100).natAbs
  String.ofList <|
    if hundredths = 0 then whole ++ ['%']
    else if hundredths % 10 = 0 then whole ++ '.' :: Decimal.digits (hundredths / 10) ++ ['%']
    else whole ++ '.' :: Decimal.padLeft 2 (Decimal.digits hundredths) ++ ['%']

def tenderLabel : TenderMethod → String
  | .cash => "Cash"
  | .card => "Card"
  | .mobileWallet .bkash => "Bkash"
  | .mobileWallet .nagad => "Nagad"
  | .mobileWallet .rocket => "Rocket"
  | .mobileWallet .upay => "Upay"
  | .mobileWallet .stcPay => "StcPay"
  | .bankTransfer => "Bank transfer"
  | .storeCredit => "Store credit"

/-- How a VAT class prints: zero-rated and exempt are named, not shown as no percentage. -/
def taxGroupLabel : TaxClass → String
  | .standard rate => "VAT " ++ rate.text
  | .zeroRated => "Zero-rated"
  | .exempt => "Exempt"

/-! ## Section 2: Building a receipt -/

/-- A line as it prints. A voided one prints at nothing, so that nobody adds it in. -/
def receiptLine (currency : Currency) (line : SaleLine) : ReceiptLine :=
  { name := line.name, quantity := line.quantity, unitPrice := line.unitPrice,
    total := if line.isActive then line.unitPrice else Money.zero currency,
    voided := ! line.isActive }

namespace Terminal

/-- Build the receipt of a sale. `printedAt` is formatted by the caller. -/
def receipt (base64 : Base64) (calendar : Fiscal.Calendar) (t : Terminal) (saleId : Uuid)
    (printedAt : String) : Except TerminalError ReceiptData := do
  let sale ← t.sale saleId
  let totals ← sale.totals.mapError TerminalError.sale
  .ok {
    shopName := t.outlet.elim "Sahl" (·.name)
    shopAddress := t.outlet.map (·.address)
    taxRegistration := t.outlet.bind (·.taxRegistration)
    -- the fiscal counter when there is one
    invoiceNumber := (t.invoiceSeal saleId).elim saleId.text (toString ·.counter)
    printedAt
    currencyLabel := totals.total.currency.code
    lines := sale.lines.map (receiptLine totals.total.currency)
    taxGroups := totals.taxGroups.map fun group =>
      { label := taxGroupLabel group.taxClass, taxableBase := group.taxableBase, tax := group.tax }
    discount := if totals.discount.isZero then none else some totals.discount
    net := totals.net
    tax := totals.tax
    total := totals.total
    tenders := sale.tenders.map fun tender => (tenderLabel tender.method, tender.amount)
    change := sale.changeDue.toOption.filter (! ·.isZero)
    footer := none
    -- from the document that would be issued, so that the two cannot state different totals
    qr := match t.fiscalDocument base64 calendar saleId with
      | .ok (.zatca document) => some document.qr
      | _ => none }

variable {base64 : Base64} {calendar : Fiscal.Calendar} {t : Terminal} {saleId : Uuid}
  {printedAt : String} {data : ReceiptData} {sale : Sale} {totals : OrderTotals}

/-- Where the figures of a receipt come from. -/
theorem receipt_eq_ok (hsale : t.sale saleId = .ok sale) (htotals : sale.totals = .ok totals)
    (h : t.receipt base64 calendar saleId printedAt = .ok data) :
    data.lines = sale.lines.map (receiptLine totals.total.currency) ∧
      data.discount = (if totals.discount.isZero then none else some totals.discount) ∧
      data.total = totals.total := by
  simp only [receipt, hsale, Except.bind_eq_ok, Except.mapError_eq_ok, Except.ok.injEq] at h
  obtain ⟨_, rfl, figures, hfigures, rfl⟩ := h
  rw [htotals] at hfigures
  cases hfigures
  exact ⟨rfl, rfl, rfl⟩

end Terminal

/-! ## Section 3: When it adds up -/

/-- A line that comes to its bare unit price, as one unit does whose options cancel out. -/
def SaleLine.WorthUnitPrice (rounding : Rounding) (line : SaleLine) : Prop :=
  line.gross rounding = .ok line.unitPrice

instance (rounding : Rounding) (line : SaleLine) : Decidable (line.WorthUnitPrice rounding) :=
  inferInstanceAs (Decidable (_ = _))

/-- The lines a receipt prints as sold. -/
def Escpos.ReceiptData.soldLines (data : ReceiptData) : List ReceiptLine :=
  data.lines.filter (! ·.voided)

/-- The sum of the line totals a receipt prints. -/
def Escpos.ReceiptData.lineSum (data : ReceiptData) : Int :=
  (data.lines.map (·.total.minor.val)).sum

/-- A receipt that adds up. -/
structure Escpos.ReceiptData.AddsUp (data : ReceiptData) (sale : Sale) (totals : OrderTotals) :
    Prop where
  /-- Every active line prints at what it comes to. -/
  line : List.Forall₂ (fun line printed => line.gross sale.rounding = .ok printed.total)
    sale.activeLines data.soldLines
  gross : data.lineSum = totals.gross.minor.val
  total : data.lineSum - (data.discount.elim 0 (·.minor.val)) = data.total.minor.val

variable {sale : Sale} {totals : OrderTotals}

/-- The gross of a sale is the sum of what its active lines come to. -/
theorem Sale.sum_gross (htotals : sale.totals = .ok totals) {printed : SaleLine → Money}
    (hprinted : ∀ line ∈ sale.activeLines, line.gross sale.rounding = .ok (printed line)) :
    (sale.activeLines.map fun line => (printed line).minor.val).sum = totals.gross.minor.val := by
  have hgross : sale.gross = .ok totals.gross := by rw [Sale.gross, htotals]
  obtain ⟨grosses, hgrosses, hsum⟩ := Sale.gross_eq_ok hgross
  have hpairs := (List.forall₂_and_left _ _).mpr ⟨fun _ h => h, mapM_eq_ok.mp hgrosses⟩
  have hsame : grosses = sale.activeLines.map printed := by
    refine forall₂_eq_map hpairs ?_
    intro line gross ⟨hline, hgross⟩
    exact Except.ok.inj (hgross.symm.trans (hprinted line hline))
  rw [hsum, hsame, List.map_map]
  rfl

/-- The lines a receipt prints as sold are the active ones, in order. -/
theorem soldLines_receiptLine (currency : Currency) (lines : List SaleLine) :
    (lines.map (receiptLine currency)).filter (! ·.voided) =
      (lines.filter (·.isActive)).map (receiptLine currency) := by
  rw [List.filter_map]
  refine congrArg _ (List.filter_congr fun line _ => ?_)
  simp [receiptLine]

/-- A voided line adds nothing to what is printed. -/
theorem lineSum_receiptLine (currency : Currency) (lines : List SaleLine) :
    ((lines.map (receiptLine currency)).map (·.total.minor.val)).sum =
      ((lines.filter (·.isActive)).map (·.unitPrice.minor.val)).sum := by
  induction lines with
  | nil => rfl
  | cons line rest ih =>
    rw [List.map_cons, List.map_cons, List.sum_cons, ih]
    by_cases hactive : line.isActive = true
    · rw [List.filter_cons_of_pos hactive, List.map_cons, List.sum_cons]
      simp [receiptLine, hactive]
    · rw [List.filter_cons_of_neg hactive]
      simp [receiptLine, hactive, Money.zero]

namespace Terminal

variable {base64 : Base64} {calendar : Fiscal.Calendar} {t : Terminal} {saleId : Uuid}
  {printedAt : String} {data : ReceiptData}

/-- **When a receipt adds up**: the receipt of a tax-inclusive sale does exactly where every
    active line comes to its bare unit price. -/
theorem receipt_addsUp_iff (hsale : t.sale saleId = .ok sale)
    (hinclusive : sale.pricingMode = .taxInclusive) (htotals : sale.totals = .ok totals)
    (h : t.receipt base64 calendar saleId printedAt = .ok data) :
    data.AddsUp sale totals ↔ ∀ line ∈ sale.activeLines, line.WorthUnitPrice sale.rounding := by
  obtain ⟨hlines, hdiscount, htotal⟩ := receipt_eq_ok hsale htotals h
  have hsold : data.soldLines = sale.activeLines.map (receiptLine totals.total.currency) := by
    rw [Escpos.ReceiptData.soldLines, hlines, soldLines_receiptLine]
    rfl
  have hsum : data.lineSum = (sale.activeLines.map (·.unitPrice.minor.val)).sum := by
    rw [Escpos.ReceiptData.lineSum, hlines, lineSum_receiptLine]
    rfl
  have hprinted : ∀ line ∈ sale.activeLines,
      (receiptLine totals.total.currency line).total = line.unitPrice := by
    intro line hline
    exact if_pos (List.mem_filter.mp hline).2
  constructor
  · intro hadds line hline
    have heach := hadds.line
    rw [hsold, List.forall₂_map_right_iff, List.forall₂_same] at heach
    rw [SaleLine.WorthUnitPrice, heach line hline, hprinted line hline]
  · intro hworth
    have hgross : data.lineSum = totals.gross.minor.val :=
      hsum.trans (Sale.sum_gross htotals hworth)
    refine ⟨?_, hgross, ?_⟩
    · rw [hsold, List.forall₂_map_right_iff, List.forall₂_same]
      intro line hline
      rw [hprinted line hline]
      exact hworth line hline
    · -- what is printed as the discount is the discount of the engine, or nothing at all
      obtain ⟨_, _, hcalculate⟩ := Sale.totals_eq_ok htotals
      have hengine := (Money.checkedSub_eq_ok.mp
        ((exact_of_calculate hcalculate).inclusive hinclusive)).2.2
      have hshown : data.discount.elim 0 (·.minor.val) = totals.discount.minor.val := by
        rw [hdiscount]
        by_cases hzero : totals.discount.isZero = true
        · rw [if_pos hzero]
          simpa [Money.isZero, eq_comm] using hzero
        · rw [if_neg hzero]
          rfl
      rw [hgross, hshown, htotal, hengine]

/-! ### Bags at the counter -/

/-- A till that sold some bags of 300 for cash. -/
def soldBags (quantity : Quantity) (paid : Money) : Terminal :=
  till3.performAll plainDigests
    [(true, instant 0, .record openSale 100),
     (true, instant 1, .record (.lineAdded 20 11 12 "Bag" ⟨I64.lit 300, .bdt⟩ quantity
       (.standard ⟨I32.lit 1500⟩) []) 101),
     (true, instant 2, .record (.tenderRecorded 20 13 .cash paid none) 102),
     (true, instant 3, .completeSale (.completed 20 paid (Money.zero .bdt) (instant 3)) "vat" 7
       103 104)]

theorem soldBags_reachable (quantity : Quantity) (paid : Money) :
    Transition.Reachable Fresh (step plainDigests) (soldBags quantity paid) :=
  performAll_run _ (.init ⟨_, rfl⟩)

/-- A till that sold a latte, with oat milk in the customer's own cup, after a bag was struck
    off. -/
def soldLatte : Terminal :=
  till3.performAll plainDigests
    [(true, instant 0, .record openSale 100),
     (true, instant 1, .record (.lineAdded 20 11 12 "Bag" ⟨I64.lit 300, .bdt⟩ ⟨I64.lit 2000⟩
       (.standard ⟨I32.lit 1500⟩) []) 101),
     (true, instant 2, .record (.lineAdded 20 14 15 "Latte" ⟨I64.lit 250, .bdt⟩ Quantity.one
       (.standard ⟨I32.lit 1500⟩) [⟨16, "Oat milk", ⟨I64.lit 50, .bdt⟩⟩,
         ⟨17, "Own cup", ⟨I64.lit (-50), .bdt⟩⟩]) 102),
     (true, instant 3, .record (.lineVoided 20 11 .mistake 7) 103),
     (true, instant 4, .record (.tenderRecorded 20 13 .cash ⟨I64.lit 250, .bdt⟩ none) 104),
     (true, instant 5, .completeSale (.completed 20 ⟨I64.lit 250, .bdt⟩ (Money.zero .bdt)
       (instant 5)) "vat" 7 105 106)]

/-- The receipt of the latte prints the bag at nothing, and adds up. -/
theorem receipt_addsUp_latte :
    ∃ sale totals data, soldLatte.sale 20 = .ok sale ∧
      soldLatte.receipt Base64.standard Fiscal.Zatca.april 20 "29 Jul 2026, 21:15" = .ok data ∧
        data.lines.map (fun line => (line.name, line.voided, line.total.minor.val)) =
          [("Bag", true, 0), ("Latte", false, 250)] ∧ data.AddsUp sale totals := by
  obtain ⟨sale, hsale⟩ :=
    Except.isOkay_iff.mp (show (soldLatte.sale 20).isOkay = true by decide +kernel)
  have hokay : (soldLatte.sale 20).toOption.all (fun sale => sale.totals.isOkay ∧
      sale.pricingMode = .taxInclusive ∧
        (sale.lines.map (receiptLine .bdt)).map
            (fun line => (line.name, line.voided, line.total.minor.val)) =
          [("Bag", true, 0), ("Latte", false, 250)] ∧
        (sale.totals.toOption.map (·.total.currency)) = some .bdt ∧
        ∀ line ∈ sale.activeLines, line.WorthUnitPrice sale.rounding) = true := by decide +kernel
  rw [hsale] at hokay
  obtain ⟨htotals, hinclusive, hprinted, hcurrency, hworth⟩ := of_decide_eq_true hokay
  obtain ⟨totals, htotals⟩ := Except.isOkay_iff.mp htotals
  rw [htotals] at hcurrency
  obtain ⟨data, hdata⟩ := Except.isOkay_iff.mp (show (soldLatte.receipt Base64.standard
    Fiscal.Zatca.april 20 "29 Jul 2026, 21:15").isOkay = true by decide +kernel)
  obtain ⟨hlines, -, -⟩ := receipt_eq_ok hsale htotals hdata
  rw [← Option.some.inj hcurrency, ← hlines] at hprinted
  exact ⟨sale, totals, data, hsale, hdata, hprinted,
    (receipt_addsUp_iff hsale hinclusive htotals hdata).mpr hworth⟩

/-- Two bags come to 600; the receipt prints 300 beside them. -/
theorem twoBags_misprinted : ¬ ∀ (digests : Digests) (base64 : Base64)
    (calendar : Fiscal.Calendar) (t : Terminal) (saleId : Uuid) (printedAt : String)
    (sale : Sale) (totals : OrderTotals) (data : ReceiptData),
    Transition.Reachable Fresh (step digests) t → t.sale saleId = .ok sale →
      sale.status = .completed → sale.pricingMode = .taxInclusive → sale.totals = .ok totals →
        t.receipt base64 calendar saleId printedAt = .ok data → data.AddsUp sale totals := by
  intro hclaim
  set t := soldBags ⟨I64.lit 2000⟩ ⟨I64.lit 600, .bdt⟩ with ht
  obtain ⟨sale, hsale⟩ := Except.isOkay_iff.mp (show (t.sale 20).isOkay = true by decide +kernel)
  -- the bill of two kilograms at 300 comes to 600, and its one price is 300
  have hokay : (t.sale 20).toOption.all (fun sale => sale.totals.isOkay ∧
      sale.status = .completed ∧ sale.pricingMode = .taxInclusive ∧
        (sale.totals.toOption.map (·.gross.minor.val)) = some 600 ∧
          (sale.activeLines.map (·.unitPrice.minor.val)).sum = 300) = true := by
    decide +kernel
  rw [hsale] at hokay
  obtain ⟨htotals, hstatus, hinclusive, hgross, hprices⟩ := of_decide_eq_true hokay
  obtain ⟨totals, htotals⟩ := Except.isOkay_iff.mp htotals
  rw [htotals] at hgross
  obtain ⟨data, hdata⟩ := Except.isOkay_iff.mp (show (t.receipt Base64.standard Fiscal.Zatca.april
    20 "29 Jul 2026, 21:15").isOkay = true by decide +kernel)
  have hadds := hclaim plainDigests _ _ t 20 _ sale totals data (soldBags_reachable _ _) hsale
    hstatus hinclusive htotals hdata
  obtain ⟨hprinted, -, -⟩ := receipt_eq_ok hsale htotals hdata
  have hsum := hadds.gross
  rw [Escpos.ReceiptData.lineSum, hprinted, lineSum_receiptLine] at hsum
  have hgross : totals.gross.minor.val = 600 := Option.some.inj hgross
  rw [hgross] at hsum
  exact absurd (hsum.symm.trans hprices) (by decide)

end Terminal

end Sahl
