import Mathlib.Tactic
import Sahl.Core.Import
import Sahl.Core.Day
import Sahl.Core.Split
import Sahl.Core.Ringing
import Sahl.Fiscal.Regimes
import Sahl.Terminal.Commands

/-! # Where the figures of a sale are shown

    The sell screen, the tax document and the split of a bill each bring the lines of a sale and
    the figures of the engine together in a way of their own.

    The main result is `figures_stay`: all three pair a line with the figures calculated from it. -/

namespace Sahl

/-! ## Section 1: The sell screen -/

/-- An `i64` as a release build lets it run round the ends of its range. -/
def I64.wrapping (n : Int) : I64 :=
  ⟨n.bmod (2 ^ 64), by
    have := @Int.le_bmod n (2 ^ 64) (by norm_num)
    norm_num at this ⊢
    omega, by
    have := @Int.bmod_lt n (2 ^ 64) (by norm_num)
    norm_num at this ⊢
    omega⟩

/-- One option on a line. -/
structure LineModifierView where
  name : String
  priceDeltaMinor : I64
  deriving DecidableEq

/-- One line as the sell screen shows it. -/
structure LineView where
  id : Uuid
  name : String
  quantityMilli : I64
  unitPriceMinor : I64
  /-- What the line contributes to the total. -/
  totalMinor : I64
  taxMinor : I64
  /-- A voided line stays in the list, struck through. -/
  voided : Bool
  modifiers : List LineModifierView
  deriving DecidableEq

/-- A tax-summary row. -/
structure TaxGroupView where
  basisPoints : I32
  taxClass : String
  taxableBaseMinor : I64
  taxMinor : I64
  deriving DecidableEq

/-- A tender already taken against the sale. -/
structure TenderView where
  id : Uuid
  method : String
  amountMinor : I64
  deriving DecidableEq

/-- The whole sell screen. -/
structure SaleView where
  id : Uuid
  status : String
  currency : String
  lines : List LineView
  taxGroups : List TaxGroupView
  tenders : List TenderView
  grossMinor : I64
  discountMinor : I64
  netMinor : I64
  taxMinor : I64
  totalMinor : I64
  tenderedMinor : I64
  balanceDueMinor : I64
  changeDueMinor : I64
  voidCount : Nat
  needsDrawer : Bool
  deriving DecidableEq

/-- Whether any tender puts money in the drawer. -/
def Sale.needsDrawer (sale : Sale) : Bool := sale.tenders.any (·.method.affectsCashDrawer)

def modifiersOf (line : SaleLine) : List LineModifierView :=
  line.modifiers.map fun modifier => ⟨modifier.name, modifier.priceDelta.minor⟩

def emptyLine (line : SaleLine) : LineView :=
  { id := line.id, name := line.name, quantityMilli := line.quantity.milli,
    unitPriceMinor := line.unitPrice.minor, totalMinor := 0, taxMinor := 0,
    voided := ! line.isActive, modifiers := modifiersOf line }

/-- An active line with figures. -/
def figuredLine (line : SaleLine) (totals : LineTotals) : LineView :=
  { id := line.id, name := line.name, quantityMilli := line.quantity.milli,
    unitPriceMinor := line.unitPrice.minor, totalMinor := totals.total.minor,
    taxMinor := totals.tax.minor, voided := false, modifiers := modifiersOf line }

/-- The lines in order; an active one takes the next figures there are. -/
def lineViews : List SaleLine → List LineTotals → List LineView
  | [], _ => []
  | line :: rest, computed =>
    if line.isActive then
      match computed with
      | [] => emptyLine line :: lineViews rest []
      | totals :: computed => figuredLine line totals :: lineViews rest computed
    else emptyLine line :: lineViews rest computed

def methodLabel : TenderMethod → String
  | .cash => "cash"
  | .card => "card"
  | .mobileWallet .bkash => "bkash"
  | .mobileWallet .nagad => "nagad"
  | .mobileWallet .rocket => "rocket"
  | .mobileWallet .upay => "upay"
  | .mobileWallet .stcPay => "stcpay"
  | .bankTransfer => "bank_transfer"
  | .storeCredit => "store_credit"

def classLabel : TaxClass → String
  | .standard _ => "standard"
  | .zeroRated => "zero_rated"
  | .exempt => "exempt"

def tendersOf (sale : Sale) : List TenderView :=
  sale.tenders.map fun tender => ⟨tender.id, methodLabel tender.method, tender.amount.minor⟩

/-- Build the view for a sale. One without totals is shown all the same, at nothing. -/
def SaleView.of (sale : Sale) : Except SaleError SaleView :=
  match sale.totals with
  | .error _ =>
    .ok { id := sale.id, status := sale.status.label, currency := sale.currency.code,
          lines := sale.lines.map emptyLine, taxGroups := [], tenders := tendersOf sale,
          grossMinor := 0, discountMinor := 0, netMinor := 0, taxMinor := 0, totalMinor := 0,
          tenderedMinor := I64.wrapping (sale.tenders.map (·.amount.minor.val)).sum,
          balanceDueMinor := 0, changeDueMinor := 0, voidCount := sale.voidCount,
          needsDrawer := sale.needsDrawer }
  | .ok totals =>
    .ok { id := sale.id, status := sale.status.label, currency := sale.currency.code,
          lines := lineViews sale.lines totals.lines,
          taxGroups := totals.taxGroups.map fun group =>
            { basisPoints := group.taxClass.rate.basisPoints, taxClass := classLabel group.taxClass,
              taxableBaseMinor := group.taxableBase.minor, taxMinor := group.tax.minor },
          tenders := tendersOf sale, grossMinor := totals.gross.minor,
          discountMinor := totals.discount.minor, netMinor := totals.net.minor,
          taxMinor := totals.tax.minor, totalMinor := totals.total.minor,
          tenderedMinor := (sale.tendered.toOption.map (·.minor)).getD 0,
          balanceDueMinor := (sale.balanceDue.toOption.map (·.minor)).getD 0,
          changeDueMinor := (sale.changeDue.toOption.map (·.minor)).getD 0,
          voidCount := sale.voidCount, needsDrawer := sale.needsDrawer }

/-! ## Section 2: The tax document -/

/-- Why a sale has no document. -/
inductive DocumentError where
  | terminal (error : TerminalError)
  | notInvoiced (saleId : Uuid)
  | sale (error : SaleError)
  | fiscal (error : Fiscal.FiscalError)
  deriving DecidableEq

namespace Terminal

/-- The seal a sale was invoiced under. -/
def invoiceSeal (t : Terminal) (saleId : Uuid) : Option InvoiceSeal :=
  t.store.loadAll.findSome? fun e =>
    if e.kind ≠ "fiscal.invoice_issued" then none
    else match e.payload with
      | .known (.fiscal (.invoiceIssued invoice ..)) =>
        if invoice.saleId = saleId then some invoice else none
      | _ => none

/-- A line as a document describes it; a product never seen here is counted in pieces. -/
def fiscalLine (t : Terminal) (line : SaleLine) : Fiscal.FiscalLine :=
  { description := line.name,
    unit := (t.catalogue.get line.productId).elim "pcs" (·.unit.label),
    quantityMilli := line.quantity.milli }

/-- The invoice of a sale; a counter is a `u64`. -/
def fiscalInvoice (t : Terminal) (sale : Sale) (invoice : InvoiceSeal) (outlet : OutletConfig)
    (totals : OrderTotals) : Fiscal.Invoice :=
  { saleId := sale.id, sequence := Fin.ofNat (2 ^ 64) invoice.counter,
    issuedAt := invoice.issuedAt,
    seller := { name := outlet.name, registration := outlet.taxRegistration.getD "",
                address := outlet.address },
    buyer := { name := none, registration := none, address := none },
    lines := sale.activeLines.map t.fiscalLine, totals, destination := none }

/-- Rebuild the fiscal document for a completed sale. -/
def fiscalDocument (base64 : Base64) (calendar : Fiscal.Calendar) (t : Terminal) (saleId : Uuid) :
    Except DocumentError Fiscal.Document := do
  let sale ← (t.sale saleId).mapError DocumentError.terminal
  let invoice ← Except.okOr (t.invoiceSeal saleId) (DocumentError.notInvoiced saleId)
  match t.outlet with
  -- a till that is not set up trades under no regime
  | none => .ok .none
  | some outlet => do
    let totals ← sale.totals.mapError DocumentError.sale
    let invoice := t.fiscalInvoice sale invoice outlet totals
    (match outlet.regime with
      | .bdMushak => Fiscal.BdMushak.issue invoice
      | .zatca => Fiscal.Zatca.issue base64 calendar invoice
      | .none => Fiscal.NoFiscalRegime.issue invoice).mapError DocumentError.fiscal

/-! ## Section 3: The split of a bill -/

/-- Why a bill is not split. -/
inductive SplitBillError where
  | terminal (error : TerminalError)
  | rejected (error : SaleError)
  | uneven (error : MoneyError)
  | badSplit (error : SplitError)
  deriving DecidableEq

/-- What each share of a bill should be: evenly, or by the lines each part is paying for. -/
def splitBill (t : Terminal) (saleId : Uuid) (ways : U32) (lineAssignment : List (List Uuid)) :
    Except SplitBillError (List SplitPart) := do
  let sale ← (t.sale saleId).mapError SplitBillError.terminal
  let totals ← sale.totals.mapError SplitBillError.rejected
  if lineAssignment.isEmpty then (evenly totals.total ways).mapError SplitBillError.uneven
  else
    -- the figures cover active lines only, so the voided ones are filtered out here too
    (byLines sale.activeLines (totals.lines.map (·.total)) lineAssignment).mapError
      SplitBillError.badSplit

end Terminal

/-! ## Section 4: Figures stay with their lines -/

theorem lineViews_ids (lines : List SaleLine) (computed : List LineTotals) :
    (lineViews lines computed).map (·.id) = lines.map (·.id) := by
  induction lines generalizing computed with
  | nil => rfl
  | cons line rest ih =>
    unfold lineViews
    by_cases hactive : line.isActive = true
    · rw [if_pos hactive]
      cases computed with
      | nil => exact congrArg (line.id :: ·) (ih [])
      | cons totals computed => exact congrArg (line.id :: ·) (ih computed)
    · rw [if_neg hactive]
      exact congrArg (line.id :: ·) (ih computed)

/-- Voided lines are shown at nothing, and do not use up figures. -/
theorem lineViews_voided {lines : List SaleLine} {computed : List LineTotals}
    (hlength : (lines.filter (·.isActive)).length = computed.length) :
    (lineViews lines computed).filter (·.voided) =
        (lines.filter (! ·.isActive)).map emptyLine ∧
      (lineViews lines computed).filter (! ·.voided) =
        List.zipWith figuredLine (lines.filter (·.isActive)) computed := by
  induction lines generalizing computed with
  | nil => exact ⟨rfl, rfl⟩
  | cons line rest ih =>
    unfold lineViews
    by_cases hactive : line.isActive = true
    · rw [List.filter_cons_of_pos hactive] at hlength
      cases computed with
      | nil => cases hlength
      | cons totals computed =>
        obtain ⟨hvoided, hshown⟩ := ih (Nat.succ.inj hlength)
        rw [if_pos hactive, List.filter_cons_of_pos hactive]
        refine ⟨?_, ?_⟩
        · rw [List.filter_cons_of_neg (by simp [figuredLine]),
            List.filter_cons_of_neg (by simp [hactive]), hvoided]
        · rw [List.filter_cons_of_pos (by simp [figuredLine]), hshown]
          rfl
    · rw [List.filter_cons_of_neg hactive] at hlength
      obtain ⟨hvoided, hshown⟩ := ih hlength
      -- a voided line passes the figures on as they are
      have hempty : (emptyLine line).voided = true := by simpa [emptyLine] using hactive
      rw [if_neg hactive, List.filter_cons_of_neg hactive]
      refine ⟨?_, ?_⟩
      · rw [List.filter_cons_of_pos hempty, List.filter_cons_of_pos (by simpa using hactive),
          hvoided]
        rfl
      · rw [List.filter_cons_of_neg (by simp [hempty]), hshown]

/-- What a view shows of the lines of a sale. -/
structure SaleView.Shows (view : SaleView) (sale : Sale) (totals : OrderTotals)
    (pairs : List (SaleLine × LineTotals)) : Prop where
  ids : view.lines.map (·.id) = sale.lines.map (·.id)
  active : view.lines.filter (! ·.voided) = pairs.map fun pair => figuredLine pair.1 pair.2
  voided : view.lines.filter (·.voided) = (sale.lines.filter (! ·.isActive)).map emptyLine
  total : view.totalMinor = totals.total.minor

theorem SaleView.of_shows {sale : Sale} {totals : OrderTotals} (h : sale.totals = .ok totals) :
    ∃ view, SaleView.of sale = .ok view ∧ view.Shows sale totals (sale.figures totals) := by
  obtain ⟨hvoided, hshown⟩ := lineViews_voided (Sale.totals_length h)
  unfold SaleView.of
  rw [h]
  refine ⟨_, rfl, lineViews_ids _ _, ?_, hvoided, rfl⟩
  rw [Sale.figures, List.zip, List.map_zipWith]
  exact hshown

namespace Terminal

/-- A document has the rows of its sale, if it has rows. -/
theorem fiscalDocument_rows {base64 : Base64} {calendar : Fiscal.Calendar} {t : Terminal}
    {saleId : Uuid} {sale : Sale} {totals : OrderTotals} {document : Fiscal.Document}
    (hsale : t.sale saleId = .ok sale) (htotals : sale.totals = .ok totals)
    (h : t.fiscalDocument base64 calendar saleId = .ok document) : document = .none ∨
      document.rows = (sale.figures totals).map fun pair =>
        Fiscal.DocumentRow.of (t.fiscalLine pair.1) pair.2 := by
  have hrows : List.zipWith Fiscal.DocumentRow.of (sale.activeLines.map t.fiscalLine)
      totals.lines = (sale.figures totals).map fun pair =>
        Fiscal.DocumentRow.of (t.fiscalLine pair.1) pair.2 := by
    rw [Sale.figures, List.zip, List.map_zipWith, List.zipWith_map_left]
  simp only [fiscalDocument, hsale, Except.bind_eq_ok, Except.mapError_eq_ok, Except.ok.injEq] at h
  obtain ⟨_, rfl, invoice, -, h⟩ := h
  cases houtlet : t.outlet with
  | none =>
    rw [houtlet] at h
    cases h
    exact .inl rfl
  | some outlet =>
    rw [houtlet] at h
    simp only [htotals, Except.bind_eq_ok, Except.mapError_eq_ok, Except.ok.injEq] at h
    obtain ⟨_, rfl, h⟩ := h
    -- both regimes that issue a document print the same rows
    cases hregime : outlet.regime with
    | bdMushak =>
      rw [hregime] at h
      exact .inr ((Fiscal.BdMushak.issue_rows h).trans hrows)
    | zatca =>
      rw [hregime] at h
      exact .inr ((Fiscal.Zatca.issue_rows h).trans hrows)
    | none =>
      rw [hregime] at h
      simp only [Fiscal.NoFiscalRegime.issue] at h
      split at h
      · cases h
      · cases h
        exact .inl rfl

/-- A split by lines charges the lines of its sale. -/
theorem splitBill_collects {t : Terminal} {saleId : Uuid} {sale : Sale} {totals : OrderTotals}
    {ways : U32} {lineAssignment : List (List Uuid)} {parts : List SplitPart}
    (hdistinct : sale.LinesDistinct) (hsale : t.sale saleId = .ok sale)
    (htotals : sale.totals = .ok totals) (hassigned : lineAssignment ≠ [])
    (h : t.splitBill saleId ways lineAssignment = .ok parts) :
    parts.map (·.lineIds) = lineAssignment ∧
      Collects ((sale.figures totals).map fun pair => (pair.1.id, pair.2.total)) parts := by
  simp only [splitBill, hsale, Except.bind_eq_ok, Except.mapError_eq_ok, Except.ok.injEq] at h
  obtain ⟨_, rfl, _, htotals', h⟩ := h
  rw [htotals] at htotals'
  cases htotals'
  rw [if_neg (by simpa using hassigned), Except.mapError_eq_ok] at h
  have hids : (sale.activeLines.map (·.id)).Nodup := hdistinct.sublist (List.filter_sublist.map _)
  have hcollects := byLines_collects (fun line hline => (List.mem_filter.mp hline).2) hids h
  rw [Sale.figures, List.zip, List.map_zipWith]
  rw [List.zip, List.zipWith_map] at hcollects
  exact hcollects

end Terminal

open Terminal in
/-- **Line figures stay with their lines**: the sell screen, the tax document and the split of a
    bill all pair every active line with the figures calculated from it. -/
theorem figures_stay {sale : Sale} {totals : OrderTotals} (h : sale.totals = .ok totals) :
    ∃ pairs, sale.Paired totals pairs ∧
      (∃ view, SaleView.of sale = .ok view ∧ view.Shows sale totals pairs) ∧
      ∀ (digests : Digests) (t : Terminal) (saleId : Uuid),
        Transition.Reachable Fresh (step digests) t → t.sale saleId = .ok sale →
        (∀ base64 calendar document, t.fiscalDocument base64 calendar saleId = .ok document →
          document = .none ∨ document.rows = pairs.map fun pair =>
            Fiscal.DocumentRow.of (t.fiscalLine pair.1) pair.2) ∧
        ∀ ways lineAssignment parts, lineAssignment ≠ [] →
          t.splitBill saleId ways lineAssignment = .ok parts →
          parts.map (·.lineIds) = lineAssignment ∧
            Collects (pairs.map fun pair => (pair.1.id, pair.2.total)) parts := by
  refine ⟨sale.figures totals, Sale.figures_paired h, SaleView.of_shows h, ?_⟩
  intro digests t saleId ht hsale
  have hdistinct : sale.LinesDistinct :=
    (book_reached ht saleId sale (Except.okOr_eq_ok.mp hsale)).linesDistinct
  exact ⟨fun _ _ _ => fiscalDocument_rows hsale h, fun _ _ _ => splitBill_collects hdistinct hsale h⟩

namespace Terminal

/-- A till with a sale whose first line is voided. -/
def struckOff : Terminal :=
  till3.performAll plainDigests
    [(true, instant 0, .record openSale 100), (true, instant 1, .record addRice 101),
     (true, instant 2, .record (.lineAdded 20 13 14 "Salt" ⟨I64.lit 4500, .bdt⟩ Quantity.one
       .exempt []) 102),
     (true, instant 3, .record (.lineVoided 20 11 .mistake 7) 103)]

theorem struckOff_reachable : Transition.Reachable Fresh (step plainDigests) struckOff :=
  performAll_run _ (.init ⟨_, rfl⟩)

end Terminal

theorem figures_stay_struckOff :
    ∃ sale totals pairs parts, Terminal.struckOff.sale 20 = .ok sale ∧
      sale.totals = .ok totals ∧ sale.Paired totals pairs ∧
      Terminal.struckOff.splitBill 20 1 [[13]] = .ok parts ∧
      Collects (pairs.map fun pair => (pair.1.id, pair.2.total)) parts := by
  obtain ⟨parts, hparts⟩ := Except.isOkay_iff.mp
    (show (Terminal.struckOff.splitBill 20 1 [[13]]).isOkay = true by decide +kernel)
  obtain ⟨sale, hsale⟩ := Except.isOkay_iff.mp
    (show (Terminal.struckOff.sale 20).isOkay = true by decide +kernel)
  have hokay : (Terminal.struckOff.sale 20).toOption.all (·.totals.isOkay) = true := by
    decide +kernel
  rw [hsale] at hokay
  obtain ⟨totals, htotals⟩ := Except.isOkay_iff.mp hokay
  obtain ⟨pairs, hpaired, -, hall⟩ := figures_stay htotals
  obtain ⟨-, hsplit⟩ := hall Terminal.plainDigests Terminal.struckOff 20 Terminal.struckOff_reachable hsale
  exact ⟨sale, totals, pairs, parts, hsale, htotals, hpaired, hparts,
    (hsplit 1 [[13]] parts (by simp) hparts).2⟩

end Sahl
