import Mathlib.Tactic
import Sahl.Fiscal.Invoice

/-! # Bangladesh: the Mushak 6.3 tax challan

    Ten numbered columns a line and a total row. Columns 5 and 6 are tax-exclusive; column 6 is
    the exact figure, column 5 is derived from it and rounded.

    The main result is `build_addsUp`: the challan states what the tax engine calculated. -/

namespace Sahl.Fiscal

/-! ## Section 1: The challan -/

/-- Above this supply value, in paisa, the buyer must be named (Rule 40(1)). -/
def buyerRequiredAboveMinor : Int := 2500000

/-- One row of the challan, by the form's own column numbers. -/
structure Mushak63Line where
  /-- Column 1, one-based. -/
  serial : U32
  /-- Column 2. -/
  description : String
  /-- Column 3. -/
  unit : String
  /-- Column 4, in thousandths. -/
  quantityMilli : I64
  /-- Column 5, excluding all tax. -/
  unitValue : Money
  /-- Column 6, excluding all tax. -/
  totalValue : Money
  /-- Column 7. -/
  supplementaryDuty : Money
  /-- Column 8. -/
  vatRateBasisPoints : I32
  /-- Column 9. -/
  vatAmount : Money
  /-- Column 10. -/
  totalWithTax : Money
  deriving DecidableEq

structure Mushak63 where
  sellerName : String
  sellerBin : String
  issuingAddress : String
  buyerName : Option String
  buyerBin : Option String
  buyerAddress : Option String
  destination : Option String
  invoiceNumber : String
  issuedAtMillis : I64
  lines : List Mushak63Line
  /-- The total row: columns 6, 7, 9 and 10 summed. -/
  totalValue : Money
  totalSupplementaryDuty : Money
  totalVat : Money
  totalWithTax : Money
  deriving DecidableEq

namespace Mushak63

/-- Whether Rule 40(1) requires the buyer to be named. -/
def buyerRequired (totalWithTax : Money) : Bool := buyerRequiredAboveMinor < totalWithTax.minor.val

/-- The document named in every refusal. -/
def document : String := "Mushak 6.3"

/-- Column 1, from a zero-based position. -/
def serialOf (index : Nat) : Except FiscalError U32 :=
  if h : index + 1 < 2 ^ 32 then .ok ⟨index + 1, h⟩ else .error (.money .overflow)

/-- The row of one calculated line, at a zero-based position. -/
def row (zero : Money) (computed : LineTotals) (described : FiscalLine) (index : Nat) :
    Except FiscalError Mushak63Line := do
  let serial ← serialOf index
  let unitValue ← (perUnit computed.net described.quantityMilli).mapError FiscalError.money
  .ok { serial, description := described.description, unit := described.unit,
        quantityMilli := described.quantityMilli, unitValue, totalValue := computed.net,
        supplementaryDuty := zero, vatRateBasisPoints := rateOf computed.taxClass,
        vatAmount := computed.tax, totalWithTax := computed.total }

/-- What the loop over the lines carries: the rows so far and the total row. -/
structure Rows where
  lines : List Mushak63Line
  totalValue : Money
  totalVat : Money
  totalWithTax : Money

/-- One turn of the loop. -/
def Rows.push (zero : Money) (rows : Rows) : (LineTotals × FiscalLine) × Nat →
    Except FiscalError Rows
  | ((computed, described), index) => do
    let line ← row zero computed described index
    let totalValue ← (rows.totalValue.checkedAdd computed.net).mapError FiscalError.money
    let totalVat ← (rows.totalVat.checkedAdd computed.tax).mapError FiscalError.money
    let totalWithTax ← (rows.totalWithTax.checkedAdd computed.total).mapError FiscalError.money
    .ok { lines := rows.lines ++ [line], totalValue, totalVat, totalWithTax }

/-- Rule 40(1): above the threshold the buyer is named, in full. -/
def buyerNamed (invoice : Invoice) : Except FiscalError Unit :=
  if buyerRequired invoice.totals.total then do
    required invoice.buyer.name "Name of Purchaser" document
    required invoice.buyer.registration "BIN of Purchaser" document
    required invoice.buyer.address "Address of Purchaser" document
  else .ok ()

/-- Build the challan. -/
def build (invoice : Invoice) : Except FiscalError Mushak63 :=
  if invoice.totals.lines.isEmpty then .error .empty
  else if invoice.lines.length ≠ invoice.totals.lines.length then
    -- a silent zip would put one product's description against another's tax
    .error (.invalid (toString invoice.lines.length ++ " line descriptions for " ++
      toString invoice.totals.lines.length ++ " calculated lines"))
  else do
    required (some invoice.seller.registration) "BIN of Registered Person" document
    required (some invoice.seller.name) "Name of Registered Person" document
    required (some invoice.seller.address) "Challan Issuing Address" document
    buyerNamed invoice
    let zero := Money.zero invoice.totals.total.currency
    let rows ← (invoice.totals.lines.zip invoice.lines).zipIdx.foldlM (Rows.push zero)
      ⟨[], zero, zero, zero⟩
    .ok { sellerName := invoice.seller.name, sellerBin := invoice.seller.registration,
          issuingAddress := invoice.seller.address, buyerName := invoice.buyer.name,
          buyerBin := invoice.buyer.registration, buyerAddress := invoice.buyer.address,
          destination := invoice.destination, invoiceNumber := toString invoice.sequence.val,
          issuedAtMillis := invoice.issuedAt.millis, lines := rows.lines,
          totalValue := rows.totalValue, totalSupplementaryDuty := zero,
          totalVat := rows.totalVat, totalWithTax := rows.totalWithTax }

/-! ## Section 2: The rows -/

/-- A row states a calculated line under its own description. -/
structure StatesLine (line : Mushak63Line) (entry : (LineTotals × FiscalLine) × Nat) : Prop where
  serial : line.serial.val = entry.2 + 1
  description : line.description = entry.1.2.description
  unit : line.unit = entry.1.2.unit
  quantity : line.quantityMilli = entry.1.2.quantityMilli
  rate : line.vatRateBasisPoints = rateOf entry.1.1.taxClass
  value : line.totalValue = entry.1.1.net
  vat : line.vatAmount = entry.1.1.tax
  withTax : line.totalWithTax = entry.1.1.total

theorem serialOf_eq_ok {index : Nat} {serial : U32} (h : serialOf index = .ok serial) :
    serial.val = index + 1 := by
  unfold serialOf at h
  split at h
  · cases h
    rfl
  · cases h

theorem row_statesLine {zero : Money} {computed : LineTotals} {described : FiscalLine}
    {index : Nat} {line : Mushak63Line} (h : row zero computed described index = .ok line) :
    StatesLine line ((computed, described), index) := by
  simp only [row, Except.bind_eq_ok] at h
  obtain ⟨serial, hserial, _, _, h⟩ := h
  cases h
  exact ⟨serialOf_eq_ok hserial, rfl, rfl, rfl, rfl, rfl, rfl, rfl⟩

/-- What the loop keeps: a row for each line read, and the total row their exact sum. -/
structure Rows.Kept (seen : List ((LineTotals × FiscalLine) × Nat)) (rows : Rows) : Prop where
  lines : List.Forall₂ StatesLine rows.lines seen
  value : rows.totalValue.IsSum (rows.lines.map (·.totalValue))
  vat : rows.totalVat.IsSum (rows.lines.map (·.vatAmount))
  withTax : rows.totalWithTax.IsSum (rows.lines.map (·.totalWithTax))

theorem Rows.Kept.push {zero : Money} {seen : List ((LineTotals × FiscalLine) × Nat)}
    {rows rows' : Rows} {entry : (LineTotals × FiscalLine) × Nat} (hkept : rows.Kept seen)
    (h : rows.push zero entry = .ok rows') : rows'.Kept (seen ++ [entry]) := by
  obtain ⟨⟨computed, described⟩, index⟩ := entry
  simp only [Rows.push, Except.bind_eq_ok, Except.mapError_eq_ok] at h
  obtain ⟨line, hline, totalValue, hvalue, totalVat, hvat, totalWithTax, hwithTax, h⟩ := h
  cases h
  have hstates := row_statesLine hline
  -- each total takes in the column of the row that is pushed
  rw [← hstates.value] at hvalue
  rw [← hstates.vat] at hvat
  rw [← hstates.withTax] at hwithTax
  refine ⟨List.rel_append hkept.lines (.cons hstates .nil), ?_, ?_, ?_⟩
  · rw [List.map_append]
    exact hkept.value.concat hvalue
  · rw [List.map_append]
    exact hkept.vat.concat hvat
  · rw [List.map_append]
    exact hkept.withTax.concat hwithTax

/-- The lines, the descriptions and the positions the loop goes over. -/
theorem entries_columns {lines : List LineTotals} {described : List FiscalLine}
    (hlength : described.length = lines.length) :
    (lines.zip described).zipIdx.map (·.1.1) = lines ∧
      (lines.zip described).zipIdx.map (·.1.2) = described ∧
      (lines.zip described).zipIdx.map (·.2 + 1) = List.range' 1 lines.length := by
  have hpairs : (lines.zip described).zipIdx.map (·.1) = lines.zip described :=
    List.zipIdx_map_fst 0 _
  have hpositions := List.zipIdx_map_snd 0 (lines.zip described)
  refine ⟨?_, ?_, ?_⟩
  · rw [← Function.comp_def Prod.fst Prod.fst, ← List.map_map, hpairs,
      List.map_fst_zip hlength.ge]
  · rw [← Function.comp_def Prod.snd Prod.fst, ← List.map_map, hpairs,
      List.map_snd_zip hlength.le]
  · rw [← Function.comp_def (· + 1) Prod.snd, ← List.map_map, hpositions, List.length_zip, hlength,
      Nat.min_self, ← List.range'_succ_left]

/-! ## Section 3: The challan adds up -/

/-- A challan states its order, line by line and in total. -/
structure AddsUp (invoice : Invoice) (challan : Mushak63) : Prop where
  /-- One row for each calculated line, in order. -/
  rows : List.Forall₂ (fun line computed => line.totalValue = computed.net ∧
    line.vatAmount = computed.tax ∧ line.totalWithTax = computed.total ∧
    line.vatRateBasisPoints = rateOf computed.taxClass) challan.lines invoice.totals.lines
  /-- Each under its own description. -/
  described : List.Forall₂ (fun line described => line.description = described.description ∧
    line.unit = described.unit ∧ line.quantityMilli = described.quantityMilli)
    challan.lines invoice.lines
  serials : challan.lines.map (·.serial.val) = List.range' 1 invoice.totals.lines.length
  sixNineTen : ∀ line ∈ challan.lines,
    line.totalValue.checkedAdd line.vatAmount = .ok line.totalWithTax
  zeroRated : ∀ line ∈ challan.lines, line.vatRateBasisPoints = 0 → line.vatAmount.minor.val = 0
  columnSix : challan.totalValue.IsSum (challan.lines.map (·.totalValue))
  columnNine : challan.totalVat.IsSum (challan.lines.map (·.vatAmount))
  columnTen : challan.totalWithTax.IsSum (challan.lines.map (·.totalWithTax))
  totalRow : challan.totalValue.checkedAdd challan.totalVat = .ok challan.totalWithTax
  order : challan.totalValue = invoice.totals.net ∧ challan.totalVat = invoice.totals.tax ∧
    challan.totalWithTax = invoice.totals.total
  buyer : buyerRequiredAboveMinor < invoice.totals.total.minor.val →
    Stated challan.buyerName ∧ Stated challan.buyerBin ∧ Stated challan.buyerAddress

theorem buyerNamed_eq_ok {invoice : Invoice} (h : buyerNamed invoice = .ok ())
    (hvalue : buyerRequiredAboveMinor < invoice.totals.total.minor.val) :
    Stated invoice.buyer.name ∧ Stated invoice.buyer.registration ∧
      Stated invoice.buyer.address := by
  have hrequired : buyerRequired invoice.totals.total = true := by simpa [buyerRequired] using hvalue
  rw [buyerNamed, if_pos hrequired] at h
  simp only [Except.bind_eq_ok] at h
  obtain ⟨_, hname, _, hbin, haddress⟩ := h
  exact ⟨required_eq_ok.mp hname, required_eq_ok.mp hbin, required_eq_ok.mp haddress⟩

/-- What a challan that is issued was made of. -/
theorem build_kept {invoice : Invoice} {challan : Mushak63} (h : build invoice = .ok challan) :
    invoice.totals.lines ≠ [] ∧ invoice.lines.length = invoice.totals.lines.length ∧
      Rows.Kept (invoice.totals.lines.zip invoice.lines).zipIdx
        ⟨challan.lines, challan.totalValue, challan.totalVat, challan.totalWithTax⟩ ∧
      (buyerRequiredAboveMinor < invoice.totals.total.minor.val →
        Stated challan.buyerName ∧ Stated challan.buyerBin ∧ Stated challan.buyerAddress) := by
  unfold build at h
  split at h
  · cases h
  rename_i hlines
  split at h
  · cases h
  rename_i hlength
  simp only [Except.bind_eq_ok] at h
  obtain ⟨_, _, _, _, _, _, _, hbuyer, rows, hrows, h⟩ := h
  cases h
  refine ⟨fun hnone => hlines (List.isEmpty_iff.mpr hnone), not_not.mp hlength, ?_,
    buyerNamed_eq_ok hbuyer⟩
  refine foldlM_invariant (fun seen rows => Rows.Kept seen rows) ?_ ?_ hrows
  · intro seen rows entry rows' hkept hpush
    exact hkept.push hpush
  · exact ⟨.nil, Money.isSum_zero, Money.isSum_zero, Money.isSum_zero⟩

/-- **A Mushak 6.3 adds up**: the challan of a calculated order has a row for each line, each row
    and the total row are exact, and the total row is the order's. -/
theorem build_addsUp {order : OrderInput} {invoice : Invoice} {challan : Mushak63}
    (hcalculate : calculate order = .ok invoice.totals) (h : build invoice = .ok challan) :
    challan.AddsUp invoice := by
  have hexact := exact_of_calculate hcalculate
  obtain ⟨hlines, hlength, hkept, hbuyer⟩ := build_kept h
  obtain ⟨hcomputed, hdescribed, hpositions⟩ := entries_columns hlength
  have hstates := hkept.lines
  have hmatched : List.Forall₂ (fun line computed => line.totalValue = computed.net ∧
      line.vatAmount = computed.tax ∧ line.totalWithTax = computed.total ∧
      line.vatRateBasisPoints = rateOf computed.taxClass) challan.lines invoice.totals.lines := by
    rw [← hcomputed, List.forall₂_map_right_iff]
    exact hstates.imp fun _ _ hline => ⟨hline.value, hline.vat, hline.withTax, hline.rate⟩
  -- the columns of the rows are the figures of the calculated lines, so their sums are the order's
  have hvalue := forall₂_map_eq hmatched fun _ _ hline => hline.1
  have hvat := forall₂_map_eq hmatched fun _ _ hline => hline.2.1
  have hwithTax := forall₂_map_eq hmatched fun _ _ hline => hline.2.2.1
  have hsome : ∀ figure : LineTotals → Money, invoice.totals.lines.map figure ≠ [] := by
    intro figure hnone
    exact hlines (List.map_eq_nil_iff.mp hnone)
  have hnet : challan.totalValue = invoice.totals.net :=
    Money.IsSum.unique (hsome _) (hvalue ▸ hkept.value) hexact.net
  have htax : challan.totalVat = invoice.totals.tax :=
    Money.IsSum.unique (hsome _) (hvat ▸ hkept.vat) hexact.tax
  have htotal : challan.totalWithTax = invoice.totals.total :=
    Money.IsSum.unique (hsome _) (hwithTax ▸ hkept.withTax) hexact.total
  constructor
  case rows => exact hmatched
  case described =>
    rw [← hdescribed, List.forall₂_map_right_iff]
    exact hstates.imp fun _ _ hline => ⟨hline.description, hline.unit, hline.quantity⟩
  case serials =>
    rw [← hpositions]
    exact forall₂_map_eq hstates fun _ _ hline => hline.serial
  case sixNineTen =>
    intro line hline
    obtain ⟨computed, hmem, hvalue, hvat, hwithTax, -⟩ := forall₂_mem_right hmatched.flip hline
    rw [hvalue, hvat, hwithTax]
    exact (hexact.line computed hmem).total
  case zeroRated =>
    intro line hline hrate
    obtain ⟨computed, hmem, -, hvat, -, hrateOf⟩ := forall₂_mem_right hmatched.flip hline
    rw [hrateOf, rateOf_eq_zero] at hrate
    rw [hvat]
    exact calculate_untaxed hcalculate hmem hrate
  case columnSix => exact hkept.value
  case columnNine => exact hkept.vat
  case columnTen => exact hkept.withTax
  case totalRow =>
    rw [hnet, htax, htotal]
    exact hexact.netTax
  case order => exact ⟨hnet, htax, htotal⟩
  case buyer => exact hbuyer

/-- A sale above the threshold, of two classes, priced inclusive of tax. -/
def wholesale : OrderInput where
  currency := .bdt
  pricingMode := .taxInclusive
  rounding := .halfUp
  lines := [
    { unitPrice := ⟨I64.lit 1150000, .bdt⟩, quantity := ⟨I64.lit 3333⟩,
      taxClass := .standard ⟨I32.lit 1500⟩, discount := .none },
    { unitPrice := ⟨I64.lit 33300, .bdt⟩, quantity := Quantity.one,
      taxClass := .exempt, discount := .percentage ⟨I32.lit 1000⟩ }]
  orderDiscount := .amount ⟨I64.lit 5000, .bdt⟩

/-- Its invoice, the buyer named. -/
def wholesaleInvoice (totals : OrderTotals) : Invoice where
  saleId := 20
  sequence := 7
  issuedAt := Timestamp.epoch
  seller := ⟨"Karim Store", "0031234567890", "12 Dhanmondi 27, Dhaka"⟩
  buyer := ⟨some "Rahim Traders", some "0049876543210", some "Chawkbazar, Dhaka"⟩
  lines := [⟨"Basmati rice", "kg", I64.lit 3333⟩, ⟨"Salt", "pcs", I64.lit 1000⟩]
  totals
  destination := none

theorem build_addsUp_wholesale :
    ∃ totals challan, calculate wholesale = .ok totals ∧
      build (wholesaleInvoice totals) = .ok challan ∧
      challan.AddsUp (wholesaleInvoice totals) := by
  obtain ⟨totals, hcalculate⟩ := Except.isOkay_iff.mp
    (show (calculate wholesale).isOkay = true by decide)
  have hissued : (calculate wholesale).toOption.all
      (fun totals => (build (wholesaleInvoice totals)).isOkay) = true := by decide
  rw [hcalculate] at hissued
  obtain ⟨challan, h⟩ := Except.isOkay_iff.mp hissued
  exact ⟨totals, challan, hcalculate, h, build_addsUp hcalculate h⟩

end Mushak63

end Sahl.Fiscal
