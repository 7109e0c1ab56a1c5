import Mathlib.Tactic
import Sahl.Fiscal.Mushak
import Sahl.Fiscal.Zatca

/-! # Regimes and their documents

    Each regime turns the same invoice into a document of its own. Whatever the regime, a document
    that has rows has one for each line of the invoice, each beside its own figures
    (`issue_rows`). -/

namespace Sahl.Fiscal

/-- A document some regime recognises. -/
inductive Document where
  | bdMushak63 (challan : Mushak63)
  | zatca (invoice : SimplifiedTaxInvoice)
  /-- No fiscal regime: an ordinary receipt is the whole obligation. -/
  | none
  deriving DecidableEq

def BdMushak.issue (invoice : Invoice) : Except FiscalError Document :=
  (Mushak63.build invoice).map .bdMushak63

def Zatca.issue (base64 : Base64) (calendar : Calendar) (invoice : Invoice) :
    Except FiscalError Document :=
  (Zatca.build base64 calendar invoice).map .zatca

/-- Not a stub: it still refuses an empty sale. -/
def NoFiscalRegime.issue (invoice : Invoice) : Except FiscalError Document :=
  if invoice.totals.lines.isEmpty then .error .empty else .ok .none

/-- What a row says, whatever the document. -/
structure DocumentRow where
  description : String
  unit : String
  quantityMilli : I64
  rateBasisPoints : I32
  /-- Excluding tax. -/
  net : Money
  tax : Money
  total : Money
  deriving DecidableEq

/-- A calculated line under a description. -/
def DocumentRow.of (described : FiscalLine) (computed : LineTotals) : DocumentRow :=
  { description := described.description, unit := described.unit,
    quantityMilli := described.quantityMilli, rateBasisPoints := rateOf computed.taxClass,
    net := computed.net, tax := computed.tax, total := computed.total }

def Document.rows : Document → List DocumentRow
  | bdMushak63 challan => challan.lines.map fun line =>
    { description := line.description, unit := line.unit, quantityMilli := line.quantityMilli,
      rateBasisPoints := line.vatRateBasisPoints, net := line.totalValue, tax := line.vatAmount,
      total := line.totalWithTax }
  | zatca invoice => invoice.lines.map fun line =>
    { description := line.description, unit := line.unit, quantityMilli := line.quantityMilli,
      rateBasisPoints := line.vatRateBasisPoints, net := line.lineTotal, tax := line.vatAmount,
      total := line.totalWithVat }
  | none => []

theorem BdMushak.issue_rows {invoice : Invoice} {document : Document}
    (h : BdMushak.issue invoice = .ok document) :
    document.rows = List.zipWith DocumentRow.of invoice.lines invoice.totals.lines := by
  obtain ⟨challan, hbuild, rfl⟩ := Except.map_eq_ok.mp h
  obtain ⟨-, -, hkept, -⟩ := Mushak63.build_kept hbuild
  have hrows : (Document.bdMushak63 challan).rows =
      (invoice.totals.lines.zip invoice.lines).zipIdx.map fun entry =>
        DocumentRow.of entry.1.2 entry.1.1 := by
    refine forall₂_map_eq hkept.lines fun line entry hline => ?_
    rw [hline.description, hline.unit, hline.quantity, hline.rate, hline.value, hline.vat,
      hline.withTax]
    rfl
  let turned : LineTotals × FiscalLine → DocumentRow := fun pair => DocumentRow.of pair.2 pair.1
  calc (Document.bdMushak63 challan).rows
      = (invoice.totals.lines.zip invoice.lines).zipIdx.map (turned ∘ Prod.fst) := hrows
    _ = (invoice.totals.lines.zip invoice.lines).map turned := by
      rw [← List.map_map, List.zipIdx_map_fst]
    _ = List.zipWith DocumentRow.of invoice.lines invoice.totals.lines := by
      rw [List.zip, List.map_zipWith, List.zipWith_comm]

theorem Zatca.issue_rows {base64 : Base64} {calendar : Calendar} {invoice : Invoice}
    {document : Document} (h : Zatca.issue base64 calendar invoice = .ok document) :
    document.rows = List.zipWith DocumentRow.of invoice.lines invoice.totals.lines := by
  obtain ⟨issued, hbuild, rfl⟩ := Except.map_eq_ok.mp h
  obtain ⟨-, hlines, -⟩ := Zatca.build_eq_ok hbuild
  have hrows : (Document.zatca issued).rows =
      (invoice.lines.zip invoice.totals.lines).map fun pair => DocumentRow.of pair.1 pair.2 := by
    refine (forall₂_map_eq hlines fun pair line hline => ?_).symm
    obtain ⟨_, _, hline⟩ := Except.bind_eq_ok.mp hline
    cases hline
    rfl
  rw [hrows, List.zip, List.map_zipWith]

end Sahl.Fiscal
