import Mathlib.Tactic
import Sahl.Fiscal.Regimes

/-! # What the lines of a ZATCA invoice cover

    Descriptions and calculated lines are two lists, joined pairwise, beside totals that are copied.
    The join stops at the shorter list, so the lines make the totals exactly where no calculated
    line is left without a description (`build_covers_iff`). -/

namespace Sahl.Fiscal

/-- The document has one line for each calculated line, with its figures, and the lines sum to the
    totals it states. -/
structure SimplifiedTaxInvoice.Covers (document : SimplifiedTaxInvoice) (totals : OrderTotals) :
    Prop where
  rows : document.lines.map (fun line => (line.lineTotal, line.vatAmount, line.totalWithVat)) =
    totals.lines.map fun computed => (computed.net, computed.tax, computed.total)
  excludingVat : document.totalExcludingVat.IsSum (document.lines.map (·.lineTotal))
  vat : document.totalVat.IsSum (document.lines.map (·.vatAmount))
  withVat : document.totalWithVat.IsSum (document.lines.map (·.totalWithVat))

namespace Zatca

variable {base64 : Base64} {calendar : Calendar} {invoice : Invoice}
  {document : SimplifiedTaxInvoice}

/-- The totals are the invoice's own. -/
theorem build_totals (h : build base64 calendar invoice = .ok document) :
    document.totalExcludingVat = invoice.totals.net ∧ document.totalVat = invoice.totals.tax ∧
      document.totalWithVat = invoice.totals.total := by
  unfold build at h
  obtain ⟨-, h⟩ := Except.ite_error_eq_ok.mp h
  simp only [Except.bind_eq_ok] at h
  obtain ⟨_, _, _, _, h⟩ := h
  obtain ⟨-, h⟩ := Except.ite_error_eq_ok.mp h
  simp only [Except.bind_eq_ok] at h
  obtain ⟨lines, _, qr, _, h⟩ := h
  cases h
  exact ⟨rfl, rfl, rfl⟩

/-- A line for each description that has a calculated line, with the figures of that line. -/
theorem build_rows (h : build base64 calendar invoice = .ok document) :
    document.lines.map (fun line => (line.lineTotal, line.vatAmount, line.totalWithVat)) =
      (invoice.totals.lines.take invoice.lines.length).map
        fun computed => (computed.net, computed.tax, computed.total) := by
  obtain ⟨-, hlines, -⟩ := build_eq_ok h
  have hrows : (invoice.lines.zip invoice.totals.lines).map
      (fun pair => (pair.2.net, pair.2.tax, pair.2.total)) =
        document.lines.map fun line => (line.lineTotal, line.vatAmount, line.totalWithVat) := by
    refine forall₂_map_eq hlines fun pair line hline => ?_
    obtain ⟨_, _, hline⟩ := Except.bind_eq_ok.mp hline
    cases hline
    rfl
  rw [← hrows, ← map_snd_zip_eq_take, List.map_map]
  rfl

/-- The two sums agree where the columns do. -/
theorem covers_of_rows {order : OrderInput} (hcalculate : calculate order = .ok invoice.totals)
    (h : build base64 calendar invoice = .ok document)
    (hrows : document.lines.map (fun line => (line.lineTotal, line.vatAmount, line.totalWithVat)) =
      invoice.totals.lines.map fun computed => (computed.net, computed.tax, computed.total)) :
    document.Covers invoice.totals := by
  have hexact := exact_of_calculate hcalculate
  obtain ⟨hnet, htax, htotal⟩ := build_totals h
  have hcolumn : ∀ figure : Money × Money × Money → Money,
      document.lines.map (fun line =>
        figure (line.lineTotal, line.vatAmount, line.totalWithVat)) =
      invoice.totals.lines.map fun computed =>
        figure (computed.net, computed.tax, computed.total) := by
    intro figure
    have hmapped := congrArg (List.map figure) hrows
    rwa [List.map_map, List.map_map] at hmapped
  constructor
  · exact hrows
  · rw [hnet, hcolumn (·.1)]
    exact hexact.net
  · rw [htax, hcolumn (·.2.1)]
    exact hexact.tax
  · rw [htotal, hcolumn (·.2.2)]
    exact hexact.total

/-- **ZATCA lines cover a calculated invoice** exactly where there are as many descriptions as
    calculated lines, or more. -/
theorem build_covers_iff {order : OrderInput} (hcalculate : calculate order = .ok invoice.totals)
    (h : build base64 calendar invoice = .ok document) :
    document.Covers invoice.totals ↔ invoice.totals.lines.length ≤ invoice.lines.length := by
  have hrows := build_rows h
  constructor
  · intro hcovers
    have hlengths := congrArg List.length (hcovers.rows.symm.trans hrows)
    rw [List.length_map, List.length_map, List.length_take] at hlengths
    omega
  · intro hlength
    rw [List.take_of_length_le hlength] at hrows
    exact covers_of_rows hcalculate h hrows

/-- Dates at 15% VAT and zero-rated rice, priced without VAT. -/
def datesAndRice : OrderInput where
  currency := .sar
  pricingMode := .taxExclusive
  rounding := .halfUp
  lines := [
    { unitPrice := ⟨I64.lit 10000, .sar⟩, quantity := Quantity.one,
      taxClass := .standard ⟨I32.lit 1500⟩, discount := .none },
    { unitPrice := ⟨I64.lit 5000, .sar⟩, quantity := Quantity.one,
      taxClass := .zeroRated, discount := .none }]
  orderDiscount := .none

/-- Its invoice, under some descriptions. -/
def datesAndRiceInvoice (lines : List FiscalLine) (totals : OrderTotals) : Invoice :=
  { saudiInvoice "300000000000003" with lines, totals }

def dates : FiscalLine := ⟨"Dates, 1kg", "pcs", I64.lit 1000⟩
def rice : FiscalLine := ⟨"Rice, 5kg", "pcs", I64.lit 1000⟩

theorem build_covers_iff_described :
    ∃ totals document, calculate datesAndRice = .ok totals ∧
      build Base64.standard april (datesAndRiceInvoice [dates, rice] totals) = .ok document ∧
      document.Covers totals := by
  obtain ⟨totals, hcalculate⟩ := Except.isOkay_iff.mp
    (show (calculate datesAndRice).isOkay = true by decide)
  have hissued : (calculate datesAndRice).toOption.all (fun totals =>
      (build Base64.standard april (datesAndRiceInvoice [dates, rice] totals)).isOkay &&
        totals.lines.length ≤ 2) = true := by
    decide +kernel
  rw [hcalculate] at hissued
  obtain ⟨hbuild, hlength⟩ := Bool.and_eq_true_iff.mp hissued
  obtain ⟨document, h⟩ := Except.isOkay_iff.mp hbuild
  exact ⟨totals, document, hcalculate, h,
    (@build_covers_iff _ _ (datesAndRiceInvoice [dates, rice] totals) _ _ hcalculate h).mpr
      (of_decide_eq_true hlength)⟩

/-- One description for two calculated lines: the document is issued with the totals of both and
    the line of one. -/
theorem undescribed_line_dropped :
    ∃ totals document, calculate datesAndRice = .ok totals ∧
      build Base64.standard april (datesAndRiceInvoice [dates] totals) = .ok document ∧
      ¬ document.Covers totals := by
  obtain ⟨totals, hcalculate⟩ := Except.isOkay_iff.mp
    (show (calculate datesAndRice).isOkay = true by decide)
  have hissued : (calculate datesAndRice).toOption.all (fun totals =>
      (build Base64.standard april (datesAndRiceInvoice [dates] totals)).isOkay &&
        totals.lines.length = 2) = true := by
    decide +kernel
  rw [hcalculate] at hissued
  obtain ⟨hbuild, hlength⟩ := Bool.and_eq_true_iff.mp hissued
  obtain ⟨document, h⟩ := Except.isOkay_iff.mp hbuild
  refine ⟨totals, document, hcalculate, h, fun hcovers => ?_⟩
  have htwo : totals.lines.length = 2 := of_decide_eq_true hlength
  have hrows : document.lines.map (fun line =>
      (line.lineTotal, line.vatAmount, line.totalWithVat)) = (totals.lines.take 1).map
        fun computed => (computed.net, computed.tax, computed.total) := build_rows h
  have hlengths := congrArg List.length (hcovers.rows.symm.trans hrows)
  rw [List.length_map, List.length_map, List.length_take] at hlengths
  omega

end Zatca

end Sahl.Fiscal
