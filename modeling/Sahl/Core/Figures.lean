import Mathlib.Tactic
import Sahl.Core.Sale

/-! # The figures of each line of a sale

    The engine is given the active lines of a sale and answers with figures for these alone, in
    their order; the sale keeps its voided lines in place. Whoever shows figures beside lines has
    to bring the two lists together again. -/

namespace Sahl

namespace Sale

def activeLines (sale : Sale) : List SaleLine := sale.lines.filter (·.isActive)

/-- What the engine makes of this very line: its price with its options, its quantity, its tax
    class and its own discount. -/
def Calculated (sale : Sale) (line : SaleLine) (t : LineTotals) : Prop :=
  ∃ input, line.toTaxInput = .ok input ∧ input.SettlesTo sale.pricingMode sale.rounding t

/-- Every active line beside its figures. -/
def figures (sale : Sale) (totals : OrderTotals) : List (SaleLine × LineTotals) :=
  sale.activeLines.zip totals.lines

/-- A pairing in which every line has the figures calculated from it. -/
structure Paired (sale : Sale) (totals : OrderTotals) (pairs : List (SaleLine × LineTotals)) :
    Prop where
  /-- Every active line is in it once, and no voided one. -/
  lines : pairs.map Prod.fst = sale.activeLines
  figures : pairs.map Prod.snd = totals.lines
  calculated : ∀ pair ∈ pairs, sale.Calculated pair.1 pair.2
  total : (pairs.map (·.2.total.minor.val)).sum = totals.total.minor.val

theorem totals_eq_ok {sale : Sale} {totals : OrderTotals} (h : sale.totals = .ok totals) :
    ∃ inputs, List.Forall₂ (fun line input => line.toTaxInput = .ok input) sale.activeLines
        inputs ∧
      calculate { currency := sale.currency, pricingMode := sale.pricingMode,
                  rounding := sale.rounding, lines := inputs,
                  orderDiscount := sale.orderDiscount } = .ok totals := by
  simp only [Sale.totals, Except.bind_eq_ok, Except.mapError_eq_ok] at h
  obtain ⟨inputs, hinputs, h⟩ := h
  split at h
  · cases h
  exact ⟨inputs, mapM_eq_ok.mp hinputs, Except.mapError_eq_ok.mp h⟩

/-- The engine's figures belong to the active lines, in order. -/
theorem totals_calculated {sale : Sale} {totals : OrderTotals} (h : sale.totals = .ok totals) :
    List.Forall₂ sale.Calculated sale.activeLines totals.lines := by
  obtain ⟨inputs, hinputs, hcalculate⟩ := totals_eq_ok h
  exact forall₂_comp hinputs (calculate_settled hcalculate) fun _ _ _ hinput hsettles =>
    ⟨_, hinput, hsettles⟩

theorem totals_length {sale : Sale} {totals : OrderTotals} (h : sale.totals = .ok totals) :
    sale.activeLines.length = totals.lines.length := (totals_calculated h).length_eq

theorem figures_paired {sale : Sale} {totals : OrderTotals} (h : sale.totals = .ok totals) :
    sale.Paired totals (sale.figures totals) where
  lines := List.map_fst_zip (totals_length h).le
  figures := List.map_snd_zip (totals_length h).ge
  calculated := fun _ hpair => List.forall₂_zip (totals_calculated h) hpair
  total := by
    obtain ⟨_, _, hcalculate⟩ := totals_eq_ok h
    rw [(Money.isSum_map.mp (exact_of_calculate hcalculate).total).2,
      ← List.map_snd_zip (totals_length h).ge, List.map_map]
    rfl

end Sale

end Sahl
