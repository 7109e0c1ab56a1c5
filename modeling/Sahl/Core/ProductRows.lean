import Mathlib.Tactic
import Mathlib.Data.List.TakeWhile
import Sahl.Core.DayRows
import Sahl.Core.Figures

/-! # Product rows and voided lines

    A report walks the lines of a sale beside the figures of its active lines. Up to the first
    voided line the two lists keep step; an active line that stands after one is given the
    figures at its place, which are another line's, or none. The rows account for what was sold
    where that evens out (`accountsForLines_iff`). -/

namespace Sahl

/-! ## Section 1: Lines out of step -/

namespace Sale

/-- Every active line with the figures calculated for it. -/
def lineFigures (sale : Sale) : List (SaleLine × LineTotals) := sale.activeLines.zip sale.totalLines

/-- The lines before the first voided one. -/
def leading (sale : Sale) : List SaleLine := sale.lines.takeWhile (·.isActive)

/-- The lines from the first voided one on. -/
def trailing (sale : Sale) : List SaleLine := sale.lines.dropWhile (·.isActive)

/-- The active lines after a voided one, each with its own figures. -/
def displaced (sale : Sale) : List (SaleLine × LineTotals) :=
  (sale.trailing.filter (·.isActive)).zip (sale.totalLines.drop sale.leading.length)

/-- The active lines after a voided one, each with the figures at its place among all lines; those
    past the last figures are left out. -/
def misdealt (sale : Sale) : List (SaleLine × LineTotals) :=
  (sale.trailing.zip (sale.totalLines.drop sale.leading.length)).filter (·.1.isActive)

/-- The lines that keep step. -/
def inStep (sale : Sale) : List (SaleLine × LineTotals) :=
  sale.leading.zip (sale.totalLines.take sale.leading.length)

theorem activeLines_split (sale : Sale) :
    sale.activeLines = sale.leading ++ sale.trailing.filter (·.isActive) := by
  have hleading : sale.leading.filter (·.isActive) = sale.leading :=
    List.filter_eq_self.mpr fun line hline => List.mem_takeWhile_imp hline
  have hsplit : sale.leading ++ sale.trailing = sale.lines := List.takeWhile_append_dropWhile
  rw [activeLines, ← hsplit, List.filter_append, hleading]

theorem totalLines_eq {sale : Sale} {totals : OrderTotals} (h : sale.totals = .ok totals) :
    sale.totalLines = totals.lines := by
  unfold totalLines
  rw [h]

theorem totalLines_length {sale : Sale} {totals : OrderTotals} (h : sale.totals = .ok totals) :
    sale.activeLines.length = sale.totalLines.length := by
  rw [totalLines_eq h]
  exact totals_length h

theorem leading_length {sale : Sale} {totals : OrderTotals} (h : sale.totals = .ok totals) :
    (sale.totalLines.take sale.leading.length).length = sale.leading.length := by
  have hlength := totalLines_length h
  rw [activeLines_split, List.length_append] at hlength
  rw [List.length_take]
  omega

theorem lineFigures_split {sale : Sale} {totals : OrderTotals} (h : sale.totals = .ok totals) :
    sale.lineFigures = sale.inStep ++ sale.displaced := by
  have hzip : (sale.leading ++ sale.trailing.filter (·.isActive)).zip sale.totalLines =
      sale.inStep ++ sale.displaced := by
    conv_lhs => rw [← List.take_append_drop sale.leading.length sale.totalLines]
    exact List.zip_append (leading_length h).symm
  rw [lineFigures, activeLines_split, hzip]

/-- What the report posts of a sale: the lines in step, and the others as they are dealt. -/
theorem soldLines_split {sale : Sale} {c : Counted} (h : sale.counted = some c) :
    c.soldLines = sale.inStep ++ sale.misdealt := by
  obtain ⟨hsale, -, htotals⟩ := counted_eq_some h
  have hsplit : sale.leading ++ sale.trailing = sale.lines := List.takeWhile_append_dropWhile
  have hzip : sale.lines.zip sale.totalLines =
      sale.inStep ++ sale.trailing.zip (sale.totalLines.drop sale.leading.length) := by
    conv_lhs => rw [← hsplit, ← List.take_append_drop sale.leading.length sale.totalLines]
    exact List.zip_append (leading_length htotals).symm
  have hinStep : sale.inStep.filter (·.1.isActive) = sale.inStep := by
    refine List.filter_eq_self.mpr fun pair hpair => ?_
    exact List.mem_takeWhile_imp (List.of_mem_zip hpair).1
  rw [Counted.soldLines, hsale, ← totalLines_eq htotals, hzip, List.filter_append, hinStep]
  rfl

theorem lineFigures_lines {sale : Sale} {totals : OrderTotals} (h : sale.totals = .ok totals) :
    sale.lineFigures.map Prod.fst = sale.activeLines :=
  List.map_fst_zip (totalLines_length h).le

end Sale

/-! ## Section 2: The day -/

namespace Day

/-- How much of a product its row says was sold; nothing where it has no row. -/
def quantityOf (day : Day) (productId : Uuid) : Int :=
  ((day.byProduct.find? (·.productId = productId)).map (·.quantityMilli.val)).getD 0

/-- What a product's row says it brought in; nothing where it has no row. -/
def revenueOf (day : Day) (productId : Uuid) : Int :=
  ((day.byProduct.find? (·.productId = productId)).map (·.revenue.minor.val)).getD 0

/-- The product rows of a day account for every line that was sold. -/
structure AccountsForLines (day : Day) (sales : List Sale) : Prop where
  quantity : ∀ productId, day.quantityOf productId =
    keySum (·.productId) (·.quantity.milli.val) (sales.flatMap (·.activeLines)) productId
  revenue : ∀ productId, day.revenueOf productId =
    keySum (·.1.productId) (·.2.total.minor.val) (sales.flatMap (·.lineFigures)) productId
  takings : (day.byProduct.map (·.revenue.minor.val)).sum = day.takings.minor.val

/-- What the lines out of step are dealt comes to what is theirs, product by product. -/
structure EvensOut (sales : List Sale) : Prop where
  quantity : ∀ productId,
    keySum (·.1.productId) (·.1.quantity.milli.val) (sales.flatMap (·.misdealt)) productId =
      keySum (·.1.productId) (·.1.quantity.milli.val) (sales.flatMap (·.displaced)) productId
  revenue : ∀ productId,
    keySum (·.1.productId) (·.2.total.minor.val) (sales.flatMap (·.misdealt)) productId =
      keySum (·.1.productId) (·.2.total.minor.val) (sales.flatMap (·.displaced)) productId

/-- No quantity of a product runs full as the report adds it up. -/
def Unsaturated (sales : List Sale) : Prop :=
  ∀ productId, I64.NeverFull
    ((((countedOf sales).flatMap (·.soldLines)).filter (·.1.productId = productId)).map
      (·.1.quantity.milli))

variable {sales : List Sale} {currency : Currency} {day : Day}

/-- Quantities that are small enough together do not run full. -/
theorem unsaturated_of_abs (h : (((countedOf sales).flatMap (·.soldLines)).map
    fun pair => |pair.1.quantity.milli.val|).sum < 9223372036854775808) : Unsaturated sales := by
  intro productId
  refine I64.neverFull_of_abs (lt_of_le_of_lt ?_ h)
  rw [List.map_map]
  exact sum_filter_le _ fun pair _ => abs_nonneg _

/-- A figure that the row of each product takes from what was posted to it, product by product
    and over all rows. -/
theorem of_rows (h : Day.of sales currency = .ok day) {value : ProductRow → Int}
    {weight : SaleLine × LineTotals → Int}
    (hvalue : ∀ k row, row.AddsUp currency k
        (((countedOf sales).flatMap (·.soldLines)).filter (·.1.productId = k)) →
      value row = keySum (·.1.productId) weight ((countedOf sales).flatMap (·.soldLines)) k) :
    (∀ productId, ((day.byProduct.find? (·.productId = productId)).map value).getD 0 =
        keySum (·.1.productId) weight ((countedOf sales).flatMap (·.soldLines)) productId) ∧
      (day.byProduct.map value).sum =
        (((countedOf sales).flatMap (·.soldLines)).map weight).sum := by
  obtain ⟨tally, hposted, -, -, hproducts, -⟩ := of_posted h
  have hrows := ProductRow.posted hposted.products
  -- the rows are sorted for the report, which changes no sum
  have hperm : day.byProduct.Perm (tally.products.toList.map (·.2)) := by
    rw [hproducts]
    exact List.perm_insertionSort _ _
  have hlabelled : (ProductRow.posting currency).Posted
      (fun k seen row => row.productId = k ∧ value row = (seen.map weight).sum)
      ((countedOf sales).flatMap (·.soldLines)) tally.products :=
    hrows.imp fun k row hrow => ⟨hrow.productId, hvalue k row hrow⟩
  have hnodup : (day.byProduct.map (·.productId)).Nodup :=
    (hperm.map _).nodup_iff.mpr hlabelled.nodup_labels
  constructor
  · intro productId
    rw [← keySum_eq_find? hnodup, keySum_perm hperm, hlabelled.keySum_rows]
    rfl
  · rw [(hperm.map _).sum_eq, List.map_map]
    exact (hlabelled.mono fun k seen row hrow => hrow.2).sum

/-- What the product rows brought in is what was posted to them. -/
theorem of_revenue (h : Day.of sales currency = .ok day) :
    (∀ productId, day.revenueOf productId = keySum (·.1.productId) (·.2.total.minor.val)
        ((countedOf sales).flatMap (·.soldLines)) productId) ∧
      (day.byProduct.map (·.revenue.minor.val)).sum =
        (((countedOf sales).flatMap (·.soldLines)).map (·.2.total.minor.val)).sum :=
  of_rows h fun _ _ hrow => hrow.revenue.2

/-- Quantities that do not run full come to what was posted. -/
theorem of_quantity (h : Day.of sales currency = .ok day) (hsat : Unsaturated sales)
    (productId : Uuid) : day.quantityOf productId =
      keySum (·.1.productId) (·.1.quantity.milli.val) ((countedOf sales).flatMap (·.soldLines))
        productId := by
  refine (of_rows h fun k row hrow => ?_).1 productId
  have hsum := I64.foldl_saturatingAdd_val (hsat k)
  rw [List.map_map] at hsum
  rw [hrow.quantityMilli]
  exact hsum

/-- What the lines of a product are dealt: what is theirs where they are in step, and what lies
    at their places where they are not. -/
theorem keySum_soldLines (hcompleted : ∀ sale ∈ sales, sale.Reached ∧ sale.status = .completed)
    (f : SaleLine × LineTotals → Int) (productId : Uuid) :
    keySum (·.1.productId) f ((countedOf sales).flatMap (·.soldLines)) productId =
      keySum (·.1.productId) f (sales.flatMap (·.inStep)) productId +
        keySum (·.1.productId) f (sales.flatMap (·.misdealt)) productId := by
  simp only [keySum_flatMap]
  rw [← List.sum_map_add, countedOf_completed _ hcompleted fun sale c hc => ?_]
  rw [Sale.soldLines_split hc, keySum_append]

theorem keySum_lineFigures (hcompleted : ∀ sale ∈ sales, sale.Reached ∧ sale.status = .completed)
    (f : SaleLine × LineTotals → Int) (productId : Uuid) :
    keySum (·.1.productId) f (sales.flatMap (·.lineFigures)) productId =
      keySum (·.1.productId) f (sales.flatMap (·.inStep)) productId +
        keySum (·.1.productId) f (sales.flatMap (·.displaced)) productId := by
  simp only [keySum_flatMap]
  rw [← List.sum_map_add]
  refine congrArg List.sum (List.map_congr_left fun sale hsale => ?_)
  obtain ⟨hreached, hstatus⟩ := hcompleted sale hsale
  obtain ⟨totals, _, _, _, hsettled⟩ := hreached.sound.settled hstatus
  rw [Sale.lineFigures_split hsettled.totals_ok, keySum_append]

theorem keySum_activeLines (hcompleted : ∀ sale ∈ sales, sale.Reached ∧ sale.status = .completed)
    (f : SaleLine → Int) (productId : Uuid) :
    keySum (·.productId) f (sales.flatMap (·.activeLines)) productId =
      keySum (·.1.productId) (fun pair => f pair.1) (sales.flatMap (·.lineFigures)) productId := by
  simp only [keySum_flatMap]
  refine congrArg List.sum (List.map_congr_left fun sale hsale => ?_)
  obtain ⟨hreached, hstatus⟩ := hcompleted sale hsale
  obtain ⟨totals, _, _, _, hsettled⟩ := hreached.sound.settled hstatus
  rw [← Sale.lineFigures_lines hsettled.totals_ok, keySum, List.filter_map, List.map_map]
  rfl

/-- The takings of a day are what the lines sold come to. -/
theorem takings_lineFigures (h : Day.of sales currency = .ok day)
    (hcompleted : ∀ sale ∈ sales, sale.Reached ∧ sale.status = .completed) :
    day.takings.minor.val = ((sales.flatMap (·.lineFigures)).map (·.2.total.minor.val)).sum := by
  refine ((of_eq_ok h).2 .takings).trans ?_
  rw [sum_map_flatMap]
  refine congrArg List.sum (List.map_congr_left fun sale hsale => ?_)
  obtain ⟨hreached, hstatus⟩ := hcompleted sale hsale
  obtain ⟨totals, _, _, _, hsettled⟩ := hreached.sound.settled hstatus
  rw [Figure.ofSale, hsettled.settledTotal, hsettled.totals_ok, Sale.lineFigures,
    Sale.totalLines_eq hsettled.totals_ok]
  exact (Sale.figures_paired hsettled.totals_ok).total.symm

/-- **Product rows, exactly**: over completed sales, and where no quantity runs full, the product
    rows account for every line that was sold when what the lines after a voided one are dealt
    evens out with what is theirs. -/
theorem accountsForLines_iff (h : Day.of sales currency = .ok day)
    (hcompleted : ∀ sale ∈ sales, sale.Reached ∧ sale.status = .completed)
    (hsat : Unsaturated sales) : day.AccountsForLines sales ↔ EvensOut sales := by
  have hquantity := of_quantity h hsat
  obtain ⟨hrevenue, hall⟩ := of_revenue h
  have htakings := takings_lineFigures h hcompleted
  -- what the lines add up to is on both sides, and what is misdealt is left
  constructor
  · intro haccounts
    constructor
    · intro productId
      have hsame := haccounts.quantity productId
      rw [hquantity, keySum_soldLines hcompleted, keySum_activeLines hcompleted,
        keySum_lineFigures hcompleted] at hsame
      exact add_left_cancel hsame
    · intro productId
      have hsame := haccounts.revenue productId
      rw [hrevenue, keySum_soldLines hcompleted, keySum_lineFigures hcompleted] at hsame
      exact add_left_cancel hsame
  · intro heven
    have hproduct : ∀ productId,
        keySum (·.1.productId) (·.2.total.minor.val) ((countedOf sales).flatMap (·.soldLines))
          productId =
        keySum (·.1.productId) (·.2.total.minor.val) (sales.flatMap (·.lineFigures))
          productId := by
      intro productId
      rw [keySum_soldLines hcompleted, keySum_lineFigures hcompleted, heven.revenue productId]
    constructor
    · intro productId
      rw [hquantity, keySum_soldLines hcompleted, keySum_activeLines hcompleted,
        keySum_lineFigures hcompleted, heven.quantity productId]
    · intro productId
      rw [hrevenue, hproduct]
    · rw [hall, htakings]
      exact sum_eq_of_keySum_eq hproduct

/-- Where no active line stands after a voided one, all evens out. -/
theorem evensOut_of_voids_last
    (h : ∀ sale ∈ sales, sale.trailing.filter (·.isActive) = []) : EvensOut sales := by
  have hnone : sales.flatMap (·.misdealt) = [] ∧ sales.flatMap (·.displaced) = [] := by
    constructor
    · refine List.flatMap_eq_nil_iff.mpr fun sale hsale => ?_
      refine List.filter_eq_nil_iff.mpr fun pair hpair => ?_
      exact List.filter_eq_nil_iff.mp (h sale hsale) pair.1 (List.of_mem_zip hpair).1
    · refine List.flatMap_eq_nil_iff.mpr fun sale hsale => ?_
      rw [Sale.displaced, h sale hsale]
      rfl
  constructor
  · intro productId
    rw [hnone.1, hnone.2]
  · intro productId
    rw [hnone.1, hnone.2]

/-- Two lines of which the second is voided before the bill is paid. -/
def voidedLast : List SaleEvent :=
  Sale.twoLineTicket
    [.lineVoided 1 11 .mistake 9,
     .tenderRecorded 1 20 .cash ⟨I64.lit 100, .bdt⟩ none,
     .completed 1 ⟨I64.lit 100, .bdt⟩ ⟨I64.lit 0, .bdt⟩ .epoch]

/-- Two lines of which the first is voided before the bill is paid. -/
def voidedFirst : List SaleEvent :=
  Sale.twoLineTicket
    [.lineVoided 1 10 .mistake 9,
     .tenderRecorded 1 20 .cash ⟨I64.lit 50, .bdt⟩ none,
     .completed 1 ⟨I64.lit 50, .bdt⟩ ⟨I64.lit 0, .bdt⟩ .epoch]

theorem accountsForLines_iff_voidedLast : ∃ day,
    Day.of [Sale.replayed voidedLast] .bdt = .ok day ∧
      (day.AccountsForLines [Sale.replayed voidedLast] ↔ EvensOut [Sale.replayed voidedLast]) := by
  have hokay : (Day.of [Sale.replayed voidedLast] .bdt).isOkay := by decide +kernel
  obtain ⟨day, hday⟩ := Except.isOkay_iff.mp hokay
  have hreached : (Sale.replayed voidedLast).Reached :=
    @Sale.replay_reached voidedLast _ (by decide)
  refine ⟨day, hday, accountsForLines_iff hday (fun sale hsale => ?_)
    (unsaturated_of_abs (by decide))⟩
  rw [List.mem_singleton.mp hsale]
  exact ⟨hreached, by decide⟩

/-- A void before the only line that was sold: the line has no row, and its takings are missing
    from the rows. -/
theorem voidedFirst_unaccounted : ¬ ∀ (sales : List Sale) (currency : Currency) (day : Day),
    Day.of sales currency = .ok day →
    (∀ sale ∈ sales, sale.Reached ∧ sale.status = .completed) → Unsaturated sales →
    day.AccountsForLines sales := by
  intro hclaim
  have hokay : (Day.of [Sale.replayed voidedFirst] .bdt).isOkay := by decide +kernel
  obtain ⟨day, hday⟩ := Except.isOkay_iff.mp hokay
  have hreached : (Sale.replayed voidedFirst).Reached :=
    @Sale.replay_reached voidedFirst _ (by decide)
  have hcompleted : ∀ sale ∈ [Sale.replayed voidedFirst],
      sale.Reached ∧ sale.status = .completed := by
    intro sale hsale
    rw [List.mem_singleton.mp hsale]
    exact ⟨hreached, by decide⟩
  have hsat : Unsaturated [Sale.replayed voidedFirst] := unsaturated_of_abs (by decide)
  have hrows := (hclaim _ _ day hday hcompleted hsat).takings
  rw [(of_revenue hday).2, takings_lineFigures hday hcompleted] at hrows
  revert hrows
  decide

end Day

end Sahl
