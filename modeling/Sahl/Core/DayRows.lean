import Mathlib.Tactic
import Sahl.Core.Day
import Sahl.Core.Settled
import Sahl.Lib.Keyed

/-! # The rows of a day

    A report counts the sales that have been settled. Each is posted to the row of its cashier,
    each of its tenders to the row of the method, each line sold to the row of the product; the
    rows are read off once all sales are counted (`of_posted`). -/

namespace Sahl

/-! ## Section 1: What a report counts -/

/-- An amount in a currency. -/
def Money.Holds (money : Money) (currency : Currency) (minor : Int) : Prop :=
  money.currency = currency ∧ money.minor.val = minor

namespace Money.Holds

variable {a b c : Money} {currency : Currency} {minor : Int}

theorem zero (currency : Currency) : (Money.zero currency).Holds currency 0 := ⟨rfl, rfl⟩

theorem plus (h : a.Holds currency minor) (hplus : a.plus b = .ok c) :
    c.Holds currency (minor + b.minor.val) := by
  obtain ⟨hcurrency, hminor⟩ := Money.plus_eq_ok hplus
  exact ⟨hcurrency.trans h.1, by rw [hminor, h.2]⟩

theorem unique (ha : a.Holds currency minor) (hb : b.Holds currency minor) : a = b :=
  Money.eq_of_val (ha.1.trans hb.1.symm) (ha.2.trans hb.2.symm)

theorem not_positive (h : minor ≤ 0) (d : Money) : ¬ (d.Holds currency minor ∧ 0 < d.minor.val) := by
  intro hd
  have hminor := hd.1.2
  omega

end Money.Holds

/-- A sale that a report counts, with the figures read of it. -/
structure Counted where
  sale : Sale
  total : Money
  totals : OrderTotals

def Sale.counted (sale : Sale) : Option Counted :=
  match sale.settledTotal, sale.totals with
  | some total, .ok totals => some ⟨sale, total, totals⟩
  | _, _ => none

namespace Counted

/-- The tenders, each beside the change of the sale. -/
def tendered (currency : Currency) (c : Counted) : List (Money × Tender) :=
  c.sale.tenders.map fun tender => (c.sale.changeGiven.getD (.zero currency), tender)

/-- The lines that go to a product's row, each beside the figures at its place. -/
def soldLines (c : Counted) : List (SaleLine × LineTotals) :=
  (c.sale.lines.zip c.totals.lines).filter (·.1.isActive)

end Counted

/-- The sales of a list that a report counts. -/
def countedOf (sales : List Sale) : List Counted := sales.filterMap Sale.counted

theorem countedOf_append (sales : List Sale) (sale : Sale) :
    countedOf (sales ++ [sale]) = countedOf sales ++ sale.counted.toList := by
  unfold countedOf
  rw [List.filterMap_append, filterMap_cons_toList]
  simp

namespace Sale

/-- The figures of the active lines, where there are any. -/
def totalLines (sale : Sale) : List LineTotals :=
  match sale.totals with
  | .ok totals => totals.lines
  | .error _ => []

/-- A completed sale is counted, with the figures it was settled on. -/
theorem Settled.counted {sale : Sale} {totals : OrderTotals} {tendered change : Money}
    {at' : Timestamp} (h : sale.Settled totals tendered change at') :
    sale.counted = some ⟨sale, totals.total, totals⟩ := by
  unfold Sale.counted
  rw [h.settledTotal, h.totals_ok]

theorem counted_eq_some {sale : Sale} {c : Counted} (h : sale.counted = some c) :
    c.sale = sale ∧ sale.settledTotal = some c.total ∧ sale.totals = .ok c.totals := by
  unfold Sale.counted at h
  split at h
  · rename_i total totals hsettled htotals
    cases h
    exact ⟨rfl, hsettled, htotals⟩
  · cases h

end Sale

/-- Of completed sales all are counted. -/
theorem countedOf_completed {sales : List Sale} {M : Type} {g : Counted → M} (g' : Sale → M)
    (hcompleted : ∀ sale ∈ sales, sale.Reached ∧ sale.status = .completed)
    (hg : ∀ sale c, sale.counted = some c → g c = g' sale) :
    (countedOf sales).map g = sales.map g' := by
  induction sales with
  | nil => rfl
  | cons sale sales ih =>
    obtain ⟨⟨hreached, hstatus⟩, hrest⟩ := List.forall_mem_cons.mp hcompleted
    obtain ⟨totals, tendered, change, at', hsettled⟩ := hreached.sound.settled hstatus
    unfold countedOf at ih ⊢
    rw [List.filterMap_cons_some hsettled.counted, List.map_cons, List.map_cons, ih hrest,
      hg sale _ hsettled.counted]

/-! ## Section 2: Postings -/

/-- Settled sales to the rows of those who opened them. -/
def CashierRow.posting (currency : Currency) : Posting Counted Uuid CashierRow SaleError where
  key := fun c => c.sale.openedBy
  fresh := fun c => .empty c.sale.openedBy currency
  add := fun row c => row.count c.total c.totals c.sale.voidCount

/-- Tenders to the rows of their methods. -/
def PaymentRow.posting (currency : Currency) :
    Posting (Money × Tender) TenderMethod PaymentRow SaleError where
  key := fun entry => entry.2.method
  fresh := fun entry => .empty entry.2.method currency
  add := fun row entry => row.countTender entry.1 entry.2

/-- Lines to the rows of their products. -/
def ProductRow.posting (currency : Currency) :
    Posting (SaleLine × LineTotals) Uuid ProductRow SaleError where
  key := fun entry => entry.1.productId
  fresh := fun entry => .empty entry.1 currency
  add := fun row entry => row.countLine entry.1 entry.2

namespace Day

/-- The figures of a day come to what is counted. -/
structure AddsUp (currency : Currency) (counted : List Counted) (day : Day) : Prop where
  takings : day.takings.Holds currency (counted.map (·.total.minor.val)).sum
  net : day.net.Holds currency (counted.map (·.totals.net.minor.val)).sum
  tax : day.tax.Holds currency (counted.map (·.totals.tax.minor.val)).sum
  discount : day.discount.Holds currency (counted.map (·.totals.discount.minor.val)).sum
  sales : day.sales = counted.length
  voids : day.voids = (counted.map (·.sale.voidCount)).sum
  currency : day.currency = currency

theorem empty_addsUp (currency : Currency) : (empty currency).AddsUp currency [] :=
  ⟨.zero currency, .zero currency, .zero currency, .zero currency, rfl, rfl, rfl⟩

theorem count_addsUp {currency : Currency} {counted : List Counted} {day day' : Day} {c : Counted}
    (hday : day.AddsUp currency counted)
    (h : day.count c.total c.totals c.sale.voidCount = .ok day') :
    day'.AddsUp currency (counted ++ [c]) := by
  simp only [count, Except.bind_eq_ok] at h
  obtain ⟨takings, htakings, net, hnet, tax, htax, discount, hdiscount, h⟩ := h
  cases h
  constructor
  · simpa using hday.takings.plus htakings
  · simpa using hday.net.plus hnet
  · simpa using hday.tax.plus htax
  · simpa using hday.discount.plus hdiscount
  · simp [hday.sales]
  · simp [hday.voids]
  · exact hday.currency

/-- Rows to which everything counted has been posted. -/
structure Tally.Posted (currency : Currency) (counted : List Counted) (tally : Tally) : Prop where
  day : tally.day.AddsUp currency counted
  cashiers : counted.foldlM (CashierRow.posting currency).post ∅ = .ok tally.cashiers
  payments : (counted.flatMap (·.tendered currency)).foldlM (PaymentRow.posting currency).post ∅ =
    .ok tally.payments
  products : (counted.flatMap (·.soldLines)).foldlM (ProductRow.posting currency).post ∅ =
    .ok tally.products

namespace Tally

theorem countTenders_eq_ok {currency : Currency} {change : Money} {tenders : List Tender}
    {tally tally' : Tally} (h : tenders.foldlM (countTender currency change) tally = .ok tally') :
    tally'.day = tally.day ∧
      (tenders.map fun tender => (change, tender)).foldlM (PaymentRow.posting currency).post
        tally.payments = .ok tally'.payments ∧
      tally'.cashiers = tally.cashiers ∧ tally'.products = tally.products := by
  induction tenders generalizing tally with
  | nil =>
    cases h
    exact ⟨rfl, rfl, rfl, rfl⟩
  | cons tender tenders ih =>
    obtain ⟨next, hnext, hrest⟩ := foldlM_cons_eq_ok.mp h
    obtain ⟨row, hrow, hsame⟩ := Except.bind_eq_ok.mp hnext
    cases hsame
    obtain ⟨hday, hpayments, hcashiers, hproducts⟩ := ih hrest
    refine ⟨hday, foldlM_cons_eq_ok.mpr ⟨_, ?_, hpayments⟩, hcashiers, hproducts⟩
    exact Posting.post_eq_ok.mpr ⟨row, hrow, rfl⟩

theorem countLines_eq_ok {currency : Currency} {lines : List (SaleLine × LineTotals)}
    {tally tally' : Tally} (h : lines.foldlM (countLine currency) tally = .ok tally') :
    tally'.day = tally.day ∧
      (lines.filter (·.1.isActive)).foldlM (ProductRow.posting currency).post tally.products =
        .ok tally'.products ∧
      tally'.cashiers = tally.cashiers ∧ tally'.payments = tally.payments := by
  induction lines generalizing tally with
  | nil =>
    cases h
    exact ⟨rfl, rfl, rfl, rfl⟩
  | cons line lines ih =>
    obtain ⟨next, hnext, hrest⟩ := foldlM_cons_eq_ok.mp h
    unfold countLine at hnext
    -- a voided line is passed over and posts nothing
    by_cases hactive : line.1.isActive
    · rw [if_pos hactive] at hnext
      obtain ⟨row, hrow, hsame⟩ := Except.bind_eq_ok.mp hnext
      cases hsame
      obtain ⟨hday, hproducts, hcashiers, hpayments⟩ := ih hrest
      have hkept : (line :: lines).filter (·.1.isActive) = line :: lines.filter (·.1.isActive) :=
        List.filter_cons_of_pos hactive
      rw [hkept]
      refine ⟨hday, foldlM_cons_eq_ok.mpr ⟨_, ?_, hproducts⟩, hcashiers, hpayments⟩
      exact Posting.post_eq_ok.mpr ⟨row, hrow, rfl⟩
    · rw [if_neg hactive] at hnext
      cases hnext
      have hpassed : (line :: lines).filter (·.1.isActive) = lines.filter (·.1.isActive) :=
        List.filter_cons_of_neg hactive
      rw [hpassed]
      exact ih hrest

/-- One round posts what is counted of its sale, if anything is. -/
theorem countSale_posted {currency : Currency} {counted : List Counted} {tally tally' : Tally}
    {sale : Sale} (hposted : tally.Posted currency counted)
    (h : tally.countSale currency sale = .ok tally') :
    tally'.Posted currency (counted ++ sale.counted.toList) := by
  unfold countSale at h
  cases hsettled : sale.settledTotal with
  | none =>
    rw [hsettled] at h
    cases h
    have hnone : sale.counted = none := by simp [Sale.counted, hsettled]
    rw [hnone]
    simpa using hposted
  | some total =>
    rw [hsettled] at h
    simp only [Except.bind_eq_ok] at h
    obtain ⟨totals, htotals, day, hday, row, hrow, tally₁, htenders, hlines⟩ := h
    have hcounted : sale.counted = some ⟨sale, total, totals⟩ := by
      simp [Sale.counted, hsettled, htotals]
    -- tenders leave the product rows alone, and lines the payment rows
    obtain ⟨hday₁, hpayments, hcashiers₁, hproducts₁⟩ := countTenders_eq_ok htenders
    obtain ⟨hday₂, hproducts, hcashiers, hpayments₁⟩ := countLines_eq_ok hlines
    rw [hcounted, Option.toList_some]
    constructor
    · rw [hday₂, hday₁]
      exact @count_addsUp _ _ _ _ ⟨sale, total, totals⟩ hposted.day hday
    · rw [hcashiers, hcashiers₁]
      refine foldlM_append_eq_ok.mpr ⟨_, hposted.cashiers, foldlM_cons_eq_ok.mpr ⟨_, ?_, rfl⟩⟩
      exact Posting.post_eq_ok.mpr ⟨row, hrow, rfl⟩
    · rw [List.flatMap_append, List.flatMap_singleton, hpayments₁]
      exact foldlM_append_eq_ok.mpr ⟨_, hposted.payments, hpayments⟩
    · rw [List.flatMap_append, List.flatMap_singleton]
      rw [hproducts₁] at hproducts
      exact foldlM_append_eq_ok.mpr ⟨_, hposted.products, hproducts⟩

end Tally

theorem average_congr {day day' : Day} (hsales : day.sales = day'.sales)
    (htakings : day.takings = day'.takings) (currency : Currency) :
    day.average currency = day'.average currency := by
  unfold average
  rw [hsales, htakings]

/-- The rows of an answered report are read off what its sales were posted to. -/
theorem of_posted {sales : List Sale} {currency : Currency} {day : Day}
    (h : of sales currency = .ok day) :
    ∃ tally : Tally, tally.Posted currency (countedOf sales) ∧
      day.byCashier = tally.cashiers.toList.map (·.2) ∧
      day.byPayment = tally.payments.toList.map (·.2) ∧
      day.byProduct = (tally.products.toList.map (·.2)).insertionSort ProductRow.Before ∧
      day.average currency = .ok day.averageSale ∧ day.AddsUp currency (countedOf sales) := by
  simp only [of, Except.bind_eq_ok] at h
  obtain ⟨tally, htally, average, haverage, h⟩ := h
  cases h
  have hposted : tally.Posted currency (countedOf sales) := by
    refine foldlM_invariant (fun seen (t : Tally) => t.Posted currency (countedOf seen))
      (fun seen t sale t' ht hstep => ?_) ?_ htally
    · rw [countedOf_append]
      exact Tally.countSale_posted ht hstep
    · exact ⟨empty_addsUp currency, rfl, rfl, rfl⟩
  refine ⟨tally, hposted, rfl, rfl, rfl, ?_, ?_⟩
  · exact (average_congr rfl rfl currency).trans haverage
  · obtain ⟨htakings, hnet, htax, hdiscount, hsales, hvoids, hcurrency⟩ := hposted.day
    exact ⟨htakings, hnet, htax, hdiscount, hsales, hvoids, hcurrency⟩

end Day

/-! ## Section 3: What a row comes to -/

/-- The row of a cashier comes to what the sales they opened do. -/
structure CashierRow.AddsUp (currency : Currency) (staffId : Uuid) (seen : List Counted)
    (row : CashierRow) : Prop where
  staffId : row.staffId = staffId
  sales : row.sales = seen.length
  takings : row.takings.Holds currency (seen.map (·.total.minor.val)).sum
  discount : row.discount.Holds currency (seen.map (·.totals.discount.minor.val)).sum
  voids : row.voids = (seen.map (·.sale.voidCount)).sum

/-- What a tender adds to the row of its method: the change of its sale comes off every tender
    that may be overpaid. -/
def takenOf (entry : Money × Tender) : Int :=
  entry.2.amount.minor.val - if entry.2.method.acceptsOvertender then entry.1.minor.val else 0

/-- The row of a method comes to what its tenders do. -/
structure PaymentRow.AddsUp (currency : Currency) (method : TenderMethod)
    (seen : List (Money × Tender)) (row : PaymentRow) : Prop where
  method : row.method = method
  count : row.count = seen.length
  taken : row.taken.Holds currency (seen.map takenOf).sum

/-- The row of a product comes to what its lines do, under the name of the first. -/
structure ProductRow.AddsUp (currency : Currency) (productId : Uuid)
    (seen : List (SaleLine × LineTotals)) (row : ProductRow) : Prop where
  productId : row.productId = productId
  name : seen.head?.map (·.1.name) = some row.name
  quantityMilli : row.quantityMilli =
    (seen.map (·.1.quantity.milli)).foldl SInt.saturatingAdd 0
  revenue : row.revenue.Holds currency (seen.map (·.2.total.minor.val)).sum

namespace CashierRow

theorem count_eq_ok {row row' : CashierRow} {total : Money} {totals : OrderTotals} {voids : Nat}
    (h : row.count total totals voids = .ok row') :
    ∃ takings discount, row.takings.plus total = .ok takings ∧
      row.discount.plus totals.discount = .ok discount ∧
      row' = { row with
        sales := row.sales + 1, takings, discount, voids := row.voids + voids } := by
  simp only [count, Except.bind_eq_ok] at h
  obtain ⟨takings, htakings, discount, hdiscount, h⟩ := h
  cases h
  exact ⟨takings, discount, htakings, hdiscount, rfl⟩

theorem posted {currency : Currency} {counted : List Counted} {cashiers : UuidMap CashierRow}
    (h : counted.foldlM (posting currency).post ∅ = .ok cashiers) :
    (posting currency).Posted (AddsUp currency) counted cashiers := by
  refine Posting.posted (fun c row hrow => ?_) (fun seen row c row' hseen hrow => ?_) h
  · obtain ⟨takings, discount, htakings, hdiscount, rfl⟩ := count_eq_ok hrow
    refine ⟨rfl, rfl, ?_, ?_, Nat.zero_add _⟩
    · simpa using (Money.Holds.zero currency).plus htakings
    · simpa using (Money.Holds.zero currency).plus hdiscount
  · obtain ⟨takings, discount, htakings, hdiscount, rfl⟩ := count_eq_ok hrow
    refine ⟨hseen.staffId, ?_, ?_, ?_, ?_⟩
    · simp [hseen.sales]
    · simpa using hseen.takings.plus htakings
    · simpa using hseen.discount.plus hdiscount
    · simp [hseen.voids]

end CashierRow

namespace PaymentRow

theorem lessChange_holds {method : TenderMethod} {change a b : Money} {currency : Currency}
    {minor : Int} (ha : a.Holds currency minor) (h : lessChange method change a = .ok b) :
    b.Holds currency (minor - if method.acceptsOvertender then change.minor.val else 0) := by
  unfold lessChange at h
  split at h
  · rename_i hoff
    obtain ⟨-, hcurrency, hminor⟩ := Money.checkedSub_eq_ok.mp (Except.mapError_eq_ok.mp h)
    rw [if_pos hoff.1]
    exact ⟨hcurrency.trans ha.1, by rw [hminor, ha.2]⟩
  · rename_i hkept
    cases h
    refine ⟨ha.1, ?_⟩
    rw [ha.2]
    by_cases hmethod : method.acceptsOvertender
    · have hnone : change.minor.val = 0 := by
        by_contra hne
        exact hkept ⟨hmethod, hne⟩
      rw [if_pos hmethod, hnone, sub_zero]
    · rw [if_neg hmethod, sub_zero]

theorem countTender_addsUp {currency : Currency} {row row' : PaymentRow} {entry : Money × Tender}
    {minor : Int} (hrow : row.taken.Holds currency minor)
    (h : row.countTender entry.1 entry.2 = .ok row') :
    row'.method = row.method ∧ row'.count = row.count + 1 ∧
      row'.taken.Holds currency (minor + takenOf entry) := by
  simp only [countTender, Except.bind_eq_ok] at h
  obtain ⟨taken, htaken, less, hless, h⟩ := h
  cases h
  refine ⟨rfl, rfl, ?_⟩
  have hholds := lessChange_holds (hrow.plus htaken) hless
  rwa [takenOf, ← add_sub_assoc]

theorem posted {currency : Currency} {entries : List (Money × Tender)}
    {payments : Std.ExtTreeMap TenderMethod PaymentRow compare}
    (h : entries.foldlM (posting currency).post ∅ = .ok payments) :
    (posting currency).Posted (AddsUp currency) entries payments := by
  refine Posting.posted (fun e row hrow => ?_) (fun seen row e row' hseen hrow => ?_) h
  · obtain ⟨hmethod, hcount, htaken⟩ := countTender_addsUp (Money.Holds.zero currency) hrow
    exact ⟨hmethod, hcount, by simpa using htaken⟩
  · obtain ⟨hmethod, hcount, htaken⟩ := countTender_addsUp hseen.taken hrow
    refine ⟨hmethod.trans hseen.method, ?_, by simpa using htaken⟩
    rw [hcount, hseen.count, List.length_append, List.length_singleton]

end PaymentRow

namespace ProductRow

theorem countLine_eq_ok {row row' : ProductRow} {line : SaleLine} {computed : LineTotals}
    (h : row.countLine line computed = .ok row') :
    ∃ revenue, row.revenue.plus computed.total = .ok revenue ∧
      row' = { row with
        quantityMilli := row.quantityMilli.saturatingAdd line.quantity.milli, revenue } := by
  obtain ⟨revenue, hrevenue, h⟩ := Except.bind_eq_ok.mp h
  cases h
  exact ⟨revenue, hrevenue, rfl⟩

theorem posted {currency : Currency} {entries : List (SaleLine × LineTotals)}
    {products : UuidMap ProductRow}
    (h : entries.foldlM (posting currency).post ∅ = .ok products) :
    (posting currency).Posted (AddsUp currency) entries products := by
  refine Posting.posted (fun e row hrow => ?_) (fun seen row e row' hseen hrow => ?_) h
  · obtain ⟨revenue, hrevenue, rfl⟩ := countLine_eq_ok hrow
    exact ⟨rfl, rfl, rfl, by simpa using (Money.Holds.zero currency).plus hrevenue⟩
  · obtain ⟨revenue, hrevenue, rfl⟩ := countLine_eq_ok hrow
    refine ⟨hseen.productId, ?_, ?_, by simpa using hseen.revenue.plus hrevenue⟩
    · -- the name was given by the first line already
      rw [List.head?_append]
      cases hhead : seen.head? with
      | none =>
        have hname := hseen.name
        rw [hhead] at hname
        cases hname
      | some first =>
        have hname := hseen.name
        rw [hhead] at hname
        simpa using hname
    · rw [List.map_append, List.foldl_append, ← hseen.quantityMilli]
      rfl

end ProductRow

end Sahl
