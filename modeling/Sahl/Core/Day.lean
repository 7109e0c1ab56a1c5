import Mathlib.Tactic
import Sahl.Core.SaleHistory

/-! # A day, totalled

    A report adds up completed sales: the figures of the day, and a row for each cashier, each
    method of payment and each product. What a report says of the day is the sum of what it says
    of the sales (`of_figure`), in whatever groups they are reported. -/

namespace Sahl

/-! ## Section 1: Rows -/

/-- A method's place in the order the rows of a report are in. -/
def Wallet.rank : Wallet → Nat
  | .bkash => 0
  | .nagad => 1
  | .rocket => 2
  | .upay => 3
  | .stcPay => 4

namespace TenderMethod

@[inherit_doc Wallet.rank]
def rank : TenderMethod → Nat
  | .cash => 0
  | .card => 1
  | .mobileWallet wallet => 2 + wallet.rank
  | .bankTransfer => 7
  | .storeCredit => 8

theorem rank_injective : Function.Injective rank := by
  intro a b h
  cases a with
  | mobileWallet v =>
    cases b with
    | mobileWallet w =>
      have hrank : v.rank = w.rank := by simpa [rank] using h
      cases v <;> cases w <;> first | rfl | cases hrank
    | _ => cases v <;> cases h
  | _ =>
    cases b with
    | mobileWallet w => cases w <;> cases h
    | _ => first | rfl | cases h

instance : LinearOrder TenderMethod := LinearOrder.lift' rank rank_injective

instance : Std.LawfulEqCmp (compare : TenderMethod → TenderMethod → Ordering) :=
  ⟨fun h => compare_eq_iff_eq.mp h⟩

end TenderMethod

/-- One cashier's part of the day. Counts are of things held in memory, so they do not run out. -/
structure CashierRow where
  staffId : Uuid
  sales : Nat
  takings : Money
  discount : Money
  /-- Lines struck off: how many, not what they would have come to. -/
  voids : Nat
  deriving DecidableEq

/-- What was taken by one method. -/
structure PaymentRow where
  method : TenderMethod
  count : Nat
  /-- What was handed over, less the change given back. -/
  taken : Money
  deriving DecidableEq

/-- One product's part of the day. -/
structure ProductRow where
  productId : Uuid
  name : String
  /-- Thousandths, so a weighed line counts as what it weighed. -/
  quantityMilli : I64
  revenue : Money
  deriving DecidableEq

/-- A day's trading, completed sales only. -/
structure Day where
  currency : Currency
  sales : Nat
  takings : Money
  net : Money
  tax : Money
  discount : Money
  averageSale : Money
  voids : Nat
  byCashier : List CashierRow
  byPayment : List PaymentRow
  byProduct : List ProductRow
  deriving DecidableEq

/-- How many lines were voided. -/
def Sale.voidCount (sale : Sale) : Nat := (sale.lines.filter (! ·.isActive)).length

/-! ## Section 2: The report -/

/-- A sum as part of a report. -/
def Money.plus (a b : Money) : Except SaleError Money := (a.checkedAdd b).mapError SaleError.money

theorem Money.plus_eq_ok {a b c : Money} (h : a.plus b = .ok c) :
    c.currency = a.currency ∧ c.minor.val = a.minor.val + b.minor.val :=
  (Money.checkedAdd_eq_ok.mp (Except.mapError_eq_ok.mp h)).2

namespace CashierRow

def empty (staffId : Uuid) (currency : Currency) : CashierRow :=
  { staffId, sales := 0, takings := .zero currency, discount := .zero currency, voids := 0 }

def count (row : CashierRow) (total : Money) (totals : OrderTotals) (voids : Nat) :
    Except SaleError CashierRow := do
  let takings ← row.takings.plus total
  let discount ← row.discount.plus totals.discount
  .ok { row with sales := row.sales + 1, takings, discount, voids := row.voids + voids }

end CashierRow

namespace PaymentRow

def empty (method : TenderMethod) (currency : Currency) : PaymentRow :=
  { method, count := 0, taken := .zero currency }

/-- Change comes off the rows that may be overpaid. -/
def lessChange (method : TenderMethod) (change taken : Money) : Except SaleError Money :=
  if method.acceptsOvertender ∧ change.minor.val ≠ 0 then
    (taken.checkedSub change).mapError SaleError.money
  else .ok taken

def countTender (row : PaymentRow) (change : Money) (tender : Tender) :
    Except SaleError PaymentRow := do
  let taken ← row.taken.plus tender.amount
  let taken ← lessChange tender.method change taken
  .ok { row with count := row.count + 1, taken }

end PaymentRow

namespace ProductRow

def empty (line : SaleLine) (currency : Currency) : ProductRow :=
  { productId := line.productId, name := line.name, quantityMilli := 0, revenue := .zero currency }

def countLine (row : ProductRow) (line : SaleLine) (computed : LineTotals) :
    Except SaleError ProductRow := do
  let revenue ← row.revenue.plus computed.total
  .ok { row with quantityMilli := row.quantityMilli.saturatingAdd line.quantity.milli, revenue }

/-- Busiest first, then by name. -/
def Before (left right : ProductRow) : Prop :=
  right.revenue.minor < left.revenue.minor ∨
    right.revenue.minor = left.revenue.minor ∧ left.name ≤ right.name

instance : DecidableRel Before := fun _ _ => inferInstanceAs (Decidable (_ ∨ _))

end ProductRow

namespace Day

/-- A day on which nothing happened. -/
def empty (currency : Currency) : Day :=
  { currency, sales := 0, takings := .zero currency, net := .zero currency,
    tax := .zero currency, discount := .zero currency, averageSale := .zero currency,
    voids := 0, byCashier := [], byPayment := [], byProduct := [] }

/-- The figures of the day with one more sale. -/
def count (day : Day) (total : Money) (totals : OrderTotals) (voids : Nat) :
    Except SaleError Day := do
  let takings ← day.takings.plus total
  let net ← day.net.plus totals.net
  let tax ← day.tax.plus totals.tax
  let discount ← day.discount.plus totals.discount
  .ok { day with sales := day.sales + 1, takings, net, tax, discount, voids := day.voids + voids }

/-- What the report has added up so far. -/
structure Tally where
  day : Day
  cashiers : UuidMap CashierRow
  payments : Std.ExtTreeMap TenderMethod PaymentRow compare
  products : UuidMap ProductRow

namespace Tally

def countTender (currency : Currency) (change : Money) (tally : Tally) (tender : Tender) :
    Except SaleError Tally := do
  let row ← (tally.payments.getD tender.method (.empty tender.method currency)).countTender
    change tender
  .ok { tally with payments := tally.payments.insert tender.method row }

def countLine (currency : Currency) (tally : Tally) (line : SaleLine × LineTotals) :
    Except SaleError Tally :=
  if line.1.isActive then do
    let row ← (tally.products.getD line.1.productId (.empty line.1 currency)).countLine
      line.1 line.2
    .ok { tally with products := tally.products.insert line.1.productId row }
  else .ok tally

/-- One round of the report; a sale that is not settled is passed over. -/
def countSale (currency : Currency) (tally : Tally) (sale : Sale) : Except SaleError Tally :=
  match sale.settledTotal with
  | none => .ok tally
  | some total => do
    let totals ← sale.totals
    let day ← tally.day.count total totals sale.voidCount
    let row ← (tally.cashiers.getD sale.openedBy (.empty sale.openedBy currency)).count
      total totals sale.voidCount
    let change := sale.changeGiven.getD (.zero currency)
    let tally := { tally with day, cashiers := tally.cashiers.insert sale.openedBy row }
    let tally ← sale.tenders.foldlM (countTender currency change) tally
    -- the lines of the totals are the active ones, those of the sale are all of them
    (sale.lines.zip totals.lines).foldlM (countLine currency) tally

end Tally

/-- Takings divided by sales, or zero on a day with none. -/
def average (day : Day) (currency : Currency) : Except SaleError Money :=
  if day.sales = 0 then .ok (.zero currency)
  else do
    let shares ← (day.takings.allocate (List.replicate day.sales 1)).mapError SaleError.money
    .ok (shares.headD (.zero currency))

/-- Total a set of completed sales. -/
def of (sales : List Sale) (currency : Currency) : Except SaleError Day := do
  let tally ← sales.foldlM (Tally.countSale currency) ⟨empty currency, ∅, ∅, ∅⟩
  let averageSale ← tally.day.average currency
  .ok { tally.day with
    averageSale
    byCashier := tally.cashiers.toList.map (·.2)
    byPayment := tally.payments.toList.map (·.2)
    byProduct := (tally.products.toList.map (·.2)).insertionSort ProductRow.Before }

/-! ## Section 3: What a report adds up -/

/-- The figures of a day that its sales add up to. -/
inductive Figure where
  | sales
  | takings
  | net
  | tax
  | discount

/-- A figure of the day; amounts in minor units. -/
def figure (day : Day) : Figure → Int
  | .sales => day.sales
  | .takings => day.takings.minor.val
  | .net => day.net.minor.val
  | .tax => day.tax.minor.val
  | .discount => day.discount.minor.val

/-- What a settled sale adds to a figure. -/
def Figure.added (total : Money) (totals : OrderTotals) : Figure → Int
  | .sales => 1
  | .takings => total.minor.val
  | .net => totals.net.minor.val
  | .tax => totals.tax.minor.val
  | .discount => totals.discount.minor.val

@[inherit_doc Figure.added]
def Figure.ofSale (figure : Figure) (sale : Sale) : Int :=
  match sale.settledTotal, sale.totals with
  | some total, .ok totals => figure.added total totals
  | _, _ => 0

theorem count_eq_ok {day day' : Day} {total : Money} {totals : OrderTotals} {voids : Nat}
    (h : day.count total totals voids = .ok day') :
    day'.currency = day.currency ∧
      ∀ figure, day'.figure figure = day.figure figure + figure.added total totals := by
  simp only [count, Except.bind_eq_ok] at h
  obtain ⟨takings, htakings, net, hnet, tax, htax, discount, hdiscount, h⟩ := h
  cases h
  refine ⟨rfl, fun figure => ?_⟩
  cases figure with
  | sales => exact Int.natCast_succ day.sales
  | takings => exact (Money.plus_eq_ok htakings).2
  | net => exact (Money.plus_eq_ok hnet).2
  | tax => exact (Money.plus_eq_ok htax).2
  | discount => exact (Money.plus_eq_ok hdiscount).2

theorem Tally.countTender_day {currency : Currency} {change : Money} {tally tally' : Tally}
    {tender : Tender} (h : tally.countTender currency change tender = .ok tally') :
    tally'.day = tally.day := by
  obtain ⟨row, -, h⟩ := Except.bind_eq_ok.mp h
  cases h
  rfl

theorem Tally.countLine_day {currency : Currency} {tally tally' : Tally}
    {line : SaleLine × LineTotals} (h : tally.countLine currency line = .ok tally') :
    tally'.day = tally.day := by
  unfold countLine at h
  split at h
  · obtain ⟨row, -, h⟩ := Except.bind_eq_ok.mp h
    cases h
    rfl
  · cases h
    rfl

/-- A sale adds its own figures to the day, and nothing else. -/
theorem Tally.countSale_eq_ok {currency : Currency} {tally tally' : Tally} {sale : Sale}
    (h : tally.countSale currency sale = .ok tally') :
    tally'.day.currency = tally.day.currency ∧
      ∀ figure, tally'.day.figure figure = tally.day.figure figure + figure.ofSale sale := by
  unfold countSale at h
  cases hsettled : sale.settledTotal with
  | none =>
    rw [hsettled] at h
    cases h
    simp [Figure.ofSale, hsettled]
  | some total =>
    rw [hsettled] at h
    simp only [Except.bind_eq_ok] at h
    obtain ⟨totals, htotals, day, hday, row, -, tendered, htendered, hlines⟩ := h
    -- posting tenders and lines leaves the figures of the day alone
    have htenders : tendered.day = day := by
      refine foldlM_invariant (fun _ (t : Tally) => t.day = day) (fun _ t tender t' ht hstep => ?_)
        rfl htendered
      exact (countTender_day hstep).trans ht
    have hall : tally'.day = day := by
      refine foldlM_invariant (fun _ (t : Tally) => t.day = day) (fun _ t line t' ht hstep => ?_)
        htenders hlines
      exact (countLine_day hstep).trans ht
    obtain ⟨hcurrency, hfigures⟩ := count_eq_ok hday
    rw [hall]
    refine ⟨hcurrency, fun figure => ?_⟩
    rw [hfigures figure, Figure.ofSale, hsettled, htotals]

/-- What an answered report says is the sum of what its sales say. -/
theorem of_eq_ok {sales : List Sale} {currency : Currency} {day : Day}
    (h : of sales currency = .ok day) :
    day.currency = currency ∧ ∀ figure, day.figure figure = (sales.map figure.ofSale).sum := by
  simp only [of, Except.bind_eq_ok] at h
  obtain ⟨tally, htally, average, -, h⟩ := h
  cases h
  have hkept := foldlM_invariant (fun seen (t : Tally) => t.day.currency = currency ∧
    ∀ figure, t.day.figure figure = (seen.map figure.ofSale).sum)
    (fun seen t sale t' ht hstep => ?_) ⟨rfl, fun figure => by cases figure <;> rfl⟩ htally
  · refine ⟨hkept.1, fun figure => ?_⟩
    rw [← hkept.2 figure]
    cases figure <;> rfl
  · obtain ⟨hcurrency, hfigures⟩ := Tally.countSale_eq_ok hstep
    refine ⟨hcurrency.trans ht.1, fun figure => ?_⟩
    rw [hfigures figure, ht.2 figure, List.map_append, List.sum_append]
    simp

/-! ## Section 4: The currency of a report -/

/-- What a set of sales is reported as by whoever has no configuration to go by: in the currency
    of the first of them. -/
def ofOwnCurrency (sales : List Sale) : Except SaleError Day :=
  match sales.head? with
  | none => .ok (empty .bdt)
  | some first => of sales first.currency

theorem ofOwnCurrency_figure {sales : List Sale} {day : Day} (h : ofOwnCurrency sales = .ok day)
    (figure : Figure) : day.figure figure = (sales.map figure.ofSale).sum := by
  unfold ofOwnCurrency at h
  split at h
  · rename_i hnone
    obtain rfl := List.head?_eq_none_iff.mp hnone
    cases h
    cases figure <;> rfl
  · exact (of_eq_ok h).2 figure

end Day

end Sahl
