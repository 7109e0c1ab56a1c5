import Mathlib.Tactic
import Sahl.Core.ProductRows

/-! # A day in any order

    The figures of a day hang together, and sales in another order make the same day but for two
    things that a product's row takes from the order: its name, which is that of the first line
    met (and with it its place among rows that took the same), and a quantity that saturates on the
    way (`of_consistent`). -/

namespace Sahl

/-! ## Section 1: Sales that count -/

namespace Sale

/-- Of the sales a till holds only the completed ones count. -/
theorem Reached.settledTotal_isSome {sale : Sale} (h : sale.Reached) :
    sale.settledTotal.isSome ↔ sale.status = .completed := by
  constructor
  · intro hsome
    by_contra hstatus
    rw [h.sound.unsettled hstatus] at hsome
    cases hsome
  · intro hstatus
    obtain ⟨_, _, _, _, hsettled⟩ := h.sound.settled hstatus
    rw [hsettled.settledTotal]
    rfl

/-- What was recorded when a sale completed is what its figures still come to. -/
theorem Reached.counted_total {sale : Sale} {c : Counted} (h : sale.Reached)
    (hc : sale.counted = some c) : c.total = c.totals.total := by
  obtain ⟨-, htotal, htotals⟩ := counted_eq_some hc
  have hstatus := h.settledTotal_isSome.mp (by rw [htotal]; rfl)
  obtain ⟨totals, _, _, _, hsettled⟩ := h.sound.settled hstatus
  have hsame : totals.total = c.total := Option.some.inj (hsettled.settledTotal.symm.trans htotal)
  rw [← hsame, Except.ok.inj (hsettled.totals_ok.symm.trans htotals)]

theorem counted_netTax {sale : Sale} {c : Counted} (hc : sale.counted = some c) :
    c.totals.net.minor.val + c.totals.tax.minor.val = c.totals.total.minor.val := by
  obtain ⟨-, -, htotals⟩ := counted_eq_some hc
  obtain ⟨inputs, -, hcalculate⟩ := totals_eq_ok htotals
  exact (Money.checkedAdd_eq_ok.mp (exact_of_calculate hcalculate).netTax).2.2.symm

end Sale

namespace Day

variable {sales sales' : List Sale} {currency : Currency} {day day' : Day}

theorem countSale_of_unsettled {sale : Sale} (tally : Tally) (hreached : sale.Reached)
    (hstatus : sale.status ≠ .completed) : tally.countSale currency sale = .ok tally := by
  unfold Tally.countSale
  rw [hreached.sound.unsettled hstatus]

/-- Open and abandoned sales contribute nothing. -/
theorem of_completed (hreached : ∀ sale ∈ sales, sale.Reached) :
    Day.of (sales.filter (·.status = .completed)) currency = Day.of sales currency := by
  have hfold : ∀ tally : Tally, (sales.filter (·.status = .completed)).foldlM
      (Tally.countSale currency) tally = sales.foldlM (Tally.countSale currency) tally := by
    induction sales with
    | nil => exact fun _ => rfl
    | cons sale sales ih =>
      obtain ⟨hsale, hrest⟩ := List.forall_mem_cons.mp hreached
      intro tally
      by_cases hstatus : sale.status = .completed
      · rw [List.filter_cons_of_pos (by simpa using hstatus), List.foldlM_cons, List.foldlM_cons]
        exact congrArg _ (funext (ih hrest))
      · rw [List.filter_cons_of_neg (by simpa using hstatus), List.foldlM_cons,
          countSale_of_unsettled tally hsale hstatus, ih hrest]
        rfl
  unfold Day.of
  rw [hfold]

/-! ## Section 2: Figures that hang together -/

/-- The figures of a day agree with one another and with the rows of the cashiers. -/
structure Consistent (day : Day) : Prop where
  netTax : day.net.checkedAdd day.tax = .ok day.takings
  sales : (day.byCashier.map (·.sales)).sum = day.sales
  takings : (day.byCashier.map (·.takings.minor.val)).sum = day.takings.minor.val
  discount : (day.byCashier.map (·.discount.minor.val)).sum = day.discount.minor.val
  voids : (day.byCashier.map (·.voids)).sum = day.voids

/-- A figure that the row of each cashier takes from their sales comes, over all rows, to that of
    all that is counted. -/
theorem sum_byCashier {M : Type} [AddCommMonoid M] {value : CashierRow → M}
    {figure : Counted → M} (h : Day.of sales currency = .ok day)
    (hrow : ∀ k seen row, CashierRow.AddsUp currency k seen row →
      value row = (seen.map figure).sum) :
    (day.byCashier.map value).sum = ((countedOf sales).map figure).sum := by
  obtain ⟨tally, hposted, hcashiers, -⟩ := of_posted h
  rw [hcashiers, List.map_map]
  exact ((CashierRow.posted hposted.cashiers).mono hrow).sum

theorem consistent (hreached : ∀ sale ∈ sales, sale.Reached)
    (h : Day.of sales currency = .ok day) : day.Consistent := by
  obtain ⟨tally, -, -, -, -, -, hday⟩ := of_posted h
  have htotals : (countedOf sales).map (·.total.minor.val) =
      (countedOf sales).map fun c => c.totals.net.minor.val + c.totals.tax.minor.val := by
    refine List.map_congr_left fun c hc => ?_
    obtain ⟨sale, hsale, hcounted⟩ := List.mem_filterMap.mp hc
    rw [(hreached sale hsale).counted_total hcounted, Sale.counted_netTax hcounted]
  constructor
  · refine Money.checkedAdd_eq_ok.mpr ⟨?_, ?_, ?_⟩
    · rw [hday.net.1, hday.tax.1]
    · rw [hday.takings.1, hday.net.1]
    · rw [hday.takings.2, hday.net.2, hday.tax.2, htotals, List.sum_map_add]
  · -- a sale counts one in its cashier's row
    have hones : ∀ k seen row, CashierRow.AddsUp currency k seen row →
        row.sales = (seen.map fun _ => 1).sum := by
      intro k seen row hrow
      simp [hrow.sales]
    rw [sum_byCashier h hones, hday.sales]
    simp
  · rw [hday.takings.2]
    exact sum_byCashier h fun k seen row hrow => hrow.takings.2
  · rw [hday.discount.2]
    exact sum_byCashier h fun k seen row hrow => hrow.discount.2
  · rw [hday.voids]
    exact sum_byCashier h fun k seen row hrow => hrow.voids

end Day

/-! ## Section 3: Another order -/

theorem CashierRow.AddsUp.unique {currency : Currency} {staffId : Uuid} {xs ys : List Counted}
    {row row' : CashierRow} (hperm : xs.Perm ys) (h : row.AddsUp currency staffId xs)
    (h' : row'.AddsUp currency staffId ys) : row = row' := by
  obtain ⟨staffId₁, sales₁, takings₁, discount₁, voids₁⟩ := row
  obtain ⟨staffId₂, sales₂, takings₂, discount₂, voids₂⟩ := row'
  have htakings := h.takings
  have hdiscount := h.discount
  rw [(hperm.map _).sum_eq] at htakings hdiscount
  obtain rfl : takings₁ = takings₂ := htakings.unique h'.takings
  obtain rfl : discount₁ = discount₂ := hdiscount.unique h'.discount
  obtain rfl : staffId₁ = staffId₂ := h.staffId.trans h'.staffId.symm
  obtain rfl : sales₁ = sales₂ := h.sales.trans (hperm.length_eq.trans h'.sales.symm)
  obtain rfl : voids₁ = voids₂ := h.voids.trans ((hperm.map _).sum_eq.trans h'.voids.symm)
  rfl

theorem PaymentRow.AddsUp.unique {currency : Currency} {method : TenderMethod}
    {xs ys : List (Money × Tender)} {row row' : PaymentRow} (hperm : xs.Perm ys)
    (h : row.AddsUp currency method xs) (h' : row'.AddsUp currency method ys) : row = row' := by
  obtain ⟨method₁, count₁, taken₁⟩ := row
  obtain ⟨method₂, count₂, taken₂⟩ := row'
  have htaken := h.taken
  rw [(hperm.map _).sum_eq] at htaken
  obtain rfl : taken₁ = taken₂ := htaken.unique h'.taken
  obtain rfl : method₁ = method₂ := h.method.trans h'.method.symm
  obtain rfl : count₁ = count₂ := h.count.trans (hperm.length_eq.trans h'.count.symm)
  rfl

namespace ProductRow

instance : IsTrans ProductRow Before where
  trans a b c hab hbc := by
    rcases hab with hab | ⟨hab, hname⟩
    · rcases hbc with hbc | ⟨hbc, -⟩
      · exact .inl (lt_trans hbc hab)
      · exact .inl (hbc ▸ hab)
    · rcases hbc with hbc | ⟨hbc, hname'⟩
      · exact .inl (hab ▸ hbc)
      · exact .inr ⟨hbc.trans hab, String.le_trans hname hname'⟩

instance : Std.Total Before where
  total a b := by
    rcases lt_trichotomy a.revenue.minor b.revenue.minor with hlt | heq | hgt
    · exact .inr (.inl hlt)
    · exact (String.le_total a.name b.name).imp (fun hname => .inr ⟨heq.symm, hname⟩)
        fun hname => .inr ⟨heq, hname⟩
    · exact .inl (.inl hgt)

/-- The order rows are listed in: busiest first, then by name, then by product. -/
def Ranked (left right : ProductRow) : Prop :=
  left.Before right ∧ (right.Before left → left.productId < right.productId)

theorem Ranked.asymm {left right : ProductRow} (h : left.Ranked right) : ¬ right.Ranked left :=
  fun h' => lt_asymm (h.2 h'.1) (h'.2 h.1)

/-- Rows that took the same, of products that are called the same, rank the same. -/
theorem ranked_congr {a b c d : ProductRow} (hac : a.productId = c.productId)
    (hbd : b.productId = d.productId) (hrevenue : a.revenue = c.revenue)
    (hrevenue' : b.revenue = d.revenue) (hname : a.name = c.name) (hname' : b.name = d.name) :
    a.Ranked b ↔ c.Ranked d := by
  unfold Ranked Before
  rw [hac, hbd, hrevenue, hrevenue', hname, hname']

end ProductRow

namespace Day

variable {sales sales' : List Sale} {currency : Currency} {day day' : Day}

/-! ### What is sold of a product -/

/-- What is posted to the row of a product. -/
def postedTo (sales : List Sale) (productId : Uuid) : List (SaleLine × LineTotals) :=
  ((countedOf sales).flatMap (·.soldLines)).filter (·.1.productId = productId)

/-- The names a product is sold under. -/
def namesOf (sales : List Sale) (productId : Uuid) : List String :=
  (postedTo sales productId).map (·.1.name)

/-- A product is sold under one name. -/
def OneName (sales : List Sale) (productId : Uuid) : Prop :=
  ∀ name ∈ namesOf sales productId, ∀ other ∈ namesOf sales productId, name = other

/-- The quantity of one product does not run full as the report adds it up. -/
def UnsaturatedIn (sales : List Sale) (productId : Uuid) : Prop :=
  I64.NeverFull ((postedTo sales productId).map (·.1.quantity.milli))

theorem oneName_of_all (name : String)
    (h : ∀ pair ∈ (countedOf sales).flatMap (·.soldLines), pair.1.name = name) (productId : Uuid) :
    OneName sales productId := by
  have hall : ∀ other ∈ namesOf sales productId, other = name := by
    intro other hother
    obtain ⟨pair, hpair, rfl⟩ := List.mem_map.mp hother
    exact h pair (List.mem_of_mem_filter hpair)
  exact fun a ha b hb => (hall a ha).trans (hall b hb).symm

theorem postedTo_perm (hperm : sales.Perm sales') (productId : Uuid) :
    (postedTo sales productId).Perm (postedTo sales' productId) :=
  ((hperm.filterMap _).flatMap_right _).filter _

/-! ### Rows that answer to each other -/

/-- What the row of a product has of the sales in whatever order, and what it has of them in two
    orders that agree on it. -/
structure SameRow (sales sales' : List Sale) (row row' : ProductRow) : Prop where
  productId : row.productId = row'.productId
  revenue : row.revenue = row'.revenue
  /-- Either row bears a name the product was sold under. -/
  named : row.name ∈ namesOf sales row.productId ∧ row'.name ∈ namesOf sales row.productId
  name : OneName sales row.productId → row.name = row'.name
  quantityMilli : UnsaturatedIn sales row.productId → UnsaturatedIn sales' row.productId →
    row.quantityMilli = row'.quantityMilli

/-- In a report the row of the same product bears the same name. -/
def KeepsName (day : Day) (row : ProductRow) : Prop :=
  ∀ row' ∈ day.byProduct, row'.productId = row.productId → row'.name = row.name

/-- The same day from two orders of its sales, but for the name of a product sold under several,
    a quantity that runs full, and the places of rows that took the same and are called otherwise. -/
structure SameDay (sales sales' : List Sale) (day day' : Day) : Prop where
  rest : { day with byProduct := [] } = { day' with byProduct := [] }
  /-- A product has one row at most. -/
  once : (day.byProduct.map (·.productId)).Nodup
  /-- The same products have rows, and the rows answer to each other. -/
  rows : ∃ rows, rows.Perm day'.byProduct ∧
    List.Forall₂ (SameRow sales sales') day.byProduct rows
  /-- Two rows change places only where they took the same and one of them bears another name. -/
  order : ∀ left right, [left, right].Sublist day.byProduct →
    (left.revenue.minor ≠ right.revenue.minor ∨ day'.KeepsName left ∧ day'.KeepsName right) →
    [left.productId, right.productId].Sublist (day'.byProduct.map (·.productId))

theorem namesOf_mem {row : ProductRow} {productId : Uuid}
    (h : row.AddsUp currency productId (postedTo sales productId)) :
    row.name ∈ namesOf sales productId := by
  obtain ⟨pair, hhead, hname⟩ := Option.map_eq_some_iff.mp h.name
  exact List.mem_map.mpr ⟨pair, List.mem_of_head? hhead, hname⟩

theorem quantityMilli_val {row : ProductRow} {productId : Uuid}
    (h : row.AddsUp currency productId (postedTo sales productId))
    (hsat : UnsaturatedIn sales productId) :
    row.quantityMilli.val = ((postedTo sales productId).map (·.1.quantity.milli.val)).sum := by
  have hsum := I64.foldl_saturatingAdd_val hsat
  rw [List.map_map] at hsum
  rw [h.quantityMilli]
  exact hsum

theorem sameRow_of_addsUp {row row' : ProductRow} {productId : Uuid} (hperm : sales.Perm sales')
    (h : row.AddsUp currency productId (postedTo sales productId))
    (h' : row'.AddsUp currency productId (postedTo sales' productId)) :
    SameRow sales sales' row row' := by
  have hposted := postedTo_perm hperm productId
  have hname := namesOf_mem h
  have hname' : row'.name ∈ namesOf sales productId :=
    (hposted.map _).mem_iff.mpr (namesOf_mem h')
  have hrevenue := h.revenue
  rw [(hposted.map _).sum_eq] at hrevenue
  obtain rfl := h.productId
  refine ⟨h'.productId.symm, hrevenue.unique h'.revenue, ⟨hname, hname'⟩,
    fun hone => hone _ hname _ hname', fun hsat hsat' => SInt.ext ?_⟩
  rw [quantityMilli_val h hsat, quantityMilli_val h' hsat', (hposted.map _).sum_eq]

/-- The rows of a report, as they are before it ranks them: in the order of the products. -/
theorem of_rowsPosted (h : Day.of sales currency = .ok day) :
    ∃ products : UuidMap ProductRow,
      day.byProduct = (products.toList.map (·.2)).insertionSort ProductRow.Before ∧
      (ProductRow.posting currency).Posted (ProductRow.AddsUp currency)
        ((countedOf sales).flatMap (·.soldLines)) products ∧
      ((products.toList.map (·.2)).map (·.productId)).Pairwise (· < ·) := by
  obtain ⟨tally, hposted, -, -, hproducts, -⟩ := of_posted h
  have hrows := ProductRow.posted hposted.products
  refine ⟨tally.products, hproducts, hrows, List.pairwise_map.mpr (List.pairwise_map.mpr ?_)⟩
  refine Std.ExtTreeMap.ordered_keys_toList.imp_of_mem fun {a b} ha hb hkeys => ?_
  -- a row is labelled with its key, and keys are in order
  have hlabel : ∀ entry ∈ tally.products.toList, entry.2.productId = entry.1 :=
    fun entry hentry =>
      (hrows.row _ _ (Std.ExtTreeMap.mem_toList_iff_getElem?_eq_some.mp hentry)).productId
  rw [hlabel a ha, hlabel b hb]
  exact compare_lt_iff_lt.mp hkeys

theorem of_once (h : Day.of sales currency = .ok day) :
    (day.byProduct.map (·.productId)).Nodup := by
  obtain ⟨products, hproducts, -, hids⟩ := of_rowsPosted h
  have hperm : (day.byProduct.map (·.productId)).Perm
      ((products.toList.map (·.2)).map (·.productId)) := by
    rw [hproducts]
    exact (List.perm_insertionSort _ _).map _
  exact hperm.nodup_iff.mpr (hids.imp ne_of_lt)

theorem of_sameRows (hperm : sales.Perm sales') (h : Day.of sales currency = .ok day)
    (h' : Day.of sales' currency = .ok day') : ∃ rows, rows.Perm day'.byProduct ∧
      List.Forall₂ (SameRow sales sales') day.byProduct rows := by
  obtain ⟨products, hproducts, hposted, -⟩ := of_rowsPosted h
  obtain ⟨products', hproducts', hposted', -⟩ := of_rowsPosted h'
  have hmatched : List.Forall₂ (SameRow sales sales') (products.toList.map (·.2))
      (products'.toList.map (·.2)) :=
    hposted.forall₂_rows ((hperm.filterMap _).flatMap_right _)
      (fun k row row' hrow hrow' => sameRow_of_addsUp hperm hrow hrow') hposted'
  rw [hproducts, hproducts']
  obtain ⟨rows, hsame, hrows⟩ :=
    List.perm_comp_forall₂ (List.perm_insertionSort ProductRow.Before _) hmatched
  exact ⟨rows, hrows.trans (List.perm_insertionSort ProductRow.Before _).symm, hsame⟩

/-- Rows are ranked, and the products decide where revenue and name do not. -/
theorem of_ranked (h : Day.of sales currency = .ok day) :
    day.byProduct.Pairwise ProductRow.Ranked := by
  obtain ⟨products, hproducts, -, hids⟩ := of_rowsPosted h
  rw [hproducts]
  exact pairwise_insertionSort_stable (List.pairwise_map.mp hids)

theorem of_order (hperm : sales.Perm sales') (h : Day.of sales currency = .ok day)
    (h' : Day.of sales' currency = .ok day') {left right : ProductRow}
    (hbefore : [left, right].Sublist day.byProduct)
    (hapart : left.revenue.minor ≠ right.revenue.minor ∨
      day'.KeepsName left ∧ day'.KeepsName right) :
    [left.productId, right.productId].Sublist (day'.byProduct.map (·.productId)) := by
  obtain ⟨rows, hrows, hsame⟩ := of_sameRows hperm h h'
  have hranked : left.Ranked right := List.pairwise_iff_forall_sublist.mp (of_ranked h) hbefore
  obtain ⟨left', hleft, hl⟩ :=
    forall₂_mem_right hsame.flip (hbefore.subset List.mem_cons_self)
  obtain ⟨right', hright, hr⟩ :=
    forall₂_mem_right hsame.flip (hbefore.subset (.tail left List.mem_cons_self))
  have hl : SameRow sales sales' left left' := hl
  have hr : SameRow sales sales' right right' := hr
  -- the other way round would be against the ranking
  have hnot : ¬ right'.Ranked left' := by
    intro hback
    rcases hapart with hrevenue | ⟨hkeeps, hkeeps'⟩
    · have hle := hback.1
      have hle' := hranked.1
      unfold ProductRow.Before at hle hle'
      rw [← hl.revenue, ← hr.revenue] at hle
      rcases hle with hlt | ⟨heq, -⟩
      · rcases hle' with hlt' | ⟨heq', -⟩
        · exact lt_asymm hlt hlt'
        · exact hrevenue heq'.symm
      · exact hrevenue heq
    · have hname := (hkeeps left' (hrows.subset hleft) hl.productId.symm).symm
      have hname' := (hkeeps' right' (hrows.subset hright) hr.productId.symm).symm
      exact hranked.asymm ((ProductRow.ranked_congr hr.productId hl.productId hr.revenue
        hl.revenue hname' hname).mpr hback)
  have hne : left' ≠ right' := by
    rintro rfl
    have hids := (of_once h).sublist (hbefore.map (·.productId))
    rw [List.map_cons, List.map_cons, hl.productId, hr.productId] at hids
    exact List.not_nodup_pair _ hids
  rcases pair_sublist_or (hrows.subset hleft) (hrows.subset hright) hne with hkept | hswapped
  · rw [hl.productId, hr.productId]
    exact hkept.map (·.productId)
  · exact absurd (List.pairwise_iff_forall_sublist.mp (of_ranked h') hswapped) hnot

/-- What is not of the products is free of order. -/
theorem of_rest (hperm : sales.Perm sales') (h : Day.of sales currency = .ok day)
    (h' : Day.of sales' currency = .ok day') :
    { day with byProduct := [] } = { day' with byProduct := [] } := by
  obtain ⟨tally, hposted, hcashiers, hpayments, -, haverage, hday⟩ := of_posted h
  obtain ⟨tally', hposted', hcashiers', hpayments', -, haverage', hday'⟩ := of_posted h'
  have hcounted : (countedOf sales).Perm (countedOf sales') := hperm.filterMap _
  have hsameCashiers : tally.cashiers = tally'.cashiers :=
    Posting.Posted.perm (fun _ _ _ _ _ hp hrow hrow' => hrow.unique hp hrow') hcounted
      (CashierRow.posted hposted.cashiers) (CashierRow.posted hposted'.cashiers)
  have hsamePayments : tally.payments = tally'.payments :=
    Posting.Posted.perm (fun _ _ _ _ _ hp hrow hrow' => hrow.unique hp hrow')
      (hcounted.flatMap_right _) (PaymentRow.posted hposted.payments)
      (PaymentRow.posted hposted'.payments)
  have htakings := hday.takings
  have hnet := hday.net
  have htax := hday.tax
  have hdiscount := hday.discount
  rw [(hcounted.map _).sum_eq] at htakings hnet htax hdiscount
  have hsales : day.sales = day'.sales :=
    hday.sales.trans (hcounted.length_eq.trans hday'.sales.symm)
  have hvoids : day.voids = day'.voids :=
    hday.voids.trans ((hcounted.map _).sum_eq.trans hday'.voids.symm)
  have hsameTakings := htakings.unique hday'.takings
  -- the average is worked out from figures that are the same
  have hsameAverage : day.averageSale = day'.averageSale := by
    rw [average_congr hsales hsameTakings, haverage'] at haverage
    exact (Except.ok.inj haverage).symm
  rw [Day.mk.injEq]
  refine ⟨hday.currency.trans hday'.currency.symm, hsales, hsameTakings,
    hnet.unique hday'.net, htax.unique hday'.tax, hdiscount.unique hday'.discount, hsameAverage,
    hvoids, ?_, ?_, rfl⟩
  · rw [hcashiers, hcashiers', hsameCashiers]
  · rw [hpayments, hpayments', hsamePayments]

theorem sameDay_of_perm (hperm : sales.Perm sales') (h : Day.of sales currency = .ok day)
    (h' : Day.of sales' currency = .ok day') : SameDay sales sales' day day' :=
  ⟨of_rest hperm h h', of_once h, of_sameRows hperm h h', fun _ _ => of_order hperm h h'⟩

/-- Rows that differ in nothing make the same day. -/
theorem SameDay.eq (hsame : SameDay sales sales' day day') (h : Day.of sales currency = .ok day)
    (h' : Day.of sales' currency = .ok day') (hname : ∀ productId, OneName sales productId)
    (hsat : Unsaturated sales) (hsat' : Unsaturated sales') : day = day' := by
  obtain ⟨rows, hperm, hrows⟩ := hsame.rows
  have hequal : day.byProduct = rows := by
    refine List.forall₂_eq_eq_eq ▸ hrows.imp fun row row' hrow => ?_
    obtain ⟨productId, name, quantity, revenue⟩ := row
    obtain ⟨productId', name', quantity', revenue'⟩ := row'
    obtain rfl : productId = productId' := hrow.productId
    obtain rfl : revenue = revenue' := hrow.revenue
    obtain rfl : name = name' := hrow.name (hname _)
    obtain rfl : quantity = quantity' := hrow.quantityMilli (hsat _) (hsat' _)
    rfl
  have hproducts : day.byProduct = day'.byProduct := by
    refine List.Perm.eq_of_pairwise (fun a b _ _ hab hba => absurd hba hab.asymm) (of_ranked h)
      (of_ranked h') ?_
    rw [hequal]
    exact hperm
  have hrest := hsame.rest
  rw [Day.mk.injEq] at hrest
  obtain ⟨hcurrency, hsales, htakings, hnet, htax, hdiscount, haverage, hvoids, hcashiers,
    hpayments, -⟩ := hrest
  cases day
  cases day'
  rw [Day.mk.injEq]
  exact ⟨hcurrency, hsales, htakings, hnet, htax, hdiscount, haverage, hvoids, hcashiers,
    hpayments, hproducts⟩

/-- **A day is consistent and, product by product, free of order**: its figures agree with one
    another and with the rows of the cashiers, only completed sales contribute, and the same sales
    in another order make the same day, but for the name of a product sold under several names,
    which it takes from the first line met, for a quantity that runs full on the way, and for the
    places of rows that took the same where one of them bears another name. -/
theorem of_consistent (hreached : ∀ sale ∈ sales, sale.Reached)
    (h : Day.of sales currency = .ok day) :
    day.Consistent ∧
      Day.of (sales.filter (·.status = .completed)) currency = .ok day ∧
      ∀ sales' day', sales.Perm sales' → Day.of sales' currency = .ok day' →
        SameDay sales sales' day day' ∧
          ((∀ productId, OneName sales productId) → Unsaturated sales → Unsaturated sales' →
            day = day') := by
  refine ⟨consistent hreached h, (of_completed hreached).trans h, ?_⟩
  intro sales' day' hperm h'
  have hsame := sameDay_of_perm hperm h h'
  exact ⟨hsame, hsame.eq h h'⟩

/-! ## Section 4: What goes by the order -/

/-- One of product 100, under a name, paid in cash. -/
def soldAs (saleId : Uuid) (name : String) : List SaleEvent :=
  [.opened saleId 9 .bdt .taxInclusive .halfUp,
   .lineAdded saleId 10 100 name ⟨I64.lit 100, .bdt⟩ Quantity.one .exempt [],
   .tenderRecorded saleId 20 .cash ⟨I64.lit 100, .bdt⟩ none,
   .completed saleId ⟨I64.lit 100, .bdt⟩ ⟨I64.lit 0, .bdt⟩ .epoch]

/-- A quantity of product 100, at no charge. -/
def givenAway (saleId : Uuid) (quantity : I64) : List SaleEvent :=
  [.opened saleId 9 .bdt .taxInclusive .halfUp,
   .lineAdded saleId 10 100 "rice" ⟨I64.lit 0, .bdt⟩ ⟨quantity⟩ .exempt [],
   .completed saleId ⟨I64.lit 0, .bdt⟩ ⟨I64.lit 0, .bdt⟩ .epoch]

theorem of_consistent_soldAs : ∃ day,
    Day.of [Sale.replayed (soldAs 1 "rice"), Sale.replayed (soldAs 2 "rice")] .bdt = .ok day ∧
      day.Consistent ∧
      Day.of [Sale.replayed (soldAs 2 "rice"), Sale.replayed (soldAs 1 "rice")] .bdt = .ok day := by
  have hokay : (Day.of [Sale.replayed (soldAs 1 "rice"), Sale.replayed (soldAs 2 "rice")]
      .bdt).isOkay := by decide +kernel
  have hokay' : (Day.of [Sale.replayed (soldAs 2 "rice"), Sale.replayed (soldAs 1 "rice")]
      .bdt).isOkay := by decide +kernel
  obtain ⟨day, hday⟩ := Except.isOkay_iff.mp hokay
  obtain ⟨day', hday'⟩ := Except.isOkay_iff.mp hokay'
  have hreached : ∀ sale ∈ [Sale.replayed (soldAs 1 "rice"), Sale.replayed (soldAs 2 "rice")],
      sale.Reached := by
    intro sale hsale
    rcases List.mem_pair.mp hsale with rfl | rfl
    · exact @Sale.replay_reached (soldAs 1 "rice") _ (by decide)
    · exact @Sale.replay_reached (soldAs 2 "rice") _ (by decide)
  obtain ⟨hconsistent, -, horder⟩ := of_consistent hreached hday
  have hsame := (horder _ day' (.swap _ _ []) hday').2 (oneName_of_all "rice" (by decide))
    (unsaturated_of_abs (by decide)) (unsaturated_of_abs (by decide))
  exact ⟨day, hday, hconsistent, hsame ▸ hday'⟩

/-- The same day, but that product rows of one revenue and name may be in either order. -/
structure SameUpToTies (day day' : Day) : Prop where
  rest : { day with byProduct := [] } = { day' with byProduct := [] }
  rows : day.byProduct.Perm day'.byProduct
  ranked : day.byProduct.map (fun row => (row.revenue, row.name)) =
    day'.byProduct.map (fun row => (row.revenue, row.name))

/-- A product sold under two names is reported under the first of them. -/
theorem renamed_differs : ¬ ∀ (sales sales' : List Sale) (currency : Currency) (day day' : Day),
    (∀ sale ∈ sales, sale.Reached) → sales.Perm sales' → Day.of sales currency = .ok day →
    Day.of sales' currency = .ok day' → day.SameUpToTies day' := by
  intro hclaim
  have hnames : (Day.of [Sale.replayed (soldAs 1 "rice"), Sale.replayed (soldAs 2 "Rice")]
      .bdt).toOption.map (·.byProduct.map (·.name)) = some ["rice"] := by decide +kernel
  have hnames' : (Day.of [Sale.replayed (soldAs 2 "Rice"), Sale.replayed (soldAs 1 "rice")]
      .bdt).toOption.map (·.byProduct.map (·.name)) = some ["Rice"] := by decide +kernel
  obtain ⟨day, hday, hrows⟩ := Option.map_eq_some_iff.mp hnames
  obtain ⟨day', hday', hrows'⟩ := Option.map_eq_some_iff.mp hnames'
  have hreached : ∀ sale ∈ [Sale.replayed (soldAs 1 "rice"), Sale.replayed (soldAs 2 "Rice")],
      sale.Reached := by
    intro sale hsale
    rcases List.mem_pair.mp hsale with rfl | rfl
    · exact @Sale.replay_reached (soldAs 1 "rice") _ (by decide)
    · exact @Sale.replay_reached (soldAs 2 "Rice") _ (by decide)
  have hsame := hclaim _ _ .bdt day day' hreached (.swap _ _ []) (Except.toOption_eq_some.mp hday)
    (Except.toOption_eq_some.mp hday')
  have hperm := hsame.rows.map (·.name)
  rw [hrows, hrows'] at hperm
  revert hperm
  decide

/-- Nor does one name do: a quantity that runs full on the way loses what comes after. -/
theorem full_differs : ¬ ∀ (sales sales' : List Sale) (currency : Currency) (day day' : Day),
    (∀ sale ∈ sales, sale.Reached) → (∀ productId, OneName sales productId) →
    sales.Perm sales' →
    Day.of sales currency = .ok day → Day.of sales' currency = .ok day' →
    day.SameUpToTies day' := by
  intro hclaim
  -- the greatest quantity first swallows the thousand that comes next
  have hfull : (Day.of ([givenAway 1 (I64.lit 9223372036854775807), givenAway 2 (I64.lit 1000),
      givenAway 3 (I64.lit (-1000))].map Sale.replayed) .bdt).toOption.map
        (·.byProduct.map (·.quantityMilli.val)) = some [9223372036854774807] := by decide +kernel
  have hfull' : (Day.of ([givenAway 2 (I64.lit 1000), givenAway 3 (I64.lit (-1000)),
      givenAway 1 (I64.lit 9223372036854775807)].map Sale.replayed) .bdt).toOption.map
        (·.byProduct.map (·.quantityMilli.val)) = some [9223372036854775807] := by decide +kernel
  obtain ⟨day, hday, hrows⟩ := Option.map_eq_some_iff.mp hfull
  obtain ⟨day', hday', hrows'⟩ := Option.map_eq_some_iff.mp hfull'
  have hreplay : ∀ events ∈ [givenAway 1 (I64.lit 9223372036854775807),
      givenAway 2 (I64.lit 1000), givenAway 3 (I64.lit (-1000))],
      Sale.replay events = .ok (Sale.replayed events) := by decide
  have hsame := hclaim _ _ .bdt day day' (fun sale hsale => ?_)
    (oneName_of_all "rice" (by decide)) (List.Perm.map _ (by decide)) (Except.toOption_eq_some.mp hday)
    (Except.toOption_eq_some.mp hday')
  · have hperm := hsame.rows.map (·.quantityMilli.val)
    rw [hrows, hrows'] at hperm
    revert hperm
    decide
  · obtain ⟨events, hevents, rfl⟩ := List.mem_map.mp hsale
    exact Sale.replay_reached (hreplay events hevents)

end Day

end Sahl
