import Mathlib.Tactic
import Sahl.Core.DayRows
import Sahl.Core.ShiftReport

/-! # Payment rows and the drawer

    The cash row of a day is what a drawer is reconciled against, so what it took should be what
    each sale says it kept in cash, and the rows together the takings. Change is given once for a
    sale; the report takes it off every tender that may be overpaid (`reconciles_iff`). -/

namespace Sahl

/-! ## Section 1: What a sale was paid with -/

namespace Sale

/-- What was handed over, by whatever methods. -/
def handedOver (sale : Sale) : Int := (sale.tenders.map (·.amount.minor.val)).sum

/-- The change given on the sale. -/
def handedBack (sale : Sale) : Int := (sale.changeGiven.map (·.minor.val)).getD 0

/-- The tenders that were paid in cash. -/
def cashTenders (sale : Sale) : List Tender := sale.tenders.filter (·.method = .cash)

/-- What was handed over in cash. -/
def cashOver (sale : Sale) : Int := (sale.cashTenders.map (·.amount.minor.val)).sum

end Sale

namespace Day

/-- What the row of a method took; nothing where the method has no row. -/
def takenBy (day : Day) (method : TenderMethod) : Int :=
  ((day.byPayment.find? (·.method = method)).map (·.taken.minor.val)).getD 0

/-- What the rows of all methods took. -/
def taken (day : Day) : Int := (day.byPayment.map (·.taken.minor.val)).sum

/-- The payment rows of a day agree with the drawer and with the takings. -/
structure Reconciles (day : Day) (sales : List Sale) : Prop where
  netCash : ∀ sale ∈ sales, sale.netCash = .ok sale.kept
  cash : day.takenBy .cash = (sales.map (·.kept.minor.val)).sum
  tendered : day.taken = (sales.map fun sale => sale.handedOver - sale.handedBack).sum
  takings : day.taken = day.takings.minor.val

end Day

/-! ## Section 2: One sale -/

namespace Sale

variable {sale : Sale}

/-- What a sale kept in cash is what was handed over in cash, less the change. -/
theorem netCash_eq_ok {net : Money} (h : sale.netCash = .ok net) :
    sale.kept = net ∧ net.minor.val = sale.cashOver - sale.handedBack := by
  have hkept : sale.kept = net := by
    unfold Sale.kept
    rw [h]
    rfl
  simp only [Sale.netCash, Except.bind_eq_ok, Except.mapError_eq_ok] at h
  obtain ⟨cash, hcash, hnet⟩ := h
  have hfilter : sale.tenders.filter (·.method.affectsCashDrawer) =
      sale.tenders.filter (·.method = .cash) := by
    refine List.filter_congr fun tender _ => ?_
    cases hmethod : tender.method <;> simp [TenderMethod.affectsCashDrawer]
  have hover : cash.minor.val = sale.cashOver := by
    rw [(Money.isSum_map.mp (Money.trySum_isSum hcash).2).2, cashOver, cashTenders, hfilter]
  refine ⟨hkept, ?_⟩
  rw [(Money.checkedSub_eq_ok.mp hnet).2.2, hover, handedBack]
  cases sale.changeGiven <;> rfl

/-- What a completed sale kept in cash can be worked out. -/
theorem Settled.netCash {totals : OrderTotals} {tendered change : Money} {at' : Timestamp}
    (h : sale.Settled totals tendered change at') (hpositive : sale.TendersPositive) :
    sale.netCash = .ok sale.kept := by
  obtain ⟨-, cash, -, hcash, hcurrency, hnonneg, -⟩ := tendered_split hpositive h.tendered_ok
  have hchange : change.currency = sale.currency := by
    have htendered := (Money.trySum_isSum (Except.mapError_eq_ok.mp h.tendered_ok)).1
    obtain ⟨hsame, htotal, -⟩ := Money.checkedAdd_eq_ok.mp h.covered
    rw [← htendered, htotal, hsame]
  have hfits : I64.Fits (cash.minor.val - change.minor.val) := by
    have hback := h.change_nonneg
    have hover := cash.minor.hi'
    have hlow := change.minor.hi'
    constructor <;> omega
  obtain ⟨net, hnet⟩ := Except.isOkay_iff.mp
    (Money.checkedSub_isOkay.mpr ⟨hcurrency.trans hchange.symm, hfits⟩)
  have hok : sale.netCash = .ok net := by
    simp only [Sale.netCash, Except.bind_eq_ok, Except.mapError_eq_ok, h.changeGiven,
      Option.getD_some]
    exact ⟨cash, hcash, hnet⟩
  rw [hok, (netCash_eq_ok hok).1]

theorem Settled.handedOver_eq {totals : OrderTotals} {tendered change : Money} {at' : Timestamp}
    (h : sale.Settled totals tendered change at') :
    sale.handedOver - sale.handedBack = totals.total.minor.val := by
  have htendered := (Money.trySum_isSum (Except.mapError_eq_ok.mp h.tendered_ok)).2
  have hover : tendered.minor.val = sale.handedOver := (Money.isSum_map.mp htendered).2
  have hback : sale.handedBack = change.minor.val := by rw [handedBack, h.changeGiven]; rfl
  have hcovered := (Money.checkedAdd_eq_ok.mp h.covered).2.2
  omega

end Sale

/-! ## Section 3: What the report takes off -/

theorem takenOf_cash {change : Money} {tender : Tender} (h : tender.method = .cash) :
    takenOf (change, tender) = tender.amount.minor.val - change.minor.val := by
  unfold takenOf
  rw [h]
  rfl

theorem takenOf_other {change : Money} {tender : Tender} (h : tender.method ≠ .cash) :
    takenOf (change, tender) = tender.amount.minor.val := by
  unfold takenOf
  cases hmethod : tender.method with
  | cash => exact absurd hmethod h
  | _ => simp [TenderMethod.acceptsOvertender]

/-- The change comes off once for each tender in cash. -/
theorem sum_takenOf (change : Money) (tenders : List Tender) :
    ((tenders.map fun tender => (change, tender)).map takenOf).sum =
      (tenders.map (·.amount.minor.val)).sum -
        (tenders.filter (·.method = .cash)).length * change.minor.val := by
  induction tenders with
  | nil => simp
  | cons tender tenders ih =>
    rw [List.map_cons, List.map_cons, List.sum_cons, ih, List.map_cons, List.sum_cons]
    by_cases hcash : tender.method = .cash
    · rw [takenOf_cash hcash, List.filter_cons_of_pos (by simpa using hcash), List.length_cons]
      push_cast
      ring
    · rw [takenOf_other hcash, List.filter_cons_of_neg (by simpa using hcash)]
      ring

namespace Counted

theorem change_eq (currency : Currency) (c : Counted) :
    (c.sale.changeGiven.getD (.zero currency)).minor.val = c.sale.handedBack := by
  unfold Sale.handedBack
  cases c.sale.changeGiven <;> rfl

theorem sum_tendered (currency : Currency) (c : Counted) :
    ((c.tendered currency).map takenOf).sum =
      c.sale.handedOver - c.sale.cashTenders.length * c.sale.handedBack := by
  rw [tendered, sum_takenOf, change_eq]
  rfl

theorem keySum_tendered (currency : Currency) (c : Counted) :
    keySum (PaymentRow.posting currency).key takenOf (c.tendered currency) .cash =
      c.sale.cashOver - c.sale.cashTenders.length * c.sale.handedBack := by
  have hcash : (c.tendered currency).filter
      (fun entry => (PaymentRow.posting currency).key entry = .cash) =
        c.sale.cashTenders.map fun tender =>
          (c.sale.changeGiven.getD (.zero currency), tender) := by
    rw [tendered, List.filter_map]
    rfl
  rw [keySum, hcash, sum_takenOf, change_eq, Sale.cashTenders, List.filter_filter]
  simp only [Bool.and_self]
  rfl

end Counted

/-! ## Section 4: The day -/

namespace Day

variable {sales : List Sale} {currency : Currency} {day : Day}

/-- What the payment rows of a day took, sale by sale. -/
theorem of_taken (h : Day.of sales currency = .ok day) :
    day.takenBy .cash = ((countedOf sales).map fun c =>
        (c.sale.cashOver - c.sale.cashTenders.length * c.sale.handedBack : Int)).sum ∧
      day.taken = ((countedOf sales).map fun c =>
        (c.sale.handedOver - c.sale.cashTenders.length * c.sale.handedBack : Int)).sum := by
  obtain ⟨tally, hposted, -, hpayments, -⟩ := of_posted h
  have hrows := PaymentRow.posted hposted.payments
  constructor
  · have hlabelled := hrows.mono fun k seen row hrow =>
      (⟨hrow.method, hrow.taken.2⟩ : row.method = k ∧ row.taken.minor.val = (seen.map takenOf).sum)
    rw [takenBy, hpayments, ← keySum_eq_find? hlabelled.nodup_labels,
      hlabelled.keySum_rows, keySum_flatMap]
    simp only [Counted.keySum_tendered]
  · have hsum := (hrows.mono fun k seen row hrow => hrow.taken.2).sum
    rw [taken, hpayments, List.map_map]
    refine hsum.trans ?_
    rw [sum_map_flatMap]
    simp only [Counted.sum_tendered]

/-- **The rows reconcile, exactly**: over completed sales that gave change only where cash was
    handed over, the payment rows agree with the drawer and with the takings when no sale that
    gave change was paid with more than one tender in cash. -/
theorem reconciles_iff (h : Day.of sales currency = .ok day)
    (hcompleted : ∀ sale ∈ sales, sale.Reached ∧ sale.status = .completed)
    (hcash : ∀ sale ∈ sales, sale.handedBack ≠ 0 → ∃ tender ∈ sale.tenders, tender.method = .cash) :
    day.Reconciles sales ↔
      ∀ sale ∈ sales, sale.handedBack ≠ 0 → sale.cashTenders.length = 1 := by
  obtain ⟨hby, hall⟩ := of_taken h
  rw [countedOf_completed (fun sale => (sale.cashOver - sale.cashTenders.length *
    sale.handedBack : Int)) hcompleted
    fun sale c hc => by rw [(Sale.counted_eq_some hc).1]] at hby
  rw [countedOf_completed (fun sale => (sale.handedOver - sale.cashTenders.length *
    sale.handedBack : Int)) hcompleted
    fun sale c hc => by rw [(Sale.counted_eq_some hc).1]] at hall
  have hkept : ∀ sale ∈ sales, sale.netCash = .ok sale.kept ∧
      sale.kept.minor.val = sale.cashOver - sale.handedBack ∧ 0 ≤ sale.handedBack ∧
      sale.handedOver - sale.handedBack = Figure.takings.ofSale sale := by
    intro sale hsale
    obtain ⟨hreached, hstatus⟩ := hcompleted sale hsale
    obtain ⟨totals, tendered, change, at', hsettled⟩ := hreached.sound.settled hstatus
    have hnet := hsettled.netCash hreached.sound.tendersPositive
    refine ⟨hnet, (Sale.netCash_eq_ok hnet).2, ?_, ?_⟩
    · rw [Sale.handedBack, hsettled.changeGiven]
      exact hsettled.change_nonneg
    · rw [hsettled.handedOver_eq, Figure.ofSale, hsettled.settledTotal, hsettled.totals_ok]
      rfl
  -- what comes off beyond the change itself, sale by sale, and never less than nothing
  have hbeyond : ∀ sale ∈ sales,
      0 ≤ ((sale.cashTenders.length : Int) - 1) * sale.handedBack := by
    intro sale hsale
    by_cases hnone : sale.handedBack = 0
    · rw [hnone, mul_zero]
    · obtain ⟨tender, htender, hmethod⟩ := hcash sale hsale hnone
      have hmem : tender ∈ sale.cashTenders := List.mem_filter.mpr ⟨htender, by simpa using hmethod⟩
      have hpos := List.length_pos_of_mem hmem
      exact mul_nonneg (by omega) (hkept sale hsale).2.2.1
  have hzero := sum_eq_zero_iff_of_nonneg hbeyond
  have hsum : (sales.map (·.kept.minor.val)).sum = day.takenBy .cash +
      (sales.map fun sale => ((sale.cashTenders.length : Int) - 1) * sale.handedBack).sum := by
    rw [hby]
    refine sum_map_add fun sale hsale => ?_
    rw [(hkept sale hsale).2.1]
    ring
  have hsumAll : (sales.map fun sale => sale.handedOver - sale.handedBack).sum = day.taken +
      (sales.map fun sale => ((sale.cashTenders.length : Int) - 1) * sale.handedBack).sum := by
    rw [hall]
    refine sum_map_add fun sale hsale => ?_
    ring
  have htakings : day.takings.minor.val =
      (sales.map fun sale => sale.handedOver - sale.handedBack).sum := by
    refine ((of_eq_ok h).2 .takings).trans ?_
    exact congrArg List.sum (List.map_congr_left fun sale hsale => (hkept sale hsale).2.2.2.symm)
  have hone : (∀ sale ∈ sales, ((sale.cashTenders.length : Int) - 1) * sale.handedBack = 0) ↔
      ∀ sale ∈ sales, sale.handedBack ≠ 0 → sale.cashTenders.length = 1 := by
    refine forall₂_congr fun sale _ => ?_
    rw [mul_eq_zero, or_iff_not_imp_right]
    refine imp_congr_right fun _ => ?_
    omega
  rw [← hone, ← hzero]
  constructor
  · intro hreconciles
    have hrow := hreconciles.cash
    omega
  · intro hnothing
    exact {
      netCash := fun sale hsale => (hkept sale hsale).1
      cash := by omega
      tendered := by omega
      takings := by omega }

/-- A bill of 150 paid with one note of 200. -/
def oneNote : Sale :=
  Sale.replayed (Sale.twoLineTicket
    [.tenderRecorded 1 20 .cash ⟨I64.lit 200, .bdt⟩ none,
     .completed 1 ⟨I64.lit 150, .bdt⟩ ⟨I64.lit 50, .bdt⟩ .epoch])

/-- The same bill paid with two notes of 100. -/
def twoNotes : Sale :=
  Sale.replayed (Sale.twoLineTicket
    [.tenderRecorded 1 20 .cash ⟨I64.lit 100, .bdt⟩ none,
     .tenderRecorded 1 21 .cash ⟨I64.lit 100, .bdt⟩ none,
     .completed 1 ⟨I64.lit 150, .bdt⟩ ⟨I64.lit 50, .bdt⟩ .epoch])

theorem oneNote_reached : oneNote.Reached := by
  have hreplay : Sale.replay (Sale.twoLineTicket
      [.tenderRecorded 1 20 .cash ⟨I64.lit 200, .bdt⟩ none,
       .completed 1 ⟨I64.lit 150, .bdt⟩ ⟨I64.lit 50, .bdt⟩ .epoch]) = .ok oneNote := by
    decide
  exact Sale.replay_reached hreplay

theorem twoNotes_reached : twoNotes.Reached := by
  have hreplay : Sale.replay (Sale.twoLineTicket
      [.tenderRecorded 1 20 .cash ⟨I64.lit 100, .bdt⟩ none,
       .tenderRecorded 1 21 .cash ⟨I64.lit 100, .bdt⟩ none,
       .completed 1 ⟨I64.lit 150, .bdt⟩ ⟨I64.lit 50, .bdt⟩ .epoch]) = .ok twoNotes := by
    decide
  exact Sale.replay_reached hreplay

theorem reconciles_iff_oneNote : ∃ day, Day.of [oneNote] .bdt = .ok day ∧
    (day.Reconciles [oneNote] ↔
      ∀ sale ∈ [oneNote], sale.handedBack ≠ 0 → sale.cashTenders.length = 1) := by
  have hokay : (Day.of [oneNote] .bdt).isOkay := by decide +kernel
  obtain ⟨day, hday⟩ := Except.isOkay_iff.mp hokay
  refine ⟨day, hday, reconciles_iff hday (fun sale hsale => ?_) (fun sale hsale _ => ?_)⟩
  · rw [List.mem_singleton.mp hsale]
    exact ⟨oneNote_reached, by decide⟩
  · rw [List.mem_singleton.mp hsale]
    exact ⟨⟨20, .cash, ⟨I64.lit 200, .bdt⟩, none⟩, by decide, rfl⟩

/-- Two notes in one payment: the change is taken off both, and the cash row is short by it. -/
theorem twoNotes_short : ¬ ∀ (sales : List Sale) (currency : Currency) (day : Day),
    Day.of sales currency = .ok day →
    (∀ sale ∈ sales, sale.Reached ∧ sale.status = .completed) →
    (∀ sale ∈ sales, sale.handedBack ≠ 0 → ∃ tender ∈ sale.tenders, tender.method = .cash) →
    day.Reconciles sales := by
  intro hclaim
  have hokay : (Day.of [twoNotes] .bdt).isOkay := by decide +kernel
  obtain ⟨day, hday⟩ := Except.isOkay_iff.mp hokay
  have hreconciles := hclaim [twoNotes] .bdt day hday (fun sale hsale => ?_) fun sale hsale _ => ?_
  · have hrow := hreconciles.cash
    rw [(of_taken hday).1] at hrow
    revert hrow
    decide
  · rw [List.mem_singleton.mp hsale]
    exact ⟨twoNotes_reached, by decide⟩
  · rw [List.mem_singleton.mp hsale]
    exact ⟨⟨20, .cash, ⟨I64.lit 100, .bdt⟩, none⟩, by decide, rfl⟩

end Day

end Sahl
