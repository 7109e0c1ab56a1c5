import Mathlib.Tactic
import Sahl.Core.Day
import Sahl.Core.Shift

/-! # What a shift came to

    The report of a shift adds up the sales settled while it ran, and says what the drawer should
    hold. Which sales those are goes by the time they completed; what they add up to decides the
    report (`report_figures_iff`). -/

namespace Sahl

/-! ## Section 1: The report -/

/-- How the drawer compares with expectation. -/
inductive Variance where
  | balanced
  /-- Less in the drawer than there should be. -/
  | short (by' : Money)
  | over (by' : Money)
  deriving DecidableEq

/-- Compare a count against expectation. -/
def Variance.between (counted expected : Money) : Except ShiftError Variance := do
  let delta ← (counted.checkedSub expected).mapError ShiftError.money
  if delta.isZero then .ok .balanced
  else if delta.isNegative then do
    let missing ← delta.checkedNeg.mapError ShiftError.money
    .ok (.short missing)
  else .ok (.over delta)

structure ShiftReport where
  shiftId : Uuid
  cashier : Uuid
  /-- False while the shift runs. -/
  isFinal : Bool
  openingFloat : Money
  /-- Everything sold in the shift, all tenders. -/
  takings : Money
  /-- Cash kept from sales, after change handed back. -/
  cashFromSales : Money
  netMovements : Money
  /-- What the drawer should hold. -/
  expectedCash : Money
  countedCash : Option Money
  variance : Option Variance
  saleCount : Nat
  voidCount : Nat
  /-- How many times the drawer was counted. -/
  countAttempts : Nat
  deriving DecidableEq

namespace Shift

/-- Net of cash moved in and out outside sales. -/
def netMovements (shift : Shift) : Except ShiftError Money :=
  (Money.trySum (shift.movements.map (·.amount)) shift.currency).mapError ShiftError.money

/-- Whether a sale completed at a time belongs to the shift. -/
def covers (shift : Shift) (at' : Timestamp) : Bool :=
  if at'.millis < shift.openedAt.millis then false
  else shift.closedAt.all fun closed => at'.millis ≤ closed.millis

theorem covers_iff {shift : Shift} {at' : Timestamp} :
    shift.covers at' ↔ shift.openedAt ≤ at' ∧ ∀ closed ∈ shift.closedAt, at' ≤ closed := by
  unfold covers
  by_cases hbefore : at'.millis < shift.openedAt.millis
  · rw [if_pos hbefore]
    exact ⟨nofun, fun h => absurd (show at' < shift.openedAt from hbefore) (not_lt.mpr h.1)⟩
  · rw [if_neg hbefore]
    have hopened : shift.openedAt ≤ at' := not_lt.mp hbefore
    cases hclosed : shift.closedAt with
    | none => simp [hopened]
    | some closed => simp only [Option.all_some, decide_eq_true_eq, Option.mem_def,
        Option.some.injEq, forall_eq', hopened, true_and]; rfl

/-- The count the drawer was closed on. -/
def finalCount (shift : Shift) : Option DrawerCount := shift.counts.getLast?

/-- The sales of a report: those settled while the shift ran. -/
def mine (shift : Shift) (sales : List Sale) : List Sale :=
  sales.filter fun sale => sale.settledAt.any shift.covers

/-- One round of adding up the cash. -/
def addCash (total : Money) (sale : Sale) : Except ShiftError Money := do
  let net ← sale.netCash.mapError ShiftError.sale
  (total.checkedAdd net).mapError ShiftError.money

/-- Build the report of a shift, given every sale that might belong to it. -/
def report (shift : Shift) (sales : List Sale) : Except ShiftError ShiftReport := do
  let mine := shift.mine sales
  let takings ← (Money.trySum (mine.filterMap (·.settledTotal)) shift.currency).mapError
    ShiftError.money
  let cashFromSales ← mine.foldlM addCash (Money.zero shift.currency)
  let netMovements ← shift.netMovements
  let withSales ← (shift.openingFloat.checkedAdd cashFromSales).mapError ShiftError.money
  let expectedCash ← (withSales.checkedAdd netMovements).mapError ShiftError.money
  let countedCash := shift.finalCount.map (·.counted)
  let variance ← countedCash.mapM (Variance.between · expectedCash)
  .ok { shiftId := shift.id, cashier := shift.openedBy, isFinal := shift.status = .closed,
        openingFloat := shift.openingFloat, takings, cashFromSales, netMovements, expectedCash,
        countedCash, variance, saleCount := mine.length,
        voidCount := (mine.map (·.voidCount)).sum, countAttempts := shift.counts.length }

/-- Cash the drawer should hold, given the sales belonging to the shift: opening float, plus cash
    kept from sales, plus movements in and out. -/
def expectedCash (shift : Shift) (sales : List Sale) : Except ShiftError Money := do
  let fromSales ← (sales.filter fun sale => sale.settledAt.any shift.covers).foldlM addCash
    (Money.zero shift.currency)
  let withSales ← (shift.openingFloat.checkedAdd fromSales).mapError ShiftError.money
  let netMovements ← shift.netMovements
  (withSales.checkedAdd netMovements).mapError ShiftError.money

end Shift

/-! ## Section 2: What the sales add up to -/

/-- What a sale came to, in minor units. -/
def Sale.settledMinor (sale : Sale) : Int := (sale.settledTotal.map (·.minor.val)).getD 0

/-- The cash kept from a sale, where it can be worked out. -/
def Sale.kept (sale : Sale) : Money := sale.netCash.toOption.getD (Money.zero sale.currency)

namespace Shift

/-- What the sales settled in a shift came to. -/
def takingsOf (shift : Shift) (sales : List Sale) : Int :=
  ((shift.mine sales).map (·.settledMinor)).sum

/-- The cash kept from the sales settled in a shift. -/
def cashOf (shift : Shift) (sales : List Sale) : Int :=
  ((shift.mine sales).map (·.kept.minor.val)).sum

/-- What was moved in and out of the drawer. -/
def movedOf (shift : Shift) : Int := (shift.movements.map (·.amount.minor.val)).sum

theorem sum_settledMinor (sales : List Sale) :
    (sales.map (·.settledMinor)).sum =
      ((sales.filterMap (·.settledTotal)).map (·.minor.val)).sum := by
  induction sales with
  | nil => rfl
  | cons sale sales ih =>
    rw [List.map_cons, List.sum_cons, ih, Sale.settledMinor]
    cases htotal : sale.settledTotal with
    | none => simp [htotal]
    | some total => simp [htotal]

/-- Adding up the cash is adding up what each sale kept, where each has an answer. -/
theorem foldlM_addCash_eq_ok {sales : List Sale} {start total : Money} :
    sales.foldlM addCash start = .ok total ↔
      (∀ sale ∈ sales, sale.netCash.isOkay) ∧
        (sales.map (·.kept)).foldlM Money.checkedAdd start = .ok total := by
  induction sales generalizing start with
  | nil => simp [pure, Except.pure]
  | cons sale sales ih =>
    have hstep : ∀ next, addCash start sale = .ok next ↔
        sale.netCash.isOkay ∧ start.checkedAdd sale.kept = .ok next := by
      intro next
      unfold addCash Sale.kept
      cases hnet : sale.netCash with
      | error error => simp [Except.mapError, Except.isOkay, bind, Except.bind]
      | ok net => simp [Except.mapError_eq_ok, Except.bind_eq_ok, Except.isOkay, Except.toOption]
    simp only [List.map_cons, foldlM_cons_eq_ok, hstep, ih, List.forall_mem_cons]
    constructor
    · rintro ⟨next, ⟨hthis, hnext⟩, hrest, htotal⟩
      exact ⟨⟨hthis, hrest⟩, next, hnext, htotal⟩
    · rintro ⟨⟨hthis, hrest⟩, next, hnext, htotal⟩
      exact ⟨next, ⟨hthis, hnext⟩, hrest, htotal⟩

/-! ## Section 3: When there is a report -/

/-- A count can be compared with what the drawer should hold. -/
def Comparable (counted : Money) (currency : Currency) (expected : Int) : Prop :=
  counted.currency = currency ∧ I64.Fits (counted.minor.val - expected) ∧
    (counted.minor.val < expected → I64.Fits (expected - counted.minor.val))

/-- What a report of a shift needs of its sales and its drawer: one currency throughout, and no
    total on the way that does not fit. -/
structure Reportable (shift : Shift) (sales : List Sale) : Prop where
  takings : Money.AddsUp shift.currency 0 ((shift.mine sales).filterMap (·.settledTotal))
  worked : ∀ sale ∈ shift.mine sales, sale.netCash.isOkay
  cash : Money.AddsUp shift.currency 0 ((shift.mine sales).map (·.kept))
  moved : Money.AddsUp shift.currency 0 (shift.movements.map (·.amount))
  openingFloat : shift.openingFloat.currency = shift.currency
  withSales : I64.Fits (shift.openingFloat.minor.val + shift.cashOf sales)
  expected : I64.Fits (shift.openingFloat.minor.val + shift.cashOf sales + shift.movedOf)
  compared : ∀ count ∈ shift.finalCount, Comparable count.counted shift.currency
    (shift.openingFloat.minor.val + shift.cashOf sales + shift.movedOf)

end Shift

theorem Variance.between_isOkay {counted expected : Money} :
    (between counted expected).isOkay ↔
      Shift.Comparable counted expected.currency expected.minor.val := by
  unfold between Shift.Comparable
  rw [Except.bind_isOkay]
  constructor
  · rintro ⟨delta, hdelta, hokay⟩
    replace hdelta := Except.mapError_eq_ok.mp hdelta
    obtain ⟨hcurrency, hfits⟩ := Money.checkedSub_isOkay.mp (Except.isOkay_iff.mpr ⟨_, hdelta⟩)
    have hminor := (Money.checkedSub_eq_ok.mp hdelta).2.2
    -- a shortage is reported as what is missing, so the difference is negated
    refine ⟨hcurrency, hfits, fun hshort => ?_⟩
    have hzero : delta.isZero = false := by
      unfold Money.isZero
      simp only [decide_eq_false_iff_not]
      omega
    have hnegative : delta.isNegative = true := by
      unfold Money.isNegative
      simp only [decide_eq_true_eq]
      omega
    simp only [hzero, hnegative, Bool.false_eq_true, if_false, if_true] at hokay
    obtain ⟨missing, hmissing, -⟩ := Except.bind_isOkay.mp hokay
    have hneg := Money.checkedNeg_isOkay.mp
      (Except.isOkay_iff.mpr ⟨_, Except.mapError_eq_ok.mp hmissing⟩)
    rw [hminor, neg_sub] at hneg
    exact hneg
  · rintro ⟨hcurrency, hfits, hshort⟩
    obtain ⟨delta, hdelta⟩ := Except.isOkay_iff.mp (Money.checkedSub_isOkay.mpr ⟨hcurrency, hfits⟩)
    have hminor := (Money.checkedSub_eq_ok.mp hdelta).2.2
    refine ⟨delta, Except.mapError_eq_ok.mpr hdelta, ?_⟩
    split
    · rfl
    · split
      · rename_i hnegative
        have hless : counted.minor.val < expected.minor.val := by
          unfold Money.isNegative at hnegative
          simp only [decide_eq_true_eq] at hnegative
          omega
        have hneg : I64.Fits (-delta.minor.val) := by
          rw [hminor, neg_sub]
          exact hshort hless
        obtain ⟨missing, hmissing⟩ := Except.isOkay_iff.mp (Money.checkedNeg_isOkay.mpr hneg)
        exact Except.bind_isOkay.mpr ⟨missing, Except.mapError_eq_ok.mpr hmissing, rfl⟩
      · rfl

namespace Shift

variable {shift : Shift} {sales : List Sale}

/-- The parts of a report that is answered. -/
theorem report_eq_ok {report : ShiftReport} (h : shift.report sales = .ok report) :
    ∃ withSales,
      Money.trySum ((shift.mine sales).filterMap (·.settledTotal)) shift.currency =
        .ok report.takings ∧
      (shift.mine sales).foldlM addCash (Money.zero shift.currency) = .ok report.cashFromSales ∧
      shift.netMovements = .ok report.netMovements ∧
      shift.openingFloat.checkedAdd report.cashFromSales = .ok withSales ∧
      withSales.checkedAdd report.netMovements = .ok report.expectedCash ∧
      (shift.finalCount.map (·.counted)).mapM (Variance.between · report.expectedCash) =
        .ok report.variance := by
  simp only [Shift.report, Except.bind_eq_ok, Except.mapError_eq_ok] at h
  obtain ⟨takings, htakings, cash, hcash, moved, hmoved, withSales, hwith, expected, hexpected,
    variance, hvariance, h⟩ := h
  cases h
  exact ⟨withSales, htakings, hcash, hmoved, hwith, hexpected, hvariance⟩

/-- What cash was kept, where it can be worked out. -/
theorem foldlM_addCash_sum {total : Money}
    (h : (shift.mine sales).foldlM addCash (Money.zero shift.currency) = .ok total) :
    total.currency = shift.currency ∧ total.minor.val = shift.cashOf sales := by
  have hsum := (foldlM_addCash_eq_ok.mp h).2
  obtain ⟨hcurrency, hminor⟩ := Money.trySum_isSum hsum
  refine ⟨hcurrency, ?_⟩
  rw [hminor.minor, cashOf, List.map_map]
  rfl

theorem netMovements_eq_ok {total : Money} (h : shift.netMovements = .ok total) :
    total.currency = shift.currency ∧ total.minor.val = shift.movedOf := by
  obtain ⟨hcurrency, hminor⟩ := Money.trySum_isSum (Except.mapError_eq_ok.mp h)
  refine ⟨hcurrency, ?_⟩
  rw [hminor.minor, movedOf, List.map_map]
  rfl

theorem mapM_between_isOkay {expected : Money} :
    ((shift.finalCount.map (·.counted)).mapM (Variance.between · expected)).isOkay ↔
      ∀ count ∈ shift.finalCount,
        Comparable count.counted expected.currency expected.minor.val := by
  cases hcount : shift.finalCount with
  | none => simp [Except.isOkay, pure, Except.pure]
  | some count =>
    have hlast : ((some count).map (·.counted)).mapM (Variance.between · expected) =
        some <$> Variance.between count.counted expected := rfl
    rw [hlast]
    simp only [Option.mem_def, Option.some.injEq, forall_eq', ← Variance.between_isOkay]
    cases Variance.between count.counted expected <;> simp [Except.isOkay, Functor.map, Except.map]

/-- There is a report exactly when sales and drawer are in one currency and nothing overflows. -/
theorem report_isOkay_iff : (shift.report sales).isOkay ↔ shift.Reportable sales := by
  constructor
  · -- an answered report did each of its checked steps
    intro h
    obtain ⟨report, hreport⟩ := Except.isOkay_iff.mp h
    obtain ⟨withSales, htakings, hcash, hmoved, hwith, hexpected, hvariance⟩ :=
      report_eq_ok hreport
    obtain ⟨hcashCurrency, hcashMinor⟩ := foldlM_addCash_sum hcash
    obtain ⟨hmovedCurrency, hmovedMinor⟩ := netMovements_eq_ok hmoved
    obtain ⟨hworked, hkept⟩ := foldlM_addCash_eq_ok.mp hcash
    obtain ⟨hfloat, hwithCurrency, hwithMinor⟩ := Money.checkedAdd_eq_ok.mp hwith
    obtain ⟨hsame, hexpectedCurrency, hexpectedMinor⟩ := Money.checkedAdd_eq_ok.mp hexpected
    have hwithFits := (Money.checkedAdd_isOkay.mp (Except.isOkay_iff.mpr ⟨_, hwith⟩)).2
    have hexpectedFits := (Money.checkedAdd_isOkay.mp (Except.isOkay_iff.mpr ⟨_, hexpected⟩)).2
    have hcompared := mapM_between_isOkay.mp (Except.isOkay_iff.mpr ⟨_, hvariance⟩)
    rw [hexpectedCurrency, hwithCurrency, hfloat, hcashCurrency, hexpectedMinor, hwithMinor,
      hcashMinor, hmovedMinor] at hcompared
    rw [hcashMinor] at hwithFits
    rw [hwithMinor, hcashMinor, hmovedMinor] at hexpectedFits
    exact {
      takings := (Money.trySum_isOkay_iff _ _).mp (Except.isOkay_iff.mpr ⟨_, htakings⟩)
      worked := hworked
      cash := (Money.trySum_isOkay_iff _ _).mp (Except.isOkay_iff.mpr ⟨_, hkept⟩)
      moved := (Money.trySum_isOkay_iff _ _).mp
        (Except.isOkay_iff.mpr ⟨_, Except.mapError_eq_ok.mp hmoved⟩)
      openingFloat := hfloat.trans hcashCurrency
      withSales := hwithFits
      expected := hexpectedFits
      compared := hcompared }
  · -- and each step that can be done has its answer for the next
    intro h
    obtain ⟨takings, htakings⟩ := Except.isOkay_iff.mp ((Money.trySum_isOkay_iff _ _).mpr h.takings)
    obtain ⟨cash, hkept⟩ := Except.isOkay_iff.mp ((Money.trySum_isOkay_iff _ _).mpr h.cash)
    obtain ⟨moved, hsum⟩ := Except.isOkay_iff.mp ((Money.trySum_isOkay_iff _ _).mpr h.moved)
    have hcash := foldlM_addCash_eq_ok.mpr ⟨h.worked, hkept⟩
    have hmoved : shift.netMovements = .ok moved := Except.mapError_eq_ok.mpr hsum
    obtain ⟨hcashCurrency, hcashMinor⟩ := foldlM_addCash_sum hcash
    obtain ⟨hmovedCurrency, hmovedMinor⟩ := netMovements_eq_ok hmoved
    have hwithOkay : (shift.openingFloat.checkedAdd cash).isOkay := by
      rw [Money.checkedAdd_isOkay, hcashMinor]
      exact ⟨h.openingFloat.trans hcashCurrency.symm, h.withSales⟩
    obtain ⟨withSales, hwith⟩ := Except.isOkay_iff.mp hwithOkay
    obtain ⟨hfloat, hwithCurrency, hwithMinor⟩ := Money.checkedAdd_eq_ok.mp hwith
    have hexpectedOkay : (withSales.checkedAdd moved).isOkay := by
      rw [Money.checkedAdd_isOkay, hwithMinor, hcashMinor, hmovedMinor, hwithCurrency,
        hmovedCurrency]
      exact ⟨h.openingFloat, h.expected⟩
    obtain ⟨expected, hexpected⟩ := Except.isOkay_iff.mp hexpectedOkay
    obtain ⟨-, hexpectedCurrency, hexpectedMinor⟩ := Money.checkedAdd_eq_ok.mp hexpected
    have hvarianceOkay : ((shift.finalCount.map (·.counted)).mapM
        (Variance.between · expected)).isOkay := by
      rw [mapM_between_isOkay, hexpectedCurrency, hwithCurrency, h.openingFloat, hexpectedMinor,
        hwithMinor, hcashMinor, hmovedMinor]
      exact h.compared
    obtain ⟨variance, hvariance⟩ := Except.isOkay_iff.mp hvarianceOkay
    simp only [Shift.report, Except.bind_isOkay, Except.mapError_eq_ok]
    exact ⟨takings, htakings, cash, hcash, moved, hmoved, withSales, hwith, expected, hexpected,
      variance, hvariance, rfl⟩

end Shift

/-! ## Section 4: What decides the figures -/

/-- What a report says of the money. -/
def ShiftReport.figures (report : ShiftReport) : Money × Money × Money × Option Variance :=
  (report.cashFromSales, report.expectedCash, report.takings, report.variance)

namespace Shift

variable {shift : Shift} {sales sales' : List Sale}

/-- Two reports of one shift say the same of the money exactly when the sales settled in it come
    to the same, and to the same cash. -/
theorem report_figures_iff {report report' : ShiftReport} (h : shift.report sales = .ok report)
    (h' : shift.report sales' = .ok report') :
    report.figures = report'.figures ↔
      shift.takingsOf sales = shift.takingsOf sales' ∧
        shift.cashOf sales = shift.cashOf sales' := by
  obtain ⟨withSales, htakings, hcash, hmoved, hwith, hexpected, hvariance⟩ := report_eq_ok h
  obtain ⟨withSales', htakings', hcash', hmoved', hwith', hexpected', hvariance'⟩ :=
    report_eq_ok h'
  have htaken : ∀ {sales : List Sale} {takings : Money},
      Money.trySum ((shift.mine sales).filterMap (·.settledTotal)) shift.currency = .ok takings →
        takings.currency = shift.currency ∧ takings.minor.val = shift.takingsOf sales := by
    intro sales takings hsum
    obtain ⟨hcurrency, hminor⟩ := Money.trySum_isSum hsum
    refine ⟨hcurrency, ?_⟩
    rw [hminor.minor, takingsOf, sum_settledMinor]
  obtain ⟨htakingsCurrency, htakingsMinor⟩ := htaken htakings
  obtain ⟨htakingsCurrency', htakingsMinor'⟩ := htaken htakings'
  obtain ⟨hcashCurrency, hcashMinor⟩ := foldlM_addCash_sum hcash
  obtain ⟨hcashCurrency', hcashMinor'⟩ := foldlM_addCash_sum hcash'
  constructor
  · intro hsame
    simp only [ShiftReport.figures, Prod.mk.injEq] at hsame
    obtain ⟨hsameCash, -, hsameTakings, -⟩ := hsame
    rw [← htakingsMinor, ← htakingsMinor', ← hcashMinor, ← hcashMinor', hsameCash, hsameTakings]
    exact ⟨rfl, rfl⟩
  · rintro ⟨hsameTakings, hsameCash⟩
    have heqTakings : report.takings = report'.takings :=
      Money.eq_of_val (htakingsCurrency.trans htakingsCurrency'.symm)
        (by rw [htakingsMinor, htakingsMinor', hsameTakings])
    have heqCash : report.cashFromSales = report'.cashFromSales :=
      Money.eq_of_val (hcashCurrency.trans hcashCurrency'.symm)
        (by rw [hcashMinor, hcashMinor', hsameCash])
    have heqMoved : report.netMovements = report'.netMovements :=
      Except.ok.inj (hmoved.symm.trans hmoved')
    -- what is worked out from equal figures is equal
    rw [heqCash, hwith'] at hwith
    cases hwith
    rw [heqMoved, hexpected'] at hexpected
    have heqExpected := Except.ok.inj hexpected
    rw [← heqExpected, hvariance'] at hvariance
    have heqVariance := Except.ok.inj hvariance
    simp only [ShiftReport.figures, heqTakings, heqCash, heqExpected, heqVariance]

/-- Whether or not there are reports, they say the same of the money exactly when there are both
    or neither and what the sales settled in the shift come to is the same. -/
theorem report_same_iff :
    (shift.report sales).toOption.map (·.figures) =
        (shift.report sales').toOption.map (·.figures) ↔
      (shift.Reportable sales ↔ shift.Reportable sales') ∧
        (shift.Reportable sales → shift.takingsOf sales = shift.takingsOf sales' ∧
          shift.cashOf sales = shift.cashOf sales') := by
  rw [← report_isOkay_iff, ← report_isOkay_iff]
  cases hreport : shift.report sales with
  | error error =>
    cases hreport' : shift.report sales' with
    | error error' => simp [Except.toOption, Except.isOkay]
    | ok report' => simp [Except.toOption, Except.isOkay]
  | ok report =>
    cases hreport' : shift.report sales' with
    | error error' => simp [Except.toOption, Except.isOkay]
    | ok report' =>
      simp only [Except.toOption, Option.map_some, Option.some.injEq, Except.isOkay, true_and,
        forall_const]
      exact report_figures_iff hreport hreport'

end Shift

end Sahl
