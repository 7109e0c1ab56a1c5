import Mathlib.Tactic
import Sahl.Core.Reconciling

/-! # What the drawer should hold

    Expected cash is worked out in two places, for the till and for its report, and compared with
    the last count of the drawer (`report_agrees`). A closing brings a figure of its own, which is
    the last count's where whoever closes says so (`closedOnCount_iff`). -/

namespace Sahl

/-! ## Section 1: Expected cash -/

namespace Shift

/-- The shift was running at a time; a shift that has not closed still is. -/
def Running (shift : Shift) (at' : Timestamp) : Prop :=
  shift.openedAt.millis ≤ at'.millis ∧ ∀ closed ∈ shift.closedAt, at'.millis ≤ closed.millis

instance (shift : Shift) (at' : Timestamp) : Decidable (shift.Running at') :=
  inferInstanceAs (Decidable (_ ∧ ∀ closed ∈ shift.closedAt, _))

/-- The sale was settled while the shift was running. -/
def Settles (shift : Shift) (sale : Sale) : Prop := ∃ at' ∈ sale.settledAt, shift.Running at'

instance (shift : Shift) (sale : Sale) : Decidable (shift.Settles sale) :=
  inferInstanceAs (Decidable (∃ at' ∈ sale.settledAt, _))

variable {shift : Shift} {sales : List Sale}

/-- The sales of a report are those settled while the shift was running. -/
theorem mine_eq : shift.mine sales = sales.filter fun sale => shift.Settles sale := by
  refine List.filter_congr fun sale _ => ?_
  rw [Bool.eq_iff_iff, decide_eq_true_iff]
  unfold Settles
  cases sale.settledAt with
  | none => simp
  | some at' =>
    have hcovers : shift.covers at' ↔ shift.Running at' := covers_iff
    simpa using hcovers

theorem cashOf_eq (h : ∀ sale ∈ shift.mine sales, sale.netCash.isOkay) :
    shift.cashOf sales =
      ((shift.mine sales).map fun sale => sale.cashOver - sale.handedBack).sum := by
  refine congrArg List.sum (List.map_congr_left fun sale hsale => ?_)
  obtain ⟨net, hnet⟩ := Except.isOkay_iff.mp (h sale hsale)
  obtain ⟨hkept, hminor⟩ := Sale.netCash_eq_ok hnet
  rw [hkept, hminor]

/-- What an answered report expects is what the shift expects. -/
theorem expectedCash_of_report {report : ShiftReport} (h : shift.report sales = .ok report) :
    shift.expectedCash sales = .ok report.expectedCash := by
  obtain ⟨withSales, -, hcash, hmoved, hwith, hexpected, -⟩ := report_eq_ok h
  simp only [expectedCash, Except.bind_eq_ok, Except.mapError_eq_ok]
  exact ⟨_, hcash, _, hwith, _, hmoved, hexpected⟩

/-- Expected cash is the float, the cash kept from sales and what was moved. -/
theorem expectedCash_eq_ok {expected : Money} (h : shift.expectedCash sales = .ok expected) :
    expected.Holds shift.currency (shift.openingFloat.minor.val +
      ((sales.filter fun sale => shift.Settles sale).map fun sale =>
        sale.cashOver - sale.handedBack).sum +
      (shift.movements.map (·.amount.minor.val)).sum) := by
  simp only [expectedCash, Except.bind_eq_ok, Except.mapError_eq_ok] at h
  obtain ⟨cash, hcash, withSales, hwith, moved, hmoved, hexpected⟩ := h
  obtain ⟨hcashCurrency, hcashMinor⟩ := foldlM_addCash_sum hcash
  have hworked := (foldlM_addCash_eq_ok.mp hcash).1
  obtain ⟨hmovedCurrency, hmovedMinor⟩ := netMovements_eq_ok hmoved
  obtain ⟨hfloat, hwithCurrency, hwithMinor⟩ := Money.checkedAdd_eq_ok.mp hwith
  obtain ⟨-, hexpectedCurrency, hexpectedMinor⟩ := Money.checkedAdd_eq_ok.mp hexpected
  constructor
  · rw [hexpectedCurrency, hwithCurrency, hfloat, hcashCurrency]
  · rw [hexpectedMinor, hwithMinor, hcashMinor, hmovedMinor, cashOf_eq hworked, mine_eq]
    rfl

end Shift

/-! ## Section 2: The variance -/

/-- A variance says by how much a drawer is off, and which way. -/
structure Variance.Measures (v : Variance) (currency : Currency) (difference : Int) : Prop where
  isBalanced : v = .balanced ↔ difference = 0
  isShort : ∀ d, v = .short d ↔ d.Holds currency (-difference) ∧ 0 < d.minor.val
  isOver : ∀ d, v = .over d ↔ d.Holds currency difference ∧ 0 < d.minor.val

theorem Variance.between_eq_ok {counted expected : Money} {v : Variance}
    (h : between counted expected = .ok v) :
    v.Measures expected.currency (counted.minor.val - expected.minor.val) := by
  simp only [between, Except.bind_eq_ok, Except.mapError_eq_ok] at h
  obtain ⟨delta, hdelta, h⟩ := h
  obtain ⟨hsame, hcurrency, hminor⟩ := Money.checkedSub_eq_ok.mp hdelta
  rw [← hminor]
  have hholds : delta.Holds expected.currency delta.minor.val := ⟨hcurrency.trans hsame, rfl⟩
  by_cases hzero : delta.minor.val = 0
  · rw [if_pos (by simpa [Money.isZero] using hzero)] at h
    cases h
    constructor
    · simpa using hzero
    · intro d
      exact iff_of_false (by simp) (Money.Holds.not_positive (by omega) d)
    · intro d
      exact iff_of_false (by simp) (Money.Holds.not_positive (by omega) d)
  rw [if_neg (by simpa [Money.isZero] using hzero)] at h
  by_cases hnegative : delta.minor.val < 0
  · rw [if_pos (by simpa [Money.isNegative] using hnegative)] at h
    simp only [Except.bind_eq_ok, Except.mapError_eq_ok] at h
    obtain ⟨missing, hmissing, h⟩ := h
    cases h
    -- a shortage is stated as the amount missing
    have hneg : missing.Holds expected.currency (-delta.minor.val) := by
      simp only [Money.checkedNeg, Except.bind_eq_ok, Except.okOr_eq_ok,
        SInt.checkedNeg_eq_some] at hmissing
      obtain ⟨minor, hval, hmissing⟩ := hmissing
      cases hmissing
      exact ⟨hholds.1, hval⟩
    constructor
    · simpa using hzero
    · intro d
      rw [Variance.short.injEq]
      constructor
      · intro hd
        subst hd
        have hpositive := hneg.2
        exact ⟨hneg, by omega⟩
      · intro hd
        exact hneg.unique hd.1
    · intro d
      exact iff_of_false (by simp) (Money.Holds.not_positive (by omega) d)
  · rw [if_neg (by simpa [Money.isNegative] using hnegative)] at h
    cases h
    constructor
    · simpa using hzero
    · intro d
      exact iff_of_false (by simp) (Money.Holds.not_positive (by omega) d)
    · intro d
      rw [Variance.over.injEq]
      constructor
      · intro hd
        subst hd
        exact ⟨hholds, by omega⟩
      · intro hd
        exact hholds.unique hd.1

/-- A report agrees with the shift on what the drawer should hold, and says how the last count of
    it compares. -/
structure ShiftReport.Agrees (report : ShiftReport) (shift : Shift) (sales : List Sale) :
    Prop where
  expectedCash : shift.expectedCash sales = .ok report.expectedCash
  sum : report.expectedCash.Holds shift.currency (shift.openingFloat.minor.val +
    ((sales.filter fun sale => shift.Settles sale).map fun sale =>
      sale.cashOver - sale.handedBack).sum +
    (shift.movements.map (·.amount.minor.val)).sum)
  variance : ∀ count, shift.counts.getLast? = some count → ∃ v, report.variance = some v ∧
    v.Measures shift.currency (count.counted.minor.val - report.expectedCash.minor.val)

namespace Shift

variable {shift : Shift} {sales : List Sale}

/-- **Expected cash, twice**: an answered report expects what the shift does, which is the float,
    the cash kept from the sales settled while it ran and what was moved; where the drawer was
    counted, the variance is what the last count is off by. -/
theorem report_agrees {report : ShiftReport} (h : shift.report sales = .ok report) :
    report.Agrees shift sales := by
  have hexpected := expectedCash_of_report h
  have hsum := expectedCash_eq_ok hexpected
  refine ⟨hexpected, hsum, fun count hcount => ?_⟩
  obtain ⟨-, -, -, -, -, -, hvariance⟩ := report_eq_ok h
  have hlast : shift.finalCount = some count := hcount
  rw [hlast] at hvariance
  have hbetween : some <$> Variance.between count.counted report.expectedCash =
    .ok report.variance := hvariance
  obtain ⟨v, hv, hsame⟩ := Except.map_eq_ok.mp hbetween
  refine ⟨v, hsame.symm, ?_⟩
  rw [← hsum.1]
  exact Variance.between_eq_ok hv

end Shift

namespace Shift

/-- A drawer counted twice, with cash lifted to the safe in between. -/
def recounted : Shift :=
  { id := 5, status := .open, openedBy := 9, currency := .bdt,
    openingFloat := ⟨I64.lit 1000, .bdt⟩, openedAt := .epoch, closedAt := none,
    movements := [⟨30, ⟨I64.lit (-100), .bdt⟩, .skim, none, 9, .epoch⟩],
    counts := [⟨⟨I64.lit 1150, .bdt⟩, 9, .epoch⟩, ⟨⟨I64.lit 1040, .bdt⟩, 9, .epoch⟩],
    closingCash := none }

theorem report_agrees_recounted : ∃ report, recounted.report [Day.oneNote] = .ok report ∧
    report.Agrees recounted [Day.oneNote] := by
  have hokay : (recounted.report [Day.oneNote]).isOkay := by decide +kernel
  obtain ⟨report, hreport⟩ := Except.isOkay_iff.mp hokay
  exact ⟨report, hreport, report_agrees hreport⟩

end Shift

/-! ## Section 3: Closing -/

namespace ShiftEvent

/-- What an event says was counted. -/
def found : ShiftEvent → Option Money
  | .counted _ cash .. => some cash
  | _ => none

/-- What an event closes the drawer on. -/
def closing : ShiftEvent → Option Money
  | .closed _ _ closingCash _ => some closingCash
  | _ => none

end ShiftEvent

namespace Shift

/-- What a shift keeps of its counts and its closing is what its events said. -/
structure Records (shift : Shift) (events : List ShiftEvent) : Prop where
  counts : shift.counts.map (·.counted) = events.filterMap (·.found)
  closingCash : shift.closingCash = (events.filterMap (·.closing)).getLast?
  status : shift.status = .closed → shift.closingCash.isSome

theorem apply_records {shift shift' : Shift} {event : ShiftEvent} {events : List ShiftEvent}
    (hrecords : shift.Records events) (h : shift.apply event = .ok shift') :
    shift'.Records (events ++ [event]) := by
  obtain ⟨hcounts, hclosing, hstatus⟩ := hrecords
  obtain ⟨hid, hopen, -, -⟩ := apply_eq_ok h
  -- the shift is open and the event is its own, so it is the transition that answers
  have htransition : shift.transition event = .ok shift' := by
    rwa [apply, if_neg (not_not.mpr hid), if_neg (by rw [hopen]; decide)] at h
  cases event with
  | «opened» => cases htransition
  | cashMoved =>
    cases htransition
    refine ⟨?_, ?_, hstatus⟩
    · simpa [ShiftEvent.found] using hcounts
    · simpa [ShiftEvent.closing] using hclosing
  | counted =>
    rw [transition] at htransition
    split at htransition
    · cases htransition
    cases htransition
    refine ⟨?_, ?_, hstatus⟩
    · simpa [ShiftEvent.found] using hcounts
    · simpa [ShiftEvent.closing] using hclosing
  | closed =>
    rw [transition] at htransition
    split at htransition
    · cases htransition
    cases htransition
    refine ⟨?_, ?_, fun _ => rfl⟩
    · simpa [ShiftEvent.found] using hcounts
    · simp [ShiftEvent.closing]

theorem replay_records {events : List ShiftEvent} {shift : Shift}
    (h : replay events = .ok shift) : shift.Records events := by
  induction events using List.reverseRecOn generalizing shift with
  | nil => cases h
  | append_singleton events event ih =>
    rcases replay_concat_eq_ok h with ⟨rfl, hopened⟩ | ⟨before, hbefore, happly⟩
    · cases event <;> cases hopened
      refine ⟨rfl, rfl, fun hclosed => ?_⟩
      cases hclosed
    · exact apply_records (ih hbefore) happly

/-- The recorded closing cash is what was counted last, so the variance of every report of the
    shift is that of the closing cash. -/
structure ClosedOnCount (shift : Shift) : Prop where
  counted : ∃ count, shift.finalCount = some count ∧ shift.closingCash = some count.counted
  variance : ∀ sales report, shift.report sales = .ok report →
    shift.closingCash.mapM (Variance.between · report.expectedCash) = .ok report.variance

/-- **A closed drawer, exactly**: a shift that replays to its closing recorded what was last
    counted when the closing says the figure of the last count. -/
theorem closedOnCount_iff {events : List ShiftEvent} {shift : Shift}
    (h : replay events = .ok shift) (hclosed : shift.status = .closed) :
    shift.ClosedOnCount ↔
      (events.filterMap (·.closing)).getLast? = (events.filterMap (·.found)).getLast? := by
  obtain ⟨hcounts, hclosing, hstatus⟩ := replay_records h
  have hfinal : shift.finalCount.map (·.counted) = (events.filterMap (·.found)).getLast? := by
    rw [← hcounts, List.getLast?_map]
    rfl
  rw [← hclosing, ← hfinal]
  constructor
  · intro hsame
    obtain ⟨count, hcount, hcash⟩ := hsame.counted
    rw [hcount, hcash]
    rfl
  · intro hsame
    constructor
    · obtain ⟨cash, hcash⟩ := Option.isSome_iff_exists.mp (hstatus hclosed)
      obtain ⟨count, hcount, rfl⟩ := Option.map_eq_some_iff.mp (hsame.symm.trans hcash)
      exact ⟨count, hcount, hcash⟩
    · intro sales report hreport
      obtain ⟨-, -, -, -, -, -, hvariance⟩ := report_eq_ok hreport
      rwa [hsame]

/-- A drawer counted at 1050 and closed at a figure. -/
def closedAt1050 (closingCash : I64) : List ShiftEvent :=
  [.opened 5 9 .bdt ⟨I64.lit 1000, .bdt⟩ .epoch, .counted 5 ⟨I64.lit 1050, .bdt⟩ 9 .epoch,
   .closed 5 9 ⟨closingCash, .bdt⟩ .epoch]

theorem closedOnCount_iff_closedAt1050 : ∃ shift,
    replay (closedAt1050 (I64.lit 1050)) = .ok shift ∧
      (shift.ClosedOnCount ↔
        ((closedAt1050 (I64.lit 1050)).filterMap (·.closing)).getLast? =
          ((closedAt1050 (I64.lit 1050)).filterMap (·.found)).getLast?) := by
  refine ⟨_, rfl, closedOnCount_iff ?_ ?_⟩
  · rfl
  · rfl

/-- Nothing holds the closing to the count: a drawer counted at 1050 closes at 2000. -/
theorem closed_off_count : ¬ ∀ (events : List ShiftEvent) (shift : Shift),
    replay events = .ok shift → shift.status = .closed →
    shift.closingCash = shift.finalCount.map (·.counted) := by
  intro hclaim
  have hsame := hclaim (closedAt1050 (I64.lit 2000)) _ rfl rfl
  revert hsame
  decide

end Shift

end Sahl
