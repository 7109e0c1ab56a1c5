import Mathlib.Tactic
import Sahl.Core.Receiving

/-! # Lines charged at another price than they were ordered at

    An order compares what has arrived on a line, at the ordered unit cost and rounded once, with
    what was charged for it, rounded receipt by receipt. The main result is
    `priceDiscrepancies_iff`: exactly when that comparison tells whether a receipt was charged at
    another unit cost. -/

namespace Sahl

/-! ## Section 1: The comparison -/

/-- Whether the price charged for a line did not match the price ordered. -/
def LineProgress.discrepant (progress : LineProgress) : Except MoneyError Bool :=
  if progress.received.isZero then .ok false
  else do
    let expected ← extend progress.line.unitCost progress.received
    .ok (expected ≠ progress.receivedValue)

/-- Lines where the price charged did not match the price ordered. -/
def PurchaseOrder.priceDiscrepancies (order : PurchaseOrder) :
    Except MoneyError (List LineProgress) :=
  order.lines.values.filterM (·.discrepant)

/-- What the rounding of a receipt's charge leaves, in thousandths of a minor unit. -/
def Receipt.residue (receipt : Receipt) : Int :=
  receipt.unitCost.minor.val * receipt.quantity.milli.val - receipt.charge * 1000

/-- What a receipt is charged less than was ordered, in thousandths of a minor unit: the difference
    in price and what its rounding leaves. -/
def Receipt.undercharge (ordered : Money) (receipt : Receipt) : Int :=
  (ordered.minor.val - receipt.unitCost.minor.val) * receipt.quantity.milli.val + receipt.residue

/-- What so many receipts come to at the ordered unit cost, in thousandths of a minor unit. -/
def due (ordered : Money) (receipts : List Receipt) : Int :=
  ordered.minor.val * (receipts.map (·.quantity.milli.val)).sum

/-- The price of a line shows in what its receipts come to: at the ordered unit cost they come to
    an amount of money, from which what they are charged less is negligible where none of them has
    another unit cost, and is not where one of them has. -/
def PriceShows (ordered : Money) (receipts : List Receipt) : Prop :=
  I64.Fits (Rounded.halfAway (due ordered receipts) 1000) ∧
    if ∀ receipt ∈ receipts, receipt.unitCost = ordered then
      Rounded.Negligible (due ordered receipts) 1000
        (receipts.map (Receipt.undercharge ordered)).sum
    else
      ¬ Rounded.Negligible (due ordered receipts) 1000
        (receipts.map (Receipt.undercharge ordered)).sum

instance (ordered : Money) (receipts : List Receipt) : Decidable (PriceShows ordered receipts) :=
  inferInstanceAs (Decidable (_ ∧ _))

/-! ## Section 2: One line -/

/-- What is charged less, receipt by receipt, is what is due less all that is charged. -/
theorem sum_undercharge (ordered : Money) (receipts : List Receipt) :
    (receipts.map (Receipt.undercharge ordered)).sum =
      due ordered receipts - (receipts.map Receipt.charge).sum * 1000 := by
  induction receipts with
  | nil => simp [due]
  | cons receipt rest ih =>
    have hone : receipt.undercharge ordered =
        ordered.minor.val * receipt.quantity.milli.val - receipt.charge * 1000 := by
      rw [Receipt.undercharge, Receipt.residue]
      ring
    have hdue : due ordered (receipt :: rest) =
        ordered.minor.val * receipt.quantity.milli.val + due ordered rest := by
      rw [due, due, List.map_cons, List.sum_cons]
      ring
    rw [List.map_cons, List.sum_cons, ih, hone, hdue, List.map_cons, List.sum_cons]
    ring

namespace LineProgress

variable {progress : LineProgress} {receipts : List Receipt}

/-- Something has arrived on a line that has receipts. -/
theorem sum_quantities_pos (hpositive : ∀ receipt ∈ receipts, 0 < receipt.quantity.milli.val)
    (hsome : receipts ≠ []) : 0 < (receipts.map (·.quantity.milli.val)).sum := by
  refine List.sum_pos _ ?_ (by simpa using hsome)
  intro quantity hmem
  obtain ⟨receipt, hreceipt, rfl⟩ := List.mem_map.mp hmem
  exact hpositive receipt hreceipt

/-- A line is compared where what is due fits, and is found where it is not what was charged. -/
theorem Holds.discrepant_spec {value : Int}
    (h : progress.Holds (receipts.map (·.quantity.milli.val)).sum value)
    (hnone : receipts = [] → value = 0)
    (hpositive : ∀ receipt ∈ receipts, 0 < receipt.quantity.milli.val) :
    (progress.discrepant.isOkay ↔
        I64.Fits (Rounded.halfAway (due progress.line.unitCost receipts) 1000)) ∧
      (I64.Fits (Rounded.halfAway (due progress.line.unitCost receipts) 1000) →
        (progress.discrepant.toOption = some true ↔
          Rounded.halfAway (due progress.line.unitCost receipts) 1000 ≠ value)) := by
  have hdue : progress.line.unitCost.minor.val * progress.received.milli.val =
      due progress.line.unitCost receipts := by
    rw [h.received, due]
  -- with nothing received there is nothing to compare, and the code does not multiply
  by_cases hzero : receipts = []
  · subst hzero
    have hempty : progress.received.isZero = true := by
      simp [Quantity.isZero, h.received]
    have hnothing : Rounded.halfAway (due progress.line.unitCost []) 1000 = 0 := by
      simp [due, Rounded.halfAway]
    rw [discrepant, if_pos hempty, hnothing, hnone rfl]
    exact ⟨⟨fun _ => by decide, fun _ => rfl⟩, fun _ => by simp [Except.toOption]⟩
  have hsome : ¬ progress.received.isZero = true := by
    have := sum_quantities_pos hpositive hzero
    simp only [Quantity.isZero, h.received, decide_eq_true_eq]
    omega
  have hcompare : progress.discrepant = (extend progress.line.unitCost progress.received).bind
      fun expected => .ok (decide (expected ≠ progress.receivedValue)) := by
    rw [discrepant, if_neg hsome]
    rfl
  rw [hcompare, ← hdue, ← extend_isOkay]
  cases hexpected : extend progress.line.unitCost progress.received with
  | error error => exact ⟨Iff.rfl, fun hfits => by cases hfits⟩
  | ok expected =>
    refine ⟨⟨fun _ => rfl, fun _ => rfl⟩, fun _ => ?_⟩
    obtain ⟨hcurrency, hvalue⟩ := extend_eq_ok.mp hexpected
    have hsame : expected = progress.receivedValue ↔ expected.minor.val = value := by
      rw [← h.value, ← SInt.ext_iff]
      refine ⟨fun heq => by rw [heq], fun hminor => ?_⟩
      rw [← h.currency] at hcurrency
      obtain ⟨minor, currency⟩ := expected
      cases hcurrency
      cases hminor
      rfl
    rw [← hvalue, Except.bind, Except.toOption, Option.some.injEq, decide_eq_true_eq, Ne, hsame]

/-- The comparison of a line is answered and says whether a receipt on it has another unit cost,
    exactly when the price of the line shows. -/
theorem Holds.discrepant_iff
    (h : progress.Holds (receipts.map (·.quantity.milli.val)).sum
      (receipts.map Receipt.charge).sum)
    (hpositive : ∀ receipt ∈ receipts, 0 < receipt.quantity.milli.val) :
    (progress.discrepant.isOkay ∧ (progress.discrepant.toOption = some true ↔
        ∃ receipt ∈ receipts, receipt.unitCost ≠ progress.line.unitCost)) ↔
      PriceShows progress.line.unitCost receipts := by
  obtain ⟨hokay, hfound⟩ := h.discrepant_spec (by rintro rfl; rfl) hpositive
  rw [PriceShows, hokay]
  refine and_congr_right fun hfits => ?_
  rw [hfound hfits, Ne, Rounded.halfAway_eq_iff (by norm_num), sum_undercharge]
  by_cases hsame : ∀ receipt ∈ receipts, receipt.unitCost = progress.line.unitCost
  · have hnone : ¬ ∃ receipt ∈ receipts, receipt.unitCost ≠ progress.line.unitCost := by
      rintro ⟨receipt, hmem, hother⟩
      exact hother (hsame receipt hmem)
    rw [if_pos hsame, iff_false_right hnone, not_not]
  · have hsome : ∃ receipt ∈ receipts, receipt.unitCost ≠ progress.line.unitCost := by
      push Not at hsame
      exact hsame
    rw [if_neg hsame, iff_true_right hsome]

end LineProgress

/-! ## Section 3: A placed order and its receipts -/

namespace PurchaseOrder

variable {order order' : PurchaseOrder} {event : PurchaseEvent} {events : List PurchaseEvent}

/-- An event that an order accepts is not taken in half. -/
theorem not_halfTakes_of_ok (h : (order.apply event).toExcept = .ok order') :
    ¬ order.HalfTakes event := by
  intro hhalf
  obtain ⟨error, herror, -⟩ := halfTakes_changes hhalf
  rw [Outcome.toExcept, herror] at h
  cases h

/-- An accepted receipt is of something. -/
theorem receipt_positive {receipt : Receipt} (h : (order.apply event).toExcept = .ok order')
    (hreceipt : event.receipt? = some receipt) : 0 < receipt.quantity.milli.val := by
  cases step_cases order event with
  | refused error happly =>
    rw [happly] at h
    cases h
  | taken found _ _ hfound hpositive =>
    rw [hfound, Option.some.injEq] at hreceipt
    rwa [← hreceipt]
  | closed _ hnone =>
    rw [hnone] at hreceipt
    cases hreceipt
  | halfTaken half => exact absurd half (not_halfTakes_of_ok h)

/-- An order covers the receipts it is replayed from, each of them of something. -/
theorem replay_covers (h : replay events = .ok order) :
    order.Covers (events.filterMap PurchaseEvent.receipt?) ∧
      ∀ receipt ∈ events.filterMap PurchaseEvent.receipt?, 0 < receipt.quantity.milli.val := by
  cases events with
  | nil => cases h
  | cons first rest =>
    obtain ⟨start, hstart, hrest⟩ := Except.bind_eq_ok.mp h
    have hplacement : first.receipt? = none := by
      cases first with
      | placed => rfl
      | lineReceived => cases hstart
      | closed => cases hstart
    rw [List.filterMap_cons, hplacement]
    -- covering what was received so far is what each further event keeps
    refine foldlM_invariant (fun (seen : List PurchaseEvent) (order : PurchaseOrder) =>
      order.Covers (seen.filterMap PurchaseEvent.receipt?) ∧
        ∀ receipt ∈ seen.filterMap PurchaseEvent.receipt?, 0 < receipt.quantity.milli.val) ?_
      ⟨placed_covers hstart, by simp⟩ hrest
    rintro seen order event order' ⟨hcovers, hpositive⟩ happly
    obtain ⟨hokay, rfl⟩ := Outcome.toExcept_eq_ok.mp happly
    have hstep := hcovers.step (not_halfTakes_of_ok happly)
    rw [accepted, hokay] at hstep
    have hconcat : (seen ++ [event]).filterMap PurchaseEvent.receipt? =
        seen.filterMap PurchaseEvent.receipt? ++ event.receipt?.toList := by
      rw [List.filterMap_append]
      cases hreceipt : event.receipt? <;> simp [hreceipt]
    rw [hconcat]
    refine ⟨hstep, fun receipt hmem => ?_⟩
    rcases List.mem_append.mp hmem with hmem | hmem
    · exact hpositive receipt hmem
    · exact receipt_positive happly (Option.mem_toList.mp hmem)

/-- The price discrepancies are exactly the lines with a receipt at another unit cost than the one
    ordered. -/
def FindsRepriced (order : PurchaseOrder) (receipts : List Receipt) : Prop :=
  ∃ found, order.priceDiscrepancies = .ok found ∧
    ∀ (lineId : Uuid) (progress : LineProgress), order.lines[lineId]? = some progress →
      (progress ∈ found ↔
        ∃ receipt ∈ receiptsOn lineId receipts, receipt.unitCost ≠ progress.line.unitCost)

/-- The repriced lines of an order that covers some receipts are found if and only if the price of
    every line shows in them. -/
theorem Covers.findsRepriced_iff {receipts : List Receipt} (hcovers : order.Covers receipts)
    (hpositive : ∀ receipt ∈ receipts, 0 < receipt.quantity.milli.val) :
    order.FindsRepriced receipts ↔
      ∀ (lineId : Uuid) (progress : LineProgress), order.lines[lineId]? = some progress →
        PriceShows progress.line.unitCost (receiptsOn lineId receipts) := by
  -- line by line: found exactly where its price shows
  have hline : ∀ {lineId : Uuid} {progress : LineProgress}, order.lines[lineId]? = some progress →
      ((progress.discrepant.isOkay ∧ (progress.discrepant.toOption = some true ↔
        ∃ receipt ∈ receiptsOn lineId receipts, receipt.unitCost ≠ progress.line.unitCost)) ↔
        PriceShows progress.line.unitCost (receiptsOn lineId receipts)) :=
    fun {lineId progress} hprogress => (hcovers lineId progress hprogress).discrepant_iff
      fun receipt hmem => hpositive receipt (List.mem_of_mem_filter hmem)
  have hmem : ∀ {lineId : Uuid} {progress : LineProgress}, order.lines[lineId]? = some progress →
      progress ∈ order.lines.values := fun hprogress => UuidMap.mem_values.mpr ⟨_, hprogress⟩
  constructor
  · rintro ⟨found, hfound, hlisted⟩ lineId progress hprogress
    obtain ⟨hokay, rfl⟩ := filterM_eq_ok.mp hfound
    have hin := hlisted lineId progress hprogress
    rw [List.mem_filter, decide_eq_true_eq, and_iff_right (hmem hprogress)] at hin
    exact (hline hprogress).mp ⟨hokay progress (hmem hprogress), hin⟩
  · intro hshows
    refine ⟨_, filterM_eq_ok.mpr ⟨?_, rfl⟩, ?_⟩
    · intro progress hvalue
      obtain ⟨lineId, hprogress⟩ := UuidMap.mem_values.mp hvalue
      exact ((hline hprogress).mpr (hshows lineId progress hprogress)).1
    · intro lineId progress hprogress
      rw [List.mem_filter, decide_eq_true_eq, and_iff_right (hmem hprogress)]
      exact ((hline hprogress).mpr (hshows lineId progress hprogress)).2

/-- **Price discrepancies, exactly**: of an order replayed from its placement and receipts, they
    are the repriced lines if and only if the price of every line shows in its receipts. -/
theorem priceDiscrepancies_iff (h : replay events = .ok order) :
    order.FindsRepriced (events.filterMap PurchaseEvent.receipt?) ↔
      ∀ (lineId : Uuid) (progress : LineProgress), order.lines[lineId]? = some progress →
        PriceShows progress.line.unitCost
          (receiptsOn lineId (events.filterMap PurchaseEvent.receipt?)) := by
  obtain ⟨hcovers, hpositive⟩ := replay_covers h
  exact hcovers.findsRepriced_iff hpositive

/-! ### Half kilograms, and prices either side of the order's -/

/-- Ten kilograms of tea are ordered at 1.01. -/
def teaOrder : PurchaseEvent :=
  .placed 40 "Mill" none [⟨30, 12, ⟨I64.lit 10000⟩, ⟨I64.lit 101, .bdt⟩⟩] none Timestamp.epoch 7

/-- Some of it arrives, at a unit cost. -/
def delivery (milli minor : I64) : PurchaseEvent :=
  .lineReceived 40 30 50 ⟨milli⟩ ⟨minor, .bdt⟩ Timestamp.epoch 7

theorem raisedPrice_found : ∃ order,
    replay [teaOrder, delivery (I64.lit 4000) (I64.lit 111)] = .ok order ∧
      order.FindsRepriced ([teaOrder, delivery (I64.lit 4000) (I64.lit 111)].filterMap
        PurchaseEvent.receipt?) := by
  obtain ⟨order, horder⟩ := Except.isOkay_iff.mp (show
    (replay [teaOrder, delivery (I64.lit 4000) (I64.lit 111)]).isOkay = true by decide +kernel)
  have hshows : (replay [teaOrder, delivery (I64.lit 4000) (I64.lit 111)]).toOption.all
      (fun order => ∀ entry ∈ order.lines.toList, PriceShows entry.2.line.unitCost
        (receiptsOn entry.1 ([teaOrder, delivery (I64.lit 4000) (I64.lit 111)].filterMap
          PurchaseEvent.receipt?))) = true := by
    decide +kernel
  rw [horder] at hshows
  refine ⟨order, horder, (priceDiscrepancies_iff horder).mpr fun lineId progress hprogress => ?_⟩
  exact of_decide_eq_true hshows (lineId, progress)
    (Std.ExtTreeMap.mem_toList_iff_getElem?_eq_some.mpr hprogress)

/-- A run of deliveries of one line, in which its price does not show, is misjudged. -/
theorem misjudged {events : List PurchaseEvent} (hokay : (replay events).isOkay)
    (hshows : (replay events).toOption.all (fun order => order.lines[(30 : Uuid)]?.any
      (fun progress => ¬ PriceShows progress.line.unitCost
        (receiptsOn 30 (events.filterMap PurchaseEvent.receipt?)))) = true) :
    ∃ order, replay events = .ok order ∧
      ¬ order.FindsRepriced (events.filterMap PurchaseEvent.receipt?) := by
  obtain ⟨order, horder⟩ := Except.isOkay_iff.mp hokay
  rw [horder] at hshows
  obtain ⟨progress, hprogress, hnot⟩ := (Option.any_eq_true _ _).mp hshows
  obtain ⟨hcovers, hpositive⟩ := replay_covers horder
  refine ⟨order, horder, fun hfinds => of_decide_eq_true hnot ?_⟩
  exact (hcovers.findsRepriced_iff hpositive).mp hfinds 30 progress hprogress

/-- Two half kilograms at the ordered unit cost are found to be repriced, and one kilogram at a
    poisha less with one at a poisha more is not. -/
theorem deliveries_misjudged :
    (∃ order, replay [teaOrder, delivery (I64.lit 500) (I64.lit 101),
        delivery (I64.lit 500) (I64.lit 101)] = .ok order ∧
      ¬ order.FindsRepriced ([teaOrder, delivery (I64.lit 500) (I64.lit 101),
        delivery (I64.lit 500) (I64.lit 101)].filterMap PurchaseEvent.receipt?)) ∧
    (∃ order, replay [teaOrder, delivery (I64.lit 1000) (I64.lit 100),
        delivery (I64.lit 1000) (I64.lit 102)] = .ok order ∧
      ¬ order.FindsRepriced ([teaOrder, delivery (I64.lit 1000) (I64.lit 100),
        delivery (I64.lit 1000) (I64.lit 102)].filterMap PurchaseEvent.receipt?)) :=
  ⟨misjudged (by decide +kernel) (by decide +kernel),
    misjudged (by decide +kernel) (by decide +kernel)⟩

end PurchaseOrder

end Sahl
