import Mathlib.Tactic
import Sahl.Core.Purchasing

/-! # What a purchase order has taken up

    An order adds up what arrives on each of its lines, in quantity and in value. A receipt goes
    into the quantity first; one that is refused afterwards, for what it charges, stays there. A
    run of events, those that are refused passed over, is covered exactly when it meets no such
    receipt (`covered_iff`). -/

namespace Sahl

/-! ## Section 1: Receipts -/

/-- What a receipt says about a line. -/
structure Receipt where
  lineId : Uuid
  quantity : Quantity
  unitCost : Money
  deriving DecidableEq

/-- What a receipt charges, in minor units, halves away from zero. -/
def Receipt.charge (receipt : Receipt) : Int :=
  Rounded.halfAway (receipt.unitCost.minor.val * receipt.quantity.milli.val) 1000

/-- The receipt in an event. -/
def PurchaseEvent.receipt? : PurchaseEvent → Option Receipt
  | lineReceived _ lineId _ quantity unitCost .. => some ⟨lineId, quantity, unitCost⟩
  | _ => none

theorem extend_eq_ok {unitCost value : Money} {quantity : Quantity} :
    extend unitCost quantity = .ok value ↔ value.currency = unitCost.currency ∧
      value.minor.val = Rounded.halfAway (unitCost.minor.val * quantity.milli.val) 1000 :=
  Money.mulRatio_halfUp_eq_ok (by decide)

theorem extend_isOkay {unitCost : Money} {quantity : Quantity} : (extend unitCost quantity).isOkay ↔
    I64.Fits (Rounded.halfAway (unitCost.minor.val * quantity.milli.val) 1000) := by
  rw [Except.isOkay_iff, I64.fits_iff]
  constructor
  · intro h
    obtain ⟨value, hvalue⟩ := h
    exact ⟨value.minor, (extend_eq_ok.mp hvalue).2⟩
  · intro h
    obtain ⟨minor, hminor⟩ := h
    exact ⟨⟨minor, unitCost.currency⟩, extend_eq_ok.mpr ⟨rfl, hminor⟩⟩

/-! ## Section 2: One receipt on its line -/

namespace LineProgress

variable {progress : LineProgress} {receipt : Receipt}

/-- A line that holds so much, worth so much in the currency it was ordered in. -/
structure Holds (progress : LineProgress) (milli value : Int) : Prop where
  received : progress.received.milli.val = milli
  value : progress.receivedValue.minor.val = value
  currency : progress.receivedValue.currency = progress.line.unitCost.currency

/-- The charge of a receipt can be added to the line: it is in the currency of the line, and both
    the charge and the sum fit. -/
def Chargeable (progress : LineProgress) (receipt : Receipt) : Prop :=
  receipt.unitCost.currency = progress.receivedValue.currency ∧ I64.Fits receipt.charge ∧
    I64.Fits (progress.receivedValue.minor.val + receipt.charge)

instance (progress : LineProgress) (receipt : Receipt) : Decidable (progress.Chargeable receipt) :=
  inferInstanceAs (Decidable (_ ∧ _))

/-- Whether the quantity of a receipt can be added to the line. -/
def Countable (progress : LineProgress) (receipt : Receipt) : Prop :=
  I64.Fits (progress.received.milli.val + receipt.quantity.milli.val)

instance (progress : LineProgress) (receipt : Receipt) : Decidable (progress.Countable receipt) :=
  inferInstanceAs (Decidable (I64.Fits _))

/-- A quantity that cannot be added is refused on the line as it was. -/
theorem receive_uncountable (h : ¬ progress.Countable receipt) :
    progress.receive receipt.quantity receipt.unitCost = .refused progress (.money .overflow) := by
  rw [receive, Quantity.checkedAdd_eq_overflow h]

/-- A receipt that is good in both is taken up in both. -/
theorem receive_charged (hcount : progress.Countable receipt)
    (hcharge : progress.Chargeable receipt) :
    ∃ progress', progress.receive receipt.quantity receipt.unitCost = .done progress' ∧
      progress'.line = progress.line ∧
      progress'.received.milli.val = progress.received.milli.val + receipt.quantity.milli.val ∧
      progress'.receivedValue.minor.val = progress.receivedValue.minor.val + receipt.charge ∧
      progress'.receivedValue.currency = progress.receivedValue.currency := by
  obtain ⟨received, hreceived⟩ := Quantity.fits_iff.mp hcount
  obtain ⟨hcurrency, hfits, hsum⟩ := hcharge
  obtain ⟨value, hvalue⟩ := Except.isOkay_iff.mp (extend_isOkay.mpr hfits)
  obtain ⟨hsame, hminor⟩ := extend_eq_ok.mp hvalue
  obtain ⟨total, htotal⟩ := Except.isOkay_iff.mp (Money.checkedAdd_isOkay.mpr
    ⟨hcurrency.symm.trans hsame.symm, by rw [hminor]; exact hsum⟩)
  obtain ⟨-, hcur, hval⟩ := Money.checkedAdd_eq_ok.mp htotal
  refine ⟨⟨progress.line, received, total⟩, ?_, rfl, hreceived, by rw [hval, hminor]; rfl, hcur⟩
  rw [receive, Quantity.checkedAdd_eq_ok.mpr hreceived]
  simp only [hvalue, htotal, Except.mapError, bind, Except.bind]
  rfl

/-- A receipt that is good in its quantity alone is refused, and stays in the quantity. -/
theorem receive_uncharged (hcount : progress.Countable receipt)
    (hcharge : ¬ progress.Chargeable receipt) :
    ∃ received error,
      received.milli.val = progress.received.milli.val + receipt.quantity.milli.val ∧
      progress.receive receipt.quantity receipt.unitCost =
        .refused { progress with received } error := by
  obtain ⟨received, hreceived⟩ := Quantity.fits_iff.mp hcount
  rw [receive, Quantity.checkedAdd_eq_ok.mpr hreceived]
  cases hvalue : extend receipt.unitCost receipt.quantity with
  | error error => exact ⟨received, .money error, hreceived, rfl⟩
  | ok value =>
    obtain ⟨hsame, hminor⟩ := extend_eq_ok.mp hvalue
    cases htotal : progress.receivedValue.checkedAdd value with
    | error error =>
      refine ⟨received, .money error, hreceived, ?_⟩
      simp only [htotal, Except.mapError, bind, Except.bind]
      rfl
    | ok total =>
      -- then the charge could be added after all
      obtain ⟨hcur, hsum⟩ := Money.checkedAdd_isOkay.mp (Except.isOkay_iff.mpr ⟨total, htotal⟩)
      refine absurd ⟨hsame.symm.trans hcur.symm, I64.fits_iff.mpr ⟨value.minor, hminor⟩, ?_⟩ hcharge
      rwa [hminor] at hsum

end LineProgress

/-! ## Section 3: One event -/

namespace PurchaseOrder

variable {order : PurchaseOrder} {event : PurchaseEvent}

/-- A refused event leaves the order as it was. -/
def Unchanged (order : PurchaseOrder) (event : PurchaseEvent) : Prop :=
  ∀ error, (order.apply event).answer = .error error → (order.apply event).state = order

/-- The event is a receipt that an open order takes into the quantity of its line and cannot take
    into the value. -/
def HalfTakes (order : PurchaseOrder) (event : PurchaseEvent) : Prop :=
  order.closed = none ∧ ∃ receipt ∈ event.receipt?, 0 < receipt.quantity.milli.val ∧
    ∃ progress ∈ order.lines[receipt.lineId]?,
      progress.Countable receipt ∧ ¬ progress.Chargeable receipt

instance (order : PurchaseOrder) (event : PurchaseEvent) : Decidable (order.HalfTakes event) :=
  inferInstanceAs (Decidable (_ ∧ _))

/-- What an open order does with a receipt of something on one of its lines. -/
theorem apply_receipt {receipt : Receipt} {progress : LineProgress} (hopen : order.closed = none)
    (hreceipt : event.receipt? = some receipt) (hpositive : 0 < receipt.quantity.milli.val)
    (hline : order.lines[receipt.lineId]? = some progress) :
    order.apply event =
      let outcome := progress.receive receipt.quantity receipt.unitCost
      ⟨{ order with lines := order.lines.insert receipt.lineId outcome.state },
        outcome.answer⟩ := by
  cases event with
  | lineReceived orderId lineId batchId quantity unitCost at' receivedBy =>
    cases hreceipt
    simp only at hpositive hline
    simp only [apply, hopen, Option.isSome_none, Bool.false_eq_true, if_false,
      if_neg (show ¬ quantity.milli.val ≤ 0 by omega), hline]
  | placed => cases hreceipt
  | closed => cases hreceipt

/-- What an order can do with an event: refuse it and stay as it was, take a receipt into one of
    its lines, be closed, or refuse a receipt that then stays in the quantity of its line. -/
inductive Step (order : PurchaseOrder) (event : PurchaseEvent) : Prop where
  | refused (error : PurchaseError) (h : order.apply event = .refused order error)
  | taken (receipt : Receipt) (progress progress' : LineProgress)
      (hreceipt : event.receipt? = some receipt) (hpositive : 0 < receipt.quantity.milli.val)
      (hline : order.lines[receipt.lineId]? = some progress)
      (hsame : progress'.line = progress.line)
      (hreceived : progress'.received.milli.val =
        progress.received.milli.val + receipt.quantity.milli.val)
      (hvalue : progress'.receivedValue.minor.val =
        progress.receivedValue.minor.val + receipt.charge)
      (hcurrency : progress'.receivedValue.currency = progress.receivedValue.currency)
      (h : order.apply event =
        .done { order with lines := order.lines.insert receipt.lineId progress' })
  | closed (reason : CloseReason) (hreceipt : event.receipt? = none)
      (h : order.apply event = .done { order with closed := some reason })
  | halfTaken (half : order.HalfTakes event)

/-- Every event is one of these. -/
theorem step_cases (order : PurchaseOrder) (event : PurchaseEvent) : order.Step event := by
  by_cases hopen : order.closed = none
  · cases event with
    | placed orderId =>
      exact .refused (.alreadyPlaced orderId) (by simp [apply, hopen])
    | closed orderId reason => exact .closed reason rfl (by simp [apply, hopen])
    | lineReceived orderId lineId batchId quantity unitCost at' receivedBy =>
      by_cases hpositive : 0 < quantity.milli.val
      · cases hline : order.lines[lineId]? with
        | none =>
          refine .refused (.unknownLine order.orderId lineId) ?_
          simp [apply, hopen, hpositive, hline]
        | some progress =>
          have happly := @apply_receipt order (.lineReceived orderId lineId batchId quantity
            unitCost at' receivedBy) ⟨lineId, quantity, unitCost⟩ progress hopen rfl hpositive hline
          by_cases hcount : progress.Countable ⟨lineId, quantity, unitCost⟩
          · by_cases hcharge : progress.Chargeable ⟨lineId, quantity, unitCost⟩
            · obtain ⟨progress', hreceive, hsame, hreceived, hvalue, hcurrency⟩ :=
                LineProgress.receive_charged hcount hcharge
              rw [hreceive] at happly
              exact .taken ⟨lineId, quantity, unitCost⟩ progress progress' rfl hpositive hline hsame
                hreceived hvalue hcurrency happly
            · exact .halfTaken ⟨hopen, ⟨lineId, quantity, unitCost⟩, rfl, hpositive, progress,
                hline, hcount, hcharge⟩
          · -- the line is written back as it was
            rw [LineProgress.receive_uncountable hcount] at happly
            refine .refused (.money .overflow) (happly.trans ?_)
            simp only [Outcome.refused, UuidMap.insert_self hline]
      · refine .refused (.nonPositiveReceipt quantity) ?_
        simp only [apply, hopen, Option.isSome_none, Bool.false_eq_true, if_false]
        rw [if_pos (by omega)]
  · refine .refused (.closed order.orderId) ?_
    unfold apply
    rw [if_pos (by rwa [Option.isSome_iff_ne_none])]

theorem halfTakes_changes (h : order.HalfTakes event) :
    ∃ error, (order.apply event).answer = .error error ∧ (order.apply event).state ≠ order := by
  obtain ⟨hopen, receipt, hreceipt, hpositive, progress, hline, hcount, hcharge⟩ := h
  obtain ⟨received, error, hreceived, hreceive⟩ := LineProgress.receive_uncharged hcount hcharge
  rw [apply_receipt hopen hreceipt hpositive hline, hreceive]
  refine ⟨error, rfl, ?_⟩
  intro hsame
  have hget := congrArg (fun o : PurchaseOrder => o.lines[receipt.lineId]?) hsame
  simp only [Outcome.refused_state, UuidMap.get_insert, if_true, Option.mem_def.mp hline,
    Option.some.injEq] at hget
  have hkept := congrArg (fun p : LineProgress => p.received.milli.val) hget
  simp only at hkept
  omega

/-- **A refused purchase event, exactly**: it leaves the order as it was unless it is a receipt
    that is good in its quantity and not in what it charges. -/
theorem unchanged_iff (order : PurchaseOrder) (event : PurchaseEvent) :
    order.Unchanged event ↔ ¬ order.HalfTakes event := by
  constructor
  · intro hkept hhalf
    obtain ⟨error, herror, hchanged⟩ := halfTakes_changes hhalf
    exact hchanged (hkept error herror)
  · intro hnot error herror
    cases step_cases order event with
    | refused error h => rw [h]; rfl
    | taken _ _ _ _ _ _ _ _ _ _ h =>
      rw [h] at herror
      cases herror
    | closed _ _ h =>
      rw [h] at herror
      cases herror
    | halfTaken half => exact absurd half hnot

end PurchaseOrder

/-! ## Section 4: A run of events -/

namespace PurchaseOrder

/-- The order a run of events leaves, those that are refused passed over. -/
def afterAll (order : PurchaseOrder) (events : List PurchaseEvent) : PurchaseOrder :=
  events.foldl (fun order event => (order.apply event).state) order

/-- Every event of a run with the order it is given to. -/
def steps : PurchaseOrder → List PurchaseEvent → List (PurchaseOrder × PurchaseEvent)
  | _, [] => []
  | order, event :: rest => (order, event) :: (order.apply event).state.steps rest

/-- The receipt of an event that is not refused. -/
def accepted (step : PurchaseOrder × PurchaseEvent) : Option Receipt :=
  if (step.1.apply step.2).answer.isOkay then step.2.receipt? else none

/-- The receipts on one line, of those given. -/
def receiptsOn (lineId : Uuid) (receipts : List Receipt) : List Receipt :=
  receipts.filter (·.lineId = lineId)

/-- On every line, the quantity and the value are those of the receipts on it. -/
def Covers (order : PurchaseOrder) (receipts : List Receipt) : Prop :=
  ∀ (lineId : Uuid) (progress : LineProgress), order.lines[lineId]? = some progress →
    progress.Holds ((receiptsOn lineId receipts).map (·.quantity.milli.val)).sum
      ((receiptsOn lineId receipts).map Receipt.charge).sum

/-- A run of events in which none that is refused changes the order, and that leaves on every line
    the quantity and the value of the receipts it accepted. -/
structure Covered (order : PurchaseOrder) (events : List PurchaseEvent) : Prop where
  kept : ∀ step ∈ order.steps events, step.1.Unchanged step.2
  covers : (order.afterAll events).Covers ((order.steps events).filterMap accepted)

variable {order : PurchaseOrder} {event : PurchaseEvent} {receipts : List Receipt}

/-- A new order covers no receipts. -/
theorem placed_covers (h : placed event = .ok order) : order.Covers [] := by
  cases event with
  | placed orderId supplier reference lines expectedAt at' placedBy =>
    simp only [placed] at h
    split at h
    · cases h
    · cases h
      intro lineId progress hprogress
      rw [← List.foldl_map (f := fun line : OrderLine => (line.lineId,
        (⟨line, Quantity.zero, Money.zero line.unitCost.currency⟩ : LineProgress)))
        (g := fun (m : UuidMap LineProgress) e => m.insert e.1 e.2)] at hprogress
      have hentry := ((UuidMap.foldl_insert_get _ ∅ lineId).1 progress hprogress).resolve_right
        (by simp)
      obtain ⟨line, -, hline⟩ := List.mem_map.mp hentry
      cases hline
      exact ⟨rfl, rfl, rfl⟩
  | lineReceived => cases h
  | closed => cases h

/-- An event that leaves the order as it was when refused keeps it covering what it accepted. -/
theorem Covers.step (h : order.Covers receipts) (hnot : ¬ order.HalfTakes event) :
    (order.apply event).state.Covers (receipts ++ (accepted (order, event)).toList) := by
  unfold accepted
  cases step_cases order event with
  | refused error happly =>
    rw [happly]
    show order.Covers (receipts ++ [])
    rwa [List.append_nil]
  | closed reason hreceipt happly =>
    rw [happly, hreceipt]
    show order.Covers (receipts ++ [])
    rwa [List.append_nil]
  | halfTaken half => exact absurd half hnot
  | taken receipt progress progress' hreceipt hpositive hline hsame hreceived hvalue hcurrency
      happly =>
    rw [happly, hreceipt]
    show Covers _ (receipts ++ [receipt])
    intro lineId found hfound
    simp only [Outcome.done_state, UuidMap.get_insert] at hfound
    rw [receiptsOn, List.filter_append, List.map_append, List.map_append, List.sum_append,
      List.sum_append]
    by_cases hid : receipt.lineId = lineId
    · -- the line of the receipt has its quantity and its charge in addition
      rw [if_pos hid] at hfound
      cases hfound
      subst hid
      have hheld := h receipt.lineId progress hline
      rw [List.filter_singleton, decide_eq_true rfl]
      refine ⟨?_, ?_, ?_⟩
      · rw [hreceived, hheld.received]
        simp [receiptsOn]
      · rw [hvalue, hheld.value]
        simp [receiptsOn]
      · rw [hcurrency, hsame, hheld.currency]
    · rw [if_neg hid] at hfound
      have hnone : [receipt].filter (·.lineId = lineId) = [] :=
        List.filter_cons_of_neg (by simpa using hid)
      rw [hnone, List.map_nil, List.map_nil, List.sum_nil, add_zero, add_zero]
      exact h lineId found hfound

/-- A run in which no event is taken in half covers what it accepts. -/
theorem Covers.run {events : List PurchaseEvent} (h : order.Covers receipts)
    (hnot : ∀ step ∈ order.steps events, ¬ step.1.HalfTakes step.2) :
    (order.afterAll events).Covers (receipts ++ (order.steps events).filterMap accepted) := by
  induction events generalizing order receipts with
  | nil => simpa [steps, afterAll] using h
  | cons event rest ih =>
    rw [steps, List.forall_mem_cons] at hnot
    have hrest := ih (h.step hnot.1) hnot.2
    rw [steps, List.filterMap_cons, afterAll, List.foldl_cons]
    rw [List.append_assoc] at hrest
    cases haccepted : accepted (order, event) with
    | none =>
      rw [haccepted] at hrest
      exact hrest
    | some receipt =>
      rw [haccepted] at hrest
      exact hrest

/-- **What an order has taken up, exactly**: from its placement on, a run of events changes
    nothing by those that are refused, and leaves on every line the quantity and the value of the
    receipts it accepted, if and only if no receipt of the run is good in its quantity and not in
    what it charges. -/
theorem covered_iff {start : PurchaseEvent} (events : List PurchaseEvent)
    (h : placed start = .ok order) :
    order.Covered events ↔ ∀ step ∈ order.steps events, ¬ step.1.HalfTakes step.2 := by
  constructor
  · intro hcovered step hstep
    exact (unchanged_iff step.1 step.2).mp (hcovered.kept step hstep)
  · intro hnot
    refine ⟨fun step hstep => (unchanged_iff step.1 step.2).mpr (hnot step hstep), ?_⟩
    have hcovers := (placed_covers h).run hnot
    rwa [List.nil_append] at hcovers

/-! ### A delivery in two currencies -/

/-- Ten units of rice are ordered at 400. -/
def riceOrder : PurchaseEvent :=
  .placed 40 "Mill" none [⟨30, 12, ⟨I64.lit 10000⟩, ⟨I64.lit 40000, .bdt⟩⟩] none Timestamp.epoch 7

/-- Four units of it arrive, charged in a currency. -/
def fourUnits (currency : Currency) : PurchaseEvent :=
  .lineReceived 40 30 50 ⟨I64.lit 4000⟩ ⟨I64.lit 40000, currency⟩ Timestamp.epoch 7

theorem covered_fourUnits :
    ∃ order, placed riceOrder = .ok order ∧ order.Covered [fourUnits .bdt, fourUnits .bdt] := by
  obtain ⟨order, horder⟩ := Except.isOkay_iff.mp (show (placed riceOrder).isOkay = true by decide)
  have hnone : (placed riceOrder).toOption.all (fun order =>
      ∀ step ∈ order.steps [fourUnits .bdt, fourUnits .bdt], ¬ step.1.HalfTakes step.2) = true := by
    decide +kernel
  rw [horder] at hnone
  exact ⟨order, horder, (covered_iff _ horder).mpr (of_decide_eq_true hnone)⟩

/-- Four units charged in riyals are refused, and stay in the quantity of their line. -/
theorem foreignReceipt_stays : ¬ ∀ (events : List PurchaseEvent) (order : PurchaseOrder)
    (event : PurchaseEvent), replay events = .ok order → order.Unchanged event := by
  intro hclaim
  obtain ⟨order, horder⟩ := Except.isOkay_iff.mp
    (show (replay [riceOrder]).isOkay = true by decide)
  have hhalf : (replay [riceOrder]).toOption.all (·.HalfTakes (fourUnits .sar)) = true := by
    decide +kernel
  rw [horder] at hhalf
  obtain ⟨error, herror, hchanged⟩ := halfTakes_changes (of_decide_eq_true hhalf)
  exact hchanged (hclaim _ order (fourUnits .sar) horder error herror)

end PurchaseOrder

end Sahl
