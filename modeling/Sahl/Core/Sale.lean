import Mathlib.Tactic
import Sahl.Core.Tax

/-! # Sales

    A sale is what its events replay to; it is never stored. Totals are never cached: they are
    computed from the lines through the VAT engine every time. A book holds every sale a device
    knows about. -/

namespace Sahl

/-! ## Section 1: Ticket leases -/

/-- A claim on an open ticket. -/
structure TicketLease where
  ticketId : Uuid
  holder : Uuid
  claimedAt : Timestamp
  touchedAt : Timestamp
  deriving DecidableEq

namespace TicketLease

def idleTimeoutMillis : I64 := I64.lit 600000

def new (ticketId holder : Uuid) (at' : Timestamp) : TicketLease :=
  { ticketId, holder, claimedAt := at', touchedAt := at' }

/-- Whether the lease has gone idle by `now`. -/
def isExpired (lease : TicketLease) (now : Timestamp) : Bool :=
  idleTimeoutMillis ≤ (now.millis.saturatingSub lease.touchedAt.millis).saturatingAbs

end TicketLease

/-- Why a device may or may not take a ticket. -/
inductive ClaimVerdict where
  | free
  | alreadyHeld
  | stale (holder : Uuid)
  | held (holder : Uuid)
  deriving DecidableEq

/-- Whether a device may proceed to append to the ticket. -/
def ClaimVerdict.permitsClaim : ClaimVerdict → Bool
  | .free | .alreadyHeld | .stale _ => true
  | .held _ => false

/-- Decide whether `device` may take a ticket. -/
def evaluateClaim (lease : Option TicketLease) (device : Uuid) (now : Timestamp) :
    ClaimVerdict :=
  match lease with
  | none => .free
  | some lease =>
    if lease.holder = device then .alreadyHeld
    else if lease.isExpired now then .stale lease.holder
    else .held lease.holder

/-- The winner when two devices claimed the same ticket: the earliest claim, ties by holder. -/
def resolveContest (first second : TicketLease) : TicketLease :=
  if first.claimedAt.millis < second.claimedAt.millis then first
  else if second.claimedAt.millis < first.claimedAt.millis then second
  else if first.holder ≤ second.holder then first
  else second

/-! ## Section 2: Tenders and lines -/

inductive Wallet where
  | bkash
  | nagad
  | rocket
  | upay
  | stcPay
  deriving DecidableEq

inductive TenderMethod where
  | cash
  | card
  | mobileWallet (wallet : Wallet)
  | bankTransfer
  | storeCredit
  deriving DecidableEq

/-- Whether a customer may hand over more than the total and receive change. -/
def TenderMethod.acceptsOvertender : TenderMethod → Bool
  | .cash => true
  | _ => false

/-- Whether this tender puts physical money in the drawer. -/
def TenderMethod.affectsCashDrawer : TenderMethod → Bool
  | .cash => true
  | _ => false

/-- One payment against a sale. -/
structure Tender where
  id : Uuid
  method : TenderMethod
  amount : Money
  reference : Option String
  deriving DecidableEq

inductive VoidReason where
  | mistake
  | customerChanged
  | damaged
  | unavailable
  deriving DecidableEq

structure LineVoid where
  reason : VoidReason
  authorizedBy : Uuid
  deriving DecidableEq

/-- An option chosen on a line; the delta is for one unit. -/
structure Modifier where
  optionId : Uuid
  name : String
  priceDelta : Money
  deriving DecidableEq

/-- A line on a sale. A voided line is kept, flagged, and left out of the totals. -/
structure SaleLine where
  id : Uuid
  productId : Uuid
  name : String
  unitPrice : Money
  quantity : Quantity
  taxClass : TaxClass
  discount : Discount
  modifiers : List Modifier
  void : Option LineVoid
  deriving DecidableEq

namespace SaleLine

def isActive (line : SaleLine) : Bool := line.void.isNone

/-- What one unit costs, options included. -/
def effectiveUnitPrice (line : SaleLine) : Except MoneyError Money :=
  line.modifiers.foldlM (fun price modifier => price.checkedAdd modifier.priceDelta)
    line.unitPrice

def toTaxInput (line : SaleLine) : Except MoneyError LineInput := do
  let unitPrice ← line.effectiveUnitPrice
  .ok { unitPrice, quantity := line.quantity, taxClass := line.taxClass,
        discount := line.discount }

/-- What a line is worth before tax and before any discount, for deciding whether an action on it
    needs approval. -/
def lineValue (line : SaleLine) : Except MoneyError Money := do
  let unitPrice ← line.effectiveUnitPrice
  unitPrice.mulRatio line.quantity.milli Quantity.milliPerUnit .halfUp

end SaleLine

/-! ## Section 3: Events -/

/-- Everything that can happen to a sale. -/
inductive SaleEvent where
  | opened (saleId openedBy : Uuid) (currency : Currency) (pricingMode : PricingMode)
      (rounding : Rounding)
  | lineAdded (saleId lineId productId : Uuid) (name : String) (unitPrice : Money)
      (quantity : Quantity) (taxClass : TaxClass) (modifiers : List Modifier)
  | lineQuantityChanged (saleId lineId : Uuid) (quantity : Quantity)
  | lineDiscounted (saleId lineId : Uuid) (discount : Discount) (authorizedBy : Uuid)
  | lineVoided (saleId lineId : Uuid) (reason : VoidReason) (authorizedBy : Uuid)
  | orderDiscounted (saleId : Uuid) (discount : Discount) (authorizedBy : Uuid)
  | tenderRecorded (saleId tenderId : Uuid) (method : TenderMethod) (amount : Money)
      (reference : Option String)
  | completed (saleId : Uuid) (total changeGiven : Money) (at' : Timestamp)
  | ticketClaimed (saleId deviceId : Uuid) (at' : Timestamp)
  | ticketReleased (saleId deviceId : Uuid)
  | seated (saleId tableId : Uuid) (covers : U32) (at' : Timestamp) (seatedBy : Uuid)
  | linesFired (saleId : Uuid) (lineIds : List Uuid) (round : U32) (at' : Timestamp)
      (firedBy : Uuid)
  | abandoned (saleId abandonedBy : Uuid)
  deriving DecidableEq

namespace SaleEvent

/-- The sale an event belongs to. -/
def saleId : SaleEvent → Uuid
  | opened saleId .. | lineAdded saleId .. | lineQuantityChanged saleId ..
  | lineDiscounted saleId .. | lineVoided saleId .. | orderDiscounted saleId ..
  | tenderRecorded saleId .. | completed saleId .. | ticketClaimed saleId ..
  | ticketReleased saleId .. | seated saleId .. | linesFired saleId ..
  | abandoned saleId .. => saleId

def kind : SaleEvent → String
  | opened .. => "sale.opened"
  | lineAdded .. => "sale.line_added"
  | lineQuantityChanged .. => "sale.line_quantity_changed"
  | lineDiscounted .. => "sale.line_discounted"
  | lineVoided .. => "sale.line_voided"
  | orderDiscounted .. => "sale.order_discounted"
  | ticketClaimed .. => "sale.ticket_claimed"
  | ticketReleased .. => "sale.ticket_released"
  | seated .. => "sale.seated"
  | linesFired .. => "sale.lines_fired"
  | tenderRecorded .. => "sale.tender_recorded"
  | completed .. => "sale.completed"
  | abandoned .. => "sale.abandoned"

/-- The transitions that check the status themselves. -/
def isTerminal : SaleEvent → Bool
  | completed .. | abandoned .. => true
  | _ => false

end SaleEvent

/-- Why a sale rejected an event. -/
inductive SaleError where
  | money (error : MoneyError)
  | noCovers
  | negativeLinePrice (lineId : Uuid)
  | tax (error : TaxError)
  | notOpenedFirst (found : String)
  | alreadyOpened
  | wrongSale (expected found : Uuid)
  | notOpen (status : String)
  | duplicateLine (lineId : Uuid)
  | unknownLine (lineId : Uuid)
  | alreadyVoided (lineId : Uuid)
  | noActiveLines
  | outstanding (outstanding : Money)
  | nonCashOvertender (tendered total : Money)
  | changeMismatch (recorded calculated : Money)
  | totalMismatch (recorded calculated : Money)
  | nonPositiveTender (amount : Money)
  deriving DecidableEq

/-! ## Section 4: The sale -/

inductive SaleStatus where
  | «open»
  | completed
  | abandoned
  deriving DecidableEq

def SaleStatus.label : SaleStatus → String
  | .open => "open"
  | .completed => "completed"
  | .abandoned => "abandoned"

/-- Where a ticket is sitting. -/
structure Seating where
  tableId : Uuid
  covers : U32
  seatedAt : Timestamp
  deriving DecidableEq

/-- A sale, reconstructed from its events. -/
structure Sale where
  id : Uuid
  status : SaleStatus
  openedBy : Uuid
  currency : Currency
  pricingMode : PricingMode
  rounding : Rounding
  lines : List SaleLine
  orderDiscount : Discount
  tenders : List Tender
  settledTotal : Option Money
  changeGiven : Option Money
  settledAt : Option Timestamp
  lease : Option TicketLease
  seating : Option Seating
  fired : List Uuid
  roundsFired : U32
  deriving DecidableEq

namespace Sale

/-! ### Totals -/

/-- The sale through the VAT engine, voided lines left out. -/
def totals (sale : Sale) : Except SaleError OrderTotals := do
  let lines ← ((sale.lines.filter (·.isActive)).mapM SaleLine.toTaxInput).mapError
    SaleError.money
  if lines.isEmpty then .error .noActiveLines
  else (calculate { currency := sale.currency, pricingMode := sale.pricingMode,
                    rounding := sale.rounding, lines,
                    orderDiscount := sale.orderDiscount }).mapError SaleError.tax

/-- Everything handed over so far. -/
def tendered (sale : Sale) : Except SaleError Money :=
  (Money.trySum (sale.tenders.map (·.amount)) sale.currency).mapError SaleError.money

/-- What is still owed. -/
def balanceDue (sale : Sale) : Except SaleError Money := do
  let totals ← sale.totals
  let tendered ← sale.tendered
  (totals.total.checkedSub tendered).mapError SaleError.money

/-- Cash to hand back. -/
def changeDue (sale : Sale) : Except SaleError Money := do
  let balance ← sale.balanceDue
  if balance.isNegative then balance.checkedNeg.mapError SaleError.money
  else .ok (Money.zero sale.currency)

/-- Amounts of the tenders that go into the drawer. -/
def cashAmounts (sale : Sale) : List Money :=
  (sale.tenders.filter (·.method.affectsCashDrawer)).map (·.amount)

/-- Amounts of the tenders that may not exceed the total. -/
def nonCashAmounts (sale : Sale) : List Money :=
  (sale.tenders.filter (! ·.method.acceptsOvertender)).map (·.amount)

/-- Cash that should be in the drawer from this sale. -/
def netCash (sale : Sale) : Except SaleError Money := do
  let cash ← (Money.trySum sale.cashAmounts sale.currency).mapError SaleError.money
  (cash.checkedSub (sale.changeGiven.getD (Money.zero sale.currency))).mapError SaleError.money

/-- Whether `device` may write to the sale. -/
def mayWrite (sale : Sale) (device : Uuid) (now : Timestamp) : ClaimVerdict :=
  evaluateClaim sale.lease device now

def assertNonCashWithinTotal (sale : Sale) : Except SaleError Unit := do
  let nonCash ← (Money.trySum sale.nonCashAmounts sale.currency).mapError SaleError.money
  match sale.totals with
  -- a sale without a total has nothing to compare against
  | .error _ => .ok ()
  | .ok totals =>
    if totals.total.minor < nonCash.minor then
      .error (.nonCashOvertender nonCash totals.total)
    else .ok ()

/-! ### Transitions -/

/-- Change the first line called `lineId`. -/
def updateLine (lineId : Uuid) (f : SaleLine → Except SaleError SaleLine) :
    List SaleLine → Except SaleError (List SaleLine)
  | [] => .error (.unknownLine lineId)
  | line :: rest =>
    if line.id = lineId then do
      let line ← f line
      .ok (line :: rest)
    else do
      let rest ← updateLine lineId f rest
      .ok (line :: rest)

/-- The lease after a claim. -/
def claimedLease (lease : Option TicketLease) (claim : TicketLease) : TicketLease :=
  match lease with
  | some held => if held.holder ≠ claim.holder then resolveContest held claim else claim
  | none => claim

/-- The close of a sale: everything recorded is recomputed and compared. -/
def complete (sale : Sale) (total changeGiven : Money) (at' : Timestamp) :
    Except SaleError Sale := do
  if sale.status ≠ .open then .error (.notOpen sale.status.label)
  else
    let calculated := (← sale.totals).total
    if calculated ≠ total then .error (.totalMismatch total calculated)
    else
      let outstanding ← sale.balanceDue
      if outstanding.isPositive then .error (.outstanding outstanding)
      else
        let calculatedChange ← sale.changeDue
        if calculatedChange ≠ changeGiven then
          .error (.changeMismatch changeGiven calculatedChange)
        else
          .ok { sale with settledTotal := some total, changeGiven := some changeGiven,
                          settledAt := some at', status := .completed }

def opened : SaleEvent → Except SaleError Sale
  | .opened saleId openedBy currency pricingMode rounding =>
    .ok { id := saleId, status := .open, openedBy, currency, pricingMode, rounding, lines := [],
          orderDiscount := .none, tenders := [], settledTotal := none, changeGiven := none,
          settledAt := none, lease := none, seating := none, fired := [], roundsFired := 0 }
  | event => .error (.notOpenedFirst event.kind)

/-- The body of `apply`, for the events that change nothing when they are refused. -/
def transition (sale : Sale) : SaleEvent → Except SaleError Sale
  | .opened .. => .error .alreadyOpened
  | .lineAdded _ lineId productId name unitPrice quantity taxClass modifiers =>
    if sale.lines.any (·.id = lineId) then .error (.duplicateLine lineId)
    else do
      let line : SaleLine :=
        { id := lineId, productId, name, unitPrice, quantity, taxClass, discount := .none,
          modifiers, void := none }
      let price ← line.effectiveUnitPrice.mapError SaleError.money
      if price.isNegative then .error (.negativeLinePrice lineId)
      else .ok { sale with lines := sale.lines ++ [line] }
  | .lineQuantityChanged _ lineId quantity => do
    let lines ← updateLine lineId (fun line => .ok { line with quantity }) sale.lines
    .ok { sale with lines }
  | .lineDiscounted _ lineId discount _ => do
    let lines ← updateLine lineId (fun line => .ok { line with discount }) sale.lines
    .ok { sale with lines }
  | .lineVoided _ lineId reason authorizedBy => do
    let lines ← updateLine lineId (fun line =>
      if line.void.isSome then .error (.alreadyVoided lineId)
      else .ok { line with void := some { reason, authorizedBy } }) sale.lines
    .ok { sale with lines }
  | .orderDiscounted _ discount _ => .ok { sale with orderDiscount := discount }
  | .tenderRecorded _ tenderId method amount reference => do
    if ¬ amount.isPositive then .error (.nonPositiveTender amount)
    else
      let tender : Tender := { id := tenderId, method, amount, reference }
      .ok { sale with tenders := sale.tenders ++ [tender] }
  | .completed _ total changeGiven at' => sale.complete total changeGiven at'
  | .ticketClaimed saleId deviceId at' =>
    .ok { sale with lease := some (claimedLease sale.lease (.new saleId deviceId at')) }
  | .ticketReleased _ deviceId =>
    -- only the holder can release
    if sale.lease.any (·.holder = deviceId) then .ok { sale with lease := none } else .ok sale
  | .seated _ tableId covers at' _ =>
    if covers = 0 then .error .noCovers
    else .ok { sale with seating := some { tableId, covers, seatedAt := at' } }
  | .linesFired _ lineIds round _ _ =>
    .ok { sale with
      fired := lineIds.foldl
        (fun fired lineId => if lineId ∈ fired then fired else fired ++ [lineId]) sale.fired
      roundsFired := max sale.roundsFired round }
  | .abandoned .. =>
    if sale.status ≠ .open then .error (.notOpen sale.status.label)
    else .ok { sale with status := .abandoned }

/-- Apply one event. A tender is pushed before it is checked, so one that the check refuses
    stays on the sale. -/
def apply (sale : Sale) (event : SaleEvent) : Outcome SaleError Sale :=
  if event.saleId ≠ sale.id then .refused sale (.wrongSale sale.id event.saleId)
  else if ¬ event.isTerminal ∧ sale.status ≠ .open then
    .refused sale (.notOpen sale.status.label)
  else
    match event, sale.transition event with
    | .tenderRecorded .., .ok pushed => ⟨pushed, pushed.assertNonCashWithinTotal⟩
    | _, result => .ofExcept sale result

/-- What an accepted event makes of a sale. -/
inductive Moved (sale : Sale) : SaleEvent → Sale → Prop where
  | lineAdded {saleId : Uuid} {line : SaleLine} {price : Money}
      (hnew : ∀ other ∈ sale.lines, other.id ≠ line.id) (hdiscount : line.discount = .none)
      (hvoid : line.void = none) (hprice : line.effectiveUnitPrice = .ok price)
      (hpositive : price.isNegative = false) :
      Moved sale (.lineAdded saleId line.id line.productId line.name line.unitPrice line.quantity
        line.taxClass line.modifiers) { sale with lines := sale.lines ++ [line] }
  | lineQuantityChanged {saleId lineId : Uuid} {quantity : Quantity} {lines : List SaleLine}
      (hlines : updateLine lineId (fun line => .ok { line with quantity }) sale.lines = .ok lines) :
      Moved sale (.lineQuantityChanged saleId lineId quantity) { sale with lines }
  | lineDiscounted {saleId lineId authorizedBy : Uuid} {discount : Discount}
      {lines : List SaleLine}
      (hlines : updateLine lineId (fun line => .ok { line with discount }) sale.lines = .ok lines) :
      Moved sale (.lineDiscounted saleId lineId discount authorizedBy) { sale with lines }
  | lineVoided {saleId lineId authorizedBy : Uuid} {reason : VoidReason} {lines : List SaleLine}
      (hlines : updateLine lineId (fun line =>
        if line.void.isSome then .error (.alreadyVoided lineId)
        else .ok { line with void := some { reason, authorizedBy } }) sale.lines = .ok lines) :
      Moved sale (.lineVoided saleId lineId reason authorizedBy) { sale with lines }
  | orderDiscounted {saleId authorizedBy : Uuid} {discount : Discount} :
      Moved sale (.orderDiscounted saleId discount authorizedBy)
        { sale with orderDiscount := discount }
  | tenderRecorded {saleId tenderId : Uuid} {method : TenderMethod} {amount : Money}
      {reference : Option String} (hpositive : amount.isPositive = true) :
      Moved sale (.tenderRecorded saleId tenderId method amount reference)
        { sale with tenders := sale.tenders ++ [⟨tenderId, method, amount, reference⟩] }
  | completed {saleId : Uuid} {total changeGiven : Money} {at' : Timestamp} {sale' : Sale}
      (hcomplete : sale.complete total changeGiven at' = .ok sale') :
      Moved sale (.completed saleId total changeGiven at') sale'
  | ticketClaimed {saleId deviceId : Uuid} {at' : Timestamp} :
      Moved sale (.ticketClaimed saleId deviceId at')
        { sale with lease := some (claimedLease sale.lease (.new saleId deviceId at')) }
  | ticketReleased {saleId deviceId : Uuid} (hholder : sale.lease.any (·.holder = deviceId)) :
      Moved sale (.ticketReleased saleId deviceId) { sale with lease := none }
  | releaseIgnored {saleId deviceId : Uuid} (hholder : ¬ sale.lease.any (·.holder = deviceId)) :
      Moved sale (.ticketReleased saleId deviceId) sale
  | seated {saleId tableId seatedBy : Uuid} {covers : U32} {at' : Timestamp} (hcovers : covers ≠ 0) :
      Moved sale (.seated saleId tableId covers at' seatedBy)
        { sale with seating := some { tableId, covers, seatedAt := at' } }
  | linesFired {saleId firedBy : Uuid} {lineIds : List Uuid} {round : U32} {at' : Timestamp} :
      Moved sale (.linesFired saleId lineIds round at' firedBy)
        { sale with
          fired := lineIds.foldl
            (fun fired lineId => if lineId ∈ fired then fired else fired ++ [lineId]) sale.fired
          roundsFired := max sale.roundsFired round }
  | abandoned {saleId abandonedBy : Uuid} (hopen : sale.status = .open) :
      Moved sale (.abandoned saleId abandonedBy) { sale with status := .abandoned }

/-- Every accepted event is one of these moves. -/
theorem transition_moved {sale sale' : Sale} {event : SaleEvent}
    (h : sale.transition event = .ok sale') : sale.Moved event sale' := by
  cases event with
  | «opened» => cases h
  | lineAdded saleId lineId productId name unitPrice quantity taxClass modifiers =>
    simp only [transition] at h
    split at h
    · cases h
    rename_i hnew
    simp only [Except.bind_eq_ok, Except.mapError_eq_ok] at h
    obtain ⟨price, hprice, h⟩ := h
    split at h
    · cases h
    rename_i hnegative
    cases h
    -- the guard looks the line id up among all the lines, voided ones too
    refine .lineAdded (fun other hother hid => hnew ?_) rfl rfl hprice (by simpa using hnegative)
    exact List.any_eq_true.mpr ⟨other, hother, by simpa using hid⟩
  | lineQuantityChanged =>
    obtain ⟨lines, hlines, h⟩ := Except.bind_eq_ok.mp h
    cases h
    exact .lineQuantityChanged hlines
  | lineDiscounted =>
    obtain ⟨lines, hlines, h⟩ := Except.bind_eq_ok.mp h
    cases h
    exact .lineDiscounted hlines
  | lineVoided =>
    obtain ⟨lines, hlines, h⟩ := Except.bind_eq_ok.mp h
    cases h
    exact .lineVoided hlines
  | orderDiscounted =>
    cases h
    exact .orderDiscounted
  | tenderRecorded =>
    simp only [transition] at h
    split at h
    · cases h
    rename_i hpositive
    cases h
    exact .tenderRecorded (not_not.mp hpositive)
  | completed => exact .completed h
  | ticketClaimed =>
    cases h
    exact .ticketClaimed
  | ticketReleased =>
    simp only [transition] at h
    split at h
    · rename_i hholder
      cases h
      exact .ticketReleased hholder
    · -- a release by another device is no error and changes nothing
      rename_i hholder
      cases h
      exact .releaseIgnored hholder
  | seated =>
    simp only [transition] at h
    split at h
    · cases h
    rename_i hcovers
    cases h
    exact .seated hcovers
  | linesFired =>
    cases h
    exact .linesFired
  | abandoned =>
    simp only [transition] at h
    split at h
    · cases h
    rename_i hopen
    cases h
    exact .abandoned (not_not.mp hopen)

/-- What an event leaves: the sale as it was, or what its transition made of it. -/
theorem apply_state (sale : Sale) (event : SaleEvent) :
    (sale.apply event).state = sale ∨
      event.saleId = sale.id ∧ (event.isTerminal ∨ sale.status = .open) ∧
        sale.transition event = .ok (sale.apply event).state := by
  unfold apply
  split
  · exact .inl rfl
  · rename_i hid
    split
    · exact .inl rfl
    · rename_i hopen
      have hallowed : event.isTerminal ∨ sale.status = .open := by
        by_contra hcon
        exact hopen ⟨fun h => hcon (.inl h), fun h => hcon (.inr h)⟩
      split
      · rename_i htransition
        exact .inr ⟨not_not.mp hid, hallowed, htransition⟩
      · cases htransition : sale.transition _ with
        | error error => exact .inl rfl
        | ok sale' => exact .inr ⟨not_not.mp hid, hallowed, rfl⟩

/-- The sales a till can hold: opened, then given events, of which some may be refused. -/
inductive Reached : Sale → Prop where
  | opened {event : SaleEvent} {sale : Sale} : Sale.opened event = .ok sale → Reached sale
  | apply {sale : Sale} (event : SaleEvent) : Reached sale → Reached (sale.apply event).state

/-- What an opened sale has and every transition keeps, every reached sale has. -/
theorem Reached.invariant {P : Sale → Prop}
    (hopened : ∀ event sale, Sale.opened event = .ok sale → P sale)
    (htransition : ∀ sale event sale', P sale → sale.transition event = .ok sale' → P sale')
    {sale : Sale} (h : sale.Reached) : P sale := by
  induction h with
  | opened h => exact hopened _ _ h
  | @apply sale event _ ih =>
    rcases sale.apply_state event with hsame | ⟨-, -, hmoved⟩
    · rw [hsame]
      exact ih
    · exact htransition _ _ _ ih hmoved

/-- Rebuild a sale from its full event history. -/
def replay : List SaleEvent → Except SaleError Sale
  | [] => .error (.notOpenedFirst "nothing")
  | first :: rest => do
    let sale ← opened first
    rest.foldlM (fun sale event => (sale.apply event).toExcept) sale

theorem replay_reached {events : List SaleEvent} {sale : Sale} (h : replay events = .ok sale) :
    sale.Reached := by
  match events with
  | [] => cases h
  | first :: rest =>
    obtain ⟨fresh, hfresh, h⟩ := Except.bind_eq_ok.mp h
    refine foldlM_invariant (fun _ (s : Sale) => s.Reached) (fun _ s event s' hs hstep => ?_)
      (.opened hfresh) h
    rw [← (Outcome.toExcept_eq_ok.mp hstep).2]
    exact .apply event hs

end Sale

/-! ## Section 5: The book -/

/-- Every sale a device knows about. -/
structure SaleBook where
  sales : UuidMap Sale
  deriving DecidableEq

namespace SaleBook

def new : SaleBook := ⟨∅⟩

/-- Apply one event, opening a new sale if this is its first. -/
def apply (book : SaleBook) (event : SaleEvent) : Outcome SaleError SaleBook :=
  match book.sales[event.saleId]? with
  | some sale =>
    let outcome := sale.apply event
    ⟨⟨book.sales.insert event.saleId outcome.state⟩, outcome.answer⟩
  | none =>
    match Sale.replay [event] with
    | .ok sale => .done ⟨book.sales.insert event.saleId sale⟩
    | .error e => .refused book e

/-- Every sale of the book is a reached one. -/
def Reached (book : SaleBook) : Prop := ∀ (id : Uuid) (sale : Sale),
  book.sales[id]? = some sale → sale.Reached

theorem reached_new : new.Reached := by
  intro id sale h
  simp [new] at h

/-- An event leaves a book of reached sales, whether it is taken or refused. -/
theorem reached_apply {book : SaleBook} (h : book.Reached) (event : SaleEvent) :
    (book.apply event).state.Reached := by
  unfold apply
  cases hsale : book.sales[event.saleId]? with
  | some sale =>
    intro id sale' hsale'
    simp only [UuidMap.get_insert] at hsale'
    split at hsale'
    · cases hsale'
      exact .apply event (h _ _ hsale)
    · exact h id sale' hsale'
  | none =>
    cases hopened : Sale.replay [event] with
    | error error => exact h
    | ok sale =>
      intro id sale' hsale'
      simp only [Outcome.done_state, UuidMap.get_insert] at hsale'
      split at hsale'
      · cases hsale'
        obtain ⟨_, hfresh, hrest⟩ := Except.bind_eq_ok.mp hopened
        cases hrest
        exact .opened hfresh
      · exact h id sale' hsale'

/-- The sale an event leaves: of the sale it is about, or of the one it opens. -/
def saleAfter (event : SaleEvent) : Option Sale → Except SaleError Sale
  | some sale => (sale.apply event).toExcept
  | none => Sale.replay [event]

theorem apply_eq_ok {book book' : SaleBook} {event : SaleEvent} :
    (book.apply event).toExcept = .ok book' ↔
      book.sales.alterM event.saleId (saleAfter event) = .ok book'.sales := by
  rw [UuidMap.alterM_eq_ok]
  unfold apply
  cases hsale : book.sales[event.saleId]? with
  | some sale =>
    simp only [saleAfter, Outcome.toExcept_eq_ok]
    constructor
    · rintro ⟨hanswer, rfl⟩
      exact ⟨_, ⟨hanswer, rfl⟩, rfl⟩
    · rintro ⟨_, ⟨hanswer, rfl⟩, hbook⟩
      exact ⟨hanswer, congrArg SaleBook.mk hbook⟩
  | none =>
    simp only [saleAfter]
    cases Sale.replay [event] with
    | error e => simp
    | ok sale =>
      simp only [Outcome.toExcept_done, Except.ok.injEq, exists_eq_left']
      constructor
      · rintro rfl
        rfl
      · exact congrArg SaleBook.mk

/-- Events of two sales can be applied in either order. -/
theorem apply_swap {book book' book'' : SaleBook} {a b : SaleEvent} (h : a.saleId ≠ b.saleId)
    (ha : (book.apply a).toExcept = .ok book') (hb : (book'.apply b).toExcept = .ok book'') :
    ∃ mid, (book.apply b).toExcept = .ok mid ∧ (mid.apply a).toExcept = .ok book'' := by
  obtain ⟨sales, hmid, hlast⟩ :=
    UuidMap.alterM_swap h (apply_eq_ok.mp ha) (apply_eq_ok.mp hb)
  exact ⟨⟨sales⟩, apply_eq_ok.mpr hmid, apply_eq_ok.mpr hlast⟩

end SaleBook

end Sahl
