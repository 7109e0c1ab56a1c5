import Mathlib.Tactic
import Sahl.Lib.Transition
import Sahl.Sync.Engine
import Sahl.Terminal.Payload

/-! # The till

    The till's in-process state: the log, the chain, and the projections over it. An action is
    validated against a copy of the projections, sealed into the chain, written to the store, and
    only then adopted. Sealing advances the chain in memory before the store is asked. -/

namespace Sahl

/-! ## Section 1: State -/

/-- Who a device is. -/
structure DeviceIdentity where
  tenantId : Uuid
  outletId : Uuid
  deviceId : Uuid
  deriving DecidableEq

inductive TerminalError where
  | sale (error : SaleError)
  | shift (error : ShiftError)
  | inventory (error : InventoryError)
  | directory (error : DirectoryError)
  | purchase (error : PurchaseError)
  | fiscal (error : FiscalError)
  | outlet (error : OutletError)
  | catalogue (error : CatalogueError)
  | floor (error : FloorError)
  | unknownOrder (orderId : Uuid)
  /-- Setup has not been done, so the till does not know what it trades in. -/
  | notConfigured
  | noOpenShift
  | shiftAlreadyOpen
  | store (error : StoreError)
  | event (error : EventError)
  | unknownSale (saleId : Uuid)
  | ticketHeld (saleId holder : Uuid)
  | corruptLog (reason : EventError)
  deriving DecidableEq

/-- What the till believes its events come to. -/
structure Projections where
  book : SaleBook
  /-- One drawer, so at most one. -/
  shift : Option Shift
  stock : InventoryBook
  staff : Directory
  catalogue : Catalogue
  floor : Floor
  orders : UuidMap PurchaseOrder
  deriving DecidableEq

structure Terminal extends Projections where
  store : EventStore Payload
  chain : EventChain
  fiscal : FiscalChain
  outlet : Option OutletConfig
  identity : DeviceIdentity

/-- The digests in use: of an event, and of an invoice. -/
structure Digests where
  event : HashFunction Payload
  invoice : InvoiceDigest InvoiceContent

/-! ## Section 2: Validation -/

namespace Projections

def empty : Projections :=
  { book := .new, shift := none, stock := .new, staff := .new, catalogue := .new, floor := .new,
    orders := ∅ }

/-- The shift an event leaves: of the running shift, or of the one it opens. -/
def shiftAfter (shift : Option Shift) (event : ShiftEvent) : Except TerminalError Shift :=
  match shift.filter (·.status = .open), event with
  | some _, .opened .. => .error .shiftAlreadyOpen
  | some shift, _ => (shift.apply event).mapError .shift
  -- a closed shift is history: the next one starts afresh
  | none, .opened .. => (Shift.replay [event]).mapError .shift
  | none, _ => .error .noOpenShift

/-- The order an event leaves: of the order it is about, or of the one it places. -/
def orderAfter (event : PurchaseEvent) (order : Option PurchaseOrder) :
    Except TerminalError PurchaseOrder :=
  match order with
  | some order => (order.apply event).toExcept.mapError .purchase
  | none => (PurchaseOrder.replay [event]).mapError .purchase

/-- The projections with one event applied: the candidate an action is validated against. -/
def apply (p : Projections) : DomainEvent → Except TerminalError Projections
  | .sale event => do
    let book ← (p.book.apply event).toExcept.mapError .sale
    .ok { p with book }
  | .shift event => do
    let shift ← shiftAfter p.shift event
    .ok { p with shift := some shift }
  | .inventory event => do
    let stock ← (p.stock.apply event).mapError .inventory
    .ok { p with stock }
  | .staff event => do
    let staff ← (p.staff.apply event).mapError .directory
    .ok { p with staff }
  | .catalogue event => do
    let catalogue ← (p.catalogue.apply event).mapError .catalogue
    .ok { p with catalogue }
  | .floor event => do
    let floor ← (p.floor.apply event).mapError .floor
    .ok { p with floor }
  | .purchase event => do
    let orders ← p.orders.alterM event.orderId (orderAfter event)
    .ok { p with orders }
  | .outlet _ | .fiscal _ => .ok p

end Projections

/-- A validated action: the events it writes, and the till it leaves once they are stored. -/
structure Prepared where
  events : List (Uuid × DomainEvent)
  adopted : Terminal

namespace Terminal

/-- What this outlet trades in. -/
def currency (t : Terminal) : Except TerminalError Currency :=
  Except.okOr (t.outlet.map (·.currency)) .notConfigured

/-- Refuse a write to a ticket that another device holds. -/
def assertMayWrite (t : Terminal) (event : SaleEvent) (now : Timestamp) :
    Except TerminalError Unit :=
  match event with
  | .opened .. | .ticketClaimed .. => .ok ()
  | _ =>
    match t.book.sales[event.saleId]? with
    | none => .ok ()
    | some sale =>
      match sale.mayWrite t.identity.deviceId now with
      | .held holder => .error (.ticketHeld event.saleId holder)
      | _ => .ok ()

/-- An action of one event, validated against the projections. -/
def prepareOne (t : Terminal) (event : DomainEvent) (eventId : Uuid) :
    Except TerminalError Prepared := do
  let candidate ← t.toProjections.apply event
  .ok ⟨[(eventId, event)], { t with toProjections := candidate }⟩

def prepareRecord (t : Terminal) (event : SaleEvent) (eventId : Uuid) (occurredAt : Timestamp) :
    Except TerminalError Prepared := do
  t.assertMayWrite event occurredAt
  t.prepareOne (.sale event) eventId

def prepareOutlet (t : Terminal) (event : OutletEvent) (eventId : Uuid) :
    Except TerminalError Prepared := do
  let config ← event.toConfig.mapError TerminalError.outlet
  .ok ⟨[(eventId, .outlet event)], { t with outlet := some config }⟩

/-- A completed sale and its invoice, the invoice sealed on a copy of the fiscal chain. -/
def prepareCompleteSale (digests : Digests) (t : Terminal) (event : SaleEvent) (regime : String)
    (issuedBy saleEventId fiscalEventId : Uuid) (occurredAt : Timestamp) :
    Except TerminalError Prepared := do
  t.assertMayWrite event occurredAt
  let candidate ← t.toProjections.apply (.sale event)
  -- the totals of the sale as it completed
  let sale ← Except.okOr candidate.book.sales[event.saleId]? (.unknownSale event.saleId)
  let totals ← sale.totals.mapError TerminalError.sale
  let content : InvoiceContent := { totals, regime }
  let (result, fiscal) := t.fiscal.sealInvoice digests.invoice event.saleId occurredAt content
  let invoice ← result.mapError TerminalError.fiscal
  .ok ⟨[(saleEventId, .sale event),
        (fiscalEventId, .fiscal (.invoiceIssued invoice content occurredAt issuedBy))],
       { t with toProjections := candidate, fiscal }⟩

/-- A delivery against an order the till knows: the order's event and the stock's. -/
def prepareReceipt (t : Terminal) (purchase : PurchaseEvent) (stock : InventoryEvent)
    (purchaseEventId stockEventId : Uuid) : Except TerminalError Prepared := do
  let _ ← Except.okOr t.orders[purchase.orderId]? (.unknownOrder purchase.orderId)
  let ordered ← t.toProjections.apply (.purchase purchase)
  let candidate ← ordered.apply (.inventory stock)
  .ok ⟨[(purchaseEventId, .purchase purchase), (stockEventId, .inventory stock)],
       { t with toProjections := candidate }⟩

/-! ## Section 3: Sealing, storing, adopting -/

def header (identity : DeviceIdentity) (eventId : Uuid) (occurredAt : Timestamp) : EventHeader :=
  { eventId, tenantId := identity.tenantId, outletId := identity.outletId,
    deviceId := identity.deviceId, occurredAt }

/-- Seal events one after the other; what was sealed before a failure has advanced the chain. -/
def sealAll (digest : HashFunction Payload) (identity : DeviceIdentity) (occurredAt : Timestamp) :
    List (Uuid × DomainEvent) → EventChain →
      EventChain × Except EventError (List (EventEnvelope Payload))
  | [], chain => (chain, .ok [])
  | (eventId, event) :: rest, chain =>
    match chain.append digest (header identity eventId occurredAt) event.payload with
    | .error error => (chain, .error error)
    | .ok (envelope, chain) =>
      let (chain, sealed) := sealAll digest identity occurredAt rest chain
      (chain, sealed.map (envelope :: ·))

/-- Write sealed events; `writable` says whether the database takes the write at all. -/
def write (writable : Bool) (store : EventStore Payload) (events : List (EventEnvelope Payload)) :
    Except StoreError (EventStore Payload) :=
  if writable then store.appendAll events else .error .database

/-- What every action does once it is validated: seal, store, adopt. It answers with the sealed
    events. -/
def commit (digests : Digests) (writable : Bool) (occurredAt : Timestamp) (t : Terminal)
    (prepared : Except TerminalError Prepared) :
    Terminal × Except TerminalError (List (EventEnvelope Payload)) :=
  match prepared with
  | .error error => (t, .error error)
  | .ok prepared =>
    match sealAll digests.event t.identity occurredAt prepared.events t.chain with
    | (chain, .error error) => ({ t with chain }, .error (.event error))
    | (chain, .ok sealed) =>
      match write writable t.store sealed with
      | .error error => ({ t with chain }, .error (.store error))
      | .ok store => ({ prepared.adopted with store, chain }, .ok sealed)

section Record

variable (digests : Digests) (writable : Bool) (occurredAt : Timestamp) (t : Terminal)

def record (event : SaleEvent) (eventId : Uuid) :=
  t.commit digests writable occurredAt (t.prepareRecord event eventId occurredAt)

def recordShift (event : ShiftEvent) (eventId : Uuid) :=
  t.commit digests writable occurredAt (t.prepareOne (.shift event) eventId)

def recordStock (event : InventoryEvent) (eventId : Uuid) :=
  t.commit digests writable occurredAt (t.prepareOne (.inventory event) eventId)

def recordPurchase (event : PurchaseEvent) (eventId : Uuid) :=
  t.commit digests writable occurredAt (t.prepareOne (.purchase event) eventId)

def recordStaff (event : StaffEvent) (eventId : Uuid) :=
  t.commit digests writable occurredAt (t.prepareOne (.staff event) eventId)

def recordCatalogue (event : CatalogueEvent) (eventId : Uuid) :=
  t.commit digests writable occurredAt (t.prepareOne (.catalogue event) eventId)

def recordFloor (event : FloorEvent) (eventId : Uuid) :=
  t.commit digests writable occurredAt (t.prepareOne (.floor event) eventId)

def recordOutlet (event : OutletEvent) (eventId : Uuid) :=
  t.commit digests writable occurredAt (t.prepareOutlet event eventId)

/-- Complete a sale and issue its invoice, in one write of two events. -/
def completeSale (event : SaleEvent) (regime : String)
    (issuedBy saleEventId fiscalEventId : Uuid) :=
  t.commit digests writable occurredAt
    (t.prepareCompleteSale digests event regime issuedBy saleEventId fiscalEventId occurredAt)

/-- Book a delivery in against an order, in one write of two events. -/
def recordReceipt (purchase : PurchaseEvent) (stock : InventoryEvent)
    (purchaseEventId stockEventId : Uuid) :=
  t.commit digests writable occurredAt
    (t.prepareReceipt purchase stock purchaseEventId stockEventId)

end Record

/-! ## Section 4: Loading -/

/-- What a load has rebuilt so far. -/
structure Loading where
  book : SaleBook
  stock : InventoryBook
  staff : Directory
  catalogue : Catalogue
  floor : Floor
  purchaseEvents : UuidMap (List PurchaseEvent)
  fiscalTip : FiscalTip
  outlet : Option OutletConfig
  shiftEvents : List ShiftEvent

namespace Loading

def empty : Loading :=
  { book := .new, stock := .new, staff := .new, catalogue := .new, floor := .new,
    purchaseEvents := ∅, fiscalTip := .genesis, outlet := none, shiftEvents := [] }

/-- One round of the load. Stock and staff events must apply; what does not apply of the sales,
    the catalogue, the floor and the settings is skipped. -/
def step (own : Uuid) (l : Loading) (e : EventEnvelope Payload) : Except TerminalError Loading :=
  match e.read with
  | some (.sale event) => .ok { l with book := (l.book.apply event).state }
  | some (.shift event) => .ok { l with shiftEvents := l.shiftEvents ++ [event] }
  | some (.inventory event) => do
    let stock ← (l.stock.apply event).mapError .inventory
    .ok { l with stock }
  | some (.catalogue event) =>
    .ok { l with catalogue := (l.catalogue.apply event).toOption.getD l.catalogue }
  | some (.floor event) => .ok { l with floor := (l.floor.apply event).toOption.getD l.floor }
  | some (.staff event) => do
    let staff ← (l.staff.apply event).mapError .directory
    .ok { l with staff }
  | some (.outlet event) => .ok { l with outlet := event.toConfig.toOption.or l.outlet }
  | some (.fiscal (.invoiceIssued invoice ..)) =>
    -- a sibling's invoices belong to that device's sequence
    if invoice.deviceId = own then
      .ok { l with fiscalTip := ⟨invoice.counter, invoice.hash⟩ }
    else .ok l
  | some (.purchase event) =>
    .ok { l with purchaseEvents := l.purchaseEvents.insert event.orderId
                   (l.purchaseEvents.getD event.orderId [] ++ [event]) }
  | none => .ok l

end Loading

/-- The shift a restart resumes: the one of the last shift event, where it is open. -/
def latestOpenShift (events : List ShiftEvent) : Except ShiftError (Option Shift) :=
  match events.getLast? with
  | none => .ok none
  | some last => do
    let shift ← Shift.replay (events.filter (·.shiftId = last.shiftId))
    .ok (if shift.status = .open then some shift else none)

/-- The till a load ends in. -/
def Loading.till (loaded : Loading) (store : EventStore Payload) (identity : DeviceIdentity)
    (shift : Option Shift) : Terminal :=
  { store, chain := .resume identity.deviceId store.tip, book := loaded.book, shift,
    stock := loaded.stock, staff := loaded.staff, catalogue := loaded.catalogue,
    floor := loaded.floor, fiscal := .resume identity.deviceId loaded.fiscalTip,
    outlet := loaded.outlet,
    -- a stream without its placement is skipped
    orders := loaded.purchaseEvents.filterMap
      fun _ events => (PurchaseOrder.replay events).toOption
    identity }

/-- Load a till from its store: verify its own chain, then rebuild the projections from every
    event. -/
def load (digests : Digests) (store : EventStore Payload) (identity : DeviceIdentity) :
    Except TerminalError Terminal := do
  let _ ← (verifyChainFromGenesis digests.event store.loadAll).mapError .corruptLog
  let loaded ← store.loadProjectionInput.foldlM (Loading.step identity.deviceId) .empty
  let shift ← (latestOpenShift loaded.shiftEvents).mapError .shift
  .ok (loaded.till store identity shift)

/-- The till of a device that has recorded nothing. -/
def fresh (identity : DeviceIdentity) : Terminal :=
  { Projections.empty with
    store := .fresh identity.deviceId, chain := .new identity.deviceId,
    fiscal := .resume identity.deviceId .genesis, outlet := none, identity }

/-! ## Section 5: Syncing -/

/-- The sale book of a stored log, as a sync rebuilds it: without a look at the kinds. -/
def rebuildBook (store : EventStore Payload) : SaleBook :=
  store.loadProjectionInput.foldl (fun book e =>
    match e.payload with
    | .known (.sale event) => (book.apply event).state
    | _ => book) .new

/-- Run one sync round; the book is rebuilt when events arrived. -/
def sync (digests : Digests) (t : Terminal) (transport : Transport Payload) (nowMillis : I64) :
    Terminal × Except SyncClientError SyncOutcome :=
  let round := t.store.syncOnce digests.event transport nowMillis
  let (outcome, store) := round.state
  match round.answer with
  | .error error => ({ t with store }, .error error)
  | .ok _ =>
    if 0 < outcome.pulled then
      ({ t with store, book := rebuildBook store }, .ok outcome)
    else ({ t with store }, .ok outcome)

end Terminal

end Sahl
