import Mathlib.Tactic
import Sahl.Core.Money

/-! # Purchase orders

    An order is what its events replay to. A receipt is checked after the quantity is written, so
    one whose value overflows leaves the quantity on the line. -/

namespace Sahl

/-! ## Section 1: Events -/

structure OrderLine where
  lineId : Uuid
  productId : Uuid
  quantity : Quantity
  unitCost : Money
  deriving DecidableEq

/-- Why an order stopped short of being fully received. -/
inductive CloseReason where
  | complete
  | shortShipped
  | cancelled
  deriving DecidableEq

/-- Everything that happens to a purchase order. -/
inductive PurchaseEvent where
  | placed (orderId : Uuid) (supplier : String) (reference : Option String)
      (lines : List OrderLine) (expectedAt : Option Timestamp) (at' : Timestamp) (placedBy : Uuid)
  | lineReceived (orderId lineId batchId : Uuid) (quantity : Quantity) (unitCost : Money)
      (at' : Timestamp) (receivedBy : Uuid)
  | closed (orderId : Uuid) (reason : CloseReason) (at' : Timestamp) (closedBy : Uuid)
  deriving DecidableEq

namespace PurchaseEvent

def orderId : PurchaseEvent → Uuid
  | placed orderId .. | lineReceived orderId .. | closed orderId .. => orderId

def kind : PurchaseEvent → String
  | placed .. => "purchase.placed"
  | lineReceived .. => "purchase.line_received"
  | closed .. => "purchase.closed"

end PurchaseEvent

inductive PurchaseError where
  | money (error : MoneyError)
  | notPlaced (orderId : Uuid)
  | alreadyPlaced (orderId : Uuid)
  | unknownLine (orderId lineId : Uuid)
  | closed (orderId : Uuid)
  | nonPositiveReceipt (quantity : Quantity)
  | empty
  deriving DecidableEq

/-! ## Section 2: The order -/

/-- A line, with what has arrived against it so far. -/
structure LineProgress where
  line : OrderLine
  received : Quantity
  receivedValue : Money
  deriving DecidableEq

/-- One purchase order. -/
structure PurchaseOrder where
  orderId : Uuid
  supplier : String
  reference : Option String
  expectedAt : Option Timestamp
  placedAt : Timestamp
  placedBy : Uuid
  lines : UuidMap LineProgress
  closed : Option CloseReason
  deriving DecidableEq

/-- A unit cost across a quantity. -/
def extend (unitCost : Money) (quantity : Quantity) : Except MoneyError Money :=
  unitCost.mulRatio quantity.milli Quantity.milliPerUnit .halfUp

/-- A receipt on its line: the quantity is in before the value is worked out. -/
def LineProgress.receive (progress : LineProgress) (quantity : Quantity) (unitCost : Money) :
    Outcome PurchaseError LineProgress :=
  match progress.received.checkedAdd quantity with
  | .error error => .refused progress (.money error)
  | .ok received =>
    let progress := { progress with received }
    .ofExcept progress (do
      let value ← (extend unitCost quantity).mapError PurchaseError.money
      let receivedValue ← (progress.receivedValue.checkedAdd value).mapError PurchaseError.money
      .ok { progress with receivedValue })

namespace PurchaseOrder

/-- The order its placement describes. -/
def placed : PurchaseEvent → Except PurchaseError PurchaseOrder
  | .placed orderId supplier reference lines expectedAt at' placedBy =>
    if lines.isEmpty then .error .empty
    else
      .ok { orderId, supplier, reference, expectedAt, placedAt := at', placedBy
            lines := lines.foldl
              (fun entries (line : OrderLine) => entries.insert line.lineId
                ⟨line, Quantity.zero, Money.zero line.unitCost.currency⟩) ∅
            closed := none }
  | other => .error (.notPlaced other.orderId)

/-- Apply one event. -/
def apply (order : PurchaseOrder) (event : PurchaseEvent) : Outcome PurchaseError PurchaseOrder :=
  if order.closed.isSome then .refused order (.closed order.orderId)
  else
    match event with
    | .placed orderId .. => .refused order (.alreadyPlaced orderId)
    | .lineReceived _ lineId _ quantity unitCost .. =>
      if quantity.milli.val ≤ 0 then .refused order (.nonPositiveReceipt quantity)
      else
        match order.lines[lineId]? with
        | none => .refused order (.unknownLine order.orderId lineId)
        | some progress =>
          let outcome := progress.receive quantity unitCost
          ⟨{ order with lines := order.lines.insert lineId outcome.state }, outcome.answer⟩
    | .closed _ reason .. => .done { order with closed := some reason }

/-- Rebuild from a stream of events for one order. -/
def replay : List PurchaseEvent → Except PurchaseError PurchaseOrder
  | [] => .error .empty
  | first :: rest => do
    let order ← placed first
    rest.foldlM (fun order event => (order.apply event).toExcept) order

theorem replay_concat {events : List PurchaseEvent} {order order' : PurchaseOrder}
    {event : PurchaseEvent} (h : replay events = .ok order)
    (happly : (order.apply event).toExcept = .ok order') :
    replay (events ++ [event]) = .ok order' := by
  cases events with
  | nil => cases h
  | cons first rest =>
    obtain ⟨start, hstart, hrest⟩ := Except.bind_eq_ok.mp h
    refine Except.bind_eq_ok.mpr ⟨start, hstart, ?_⟩
    exact foldlM_append_eq_ok.mpr ⟨order, hrest, foldlM_cons_eq_ok.mpr ⟨order', happly, rfl⟩⟩

end PurchaseOrder

end Sahl
