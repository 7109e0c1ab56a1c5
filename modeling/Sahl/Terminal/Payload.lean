import Mathlib.Tactic
import Sahl.Lib.Text
import Sahl.Core.Event
import Sahl.Core.Sale
import Sahl.Core.Shift
import Sahl.Core.Inventory
import Sahl.Core.Staff
import Sahl.Core.Catalogue
import Sahl.Core.Floor
import Sahl.Core.Outlet
import Sahl.Core.Ledger
import Sahl.Core.Purchasing

/-! # Payloads

    A till records events of nine families and stores whatever its siblings send. The kind of an
    event says which family to read its payload as. -/

namespace Sahl

/-- Everything a till records. -/
inductive DomainEvent where
  | sale (event : SaleEvent)
  | shift (event : ShiftEvent)
  | inventory (event : InventoryEvent)
  | catalogue (event : CatalogueEvent)
  | floor (event : FloorEvent)
  | staff (event : StaffEvent)
  | outlet (event : OutletEvent)
  | fiscal (event : FiscalEvent)
  | purchase (event : PurchaseEvent)
  deriving DecidableEq

/-- What an event carries: one of the till's events, or text this build cannot read as one. -/
inductive Payload where
  | known (event : DomainEvent)
  | unknown (text : String)
  deriving DecidableEq

inductive Family where
  | sale
  | shift
  | inventory
  | catalogue
  | floor
  | staff
  | outlet
  | fiscal
  | purchase
  deriving DecidableEq

namespace Family

/-- What the kinds of a family start with. -/
def kindPrefix : Family → String
  | sale => "sale."
  | shift => "shift."
  | inventory => "inventory."
  | catalogue => "catalogue."
  | floor => "floor."
  | staff => "staff."
  | outlet => "outlet."
  | fiscal => "fiscal."
  | purchase => "purchase."

/-- In the order a load tries them. -/
def all : List Family :=
  [sale, shift, inventory, catalogue, floor, staff, outlet, fiscal, purchase]

/-- The family a kind names. -/
def ofKind (kind : String) : Option Family := all.find? (Text.startsWith kind ·.kindPrefix)

end Family

namespace DomainEvent

def family : DomainEvent → Family
  | sale _ => .sale
  | shift _ => .shift
  | inventory _ => .inventory
  | catalogue _ => .catalogue
  | floor _ => .floor
  | staff _ => .staff
  | outlet _ => .outlet
  | fiscal _ => .fiscal
  | purchase _ => .purchase

def kind : DomainEvent → String
  | sale event => event.kind
  | shift event => event.kind
  | inventory event => event.kind
  | catalogue event => event.kind
  | floor event => event.kind
  | staff event => event.kind
  | outlet event => event.kind
  | fiscal event => event.kind
  | purchase event => event.kind

/-- The event as it is handed to the log. -/
def payload (event : DomainEvent) : EventPayload Payload := ⟨event.kind, .ok (.known event)⟩

/-- The kinds of a family start the way a load expects. -/
theorem ofKind_kind (event : DomainEvent) : Family.ofKind event.kind = some event.family := by
  cases event with
  | sale event => cases event <;> simp only [kind, SaleEvent.kind, family] <;> decide
  | shift event => cases event <;> simp only [kind, ShiftEvent.kind, family] <;> decide
  | inventory event => cases event <;> simp only [kind, InventoryEvent.kind, family] <;> decide
  | catalogue event => cases event <;> simp only [kind, CatalogueEvent.kind, family] <;> decide
  | floor event => cases event <;> simp only [kind, FloorEvent.kind, family] <;> decide
  | staff event => cases event <;> simp only [kind, StaffEvent.kind, family] <;> decide
  | outlet event =>
    cases event
    simp only [kind, OutletEvent.kind, family]
    decide
  | fiscal event =>
    cases event
    simp only [kind, FiscalEvent.kind, family]
    decide
  | purchase event => cases event <;> simp only [kind, PurchaseEvent.kind, family] <;> decide

end DomainEvent

/-- What a load reads out of an event: its payload, where that is of the family the kind names. -/
def EventEnvelope.read (e : EventEnvelope Payload) : Option DomainEvent :=
  match e.payload with
  | .known event => if Family.ofKind e.kind = some event.family then some event else none
  | .unknown _ => none

/-- What a till recorded is read back. -/
theorem EventEnvelope.read_recorded {e : EventEnvelope Payload} {event : DomainEvent}
    (hkind : e.kind = event.kind) (hpayload : e.payload = .known event) :
    e.read = some event := by
  unfold EventEnvelope.read
  simp only [hpayload, hkind, event.ofKind_kind, if_true]

namespace EventEnvelope

/-- The payload as a sale event, whatever the kind says. -/
def asSale (e : EventEnvelope Payload) : Option SaleEvent :=
  match e.payload with
  | .known (.sale event) => some event
  | _ => none

/-- The payload as a staff event, whatever the kind says. -/
def asStaff (e : EventEnvelope Payload) : Option StaffEvent :=
  match e.payload with
  | .known (.staff event) => some event
  | _ => none

/-- The sale event a load reads. -/
def readSale (e : EventEnvelope Payload) : Option SaleEvent :=
  match e.read with
  | some (.sale event) => some event
  | _ => none

/-- A load reads a sale event where the kind starts the way those of sales do. -/
theorem read_eq_sale {e : EventEnvelope Payload} {event : SaleEvent} :
    e.read = some (.sale event) ↔
      Text.startsWith e.kind Family.sale.kindPrefix ∧ e.asSale = some event := by
  -- the family of sales is the first that a kind is looked up under
  have hkind : Family.ofKind e.kind = some .sale ↔
      Text.startsWith e.kind Family.sale.kindPrefix := by
    constructor
    · exact List.find?_some (p := fun f : Family => Text.startsWith e.kind f.kindPrefix)
    · exact List.find?_cons_of_pos (p := fun f : Family => Text.startsWith e.kind f.kindPrefix)
  unfold read asSale
  cases e.payload with
  | unknown text => simp
  | known domain =>
    cases domain with
    | sale event' =>
      show (if Family.ofKind e.kind = some Family.sale then _ else none) = _ ↔ _
      by_cases hsale : Family.ofKind e.kind = some .sale
      · rw [if_pos hsale]
        simp [hkind.mp hsale]
      · rw [if_neg hsale]
        constructor
        · exact fun h => by cases h
        · exact fun h => absurd (hkind.mpr h.1) hsale
    | _ =>
      simp only [reduceCtorEq, and_false, iff_false]
      split
      · exact fun h => by cases h
      · exact fun h => by cases h

theorem readSale_eq_some {e : EventEnvelope Payload} {event : SaleEvent} :
    e.readSale = some event ↔ e.read = some (.sale event) := by
  unfold readSale
  cases e.read with
  | none => simp
  | some domain => cases domain <;> simp

end EventEnvelope

end Sahl
