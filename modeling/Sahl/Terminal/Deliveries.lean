import Mathlib.Tactic
import Sahl.Core.Receiving
import Sahl.Terminal.Restart

/-! # Deliveries

    A delivery against an order is two events in one write: the order's, that so much arrived, and
    the stock's, that a batch of it is on the shelf. In every run of a till by itself, restarts and
    failed calls among its steps, what an order says has arrived on a line is the batches that were
    booked in for it, and no batch is booked in twice (`deliveries_booked`). -/

namespace Sahl

/-! ## Section 1: The two halves of a delivery -/

/-- What an order says of a delivery. -/
structure Arrival where
  orderId : Uuid
  lineId : Uuid
  batchId : Uuid
  quantity : Quantity
  unitCost : Money

/-- What the stock says of one. -/
structure Delivery where
  batchId : Uuid
  productId : Uuid
  quantity : Quantity
  unitCost : Money
  supplier : Option String

/-- What a delivery is worth at what it cost, in minor units. -/
def Delivery.charge (d : Delivery) : Int :=
  Rounded.halfAway (d.unitCost.minor.val * d.quantity.milli.val) 1000

def DomainEvent.arrival? : DomainEvent → Option Arrival
  | .purchase (.lineReceived orderId lineId batchId quantity unitCost _ _) =>
    some ⟨orderId, lineId, batchId, quantity, unitCost⟩
  | _ => none

def DomainEvent.delivery? : DomainEvent → Option Delivery
  | .inventory (.batchReceived batchId productId _ _ quantity unitCost supplier _ _) =>
    some ⟨batchId, productId, quantity, unitCost, supplier⟩
  | _ => none

/-- The events a till has stored, in the order it recorded them. -/
def Terminal.log (t : Terminal) : List DomainEvent := t.store.events.filterMap (·.read)

def arrivalsIn (log : List DomainEvent) : List Arrival := log.filterMap DomainEvent.arrival?

def deliveries (log : List DomainEvent) : List Delivery := log.filterMap DomainEvent.delivery?

/-- What was booked in on the lines of one order. -/
def receiptsFor (log : List DomainEvent) (orderId : Uuid) : List Receipt :=
  ((arrivalsIn log).filter (·.orderId = orderId)).map fun a => ⟨a.lineId, a.quantity, a.unitCost⟩

/-- The call that books a delivery in: of the product that was ordered, from the supplier of the
    order, in the currency of the outlet. -/
def Terminal.receiveAgainstOrder (t : Terminal) (orderId lineId batchId : Uuid)
    (quantityMilli unitCostMinor : I64) (lot : Option String) (expiresAt : Option Timestamp)
    (receivedAt stockedAt : Timestamp) (receivedBy purchaseEventId stockEventId : Uuid) :
    Except TerminalError Terminal.Call := do
  let order ← Except.okOr t.orders[orderId]? (.unknownOrder orderId)
  let progress ← Except.okOr order.lines[lineId]? (.unknownOrder orderId)
  let currency ← t.currency
  let unitCost : Money := ⟨unitCostMinor, currency⟩
  .ok (.recordReceipt
    (.lineReceived orderId lineId batchId ⟨quantityMilli⟩ unitCost receivedAt receivedBy)
    (.batchReceived batchId progress.line.productId lot expiresAt ⟨quantityMilli⟩ unitCost
      (some order.supplier) stockedAt receivedBy)
    purchaseEventId stockEventId)

/-- Deliveries are booked in by that call. -/
def Terminal.BooksIn (t : Terminal) : Terminal.Action → Prop
  | .call _ _ (.recordPurchase event _) => (DomainEvent.purchase event).arrival? = none
  | .call _ _ (.recordReceipt purchase stock purchaseEventId stockEventId) =>
    ∃ orderId lineId batchId quantityMilli unitCostMinor lot expiresAt receivedAt stockedAt
      receivedBy, t.receiveAgainstOrder orderId lineId batchId quantityMilli unitCostMinor lot
        expiresAt receivedAt stockedAt receivedBy purchaseEventId stockEventId =
          .ok (.recordReceipt purchase stock purchaseEventId stockEventId)
  | _ => True

/-! ## Section 2: What the two books say together -/

/-- The batch of a delivery is the one its order speaks of. -/
structure Delivery.Meets (d : Delivery) (a : Arrival) : Prop where
  batchId : d.batchId = a.batchId
  quantity : d.quantity = a.quantity
  unitCost : d.unitCost = a.unitCost

/-- A delivery is of what was ordered on a line, from whom it was ordered. -/
def Delivery.Ordered (d : Delivery) (orders : UuidMap PurchaseOrder) (a : Arrival) : Prop :=
  ∃ order progress, orders[a.orderId]? = some order ∧ order.lines[a.lineId]? = some progress ∧
    d.productId = progress.line.productId ∧ d.supplier = some order.supplier

/-- The orders have taken up what was booked in. -/
structure OrdersHold (log : List DomainEvent) (orders : UuidMap PurchaseOrder) : Prop where
  covers : ∀ (orderId : Uuid) (order : PurchaseOrder), orders[orderId]? = some order →
    order.Covers (receiptsFor log orderId)
  met : ∀ a ∈ arrivalsIn log, ∃ d ∈ deliveries log, d.Meets a ∧ d.Ordered orders a
  once : ((arrivalsIn log).map (·.batchId)).Nodup

/-- The stock has the batches that were delivered. -/
structure StockHolds (log : List DomainEvent) (stock : InventoryBook) : Prop where
  shelved : ∀ d ∈ deliveries log, ∃ level, stock.levels[d.batchId]? = some level ∧
    level.batch.productId = d.productId
  once : ((deliveries log).map (·.batchId)).Nodup

theorem ordersHold_empty : OrdersHold [] ∅ where
  covers := fun orderId order h => by simp at h
  met := fun a ha => absurd ha List.not_mem_nil
  once := .nil

theorem stockHolds_empty : StockHolds [] .new where
  shelved := fun _ hd => absurd hd List.not_mem_nil
  once := .nil

@[simp] theorem arrivals_concat (log : List DomainEvent) (event : DomainEvent) :
    arrivalsIn (log ++ [event]) = arrivalsIn log ++ event.arrival?.toList := by
  simp [arrivalsIn, List.filterMap_append, filterMap_cons_toList]

@[simp] theorem deliveries_concat (log : List DomainEvent) (event : DomainEvent) :
    deliveries (log ++ [event]) = deliveries log ++ event.delivery?.toList := by
  simp [deliveries, List.filterMap_append, filterMap_cons_toList]

/-! ## Section 3: One event -/

/-- An order goes on with the lines it was placed with. -/
structure PurchaseOrder.Continues (order order' : PurchaseOrder) : Prop where
  supplier : order'.supplier = order.supplier
  lines : ∀ (lineId : Uuid) (progress : LineProgress), order.lines[lineId]? = some progress →
    ∃ progress', order'.lines[lineId]? = some progress' ∧ progress'.line = progress.line

/-- An event that is not refused leaves an order that goes on, and covers its receipt too. -/
theorem PurchaseOrder.apply_continues {order order' : PurchaseOrder} {event : PurchaseEvent}
    (h : (order.apply event).toExcept = .ok order') : order.Continues order' ∧
      ∀ receipts, order.Covers receipts → order'.Covers (receipts ++ event.receipt?.toList) := by
  obtain ⟨hanswer, rfl⟩ := Outcome.toExcept_eq_ok.mp h
  have hhalf : ¬ order.HalfTakes event := by
    intro hhalf
    obtain ⟨error, herror, -⟩ := halfTakes_changes hhalf
    rw [hanswer] at herror
    cases herror
  refine ⟨?_, fun receipts hcovers => ?_⟩
  · cases step_cases order event with
    | refused error happly =>
      rw [happly] at hanswer
      cases hanswer
    | halfTaken half => exact absurd half hhalf
    | closed reason _ happly =>
      rw [happly]
      exact ⟨rfl, fun _ progress hline => ⟨progress, hline, rfl⟩⟩
    | taken receipt progress progress' _ _ hline hsame _ _ _ happly =>
      rw [happly]
      refine ⟨rfl, fun lineId found hfound => ?_⟩
      simp only [Outcome.done_state, UuidMap.get_insert]
      by_cases hid : receipt.lineId = lineId
      · subst hid
        rw [hline] at hfound
        cases hfound
        exact ⟨progress', by rw [if_pos rfl], hsame⟩
      · exact ⟨found, by rw [if_neg hid, hfound], rfl⟩
  · have hstep := hcovers.step hhalf
    rw [accepted, if_pos (by rw [hanswer]; rfl)] at hstep
    exact hstep

/-- A booking on a batch that is there is on the same batch. -/
theorem InventoryEvent.booking_batch {event : InventoryEvent} {level : BatchLevel} {b : Booking}
    (h : event.booking (some level) = .ok b) : b.level.batch = level.batch := by
  have hmove : ∀ {movement b}, move level movement = .ok b → b.level.batch = level.batch := by
    intro movement b hb
    simp only [move, Except.bind_eq_ok] at hb
    obtain ⟨_, _, _, _, hb⟩ := hb
    cases hb
    rfl
  cases event with
  | batchReceived => cases h
  | stockIssued | stockReturned =>
    simp only [booking, Except.bind_eq_ok, Except.okOr_eq_ok, Option.some.injEq] at h
    obtain ⟨_, _, _, rfl, h⟩ := h
    exact hmove h
  | batchCounted batchId counted at' countedBy =>
    simp only [booking] at h
    split at h
    · cases h
    · simp only [Except.bind_eq_ok, Except.okOr_eq_ok, Option.some.injEq] at h
      obtain ⟨_, rfl, _, _, _, _, h⟩ := h
      cases h
      rfl

section Step

variable {log : List DomainEvent} {p p' : Projections} {event : DomainEvent}

/-- Only a delivery puts a new batch on the shelf, and it brings a new one. -/
theorem InventoryEvent.booking_new {event : InventoryEvent} {b : Booking}
    (h : event.booking none = .ok b) : ∃ d, (DomainEvent.inventory event).delivery? = some d ∧
      d.batchId = event.batchId ∧ b.level.batch.productId = d.productId := by
  cases event with
  | batchReceived batchId productId lot expiresAt quantity unitCost supplier at' receivedBy =>
    simp only [booking, Except.bind_eq_ok] at h
    obtain ⟨_, _, h⟩ := h
    cases h
    exact ⟨_, rfl, rfl, rfl⟩
  | stockIssued | stockReturned =>
    simp only [booking, Except.bind_eq_ok, Except.okOr_eq_ok] at h
    obtain ⟨_, _, _, hnone, _⟩ := h
    cases hnone
  | batchCounted batchId counted at' countedBy =>
    simp only [booking] at h
    split at h
    · cases h
    · simp only [Except.bind_eq_ok, Except.okOr_eq_ok] at h
      obtain ⟨_, hnone, _⟩ := h
      cases hnone

theorem InventoryEvent.delivery?_of_known {event : InventoryEvent} {level : BatchLevel}
    {b : Booking} (h : event.booking (some level) = .ok b) :
    (DomainEvent.inventory event).delivery? = none := by
  cases event with
  | batchReceived => cases h
  | stockIssued | stockReturned | batchCounted => rfl

/-- An event touches no part but that of its family. -/
theorem Projections.apply_part {f : Family} (h : event.family ≠ f)
    (happly : p.apply event = .ok p') : p'.part f = p.part f := by
  obtain ⟨v, -, rfl⟩ := Projections.apply_eq_ok.mp happly
  exact Projections.part_setPart_of_ne h p v

theorem DomainEvent.delivery?_of_family (h : event.family ≠ .inventory) :
    event.delivery? = none := by
  cases event with
  | inventory => exact absurd rfl h
  | _ => rfl

theorem DomainEvent.arrival?_of_family (h : event.family ≠ .purchase) :
    event.arrival? = none := by
  cases event with
  | purchase => exact absurd rfl h
  | _ => rfl

/-- The stock goes on having what was delivered. -/
theorem StockHolds.step (h : StockHolds log p.stock) (happly : p.apply event = .ok p') :
    StockHolds (log ++ [event]) p'.stock := by
  by_cases hkind : event.family = .inventory
  swap
  · have hnone := DomainEvent.delivery?_of_family hkind
    have hsame : p'.stock = p.stock := Projections.apply_part hkind happly
    refine ⟨?_, ?_⟩
    · rw [deliveries_concat, hnone, hsame, Option.toList_none, List.append_nil]
      exact h.shelved
    · rw [deliveries_concat, hnone, Option.toList_none, List.append_nil]
      exact h.once
  obtain ⟨event, rfl⟩ : ∃ inner, event = .inventory inner := by
    cases event with
    | inventory inner => exact ⟨inner, rfl⟩
    | _ => cases hkind
  obtain ⟨stock, hstock, hp'⟩ := Except.bind_eq_ok.mp happly
  cases hp'
  obtain ⟨b, hbooking, rfl⟩ := InventoryBook.apply_eq_ok.mp (Except.mapError_eq_ok.mp hstock)
  cases hlevel : p.stock.levels[event.batchId]? with
  | none =>
    rw [hlevel] at hbooking
    obtain ⟨d, hdelivery, hbatch, hproduct⟩ := InventoryEvent.booking_new hbooking
    -- no delivery before it brought this batch
    have hnew : ∀ old ∈ deliveries log, old.batchId ≠ event.batchId := by
      intro old hold heq
      obtain ⟨level, hget, -⟩ := h.shelved old hold
      rw [heq, hlevel] at hget
      cases hget
    refine ⟨fun other hother => ?_, ?_⟩
    · rw [deliveries_concat, hdelivery, Option.toList_some] at hother
      simp only [InventoryBook.enter, UuidMap.get_insert]
      rcases List.mem_append.mp hother with hold | hmem
      · rw [if_neg fun heq => hnew other hold heq.symm]
        exact h.shelved other hold
      · rw [List.mem_singleton.mp hmem, hbatch, if_pos rfl]
        exact ⟨b.level, rfl, hproduct⟩
    · rw [deliveries_concat, hdelivery, Option.toList_some, List.map_append, List.nodup_append]
      refine ⟨h.once, List.nodup_singleton _, fun id hid id' hid' => ?_⟩
      obtain ⟨old, hold, rfl⟩ := List.mem_map.mp hid
      have hsame : id' = d.batchId := List.mem_singleton.mp hid'
      rw [hsame, hbatch]
      exact hnew old hold
  | some level =>
    rw [hlevel] at hbooking
    have hnone := InventoryEvent.delivery?_of_known hbooking
    refine ⟨fun d hd => ?_, ?_⟩
    · rw [deliveries_concat, hnone, Option.toList_none, List.append_nil] at hd
      obtain ⟨old, hget, hproduct⟩ := h.shelved d hd
      simp only [InventoryBook.enter, UuidMap.get_insert]
      by_cases hbatch : event.batchId = d.batchId
      · rw [if_pos hbatch]
        rw [← hbatch, hlevel] at hget
        cases hget
        exact ⟨b.level, rfl, by rw [InventoryEvent.booking_batch hbooking, hproduct]⟩
      · rw [if_neg hbatch]
        exact ⟨old, hget, hproduct⟩
    · rw [deliveries_concat, hnone, Option.toList_none, List.append_nil]
      exact h.once

/-- What was ordered on a line stays so while the order goes on. -/
theorem Delivery.Ordered.insert {d : Delivery} {orders : UuidMap PurchaseOrder} {a : Arrival}
    (h : d.Ordered orders a) {orderId : Uuid} {order' : PurchaseOrder}
    (hgoes : ∀ order, orders[orderId]? = some order → order.Continues order') :
    d.Ordered (orders.insert orderId order') a := by
  obtain ⟨order, progress, horder, hline, hproduct, hsupplier⟩ := h
  by_cases hid : orderId = a.orderId
  · rw [← hid] at horder
    obtain ⟨hsame, hlines⟩ := hgoes order horder
    obtain ⟨progress', hline', hkept⟩ := hlines a.lineId progress hline
    refine ⟨order', progress', ?_, hline', by rw [hkept, hproduct], by rw [hsame, hsupplier]⟩
    rw [UuidMap.get_insert, if_pos hid]
  · refine ⟨order, progress, ?_, hline, hproduct, hsupplier⟩
    rw [UuidMap.get_insert, if_neg hid, horder]

/-- What a purchase event leaves: a new order that nothing was booked in on, or an order that goes
    on and covers the receipt too. -/
theorem OrdersHold.orderAfter (h : OrdersHold log p.orders) {event : PurchaseEvent}
    {order' : PurchaseOrder}
    (hafter : Projections.orderAfter event p.orders[event.orderId]? = .ok order') :
    (∀ order, p.orders[event.orderId]? = some order → order.Continues order') ∧
      order'.Covers (receiptsFor log event.orderId ++ event.receipt?.toList) := by
  cases horder : p.orders[event.orderId]? with
  | none =>
    rw [horder] at hafter
    refine ⟨fun order hsome => (by cases hsome), ?_⟩
    obtain ⟨start, hplaced, hrest⟩ := Except.bind_eq_ok.mp (Except.mapError_eq_ok.mp hafter)
    cases hrest
    -- an order that is not there has had no arrival
    have hnone : receiptsFor log event.orderId = [] := by
      rw [receiptsFor, List.map_eq_nil_iff, List.filter_eq_nil_iff]
      intro a ha hid
      obtain ⟨d, -, -, order, progress, hsome, -⟩ := h.met a ha
      rw [of_decide_eq_true hid, horder] at hsome
      cases hsome
    have hreceipt : event.receipt? = none := by
      cases event with
      | placed => rfl
      | lineReceived => cases hplaced
      | closed => cases hplaced
    rw [hnone, hreceipt]
    exact PurchaseOrder.placed_covers hplaced
  | some order =>
    rw [horder] at hafter
    obtain ⟨hgoes, hcovers⟩ := PurchaseOrder.apply_continues (Except.mapError_eq_ok.mp hafter)
    refine ⟨fun other hsome => ?_, hcovers _ (h.covers _ order horder)⟩
    cases hsome
    exact hgoes

theorem receiptsFor_grown {log' : List DomainEvent} {event : PurchaseEvent}
    (h : arrivalsIn log' = arrivalsIn log ++ (DomainEvent.purchase event).arrival?.toList)
    (orderId : Uuid) : receiptsFor log' orderId =
      receiptsFor log orderId ++ if event.orderId = orderId then event.receipt?.toList else [] := by
  unfold receiptsFor
  rw [h, List.filter_append, List.map_append]
  congr 1
  cases event with
  | placed | closed => simp [DomainEvent.arrival?, PurchaseEvent.receipt?]
  | lineReceived id lineId batchId quantity unitCost at' receivedBy =>
    by_cases hid : id = orderId
    · simp [DomainEvent.arrival?, PurchaseEvent.receipt?, PurchaseEvent.orderId, hid]
    · simp [DomainEvent.arrival?, PurchaseEvent.orderId, hid]

/-- The orders take up an order's event, with the batch of it where it is an arrival. -/
theorem OrdersHold.purchase {log' : List DomainEvent} {event : PurchaseEvent}
    (h : OrdersHold log p.orders) (happly : p.apply (.purchase event) = .ok p')
    (harrivals : arrivalsIn log' = arrivalsIn log ++ (DomainEvent.purchase event).arrival?.toList)
    (hkept : ∀ d ∈ deliveries log, d ∈ deliveries log')
    (hmet : ∀ a ∈ (DomainEvent.purchase event).arrival?,
      ∃ d ∈ deliveries log', d.Meets a ∧ d.Ordered p.orders a)
    (hnew : ∀ a ∈ (DomainEvent.purchase event).arrival?, ∀ old ∈ arrivalsIn log,
      old.batchId ≠ a.batchId) : OrdersHold log' p'.orders := by
  obtain ⟨orders, horders, hp'⟩ := Except.bind_eq_ok.mp happly
  cases hp'
  obtain ⟨order', hafter, rfl⟩ := UuidMap.alterM_eq_ok.mp horders
  obtain ⟨hgoes, hcovers⟩ := h.orderAfter hafter
  refine ⟨fun orderId order hget => ?_, fun a ha => ?_, ?_⟩
  · rw [UuidMap.get_insert] at hget
    rw [receiptsFor_grown harrivals]
    by_cases hid : event.orderId = orderId
    · rw [if_pos hid] at hget
      cases hget
      rw [if_pos hid, ← hid]
      exact hcovers
    · rw [if_neg hid] at hget
      rw [if_neg hid, List.append_nil]
      exact h.covers orderId order hget
  · rw [harrivals] at ha
    rcases List.mem_append.mp ha with hold | hmem
    · obtain ⟨d, hd, hmeets, hordered⟩ := h.met a hold
      exact ⟨d, hkept d hd, hmeets, hordered.insert hgoes⟩
    · obtain ⟨d, hd, hmeets, hordered⟩ := hmet a (Option.mem_toList.mp hmem)
      exact ⟨d, hd, hmeets, hordered.insert hgoes⟩
  · rw [harrivals, List.map_append, List.nodup_append]
    refine ⟨h.once, ?_, fun id hid id' hid' => ?_⟩
    · cases (DomainEvent.purchase event).arrival? <;> simp
    · obtain ⟨old, hold, rfl⟩ := List.mem_map.mp hid
      obtain ⟨a, ha, rfl⟩ := List.mem_map.mp hid'
      exact hnew a (Option.mem_toList.mp ha) old hold

/-- An event that no order hears of. -/
theorem OrdersHold.other (h : OrdersHold log p.orders) (hkind : event.family ≠ .purchase)
    (happly : p.apply event = .ok p') : OrdersHold (log ++ [event]) p'.orders := by
  have hnone := DomainEvent.arrival?_of_family hkind
  have hsame : p'.orders = p.orders := Projections.apply_part hkind happly
  have harrivals : arrivalsIn (log ++ [event]) = arrivalsIn log := by
    rw [arrivals_concat, hnone, Option.toList_none, List.append_nil]
  refine ⟨fun orderId order hget => ?_, fun a ha => ?_, by rw [harrivals]; exact h.once⟩
  · rw [hsame] at hget
    unfold receiptsFor
    rw [harrivals]
    exact h.covers orderId order hget
  · rw [harrivals] at ha
    obtain ⟨d, hd, hmeets, hordered⟩ := h.met a ha
    refine ⟨d, ?_, hmeets, by rwa [hsame]⟩
    rw [deliveries_concat]
    exact List.mem_append_left _ hd

/-- Anything but an arrival leaves what was booked in as it was. -/
theorem OrdersHold.step (h : OrdersHold log p.orders) (hnone : event.arrival? = none)
    (happly : p.apply event = .ok p') : OrdersHold (log ++ [event]) p'.orders := by
  by_cases hkind : event.family = .purchase
  · obtain ⟨event, rfl⟩ : ∃ inner, event = .purchase inner := by
      cases event with
      | purchase inner => exact ⟨inner, rfl⟩
      | _ => cases hkind
    have hno : ∀ a, a ∉ (DomainEvent.purchase event).arrival? := fun a ha => by
      rw [hnone] at ha
      cases ha
    refine h.purchase happly (arrivals_concat log _) (fun d hd => ?_)
      (fun a ha => absurd ha (hno a)) (fun a ha => absurd ha (hno a))
    rw [deliveries_concat]
    exact List.mem_append_left _ hd
  · exact h.other hkind happly

/-- The two books of a till, and what they took up. -/
structure Books (log : List DomainEvent) (p : Projections) : Prop where
  orders : OrdersHold log p.orders
  stock : StockHolds log p.stock

theorem Books.events {events : List DomainEvent} (h : Books log p)
    (hnone : ∀ event ∈ events, event.arrival? = none)
    (hfold : events.foldlM Projections.apply p = .ok p') : Books (log ++ events) p' := by
  induction events generalizing log p with
  | nil =>
    cases hfold
    rw [List.append_nil]
    exact h
  | cons event events ih =>
    obtain ⟨next, happly, hrest⟩ := foldlM_cons_eq_ok.mp hfold
    obtain ⟨hfirst, hlater⟩ := List.forall_mem_cons.mp hnone
    rw [List.append_cons]
    exact ih ⟨h.orders.step hfirst happly, h.stock.step happly⟩ hlater hrest

/-- A delivery that is booked in goes into both books. -/
theorem Books.booked {q : Projections} {event : PurchaseEvent} {stock : InventoryEvent}
    {a : Arrival} {d : Delivery} (h : Books log p)
    (harrival : (DomainEvent.purchase event).arrival? = some a)
    (hdelivery : (DomainEvent.inventory stock).delivery? = some d)
    (hmeets : d.Meets a) (hordered : d.Ordered p.orders a)
    (hfirst : p.apply (.purchase event) = .ok q) (hsecond : q.apply (.inventory stock) = .ok p') :
    Books (log ++ [.purchase event, .inventory stock]) p' := by
  have hsame : p'.orders = q.orders :=
    Projections.apply_part (f := .purchase) (by simp [DomainEvent.family]) hsecond
  have hstock : StockHolds (log ++ [.purchase event] ++ [.inventory stock]) p'.stock :=
    (h.stock.step hfirst).step hsecond
  have hdeliveries : deliveries (log ++ [.purchase event] ++ [.inventory stock]) =
      deliveries log ++ [d] := by
    rw [deliveries_concat, deliveries_concat, hdelivery]
    simp [DomainEvent.delivery?]
  rw [List.append_cons]
  refine ⟨?_, hstock⟩
  rw [hsame]
  refine h.orders.purchase hfirst ?_ (fun old hold => ?_) (fun b hb => ?_) (fun b hb old hold => ?_)
  · rw [arrivals_concat, arrivals_concat]
    simp [DomainEvent.arrival?]
  · rw [hdeliveries]
    exact List.mem_append_left _ hold
  · rw [harrival] at hb
    cases hb
    refine ⟨d, ?_, hmeets, hordered⟩
    rw [hdeliveries]
    exact List.mem_append_right _ (List.mem_singleton_self d)
  · -- the batch of an earlier arrival has been delivered, and this one is new on the shelf
    rw [harrival] at hb
    cases hb
    obtain ⟨other, hother, hsameBatch, -⟩ := h.orders.met old hold
    have honce := hstock.once
    rw [hdeliveries, List.map_append, List.nodup_append] at honce
    rw [← hsameBatch.batchId, ← hmeets.batchId]
    exact honce.2.2 _ (List.mem_map_of_mem hother) _ (List.mem_singleton_self _)

end Step

/-! ## Section 4: Every run -/

namespace Terminal

theorem log_stored {occurredAt : Timestamp} {t u : Terminal} {events : List (Uuid × DomainEvent)}
    {es : List (EventEnvelope Payload)} (hcarries : List.Forall₂ (Carries occurredAt) events es)
    (hstored : u.store.events = t.store.events ++ es) : u.log = t.log ++ events.map (·.2) := by
  have hread : es.filterMap (·.read) = events.map (·.2) := by
    have h := Carries.filterMap_read hcarries some
    simpa only [Option.bind_fun_some, List.filterMap_some] using h
  rw [log, hstored, List.filterMap_append, hread]
  rfl

/-- The books hold after a call that booked deliveries in as they are booked in. -/
theorem books_stored {digests : Digests} {occurredAt : Timestamp} {t : Terminal} {call : Call}
    {writable : Bool} {p : Prepared} (h : Books t.log t.toProjections)
    (hguard : t.BooksIn (.call writable occurredAt call))
    (hprepare : t.prepare digests occurredAt call = .ok p) :
    Books (t.log ++ p.events.map (·.2)) p.adopted.toProjections := by
  have hfold := (prepare_adopts hprepare).projections
  obtain ⟨invoices, hevents, hinvoices⟩ := prepare_events hprepare
  have hplain : (∀ recorded ∈ call.asked, recorded.2.arrival? = none) →
      Books (t.log ++ p.events.map (·.2)) p.adopted.toProjections := by
    intro hasked
    refine h.events (fun event hevent => ?_) hfold
    obtain ⟨recorded, hrecorded, rfl⟩ := List.mem_map.mp hevent
    rw [hevents] at hrecorded
    rcases List.mem_append.mp hrecorded with hcalled | hinvoice
    · exact hasked recorded hcalled
    · exact DomainEvent.arrival?_of_family (by simp [hinvoices recorded hinvoice])
  cases call with
  | recordReceipt purchase stock purchaseEventId stockEventId =>
    obtain ⟨orderId, lineId, batchId, quantityMilli, unitCostMinor, lot, expiresAt, receivedAt,
      stockedAt, receivedBy, hcall⟩ := hguard
    simp only [receiveAgainstOrder, Except.bind_eq_ok, Except.okOr_eq_ok] at hcall
    obtain ⟨order, horder, progress, hline, currency, -, hcall⟩ := hcall
    cases hcall
    simp only [prepare, prepareReceipt, Except.bind_eq_ok] at hprepare
    obtain ⟨_, -, ordered, hordered, candidate, hstock, hprepare⟩ := hprepare
    cases hprepare
    exact h.booked rfl rfl ⟨rfl, rfl, rfl⟩ ⟨order, progress, horder, hline, rfl, rfl⟩ hordered
      hstock
  | recordPurchase event eventId =>
    exact hplain fun recorded hrecorded => by
      rw [List.mem_singleton.mp hrecorded]
      exact hguard
  | record | recordShift | recordStock | recordStaff | recordCatalogue | recordFloor |
      recordOutlet | completeSale =>
    exact hplain fun recorded hrecorded => by
      rw [List.mem_singleton.mp hrecorded]
      rfl

theorem books_call {digests : Digests} {t : Terminal} {writable : Bool}
    {occurredAt : Timestamp} {call : Call} (h : Books t.log t.toProjections)
    (hguard : t.BooksIn (.call writable occurredAt call)) :
    Books (t.perform digests writable occurredAt call).1.log
      (t.perform digests writable occurredAt call).1.toProjections := by
  rw [perform_eq_commit]
  rcases commit_cases digests writable occurredAt t (t.prepare digests occurredAt call) with
    ⟨error, -, hcommit⟩ | ⟨p, chain, error, -, -, hcommit⟩ |
    ⟨p, chain, es, store, hprepare, -, hseal, hstore, hcommit⟩
  · rw [hcommit]
    exact h
  · rw [hcommit]
    exact h
  · rw [hcommit]
    rw [log_stored (sealAll_eq_ok hseal).2.2.2 (EventStore.appendAll_events hstore)]
    exact books_stored h hguard hprepare

/-- A run in which every event is read in its turn, and deliveries are booked in by their call. -/
abbrev BookedRun (digests : Digests) : Terminal → Prop :=
  Transition.Reachable Fresh (Transition.Guarded (step digests) fun t a =>
    t.InReplayOrder a ∧ t.BooksIn a)

theorem books_reachable {digests : Digests} {t : Terminal} (h : BookedRun digests t) :
    Books t.log t.toProjections := by
  refine (h.invariant (I := fun t => Transition.Reachable Fresh
    (Transition.Guarded (step digests) InReplayOrder) t ∧ Books t.log t.toProjections) ?_ ?_).2
  · intro t hfresh
    refine ⟨.init hfresh, ?_⟩
    obtain ⟨identity, rfl⟩ := hfresh
    exact ⟨ordersHold_empty, stockHolds_empty⟩
  · intro t a t' ht hstep
    obtain ⟨⟨hturn, hbooks⟩, hstep⟩ := hstep
    refine ⟨.step a ht.1 ⟨hturn, hstep⟩, ?_⟩
    cases a with
    | call writable occurredAt call =>
      cases hstep
      exact books_call ht.2 hbooks
    | restart =>
      -- the log stays, and the books are read back as they were
      obtain ⟨hinv, hreplayable⟩ := replayable_reachable ht.1
      obtain ⟨u, hload, hprojections⟩ := load_of_replayable hinv hreplayable
      rw [hstep] at hload
      cases hload
      obtain ⟨loaded, shift, -, -, rfl⟩ := hinv.load_eq_ok.mp hstep
      rw [hprojections]
      exact ⟨ht.2.orders, ht.2.stock⟩
    | sync transport nowMillis => exact absurd hturn id

/-! ## Section 5: What an order says has arrived -/

/-- The batches that were booked in on a line of an order. -/
def bookedFor (log : List DomainEvent) (orderId lineId : Uuid) : List Delivery :=
  (deliveries log).filter fun d =>
    (arrivalsIn log).any fun a => a.orderId = orderId ∧ a.lineId = lineId ∧ a.batchId = d.batchId

/-- A line of an order holds what was booked in for it: batches of what was ordered, from whom it
    was ordered, that are on the shelf. -/
structure BookedLine (t : Terminal) (orderId : Uuid) (order : PurchaseOrder) (lineId : Uuid)
    (progress : LineProgress) : Prop where
  received : progress.Holds ((bookedFor t.log orderId lineId).map (·.quantity.milli.val)).sum
    ((bookedFor t.log orderId lineId).map (·.charge)).sum
  ordered : ∀ d ∈ bookedFor t.log orderId lineId,
    d.productId = progress.line.productId ∧ d.supplier = some order.supplier
  shelved : ∀ d ∈ bookedFor t.log orderId lineId, ∃ level,
    t.stock.levels[d.batchId]? = some level ∧ level.batch.productId = progress.line.productId
  once : ((bookedFor t.log orderId lineId).map (·.batchId)).Nodup

theorem mem_bookedFor {log : List DomainEvent} {orderId lineId : Uuid} {d : Delivery} :
    d ∈ bookedFor log orderId lineId ↔ d ∈ deliveries log ∧ ∃ a ∈ arrivalsIn log,
      a.orderId = orderId ∧ a.lineId = lineId ∧ a.batchId = d.batchId := by
  simp [bookedFor]

theorem receiptsOn_receiptsFor (log : List DomainEvent) (orderId lineId : Uuid) :
    PurchaseOrder.receiptsOn lineId (receiptsFor log orderId) =
      ((arrivalsIn log).filter fun a => a.orderId = orderId ∧ a.lineId = lineId).map fun a =>
        ⟨a.lineId, a.quantity, a.unitCost⟩ := by
  rw [PurchaseOrder.receiptsOn, receiptsFor, List.filter_map, List.filter_filter]
  congr 1
  refine List.filter_congr fun a _ => ?_
  simp [Bool.and_comm]

end Terminal

namespace Books

variable {t : Terminal}

/-- The arrivals on a line and the batches booked in for it match one to one. -/
theorem perm_bookedFor {γ : Type} (orderId lineId : Uuid) (h : Books t.log t.toProjections)
    (u : Quantity → Money → γ) :
    (((arrivalsIn t.log).filter fun a => a.orderId = orderId ∧ a.lineId = lineId).map
      fun a => u a.quantity a.unitCost).Perm
        ((Terminal.bookedFor t.log orderId lineId).map fun d => u d.quantity d.unitCost) := by
  refine map_perm_of_keys (f := (·.batchId)) (g := (·.batchId)) ?_ ?_ (fun a ha => ?_)
    (fun d hd => ?_)
  · exact h.orders.once.sublist (List.filter_sublist.map _)
  · exact h.stock.once.sublist (List.filter_sublist.map _)
  · obtain ⟨hmem, hline⟩ := List.mem_filter.mp ha
    obtain ⟨horder, hline⟩ := of_decide_eq_true hline
    obtain ⟨d, hd, hmeets, -⟩ := h.orders.met a hmem
    refine ⟨d, Terminal.mem_bookedFor.mpr ⟨hd, a, hmem, horder, hline, hmeets.batchId.symm⟩,
      hmeets.batchId, ?_⟩
    rw [hmeets.quantity, hmeets.unitCost]
  · obtain ⟨-, a, ha, horder, hline, hbatch⟩ := Terminal.mem_bookedFor.mp hd
    exact ⟨a, List.mem_filter.mpr ⟨ha, decide_eq_true ⟨horder, hline⟩⟩, hbatch.symm⟩

theorem bookedLine (h : Books t.log t.toProjections) {orderId lineId : Uuid}
    {order : PurchaseOrder} {progress : LineProgress} (horder : t.orders[orderId]? = some order)
    (hline : order.lines[lineId]? = some progress) :
    t.BookedLine orderId order lineId progress := by
  have hordered : ∀ d ∈ Terminal.bookedFor t.log orderId lineId,
      d.productId = progress.line.productId ∧ d.supplier = some order.supplier := by
    intro d hd
    obtain ⟨hmem, a, ha, rfl, rfl, hbatch⟩ := Terminal.mem_bookedFor.mp hd
    obtain ⟨met, hmet, hmeets, found, at', hfound, hat, hproduct, hsupplier⟩ := h.orders.met a ha
    -- the delivery the arrival was booked in with is this one
    cases List.inj_on_of_nodup_map h.stock.once hmet hmem (hmeets.batchId.trans hbatch)
    rw [horder] at hfound
    cases hfound
    rw [hline] at hat
    cases hat
    exact ⟨hproduct, hsupplier⟩
  refine ⟨?_, hordered, fun d hd => ?_, ?_⟩
  · have hholds := h.orders.covers orderId order horder lineId progress hline
    rw [Terminal.receiptsOn_receiptsFor, List.map_map, List.map_map] at hholds
    have hquantity := (perm_bookedFor orderId lineId h fun quantity _ => quantity.milli.val).sum_eq
    have hcharge := (perm_bookedFor orderId lineId h fun quantity unitCost =>
      Rounded.halfAway (unitCost.minor.val * quantity.milli.val) 1000).sum_eq
    exact ⟨hholds.received.trans hquantity, hholds.value.trans hcharge, hholds.currency⟩
  · obtain ⟨level, hlevel, hproduct⟩ := h.stock.shelved d (Terminal.mem_bookedFor.mp hd).1
    exact ⟨level, hlevel, by rw [hproduct, (hordered d hd).1]⟩
  · exact h.stock.once.sublist (List.filter_sublist.map _)

end Books

namespace Terminal

/-- **Two books**: in every run of a till by itself, restarts and failed calls among its steps, in
    which every event is read in its turn and deliveries are booked in by their call, every line of
    every order has the quantity and the value of the batches booked in for it, which are of what
    was ordered, from whom it was ordered, and on the shelf; and no batch is booked in for two
    lines. -/
theorem deliveries_booked {digests : Digests} {t : Terminal} (h : BookedRun digests t) :
    (∀ (orderId : Uuid) (order : PurchaseOrder) (lineId : Uuid) (progress : LineProgress),
      t.orders[orderId]? = some order → order.lines[lineId]? = some progress →
        t.BookedLine orderId order lineId progress) ∧
    ∀ d orderId lineId orderId' lineId', d ∈ bookedFor t.log orderId lineId →
      d ∈ bookedFor t.log orderId' lineId' → orderId' = orderId ∧ lineId' = lineId := by
  have hbooks := books_reachable h
  refine ⟨fun orderId order lineId progress => hbooks.bookedLine, ?_⟩
  intro d orderId lineId orderId' lineId' hd hd'
  obtain ⟨-, a, ha, rfl, rfl, hbatch⟩ := mem_bookedFor.mp hd
  obtain ⟨-, a', ha', rfl, rfl, hbatch'⟩ := mem_bookedFor.mp hd'
  cases List.inj_on_of_nodup_map hbooks.orders.once ha ha' (hbatch.trans hbatch'.symm)
  exact ⟨rfl, rfl⟩

/-! ### Four bags of ten -/

/-- What comes after everything that is stored is read in its turn. -/
theorem inTurn_of_later {t : Terminal} {occurredAt : Timestamp} {recorded : Uuid × DomainEvent}
    (h : ∀ e ∈ t.store.events, replayKey e ≤ toLex (occurredAt, recorded.1)) :
    t.InTurn occurredAt recorded :=
  fun e he _ _ hearlier => absurd hearlier (not_lt.mpr (h e he))

/-- A shop in Dhaka is set up. -/
def openShop : Call :=
  .recordOutlet (.configured 2
    { name := "Shop", profile := .grocery, currency := .bdt, timezone := "Asia/Dhaka",
      regime := .none, taxRegistration := none, address := "Road 1", scale := none,
      approval := none } (instant 1) 7) 99

/-- It orders ten bags of rice. -/
def orderRice : Call :=
  .recordPurchase (.placed 40 "Mill" none
    [⟨30, 12, ⟨I64.lit 10000⟩, ⟨I64.lit 40000, .bdt⟩⟩] none (instant 2) 7) 100

/-- Four of them arrive. -/
def fourReceived : Call :=
  .recordReceipt
    (.lineReceived 40 30 31 ⟨I64.lit 4000⟩ ⟨I64.lit 40000, .bdt⟩ (instant 3) 7)
    (.batchReceived 31 12 none none ⟨I64.lit 4000⟩ ⟨I64.lit 40000, .bdt⟩ (some "Mill")
      (instant 3) 7) 101 102

def shopTill : Terminal := (till3.perform plainDigests true (instant 1) openShop).1

def orderedTill : Terminal := (shopTill.perform plainDigests true (instant 2) orderRice).1

def deliveredTill : Terminal := (orderedTill.perform plainDigests true (instant 3) fourReceived).1

theorem orderedTill_run : BookedRun plainDigests orderedTill := by
  have hshop : BookedRun plainDigests shopTill := by
    refine .step (.call true (instant 1) openShop) (.init ⟨⟨1, 2, 3⟩, rfl⟩) ⟨⟨?_, trivial⟩, rfl⟩
    intro recorded hrecorded
    cases List.mem_singleton.mp hrecorded
    exact ⟨inTurn_of_later (by decide), fun id hid => by cases hid⟩
  refine .step (.call true (instant 2) orderRice) hshop ⟨⟨?_, rfl⟩, rfl⟩
  intro recorded hrecorded
  cases List.mem_singleton.mp hrecorded
  exact ⟨inTurn_of_later (by decide), fun id hid => by cases hid⟩

theorem deliveredTill_run : BookedRun plainDigests deliveredTill := by
  refine .step (.call true (instant 3) fourReceived) orderedTill_run ⟨⟨?_, ?_⟩, rfl⟩
  · intro recorded hrecorded
    rcases List.mem_pair.mp hrecorded with rfl | rfl
    · exact ⟨inTurn_of_later (by decide), fun id hid => by cases hid⟩
    · exact ⟨inTurn_of_later (by decide), fun id hid => by cases hid⟩
  · exact ⟨40, 30, 31, I64.lit 4000, I64.lit 40000, none, none, instant 3, instant 3, 7, rfl⟩

/-- The order says that four bags have arrived, of the batch that is on the shelf. -/
theorem deliveries_booked_fourReceived : ∃ order progress,
    deliveredTill.orders[(40 : Uuid)]? = some order ∧ order.lines[(30 : Uuid)]? = some progress ∧
      (bookedFor deliveredTill.log 40 30).map (·.batchId) = [31] ∧
        deliveredTill.BookedLine 40 order 30 progress :=
  ⟨_, _, rfl, rfl, rfl, (deliveries_booked deliveredTill_run).1 40 _ 30 _ rfl rfl⟩

end Terminal

end Sahl
