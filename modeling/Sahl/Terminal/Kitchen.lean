import Mathlib.Tactic
import Sahl.Core.Kitchen
import Sahl.Escpos.Receipt
import Sahl.Terminal.Gates
import Sahl.Terminal.HeldTickets

/-! # Sending an order to the kitchen

    A firing sends what the sale does not remember as sent, and cancels what it does remember and
    finds voided. It remembers the orders it sent and none of the cancellations. What the stations
    were told is what is on the order as long as no line that was sent is changed or voided
    (`fireKitchen_informs`). -/

namespace Sahl

/-! ## Section 1: Firing -/

inductive FireError where
  | request (error : RequestError)
  | badPaper (paper : String)
  deriving DecidableEq

/-- What happened when an order went to the stations. -/
structure FireOutcome where
  /-- Tickets sent, or that would have been sent had a printer been configured. -/
  tickets : List KitchenTicket
  printed : Bool
  reason : Option String

def paperWidth : String → Except FireError PaperWidth
  | "mm58" => .ok .mm58
  | "mm80" => .ok .mm80
  | other => .error (.badPaper other)

/-- The next round, which stops at the highest. -/
def nextRound (round : U32) : U32 := if h : round.val + 1 < 2 ^ 32 then ⟨round.val + 1, h⟩ else round

/-- The lines that some tickets order. -/
def orderedLines (tickets : List KitchenTicket) : List Uuid :=
  (tickets.filter (·.kind = .order)).flatMap fun ticket => ticket.lines.map (·.lineId)

/-- Print every ticket; a ticket that fails does not keep the others back. -/
def printAll (print : PaperWidth → KitchenTicket → Except String Unit) (paper : PaperWidth)
    (tickets : List KitchenTicket) : Bool × Option String :=
  tickets.foldl (fun (printed, reason) ticket =>
    match print paper ticket with
    | .ok _ => (printed, reason)
    | .error error => (false, some error)) (true, none)

namespace Terminal

/-- The clock the kitchen tickets are stamped with: the last settlement. -/
def nowForKitchen (t : Terminal) : Timestamp :=
  (t.book.sales.values.filterMap (·.settledAt)).max?.getD .epoch

/-- What each station has not yet been told about a sale. -/
def pendingKitchen (t : Terminal) (saleId : Uuid) : Except TerminalError (List KitchenTicket) := do
  let sale ← t.sale saleId
  let table := sale.seating.bind fun seating => t.floor.tables[seating.tableId]?.map (·.label)
  let round := nextRound sale.roundsFired
  let stationOf := fun productId => (t.catalogue.get productId).bind (·.station)
  .ok (pending sale sale.fired round t.nowForKitchen table stationOf ++
    cancellations sale sale.fired round t.nowForKitchen table stationOf)

def changeQuantity (digests : Digests) (t : Terminal) (at' : Moment) (saleId lineId : Uuid)
    (quantityMilli : I64) : Terminal × Except CommandError Sale :=
  t.applyCommand digests at'.writable at'.now (.lineQuantityChanged saleId lineId ⟨quantityMilli⟩)
    at'.eventId

/-- The till can write to a ticket: the database takes the write, and the ticket is open and held by
    no other device. -/
structure CanWrite (t : Terminal) (at' : Moment) (sale : Sale) : Prop where
  writable : at'.writable = true
  isOpen : sale.status = .open
  free : ∀ holder, sale.mayWrite t.identity.deviceId at'.now ≠ .held holder

/-- Record which lines the tickets order, if they order any. -/
def recordFired (digests : Digests) (t : Terminal) (at' : Moment) (saleId firedBy : Uuid)
    (tickets : List KitchenTicket) : Terminal × Except TerminalError (List (EventEnvelope Payload)) :=
  if orderedLines tickets = [] then (t, .ok [])
  else
    t.record digests at'.writable at'.now
      (.linesFired saleId (orderedLines tickets) ((tickets.head?.map (·.round)).getD 1) at'.now
        firedBy) at'.eventId

end Terminal

namespace AttendedTerminal

section Fire

variable (digests : Digests) (print : PaperWidth → KitchenTicket → Except String Unit)
  (t : AttendedTerminal) (at' : Moment) (saleId : Uuid)

/-- Record the tickets, then print them; a printer that fails undoes nothing. -/
def sendTickets (firedBy : Uuid) (paper : PaperWidth) (tickets : List KitchenTicket) :
    AttendedTerminal × Except FireError FireOutcome :=
  match t.toTerminal.recordFired digests at' saleId firedBy tickets with
  | (terminal, .error error) =>
    ({ t with toTerminal := terminal }, .error (.request (.command (.terminal error))))
  | (terminal, .ok _) =>
    let (printed, reason) := printAll print paper tickets
    ({ t with toTerminal := terminal }, .ok { tickets, printed, reason })

/-- Send everything new to its station. -/
def fireKitchen (paper : String) : AttendedTerminal × Except FireError FireOutcome :=
  match t.signedIn at' with
  | .error error => (t, .error (.request error))
  | .ok firedBy =>
    match paperWidth paper with
    | .error error => (t, .error error)
    | .ok paper =>
      match t.pendingKitchen saleId with
      | .error error => (t, .error (.request (.command (.terminal error))))
      | .ok [] => (t, .ok { tickets := [], printed := true, reason := none })
      | .ok tickets => t.sendTickets digests print at' saleId firedBy paper tickets

end Fire

end AttendedTerminal

/-! ## Section 2: A ticket at a counter -/

/-- What is done to an open ticket. -/
inductive TicketAction where
  | addLine (request : AddLine) (lineId : Uuid)
  | changeQuantity (lineId : Uuid) (quantityMilli : I64)
  | voidLine (lineId : Uuid) (reason pin : String)
  | fireKitchen (paper : String)

/-- A till, and every ticket its stations were given for one sale. -/
structure Counter where
  till : AttendedTerminal
  sent : List KitchenTicket

namespace Counter

variable (digests : Digests) (verify : PinVerify)
  (print : PaperWidth → KitchenTicket → Except String Unit) (saleId : Uuid)

/-- A till with the ticket open, of which nothing was sent yet. -/
structure Start (c : Counter) : Prop where
  till : Transition.Reachable Terminal.Fresh (Terminal.step digests) c.till.toTerminal
  sale : ∃ sale, c.till.book.sales[saleId]? = some sale ∧ sale.fired = []
  sent : c.sent = []

def step (c : Counter) : Moment × TicketAction → Counter → Prop
  | (at', .addLine request lineId), c' => request.saleId = saleId ∧
    c' = { c with till := { c.till with
      toTerminal := (c.till.addLine digests at'.writable at'.now request lineId at'.eventId).1 } }
  | (at', .changeQuantity lineId quantityMilli), c' =>
    c' = { c with till := { c.till with
      toTerminal := (c.till.changeQuantity digests at' saleId lineId quantityMilli).1 } }
  | (at', .voidLine lineId reason pin), c' =>
    c' = { c with till := (c.till.request verify at' digests (.voidLine saleId lineId reason pin)).1 }
  | (at', .fireKitchen paper), c' =>
    c' = ⟨(c.till.fireKitchen digests print at' saleId paper).1, c.sent ++
      match (c.till.fireKitchen digests print at' saleId paper).2 with
      | .ok outcome => outcome.tickets
      | .error _ => []⟩

/-- Nothing is changed about a line that was sent: neither its quantity, by hand or by a tap that
    merges into it, nor whether it is on the order. A call that is refused changes nothing. -/
def LeavesSent (c : Counter) (action : Moment × TicketAction) : Prop :=
  ∀ sale, c.till.book.sales[saleId]? = some sale → c.till.CanWrite action.1 sale →
    match action.2 with
    | .addLine request _ => ∀ supply, c.till.askedSupply request = .ok supply →
        ∀ line ∈ sale.mergeable supply, line.id ∈ sale.fired →
          (line.quantity.checkedAdd ⟨request.quantityMilli⟩).isOkay → request.quantityMilli.val = 0
    | .changeQuantity lineId quantityMilli => lineId ∈ sale.fired →
        ∀ line ∈ sale.lines, line.id = lineId → line.quantity.milli = quantityMilli
    | .voidLine lineId reason pin => lineId ∈ sale.fired →
        ∃ error, c.till.ask verify action.1 (.voidLine saleId lineId reason pin) = .error error
    | .fireKitchen _ => True

end Counter

/-! ## Section 3: What a firing sends -/

/-- Only the orders name the lines that a firing remembers. -/
theorem mem_orderedLines {sale : Sale} {fired : List Uuid} {round : U32} {at' : Timestamp}
    {table : Option String} {stationOf : Uuid → Option Station} {lineId : Uuid} :
    lineId ∈ orderedLines (pending sale fired round at' table stationOf) ↔
      ∃ line ∈ sale.activeLines.filter (·.id ∉ fired), line.id = lineId := by
  have hall : (pending sale fired round at' table stationOf).filter (·.kind = .order) =
      pending sale fired round at' table stationOf := by
    rw [List.filter_eq_self]
    intro ticket hticket
    obtain ⟨station, -, rfl⟩ := List.mem_map.mp (List.mem_of_mem_filter hticket)
    rfl
  unfold orderedLines
  rw [hall, List.mem_flatMap]
  simp only [List.mem_map]
  exact mem_ticketsFor

/-- Recording a firing fails and changes no sale, or adds the ordered lines to what was sent. -/
theorem Terminal.recordFired_cases (digests : Digests) (t : Terminal) (at' : Moment)
    {saleId : Uuid} (firedBy : Uuid) (tickets : List KitchenTicket) {sale : Sale}
    (hsale : t.book.sales[saleId]? = some sale) :
    (∃ t' error, t.recordFired digests at' saleId firedBy tickets = (t', .error error) ∧
      t'.book = t.book) ∨
    ∃ t' es sale', t.recordFired digests at' saleId firedBy tickets = (t', .ok es) ∧
      t'.book.sales[saleId]? = some sale' ∧ sale'.lines = sale.lines ∧
      ∀ lineId, lineId ∈ sale'.fired ↔ lineId ∈ sale.fired ∨ lineId ∈ orderedLines tickets := by
  unfold recordFired
  by_cases hnone : orderedLines tickets = []
  · rw [if_pos hnone, hnone]
    exact .inr ⟨t, [], sale, rfl, hsale, rfl, by simp⟩
  · rw [if_neg hnone]
    let event : SaleEvent := .linesFired saleId (orderedLines tickets)
      ((tickets.head?.map (·.round)).getD 1) at'.now firedBy
    rcases record_cases digests at'.writable at'.now t event at'.eventId hsale with
      ⟨t', error, hrecord, hbook⟩ | ⟨t', es, sale', hrecord, -, happly, hstored⟩
    · exact .inl ⟨t', error, hrecord, hbook⟩
    · obtain ⟨-, htransition, -⟩ := Sale.apply_eq_ok happly
      cases htransition
      exact .inr ⟨t', es, _, hrecord, hstored, rfl, fun lineId => mem_fired⟩

namespace AttendedTerminal

variable {digests : Digests} {print : PaperWidth → KitchenTicket → Except String Unit}
  {t : AttendedTerminal} {at' : Moment} {saleId : Uuid}

/-- A firing stops before it sends anything, or sends what is pending, be it nothing. -/
theorem fireKitchen_cases (digests : Digests)
    (print : PaperWidth → KitchenTicket → Except String Unit) (t : AttendedTerminal) (at' : Moment)
    (saleId : Uuid) (paper : String) :
    (∃ error, t.fireKitchen digests print at' saleId paper = (t, .error error)) ∨
    ∃ firedBy width tickets, t.pendingKitchen saleId = .ok tickets ∧
      t.fireKitchen digests print at' saleId paper =
        t.sendTickets digests print at' saleId firedBy width tickets := by
  unfold fireKitchen
  cases t.signedIn at' with
  | error error => exact .inl ⟨_, rfl⟩
  | ok firedBy =>
    cases paperWidth paper with
    | error error => exact .inl ⟨_, rfl⟩
    | ok width =>
      cases t.pendingKitchen saleId with
      | error error => exact .inl ⟨_, rfl⟩
      | ok tickets =>
        refine .inr ⟨firedBy, width, tickets, rfl, ?_⟩
        -- where nothing is pending, sending it records and prints nothing
        cases tickets with
        | nil => rfl
        | cons ticket tickets => rfl

/-- A till that fires does nothing a till cannot do. -/
theorem fireKitchen_reachable
    (h : Transition.Reachable Terminal.Fresh (Terminal.step digests) t.toTerminal)
    (paper : String) :
    Transition.Reachable Terminal.Fresh (Terminal.step digests)
      (t.fireKitchen digests print at' saleId paper).1.toTerminal := by
  rcases fireKitchen_cases digests print t at' saleId paper with
    ⟨error, hfire⟩ | ⟨firedBy, width, tickets, -, hfire⟩
  · rw [hfire]
    exact h
  · rw [hfire]
    have hrecorded : Transition.Reachable Terminal.Fresh (Terminal.step digests)
        (t.toTerminal.recordFired digests at' saleId firedBy tickets).1 := by
      unfold Terminal.recordFired
      split
      · exact h
      · exact .step (.call at'.writable at'.now (.record _ at'.eventId)) h rfl
    unfold sendTickets
    split
    all_goals
      rename_i heq
      rw [heq] at hrecorded
      exact hrecorded

/-- Where the stations know of the lines that were sent, a firing fails and changes nothing, or
    tells them the rest. -/
theorem fireKitchen_informed
    (h : Transition.Reachable Terminal.Fresh (Terminal.step digests) t.toTerminal)
    {sale : Sale} {sent : List KitchenTicket} (hsale : t.book.sales[saleId]? = some sale)
    (hinformed : Informed sale sent) (paper : String) :
    ((∃ error, (t.fireKitchen digests print at' saleId paper).2 = .error error) ∧
      (t.fireKitchen digests print at' saleId paper).1.book.sales[saleId]? = some sale) ∨
    ∃ outcome sale', (t.fireKitchen digests print at' saleId paper).2 = .ok outcome ∧
      (t.fireKitchen digests print at' saleId paper).1.book.sales[saleId]? = some sale' ∧
      Informed sale' (sent ++ outcome.tickets) ∧
      ∀ line ∈ sale'.lines, line.isActive → line.id ∈ sale'.fired := by
  have hd : sale.LinesDistinct := (Terminal.book_reached h _ _ hsale).linesDistinct
  rcases fireKitchen_cases digests print t at' saleId paper with
    ⟨error, hfire⟩ | ⟨firedBy, width, tickets, htickets, hfire⟩
  · rw [hfire]
    exact .inl ⟨⟨error, rfl⟩, hsale⟩
  rw [hfire]
  -- nothing is cancelled, so the tickets are the orders
  simp only [Terminal.pendingKitchen, Terminal.sale, hsale, Except.okOr, bind, Except.bind]
    at htickets
  rw [hinformed.cancellations_eq_nil hd, List.append_nil] at htickets
  cases htickets
  set table := sale.seating.bind fun seating => t.floor.tables[seating.tableId]?.map (·.label)
  set stationOf := fun productId => (t.catalogue.get productId).bind (·.station)
  set tickets := pending sale sale.fired (nextRound sale.roundsFired) t.nowForKitchen table stationOf
  unfold sendTickets
  rcases Terminal.recordFired_cases digests t.toTerminal at' firedBy tickets hsale with
    ⟨t', error, hrecord, hbook⟩ | ⟨t', es, sale', hrecord, hstored, hlines, hfired⟩
  · rw [hrecord]
    refine .inl ⟨⟨_, rfl⟩, ?_⟩
    show t'.book.sales[saleId]? = some sale
    rw [hbook]
    exact hsale
  · rw [hrecord]
    refine .inr ⟨_, sale', rfl, hstored, ?_, fun line hline hactive => ?_⟩
    · refine hinformed.fire hd hlines fun lineId => ?_
      rw [hfired, mem_orderedLines]
    · rw [hfired, mem_orderedLines]
      rw [hlines] at hline
      by_cases hbefore : line.id ∈ sale.fired
      · exact .inl hbefore
      · refine .inr ⟨line, ?_, rfl⟩
        exact List.mem_filter.mpr ⟨List.mem_filter.mpr ⟨hline, hactive⟩, by simpa using hbefore⟩

/-- Where every line of the order was sent and the stations know of it, there is nothing to
    send. -/
theorem fireKitchen_again
    (h : Transition.Reachable Terminal.Fresh (Terminal.step digests) t.toTerminal)
    {sale : Sale} {sent : List KitchenTicket} (hsale : t.book.sales[saleId]? = some sale)
    (hinformed : Informed sale sent)
    (hall : ∀ line ∈ sale.lines, line.isActive → line.id ∈ sale.fired) {paper : String}
    {t' : AttendedTerminal} {outcome : FireOutcome}
    (hfire : t.fireKitchen digests print at' saleId paper = (t', .ok outcome)) :
    outcome.tickets = [] := by
  have hd : sale.LinesDistinct := (Terminal.book_reached h _ _ hsale).linesDistinct
  rcases fireKitchen_cases digests print t at' saleId paper with
    ⟨error, hfailed⟩ | ⟨firedBy, width, tickets, htickets, hsent⟩
  · rw [hfailed] at hfire
    cases hfire
  · simp only [Terminal.pendingKitchen, Terminal.sale, hsale, Except.okOr, bind, Except.bind]
      at htickets
    rw [hinformed.cancellations_eq_nil hd, Informed.pending_eq_nil hall] at htickets
    cases htickets
    rw [hsent] at hfire
    cases hfire
    rfl

end AttendedTerminal

/-! ## Section 4: Runs that leave alone what was sent -/

namespace Counter

variable {digests : Digests} {verify : PinVerify}
  {print : PaperWidth → KitchenTicket → Except String Unit} {saleId : Uuid}

/-- The stations of a counter know of the lines that were sent. -/
structure Inv (digests : Digests) (saleId : Uuid) (c : Counter) : Prop where
  till : Transition.Reachable Terminal.Fresh (Terminal.step digests) c.till.toTerminal
  informed : ∃ sale, c.till.book.sales[saleId]? = some sale ∧ Informed sale c.sent

theorem inv_of_start {c : Counter} (h : Start digests saleId c) : Inv digests saleId c := by
  obtain ⟨sale, hsale, hfired⟩ := h.sale
  refine ⟨h.till, sale, hsale, ?_, ?_⟩
  · intro lineId hmem
    rw [hfired] at hmem
    cases hmem
  · intro lineId _
    rw [h.sent]
    rfl

/-- An event whose moves all leave the stations informed leaves them informed, recorded or not. -/
theorem record_informed {t : Terminal} {at' : Moment} {event : SaleEvent} {eventId : Uuid}
    {sale : Sale} {sent : List KitchenTicket} (hwrites : event.writesTicket = true)
    (hterminal : event.isTerminal = false) (hsale : t.book.sales[event.saleId]? = some sale)
    (h : Informed sale sent)
    (hmoves : ∀ sale', t.CanWrite at' sale → sale.Moved event sale' → Informed sale' sent) :
    ∃ sale', (t.record digests at'.writable at'.now event eventId).1.book.sales[event.saleId]? =
      some sale' ∧ Informed sale' sent := by
  rcases Terminal.record_cases digests at'.writable at'.now t event eventId hsale with
    ⟨t', error, hrecord, hbook⟩ | ⟨t', es, sale', hrecord, ⟨hwritable, hmay⟩, happly, hstored⟩
  · rw [hrecord]
    refine ⟨sale, ?_, h⟩
    show t'.book.sales[event.saleId]? = some sale
    rw [hbook]
    exact hsale
  · rw [hrecord]
    obtain ⟨-, htransition, hopen⟩ := Sale.apply_eq_ok happly
    have hcan : t.CanWrite at' sale := by
      refine ⟨hwritable, hopen.resolve_left (by simp [hterminal]), fun holder hheld => ?_⟩
      rw [Terminal.assertMayWrite_of_held hwrites hsale hheld] at hmay
      cases hmay
    exact ⟨sale', hstored, hmoves sale' hcan (Sale.transition_moved htransition)⟩

theorem quantityChanged_informed {sale sale' : Sale} {sent : List KitchenTicket}
    (h : Informed sale sent) {lineId : Uuid} {quantity : Quantity}
    (hkeeps : lineId ∈ sale.fired → ∀ line ∈ sale.lines, line.id = lineId →
      line.quantity = quantity)
    (hmoved : sale.Moved (.lineQuantityChanged saleId lineId quantity) sale') :
    Informed sale' sent := by
  cases hmoved with
  | lineQuantityChanged hlines =>
    refine h.updated hlines fun hfired line hline hid line' hline' => ?_
    cases hline'
    exact ⟨rfl, rfl, (hkeeps hfired line hline hid).symm⟩

/-- Recording an event of the sale is a step of the till. -/
theorem Inv.record {c : Counter} (h : Inv digests saleId c) (at' : Moment) {event : SaleEvent}
    (eventId : Uuid) (hid : event.saleId = saleId) (hwrites : event.writesTicket = true)
    (hterminal : event.isTerminal = false)
    (hmoves : ∀ sale sale', c.till.book.sales[saleId]? = some sale → c.till.CanWrite at' sale →
      Informed sale c.sent → sale.Moved event sale' → Informed sale' c.sent) :
    Inv digests saleId { c with till := { c.till with
      toTerminal := (c.till.record digests at'.writable at'.now event eventId).1 } } := by
  obtain ⟨sale, hsale, hinformed⟩ := h.informed
  subst hid
  refine ⟨.step (.call at'.writable at'.now (.record event eventId)) h.till rfl, ?_⟩
  exact record_informed hwrites hterminal hsale hinformed
    fun sale' hcan => hmoves sale sale' hsale hcan hinformed

theorem inv_addLine {c : Counter} (h : Inv digests saleId c) {at' : Moment} {request : AddLine}
    {lineId : Uuid} (hrequest : request.saleId = saleId)
    (hleaves : c.LeavesSent verify saleId (at', .addLine request lineId)) :
    Inv digests saleId { c with till := { c.till with
      toTerminal :=
        (c.till.addLine digests at'.writable at'.now request lineId at'.eventId).1 } } := by
  unfold Terminal.addLine
  cases hevent : c.till.addLineEvent request lineId with
  | error error => exact h
  | ok event =>
    simp only [Terminal.addLineEvent, Except.bind_eq_ok, Except.mapError_eq_ok] at hevent
    obtain ⟨supply, hsupply, asked, hasked, hevent⟩ := hevent
    have hstored : c.till.book.sales[saleId]? = some asked := by
      rw [← hrequest]
      exact Except.okOr_eq_ok.mp hasked
    show Inv digests saleId { c with till := { c.till with
      toTerminal := (c.till.applyCommand digests at'.writable at'.now event at'.eventId).1 } }
    rw [Terminal.applyCommand_fst]
    cases hline : asked.mergeable supply with
    | none =>
      rw [hline] at hevent
      cases hevent
      refine h.record _ _ hrequest rfl rfl fun sale sale' hsale hcan hinformed hmoved => ?_
      generalize hadded : SaleEvent.lineAdded _ _ _ _ _ _ _ _ = added at hmoved
      cases hmoved with
      | lineAdded => exact hinformed.lineAdded _
      | _ => cases hadded
    | some line =>
      simp only [hline, Except.bind_eq_ok, Except.mapError_eq_ok] at hevent
      obtain ⟨raised, hraised, hevent⟩ := hevent
      cases hevent
      refine h.record _ _ hrequest rfl rfl fun sale sale' hsale hcan hinformed hmoved => ?_
      rw [hstored] at hsale
      cases hsale
      -- a tap that merges into a line that was sent adds nothing to it
      refine quantityChanged_informed hinformed (fun hfired other hother hid => ?_) hmoved
      have hd := (Terminal.book_reached h.till _ _ hstored).linesDistinct
      rw [hd.eq hother (Sale.mergeable_eq_some hline).1 hid]
      have hzero := hleaves asked hstored hcan supply hsupply line hline hfired
        (Except.isOkay_iff.mpr ⟨raised, hraised⟩)
      have hvalue := Quantity.checkedAdd_eq_ok.mp hraised
      have hsame : raised.milli = line.quantity.milli := SInt.ext (by
        rw [hvalue, hzero, add_zero])
      cases raised
      cases hsame
      rfl

theorem inv_changeQuantity {c : Counter} (h : Inv digests saleId c) {at' : Moment} {lineId : Uuid}
    {quantityMilli : I64}
    (hleaves : c.LeavesSent verify saleId (at', .changeQuantity lineId quantityMilli)) :
    Inv digests saleId { c with till := { c.till with
      toTerminal := (c.till.changeQuantity digests at' saleId lineId quantityMilli).1 } } := by
  unfold Terminal.changeQuantity
  rw [Terminal.applyCommand_fst]
  refine h.record _ _ rfl rfl rfl fun sale sale' hsale hcan hinformed hmoved => ?_
  refine quantityChanged_informed hinformed (fun hfired line hline hid => ?_) hmoved
  have hsame := hleaves sale hsale hcan hfired line hline hid
  rw [← hsame]

theorem inv_voidLine {c : Counter} (h : Inv digests saleId c) {at' : Moment} {lineId : Uuid}
    {reason pin : String}
    (hleaves : c.LeavesSent verify saleId (at', .voidLine lineId reason pin)) :
    Inv digests saleId
      { c with till := (c.till.request verify at' digests (.voidLine saleId lineId reason pin)).1 } := by
  unfold AttendedTerminal.request
  cases hasked : c.till.ask verify at' (.voidLine saleId lineId reason pin) with
  | error error => exact h
  | ok call =>
    have hcall := hasked
    simp only [AttendedTerminal.ask, AttendedTerminal.voidLine, Except.bind_eq_ok] at hcall
    obtain ⟨why, -, value, -, authorizedBy, -, hcall⟩ := hcall
    cases hcall
    refine h.record _ _ rfl rfl rfl fun sale sale' hsale hcan hinformed hmoved => ?_
    cases hmoved with
    | lineVoided hlines =>
      refine hinformed.updated hlines fun hfired => ?_
      -- a void that is not refused is of a line that was not sent
      obtain ⟨error, hrefused⟩ := hleaves sale hsale hcan hfired
      rw [hasked] at hrefused
      cases hrefused

theorem inv_fireKitchen {c : Counter} (h : Inv digests saleId c) (at' : Moment) (paper : String) :
    Inv digests saleId ⟨(c.till.fireKitchen digests print at' saleId paper).1, c.sent ++
      match (c.till.fireKitchen digests print at' saleId paper).2 with
      | .ok outcome => outcome.tickets
      | .error _ => []⟩ := by
  obtain ⟨sale, hsale, hinformed⟩ := h.informed
  refine ⟨AttendedTerminal.fireKitchen_reachable h.till paper, ?_⟩
  rcases AttendedTerminal.fireKitchen_informed h.till hsale hinformed paper with
    ⟨⟨error, hfailed⟩, hstored⟩ | ⟨outcome, sale', hfired, hstored, hinformed', -⟩
  · rw [hfailed, List.append_nil]
    exact ⟨sale, hstored, hinformed⟩
  · rw [hfired]
    exact ⟨sale', hstored, hinformed'⟩

/-- In every run that leaves alone what was sent, the stations know of the lines that were sent. -/
theorem inv_reachable {c : Counter} (h : Transition.Reachable (Start digests saleId)
    (Transition.Guarded (step digests verify print saleId) (LeavesSent verify saleId)) c) :
    Inv digests saleId c := by
  refine h.invariant (fun _ => inv_of_start) fun c action c' hc hstep => ?_
  obtain ⟨hleaves, hstep⟩ := hstep
  obtain ⟨at', action⟩ := action
  cases action with
  | addLine request lineId =>
    obtain ⟨hrequest, rfl⟩ := hstep
    exact inv_addLine hc hrequest hleaves
  | changeQuantity lineId quantityMilli =>
    cases hstep
    exact inv_changeQuantity hc hleaves
  | voidLine lineId reason pin =>
    cases hstep
    exact inv_voidLine hc hleaves
  | fireKitchen paper =>
    cases hstep
    exact inv_fireKitchen hc at' paper

/-- **The kitchen is told exactly what is on the ticket**: in every run that leaves alone what was
    sent, whatever is on the order after a firing is what the stations were told in all, and
    another firing has nothing to send. -/
theorem fireKitchen_informs {c : Counter} (h : Transition.Reachable (Start digests saleId)
    (Transition.Guarded (step digests verify print saleId) (LeavesSent verify saleId)) c)
    {at' : Moment} {paper : String} {till : AttendedTerminal} {outcome : FireOutcome}
    (hfire : c.till.fireKitchen digests print at' saleId paper = (till, .ok outcome)) :
    (∃ sale, till.sale saleId = .ok sale ∧ ∀ line ∈ sale.lines,
      told (c.sent ++ outcome.tickets) line.id =
        if line.isActive then line.quantity.milli.val else 0) ∧
    ∀ at' paper till' outcome',
      till.fireKitchen digests print at' saleId paper = (till', .ok outcome') →
        outcome'.tickets = [] := by
  have hc := inv_reachable h
  obtain ⟨sale, hsale, hinformed⟩ := hc.informed
  have htill := @AttendedTerminal.fireKitchen_reachable _ print _ at' saleId hc.till paper
  -- the invariant says what was told before; the firing tells the rest
  rcases @AttendedTerminal.fireKitchen_informed _ print _ at' _ hc.till _ _ hsale hinformed paper
    with ⟨⟨error, hfailed⟩, -⟩ | ⟨outcome', sale', hfired, hstored, hinformed', hall⟩
  · rw [hfire] at hfailed
    cases hfailed
  rw [hfire] at hfired hstored htill
  cases hfired
  have hd := (Terminal.book_reached htill _ _ hstored).linesDistinct
  refine ⟨⟨sale', Except.okOr_eq_ok.mpr hstored, fun line hline => ?_⟩, ?_⟩
  · exact hinformed'.told_eq hd hall hline
  · intro at'' paper' till' outcome' hagain
    exact AttendedTerminal.fireKitchen_again htill hstored hinformed' hall hagain

/-! ### An order of rice -/

open Terminal (plainDigests instant till3 openSale addRice)

/-- A manager is at the till, with one rice on an open ticket. -/
def riceOrder : Counter where
  till := ⟨till3.performAll plainDigests
    [(true, instant 0, .recordStaff habibEnrolled 100), (true, instant 1, .record openSale 101),
     (true, instant 2, .record addRice 102)], .signedIn ⟨1, .manager, instant 2, instant 2⟩⟩
  sent := []

/-- An instant at which the event recorded has this id. -/
def orderTime (eventId : Uuid) : Moment where
  now := instant 3
  writable := true
  eventId
  newId := 300
  formIds := ⟨fun n => .fromU128 (400 + n), fun m n => .fromU128 (500 + 256 * m + n)⟩
  derive pin := .ok ("$argon2id$" ++ pin)

/-- A printer that always prints. -/
def printer : PaperWidth → KitchenTicket → Except String Unit := fun _ _ => .ok ()

theorem riceOrder_start : Start plainDigests 20 riceOrder where
  till := Terminal.performAll_run _ (.init ⟨_, rfl⟩)
  sale := by
    have hfired : riceOrder.till.book.sales[(20 : Uuid)]?.map (·.fired) = some [] := by
      decide +kernel
    exact Option.map_eq_some_iff.mp hfired
  sent := rfl

/-- The order is sent. -/
def firing (c : Counter) (eventId : Uuid) : AttendedTerminal × Except FireError FireOutcome :=
  c.till.fireKitchen plainDigests printer (orderTime eventId) 20 "mm80"

theorem firing_eq_ok {c : Counter} {eventId : Uuid} (h : (firing c eventId).2.isOkay) :
    ∃ outcome, firing c eventId = ((firing c eventId).1, .ok outcome) := by
  obtain ⟨outcome, houtcome⟩ := Except.isOkay_iff.mp h
  exact ⟨outcome, Prod.ext rfl houtcome⟩

theorem fireKitchen_informs_rice :
    ∃ outcome, firing riceOrder 103 = ((firing riceOrder 103).1, .ok outcome) ∧
      (∃ sale, (firing riceOrder 103).1.sale 20 = .ok sale ∧ ∀ line ∈ sale.lines,
        told (riceOrder.sent ++ outcome.tickets) line.id =
          if line.isActive then line.quantity.milli.val else 0) ∧
      ∀ at' paper till' outcome',
        (firing riceOrder 103).1.fireKitchen plainDigests printer at' 20 paper =
          (till', .ok outcome') → outcome'.tickets = [] := by
  obtain ⟨outcome, hfire⟩ := @firing_eq_ok riceOrder 103 (by decide +kernel)
  exact ⟨outcome, hfire, @fireKitchen_informs _ plainVerify _ _ _ (.init riceOrder_start) _ _ _ _ hfire⟩

def afterFiring (c : Counter) (eventId : Uuid) : Counter :=
  ⟨(firing c eventId).1, c.sent ++
    match (firing c eventId).2 with
    | .ok outcome => outcome.tickets
    | .error _ => []⟩

/-- One rice was sent, and then two are wanted. -/
def twoWanted : Counter where
  till := { (afterFiring riceOrder 103).till with
    toTerminal := ((afterFiring riceOrder 103).till.changeQuantity plainDigests (orderTime 104) 20
      11 (I64.lit 2000)).1 }
  sent := (afterFiring riceOrder 103).sent

/-- One rice was sent, and then it is voided. -/
def noneWanted : Counter where
  till := ((afterFiring riceOrder 103).till.request plainVerify (orderTime 104) plainDigests
    (.voidLine 20 11 "mistake" "5294")).1
  sent := (afterFiring riceOrder 103).sent

/-- What the stations were told of the rice and what the ticket asks for, after a firing, and how
    many tickets the firing sent. -/
def riceTold (c : Counter) (eventId : Uuid) : Int × Option (List Int) × Option Nat :=
  (told (afterFiring c eventId).sent 11,
    (afterFiring c eventId).till.book.sales[(20 : Uuid)]?.map fun sale =>
      sale.activeLines.map (·.quantity.milli.val),
    (firing c eventId).2.toOption.map (·.tickets.length))

/-- A second rice is never ordered; a rice that is voided is cancelled by every firing. -/
theorem sent_line_changed :
    (Transition.Reachable (Start plainDigests 20) (step plainDigests plainVerify printer 20)
        twoWanted ∧ riceTold twoWanted 105 = (1000, some [2000], some 0)) ∧
      Transition.Reachable (Start plainDigests 20) (step plainDigests plainVerify printer 20)
        noneWanted ∧ riceTold noneWanted 105 = (0, some [], some 1) ∧
      riceTold (afterFiring noneWanted 105) 106 = (-1000, some [], some 1) := by
  have hsent : Transition.Reachable (Start plainDigests 20)
      (step plainDigests plainVerify printer 20) (afterFiring riceOrder 103) :=
    .step (orderTime 103, .fireKitchen "mm80") (.init riceOrder_start) rfl
  refine ⟨⟨?_, by decide +kernel⟩, ?_, by decide +kernel, by decide +kernel⟩
  · exact .step (orderTime 104, .changeQuantity 11 (I64.lit 2000)) hsent rfl
  · exact .step (orderTime 104, .voidLine 11 "mistake" "5294") hsent rfl

end Counter

end Sahl
