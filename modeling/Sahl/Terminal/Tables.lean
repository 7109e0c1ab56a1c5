import Mathlib.Tactic
import Sahl.Core.FloorLabels
import Sahl.Terminal.Gates

/-! # Tables and the tickets at them

    Which tables are taken follows from the open tickets; whether a table is in service stands in
    the floor plan. A table is not taken out of service while a ticket sits at it, and no ticket is
    seated where another one sits. Seating does not ask whether the table is in service: every open
    ticket can be found as long as none is seated at a table that is not (`everyTicketFound`). -/

namespace Sahl

/-! ## Section 1: The commands -/

/-- Why a ticket command records nothing. -/
inductive TicketError where
  | request (error : RequestError)
  | unknownTable
  /-- Another ticket sits there. -/
  | tableTaken
  deriving DecidableEq

/-- The event that seats a ticket, or moves it. -/
def SaleEvent.isSeating : SaleEvent → Bool
  | seated .. => true
  | _ => false

namespace Terminal

/-- The tickets still open, in the order of their ids. -/
def openTickets (t : Terminal) : List Sale := t.book.sales.values.filter (·.status = .open)

/-- Which open ticket sits at each table; of two at one table the last. -/
def occupiedTables (t : Terminal) : UuidMap Uuid :=
  let seated := t.openTickets.filterMap fun sale =>
    sale.seating.map fun seating => (seating.tableId, sale.id)
  seated.foldl (fun tables entry => tables.insert entry.1 entry.2) ∅

/-- The fiscal regime of the outlet. -/
def regime (t : Terminal) : String := (t.outlet.map (·.regime.label)).getD "none"

end Terminal

namespace AttendedTerminal

section Commands

variable (digests : Digests) (t : AttendedTerminal) (at' : Moment)

/-- Record what a ticket command comes to. -/
def ticketCommand (event : Except TicketError SaleEvent) :
    AttendedTerminal × Except TicketError Sale :=
  match event with
  | .error error => (t, .error error)
  | .ok event =>
    let (terminal, answer) :=
      t.toTerminal.applyCommand digests at'.writable at'.now event at'.eventId
    ({ t with toTerminal := terminal },
      answer.mapError (TicketError.request ∘ RequestError.command))

def openSaleEvent : Except TicketError SaleEvent := do
  let cashierId ← (t.signedIn at').mapError TicketError.request
  let currency ← t.outletCurrency.mapError TicketError.request
  .ok (.opened at'.newId cashierId currency .taxInclusive .halfUp)

/-- Seat a ticket at a table, or move it to another one. -/
def seatSaleEvent (saleId tableId : Uuid) (covers : U32) : Except TicketError SaleEvent := do
  let seatedBy ← (t.signedIn at').mapError TicketError.request
  if t.floor.tables[tableId]?.isNone then .error .unknownTable
  else if t.occupiedTables[tableId]?.any (· ≠ saleId) then .error .tableTaken
  else .ok (.seated saleId tableId covers at'.now seatedBy)

def abandonSaleEvent (saleId : Uuid) : Except TicketError SaleEvent := do
  let abandonedBy ← (t.signedIn at').mapError TicketError.request
  .ok (.abandoned saleId abandonedBy)

/-- What closes a sale: the total and the change are the till's own. -/
def completeSaleEvent (saleId : Uuid) : Except TicketError (SaleEvent × Uuid) := do
  let cashierId ← (t.signedIn at').mapError TicketError.request
  let sale ← (t.askedSale saleId).mapError TicketError.request
  let rejected := TicketError.request ∘ RequestError.command ∘ CommandError.terminal ∘
    TerminalError.sale
  let totals ← sale.totals.mapError rejected
  let change ← sale.changeDue.mapError rejected
  .ok (.completed saleId totals.total change at'.now, cashierId)

/-- Close a sale, and issue its invoice. -/
def completeSaleCommand (saleId : Uuid) : AttendedTerminal × Except TicketError Sale :=
  match t.completeSaleEvent at' saleId with
  | .error error => (t, .error error)
  | .ok (event, cashierId) =>
    let (terminal, answer) := t.toTerminal.completeSale digests at'.writable at'.now event t.regime
      cashierId at'.eventId at'.newId
    ({ t with toTerminal := terminal }, do
      let _ ← answer.mapError (TicketError.request ∘ RequestError.command ∘ CommandError.terminal)
      (terminal.sale saleId).mapError
        (TicketError.request ∘ RequestError.command ∘ CommandError.terminal))

end Commands

/-! ## Section 2: A floor at work -/

/-- What is done with tickets and tables. -/
inductive FloorAction where
  | openSale
  | seatSale (saleId tableId : Uuid) (covers : U32)
  | completeSale (saleId : Uuid)
  | abandonSale (saleId : Uuid)
  | setTableActive (tableId : Uuid) (active : Bool) (pin : String)
  | saveTable (tableId : Option Uuid) (form : TableForm) (pin : String)
  /-- Anything else that is recorded of a ticket: its lines, discounts, tenders, firings. -/
  | other (event : SaleEvent)

/-- Seating has a command of its own. -/
def FloorAction.Proper : FloorAction → Prop
  | .other event => event.isSeating = false
  | _ => True

/-- What an action leaves of the till. -/
def afterFloorAction (digests : Digests) (verify : PinVerify) (t : AttendedTerminal) :
    Moment × FloorAction → AttendedTerminal
  | (at', .openSale) => (t.ticketCommand digests at' (t.openSaleEvent at')).1
  | (at', .seatSale saleId tableId covers) =>
    (t.ticketCommand digests at' (t.seatSaleEvent at' saleId tableId covers)).1
  | (at', .completeSale saleId) => (t.completeSaleCommand digests at' saleId).1
  | (at', .abandonSale saleId) =>
    (t.ticketCommand digests at' (t.abandonSaleEvent at' saleId)).1
  | (at', .setTableActive tableId active pin) =>
    (t.request verify at' digests (.setTableActive tableId active pin)).1
  | (at', .saveTable tableId form pin) =>
    (t.request verify at' digests (.saveTable tableId form pin)).1
  | (at', .other event) => (t.ticketCommand digests at' (.ok event)).1

def floorStep (digests : Digests) (verify : PinVerify) (t : AttendedTerminal)
    (action : Moment × FloorAction) (t' : AttendedTerminal) : Prop :=
  action.2.Proper ∧ t' = t.afterFloorAction digests verify action

/-- No sale was opened yet; staff, outlet, catalogue and floor are as they may be. -/
def NoSales (t : AttendedTerminal) : Prop := t.book = .new

/-- A ticket that can be seated is not seated at a table out of service. -/
def SeatsInService (t : AttendedTerminal) : Moment × FloorAction → Prop
  | (at', .seatSale saleId tableId covers) =>
    at'.writable = true → covers ≠ 0 → ∀ seatedBy, t.signedIn at' = .ok seatedBy →
      (t.assertMayWrite (.seated saleId tableId covers at'.now seatedBy) at'.now).isOkay →
        ∀ sale, t.book.sales[saleId]? = some sale → sale.status = .open →
          ∀ table, t.floor.tables[tableId]? = some table → table.active
  | _ => True

end AttendedTerminal

/-! ## Section 3: Where the tickets sit -/

namespace Projections

variable {p p' : Projections}

/-- An open ticket sits at a table. -/
def SitsAt (p : Projections) (saleId tableId : Uuid) : Prop :=
  ∃ sale seating, p.book.sales[saleId]? = some sale ∧ sale.status = .open ∧
    sale.seating = some seating ∧ seating.tableId = tableId

/-- Every open seated ticket sits at a table in service, and no two at one table. -/
structure EveryTicketFound (p : Projections) : Prop where
  inService : ∀ saleId tableId, p.SitsAt saleId tableId →
    ∃ table, p.floor.tables[tableId]? = some table ∧ table.active
  alone : ∀ a b tableId, p.SitsAt a tableId → p.SitsAt b tableId → a = b

/-- Every sale stands under its own id. -/
def SalesFiled (p : Projections) : Prop :=
  ∀ (saleId : Uuid) (sale : Sale), p.book.sales[saleId]? = some sale → sale.id = saleId

end Projections

namespace Sale

/-- Only a seating moves a ticket, and no event opens one again. -/
theorem apply_seating {sale sale' : Sale} {event : SaleEvent}
    (h : (sale.apply event).toExcept = .ok sale') :
    sale'.id = sale.id ∧ (sale'.status = .open → sale.status = .open) ∧
      (event.isSeating = false → sale'.seating = sale.seating) := by
  obtain ⟨-, htransition, -⟩ := apply_eq_ok h
  have hmoved := transition_moved htransition
  cases hmoved with
  | completed hcomplete =>
    obtain ⟨hopen, -, -, -, rfl⟩ := complete_eq_ok hcomplete
    exact ⟨rfl, fun _ => hopen, fun _ => rfl⟩
  | abandoned hopen => exact ⟨rfl, fun _ => hopen, fun _ => rfl⟩
  | seated => exact ⟨rfl, fun hopen => hopen, nofun⟩
  | lineAdded | lineQuantityChanged | lineDiscounted | lineVoided | orderDiscounted
  | tenderRecorded | ticketClaimed | ticketReleased | releaseIgnored | linesFired =>
    exact ⟨rfl, fun hopen => hopen, fun _ => rfl⟩

theorem apply_seated {sale sale' : Sale} {saleId tableId seatedBy : Uuid} {covers : U32}
    {at' : Timestamp}
    (h : (sale.apply (.seated saleId tableId covers at' seatedBy)).toExcept = .ok sale') :
    sale.status = .open ∧ covers ≠ 0 ∧ sale'.seating = some ⟨tableId, covers, at'⟩ := by
  obtain ⟨-, htransition, hallowed⟩ := apply_eq_ok h
  cases transition_moved htransition with
  | seated hcovers => exact ⟨hallowed.resolve_left nofun, hcovers, rfl⟩

/-- A ticket that is opened sits nowhere. -/
theorem replay_one_seating {event : SaleEvent} {sale : Sale} (h : replay [event] = .ok sale) :
    sale.id = event.saleId ∧ sale.seating = none ∧ event.isSeating = false := by
  obtain ⟨fresh, hfresh, hsame⟩ := Except.bind_eq_ok.mp h
  cases hsame
  refine ⟨(opened_id hfresh).2, ?_⟩
  cases event with
  | «opened» =>
    cases hfresh
    exact ⟨rfl, rfl⟩
  | _ => cases hfresh

end Sale

namespace Projections

variable {p p' : Projections}

/-- What an event on a ticket leaves: one sale of the book, under its id. -/
theorem apply_sale {event : SaleEvent} (h : p.apply (.sale event) = .ok p') :
    ∃ sale', SaleBook.saleAfter event p.book.sales[event.saleId]? = .ok sale' ∧
      p' = { p with book := ⟨p.book.sales.insert event.saleId sale'⟩ } := by
  obtain ⟨book, hbook, h⟩ := Except.bind_eq_ok.mp h
  cases h
  obtain ⟨sale', hafter, hinsert⟩ :=
    UuidMap.alterM_eq_ok.mp (SaleBook.apply_eq_ok.mp (Except.mapError_eq_ok.mp hbook))
  refine ⟨sale', hafter, ?_⟩
  rw [hinsert]

/-- Where a ticket sits once another one, or itself, was written to. -/
theorem sitsAt_insert {saleId : Uuid} {sale' : Sale} {other tableId : Uuid} :
    SitsAt { p with book := ⟨p.book.sales.insert saleId sale'⟩ } other tableId ↔
      if saleId = other then sale'.status = .open ∧ ∃ seating, sale'.seating = some seating ∧
        seating.tableId = tableId
      else p.SitsAt other tableId := by
  unfold SitsAt
  simp only [UuidMap.get_insert]
  by_cases hid : saleId = other
  · simp [hid]
  · simp [hid]

theorem salesFiled_sale (hfiled : p.SalesFiled) {event : SaleEvent}
    (h : p.apply (.sale event) = .ok p') : p'.SalesFiled := by
  obtain ⟨sale', hafter, rfl⟩ := apply_sale h
  intro saleId sale hsale
  simp only [UuidMap.get_insert] at hsale
  split at hsale
  · rename_i hid
    cases hsale
    cases hentry : p.book.sales[event.saleId]? with
    | none =>
      rw [hentry] at hafter
      exact (Sale.replay_one_seating hafter).1.trans hid
    | some before =>
      rw [hentry] at hafter
      exact (Sale.apply_seating hafter).1.trans ((hfiled _ _ hentry).trans hid)
  · exact hfiled saleId sale hsale

/-- An event that is no seating seats nobody. -/
theorem sitsAt_sale {event : SaleEvent} (hseating : event.isSeating = false)
    (h : p.apply (.sale event) = .ok p') {saleId tableId : Uuid}
    (hsits : p'.SitsAt saleId tableId) : p.SitsAt saleId tableId := by
  obtain ⟨sale', hafter, rfl⟩ := apply_sale h
  rw [sitsAt_insert] at hsits
  split at hsits
  · rename_i hid
    obtain ⟨hopen, seating, hseated, htable⟩ := hsits
    cases hentry : p.book.sales[event.saleId]? with
    | none =>
      rw [hentry] at hafter
      rw [(Sale.replay_one_seating hafter).2.1] at hseated
      cases hseated
    | some before =>
      rw [hentry] at hafter
      obtain ⟨-, hstatus, hsame⟩ := Sale.apply_seating hafter
      rw [hsame hseating] at hseated
      exact ⟨before, seating, hid ▸ hentry, hstatus hopen, hseated, htable⟩
  · exact hsits

theorem found_sale (hfound : p.EveryTicketFound) {event : SaleEvent}
    (hseating : event.isSeating = false) (h : p.apply (.sale event) = .ok p') :
    p'.EveryTicketFound := by
  have hfloor : p'.floor = p.floor := by
    obtain ⟨_, -, rfl⟩ := apply_sale h
    rfl
  constructor
  · intro saleId tableId hsits
    rw [hfloor]
    exact hfound.inService saleId tableId (sitsAt_sale hseating h hsits)
  · intro a b tableId ha hb
    exact hfound.alone a b tableId (sitsAt_sale hseating h ha) (sitsAt_sale hseating h hb)

/-- A seating puts one ticket at the table and moves no other. -/
theorem sitsAt_seated {saleId tableId seatedBy : Uuid} {covers : U32} {at' : Timestamp}
    (h : p.apply (.sale (.seated saleId tableId covers at' seatedBy)) = .ok p') :
    (∃ sale, p.book.sales[saleId]? = some sale ∧ sale.status = .open ∧ covers ≠ 0) ∧
      p'.floor = p.floor ∧ ∀ other there, p'.SitsAt other there →
        (other = saleId ∧ there = tableId) ∨ (other ≠ saleId ∧ p.SitsAt other there) := by
  obtain ⟨sale', hafter, rfl⟩ := apply_sale h
  change SaleBook.saleAfter _ p.book.sales[saleId]? = _ at hafter
  cases hentry : p.book.sales[saleId]? with
  | none =>
    rw [hentry] at hafter
    -- a sale that is not there would have to begin with its seating
    cases (Sale.replay_one_seating hafter).2.2
  | some before =>
    rw [hentry] at hafter
    obtain ⟨hopen, hcovers, hseating⟩ := Sale.apply_seated hafter
    refine ⟨⟨before, rfl, hopen, hcovers⟩, rfl, fun other there hsits => ?_⟩
    rw [sitsAt_insert] at hsits
    change if saleId = other then _ else _ at hsits
    split at hsits
    · rename_i hid
      obtain ⟨-, seating, hseated, htable⟩ := hsits
      cases hseating.symm.trans hseated
      exact .inl ⟨hid.symm, htable.symm⟩
    · rename_i hid
      exact .inr ⟨fun hsame => hid hsame.symm, hsits⟩

theorem found_seated (hfound : p.EveryTicketFound) {saleId tableId seatedBy : Uuid} {covers : U32}
    {at' : Timestamp}
    (h : p.apply (.sale (.seated saleId tableId covers at' seatedBy)) = .ok p')
    (hservice : ∃ table, p.floor.tables[tableId]? = some table ∧ table.active)
    (hfree : ∀ other, p.SitsAt other tableId → other = saleId) : p'.EveryTicketFound := by
  obtain ⟨-, hfloor, hsits⟩ := sitsAt_seated h
  constructor
  · intro other there hother
    rw [hfloor]
    rcases hsits other there hother with ⟨-, rfl⟩ | ⟨-, hbefore⟩
    · exact hservice
    · exact hfound.inService other there hbefore
  · intro a b there ha hb
    rcases hsits a there ha with ⟨rfl, rfl⟩ | ⟨hneA, hbeforeA⟩
    · rcases hsits b there hb with ⟨rfl, -⟩ | ⟨hneB, hbeforeB⟩
      · rfl
      · exact absurd (hfree b hbeforeB) hneB
    · rcases hsits b there hb with ⟨rfl, rfl⟩ | ⟨-, hbeforeB⟩
      · exact absurd (hfree a hbeforeA) hneA
      · exact hfound.alone a b there hbeforeA hbeforeB

end Projections

/-! ### The floor -/

namespace Floor

variable {floor floor' : Floor} {event : FloorEvent}

/-- A table in service is lost from it only by being taken out. -/
theorem apply_keeps_service (h : floor.apply event = .ok floor') {tableId : Uuid} {table : Table}
    (htable : floor.tables[tableId]? = some table) (hactive : table.active)
    (hkeeps : ∀ at' by', event ≠ .tableRemoved tableId at' by') :
    ∃ table', floor'.tables[tableId]? = some table' ∧ table'.active := by
  -- three of the four events place a table; only under this id does it have to be in service
  have hinsert : ∀ {other : Uuid} {placed : Table}, (other = tableId → placed.active) →
      ∃ table', (floor.tables.insert other placed)[tableId]? = some table' ∧ table'.active := by
    intro other placed hplaced
    rw [UuidMap.get_insert]
    split
    · rename_i hid
      exact ⟨placed, rfl, hplaced hid⟩
    · exact ⟨table, htable, hactive⟩
  cases event with
  | tableAdded added details at' addedBy =>
    rw [apply] at h
    split at h
    · cases h
    obtain ⟨placed, hplaced, h⟩ := Except.bind_eq_ok.mp h
    obtain ⟨_, -, h⟩ := Except.bind_eq_ok.mp h
    cases h
    exact hinsert fun _ => (toTable_id hplaced).2
  | tableUpdated updated details at' updatedBy =>
    obtain ⟨existing, hexisting, h⟩ := Except.bind_eq_ok.mp h
    obtain ⟨placed, hplaced, h⟩ := Except.bind_eq_ok.mp h
    obtain ⟨_, -, h⟩ := Except.bind_eq_ok.mp h
    cases h
    refine hinsert fun hid => ?_
    change updated = tableId at hid
    rw [Except.okOr_eq_ok, hid, htable] at hexisting
    cases hexisting
    rw [(toTable_id hplaced).2]
    exact hactive
  | tableRemoved removed at' removedBy =>
    obtain ⟨existing, -, h⟩ := Except.bind_eq_ok.mp h
    cases h
    exact hinsert fun hid => absurd (congrArg (FloorEvent.tableRemoved · at' removedBy) hid)
      (hkeeps at' removedBy)
  | tableRestored restored at' restoredBy =>
    obtain ⟨existing, -, h⟩ := Except.bind_eq_ok.mp h
    cases h
    exact hinsert fun _ => rfl

end Floor

namespace Projections

variable {p p' : Projections}

theorem found_floor (hfound : p.EveryTicketFound) {event : FloorEvent}
    (h : p.apply (.floor event) = .ok p')
    (hempty : ∀ tableId at' by', event = .tableRemoved tableId at' by' →
      ∀ saleId, ¬ p.SitsAt saleId tableId) : p'.EveryTicketFound ∧ p'.book = p.book := by
  obtain ⟨floor', hfloor, h⟩ := Except.bind_eq_ok.mp h
  cases h
  rw [Except.mapError_eq_ok] at hfloor
  refine ⟨⟨fun saleId tableId hsits => ?_, fun a b tableId ha hb => ?_⟩, rfl⟩
  · obtain ⟨table, htable, hactive⟩ := hfound.inService saleId tableId hsits
    exact Floor.apply_keeps_service hfloor htable hactive fun at' by' hremoved =>
      hempty tableId at' by' hremoved saleId hsits
  · exact hfound.alone a b tableId ha hb

end Projections

/-! ### The tables taken -/

namespace Terminal

variable {t : Terminal}

theorem mem_openTickets {sale : Sale} :
    sale ∈ t.openTickets ↔ ∃ saleId : Uuid, t.book.sales[saleId]? = some sale ∧
      sale.status = .open := by
  simp [openTickets, UuidMap.mem_values]

/-- The ticket found at a table sits there; and where none is found, none sits. -/
theorem occupiedTables_get (hfiled : t.toProjections.SalesFiled) (tableId : Uuid) :
    (∀ saleId, t.occupiedTables[tableId]? = some saleId →
        t.toProjections.SitsAt saleId tableId) ∧
      (t.occupiedTables[tableId]? = none → ∀ saleId, ¬ t.toProjections.SitsAt saleId tableId) := by
  obtain ⟨hsome, hnone⟩ := UuidMap.foldl_insert_get
    (t.openTickets.filterMap fun sale => sale.seating.map fun seating => (seating.tableId, sale.id))
    ∅ tableId
  constructor
  · intro saleId hget
    rcases hsome saleId hget with hmem | hempty
    · obtain ⟨sale, hsale, hentry⟩ := List.mem_filterMap.mp hmem
      obtain ⟨seating, hseating, hpair⟩ := Option.map_eq_some_iff.mp hentry
      obtain ⟨key, hkey, hopen⟩ := mem_openTickets.mp hsale
      cases hpair
      exact ⟨sale, seating, (hfiled key sale hkey).symm ▸ hkey, hopen, hseating, rfl⟩
    · simp at hempty
  · rintro hget saleId ⟨sale, seating, hsale, hopen, hseating, rfl⟩
    have hmem : (seating.tableId, sale.id) ∈ t.openTickets.filterMap
        fun sale => sale.seating.map fun seating => (seating.tableId, sale.id) :=
      List.mem_filterMap.mpr ⟨sale, mem_openTickets.mpr ⟨saleId, hsale, hopen⟩, by simp [hseating]⟩
    exact (hnone hget).1 _ hmem rfl

/-- What a commit leaves of the projections: what they were, or what was validated. -/
theorem commit_projections (digests : Digests) (writable : Bool) (occurredAt : Timestamp)
    (t : Terminal) (prepared : Except TerminalError Prepared) :
    (t.commit digests writable occurredAt prepared).1.toProjections = t.toProjections ∨
      ∃ p, prepared = .ok p ∧ writable = true ∧
        (t.commit digests writable occurredAt prepared).1.toProjections =
          p.adopted.toProjections := by
  rcases commit_cases digests writable occurredAt t prepared with
    ⟨error, -, hcommit⟩ | ⟨p, chain, error, -, -, hcommit⟩ |
    ⟨p, chain, es, store, hprepare, hwritable, -, -, hcommit⟩
  · exact .inl (by rw [hcommit])
  · exact .inl (by rw [hcommit])
  · exact .inr ⟨p, hprepare, hwritable, by rw [hcommit]⟩

theorem record_projections (digests : Digests) (writable : Bool) (occurredAt : Timestamp)
    (t : Terminal) (event : SaleEvent) (eventId : Uuid) :
    (t.record digests writable occurredAt event eventId).1.toProjections = t.toProjections ∨
      (writable = true ∧ (t.assertMayWrite event occurredAt).isOkay ∧
        t.toProjections.apply (.sale event) =
          .ok (t.record digests writable occurredAt event eventId).1.toProjections) := by
  rcases commit_projections digests writable occurredAt t (t.prepareRecord event eventId occurredAt)
    with hsame | ⟨p, hprepare, hwritable, hadopted⟩
  · exact .inl hsame
  · obtain ⟨_, hmay, hone⟩ := Except.bind_eq_ok.mp hprepare
    obtain ⟨candidate, hcandidate, hone⟩ := Except.bind_eq_ok.mp hone
    cases hone
    exact .inr ⟨hwritable, Except.isOkay_iff.mpr ⟨_, hmay⟩,
      hcandidate.trans (congrArg _ hadopted.symm)⟩

theorem completeSale_projections (digests : Digests) (writable : Bool) (occurredAt : Timestamp)
    (t : Terminal) (event : SaleEvent) (regime : String)
    (issuedBy saleEventId fiscalEventId : Uuid) :
    (t.completeSale digests writable occurredAt event regime issuedBy saleEventId
        fiscalEventId).1.toProjections = t.toProjections ∨
      t.toProjections.apply (.sale event) = .ok (t.completeSale digests writable occurredAt event
        regime issuedBy saleEventId fiscalEventId).1.toProjections := by
  rcases commit_projections digests writable occurredAt t
    (t.prepareCompleteSale digests event regime issuedBy saleEventId fiscalEventId occurredAt) with
    hsame | ⟨p, hprepare, -, hadopted⟩
  · exact .inl hsame
  · simp only [prepareCompleteSale, Except.bind_eq_ok] at hprepare
    obtain ⟨_, -, candidate, hcandidate, sale, -, totals, -, invoice, -, hprepare⟩ := hprepare
    cases hprepare
    exact .inr (hcandidate.trans (congrArg _ hadopted.symm))

theorem recordFloor_projections (digests : Digests) (writable : Bool) (occurredAt : Timestamp)
    (t : Terminal) (event : FloorEvent) (eventId : Uuid) :
    (t.recordFloor digests writable occurredAt event eventId).1.toProjections = t.toProjections ∨
      t.toProjections.apply (.floor event) =
        .ok (t.recordFloor digests writable occurredAt event eventId).1.toProjections := by
  rcases commit_projections digests writable occurredAt t (t.prepareOne (.floor event) eventId)
    with hsame | ⟨p, hprepare, -, hadopted⟩
  · exact .inl hsame
  · obtain ⟨candidate, hcandidate, hprepare⟩ := Except.bind_eq_ok.mp hprepare
    cases hprepare
    exact .inr (hcandidate.trans (congrArg _ hadopted.symm))

end Terminal

/-! ## Section 4: Every command -/

namespace AttendedTerminal

open Projections

variable {digests : Digests} {verify : PinVerify} {t t' : AttendedTerminal}

/-- The invariant of a floor at work. -/
structure FloorKept (t : AttendedTerminal) : Prop where
  filed : t.toProjections.SalesFiled
  found : t.toProjections.EveryTicketFound

/-- What is recorded of a ticket without seating it keeps every ticket where it is. -/
theorem floorKept_sale {p : Projections} (h : t.FloorKept) {event : SaleEvent}
    (hseating : event.isSeating = false)
    (hsale : p = t.toProjections ∨ t.toProjections.apply (.sale event) = .ok p) :
    p.SalesFiled ∧ p.EveryTicketFound := by
  rcases hsale with rfl | happly
  · exact ⟨h.filed, h.found⟩
  · exact ⟨salesFiled_sale h.filed happly, found_sale h.found hseating happly⟩

/-- A ticket command that seats nobody. -/
theorem floorKept_ticketCommand (h : t.FloorKept) (at' : Moment)
    (asked : Except TicketError SaleEvent)
    (hseating : ∀ event, asked = .ok event → event.isSeating = false) :
    (t.ticketCommand digests at' asked).1.FloorKept := by
  cases asked with
  | error error => exact h
  | ok event =>
    have hprojections : (t.ticketCommand digests at' (.ok event)).1.toTerminal =
        (t.toTerminal.record digests at'.writable at'.now event at'.eventId).1 :=
      Terminal.applyCommand_fst digests at'.writable at'.now t.toTerminal event at'.eventId
    obtain ⟨hfiled, hfound⟩ := floorKept_sale h (hseating event rfl)
      ((Terminal.record_projections digests at'.writable at'.now t.toTerminal event
        at'.eventId).imp_right fun happly => happly.2.2)
    rw [← hprojections] at hfiled hfound
    exact ⟨hfiled, hfound⟩

theorem floorKept_seatSale (h : t.FloorKept) (at' : Moment) {saleId tableId : Uuid} {covers : U32}
    (hguard : t.SeatsInService (at', .seatSale saleId tableId covers)) :
    (t.ticketCommand digests at' (t.seatSaleEvent at' saleId tableId covers)).1.FloorKept := by
  cases hevent : t.seatSaleEvent at' saleId tableId covers with
  | error error => exact h
  | ok event =>
    obtain ⟨seatedBy, hseatedBy, hevent⟩ := Except.bind_eq_ok.mp hevent
    rw [Except.mapError_eq_ok] at hseatedBy
    split at hevent
    · cases hevent
    rename_i hknown
    split at hevent
    · cases hevent
    rename_i hfree
    cases hevent
    have hprojections : (t.ticketCommand digests at'
        (.ok (.seated saleId tableId covers at'.now seatedBy))).1.toTerminal =
          (t.toTerminal.record digests at'.writable at'.now
            (.seated saleId tableId covers at'.now seatedBy) at'.eventId).1 :=
      Terminal.applyCommand_fst digests at'.writable at'.now t.toTerminal _ at'.eventId
    rcases Terminal.record_projections digests at'.writable at'.now t.toTerminal
      (.seated saleId tableId covers at'.now seatedBy) at'.eventId with
      hsame | ⟨hwritable, hmay, happly⟩
    · rw [← hprojections] at hsame
      constructor
      · rw [hsame]
        exact h.filed
      · rw [hsame]
        exact h.found
    · rw [← hprojections] at happly
      refine ⟨salesFiled_sale h.filed happly, found_seated h.found happly ?_ ?_⟩
      · obtain ⟨⟨sale, hsale, hopen, hcovers⟩, -, -⟩ := sitsAt_seated happly
        obtain ⟨table, htable⟩ := Option.ne_none_iff_exists'.mp
          fun hnone => hknown (Option.isNone_iff_eq_none.mpr hnone)
        have hactive := hguard hwritable hcovers seatedBy hseatedBy hmay sale hsale hopen table htable
        exact ⟨table, htable, hactive⟩
      · -- whoever else sat there would have been found
        intro other hsits
        obtain ⟨hsome, hnone⟩ := Terminal.occupiedTables_get h.filed tableId
        cases hoccupied : t.occupiedTables[tableId]? with
        | none => exact absurd hsits (hnone hoccupied other)
        | some sitting =>
          have hsitting : sitting = saleId := by
            rw [hoccupied] at hfree
            simpa using hfree
          rw [h.found.alone other sitting tableId hsits (hsome sitting hoccupied), hsitting]

theorem floorKept_completeSale (h : t.FloorKept) (at' : Moment) (saleId : Uuid) :
    (t.completeSaleCommand digests at' saleId).1.FloorKept := by
  unfold completeSaleCommand
  cases hevent : t.completeSaleEvent at' saleId with
  | error error => exact h
  | ok asked =>
    obtain ⟨event, cashierId⟩ := asked
    have hseating : event.isSeating = false := by
      simp only [completeSaleEvent, Except.bind_eq_ok] at hevent
      obtain ⟨_, -, sale, -, totals, -, change, -, hevent⟩ := hevent
      cases hevent
      rfl
    obtain ⟨hfiled, hfound⟩ := floorKept_sale h hseating
      (Terminal.completeSale_projections digests at'.writable at'.now t.toTerminal event t.regime
        cashierId at'.eventId at'.newId)
    exact ⟨hfiled, hfound⟩

/-- A change of the floor, made where no ticket sits at a table that is taken out. -/
theorem floorKept_recordFloor (h : t.FloorKept) (at' : Moment) {event : FloorEvent}
    (hempty : ∀ tableId at' by', event = .tableRemoved tableId at' by' →
      ∀ saleId, ¬ t.toProjections.SitsAt saleId tableId) :
    FloorKept { t with toTerminal :=
      (t.toTerminal.recordFloor digests at'.writable at'.now event at'.eventId).1 } := by
  rcases Terminal.recordFloor_projections digests at'.writable at'.now t.toTerminal event
    at'.eventId with hsame | happly
  · constructor
    · rw [hsame]
      exact h.filed
    · rw [hsame]
      exact h.found
  · obtain ⟨hfound, hbook⟩ := found_floor h.found happly hempty
    refine ⟨?_, hfound⟩
    intro saleId sale hsale
    rw [hbook] at hsale
    exact h.filed saleId sale hsale

theorem tableOccupied_iff {tableId : Uuid} :
    t.tableOccupied tableId ↔ ∃ saleId, t.toProjections.SitsAt saleId tableId := by
  unfold tableOccupied SitsAt
  simp only [List.any_eq_true, UuidMap.mem_values, decide_eq_true_eq, Option.any_eq_true]
  constructor
  · rintro ⟨sale, ⟨saleId, hsale⟩, hopen, seating, hseating, htable⟩
    exact ⟨saleId, sale, seating, hsale, hopen, hseating, htable⟩
  · rintro ⟨saleId, sale, seating, hsale, hopen, hseating, htable⟩
    exact ⟨sale, ⟨saleId, hsale⟩, hopen, seating, hseating, htable⟩

theorem floorKept_request (h : t.FloorKept) (at' : Moment) {asked : Request}
    (hask : ∀ call, t.ask verify at' asked = .ok call → ∃ event,
      call = .recordFloor event at'.eventId ∧
        ∀ tableId at' by', event = .tableRemoved tableId at' by' →
          ∀ saleId, ¬ t.toProjections.SitsAt saleId tableId) :
    (t.request verify at' digests asked).1.FloorKept := by
  unfold request
  cases hcall : t.ask verify at' asked with
  | error error => exact h
  | ok call =>
    obtain ⟨event, rfl, hempty⟩ := hask call hcall
    exact floorKept_recordFloor h at' hempty

theorem floorKept_step {action : Moment × FloorAction} (h : t.FloorKept)
    (hguard : t.SeatsInService action) (hstep : floorStep digests verify t action t') :
    t'.FloorKept := by
  obtain ⟨at', action⟩ := action
  obtain ⟨hproper, rfl⟩ := hstep
  cases action with
  | openSale =>
    refine floorKept_ticketCommand h at' _ fun event hevent => ?_
    simp only [openSaleEvent, Except.bind_eq_ok] at hevent
    obtain ⟨_, -, currency, -, hevent⟩ := hevent
    cases hevent
    rfl
  | seatSale saleId tableId covers =>
    exact floorKept_seatSale h at' hguard
  | completeSale saleId =>
    exact floorKept_completeSale h at' saleId
  | abandonSale saleId =>
    refine floorKept_ticketCommand h at' _ fun event hevent => ?_
    obtain ⟨_, -, hevent⟩ := Except.bind_eq_ok.mp hevent
    cases hevent
    rfl
  | setTableActive tableId active pin =>
    refine floorKept_request h at' fun call hcall => ?_
    obtain ⟨authorizedBy, -, hcall⟩ := Except.bind_eq_ok.mp hcall
    split at hcall
    · cases hcall
    -- a table is retired only where nobody sits at it
    rename_i hfree
    cases hcall
    refine ⟨_, rfl, fun removed at' by' hremoved saleId hsits => ?_⟩
    cases active with
    | true => cases hremoved
    | false =>
      cases hremoved
      exact hfree ⟨rfl, tableOccupied_iff.mpr ⟨saleId, hsits⟩⟩
  | saveTable tableId form pin =>
    refine floorKept_request h at' fun call hcall => ?_
    obtain ⟨authorizedBy, -, hcall⟩ := Except.bind_eq_ok.mp hcall
    cases hcall
    refine ⟨_, rfl, fun removed at' by' hremoved => ?_⟩
    cases tableId with
    | none => cases hremoved
    | some tableId => cases hremoved
  | other event =>
    refine floorKept_ticketCommand h at' _ fun asked hasked => ?_
    cases hasked
    exact hproper

/-- **Every seated ticket can be found**, in every run of commands that seats no ticket at a table
    out of service. -/
theorem everyTicketFound
    (h : Transition.Reachable NoSales
      (Transition.Guarded (floorStep digests verify) SeatsInService) t) :
    t.toProjections.EveryTicketFound := by
  have hkept : t.FloorKept := by
    refine h.invariant ?_ ?_
    · intro s hstart
      -- at the start there are no sales, so nobody sits anywhere
      have hempty : ∀ saleId : Uuid, s.book.sales[saleId]? = none := by
        intro saleId
        rw [hstart]
        simp [SaleBook.new]
      refine ⟨?_, ?_, ?_⟩
      · intro saleId sale hsale
        rw [hempty] at hsale
        cases hsale
      · rintro saleId tableId ⟨sale, seating, hsale, -⟩
        rw [hempty] at hsale
        cases hsale
      · rintro a b tableId ⟨sale, seating, hsale, -⟩
        rw [hempty] at hsale
        cases hsale
    · intro s action s' hkept hstep
      exact floorKept_step hkept hstep.1 hstep.2
  exact hkept.found

/-! ### A ticket nobody can find -/

open Terminal (plainDigests instant)

/-- An instant at which a new thing gets the id, and its event the other. -/
def momentOf (newId eventId : Uuid) : Moment := { closingTime with newId, eventId }

/-- A till after a run of actions. -/
def afterFloorActions (t : AttendedTerminal) (actions : List (Moment × FloorAction)) :
    AttendedTerminal :=
  actions.foldl (afterFloorAction plainDigests plainVerify) t

theorem afterFloorActions_reachable {guard : AttendedTerminal → Moment × FloorAction → Prop}
    {t : AttendedTerminal} {actions : List (Moment × FloorAction)}
    (hactions : ∀ action ∈ actions, action.2.Proper ∧ ∀ s, guard s action)
    (h : Transition.Reachable NoSales
      (Transition.Guarded (floorStep plainDigests plainVerify) guard) t) :
    Transition.Reachable NoSales (Transition.Guarded (floorStep plainDigests plainVerify) guard)
      (t.afterFloorActions actions) := by
  induction actions generalizing t with
  | nil => exact h
  | cons action actions ih =>
    obtain ⟨hproper, hguard⟩ := hactions action List.mem_cons_self
    refine ih (fun a ha => hactions a (List.mem_cons_of_mem _ ha)) ?_
    exact .step action h ⟨hguard t, hproper, rfl⟩

theorem managerTill_noSales : managerTill.NoSales := by
  have hbook : managerTill.book = .new := by decide +kernel
  exact hbook

/-- Table 4 is set up and a ticket is opened. -/
def openAtFour : List (Moment × FloorAction) :=
  [(momentOf 200 300, .saveTable none ⟨"4", none, 4⟩ "5294"), (momentOf 202 302, .openSale)]

/-- It is seated there. -/
def seatAtFour : Moment × FloorAction := (momentOf 203 303, .seatSale 202 200 2)

theorem everyTicketFound_seatAtFour :
    ((managerTill.afterFloorActions openAtFour).afterFloorActions
        [seatAtFour]).toProjections.EveryTicketFound ∧
      ((managerTill.afterFloorActions openAtFour).afterFloorActions
        [seatAtFour]).occupiedTables[(200 : Uuid)]? = some 202 := by
  have hopened : Transition.Reachable NoSales
      (Transition.Guarded (floorStep plainDigests plainVerify) SeatsInService)
      (managerTill.afterFloorActions openAtFour) := by
    refine afterFloorActions_reachable ?_ (.init managerTill_noSales)
    simp [openAtFour, FloorAction.Proper, SeatsInService]
  have hservice : (((managerTill.afterFloorActions openAtFour).floor.tables[(200 : Uuid)]?).all
      (·.active)) := by decide +kernel
  refine ⟨everyTicketFound (.step seatAtFour hopened ⟨?_, trivial, rfl⟩), by decide +kernel⟩
  intro _ _ _ _ _ _ _ _ table htable
  exact Option.all_eq_true _ _ |>.mp hservice table htable

/-- Table 4 is set up and taken away; then a ticket is opened and seated there. -/
def seatedAtGone : List (Moment × FloorAction) :=
  [(momentOf 200 300, .saveTable none ⟨"4", none, 4⟩ "5294"),
   (momentOf 201 301, .setTableActive 200 false "5294"),
   (momentOf 202 302, .openSale),
   (momentOf 203 303, .seatSale 202 200 2)]

theorem seatedAtGone_lost :
    ¬ ∀ (digests : Digests) (verify : PinVerify) (t : AttendedTerminal),
      Transition.Reachable NoSales (floorStep digests verify) t →
        t.toProjections.EveryTicketFound := by
  intro h
  have hreachable : Transition.Reachable NoSales (floorStep plainDigests plainVerify)
      (managerTill.afterFloorActions seatedAtGone) := by
    refine (@afterFloorActions_reachable (fun _ _ => True) _ _ ?_
      (.init managerTill_noSales)).of_guarded
    simp [seatedAtGone, FloorAction.Proper]
  have hsits : ((managerTill.afterFloorActions seatedAtGone).book.sales[(202 : Uuid)]?).any
      (fun sale => sale.status = .open ∧ sale.seating.any (·.tableId = 200)) := by decide +kernel
  have hgone : ((managerTill.afterFloorActions seatedAtGone).floor.tables[(200 : Uuid)]?).all
      (fun table => !table.active) := by decide +kernel
  obtain ⟨sale, hsale, hticket⟩ := Option.any_eq_true _ _ |>.mp hsits
  obtain ⟨hopen, hseated⟩ := of_decide_eq_true hticket
  obtain ⟨seating, hseating, htable⟩ := Option.any_eq_true _ _ |>.mp hseated
  obtain ⟨table, hget, hactive⟩ := (h _ _ _ hreachable).inService 202 200
    ⟨sale, seating, hsale, hopen, hseating, of_decide_eq_true htable⟩
  have hnot := Option.all_eq_true _ _ |>.mp hgone table hget
  rw [hactive] at hnot
  cases hnot

end AttendedTerminal

end Sahl
