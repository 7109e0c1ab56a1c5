import Mathlib.Tactic
import Sahl.Core.Catalogue
import Sahl.Core.Ringing

/-! # What the stations are told

    The sale remembers which lines were sent to a station, and nothing else about them: a line is
    ordered while it is not among them, and cancelled, at every firing, once it is among them and
    voided. As long as no line that was sent is changed or voided, the tickets add up to what is on
    the order (`Informed`). -/

namespace Sahl

/-! ## Section 1: Tickets -/

/-- One line as a cook reads it. -/
structure TicketLine where
  lineId : Uuid
  name : String
  quantityMilli : I64
  modifiers : List String
  deriving DecidableEq

/-- Why a station is being sent something. -/
inductive TicketKind where
  | order
  | cancellation
  deriving DecidableEq

/-- One station's instruction for one sale. -/
structure KitchenTicket where
  saleId : Uuid
  station : Station
  kind : TicketKind
  tableLabel : Option String
  covers : Option U32
  round : U32
  at' : Timestamp
  lines : List TicketLine
  deriving DecidableEq

def KitchenTicket.isEmpty (ticket : KitchenTicket) : Bool := ticket.lines.isEmpty

def Station.all : List Station := [.kitchen, .bar, .counter, .pass]

def SaleLine.toLine (line : SaleLine) : TicketLine where
  lineId := line.id
  name := line.name
  quantityMilli := line.quantity.milli
  modifiers := line.modifiers.map (·.name)

/-! ## Section 2: What is pending -/

section Pending

variable (sale : Sale) (alreadyFired : List Uuid) (round : U32) (at' : Timestamp)
  (tableLabel : Option String) (stationOf : Uuid → Option Station)

/-- A line of an unknown product goes to the kitchen. -/
def routed (line : SaleLine) : Station := (stationOf line.productId).getD .kitchen

/-- The tickets for some lines, one for each station that has any. -/
def ticketsFor (kind : TicketKind) (lines : List SaleLine) : List KitchenTicket :=
  (Station.all.map fun station =>
    { saleId := sale.id, station, kind, tableLabel, covers := sale.seating.map (·.covers), round,
      at', lines := (lines.filter (routed stationOf · = station)).map (·.toLine) :
        KitchenTicket }).filter (! ·.isEmpty)

/-- What each station has not yet been told about. -/
def pending : List KitchenTicket :=
  ticketsFor sale round at' tableLabel stationOf .order
    (sale.activeLines.filter (·.id ∉ alreadyFired))

/-- Tickets telling stations to stop making something they were told about. -/
def cancellations : List KitchenTicket :=
  ticketsFor sale round at' tableLabel stationOf .cancellation
    (sale.lines.filter fun line => ! line.isActive ∧ line.id ∈ alreadyFired)

end Pending

/-! ## Section 3: What the tickets add up to -/

/-- How much of a line a ticket asks for; a cancellation asks for that much less. -/
def KitchenTicket.told (lineId : Uuid) (ticket : KitchenTicket) : Int :=
  let asked := keySum (·.lineId) (·.quantityMilli.val) ticket.lines lineId
  match ticket.kind with
  | .order => asked
  | .cancellation => -asked

/-- How much of a line the stations were told to make, over all tickets. -/
def told (tickets : List KitchenTicket) (lineId : Uuid) : Int :=
  (tickets.map (·.told lineId)).sum

theorem told_append (tickets more : List KitchenTicket) (lineId : Uuid) :
    told (tickets ++ more) lineId = told tickets lineId + told more lineId := by
  simp [told]

section Tickets

variable {sale : Sale} {round : U32} {at' : Timestamp} {tableLabel : Option String}
  {stationOf : Uuid → Option Station}

/-- A ticket that is left out is one without lines. -/
theorem told_nonempty (tickets : List KitchenTicket) (lineId : Uuid) :
    told (tickets.filter (! ·.isEmpty)) lineId = told tickets lineId := by
  induction tickets with
  | nil => rfl
  | cons ticket tickets ih =>
    rw [List.filter_cons]
    split
    · simpa [told] using ih
    · rename_i hnone
      have hlines : ticket.lines = [] := by simpa [KitchenTicket.isEmpty] using hnone
      have hzero : ticket.told lineId = 0 := by
        unfold KitchenTicket.told
        rw [hlines]
        cases ticket.kind <;> rfl
      rw [ih]
      simp [told, hzero]

/-- The orders carry every line once, whatever station it goes to. -/
theorem told_orders (lines : List SaleLine) (lineId : Uuid) :
    told (ticketsFor sale round at' tableLabel stationOf .order lines) lineId =
      keySum (·.id) (·.quantity.milli.val) lines lineId := by
  unfold ticketsFor
  rw [told_nonempty]
  induction lines with
  | nil => rfl
  | cons line lines ih =>
    unfold told KitchenTicket.told at ih ⊢
    simp only [List.map_map, Function.comp_def] at ih ⊢
    -- the line is on the ticket of its own station and on no other
    have hstation : ∀ station : Station,
        keySum (·.lineId) (·.quantityMilli.val)
            (((line :: lines).filter (routed stationOf · = station)).map (·.toLine)) lineId =
          (if routed stationOf line = station ∧ line.id = lineId then line.quantity.milli.val
            else 0) +
          keySum (·.lineId) (·.quantityMilli.val)
            ((lines.filter (routed stationOf · = station)).map (·.toLine)) lineId := by
      intro station
      by_cases hrouted : routed stationOf line = station
      · rw [List.filter_cons_of_pos (by simpa using hrouted), List.map_cons, keySum_cons]
        by_cases hid : line.id = lineId <;> simp [hrouted, hid, SaleLine.toLine]
      · rw [List.filter_cons_of_neg (by simpa using hrouted)]
        simp [hrouted]
    simp only [hstation, List.sum_map_add]
    rw [ih, keySum_cons]
    by_cases hid : line.id = lineId
    · cases routed stationOf line <;> simp [Station.all, hid]
    · simp [hid]

/-- The lines on the tickets are the lines the tickets are for. -/
theorem mem_ticketsFor {kind : TicketKind} {lines : List SaleLine} {lineId : Uuid} :
    (∃ ticket ∈ ticketsFor sale round at' tableLabel stationOf kind lines,
      ∃ line ∈ ticket.lines, line.lineId = lineId) ↔ ∃ line ∈ lines, line.id = lineId := by
  unfold ticketsFor
  constructor
  · rintro ⟨ticket, hticket, printed, hprinted, hid⟩
    obtain ⟨station, -, rfl⟩ := List.mem_map.mp (List.mem_of_mem_filter hticket)
    obtain ⟨line, hline, rfl⟩ := List.mem_map.mp hprinted
    exact ⟨line, List.mem_of_mem_filter hline, hid⟩
  · rintro ⟨line, hline, hid⟩
    have hprinted : line.toLine ∈
        (lines.filter (routed stationOf · = routed stationOf line)).map (·.toLine) :=
      List.mem_map_of_mem (List.mem_filter.mpr ⟨hline, by simp⟩)
    refine ⟨_, List.mem_filter.mpr ⟨List.mem_map_of_mem (a := routed stationOf line) ?_, ?_⟩,
      line.toLine, hprinted, hid⟩
    · cases routed stationOf line <;> decide
    · simpa [KitchenTicket.isEmpty] using ⟨line, hline, rfl⟩

theorem ticketsFor_nil {kind : TicketKind} :
    ticketsFor sale round at' tableLabel stationOf kind [] = [] := by
  simp [ticketsFor, KitchenTicket.isEmpty]

end Tickets

/-! ## Section 4: Exactly what is on the order -/

/-- Every line that was sent is on the order still, and the stations know how much of it; of the
    others they were told nothing. -/
structure Informed (sale : Sale) (sent : List KitchenTicket) : Prop where
  fired : ∀ lineId ∈ sale.fired, ∃ line ∈ sale.lines, line.id = lineId ∧ line.isActive ∧
    told sent lineId = line.quantity.milli.val
  unfired : ∀ lineId ∉ sale.fired, told sent lineId = 0

/-- Where ids differ, there is one line under each. -/
theorem Sale.LinesDistinct.eq {sale : Sale} (h : sale.LinesDistinct) {line other : SaleLine}
    (hline : line ∈ sale.lines) (hother : other ∈ sale.lines) (hid : line.id = other.id) :
    line = other :=
  List.inj_on_of_nodup_map h hline hother hid

theorem mem_fired {lineIds fired : List Uuid} {lineId : Uuid} :
    lineId ∈ lineIds.foldl (fun fired id => if id ∈ fired then fired else fired ++ [id]) fired ↔
      lineId ∈ fired ∨ lineId ∈ lineIds := by
  induction lineIds generalizing fired with
  | nil => simp
  | cons first rest ih =>
    rw [List.foldl_cons, ih, List.mem_cons]
    by_cases hfirst : first ∈ fired
    · rw [if_pos hfirst]
      constructor
      · exact fun h => h.imp_right .inr
      · rintro (h | rfl | h)
        · exact .inl h
        · exact .inl hfirst
        · exact .inr h
    · rw [if_neg hfirst, List.mem_append, List.mem_singleton, or_assoc]

namespace Informed

variable {sale sale' : Sale} {sent : List KitchenTicket} {round : U32} {at' : Timestamp}
  {tableLabel : Option String} {stationOf : Uuid → Option Station}

/-- Nothing that was sent was voided, so nothing is cancelled. -/
theorem cancellations_eq_nil (h : Informed sale sent) (hd : sale.LinesDistinct) :
    cancellations sale sale.fired round at' tableLabel stationOf = [] := by
  have hnone : sale.lines.filter (fun line => ! line.isActive ∧ line.id ∈ sale.fired) = [] := by
    rw [List.filter_eq_nil_iff]
    intro line hline hcancelled
    obtain ⟨hvoid, hfired⟩ := of_decide_eq_true hcancelled
    obtain ⟨other, hother, hid, hactive, -⟩ := h.fired line.id hfired
    rw [hd.eq hline hother hid.symm, hactive] at hvoid
    cases hvoid
  rw [cancellations, hnone, ticketsFor_nil]

/-- Once every line of the order was sent, nothing is pending. -/
theorem pending_eq_nil (hall : ∀ line ∈ sale.lines, line.isActive → line.id ∈ sale.fired) :
    pending sale sale.fired round at' tableLabel stationOf = [] := by
  have hnone : sale.activeLines.filter (·.id ∉ sale.fired) = [] := by
    rw [List.filter_eq_nil_iff]
    intro line hline
    obtain ⟨hline, hactive⟩ := List.mem_filter.mp hline
    simpa using hall line hline hactive
  rw [pending, hnone, ticketsFor_nil]

/-- Once every line of the order was sent, the stations know of each line what is on the order. -/
theorem told_eq (h : Informed sale sent) (hd : sale.LinesDistinct)
    (hall : ∀ line ∈ sale.lines, line.isActive → line.id ∈ sale.fired) {line : SaleLine}
    (hline : line ∈ sale.lines) :
    told sent line.id = if line.isActive then line.quantity.milli.val else 0 := by
  cases hactive : line.isActive with
  | true =>
    obtain ⟨other, hother, hid, -, htold⟩ := h.fired line.id (hall line hline hactive)
    rw [htold, hd.eq hline hother hid.symm]
    rfl
  | false =>
    refine h.unfired line.id fun hfired => ?_
    obtain ⟨other, hother, hid, hstill, -⟩ := h.fired line.id hfired
    rw [hd.eq hline hother hid.symm, hstill] at hactive
    cases hactive

/-- A firing sends what is pending and remembers it. -/
theorem fire (h : Informed sale sent) (hd : sale.LinesDistinct) (hlines : sale'.lines = sale.lines)
    (hfired : ∀ lineId, lineId ∈ sale'.fired ↔ lineId ∈ sale.fired ∨
      ∃ line ∈ sale.activeLines.filter (·.id ∉ sale.fired), line.id = lineId) :
    Informed sale' (sent ++ pending sale sale.fired round at' tableLabel stationOf) := by
  let unsent := sale.activeLines.filter (·.id ∉ sale.fired)
  have hpending : ∀ lineId,
      told (pending sale sale.fired round at' tableLabel stationOf) lineId =
        keySum (·.id) (·.quantity.milli.val) unsent lineId := fun lineId => told_orders _ lineId
  have hunsent : ∀ line ∈ unsent, line ∈ sale.lines ∧ line.isActive ∧ line.id ∉ sale.fired := by
    intro line hline
    obtain ⟨hline, hfresh⟩ := List.mem_filter.mp hline
    obtain ⟨hline, hactive⟩ := List.mem_filter.mp hline
    exact ⟨hline, hactive, by simpa using hfresh⟩
  have hdistinct : (unsent.map (·.id)).Nodup :=
    List.Nodup.sublist ((List.filter_sublist.trans List.filter_sublist).map _) hd
  refine ⟨fun lineId hmem => ?_, fun lineId hmem => ?_⟩
  · rw [told_append, hpending, hlines]
    rcases (hfired lineId).mp hmem with hold | ⟨line, hline, rfl⟩
    · -- a line that was sent before is not sent again
      have hnone : lineId ∉ unsent.map (·.id) := by
        intro hagain
        obtain ⟨line, hline, rfl⟩ := List.mem_map.mp hagain
        exact (hunsent line hline).2.2 hold
      obtain ⟨line, hline, hid, hactive, htold⟩ := h.fired lineId hold
      refine ⟨line, hline, hid, hactive, ?_⟩
      rw [keySum_not_mem hnone, htold, add_zero]
    · obtain ⟨hmemLine, hactive, hfresh⟩ := hunsent line hline
      refine ⟨line, hmemLine, rfl, hactive, ?_⟩
      rw [keySum_mem_nodup hdistinct hline, h.unfired line.id hfresh, zero_add]
  · have hnot := (hfired lineId).not.mp hmem
    rw [not_or] at hnot
    have hnone : lineId ∉ unsent.map (·.id) := fun hagain => hnot.2 (List.mem_map.mp hagain)
    rw [told_append, hpending, keySum_not_mem hnone, h.unfired lineId hnot.1, add_zero]

/-- A new line was not sent. -/
theorem lineAdded (h : Informed sale sent) (line : SaleLine) :
    Informed { sale with lines := sale.lines ++ [line] } sent := by
  refine ⟨fun lineId hfired => ?_, h.unfired⟩
  obtain ⟨other, hother, hrest⟩ := h.fired lineId hfired
  exact ⟨other, List.mem_append_left _ hother, hrest⟩

/-- What is changed about a line was not sent, or is not the quantity of an active line. -/
theorem updated (h : Informed sale sent) {lineId : Uuid}
    {f : SaleLine → Except SaleError SaleLine} {lines : List SaleLine}
    (hlines : Sale.updateLine lineId f sale.lines = .ok lines)
    (hkeeps : lineId ∈ sale.fired → ∀ line ∈ sale.lines, line.id = lineId → ∀ line',
      f line = .ok line' → line'.id = line.id ∧ line'.isActive = line.isActive ∧
        line'.quantity = line.quantity) : Informed { sale with lines } sent := by
  refine ⟨fun firedId hfired => ?_, h.unfired⟩
  obtain ⟨line, hline, hid, hactive, htold⟩ := h.fired firedId hfired
  rcases Sale.updateLine_keeps hlines line hline with hkept | ⟨hchanged, line', hf, hline'⟩
  · exact ⟨line, hkept, hid, hactive, htold⟩
  · have hsame : lineId ∈ sale.fired := by
      rw [← hchanged, hid]
      exact hfired
    obtain ⟨hid', hactive', hquantity⟩ := hkeeps hsame line hline hchanged line' hf
    exact ⟨line', hline', hid'.trans hid, hactive'.trans hactive, by rw [htold, hquantity]⟩

end Informed

end Sahl
