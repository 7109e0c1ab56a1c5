import Mathlib.Tactic
import Sahl.Lib.Replay
import Sahl.Terminal.OwnLog

/-! # Recording and loading

    A till applies its events in the order it records them; a load skips what does not apply,
    and keeps the events of shifts and orders to replay them. `Mirrors` is what the two agree on
    when they read one log in one order (`mirrors_recorded`). -/

namespace Sahl

/-- The shift an event opens. -/
def DomainEvent.opensShift : DomainEvent → Option Uuid
  | .shift event => if event.isOpening then some event.shiftId else none
  | _ => none

namespace Projections

/-- One round of recording: what is stored has been applied. -/
def recordStep (p : Projections) (e : EventEnvelope Payload) : Except TerminalError Projections :=
  match e.read with
  | some event => p.apply event
  | none => .ok p

/-- The shift a stored event opens. -/
def openedShift (e : EventEnvelope Payload) : Option Uuid := e.read.bind DomainEvent.opensShift

/-- The shift events of a log leave the running shift: they end with its own, which replay to
    it. -/
def ShiftMirrors (events : List ShiftEvent) : Option Shift → Prop
  | none => events = []
  | some shift =>
    (events.getLast?.map (·.shiftId) = some shift.id) ∧
      Shift.replay (events.filter (·.shiftId = shift.id)) = .ok shift

/-- What a load has rebuilt from the events `seen`, against the projections of the till that
    recorded them. -/
structure Mirrors (seen : List (EventEnvelope Payload)) (p : Projections)
    (l : Terminal.Loading) : Prop where
  book : l.book = p.book
  stock : l.stock = p.stock
  staff : l.staff = p.staff
  catalogue : l.catalogue = p.catalogue
  floor : l.floor = p.floor
  orders : ∀ id : Uuid, p.orders[id]? =
    l.purchaseEvents[id]?.bind fun events => (PurchaseOrder.replay events).toOption
  placed : ∀ id : Uuid, l.purchaseEvents[id]?.isSome → p.orders[id]?.isSome
  shift : ShiftMirrors l.shiftEvents p.shift
  opened : ∀ event ∈ l.shiftEvents, event.shiftId ∈ seen.filterMap openedShift

theorem mirrors_empty : Mirrors [] Projections.empty .empty := by
  refine ⟨rfl, rfl, rfl, rfl, rfl, fun id => ?_, fun id h => ?_, rfl, by simp [Terminal.Loading.empty]⟩
  · simp [empty, Terminal.Loading.empty]
  · simp [Terminal.Loading.empty] at h

/-- The shift events go on mirroring the running shift; an opened shift must be a new one. -/
theorem shiftAfter_mirrors {events : List ShiftEvent} {shift : Option Shift} {shift' : Shift}
    {event : ShiftEvent} (hmirrors : ShiftMirrors events shift)
    (hnew : event.isOpening → ∀ old ∈ events, old.shiftId ≠ event.shiftId)
    (h : shiftAfter shift event = .ok shift') :
    ShiftMirrors (events ++ [event]) (some shift') ∧
      (¬ event.isOpening → ∃ old ∈ events, old.shiftId = event.shiftId) := by
  have hlast : (events ++ [event]).getLast?.map (·.shiftId) = some event.shiftId := by simp
  -- a shift that starts: no earlier event carries its id
  have hstart : ∀ {start : Shift}, Shift.replay [event] = .ok start →
      ShiftMirrors (events ++ [event]) (some start) ∧ event.isOpening := by
    intro start hreplay
    obtain ⟨opened, hopened, hnil⟩ := Except.bind_eq_ok.mp hreplay
    cases hnil
    obtain ⟨hopening, hid, -⟩ := Shift.opened_eq_ok hopened
    refine ⟨⟨by rw [hlast, hid], ?_⟩, hopening⟩
    have hnone : events.filter (·.shiftId = start.id) = [] := by
      rw [List.filter_eq_nil_iff]
      intro old hold
      simpa [hid] using hnew hopening old hold
    rw [List.filter_append, hnone]
    simpa [hid] using hreplay
  unfold shiftAfter at h
  cases hrunning : shift.filter (·.status = .open) with
  | none =>
    rw [hrunning] at h
    have hreplay : Shift.replay [event] = .ok shift' := by
      cases event with
      | opened => exact Except.mapError_eq_ok.mp h
      | cashMoved => cases h
      | counted => cases h
      | closed => cases h
    obtain ⟨hmirror, hopening⟩ := hstart hreplay
    exact ⟨hmirror, fun hnot => absurd hopening hnot⟩
  | some running =>
    rw [hrunning] at h
    obtain ⟨rfl, -⟩ := Option.filter_eq_some_iff.mp hrunning
    obtain ⟨hlastOld, hreplay⟩ := hmirrors
    have happly : running.apply event = .ok shift' := by
      cases event with
      | opened => cases h
      | cashMoved => exact Except.mapError_eq_ok.mp h
      | counted => exact Except.mapError_eq_ok.mp h
      | closed => exact Except.mapError_eq_ok.mp h
    obtain ⟨hid, -, -, hid'⟩ := Shift.apply_eq_ok happly
    refine ⟨⟨by rw [hlast, hid, hid'], ?_⟩, fun _ => ?_⟩
    · rw [hid', List.filter_append]
      have hkept : [event].filter (·.shiftId = running.id) = [event] := by simp [hid]
      rw [hkept]
      exact Shift.replay_concat hreplay happly
    · obtain ⟨last, hgetLast, hlastId⟩ := Option.map_eq_some_iff.mp hlastOld
      exact ⟨last, List.mem_of_getLast? hgetLast, hlastId.trans hid.symm⟩

/-- The events of one order go on replaying to it. -/
theorem orderAfter_replays {events : List PurchaseEvent} {order : Option PurchaseOrder}
    {order' : PurchaseOrder} {event : PurchaseEvent}
    (hold : ∀ o, order = some o → PurchaseOrder.replay events = .ok o)
    (hnone : order = none → events = []) (h : orderAfter event order = .ok order') :
    PurchaseOrder.replay (events ++ [event]) = .ok order' := by
  cases order with
  | none =>
    rw [hnone rfl]
    exact Except.mapError_eq_ok.mp h
  | some o => exact PurchaseOrder.replay_concat (hold o rfl) (Except.mapError_eq_ok.mp h)

theorem mirrors_purchase {seen : List (EventEnvelope Payload)} {p : Projections}
    {l : Terminal.Loading} {event : PurchaseEvent} {orders : UuidMap PurchaseOrder}
    (hmirrors : Mirrors seen p l)
    (h : p.orders.alterM event.orderId (orderAfter event) = .ok orders) :
    let events := l.purchaseEvents.insert event.orderId
      (l.purchaseEvents.getD event.orderId [] ++ [event])
    (∀ id : Uuid, orders[id]? =
        events[id]?.bind fun events => (PurchaseOrder.replay events).toOption) ∧
      ∀ id : Uuid, events[id]?.isSome → orders[id]?.isSome := by
  obtain ⟨order, horder, rfl⟩ := UuidMap.alterM_eq_ok.mp h
  have hold := hmirrors.orders event.orderId
  have hplaced := hmirrors.placed event.orderId
  -- the events kept for the order, with this one, replay to the order it leaves
  have hreplay : PurchaseOrder.replay
      (l.purchaseEvents.getD event.orderId [] ++ [event]) = .ok order := by
    rw [Std.ExtTreeMap.getD_eq_getD_getElem?]
    refine orderAfter_replays (fun o ho => ?_) (fun hnone => ?_) horder
    · rw [ho] at hold
      obtain ⟨events, hevents, hreplay⟩ := Option.bind_eq_some_iff.mp hold.symm
      rw [hevents]
      exact Except.toOption_eq_some.mp hreplay
    · rw [hnone] at hplaced
      cases hevents : l.purchaseEvents[event.orderId]? with
      | none => rfl
      | some events => simp [hevents] at hplaced
  refine ⟨fun id => ?_, fun id => ?_⟩
  · rw [UuidMap.get_insert, UuidMap.get_insert]
    by_cases hid : event.orderId = id
    · rw [if_pos hid, if_pos hid]
      exact (Except.toOption_eq_some.mpr hreplay).symm
    · rw [if_neg hid, if_neg hid]
      exact hmirrors.orders id
  · rw [UuidMap.get_insert, UuidMap.get_insert]
    by_cases hid : event.orderId = id
    · simp [hid]
    · rw [if_neg hid, if_neg hid]
      exact hmirrors.placed id

theorem openedShift_concat (seen : List (EventEnvelope Payload)) (e : EventEnvelope Payload) :
    (seen ++ [e]).filterMap openedShift = seen.filterMap openedShift ++ (openedShift e).toList := by
  rw [List.filterMap_append]
  cases h : openedShift e with
  | none => simp [h]
  | some id => simp [h]

/-! ### One event, by its family -/

section Families

variable {own : Uuid} {seen : List (EventEnvelope Payload)} {p p' : Projections}
  {l : Terminal.Loading} {e : EventEnvelope Payload}

theorem Mirrors.opened_concat (hmirrors : Mirrors seen p l) (e : EventEnvelope Payload) :
    ∀ event ∈ l.shiftEvents, event.shiftId ∈ (seen ++ [e]).filterMap openedShift := by
  intro event hevent
  rw [openedShift_concat]
  exact List.mem_append_left _ (hmirrors.opened event hevent)

theorem mirrors_sale {event : SaleEvent} (hmirrors : Mirrors seen p l)
    (hread : e.read = some (.sale event)) (h : p.apply (.sale event) = .ok p') :
    ∃ l', l.step own e = .ok l' ∧ Mirrors (seen ++ [e]) p' l' := by
  obtain ⟨book, hbook, h⟩ := Except.bind_eq_ok.mp h
  cases h
  obtain ⟨-, rfl⟩ := Outcome.toExcept_eq_ok.mp (Except.mapError_eq_ok.mp hbook)
  refine ⟨{ l with book := (l.book.apply event).state }, ?_, ?_⟩
  · simp only [Terminal.Loading.step, hread]
  · exact { hmirrors with
      book := by rw [hmirrors.book]
      opened := hmirrors.opened_concat e }

/-- An opened shift has to be new; what is read of it goes on from its own events. -/
theorem mirrors_shift {event : ShiftEvent} (hmirrors : Mirrors seen p l)
    (hnodup : ((seen ++ [e]).filterMap openedShift).Nodup)
    (hread : e.read = some (.shift event)) (h : p.apply (.shift event) = .ok p') :
    ∃ l', l.step own e = .ok l' ∧ Mirrors (seen ++ [e]) p' l' := by
  obtain ⟨shift', hshift, h⟩ := Except.bind_eq_ok.mp h
  cases h
  have hthis : event.isOpening → openedShift e = some event.shiftId := by
    intro hopening
    simp only [openedShift, hread, Option.bind_some, DomainEvent.opensShift, hopening, if_true]
  have hnew : event.isOpening → ∀ old ∈ l.shiftEvents, old.shiftId ≠ event.shiftId := by
    intro hopening old hold hsame
    rw [openedShift_concat, hthis hopening, List.nodup_append] at hnodup
    exact hnodup.2.2 _ (hmirrors.opened old hold) _ (by simp) hsame
  obtain ⟨hshiftMirrors, hknown⟩ := shiftAfter_mirrors hmirrors.shift hnew hshift
  refine ⟨{ l with shiftEvents := l.shiftEvents ++ [event] }, ?_, ?_⟩
  · simp only [Terminal.Loading.step, hread]
  refine { hmirrors with shift := hshiftMirrors, opened := ?_ }
  intro old hold
  rcases List.mem_append.mp hold with hold | hlast
  · exact hmirrors.opened_concat e old hold
  · rw [List.mem_singleton.mp hlast]
    by_cases hopening : event.isOpening
    · rw [openedShift_concat, hthis hopening]
      exact List.mem_append_right _ (List.mem_singleton_self _)
    · obtain ⟨first, hfirst, hsame⟩ := hknown hopening
      rw [← hsame]
      exact hmirrors.opened_concat e first hfirst

theorem mirrors_inventory {event : InventoryEvent} (hmirrors : Mirrors seen p l)
    (hread : e.read = some (.inventory event)) (h : p.apply (.inventory event) = .ok p') :
    ∃ l', l.step own e = .ok l' ∧ Mirrors (seen ++ [e]) p' l' := by
  obtain ⟨stock, hstock, h⟩ := Except.bind_eq_ok.mp h
  cases h
  refine ⟨{ l with stock }, ?_,
    { hmirrors with stock := rfl, opened := hmirrors.opened_concat e }⟩
  simp only [Terminal.Loading.step, hread, hmirrors.stock]
  exact Except.bind_eq_ok.mpr ⟨stock, hstock, rfl⟩

theorem mirrors_catalogue {event : CatalogueEvent} (hmirrors : Mirrors seen p l)
    (hread : e.read = some (.catalogue event)) (h : p.apply (.catalogue event) = .ok p') :
    ∃ l', l.step own e = .ok l' ∧ Mirrors (seen ++ [e]) p' l' := by
  obtain ⟨catalogue, hcatalogue, h⟩ := Except.bind_eq_ok.mp h
  cases h
  refine ⟨{ l with catalogue }, ?_,
    { hmirrors with catalogue := rfl, opened := hmirrors.opened_concat e }⟩
  simp only [Terminal.Loading.step, hread, hmirrors.catalogue]
  rw [Except.toOption_eq_some.mpr (Except.mapError_eq_ok.mp hcatalogue)]
  rfl

theorem mirrors_floor {event : FloorEvent} (hmirrors : Mirrors seen p l)
    (hread : e.read = some (.floor event)) (h : p.apply (.floor event) = .ok p') :
    ∃ l', l.step own e = .ok l' ∧ Mirrors (seen ++ [e]) p' l' := by
  obtain ⟨floor, hfloor, h⟩ := Except.bind_eq_ok.mp h
  cases h
  refine ⟨{ l with floor }, ?_,
    { hmirrors with floor := rfl, opened := hmirrors.opened_concat e }⟩
  simp only [Terminal.Loading.step, hread, hmirrors.floor]
  rw [Except.toOption_eq_some.mpr (Except.mapError_eq_ok.mp hfloor)]
  rfl

theorem mirrors_staff {event : StaffEvent} (hmirrors : Mirrors seen p l)
    (hread : e.read = some (.staff event)) (h : p.apply (.staff event) = .ok p') :
    ∃ l', l.step own e = .ok l' ∧ Mirrors (seen ++ [e]) p' l' := by
  obtain ⟨staff, hstaff, h⟩ := Except.bind_eq_ok.mp h
  cases h
  refine ⟨{ l with staff }, ?_,
    { hmirrors with staff := rfl, opened := hmirrors.opened_concat e }⟩
  simp only [Terminal.Loading.step, hread, hmirrors.staff]
  exact Except.bind_eq_ok.mpr ⟨staff, hstaff, rfl⟩

theorem mirrors_order {event : PurchaseEvent} (hmirrors : Mirrors seen p l)
    (hread : e.read = some (.purchase event)) (h : p.apply (.purchase event) = .ok p') :
    ∃ l', l.step own e = .ok l' ∧ Mirrors (seen ++ [e]) p' l' := by
  obtain ⟨orders, horders, h⟩ := Except.bind_eq_ok.mp h
  cases h
  obtain ⟨horders', hplaced⟩ := mirrors_purchase hmirrors horders
  refine ⟨{ l with purchaseEvents := _ }, by simp only [Terminal.Loading.step, hread]; rfl, ?_⟩
  exact { hmirrors with
    orders := horders'
    placed := hplaced
    opened := hmirrors.opened_concat e }

/-- A load reads the next event of a recorded log as the till did, opened shifts being new. -/
theorem mirrors_step (hmirrors : Mirrors seen p l)
    (hnodup : ((seen ++ [e]).filterMap openedShift).Nodup) (h : p.recordStep e = .ok p') :
    ∃ l', l.step own e = .ok l' ∧ Mirrors (seen ++ [e]) p' l' := by
  have hopened := hmirrors.opened_concat e
  unfold recordStep at h
  cases hread : e.read with
  | none =>
    rw [hread] at h
    cases h
    exact ⟨l, by simp only [Terminal.Loading.step, hread], { hmirrors with opened := hopened }⟩
  | some event =>
    rw [hread] at h
    cases event with
    | sale => exact mirrors_sale hmirrors hread h
    | shift => exact mirrors_shift hmirrors hnodup hread h
    | inventory => exact mirrors_inventory hmirrors hread h
    | catalogue => exact mirrors_catalogue hmirrors hread h
    | floor => exact mirrors_floor hmirrors hread h
    | staff => exact mirrors_staff hmirrors hread h
    | purchase => exact mirrors_order hmirrors hread h
    -- neither the settings nor the fiscal tip are among what is mirrored
    | outlet event =>
      cases h
      refine ⟨{ l with outlet := event.toConfig.toOption.or l.outlet }, ?_, ?_⟩
      · simp only [Terminal.Loading.step, hread]
      · exact { hmirrors with opened := hopened }
    | fiscal event =>
      cases h
      obtain ⟨invoice, content, at', issuedBy⟩ := event
      simp only [Terminal.Loading.step, hread]
      split
      · exact ⟨_, rfl, { hmirrors with opened := hopened }⟩
      · exact ⟨_, rfl, { hmirrors with opened := hopened }⟩

end Families

/-- A load reads a whole recorded log as the till did. -/
theorem mirrors_recorded (own : Uuid) {es : List (EventEnvelope Payload)} {p : Projections}
    (hnodup : (es.filterMap openedShift).Nodup) (h : es.foldlM recordStep .empty = .ok p) :
    ∃ l, es.foldlM (Terminal.Loading.step own) .empty = .ok l ∧ Mirrors es p l := by
  have hinv := foldlM_invariant (fun seen p => (seen.filterMap openedShift).Nodup →
    ∃ l, seen.foldlM (Terminal.Loading.step own) .empty = .ok l ∧ Mirrors seen p l) ?_ ?_ h
  · exact hinv hnodup
  · intro seen p e p' hseen hstep hnodup
    have hbefore : (seen.filterMap openedShift).Nodup := by
      rw [openedShift_concat] at hnodup
      exact (List.nodup_append.mp hnodup).1
    obtain ⟨l, hload, hmirrors⟩ := hseen hbefore
    obtain ⟨l', hstep', hmirrors'⟩ := mirrors_step hmirrors hnodup hstep
    refine ⟨l', ?_, hmirrors'⟩
    exact foldlM_append_eq_ok.mpr ⟨l, hload, foldlM_cons_eq_ok.mpr ⟨l', hstep', rfl⟩⟩
  · intro _
    exact ⟨.empty, rfl, mirrors_empty⟩

theorem Mirrors.latestOpenShift {seen : List (EventEnvelope Payload)} {p : Projections}
    {l : Terminal.Loading} (h : Mirrors seen p l) :
    Terminal.latestOpenShift l.shiftEvents = .ok (p.shift.filter (·.status = .open)) := by
  have hshift := h.shift
  unfold Terminal.latestOpenShift
  cases hrunning : p.shift with
  | none =>
    rw [hrunning] at hshift
    rw [show l.shiftEvents = [] from hshift]
    rfl
  | some shift =>
    rw [hrunning] at hshift
    obtain ⟨hlast, hreplay⟩ := hshift
    obtain ⟨last, hgetLast, hid⟩ := Option.map_eq_some_iff.mp hlast
    rw [hgetLast]
    simp only [hid]
    refine Except.bind_eq_ok.mpr ⟨shift, hreplay, ?_⟩
    by_cases hopen : shift.status = .open
    · rw [if_pos hopen, Option.filter_some_pos (by simpa using hopen)]
    · rw [if_neg hopen, Option.filter_some_neg (by simpa using hopen)]

theorem Mirrors.orders_eq {seen : List (EventEnvelope Payload)} {p : Projections}
    {l : Terminal.Loading} (h : Mirrors seen p l) :
    (l.purchaseEvents.filterMap fun _ events => (PurchaseOrder.replay events).toOption) =
      p.orders := by
  refine Std.ExtTreeMap.ext_getElem? fun id => ?_
  rw [Std.ExtTreeMap.getElem?_filterMap', h.orders id]

end Projections

end Sahl
