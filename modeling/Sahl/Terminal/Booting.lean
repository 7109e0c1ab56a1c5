import Mathlib.Tactic
import Sahl.Terminal.Loading

/-! # What keeps a till from loading

    A load reads the events of every device in one order. It skips what does not apply of the
    sales, the catalogue, the floor and the orders, and gives up over stock, staff and the last
    shift: those must replay, in that order, whoever recorded them (`load_isOkay_iff`). -/

namespace Sahl

/-! ## Section 1: The streams a load must replay -/

namespace Terminal

/-- A log, in the order it is read in: every batch is received before anything else happens to it,
    every person enrolled, and the shift of the last shift event opened; each once. -/
structure InOrder (log : List (EventEnvelope Payload)) : Prop where
  batches : ∀ batchId : Uuid, InventoryEvent.ReceivedFirst
    ((log.filterMap (·.stockEvent)).filter (·.batchId = batchId))
  people : ∀ staffId : Uuid, Directory.EnrolledFirst
    ((log.filterMap (·.staffEvent)).filter (·.staffId = staffId))
  lastShift : ∀ last, (log.filterMap (·.shiftEvent)).getLast? = some last →
    Shift.OpenedFirst ((log.filterMap (·.shiftEvent)).filter (·.shiftId = last.shiftId))

/-- Only stock and staff events can stop a load on its way. -/
theorem Loading.step_isOkay (own : Uuid) {l : Loading} {e : EventEnvelope Payload}
    (hstock : (e.stockEvent.toList.foldlM InventoryBook.apply l.stock).isOkay)
    (hstaff : (e.staffEvent.toList.foldlM Directory.apply l.staff).isOkay) :
    (l.step own e).isOkay := by
  rw [Loading.step]
  unfold EventEnvelope.stockEvent at hstock
  unfold EventEnvelope.staffEvent at hstaff
  cases hread : e.read with
  | none => rfl
  | some event =>
    rw [hread] at hstock hstaff
    cases event with
    | inventory event =>
      obtain ⟨stock, happly, -⟩ := foldlM_cons_isOkay.mp hstock
      exact Except.isOkay_iff.mpr
        ⟨_, Except.bind_eq_ok.mpr ⟨stock, Except.mapError_eq_ok.mpr happly, rfl⟩⟩
    | staff event =>
      obtain ⟨staff, happly, -⟩ := foldlM_cons_isOkay.mp hstaff
      exact Except.isOkay_iff.mpr
        ⟨_, Except.bind_eq_ok.mpr ⟨staff, Except.mapError_eq_ok.mpr happly, rfl⟩⟩
    | fiscal event =>
      -- an invoice of another device's is passed over
      obtain ⟨invoice, content, at', issuedBy⟩ := event
      simp only
      split <;> rfl
    | sale | shift | catalogue | floor | outlet | purchase => rfl

/-- A load reads a log to its end exactly when the stock and the staff of it replay. -/
theorem Loading.foldlM_isOkay (own : Uuid) (log : List (EventEnvelope Payload)) (l : Loading) :
    (log.foldlM (Loading.step own) l).isOkay ↔
      ((log.filterMap (·.stockEvent)).foldlM InventoryBook.apply l.stock).isOkay ∧
        ((log.filterMap (·.staffEvent)).foldlM Directory.apply l.staff).isOkay := by
  induction log generalizing l with
  | nil => exact ⟨fun _ => ⟨rfl, rfl⟩, fun _ => rfl⟩
  | cons e log ih =>
    rw [foldlM_cons_isOkay, filterMap_cons_toList, filterMap_cons_toList, foldlM_append_isOkay,
      foldlM_append_isOkay]
    constructor
    · rintro ⟨l', hstep, hrest⟩
      have hstepped := Loading.step_eq_ok hstep
      obtain ⟨hstock, hstaff⟩ := (ih l').mp hrest
      exact ⟨⟨_, hstepped.stock, hstock⟩, ⟨_, hstepped.staff, hstaff⟩⟩
    · rintro ⟨⟨stock, hstock, hstock'⟩, ⟨staff, hstaff, hstaff'⟩⟩
      obtain ⟨l', hstep⟩ := Except.isOkay_iff.mp (Loading.step_isOkay own
        (Except.isOkay_iff.mpr ⟨_, hstock⟩) (Except.isOkay_iff.mpr ⟨_, hstaff⟩))
      -- the state after the step is that of the two folds
      have hsameStock := (Loading.step_eq_ok hstep).stock
      have hsameStaff := (Loading.step_eq_ok hstep).staff
      rw [hstock] at hsameStock
      rw [hstaff] at hsameStaff
      cases hsameStock
      cases hsameStaff
      exact ⟨l', hstep, (ih l').mpr ⟨hstock', hstaff'⟩⟩

theorem latestOpenShift_isOkay (events : List ShiftEvent) :
    (latestOpenShift events).isOkay ↔ ∀ last, events.getLast? = some last →
      Shift.OpenedFirst (events.filter (·.shiftId = last.shiftId)) := by
  unfold latestOpenShift
  cases hlast : events.getLast? with
  | none => simp [Except.isOkay]
  | some last =>
    have hid : ∀ event ∈ events.filter (·.shiftId = last.shiftId), event.shiftId = last.shiftId := by
      intro event hevent
      simpa using (List.mem_filter.mp hevent).2
    simp only [Option.some.injEq, forall_eq', ← Shift.replay_isOkay_iff hid]
    cases Shift.replay (events.filter (·.shiftId = last.shiftId)) <;> rfl

/-! ## Section 2: Every run -/

/-- **Booting**: in every run of a till, whatever its siblings send, it loads exactly when the
    events it holds are in order, as they are read. -/
theorem load_isOkay_iff {digests : Digests} {t : Terminal}
    (h : Transition.Reachable Fresh (step digests) t) :
    (load digests t.store t.identity).isOkay ↔ InOrder t.store.loadProjectionInput := by
  have hinv := inv_reachable h
  have hread := Loading.foldlM_isOkay t.identity.deviceId t.store.loadProjectionInput .empty
  constructor
  · intro hload
    obtain ⟨t', ht'⟩ := Except.isOkay_iff.mp hload
    obtain ⟨loaded, shift, hloaded, hshift, -⟩ := hinv.load_eq_ok.mp ht'
    obtain ⟨hstock, hstaff⟩ := hread.mp (Except.isOkay_iff.mpr ⟨_, hloaded⟩)
    refine ⟨(InventoryBook.replay_isOkay_iff _).mp hstock,
      (Directory.replay_isOkay_iff _).mp hstaff, ?_⟩
    rw [← Loading.foldlM_shiftEvents hloaded]
    exact (latestOpenShift_isOkay _).mp (Except.isOkay_iff.mpr ⟨_, hshift⟩)
  · rintro ⟨hbatches, hpeople, hshift⟩
    obtain ⟨loaded, hloaded⟩ := Except.isOkay_iff.mp (hread.mpr
      ⟨(InventoryBook.replay_isOkay_iff _).mpr hbatches,
        (Directory.replay_isOkay_iff _).mpr hpeople⟩)
    rw [← Loading.foldlM_shiftEvents hloaded] at hshift
    obtain ⟨shift, hlatest⟩ := Except.isOkay_iff.mp ((latestOpenShift_isOkay _).mpr hshift)
    exact Except.isOkay_iff.mpr ⟨_, hinv.load_eq_ok.mpr ⟨loaded, shift, hloaded, hlatest, rfl⟩⟩

/-! ### A window of a sibling's history -/

/-- A server that answers every pull with the same events. -/
def serving (events : List (EventEnvelope Payload)) : Transport Payload where
  push := fun _ => .error .invalid
  pull := fun cursor _ => .ok ⟨events, cursor + 1, false⟩

/-- A server that takes what it is sent, and answers every pull with the same events. -/
def taking (events : List (EventEnvelope Payload)) : Transport Payload where
  push := fun batch => .ok ⟨batch.length, 0,
    ⟨(batch.getLast?.map (·.deviceSeq)).getD 0, EventHash.genesis⟩, 0⟩
  pull := (serving events).pull

theorem serving_servesSiblings {events : List (EventEnvelope Payload)} {d : Uuid}
    (h : ∀ e ∈ events, e.deviceId ≠ d) : ServesSiblings (serving events) d := by
  intro cursor page hpage e he
  cases hpage
  exact h e he

/-- The till of device 4 receives a batch and issues a unit of it. -/
def sibling : Terminal :=
  (fresh ⟨1, 2, 4⟩).performAll plainDigests
    [(true, instant 10, receive 30), (true, instant 11, issue 30 101)]

/-- The till of device 3, once it has pulled some of the sibling's events. -/
def pulled (window : List (EventEnvelope Payload)) : Terminal × Except SyncClientError SyncOutcome :=
  till3.sync plainDigests (serving window) 0

theorem pulled_reachable {window : List (EventEnvelope Payload)}
    (h : ∀ e ∈ window, e.deviceId ≠ 3) :
    Transition.Reachable Fresh (step plainDigests) (pulled window).1 := by
  have hserves : ServesSiblings (serving window) till3.identity.deviceId :=
    serving_servesSiblings h
  exact .step (.sync (serving window) 0) (.init ⟨_, rfl⟩) ⟨hserves, rfl⟩

/-- With the whole history the till loads. -/
theorem load_isOkay_iff_wholeHistory :
    InOrder (pulled sibling.store.loadAll).1.store.loadProjectionInput :=
  (load_isOkay_iff (pulled_reachable (by decide))).mp (by decide)

/-- With the issue alone, which a window can begin with, it does not. -/
theorem window_stops_load :
    let till := pulled (sibling.store.loadAll.drop 1)
    Transition.Reachable Fresh (step plainDigests) sibling ∧ till.2.isOkay ∧
      Transition.Reachable Fresh (step plainDigests) till.1 ∧
      load plainDigests till.1.store till.1.identity = .error (.inventory (.unknownBatch 30)) := by
  refine ⟨?_, by decide, pulled_reachable (by decide), by rfl⟩
  exact performAll_run _ (.init ⟨_, rfl⟩)

end Terminal

end Sahl
