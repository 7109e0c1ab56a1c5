import Mathlib.Tactic
import Sahl.Terminal.OwnLog
import Sahl.Terminal.Rebuild
import Sahl.Terminal.Independence

/-! # Restarting

    A load reads the log in the order of its instants, not in the order it was recorded in. It
    gives back the projections of the running till as long as what it turns round may be read in
    either order (`load_restores`); a clock put back between a delivery and its sale stops the
    till from loading at all (`clockBack_fails`). -/

namespace Sahl

/-! ## Section 1: A closed shift is history -/

namespace Projections

/-- The projections as a restart resumes them: a closed shift is not resumed. -/
def resumed (p : Projections) : Projections :=
  { p with shift := p.shift.filter (·.status = .open) }

theorem shiftAfter_filter (shift : Option Shift) (event : ShiftEvent) :
    shiftAfter (shift.filter (·.status = .open)) event = shiftAfter shift event := by
  unfold shiftAfter
  rw [Option.filter_filter]
  simp only [Bool.and_self]

/-- Whether a closed shift is remembered makes no difference to what happens next. -/
theorem apply_resumed {p q p' : Projections} {event : DomainEvent} (h : p.resumed = q.resumed)
    (happly : p.apply event = .ok p') :
    ∃ q', q.apply event = .ok q' ∧ p'.resumed = q'.resumed := by
  have hshift : p.shift.filter (·.status = .open) = q.shift.filter (·.status = .open) :=
    congrArg Projections.shift h
  have hrest : q = { p with shift := q.shift } := by
    obtain ⟨book, shift, stock, staff, catalogue, floor, orders⟩ := p
    obtain ⟨book', shift', stock', staff', catalogue', floor', orders'⟩ := q
    simp only [resumed, mk.injEq] at h
    obtain ⟨rfl, -, rfl, rfl, rfl, rfl, rfl⟩ := h
    rfl
  by_cases hfamily : event.family = .shift
  · cases event <;> cases hfamily
    rename_i event
    obtain ⟨shift, hafter, happly⟩ := Except.bind_eq_ok.mp happly
    cases happly
    rw [← shiftAfter_filter, hshift, shiftAfter_filter] at hafter
    refine ⟨{ q with shift := some shift }, Except.bind_eq_ok.mpr ⟨shift, hafter, rfl⟩, ?_⟩
    rw [hrest]
  · -- an event of another family does not look at the shift
    obtain ⟨v, hv, rfl⟩ := apply_eq_ok.mp happly
    have hset : q = p.setPart .shift q.shift := hrest
    rw [hset]
    refine ⟨_, apply_eq_ok.mpr ⟨v, ?_, rfl⟩, ?_⟩
    · rw [part_setPart_of_ne (Ne.symm hfamily)]
      exact hv
    · rw [setPart_comm (Ne.symm hfamily)]
      show ({ (p.setPart event.family v) with
          shift := (p.setPart event.family v).shift.filter (·.status = .open) } : Projections) =
        { (p.setPart event.family v) with shift := q.shift.filter (·.status = .open) }
      have hkept : (p.setPart event.family v).part .shift = p.part .shift :=
        part_setPart_of_ne hfamily p v
      rw [show (p.setPart event.family v).shift = p.shift from hkept, hshift]

theorem foldlM_apply_resumed {events : List DomainEvent} {p q p' : Projections}
    (h : p.resumed = q.resumed) (hfold : events.foldlM apply p = .ok p') :
    ∃ q', events.foldlM apply q = .ok q' ∧ p'.resumed = q'.resumed := by
  induction events generalizing p q with
  | nil =>
    cases hfold
    exact ⟨q, rfl, h⟩
  | cons event events ih =>
    obtain ⟨next, hstep, hrest⟩ := foldlM_cons_eq_ok.mp hfold
    obtain ⟨next', hstep', hnext⟩ := apply_resumed h hstep
    obtain ⟨q', hrest', hresumed⟩ := ih hnext hrest
    exact ⟨q', foldlM_cons_eq_ok.mpr ⟨next', hstep', hrest'⟩, hresumed⟩

theorem recordStep_carried {occurredAt : Timestamp} {recorded : Uuid × DomainEvent}
    {e : EventEnvelope Payload} (h : Terminal.Carries occurredAt recorded e) (p : Projections) :
    p.recordStep e = p.apply recorded.2 := by
  unfold recordStep
  rw [h.read]

/-- A run of stored events is applied as the events it carries are. -/
theorem foldlM_recordStep {occurredAt : Timestamp} {events : List (Uuid × DomainEvent)}
    {es : List (EventEnvelope Payload)} (h : List.Forall₂ (Terminal.Carries occurredAt) events es)
    (p : Projections) : es.foldlM recordStep p = (events.map (·.2)).foldlM apply p := by
  induction h generalizing p with
  | nil => rfl
  | cons hcarries _ ih =>
    rw [List.map_cons, List.foldlM_cons, List.foldlM_cons, recordStep_carried hcarries]
    exact congrArg _ (funext ih)

theorem swappable_recordStep {x y : EventEnvelope Payload} {a b : DomainEvent}
    (hx : x.read = some a) (hy : y.read = some b) (h : Replay.Swappable apply a b) :
    Replay.Swappable recordStep x y := by
  have hstepX : ∀ p : Projections, p.recordStep x = p.apply a := fun p => by rw [recordStep, hx]
  have hstepY : ∀ p : Projections, p.recordStep y = p.apply b := fun p => by rw [recordStep, hy]
  intro p q r hfirst hsecond
  rw [hstepX] at hfirst
  rw [hstepY] at hsecond
  obtain ⟨mid, hmid, hlast⟩ := h p q r hfirst hsecond
  exact ⟨mid, (hstepY p).trans hmid, (hstepX mid).trans hlast⟩

/-- What cannot be read changes nothing. -/
theorem swappable_unread {x y : EventEnvelope Payload} (hx : x.read = none) :
    Replay.Swappable recordStep x y := by
  have hstep : ∀ p : Projections, p.recordStep x = .ok p := fun p => by rw [recordStep, hx]
  intro p q r hfirst hsecond
  rw [hstep] at hfirst
  cases hfirst
  exact ⟨r, hsecond, hstep r⟩

/-- An invoice changes nothing of the projections. -/
theorem swappable_fiscal {a b : DomainEvent} (h : b.family = .fiscal) :
    Replay.Swappable apply a b := by
  have hstep : ∀ p : Projections, p.apply b = .ok p := by
    cases b <;> cases h
    exact fun p => by rw [apply]
  intro p q r hfirst hsecond
  rw [hstep] at hsecond
  cases hsecond
  exact ⟨p, hstep p, hfirst⟩

end Projections

/-! ## Section 2: Calls in replay order -/

namespace Terminal

/-- The events a call asks for, with their ids; an invoice that is issued on the way is not among
    them. -/
def Call.asked : Call → List (Uuid × DomainEvent)
  | .record event eventId => [(eventId, .sale event)]
  | .recordShift event eventId => [(eventId, .shift event)]
  | .recordStock event eventId => [(eventId, .inventory event)]
  | .recordPurchase event eventId => [(eventId, .purchase event)]
  | .recordStaff event eventId => [(eventId, .staff event)]
  | .recordCatalogue event eventId => [(eventId, .catalogue event)]
  | .recordFloor event eventId => [(eventId, .floor event)]
  | .recordOutlet event eventId => [(eventId, .outlet event)]
  | .completeSale event _ _ saleEventId _ => [(saleEventId, .sale event)]
  | .recordReceipt purchase stock purchaseEventId stockEventId =>
    [(purchaseEventId, .purchase purchase), (stockEventId, .inventory stock)]

/-- A load reads the new event in its turn: the stored events it is read before could have come
    after it. -/
def InTurn (t : Terminal) (occurredAt : Timestamp) (recorded : Uuid × DomainEvent) : Prop :=
  ∀ e ∈ t.store.events, ∀ event, e.read = some event →
    toLex (occurredAt, recorded.1) < replayKey e →
      Replay.Swappable Projections.apply event recorded.2

/-- No shift is opened under the id of an earlier one. -/
def NewShift (t : Terminal) (event : DomainEvent) : Prop :=
  ∀ id, event.opensShift = some id → id ∉ t.store.events.filterMap Projections.openedShift

/-- Runs of one till, by itself, in which every event is read in its turn. -/
def InReplayOrder (t : Terminal) : Action → Prop
  | .call _ occurredAt call =>
    ∀ recorded ∈ call.asked, t.InTurn occurredAt recorded ∧ t.NewShift recorded.2
  | .restart => True
  | .sync _ _ => False

/-- What a call writes is what it asks for, and the invoice it issues. -/
theorem prepare_events {digests : Digests} {occurredAt : Timestamp} {t : Terminal} {call : Call}
    {p : Prepared} (h : t.prepare digests occurredAt call = .ok p) :
    ∃ invoices, p.events = call.asked ++ invoices ∧
      ∀ recorded ∈ invoices, recorded.2.family = .fiscal := by
  have hone : ∀ {event eventId}, t.prepareOne event eventId = .ok p →
      p.events = [(eventId, event)] := by
    intro event eventId h
    obtain ⟨candidate, -, h⟩ := Except.bind_eq_ok.mp h
    cases h
    rfl
  cases call with
  | record event eventId =>
    obtain ⟨_, -, h⟩ := Except.bind_eq_ok.mp h
    exact ⟨[], hone h, by simp⟩
  | recordOutlet event eventId =>
    obtain ⟨config, -, h⟩ := Except.bind_eq_ok.mp h
    cases h
    exact ⟨[], rfl, by simp⟩
  | completeSale =>
    -- the one call that writes more than it is asked to
    simp only [prepare, prepareCompleteSale, Except.bind_eq_ok] at h
    obtain ⟨_, -, candidate, -, sale, -, totals, -, invoice, -, h⟩ := h
    cases h
    exact ⟨[_], rfl, by simp [DomainEvent.family]⟩
  | recordReceipt =>
    simp only [prepare, prepareReceipt, Except.bind_eq_ok] at h
    obtain ⟨_, -, ordered, -, candidate, -, h⟩ := h
    cases h
    exact ⟨[], rfl, by simp⟩
  | recordShift | recordStock | recordPurchase | recordStaff | recordCatalogue | recordFloor =>
    exact ⟨[], hone h, by simp⟩

theorem opensShift_fiscal {event : DomainEvent} (h : event.family = .fiscal) :
    event.opensShift = none := by
  cases event <;> first | rfl | cases h

/-- The events of one call can be read in either order, and open one shift at most. -/
theorem asked_swappable (call : Call) {invoices : List (Uuid × DomainEvent)}
    (hinvoices : ∀ recorded ∈ invoices, recorded.2.family = .fiscal) :
    (call.asked ++ invoices).Pairwise (fun a b => Replay.Swappable Projections.apply a.2 b.2) ∧
      ((call.asked ++ invoices).filterMap (·.2.opensShift)).Nodup := by
  have hnone : invoices.filterMap (·.2.opensShift) = [] := by
    rw [List.filterMap_eq_nil_iff]
    intro recorded hrecorded
    exact opensShift_fiscal (hinvoices recorded hrecorded)
  -- only a receipt asks for two events, of two families
  have hpairs : call.asked.Pairwise (fun a b => Replay.Swappable Projections.apply a.2 b.2) := by
    cases call with
    | recordReceipt =>
      refine List.pairwise_pair.mpr (Projections.swappable_of_family ?_)
      simp [DomainEvent.family]
    | _ => exact List.pairwise_singleton _ _
  have hopened : (call.asked.filterMap (·.2.opensShift)).Nodup := by
    cases call with
    | recordShift event eventId =>
      simp only [Call.asked, List.filterMap_cons, List.filterMap_nil]
      cases DomainEvent.opensShift (.shift event) <;> simp
    | _ => exact List.nodup_nil
  refine ⟨List.pairwise_append.mpr ⟨hpairs, ?_, ?_⟩, ?_⟩
  · refine List.pairwise_of_forall_mem_list fun a _ b hb => ?_
    exact Projections.swappable_fiscal (hinvoices b hb)
  · exact fun a _ b hb => Projections.swappable_fiscal (hinvoices b hb)
  · rw [List.filterMap_append, hnone, List.append_nil]
    exact hopened

theorem Carries.opened {occurredAt : Timestamp} {events : List (Uuid × DomainEvent)}
    {es : List (EventEnvelope Payload)} (h : List.Forall₂ (Carries occurredAt) events es) :
    es.filterMap Projections.openedShift = events.filterMap (·.2.opensShift) := by
  induction h with
  | nil => rfl
  | cons hcarries _ ih =>
    rw [List.filterMap_cons, List.filterMap_cons, ih, Projections.openedShift, hcarries.read]
    rfl

/-! ## Section 3: Every run -/

/-- The stored log is one that a load reads as the till recorded it. -/
structure Replayable (t : Terminal) : Prop where
  recorded : ∃ p, t.store.events.foldlM Projections.recordStep .empty = .ok p ∧
    p.resumed = t.toProjections.resumed
  turned : Replay.SwappableWhereTurned Projections.recordStep
    (fun a b => replayKey a ≤ replayKey b) t.store.events
  opened : (t.store.events.filterMap Projections.openedShift).Nodup

theorem replayable_fresh {t : Terminal} (h : Fresh t) : Replayable t := by
  obtain ⟨identity, rfl⟩ := h
  exact ⟨⟨.empty, rfl, rfl⟩, .nil, .nil⟩

/-- A till whose log is replayable restarts as it is. -/
theorem load_of_replayable {digests : Digests} {t : Terminal} (hinv : Inv digests t)
    (h : Replayable t) : ∃ t', load digests t.store t.identity = .ok t' ∧
      t'.toProjections = t.toProjections.resumed := by
  obtain ⟨p, hfold, hresumed⟩ := h.recorded
  have hsorted := Replay.foldlM_insertionSort h.turned hfold
  have hnodup : (t.store.loadProjectionInput.filterMap Projections.openedShift).Nodup :=
    ((List.perm_insertionSort _ _).filterMap _).nodup_iff.mpr h.opened
  obtain ⟨loaded, hloaded, hmirrors⟩ :=
    Projections.mirrors_recorded t.identity.deviceId hnodup hsorted
  refine ⟨_, hinv.load_eq_ok.mpr ⟨loaded, _, hloaded, hmirrors.latestOpenShift, rfl⟩, ?_⟩
  rw [← hresumed]
  simp only [Loading.till, Projections.resumed, hmirrors.book, hmirrors.stock, hmirrors.staff,
    hmirrors.catalogue, hmirrors.floor, hmirrors.orders_eq]

theorem replayable_stored {occurredAt : Timestamp} {digests : Digests} {t : Terminal}
    {call : Call} {p : Prepared} {chain : EventChain} {es : List (EventEnvelope Payload)}
    {store : EventStore Payload} (h : Replayable t)
    (hguard : t.InReplayOrder (.call true occurredAt call))
    (hprepare : t.prepare digests occurredAt call = .ok p)
    (hcarries : List.Forall₂ (Carries occurredAt) p.events es)
    (hstore : t.store.appendAll es = .ok store) :
    Replayable { p.adopted with store, chain } := by
  obtain ⟨invoices, hevents, hinvoices⟩ := prepare_events hprepare
  have hstored := EventStore.appendAll_events hstore
  obtain ⟨hpairs, hnodup⟩ := asked_swappable call hinvoices
  rw [← hevents] at hpairs hnodup
  refine ⟨?_, ?_, ?_⟩
  · -- in the order of recording: the log so far, then the events of the call
    obtain ⟨q, hfold, hresumed⟩ := h.recorded
    obtain ⟨q', hnew, hresumed'⟩ :=
      Projections.foldlM_apply_resumed hresumed.symm (prepare_adopts hprepare).projections
    refine ⟨q', ?_, hresumed'.symm⟩
    show store.events.foldlM _ _ = _
    rw [hstored]
    refine foldlM_append_eq_ok.mpr ⟨q, hfold, ?_⟩
    rw [Projections.foldlM_recordStep hcarries]
    exact hnew
  · show store.events.Pairwise _
    rw [hstored]
    refine List.pairwise_append.mpr ⟨h.turned, ?_, ?_⟩
    · -- the events of one call can be turned round among themselves
      refine forall₂_pairwise hcarries hpairs fun a b x y hx hy hswap _ => ?_
      exact Projections.swappable_recordStep hx.read hy.read hswap
    · -- an event replayed before one that was recorded earlier is the guard's to allow
      intro a ha e he hturned
      obtain ⟨recorded, hrecorded, hcarried⟩ := forall₂_mem_right hcarries he
      cases hread : a.read with
      | none => exact Projections.swappable_unread hread
      | some event =>
        refine Projections.swappable_recordStep hread hcarried.read ?_
        rw [hevents] at hrecorded
        rcases List.mem_append.mp hrecorded with hasked | hinvoice
        · refine (hguard recorded hasked).1 a ha event hread ?_
          rw [← hcarried.eventId, ← hcarried.occurredAt]
          exact not_le.mp hturned
        · exact Projections.swappable_fiscal (hinvoices recorded hinvoice)
  · show (store.events.filterMap _).Nodup
    rw [hstored, List.filterMap_append, Carries.opened hcarries]
    refine List.nodup_append.mpr ⟨h.opened, hnodup, ?_⟩
    -- a shift opened by the call has an id no shift of the log has
    intro id hold id' hnew hsame
    obtain ⟨recorded, hrecorded, hopens⟩ := List.mem_filterMap.mp hnew
    rw [hevents] at hrecorded
    rcases List.mem_append.mp hrecorded with hasked | hinvoice
    · rw [← hsame] at hopens
      exact (hguard recorded hasked).2 id hopens hold
    · rw [opensShift_fiscal (hinvoices recorded hinvoice)] at hopens
      cases hopens

/-- A call that fails leaves the log and the projections. -/
theorem replayable_call {digests : Digests} {t : Terminal} {writable : Bool}
    {occurredAt : Timestamp} {call : Call} (h : Replayable t)
    (hguard : t.InReplayOrder (.call writable occurredAt call)) :
    Replayable (t.perform digests writable occurredAt call).1 := by
  rw [perform_eq_commit]
  rcases commit_cases digests writable occurredAt t (t.prepare digests occurredAt call) with
    ⟨error, -, hcommit⟩ | ⟨p, chain, error, -, -, hcommit⟩ |
    ⟨p, chain, es, store, hprepare, -, hseal, hstore, hcommit⟩
  · rw [hcommit]
    exact h
  · rw [hcommit]
    exact ⟨h.recorded, h.turned, h.opened⟩
  · rw [hcommit]
    exact replayable_stored h hguard hprepare (sealAll_eq_ok hseal).2.2.2 hstore

theorem replayable_restart {digests : Digests} {t t' : Terminal} (hinv : Inv digests t)
    (h : Replayable t) (hload : load digests t.store t.identity = .ok t') : Replayable t' := by
  obtain ⟨u, hu, hprojections⟩ := load_of_replayable hinv h
  rw [hload] at hu
  cases hu
  obtain ⟨loaded, shift, -, -, rfl⟩ := hinv.load_eq_ok.mp hload
  obtain ⟨p, hfold, hresumed⟩ := h.recorded
  refine ⟨⟨p, hfold, ?_⟩, h.turned, h.opened⟩
  rw [hprojections, hresumed]
  simp only [Projections.resumed, Option.filter_filter, Bool.and_self]

theorem replayable_reachable {digests : Digests} {t : Terminal}
    (h : Transition.Reachable Fresh (Transition.Guarded (step digests) InReplayOrder) t) :
    Inv digests t ∧ Replayable t := by
  refine h.invariant (I := fun t => Inv digests t ∧ Replayable t) ?_ ?_
  · exact fun t hfresh => ⟨inv_fresh hfresh, replayable_fresh hfresh⟩
  · intro t a t' ht hstep
    refine ⟨inv_step ht.1 hstep.2, ?_⟩
    obtain ⟨hguard, hstep⟩ := hstep
    cases a with
    | call writable occurredAt call =>
      cases hstep
      exact replayable_call ht.2 hguard
    | restart => exact replayable_restart ht.1 ht.2 hstep
    | sync transport nowMillis => exact absurd hguard id

/-- **Restart**: in every run of a till by itself in which every event is read in its turn and
    every shift is a new one, the till loads at every point, with the projections it had. -/
theorem load_restores {digests : Digests} {t : Terminal}
    (h : Transition.Reachable Fresh (Transition.Guarded (step digests) InReplayOrder) t) :
    ∃ t', load digests t.store t.identity = .ok t' ∧
      t'.toProjections = t.toProjections.resumed :=
  load_of_replayable (replayable_reachable h).1 (replayable_reachable h).2

/-! ### A clock put back -/

/-- The till once batch 30 is received, its clock at 10. -/
def stockedTill : Terminal := (till3.perform plainDigests true (instant 10) (receive 30)).1

theorem stockedTill_reachable :
    Transition.Reachable Fresh (Transition.Guarded (step plainDigests) InReplayOrder)
      stockedTill := by
  refine .step (.call true (instant 10) (receive 30)) (.init ⟨_, rfl⟩) ⟨?_, rfl⟩
  intro recorded hrecorded
  cases List.mem_singleton.mp hrecorded
  exact ⟨fun e he => absurd he List.not_mem_nil, fun id hid => by cases hid⟩

/-- The clock goes back and another batch is received: the till restarts as it is. -/
theorem load_restores_otherBatch :
    let t := (stockedTill.perform plainDigests true (instant 5) (receive 31)).1
    ∃ t', load plainDigests t.store t.identity = .ok t' ∧
      t'.toProjections = t.toProjections.resumed := by
  refine load_restores (.step (.call true (instant 5) (receive 31)) stockedTill_reachable ⟨?_, rfl⟩)
  intro recorded hrecorded
  cases List.mem_singleton.mp hrecorded
  refine ⟨fun e he event hread _ => Independent.swappable ?_, fun id hid => by cases hid⟩
  cases List.mem_singleton.mp he
  cases hread
  exact .inr ⟨⟨30, 31, rfl, rfl, by decide⟩, by decide⟩

/-- The clock goes back and a unit of the batch is issued: both calls succeed, and the till does
    not load any more. -/
theorem clockBack_fails :
    let issued := stockedTill.perform plainDigests true (instant 5) (issue 30 101)
    (till3.perform plainDigests true (instant 10) (receive 30)).2.isOkay ∧
      issued.2.isOkay ∧ Transition.Reachable Fresh (step plainDigests) issued.1 ∧
      load plainDigests issued.1.store issued.1.identity =
        .error (.inventory (.unknownBatch 30)) := by
  refine ⟨by decide, by decide, ?_, by rfl⟩
  exact .step (.call true (instant 5) (issue 30 101)) stockedTill_reachable.of_guarded rfl

end Terminal

end Sahl
