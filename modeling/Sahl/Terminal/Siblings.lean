import Mathlib.Tactic
import Sahl.Sync.Convergence
import Sahl.Terminal.CatalogueOrder
import Sahl.Terminal.Loading

/-! # What sibling tills show

    The tills of an outlet restart from their own stores. A load reads every event the till holds
    in the order of the clocks, and takes of the till itself only the invoice sequence; so tills
    that hold the same events come up showing the same (`restarts_agree`). -/

namespace Sahl

namespace Terminal

/-- What a till shows of its outlet: the projections, and the settings. -/
def shown (t : Terminal) : Projections × Option OutletConfig := (t.toProjections, t.outlet)

namespace Loading

/-- What a load has rebuilt, but for the till's own invoice sequence. -/
def forgetTip (l : Loading) : Loading := { l with fiscalTip := .genesis }

/-- What an event makes of the rest does not depend on whose load it is. -/
theorem step_forgetTip {a b : Uuid} {e : EventEnvelope Payload} {l m : Loading}
    (h : l.forgetTip = m.forgetTip) :
    (l.step a e).map forgetTip = (m.step b e).map forgetTip := by
  obtain ⟨book, stock, staff, catalogue, floor, purchaseEvents, tip, outlet, shiftEvents⟩ := l
  obtain ⟨book', stock', staff', catalogue', floor', purchaseEvents', tip', outlet',
    shiftEvents'⟩ := m
  simp only [forgetTip, Loading.mk.injEq, true_and] at h
  obtain ⟨rfl, rfl, rfl, rfl, rfl, rfl, rfl, rfl⟩ := h
  rw [step, step]
  cases hread : e.read with
  | none => rfl
  | some event =>
    cases event with
    | inventory event =>
      simp only
      cases stock.apply event with
      | error error => rfl
      | ok stock => rfl
    | staff event =>
      simp only
      cases staff.apply event with
      | error error => rfl
      | ok staff => rfl
    | fiscal event =>
      obtain ⟨invoice, content, at', issuedBy⟩ := event
      simp only
      -- an invoice of the one till, of the other, or of neither
      split <;> split <;> rfl
    | sale | shift | catalogue | floor | outlet | purchase => rfl

theorem foldlM_forgetTip {a b : Uuid} (es : List (EventEnvelope Payload)) {l m : Loading}
    (h : l.forgetTip = m.forgetTip) :
    (es.foldlM (step a) l).map forgetTip = (es.foldlM (step b) m).map forgetTip := by
  induction es generalizing l m with
  | nil => exact congrArg Except.ok h
  | cons e es ih =>
    rw [List.foldlM_cons, List.foldlM_cons]
    exact Except.map_bind_congr (step_forgetTip h) fun _ _ => ih

/-- The till that a load ends in shows nothing of the invoice sequence. -/
theorem till_shown {l m : Loading} (h : l.forgetTip = m.forgetTip)
    (store store' : EventStore Payload) (identity identity' : DeviceIdentity)
    (shift : Option Shift) :
    (l.till store identity shift).shown = (m.till store' identity' shift).shown := by
  obtain ⟨book, stock, staff, catalogue, floor, purchaseEvents, tip, outlet, shiftEvents⟩ := l
  obtain ⟨book', stock', staff', catalogue', floor', purchaseEvents', tip', outlet',
    shiftEvents'⟩ := m
  simp only [forgetTip, Loading.mk.injEq, true_and] at h
  obtain ⟨rfl, rfl, rfl, rfl, rfl, rfl, rfl, rfl⟩ := h
  rfl

end Loading

/-- What a load shows follows from the events it replays, where the till's own chain verifies. -/
theorem load_shown {digests : Digests} {store store' : EventStore Payload}
    {identity identity' : DeviceIdentity}
    (hverifies : (verifyChainFromGenesis digests.event store.loadAll).isOkay)
    (hverifies' : (verifyChainFromGenesis digests.event store'.loadAll).isOkay)
    (hevents : store.loadProjectionInput = store'.loadProjectionInput) :
    (load digests store identity).map shown = (load digests store' identity').map shown := by
  obtain ⟨tip, htip⟩ := Except.isOkay_iff.mp hverifies
  obtain ⟨tip', htip'⟩ := Except.isOkay_iff.mp hverifies'
  rw [load, load, htip, htip', ← hevents]
  -- where the chains end is not looked at
  have hverified : Except.map (fun _ => ()) ((Except.ok tip).mapError TerminalError.corruptLog) =
      Except.map (fun _ => ()) ((Except.ok tip').mapError TerminalError.corruptLog) := rfl
  refine Except.map_bind_congr hverified fun _ _ _ => ?_
  refine Except.map_bind_congr (Loading.foldlM_forgetTip _ rfl) fun l m hsame => ?_
  have hshifts : l.shiftEvents = m.shiftEvents :=
    show l.forgetTip.shiftEvents = m.forgetTip.shiftEvents from congrArg _ hsame
  rw [hshifts]
  have hresumed : (Except.mapError TerminalError.shift (latestOpenShift m.shiftEvents)).map id =
      (Except.mapError TerminalError.shift (latestOpenShift m.shiftEvents)).map id := rfl
  refine Except.map_bind_congr hresumed fun shift shift' hshift => ?_
  obtain rfl : shift = shift' := hshift
  exact congrArg Except.ok (Loading.till_shown hsame _ _ _ _ _)

/-! ## A till's calls among the steps of its outlet -/

/-- The events that a till seals and stores in one write are steps of the outlet. -/
theorem recordAll_run {digest : HashFunction Payload} {identity : DeviceIdentity}
    {occurredAt : Timestamp} {events : List (Uuid × DomainEvent)} {s : OutletState Payload}
    {chain : EventChain} {es : List (EventEnvelope Payload)} {store : EventStore Payload}
    (hinv : OutletState.Inv digest s)
    (hseal : sealAll digest identity occurredAt events
      (.resume identity.deviceId (s.till identity.deviceId).store.tip) = (chain, .ok es))
    (hstore : (s.till identity.deviceId).store.appendAll es = .ok store)
    (hids : (events.map (·.1)).Nodup)
    (hnew : ∀ recorded ∈ events, ∀ d, ∀ e ∈ (s.till d).store.events, e.eventId ≠ recorded.1) :
    ∃ as, Transition.Run (Transition.Guarded (OutletState.step digest) OutletState.Regular) s as
      { s with till := s.setTill identity.deviceId { s.till identity.deviceId with store } } := by
  induction events generalizing s es with
  | nil =>
    cases hseal
    cases hstore
    refine ⟨[], ?_⟩
    show Transition.Run _ s [] ⟨s.server, s.setTill _ (s.till _)⟩
    rw [OutletState.setTill_same]
    exact .nil s
  | cons recorded events ih =>
    rw [sealAll] at hseal
    split at hseal
    · cases hseal
    rename_i envelope mid happend
    obtain ⟨hfollows, rfl, hid, -⟩ := append_eq_ok happend
    -- the rest is sealed on the tip that this event leaves
    cases hrest : sealAll digest identity occurredAt events
        (.resume identity.deviceId envelope.tip) with
    | mk last result =>
      have hresume : { EventChain.resume identity.deviceId
          (s.till identity.deviceId).store.tip with tip := envelope.tip } =
            EventChain.resume identity.deviceId envelope.tip := rfl
      simp only [hresume, hrest, Prod.mk.injEq] at hseal
      obtain ⟨rfl, hseal⟩ := hseal
      obtain ⟨more, rfl, rfl⟩ : ∃ more, result = .ok more ∧ envelope :: more = es :=
        Except.map_eq_ok.mp hseal
      obtain ⟨mid, hmid, hmore⟩ := foldlM_cons_eq_ok.mp hstore
      have htill := hinv.till identity.deviceId
      have hfollows : Follows digest (s.till identity.deviceId).store.deviceId
          (s.till identity.deviceId).store.tip envelope := by
        rw [htill.device]
        exact hfollows
      obtain ⟨hown, hall, -⟩ := htill.own.append hfollows hmid
      have htip : mid.tip = envelope.tip := by
        rw [hown.tip_eq, hall, endTip_concat]
      let holding : Till Payload := { s.till identity.deviceId with store := mid }
      let stored : OutletState Payload := { s with till := s.setTill identity.deviceId holding }
      have hself : stored.till identity.deviceId = holding := OutletState.setTill_self s _ _
      have hrecord : Transition.Guarded (OutletState.step digest) OutletState.Regular s
          (.record identity.deviceId (header identity recorded.1 occurredAt) recorded.2.payload)
          stored :=
        ⟨fun d e he => hnew recorded List.mem_cons_self d e he, envelope, _, mid, happend, hmid,
          rfl⟩
      obtain ⟨hidHead, hidsRest⟩ := List.nodup_cons.mp hids
      have hnewRest : ∀ other ∈ events, ∀ d, ∀ e ∈ (stored.till d).store.events,
          e.eventId ≠ other.1 := by
        intro other hother d e he
        have hold := hnew other (List.mem_cons_of_mem _ hother)
        by_cases hd : d = identity.deviceId
        · rw [hd, hself, EventStore.append_events hmid] at he
          rcases List.mem_append.mp he with he | he
          · exact hold _ e he
          · rw [List.mem_singleton.mp he, hid]
            intro hsame
            exact hidHead (List.mem_map.mpr ⟨other, hother, hsame.symm⟩)
        · rw [show stored.till d = s.till d from OutletState.setTill_ne s _ hd] at he
          exact hold d e he
      have hsealRest : sealAll digest identity occurredAt events
          (.resume identity.deviceId (stored.till identity.deviceId).store.tip) =
            (last, .ok more) := by
        rw [hself, htip]
        exact hrest
      have hstoreRest : (stored.till identity.deviceId).store.appendAll more = .ok store := by
        rw [hself]
        exact hmore
      obtain ⟨as, hrun⟩ := ih (OutletState.inv_step hinv hrecord) hsealRest hstoreRest hidsRest
        hnewRest
      rw [hself, OutletState.setTill_again] at hrun
      exact ⟨_, .cons _ _ hrecord hrun⟩

/-- **A call is a run**: what a till stores in a call, with ids that no till of the outlet has
    used, it stores by recording steps. -/
theorem perform_run {digests : Digests} {s : OutletState Payload} {t : Terminal} {writable : Bool}
    {occurredAt : Timestamp} {call : Call} (hinv : OutletState.Inv digests.event s)
    (h : Inv digests t) (hstore : (s.till t.identity.deviceId).store = t.store)
    (hids : ∀ p, t.prepare digests occurredAt call = .ok p → (p.events.map (·.1)).Nodup ∧
      ∀ recorded ∈ p.events, ∀ d, ∀ e ∈ (s.till d).store.events, e.eventId ≠ recorded.1) :
    ∃ as, Transition.Run (Transition.Guarded (OutletState.step digests.event) OutletState.Regular)
      s as { s with till := s.setTill t.identity.deviceId { s.till t.identity.deviceId with
        store := (t.perform digests writable occurredAt call).1.store } } := by
  have hunchanged : s.setTill t.identity.deviceId { s.till t.identity.deviceId with
      store := t.store } = s.till := by
    rw [← hstore]
    exact OutletState.setTill_same s _
  rw [perform_eq_commit]
  rcases commit_cases digests writable occurredAt t (t.prepare digests occurredAt call) with
    ⟨error, -, hcommit⟩ | ⟨p, chain, error, -, -, hcommit⟩ |
    ⟨p, chain, es, store, hprepare, -, hseal, happend, hcommit⟩
  · rw [hcommit, hunchanged]
    exact ⟨[], .nil s⟩
  · -- the chain in memory moved, and nothing was stored
    rw [hcommit]
    show ∃ as, Transition.Run _ s as ⟨s.server, s.setTill _ { s.till _ with store := t.store }⟩
    rw [hunchanged]
    exact ⟨[], .nil s⟩
  · rw [hcommit]
    obtain ⟨hnodup, hnew⟩ := hids p hprepare
    have htip := (inv_stored h (prepare_adopts hprepare) hseal happend).1
    have hresumed : sealAll digests.event t.identity occurredAt p.events
        (.resume t.identity.deviceId (s.till t.identity.deviceId).store.tip) = (chain, .ok es) := by
      rw [hstore, ← htip, ← h.chainDevice]
      exact hseal
    have hwritten : (s.till t.identity.deviceId).store.appendAll es = .ok store := by
      rw [hstore]
      exact happend
    exact recordAll_run hinv hresumed hwritten hnodup hnew

/-- **Restarts agree**: two tills of one outlet that are caught up load to the same sales, shift,
    stock, staff, catalogue, floor, orders and settings, or are both refused for one reason. -/
theorem restarts_agree {digests : Digests} {s : OutletState Payload}
    (h : Transition.Reachable OutletState.Fresh
      (Transition.Guarded (OutletState.step digests.event) OutletState.Regular) s)
    {a b : DeviceIdentity}
    (ha : Server.Db.outletOf s.server.db a.deviceId = some a.outletId)
    (hb : Server.Db.outletOf s.server.db b.deviceId = some a.outletId)
    (hcaughtA : s.CaughtUp a.deviceId) (hcaughtB : s.CaughtUp b.deviceId) :
    (load digests (s.till a.deviceId).store a).map shown =
      (load digests (s.till b.deviceId).store b).map shown := by
  have hinv := OutletState.inv_reachable h
  have hverifies : ∀ d, (verifyChainFromGenesis digests.event
      (s.till d).store.loadAll).isOkay := by
    intro d
    exact Except.isOkay_iff.mpr ⟨_, chainFrom_verifies (hinv.till d).continues.chain⟩
  refine load_shown (hverifies _) (hverifies _) (EventStore.loadProjectionInput_eq ?_)
  exact (hinv.holds_outlet ha hcaughtA).trans (hinv.holds_outlet hb hcaughtB).symm

/-! ### A coffee on both tills -/

/-- The outlet of devices 3 and 4 before any of them has recorded anything. -/
def newOutlet : OutletState Payload := ⟨enrolled, fun d => ⟨EventStore.fresh d, [], [], []⟩⟩

theorem newOutlet_fresh : OutletState.Fresh newOutlet := ⟨enrolled_fresh, fun _ => rfl⟩

/-- Till 3 has put a coffee in the catalogue. -/
def coffeeAdded : OutletState Payload := ⟨enrolled, newOutlet.setTill 3 ⟨selling.store, [], [], []⟩⟩

/-- The runs that restarts agree in. -/
abbrev OutletReaches : OutletState Payload → Prop := Transition.Reachable OutletState.Fresh
  (Transition.Guarded (OutletState.step plainDigests.event) OutletState.Regular)

theorem coffeeAdded_reachable : OutletReaches coffeeAdded := by
  have hids : ∀ p, till3.prepare plainDigests (instant 10)
      (.recordCatalogue (.productAdded 50 (coffee 4800) (instant 10) 7) 100) = .ok p →
        (p.events.map (·.1)).Nodup ∧ ∀ recorded ∈ p.events, ∀ d,
          ∀ e ∈ (newOutlet.till d).store.events, e.eventId ≠ recorded.1 := by
    intro p hp
    obtain ⟨candidate, -, hp⟩ := Except.bind_eq_ok.mp hp
    cases hp
    refine ⟨List.nodup_singleton _, fun recorded _ d e he => ?_⟩
    cases he
  obtain ⟨as, hrun⟩ := @perform_run _ _ _ true _ _ (OutletState.inv_fresh newOutlet_fresh)
    (inv_fresh ⟨_, rfl⟩) rfl hids
  exact Transition.Reachable.run (.init newOutlet_fresh) hrun

theorem coffeeAdded_placed : ∀ d ∈ [3, 4], coffeeAdded.Placed d 1 2 := by
  intro d hd
  rcases List.mem_cons.mp hd with rfl | hd
  · exact ⟨⟨_, rfl, rfl, rfl, rfl⟩, by decide +kernel⟩
  · rw [List.mem_singleton.mp hd]
    exact ⟨⟨_, rfl, rfl, rfl, rfl⟩, fun e he => absurd he List.not_mem_nil⟩

/-- The coffee that till 3 puts in the catalogue can be brought to till 4, and both then come up
    showing the same. -/
theorem restarts_agree_coffee : ∃ s : OutletState Payload,
    (∀ e ∈ selling.store.loadAll, e ∈ (s.till 4).store.events) ∧
      (load plainDigests (s.till 3).store ⟨1, 2, 3⟩).map shown =
        (load plainDigests (s.till 4).store ⟨1, 2, 4⟩).map shown := by
  obtain ⟨as, s, hrun, hretained, hcaught⟩ :=
    OutletState.together_run coffeeAdded_reachable coffeeAdded_placed
  have hreached : OutletReaches s := Transition.Reachable.run coffeeAdded_reachable
    (hrun.mono fun _ _ _ hstep => ⟨hstep.1.2, hstep.2⟩)
  have hplaced : ∀ d ∈ [3, 4], s.Placed d 1 2 := fun d hd =>
    hretained.placed (coffeeAdded_placed d hd)
  have hthree : (3 : Uuid) ∈ [3, 4] := by decide
  have hfour : (4 : Uuid) ∈ [3, 4] := by decide
  refine ⟨s, fun e he => ?_, ?_⟩
  · refine (OutletState.inv_reachable hreached).recorded_held (hplaced 3 hthree) (hplaced 4 hfour)
      (hcaught 3 hthree) (hcaught 4 hfour) ?_
    rw [hretained.own 3]
    exact he
  · exact restarts_agree hreached (a := ⟨1, 2, 3⟩) (b := ⟨1, 2, 4⟩)
      (hplaced 3 hthree).enrolled.outletOf (hplaced 4 hfour).enrolled.outletOf (hcaught 3 hthree)
      (hcaught 4 hfour)

end Terminal

end Sahl
