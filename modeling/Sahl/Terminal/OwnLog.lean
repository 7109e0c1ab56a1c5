import Mathlib.Tactic
import Sahl.Terminal.Terminal

/-! # A till's own log

    The runs of a till: actions, with a database that may refuse a write, restarts, and sync
    rounds against a server that answers with the events of siblings. Whatever happens, the
    events a till has stored under its own name are one chain from genesis (`inv_reachable`). -/

namespace Sahl

namespace Terminal

/-! ## Section 1: Actions -/

/-- What can be asked of a till, with the ids the events will carry. -/
inductive Call where
  | record (event : SaleEvent) (eventId : Uuid)
  | recordShift (event : ShiftEvent) (eventId : Uuid)
  | recordStock (event : InventoryEvent) (eventId : Uuid)
  | recordPurchase (event : PurchaseEvent) (eventId : Uuid)
  | recordStaff (event : StaffEvent) (eventId : Uuid)
  | recordCatalogue (event : CatalogueEvent) (eventId : Uuid)
  | recordFloor (event : FloorEvent) (eventId : Uuid)
  | recordOutlet (event : OutletEvent) (eventId : Uuid)
  | completeSale (event : SaleEvent) (regime : String) (issuedBy saleEventId fiscalEventId : Uuid)
  | recordReceipt (purchase : PurchaseEvent) (stock : InventoryEvent)
      (purchaseEventId stockEventId : Uuid)

def perform (digests : Digests) (writable : Bool) (occurredAt : Timestamp) (t : Terminal) :
    Call → Terminal × Except TerminalError (List (EventEnvelope Payload))
  | .record event eventId => t.record digests writable occurredAt event eventId
  | .recordShift event eventId => t.recordShift digests writable occurredAt event eventId
  | .recordStock event eventId => t.recordStock digests writable occurredAt event eventId
  | .recordPurchase event eventId => t.recordPurchase digests writable occurredAt event eventId
  | .recordStaff event eventId => t.recordStaff digests writable occurredAt event eventId
  | .recordCatalogue event eventId => t.recordCatalogue digests writable occurredAt event eventId
  | .recordFloor event eventId => t.recordFloor digests writable occurredAt event eventId
  | .recordOutlet event eventId => t.recordOutlet digests writable occurredAt event eventId
  | .completeSale event regime issuedBy saleEventId fiscalEventId =>
    t.completeSale digests writable occurredAt event regime issuedBy saleEventId fiscalEventId
  | .recordReceipt purchase stock purchaseEventId stockEventId =>
    t.recordReceipt digests writable occurredAt purchase stock purchaseEventId stockEventId

/-- The till after a run of calls, whatever each came to. -/
def performAll (digests : Digests) (t : Terminal) (calls : List (Bool × Timestamp × Call)) :
    Terminal :=
  calls.foldl (fun t call => (t.perform digests call.1 call.2.1 call.2.2).1) t

/-- The validation of an action. -/
def prepare (digests : Digests) (occurredAt : Timestamp) (t : Terminal) :
    Call → Except TerminalError Prepared
  | .record event eventId => t.prepareRecord event eventId occurredAt
  | .recordShift event eventId => t.prepareOne (.shift event) eventId
  | .recordStock event eventId => t.prepareOne (.inventory event) eventId
  | .recordPurchase event eventId => t.prepareOne (.purchase event) eventId
  | .recordStaff event eventId => t.prepareOne (.staff event) eventId
  | .recordCatalogue event eventId => t.prepareOne (.catalogue event) eventId
  | .recordFloor event eventId => t.prepareOne (.floor event) eventId
  | .recordOutlet event eventId => t.prepareOutlet event eventId
  | .completeSale event regime issuedBy saleEventId fiscalEventId =>
    t.prepareCompleteSale digests event regime issuedBy saleEventId fiscalEventId occurredAt
  | .recordReceipt purchase stock purchaseEventId stockEventId =>
    t.prepareReceipt purchase stock purchaseEventId stockEventId

/-- Every action validates, then commits. -/
theorem perform_eq_commit (digests : Digests) (writable : Bool) (occurredAt : Timestamp)
    (t : Terminal) (call : Call) :
    t.perform digests writable occurredAt call =
      t.commit digests writable occurredAt (t.prepare digests occurredAt call) := by
  cases call <;> rfl

/-- What can happen to a till. -/
inductive Action where
  | call (writable : Bool) (occurredAt : Timestamp) (call : Call)
  | restart
  | sync (transport : Transport Payload) (nowMillis : I64)

/-- A server answers a device with the events of its siblings. -/
def ServesSiblings (transport : Transport Payload) (d : Uuid) : Prop :=
  ∀ cursor page, transport.pull cursor pullPage = .ok page → ∀ e ∈ page.events, e.deviceId ≠ d

def step (digests : Digests) (t : Terminal) : Action → Terminal → Prop
  | .call writable occurredAt call, t' => t' = (t.perform digests writable occurredAt call).1
  | .restart, t' => load digests t.store t.identity = .ok t'
  | .sync transport nowMillis, t' => ServesSiblings transport t.identity.deviceId ∧
      t' = (t.sync digests transport nowMillis).1

/-- A till that has recorded nothing. -/
def Fresh (t : Terminal) : Prop := ∃ identity, t = fresh identity

theorem performAll_reachable {digests : Digests} {guard : Terminal → Action → Prop} {t : Terminal}
    {calls : List (Bool × Timestamp × Call)}
    (hguard : ∀ call ∈ calls, ∀ t, guard t (.call call.1 call.2.1 call.2.2))
    (h : Transition.Reachable Fresh (Transition.Guarded (step digests) guard) t) :
    Transition.Reachable Fresh (Transition.Guarded (step digests) guard)
      (t.performAll digests calls) := by
  induction calls generalizing t with
  | nil => exact h
  | cons call calls ih =>
    refine ih (fun c hc => hguard c (List.mem_cons_of_mem _ hc)) ?_
    exact .step (.call call.1 call.2.1 call.2.2) h ⟨hguard call List.mem_cons_self t, rfl⟩

theorem performAll_run {digests : Digests} {t : Terminal} (calls : List (Bool × Timestamp × Call))
    (h : Transition.Reachable Fresh (step digests) t) :
    Transition.Reachable Fresh (step digests) (t.performAll digests calls) := by
  induction calls generalizing t with
  | nil => exact h
  | cons call calls ih => exact ih (.step (.call call.1 call.2.1 call.2.2) h rfl)

/-- The stored events of the till's own device, oldest first. -/
def own (t : Terminal) : List (EventEnvelope Payload) :=
  t.store.events.filter (·.deviceId = t.identity.deviceId)

/-! ## Section 2: What one action does -/

/-- An invoice among the events a till records, with its content. -/
def invoiceOf : DomainEvent → Option (InvoiceSeal × InvoiceContent)
  | .fiscal event => some event.entry
  | _ => none

/-- What a validated action adopts follows from the events it writes. -/
structure Adopts (digests : Digests) (t : Terminal) (p : Prepared) : Prop where
  identity : p.adopted.identity = t.identity
  projections : (p.events.map (·.2)).foldlM Projections.apply t.toProjections =
    .ok p.adopted.toProjections
  invoices : verifyInvoiceChain digests.invoice ((p.events.map (·.2)).filterMap invoiceOf)
    t.fiscal.tip = .ok p.adopted.fiscal.tip
  issuer : ∀ entry ∈ (p.events.map (·.2)).filterMap invoiceOf,
    entry.1.deviceId = t.fiscal.counter.deviceId
  fiscalDevice : p.adopted.fiscal.counter.deviceId = t.fiscal.counter.deviceId
  nonempty : p.events ≠ []

theorem prepareOne_adopts {digests : Digests} {t : Terminal} {event : DomainEvent}
    {eventId : Uuid} {p : Prepared} (hkind : invoiceOf event = none)
    (h : t.prepareOne event eventId = .ok p) : Adopts digests t p := by
  obtain ⟨candidate, hcandidate, h⟩ := Except.bind_eq_ok.mp h
  cases h
  refine ⟨rfl, ?_, ?_, ?_, rfl, by simp⟩
  · exact foldlM_cons_eq_ok.mpr ⟨candidate, hcandidate, rfl⟩
  · simp only [List.map_cons, List.map_nil, List.filterMap_cons, hkind, List.filterMap_nil]
    rfl
  · simp [hkind]

theorem prepareCompleteSale_adopts {digests : Digests} {t : Terminal} {event : SaleEvent}
    {regime : String} {issuedBy saleEventId fiscalEventId : Uuid} {occurredAt : Timestamp}
    {p : Prepared}
    (h : t.prepareCompleteSale digests event regime issuedBy saleEventId fiscalEventId occurredAt =
      .ok p) : Adopts digests t p := by
  simp only [prepareCompleteSale, Except.bind_eq_ok, Except.mapError_eq_ok] at h
  obtain ⟨_, -, candidate, hcandidate, sale, -, totals, -, invoice, hseal, h⟩ := h
  cases h
  obtain ⟨hverifies, hdevice, hchain⟩ := sealInvoice_verifies (Prod.ext hseal rfl)
  refine ⟨rfl, ?_, ?_, ?_, ?_, by simp⟩
  · refine foldlM_cons_eq_ok.mpr ⟨candidate, hcandidate, ?_⟩
    exact foldlM_cons_eq_ok.mpr ⟨candidate, rfl, rfl⟩
  · exact foldlM_cons_eq_ok.mpr ⟨_, hverifies, rfl⟩
  · simp [invoiceOf, FiscalEvent.entry, hdevice]
  · exact congrArg (·.counter.deviceId) hchain

theorem prepareReceipt_adopts {digests : Digests} {t : Terminal} {purchase : PurchaseEvent}
    {stock : InventoryEvent} {purchaseEventId stockEventId : Uuid} {p : Prepared}
    (h : t.prepareReceipt purchase stock purchaseEventId stockEventId = .ok p) :
    Adopts digests t p := by
  simp only [prepareReceipt, Except.bind_eq_ok] at h
  obtain ⟨_, -, ordered, hordered, candidate, hcandidate, h⟩ := h
  cases h
  refine ⟨rfl, ?_, rfl, by simp [invoiceOf], rfl, by simp⟩
  refine foldlM_cons_eq_ok.mpr ⟨ordered, hordered, ?_⟩
  exact foldlM_cons_eq_ok.mpr ⟨candidate, hcandidate, rfl⟩

theorem prepare_adopts {digests : Digests} {t : Terminal} {occurredAt : Timestamp} {call : Call}
    {p : Prepared} (h : t.prepare digests occurredAt call = .ok p) : Adopts digests t p := by
  cases call with
  | record event eventId =>
    obtain ⟨_, -, h⟩ := Except.bind_eq_ok.mp h
    exact prepareOne_adopts rfl h
  | recordOutlet event eventId =>
    obtain ⟨config, -, h⟩ := Except.bind_eq_ok.mp h
    cases h
    exact ⟨rfl, rfl, rfl, by simp [invoiceOf], rfl, by simp⟩
  | completeSale => exact prepareCompleteSale_adopts h
  | recordReceipt => exact prepareReceipt_adopts h
  | recordShift | recordStock | recordPurchase | recordStaff | recordCatalogue | recordFloor =>
    exact prepareOne_adopts rfl h

/-- An envelope carries an event of the till, under the id and at the time given. -/
structure Carries (occurredAt : Timestamp) (recorded : Uuid × DomainEvent)
    (e : EventEnvelope Payload) : Prop where
  eventId : e.eventId = recorded.1
  occurredAt : e.occurredAt = occurredAt
  kind : e.kind = recorded.2.kind
  payload : e.payload = .known recorded.2

theorem Carries.read {occurredAt : Timestamp} {recorded : Uuid × DomainEvent}
    {e : EventEnvelope Payload} (h : Carries occurredAt recorded e) : e.read = some recorded.2 :=
  EventEnvelope.read_recorded h.kind h.payload

theorem Carries.ids {occurredAt : Timestamp} {events : List (Uuid × DomainEvent)}
    {es : List (EventEnvelope Payload)} (h : List.Forall₂ (Carries occurredAt) events es) :
    es.map (·.eventId) = events.map (·.1) := by
  induction h with
  | nil => rfl
  | cons hcarries _ ih => rw [List.map_cons, List.map_cons, ih, hcarries.eventId]

/-- What is read from the envelopes is what is read from the events they carry. -/
theorem Carries.filterMap_read {β : Type} {occurredAt : Timestamp}
    {events : List (Uuid × DomainEvent)} {es : List (EventEnvelope Payload)}
    (h : List.Forall₂ (Carries occurredAt) events es) (f : DomainEvent → Option β) :
    es.filterMap (·.read.bind f) = (events.map (·.2)).filterMap f := by
  induction h with
  | nil => rfl
  | cons hcarries _ ih =>
    rw [List.map_cons, List.filterMap_cons, List.filterMap_cons, ih, hcarries.read]
    rfl

/-- What sealing a run of events gives. -/
theorem sealAll_eq_ok {digest : HashFunction Payload} {identity : DeviceIdentity}
    {occurredAt : Timestamp} {events : List (Uuid × DomainEvent)} {chain chain' : EventChain}
    {es : List (EventEnvelope Payload)}
    (h : sealAll digest identity occurredAt events chain = (chain', .ok es)) :
    chain'.deviceId = chain.deviceId ∧ ChainFrom digest chain.deviceId chain.tip es ∧
      chain'.tip = endTip chain.tip es ∧ List.Forall₂ (Carries occurredAt) events es := by
  induction events generalizing chain es with
  | nil =>
    cases h
    exact ⟨rfl, trivial, rfl, .nil⟩
  | cons recorded events ih =>
    rw [sealAll] at h
    split at h
    · cases h
    rename_i envelope mid happend
    obtain ⟨hfollows, rfl, hid, _, _, hat, hkind, hpayload⟩ := append_eq_ok happend
    -- the rest is sealed on the tip that this event leaves
    cases hrest : sealAll digest identity occurredAt events { chain with tip := envelope.tip } with
    | mk last result =>
      simp only [hrest, Prod.mk.injEq] at h
      obtain ⟨rfl, h⟩ := h
      obtain ⟨more, rfl, rfl⟩ : ∃ more, result = .ok more ∧ envelope :: more = es :=
        Except.map_eq_ok.mp h
      obtain ⟨hdevice, hchain, htip, hcarries⟩ := ih hrest
      refine ⟨hdevice, ⟨hfollows, hchain⟩, ?_, .cons ⟨hid, hat, hkind, ?_⟩ hcarries⟩
      · rw [htip, endTip_cons]
      · exact (Except.ok.inj hpayload).symm

/-- Sealing never takes the chain back, and leaves it alone only where nothing is sealed. -/
theorem sealAll_tip (digest : HashFunction Payload) (identity : DeviceIdentity)
    (occurredAt : Timestamp) (events : List (Uuid × DomainEvent)) (chain : EventChain) :
    let sealed := (sealAll digest identity occurredAt events chain).1
    sealed.deviceId = chain.deviceId ∧
      (sealed = chain ∨ chain.tip.deviceSeq < sealed.tip.deviceSeq) := by
  induction events generalizing chain with
  | nil => exact ⟨rfl, .inl rfl⟩
  | cons recorded events ih =>
    rw [sealAll]
    split
    · exact ⟨rfl, .inl rfl⟩
    · rename_i envelope mid happend
      obtain ⟨hfollows, rfl, _⟩ := append_eq_ok happend
      obtain ⟨hdevice, hmoved⟩ := ih { chain with tip := envelope.tip }
      have hseq : chain.tip.deviceSeq < envelope.tip.deviceSeq := by
        rw [EventEnvelope.tip, hfollows.seq]
        exact Nat.lt_succ_self _
      refine ⟨hdevice, .inr ?_⟩
      -- already past the first event, wherever the rest leaves it
      rcases hmoved with hkept | hfurther
      · show chain.tip.deviceSeq < (sealAll digest identity occurredAt events
          { chain with tip := envelope.tip }).1.tip.deviceSeq
        rw [hkept]
        exact hseq
      · exact hseq.trans hfurther

/-- What is left by a call: nothing happened; or the chain in memory moved and the call failed;
    or the events are stored and their effect adopted. -/
theorem commit_cases (digests : Digests) (writable : Bool) (occurredAt : Timestamp) (t : Terminal)
    (prepared : Except TerminalError Prepared) :
    (∃ error, prepared = .error error ∧
      t.commit digests writable occurredAt prepared = (t, .error error)) ∨
    (∃ p chain error, prepared = .ok p ∧
      chain = (sealAll digests.event t.identity occurredAt p.events t.chain).1 ∧
      t.commit digests writable occurredAt prepared = ({ t with chain }, .error error)) ∨
    (∃ p chain es store, prepared = .ok p ∧ writable = true ∧
      sealAll digests.event t.identity occurredAt p.events t.chain = (chain, .ok es) ∧
      t.store.appendAll es = .ok store ∧
      t.commit digests writable occurredAt prepared =
        ({ p.adopted with store, chain }, .ok es)) := by
  cases prepared with
  | error error => exact .inl ⟨error, rfl, rfl⟩
  | ok p =>
    refine .inr ?_
    unfold commit
    cases hseal : sealAll digests.event t.identity occurredAt p.events t.chain with
    | mk chain result =>
      cases result with
      | error error => exact .inl ⟨p, chain, .event error, rfl, by rw [hseal], by simp [hseal]⟩
      | ok es =>
        -- sealed, and the chain has moved: now the write fails or everything is adopted
        cases hwrite : write writable t.store es with
        | error error =>
          exact .inl ⟨p, chain, .store error, rfl, by rw [hseal], by simp [hseal, hwrite]⟩
        | ok store =>
          cases writable with
          | false => cases hwrite
          | true => exact .inr ⟨p, chain, es, store, rfl, rfl, hseal, hwrite, by simp [hseal, hwrite]⟩

/-! ## Section 3: The invariant -/

structure Inv (digests : Digests) (t : Terminal) : Prop where
  storeDevice : t.store.deviceId = t.identity.deviceId
  chainDevice : t.chain.deviceId = t.identity.deviceId
  fiscalDevice : t.fiscal.counter.deviceId = t.identity.deviceId
  chain : ChainFrom digests.event t.identity.deviceId ChainTip.genesis t.own
  /-- What the till sealed itself is what carries its name. -/
  sealedHere : ∀ tagged ∈ t.store.tagged,
    tagged.2 = .local ↔ tagged.1.deviceId = t.identity.deviceId
  /-- After a failed write the chain in memory is ahead of the store, never behind. -/
  ahead : t.chain.tip = t.store.tip ∨ t.store.tip.deviceSeq < t.chain.tip.deviceSeq

theorem own_eq_tagged (t : Terminal) : t.own =
    (t.store.tagged.map (·.1)).filter (·.deviceId = t.identity.deviceId) := by
  rw [own, EventStore.events_eq_tagged]

theorem Inv.tip_eq {digests : Digests} {t : Terminal} (h : Inv digests t) :
    t.store.tip = endTip ChainTip.genesis t.own := by
  unfold EventStore.tip
  rw [h.storeDevice]
  exact EventStore.tipWithin_of_chain h.chain

/-- What a load verifies is the till's own log. -/
theorem Inv.loadAll_eq {digests : Digests} {t : Terminal} (h : Inv digests t) :
    t.store.loadAll = t.own := by
  have hlocal : (t.store.tagged.filter (·.2 = .local)).map (·.1) = t.own := by
    rw [own_eq_tagged, List.filter_map]
    refine congrArg _ (List.filter_congr fun tagged htagged => ?_)
    exact decide_eq_decide.mpr (h.sealedHere tagged htagged)
  rw [EventStore.loadAll_eq_tagged, hlocal]
  refine List.Pairwise.insertionSort_eq ?_
  have hrange := chainFrom_range h.chain
  have hsorted : (t.own.map (·.deviceSeq)).Pairwise (· ≤ ·) := by
    rw [hrange]
    exact List.pairwise_le_range'
  exact List.pairwise_map.mp hsorted

theorem Inv.verifies {digests : Digests} {t : Terminal} (h : Inv digests t) :
    verifyChainFromGenesis digests.event t.store.loadAll = .ok t.store.tip := by
  rw [h.loadAll_eq, h.tip_eq]
  exact chainFrom_verifies h.chain

/-- A till whose own log is in order loads exactly when its projections can be rebuilt. -/
theorem Inv.load_eq_ok {digests : Digests} {t t' : Terminal} (h : Inv digests t) :
    load digests t.store t.identity = .ok t' ↔
      ∃ loaded shift,
        t.store.loadProjectionInput.foldlM (Loading.step t.identity.deviceId) .empty =
          .ok loaded ∧
        latestOpenShift loaded.shiftEvents = .ok shift ∧
        t' = loaded.till t.store t.identity shift := by
  simp only [load, h.verifies, Except.mapError, Except.bind_eq_ok]
  constructor
  · rintro ⟨_, -, loaded, hloaded, shift, hshift, heq⟩
    cases heq
    refine ⟨loaded, shift, hloaded, ?_, rfl⟩
    exact Except.mapError_eq_ok.mp hshift
  · rintro ⟨loaded, shift, hloaded, hshift, rfl⟩
    exact ⟨_, rfl, loaded, hloaded, shift, Except.mapError_eq_ok.mpr hshift, rfl⟩

theorem inv_fresh {digests : Digests} {t : Terminal} (h : Fresh t) : Inv digests t := by
  obtain ⟨identity, rfl⟩ := h
  refine ⟨rfl, rfl, rfl, trivial, ?_, .inl rfl⟩
  intro tagged htagged
  cases htagged

theorem inv_restart {digests : Digests} {t t' : Terminal} (h : Inv digests t)
    (hload : load digests t.store t.identity = .ok t') : Inv digests t' := by
  obtain ⟨loaded, shift, -, -, rfl⟩ := h.load_eq_ok.mp hload
  exact ⟨h.storeDevice, rfl, rfl, h.chain, h.sealedHere, .inl rfl⟩

/-- Events of other devices leave the till's own log alone. -/
theorem inv_pulled {digests : Digests} {t t' : Terminal} {es : List (EventEnvelope Payload)}
    (h : Inv digests t) (hpulled : EventStore.PulledInto t.store t'.store es)
    (hothers : ∀ e ∈ es, e.deviceId ≠ t.identity.deviceId) (hchain : t'.chain = t.chain)
    (hfiscal : t'.fiscal = t.fiscal) (hidentity : t'.identity = t.identity) :
    t'.own = t.own ∧ Inv digests t' := by
  obtain ⟨hdevice, new, hnew, hmem⟩ := hpulled
  -- what was pulled is filtered out again
  have hown : t'.own = t.own := by
    rw [own_eq_tagged, own_eq_tagged, hidentity, hnew, List.map_append, List.filter_append]
    have hnone : ((new.map (·, Origin.remote)).map (·.1)).filter
        (·.deviceId = t.identity.deviceId) = [] := by
      rw [List.map_map, List.filter_eq_nil_iff]
      intro e he
      obtain ⟨a, ha, rfl⟩ := List.mem_map.mp he
      simpa using hothers a (hmem a ha)
    rw [hnone, List.append_nil]
  have hstoreDevice : t'.store.deviceId = t'.identity.deviceId := by
    rw [hdevice, h.storeDevice, hidentity]
  have hchainOwn : ChainFrom digests.event t'.identity.deviceId ChainTip.genesis t'.own := by
    rw [hown, hidentity]
    exact h.chain
  have htip : t'.store.tip = t.store.tip := by
    unfold EventStore.tip
    rw [hstoreDevice, EventStore.tipWithin_of_chain hchainOwn]
    exact (congrArg _ hown).trans h.tip_eq.symm
  refine ⟨hown, hstoreDevice, ?_, ?_, hchainOwn, ?_, ?_⟩
  · rw [hchain, hidentity, h.chainDevice]
  · rw [hfiscal, hidentity, h.fiscalDevice]
  · rw [hnew, hidentity]
    intro tagged htagged
    rcases List.mem_append.mp htagged with hold | hnew
    · exact h.sealedHere tagged hold
    · obtain ⟨e, he, rfl⟩ := List.mem_map.mp hnew
      have hother := hothers e (hmem e he)
      simp [hother]
  · rw [hchain, htip]
    exact h.ahead

/-- A stored call adds the events it sealed to the till's own log. -/
theorem own_stored {digests : Digests} {occurredAt : Timestamp} {t : Terminal} {p : Prepared}
    {chain : EventChain} {es : List (EventEnvelope Payload)} {store : EventStore Payload}
    (h : Inv digests t) (hadopts : Adopts digests t p)
    (hseal : sealAll digests.event t.identity occurredAt p.events t.chain = (chain, .ok es))
    (hstore : t.store.appendAll es = .ok store) :
    (∀ e ∈ es, e.deviceId = t.identity.deviceId) ∧
      ({ p.adopted with store, chain } : Terminal).own = t.own ++ es := by
  obtain ⟨-, hchain, -, -⟩ := sealAll_eq_ok hseal
  rw [h.chainDevice] at hchain
  have hes : ∀ e ∈ es, e.deviceId = t.identity.deviceId := fun e he => (chainFrom_mem hchain he).2.1
  refine ⟨hes, ?_⟩
  rw [own_eq_tagged, own_eq_tagged]
  show ((store.tagged.map (·.1)).filter (·.deviceId = p.adopted.identity.deviceId)) = _
  rw [hadopts.identity, (EventStore.appendAll_tagged hstore).2.2.1, List.map_append,
    List.filter_append]
  refine congrArg _ ?_
  rw [List.map_map, Function.comp_def, List.map_id', List.filter_eq_self]
  intro e he
  simpa using hes e he

/-- Where the tips stand after a stored call. -/
theorem inv_stored {digests : Digests} {occurredAt : Timestamp} {t : Terminal} {p : Prepared}
    {chain : EventChain} {es : List (EventEnvelope Payload)} {store : EventStore Payload}
    (h : Inv digests t) (hadopts : Adopts digests t p)
    (hseal : sealAll digests.event t.identity occurredAt p.events t.chain = (chain, .ok es))
    (hstore : t.store.appendAll es = .ok store) :
    t.chain.tip = t.store.tip ∧ chain.tip = store.tip ∧
      Inv digests { p.adopted with store, chain } := by
  obtain ⟨hdevice, hchain, htip, hcarries⟩ := sealAll_eq_ok hseal
  obtain ⟨hstoreDevice, -, htagged, hfirst⟩ := EventStore.appendAll_tagged hstore
  rw [h.chainDevice] at hdevice hchain
  obtain ⟨hes, hown⟩ := own_stored h hadopts hseal hstore
  -- the store takes the first event only where the chain in memory starts from its tip
  have hstart : t.chain.tip = t.store.tip := by
    rcases h.ahead with heq | hlt
    · exact heq
    · exfalso
      cases es with
      | nil => exact hadopts.nonempty (List.forall₂_nil_right_iff.mp hcarries)
      | cons e es =>
        have hseq := hfirst e rfl
        rw [hchain.1.seq, hchain.1.device, ← h.storeDevice] at hseq
        have hle : satNextSeq t.store.tip.deviceSeq ≤ t.store.tip.deviceSeq + 1 := min_le_left _ _
        rw [EventStore.tip] at hle hlt
        omega
  have hchainOwn : ChainFrom digests.event t.identity.deviceId ChainTip.genesis (t.own ++ es) := by
    refine chainFrom_append.mpr ⟨h.chain, ?_⟩
    rw [← h.tip_eq, ← hstart]
    exact hchain
  have htipStore : store.tip = endTip ChainTip.genesis (t.own ++ es) := by
    have hinv : ChainFrom digests.event t.identity.deviceId ChainTip.genesis
        (store.events.filter (·.deviceId = t.identity.deviceId)) := by
      have hsame : store.events.filter (·.deviceId = t.identity.deviceId) = t.own ++ es := by
        rw [← hown, own, hadopts.identity]
      rw [hsame]
      exact hchainOwn
    unfold EventStore.tip
    rw [hstoreDevice, h.storeDevice, EventStore.tipWithin_of_chain hinv, ← hown, own,
      hadopts.identity]
  have hends : chain.tip = store.tip := by
    rw [htip, htipStore, endTip_append, ← h.tip_eq, ← hstart]
  refine ⟨hstart, hends, ?_, ?_, ?_, ?_, ?_, .inl hends⟩
  · show store.deviceId = p.adopted.identity.deviceId
    rw [hstoreDevice, h.storeDevice, hadopts.identity]
  · show chain.deviceId = p.adopted.identity.deviceId
    rw [hdevice, hadopts.identity]
  · show p.adopted.fiscal.counter.deviceId = p.adopted.identity.deviceId
    rw [hadopts.fiscalDevice, h.fiscalDevice, hadopts.identity]
  · rw [hown]
    show ChainFrom digests.event p.adopted.identity.deviceId _ _
    rw [hadopts.identity]
    exact hchainOwn
  · show ∀ tagged ∈ store.tagged, tagged.2 = .local ↔
      tagged.1.deviceId = p.adopted.identity.deviceId
    rw [hadopts.identity, htagged]
    intro tagged hmem
    rcases List.mem_append.mp hmem with hold | hnew
    · exact h.sealedHere tagged hold
    · obtain ⟨e, he, rfl⟩ := List.mem_map.mp hnew
      simp [hes e he]

theorem inv_call {digests : Digests} {t : Terminal} (writable : Bool) (occurredAt : Timestamp)
    (call : Call) (h : Inv digests t) :
    Inv digests (t.perform digests writable occurredAt call).1 := by
  rw [perform_eq_commit]
  rcases commit_cases digests writable occurredAt t (t.prepare digests occurredAt call) with
    ⟨error, -, hcommit⟩ | ⟨p, chain, error, -, hchain, hcommit⟩ |
    ⟨p, chain, es, store, hprepare, -, hseal, hstore, hcommit⟩
  · rw [hcommit]
    exact h
  · obtain ⟨hdevice, hmoved⟩ := sealAll_tip digests.event t.identity occurredAt p.events t.chain
    rw [← hchain] at hdevice hmoved
    rw [hcommit]
    refine ⟨h.storeDevice, hdevice.trans h.chainDevice, h.fiscalDevice, h.chain, h.sealedHere, ?_⟩
    rcases hmoved with hkept | hfurther
    · exact hkept ▸ h.ahead
    · refine .inr ?_
      rcases h.ahead with heq | hlt
      · exact heq ▸ hfurther
      · exact hlt.trans hfurther
  · rw [hcommit]
    exact (inv_stored h (prepare_adopts hprepare) hseal hstore).2.2

/-- A sync round moves the store and the book only. -/
theorem sync_keeps (digests : Digests) (t : Terminal) (transport : Transport Payload)
    (nowMillis : I64) :
    (t.sync digests transport nowMillis).1.store =
        (t.store.syncOnce digests.event transport nowMillis).state.2 ∧
      (t.sync digests transport nowMillis).1.chain = t.chain ∧
      (t.sync digests transport nowMillis).1.fiscal = t.fiscal ∧
      (t.sync digests transport nowMillis).1.identity = t.identity := by
  simp only [sync]
  split
  · exact ⟨rfl, rfl, rfl, rfl⟩
  · split <;> exact ⟨rfl, rfl, rfl, rfl⟩

/-- A sync round leaves the shift. -/
theorem sync_shift (digests : Digests) (t : Terminal) (transport : Transport Payload)
    (nowMillis : I64) : (t.sync digests transport nowMillis).1.shift = t.shift := by
  simp only [sync]
  split
  · rfl
  · split <;> rfl

/-- A sync round leaves the till's own log alone. -/
theorem inv_sync {digests : Digests} {t t' : Terminal} {transport : Transport Payload}
    {nowMillis : I64} (h : Inv digests t) (hstep : step digests t (.sync transport nowMillis) t') :
    t'.own = t.own ∧ Inv digests t' := by
  obtain ⟨hserves, rfl⟩ := hstep
  obtain ⟨es, hpulled, hes⟩ :=
    EventStore.syncOnce_pulledInto digests.event t.store transport nowMillis
  obtain ⟨hstore, hchain, hfiscal, hidentity⟩ := sync_keeps digests t transport nowMillis
  rw [← hstore] at hpulled
  refine inv_pulled h hpulled ?_ hchain hfiscal hidentity
  intro e he
  obtain ⟨cursor, page, hpage, hmem⟩ := hes e he
  exact hserves cursor page hpage e hmem

theorem inv_step {digests : Digests} {t t' : Terminal} {a : Action} (h : Inv digests t)
    (hstep : step digests t a t') : Inv digests t' := by
  cases a with
  | call writable occurredAt call =>
    cases hstep
    exact inv_call writable occurredAt call h
  | restart => exact inv_restart h hstep
  | sync transport nowMillis => exact (inv_sync h hstep).2

/-- The events a till stored under its own name are one chain from genesis, in every run. -/
theorem inv_reachable {digests : Digests} {t : Terminal}
    (h : Transition.Reachable Fresh (step digests) t) : Inv digests t :=
  h.invariant (I := Inv digests) (fun _ => inv_fresh) (fun _ _ _ => inv_step)

/-! ### Plain digests, and instants -/

/-- Digests that tell events apart by their id and number, invoices by their sale and number. -/
def plainDigests : Digests where
  event := fun i => .ok ⟨Fin.ofNat _ (i.eventId.bits.val * 2 ^ 64 + i.deviceSeq)⟩
  invoice := fun i => .ok ⟨Fin.ofNat _ (i.saleId.bits.val * 2 ^ 64 + i.counter)⟩

/-- The till of device 3. -/
def till3 : Terminal := fresh ⟨1, 2, 3⟩

/-- The till a restart gives, where it loads. -/
def restarted (t : Terminal) : Terminal :=
  (load plainDigests t.store t.identity).toOption.getD t

theorem load_restarted {t : Terminal} (h : (load plainDigests t.store t.identity).isOkay) :
    load plainDigests t.store t.identity = .ok t.restarted := by
  obtain ⟨t', ht'⟩ := Except.isOkay_iff.mp h
  unfold restarted
  rw [ht']
  rfl

/-- Milliseconds after the epoch. -/
def instant (n : Fin 1000) : Timestamp := ⟨I64.lit n.val (I64.lit_small n)⟩

/-- Five units of a product are received as a batch. -/
def receive (batchId : Uuid) : Call :=
  .recordStock (.batchReceived batchId 12 none none ⟨I64.lit 5000⟩ ⟨I64.lit 40000, .bdt⟩ none
    (instant 0) 7) batchId

/-- One unit leaves the batch. -/
def issue (batchId eventId : Uuid) : Call :=
  .recordStock (.stockIssued batchId ⟨I64.lit 1000⟩ .sale none (instant 0) 7) eventId

end Terminal

end Sahl
