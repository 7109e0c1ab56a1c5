import Mathlib.Tactic
import Sahl.Terminal.Loading

/-! # Invoice numbers over a till's life

    A running till numbers its invoices on from the tip it holds; a load takes the tip from the
    invoice that is last in the order of instants. The numbers go on without a gap as long as
    that is the invoice issued last (`invoices_numbered`); a clock put back between two invoices
    has the second number issued again after a restart (`clockBack_reissues`). -/

namespace Sahl

/-! ## Section 1: The invoices of a log -/

namespace Terminal

/-- The invoices a till has issued, in the order of their sequence numbers. -/
def issued (t : Terminal) : List (InvoiceSeal × InvoiceContent) :=
  t.store.loadAll.filterMap (·.invoice)

/-- A load ends with the tip of the last own invoice it read. -/
theorem foldlM_fiscalTip {own : Uuid} {es : List (EventEnvelope Payload)} {l : Loading}
    (h : es.foldlM (Loading.step own) .empty = .ok l) :
    l.fiscalTip = ((es.filterMap (ownInvoice own)).getLast?.map .ofEntry).getD .genesis := by
  refine foldlM_invariant (fun seen l => l.fiscalTip =
    ((seen.filterMap (ownInvoice own)).getLast?.map .ofEntry).getD .genesis) ?_ rfl h
  intro seen l e l' hseen hstep
  rw [(Loading.step_eq_ok hstep).fiscalTip, hseen, List.filterMap_append]
  cases hentry : ownInvoice own e with
  | none => simp [hentry]
  | some entry => simp [hentry]

/-! ## Section 2: Every run -/

/-- A restart finds the invoice issued last at the end of the order it reads in, and a sibling's
    events carry the sibling's own invoices. -/
def ResumesLatest (t : Terminal) : Action → Prop
  | .call .. => True
  | .restart => ∀ last, (t.own.filter (·.invoice.isSome)).getLast? = some last →
      ∀ e ∈ t.own, e.invoice.isSome → replayKey e ≤ replayKey last
  | .sync transport _ => ∀ cursor page, transport.pull cursor pullPage = .ok page →
      ∀ e ∈ page.events, ∀ entry, e.invoice = some entry → entry.1.deviceId = e.deviceId

structure Numbered (digests : Digests) (t : Terminal) : Prop where
  verifies : verifyInvoiceChain digests.invoice (t.own.filterMap (·.invoice)) .genesis =
    .ok t.fiscal.tip
  issuer : ∀ e ∈ t.store.events, ∀ entry, e.invoice = some entry → entry.1.deviceId = e.deviceId

theorem numbered_fresh {digests : Digests} {t : Terminal} (h : Fresh t) : Numbered digests t := by
  obtain ⟨identity, rfl⟩ := h
  exact ⟨rfl, fun e he => absurd he List.not_mem_nil⟩

theorem numbered_stored {digests : Digests} {occurredAt : Timestamp} {t : Terminal} {p : Prepared}
    {chain : EventChain} {es : List (EventEnvelope Payload)} {store : EventStore Payload}
    (hinv : Inv digests t) (h : Numbered digests t) (hadopts : Adopts digests t p)
    (hseal : sealAll digests.event t.identity occurredAt p.events t.chain = (chain, .ok es))
    (hstore : t.store.appendAll es = .ok store) :
    Numbered digests { p.adopted with store, chain } := by
  obtain ⟨hes, hown⟩ := own_stored hinv hadopts hseal hstore
  have hinvoices : es.filterMap (·.invoice) = (p.events.map (·.2)).filterMap invoiceOf :=
    Carries.filterMap_read (sealAll_eq_ok hseal).2.2.2 invoiceOf
  refine ⟨?_, ?_⟩
  · rw [hown, List.filterMap_append, hinvoices]
    exact foldlM_append_eq_ok.mpr ⟨t.fiscal.tip, h.verifies, hadopts.invoices⟩
  · show ∀ e ∈ store.events, _
    rw [EventStore.appendAll_events hstore]
    intro e he entry hentry
    rcases List.mem_append.mp he with hold | hnew
    · exact h.issuer e hold entry hentry
    · have hmem : entry ∈ (p.events.map (·.2)).filterMap invoiceOf := by
        rw [← hinvoices]
        exact List.mem_filterMap.mpr ⟨e, hnew, hentry⟩
      rw [hadopts.issuer entry hmem, hinv.fiscalDevice, hes e hnew]

/-- What a load takes the tip from is an invoice of the till's own log. -/
theorem ownInvoice_eq_some {digests : Digests} {t : Terminal} (h : Numbered digests t)
    {e : EventEnvelope Payload} (he : e ∈ t.store.events) {entry : InvoiceSeal × InvoiceContent} :
    ownInvoice t.identity.deviceId e = some entry ↔ e ∈ t.own ∧ e.invoice = some entry := by
  unfold ownInvoice own
  rw [Option.filter_eq_some_iff, List.mem_filter]
  constructor
  · rintro ⟨hinvoice, hdevice⟩
    refine ⟨⟨he, ?_⟩, hinvoice⟩
    rw [← h.issuer e he entry hinvoice]
    exact hdevice
  · rintro ⟨⟨-, hdevice⟩, hinvoice⟩
    refine ⟨hinvoice, ?_⟩
    rw [h.issuer e he entry hinvoice]
    exact hdevice

theorem numbered_restart {digests : Digests} {t t' : Terminal} (hinv : Inv digests t)
    (h : Numbered digests t) (hguard : t.ResumesLatest .restart)
    (hload : load digests t.store t.identity = .ok t') : Numbered digests t' := by
  obtain ⟨loaded, shift, hloaded, -, rfl⟩ := hinv.load_eq_ok.mp hload
  refine ⟨?_, h.issuer⟩
  show verifyInvoiceChain digests.invoice (t.own.filterMap (·.invoice)) .genesis =
    .ok loaded.fiscalTip
  rw [h.verifies, verifyInvoiceChain_tip h.verifies, foldlM_fiscalTip hloaded]
  have hmem : ∀ e, e ∈ t.store.loadProjectionInput ↔ e ∈ t.store.events :=
    fun e => (List.perm_insertionSort _ _).mem_iff
  suffices hsame : (t.own.filterMap (·.invoice)).getLast? =
      (t.store.loadProjectionInput.filterMap (ownInvoice t.identity.deviceId)).getLast? by
    rw [hsame]
    rfl
  rw [getLast?_filterMap_eq_bind]
  cases hlast : (t.own.filter (·.invoice.isSome)).getLast? with
  | none =>
    -- nothing was issued, so there is nothing to resume from
    have hnil := List.filter_eq_nil_iff.mp (List.getLast?_eq_none_iff.mp hlast)
    have hnone : t.store.loadProjectionInput.filterMap (ownInvoice t.identity.deviceId) = [] := by
      rw [List.filterMap_eq_nil_iff]
      intro e he
      by_contra hsome
      obtain ⟨entry, hentry⟩ := Option.ne_none_iff_exists'.mp hsome
      obtain ⟨hown, hinvoice⟩ := (ownInvoice_eq_some h ((hmem e).mp he)).mp hentry
      exact hnil e hown (by simp [hinvoice])
    rw [hnone]
    rfl
  | some last =>
    obtain ⟨hown, hissued⟩ := List.mem_filter.mp (List.mem_of_getLast? hlast)
    obtain ⟨entry, hentry⟩ := Option.isSome_iff_exists.mp hissued
    have hstored : last ∈ t.store.events := (List.mem_filter.mp hown).1
    rw [Option.bind_some, hentry]
    refine (EventStore.readLast_iff.mpr
      ⟨last, hstored, (ownInvoice_eq_some h hstored).mpr ⟨hown, hentry⟩, ?_⟩).symm
    intro e he hsome
    obtain ⟨found, hfound⟩ := Option.isSome_iff_exists.mp hsome
    obtain ⟨hownE, hinvoice⟩ := (ownInvoice_eq_some h he).mp hfound
    exact hguard last hlast e hownE (by simp [hinvoice])

theorem numbered_sync {digests : Digests} {t t' : Terminal} {transport : Transport Payload}
    {nowMillis : I64} (hinv : Inv digests t) (h : Numbered digests t)
    (hguard : t.ResumesLatest (.sync transport nowMillis))
    (hstep : step digests t (.sync transport nowMillis) t') : Numbered digests t' := by
  obtain ⟨hown, -⟩ := inv_sync hinv hstep
  obtain ⟨-, rfl⟩ := hstep
  obtain ⟨hstore, -, hfiscal, -⟩ := sync_keeps digests t transport nowMillis
  refine ⟨?_, ?_⟩
  · rw [hown, hfiscal]
    exact h.verifies
  · obtain ⟨es, ⟨-, new, hnew, hmem⟩, hes⟩ :=
      EventStore.syncOnce_pulledInto digests.event t.store transport nowMillis
    rw [hstore, EventStore.events_eq_tagged, hnew, List.map_append, ← EventStore.events_eq_tagged]
    intro e he entry hentry
    rcases List.mem_append.mp he with hold | hpulled
    · exact h.issuer e hold entry hentry
    · rw [List.map_map, Function.comp_def, List.map_id'] at hpulled
      obtain ⟨cursor, page, hpage, hmemPage⟩ := hes e (hmem e hpulled)
      exact hguard cursor page hpage e hmemPage entry hentry

theorem numbered_reachable {digests : Digests} {t : Terminal}
    (h : Transition.Reachable Fresh (Transition.Guarded (step digests) ResumesLatest) t) :
    Inv digests t ∧ Numbered digests t := by
  refine h.invariant (I := fun t => Inv digests t ∧ Numbered digests t) ?_ ?_
  · exact fun t hfresh => ⟨inv_fresh hfresh, numbered_fresh hfresh⟩
  · intro t a t' ht hstep
    refine ⟨inv_step ht.1 hstep.2, ?_⟩
    obtain ⟨hguard, hstep⟩ := hstep
    cases a with
    | call writable occurredAt call =>
      cases hstep
      rw [perform_eq_commit]
      -- only a call that is stored adds an invoice
      rcases commit_cases digests writable occurredAt t (t.prepare digests occurredAt call) with
        ⟨error, -, hcommit⟩ | ⟨p, chain, error, -, -, hcommit⟩ |
        ⟨p, chain, es, store, hprepare, -, hseal, hstore, hcommit⟩
      · rw [hcommit]
        exact ht.2
      · rw [hcommit]
        exact ⟨ht.2.verifies, ht.2.issuer⟩
      · rw [hcommit]
        exact numbered_stored ht.1 ht.2 (prepare_adopts hprepare) hseal hstore
    | restart => exact numbered_restart ht.1 ht.2 hguard hstep
    | sync transport nowMillis => exact numbered_sync ht.1 ht.2 hguard hstep

/-- **Invoice numbers**: in every run in which each restart finds the invoice issued last at the
    end of the order it reads in, the invoices a till has issued are one verified chain from
    genesis, numbered from one on. -/
theorem invoices_numbered {digests : Digests} {t : Terminal}
    (h : Transition.Reachable Fresh (Transition.Guarded (step digests) ResumesLatest) t) :
    verifyInvoiceChain digests.invoice t.issued .genesis = .ok t.fiscal.tip ∧
      t.issued.map (·.1.counter) = List.range' 1 t.issued.length := by
  obtain ⟨hinv, hnumbered⟩ := numbered_reachable h
  have hverifies : verifyInvoiceChain digests.invoice t.issued .genesis = .ok t.fiscal.tip := by
    unfold issued
    rw [hinv.loadAll_eq]
    exact hnumbered.verifies
  exact ⟨hverifies, verifyInvoiceChain_counters hverifies⟩

/-! ### A clock put back between two invoices -/

/-- A sale of one free line, opened, filled and completed at one instant. -/
def sell (saleId : Uuid) (at' : Timestamp) (ids : Fin 4 → Uuid) : List (Bool × Timestamp × Call) :=
  [(true, at', .record (.opened saleId 7 .bdt .taxInclusive .halfUp) (ids 0)),
   (true, at', .record (.lineAdded saleId 11 12 "Bag" (Money.zero .bdt) Quantity.one .exempt [])
     (ids 1)),
   (true, at', .completeSale (.completed saleId (Money.zero .bdt) (Money.zero .bdt) at') "vat" 7
     (ids 2) (ids 3))]

/-- Two sales, at the instants given. -/
def twoSold (first second : Timestamp) : Terminal :=
  till3.performAll plainDigests (sell 20 first ![100, 101, 102, 103] ++
    sell 21 second ![110, 111, 112, 113])

/-- Two sales, a restart, and a third sale. -/
def thriceSold (first second : Timestamp) : Terminal :=
  (twoSold first second).restarted.performAll plainDigests
    (sell 22 (instant 30) ![120, 121, 122, 123])

theorem twoSold_reachable {guard : Terminal → Action → Prop} (first second : Timestamp)
    (hguard : ∀ t writable occurredAt call, guard t (.call writable occurredAt call)) :
    Transition.Reachable Fresh (Transition.Guarded (step plainDigests) guard)
      (twoSold first second) :=
  performAll_reachable (fun _ _ _ => hguard _ _ _ _) (.init ⟨_, rfl⟩)

/-- The clock runs on between the sales. -/
theorem invoices_numbered_clockKept :
    verifyInvoiceChain plainDigests.invoice (thriceSold (instant 10) (instant 20)).issued .genesis =
        .ok (thriceSold (instant 10) (instant 20)).fiscal.tip ∧
      (thriceSold (instant 10) (instant 20)).issued.map (·.1.counter) =
        List.range' 1 (thriceSold (instant 10) (instant 20)).issued.length := by
  have hcalls : ∀ t writable occurredAt call,
      ResumesLatest t (.call writable occurredAt call) := fun _ _ _ _ => trivial
  refine invoices_numbered (performAll_reachable (fun _ _ _ => hcalls _ _ _ _) ?_)
  refine .step .restart (twoSold_reachable (instant 10) (instant 20) hcalls) ⟨?_, ?_⟩
  · show ∀ last ∈ ((twoSold (instant 10) (instant 20)).own.filter (·.invoice.isSome)).getLast?,
      ∀ e ∈ (twoSold (instant 10) (instant 20)).own, e.invoice.isSome →
        replayKey e ≤ replayKey last
    decide
  · exact load_restarted (by decide)

/-- The clock goes back between the first two sales: after a restart the third sale gets the
    number of the second. -/
theorem clockBack_reissues :
    Transition.Reachable Fresh (step plainDigests) (thriceSold (instant 20) (instant 10)) ∧
      (thriceSold (instant 20) (instant 10)).issued.map (·.1.counter) = [1, 2, 2] ∧
      ¬ (verifyInvoiceChain plainDigests.invoice (thriceSold (instant 20) (instant 10)).issued
        .genesis).isOkay := by
  refine ⟨?_, by decide, by decide⟩
  refine Transition.Reachable.of_guarded
    (@performAll_reachable _ (fun _ _ => True) _ _ (fun _ _ _ => trivial) ?_)
  exact .step .restart (twoSold_reachable (instant 20) (instant 10) fun _ _ _ _ => trivial)
    ⟨trivial, load_restarted (by decide)⟩

end Terminal

end Sahl
