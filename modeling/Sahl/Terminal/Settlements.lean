import Mathlib.Tactic
import Sahl.Core.Settled
import Sahl.Terminal.Book
import Sahl.Terminal.Invoices

/-! # A settled sale and its invoice

    A completion is written together with its invoice or not at all. As long as a till completes
    its sales through `completeSale`, the book, the completions and the invoices of its log agree
    after any run of calls (`settles_iff_invoiced`). -/

namespace Sahl

/-! ## Section 1: What an event does to a settled sale -/

/-- Whether an event closes a sale. -/
def SaleEvent.isCompletion : SaleEvent → Bool
  | completed .. => true
  | _ => false

/-- The sale is in the book, and completed. -/
def SaleBook.Settles (book : SaleBook) (saleId : Uuid) : Prop :=
  ∃ sale, book.sales[saleId]? = some sale ∧ sale.status = .completed

namespace SaleBook

/-- A completed sale takes nothing, and only a completion completes. -/
theorem saleAfter_status {event : SaleEvent} {before : Option Sale} {sale' : Sale}
    (h : saleAfter event before = .ok sale') :
    (∀ sale, before = some sale → sale.status ≠ .completed) ∧
      (sale'.status = .completed ↔ event.isCompletion) := by
  cases before with
  | none =>
    refine ⟨fun _ hsome => (by cases hsome), ?_⟩
    cases event with
    | «opened» =>
      cases h
      simp [SaleEvent.isCompletion]
    | _ => cases h
  | some sale =>
    replace h : (sale.apply event).toExcept = .ok sale' := h
    -- a sale that is over is not written to
    have hnot : sale.status ≠ .completed := by
      intro hcompleted
      obtain ⟨error, hrefused⟩ :=
        @Sale.apply_of_not_open sale (by rw [hcompleted]; decide) event
      rw [hrefused] at h
      cases h
    refine ⟨fun _ hsome => by cases hsome; exact hnot, ?_⟩
    -- a completion, a tender, or an event that keeps the status or abandons
    rcases Sale.transition_eq_ok (Sale.apply_eq_ok h).2.1 with
      ⟨_, _, _, _, rfl, hcomplete⟩ | ⟨_, _, _, _, _, rfl, _, rfl⟩ | ⟨_, hkept⟩
    · rw [(Sale.complete_eq_ok hcomplete).2.2.2.2]
      simp [SaleEvent.isCompletion]
    · simpa [SaleEvent.isCompletion] using hnot
    · have hquiet : event.isCompletion = false ∧ sale'.status ≠ .completed := by
        rcases hkept with ⟨hterminal, hsame⟩ | habandoned
        · refine ⟨?_, hsame ▸ hnot⟩
          cases event <;> first | rfl | cases hterminal
        · refine ⟨?_, by rw [habandoned]; decide⟩
          cases event with
          | completed =>
            have hcomplete := (Sale.apply_eq_ok h).2.1
            rw [(Sale.complete_eq_ok hcomplete).2.2.2.2] at habandoned
            cases habandoned
          | _ => rfl
      simp [hquiet]

/-- An accepted event leaves every other sale alone, was not for a settled one, and settles its
    own where it is a completion. -/
theorem apply_settles {book book' : SaleBook} {event : SaleEvent}
    (h : (book.apply event).toExcept = .ok book') :
    ¬ book.Settles event.saleId ∧ (book'.Settles event.saleId ↔ event.isCompletion) ∧
      ∀ saleId, saleId ≠ event.saleId → book'.sales[saleId]? = book.sales[saleId]? := by
  obtain ⟨sale', hafter, hsales⟩ := UuidMap.alterM_eq_ok.mp (apply_eq_ok.mp h)
  obtain ⟨hbefore, hstatus⟩ := saleAfter_status hafter
  refine ⟨?_, ?_, ?_⟩
  · rintro ⟨sale, hsale, hcompleted⟩
    exact hbefore sale hsale hcompleted
  · unfold Settles
    rw [← hsales, UuidMap.get_insert, if_pos rfl]
    simpa using hstatus
  · intro saleId hother
    rw [← hsales, UuidMap.get_insert, if_neg (Ne.symm hother)]

end SaleBook

/-! ## Section 2: What the log says of a sale -/

/-- Whether an event completes the sale. -/
def DomainEvent.completes (saleId : Uuid) : DomainEvent → Bool
  | .sale event => event.isCompletion && event.saleId = saleId
  | _ => false

/-- Whether an event issues an invoice for the sale. -/
def DomainEvent.invoices (saleId : Uuid) : DomainEvent → Bool
  | .fiscal event => event.invoice.saleId = saleId
  | _ => false

namespace Terminal

/-- The stored completions of a sale. -/
def completions (t : Terminal) (saleId : Uuid) : List (EventEnvelope Payload) :=
  t.store.events.filter fun e => e.read.any (·.completes saleId)

/-- The stored invoices for a sale. -/
def invoicesFor (t : Terminal) (saleId : Uuid) : List (EventEnvelope Payload) :=
  t.store.events.filter fun e => e.read.any (·.invoices saleId)

/-- The store holds one completion of the sale and one invoice for it, next to each other, and the
    invoice is over the totals of the sale. -/
def Invoiced (t : Terminal) (saleId : Uuid) : Prop :=
  ∃ completion invoiced entry sale, t.completions saleId = [completion] ∧
    t.invoicesFor saleId = [invoiced] ∧ invoiced.deviceSeq = completion.deviceSeq + 1 ∧
    invoiced.invoice = some entry ∧ t.book.sales[saleId]? = some sale ∧
    sale.totals = .ok entry.2.totals

/-- Book and log agree on a sale: both know it settled, or neither does. -/
inductive Accounted (t : Terminal) (saleId : Uuid) : Prop where
  | unsettled : ¬ t.book.Settles saleId → t.completions saleId = [] →
      t.invoicesFor saleId = [] → Accounted t saleId
  | settled : t.book.Settles saleId → t.Invoiced saleId → Accounted t saleId

/-- Completions go through `completeSale`, which is given nothing else; the till is not restarted
    and pulls nothing. -/
def CompletesThroughInvoice : Terminal → Action → Prop
  | _, .call _ _ (.record event _) => event.isCompletion = false
  | _, .call _ _ (.completeSale event ..) => event.isCompletion = true
  | _, .call .. => True
  | _, .restart => False
  | _, .sync .. => False

/-! ## Section 3: One call -/

/-- What an allowed call writes: events that settle nothing and leave every sale's entry alone but
    that of an unsettled one; or a completion with its invoice. -/
inductive Writes (t : Terminal) (p : Prepared) : Prop where
  | quiet : (∀ saleId, ∀ recorded ∈ p.events,
        recorded.2.completes saleId = false ∧ recorded.2.invoices saleId = false) →
      (∀ saleId, t.book.Settles saleId ↔ p.adopted.book.Settles saleId) →
      (∀ saleId, t.book.Settles saleId →
        p.adopted.book.sales[saleId]? = t.book.sales[saleId]?) → Writes t p
  | completion (event : SaleEvent) (saleEventId fiscalEventId : Uuid) (invoice : InvoiceSeal)
      (content : InvoiceContent) (at' : Timestamp) (issuedBy : Uuid) (sale : Sale) :
      event.isCompletion = true →
      p.events = [(saleEventId, .sale event),
        (fiscalEventId, .fiscal (.invoiceIssued invoice content at' issuedBy))] →
      invoice.saleId = event.saleId →
      (t.book.apply event).toExcept = .ok p.adopted.book →
      p.adopted.book.sales[event.saleId]? = some sale → sale.totals = .ok content.totals →
      Writes t p

theorem sealInvoice_saleId {digest : InvoiceDigest InvoiceContent} {chain : FiscalChain}
    {saleId : Uuid} {issuedAt : Timestamp} {content : InvoiceContent} {invoice : InvoiceSeal}
    (h : (chain.sealInvoice digest saleId issuedAt content).1 = .ok invoice) :
    invoice.saleId = saleId := by
  unfold FiscalChain.sealInvoice at h
  split at h
  · cases h
  · split at h
    · cases h
    · cases h
      rfl

/-- A sale event that completes nothing keeps the settled sales, and adds none. -/
theorem apply_quiet {book book' : SaleBook} {event : SaleEvent}
    (hquiet : event.isCompletion = false) (h : (book.apply event).toExcept = .ok book') :
    (∀ saleId, book.Settles saleId ↔ book'.Settles saleId) ∧
      ∀ saleId, book.Settles saleId → book'.sales[saleId]? = book.sales[saleId]? := by
  obtain ⟨hbefore, hafter, hothers⟩ := SaleBook.apply_settles h
  rw [hquiet] at hafter
  constructor
  · intro saleId
    by_cases hid : saleId = event.saleId
    · subst hid
      exact ⟨fun hsettled => absurd hsettled hbefore, fun hsettled => by simpa using hafter.mp hsettled⟩
    · unfold SaleBook.Settles
      rw [hothers saleId hid]
  · intro saleId hsettled
    refine hothers saleId fun hid => ?_
    subst hid
    exact hbefore hsettled

theorem prepareOne_writes {t : Terminal} {event : DomainEvent} {eventId : Uuid} {p : Prepared}
    (hcompletes : ∀ saleId, event.completes saleId = false)
    (hinvoices : ∀ saleId, event.invoices saleId = false)
    (hquiet : ∀ sale, event = .sale sale → sale.isCompletion = false)
    (h : t.prepareOne event eventId = .ok p) : Writes t p := by
  obtain ⟨candidate, hcandidate, h⟩ := Except.bind_eq_ok.mp h
  cases h
  have hbook : (∀ saleId, t.book.Settles saleId ↔ candidate.book.Settles saleId) ∧
      ∀ saleId, t.book.Settles saleId →
        candidate.book.sales[saleId]? = t.book.sales[saleId]? := by
    rcases Projections.apply_book hcandidate with hsame | ⟨sale, rfl, hsale⟩
    · rw [hsame]
      exact ⟨fun _ => Iff.rfl, fun _ _ => rfl⟩
    · exact apply_quiet (hquiet sale rfl) hsale
  refine .quiet (fun saleId recorded hmem => ?_) hbook.1 hbook.2
  obtain rfl := List.mem_singleton.mp hmem
  exact ⟨hcompletes saleId, hinvoices saleId⟩

theorem prepare_writes {digests : Digests} {writable : Bool} {occurredAt : Timestamp}
    {t : Terminal} {call : Call} {p : Prepared}
    (hguard : CompletesThroughInvoice t (.call writable occurredAt call))
    (h : t.prepare digests occurredAt call = .ok p) : Writes t p := by
  cases call with
  | record event eventId =>
    obtain ⟨_, -, h⟩ := Except.bind_eq_ok.mp h
    replace hguard : event.isCompletion = false := hguard
    refine prepareOne_writes (fun saleId => ?_) (fun _ => rfl) (fun sale hsale => ?_) h
    · simp [DomainEvent.completes, hguard]
    · cases hsale
      exact hguard
  | recordOutlet event eventId =>
    obtain ⟨config, -, h⟩ := Except.bind_eq_ok.mp h
    cases h
    refine .quiet (fun saleId recorded hmem => ?_) (fun _ => Iff.rfl) fun _ _ => rfl
    obtain rfl := List.mem_singleton.mp hmem
    exact ⟨rfl, rfl⟩
  | completeSale event regime issuedBy saleEventId fiscalEventId =>
    simp only [prepare, prepareCompleteSale, Except.bind_eq_ok, Except.mapError_eq_ok,
      Except.okOr_eq_ok] at h
    -- the invoice is sealed over the sale as the completion leaves it
    obtain ⟨_, -, candidate, hcandidate, sale, hsale, totals, htotals, invoice, hseal, h⟩ := h
    cases h
    simp only [Projections.apply, Except.bind_eq_ok, Except.mapError_eq_ok] at hcandidate
    obtain ⟨book, hbook, hcandidate⟩ := hcandidate
    cases hcandidate
    exact .completion event saleEventId fiscalEventId invoice ⟨totals, regime⟩ occurredAt issuedBy
      sale hguard rfl (sealInvoice_saleId hseal) hbook hsale htotals
  | recordReceipt purchase stock purchaseEventId stockEventId =>
    simp only [prepare, prepareReceipt, Except.bind_eq_ok] at h
    obtain ⟨_, -, ordered, hordered, candidate, hcandidate, h⟩ := h
    cases h
    -- neither of the two events of a receipt touches a sale
    have hbook : candidate.book = t.book := by
      rcases Projections.apply_book hcandidate with hsame | ⟨_, hsale, -⟩
      · rcases Projections.apply_book hordered with hsame' | ⟨_, hsale, -⟩
        · exact hsame.trans hsame'
        · cases hsale
      · cases hsale
    refine .quiet (fun saleId recorded hmem => ?_) (fun saleId => ?_) fun saleId _ => ?_
    · simp only [List.mem_cons, List.not_mem_nil, or_false] at hmem
      rcases hmem with rfl | rfl
      · exact ⟨rfl, rfl⟩
      · exact ⟨rfl, rfl⟩
    · rw [hbook]
    · rw [hbook]
  | recordShift | recordStock | recordPurchase | recordStaff | recordCatalogue | recordFloor =>
    exact prepareOne_writes (fun _ => rfl) (fun _ => rfl) (fun _ hsale => by cases hsale) h

/-! ## Section 4: Every run -/

/-- Events that say nothing of a kind leave the stored ones of it. -/
theorem filter_read_quiet {occurredAt : Timestamp} {events : List (Uuid × DomainEvent)}
    {es : List (EventEnvelope Payload)} {q : DomainEvent → Bool}
    (hcarries : List.Forall₂ (Carries occurredAt) events es)
    (hquiet : ∀ recorded ∈ events, q recorded.2 = false) :
    es.filter (fun e => e.read.any q) = [] := by
  rw [List.filter_eq_nil_iff]
  intro e he
  obtain ⟨recorded, hmem, hcarry⟩ := forall₂_mem_right hcarries he
  rw [hcarry.read]
  simpa using hquiet recorded hmem

theorem accounted_stored {digests : Digests} {occurredAt : Timestamp} {t : Terminal} {p : Prepared}
    {chain : EventChain} {es : List (EventEnvelope Payload)} {store : EventStore Payload}
    (hwrites : Writes t p)
    (hseal : sealAll digests.event t.identity occurredAt p.events t.chain = (chain, .ok es))
    (hstore : t.store.appendAll es = .ok store) {saleId : Uuid} (h : t.Accounted saleId) :
    ({ p.adopted with store, chain } : Terminal).Accounted saleId := by
  obtain ⟨-, hchain, -, hcarries⟩ := sealAll_eq_ok hseal
  have hcompletions : ({ p.adopted with store, chain } : Terminal).completions saleId =
      t.completions saleId ++ es.filter (fun e => e.read.any (·.completes saleId)) := by
    show store.events.filter _ = _
    rw [EventStore.appendAll_events hstore, List.filter_append]
    rfl
  have hinvoices : ({ p.adopted with store, chain } : Terminal).invoicesFor saleId =
      t.invoicesFor saleId ++ es.filter (fun e => e.read.any (·.invoices saleId)) := by
    show store.events.filter _ = _
    rw [EventStore.appendAll_events hstore, List.filter_append]
    rfl
  -- what a call keeps of a sale it does not complete
  have hkeep : es.filter (fun e => e.read.any (·.completes saleId)) = [] →
      es.filter (fun e => e.read.any (·.invoices saleId)) = [] →
      (t.book.Settles saleId ↔ p.adopted.book.Settles saleId) →
      (t.book.Settles saleId → p.adopted.book.sales[saleId]? = t.book.sales[saleId]?) →
      ({ p.adopted with store, chain } : Terminal).Accounted saleId := by
    intro hnone hnone' hsettles hsame
    rw [hnone, List.append_nil] at hcompletions
    rw [hnone', List.append_nil] at hinvoices
    rcases h with ⟨hnot, hc, hi⟩ | ⟨hsettled, completion, invoiced, entry, sale, hc, hi, hrest⟩
    · refine .unsettled (fun hcon => hnot (hsettles.mpr hcon)) ?_ ?_
      · rw [hcompletions, hc]
      · rw [hinvoices, hi]
    · refine .settled (hsettles.mp hsettled) ⟨completion, invoiced, entry, sale, ?_, ?_, ?_⟩
      · rw [hcompletions, hc]
      · rw [hinvoices, hi]
      · obtain ⟨hseq, hentry, hsale, htotals⟩ := hrest
        exact ⟨hseq, hentry, (hsame hsettled).trans hsale, htotals⟩
  rcases hwrites with ⟨hquiet, hsettles, hsame⟩ | ⟨event, saleEventId, fiscalEventId, invoice,
    content, at', issuedBy, sale, hcompletion, hevents, hid, hbook, hsale, htotals⟩
  · refine hkeep ?_ ?_ (hsettles saleId) (hsame saleId)
    · exact filter_read_quiet hcarries fun recorded hmem => (hquiet saleId recorded hmem).1
    · exact filter_read_quiet hcarries fun recorded hmem => (hquiet saleId recorded hmem).2
  · rw [hevents] at hcarries
    obtain ⟨hbefore, hafter, hothers⟩ := SaleBook.apply_settles hbook
    obtain ⟨completion, rest, hfirst, hrest, rfl⟩ := List.forall₂_cons_left_iff.mp hcarries
    obtain ⟨invoiced, last, hsecond, hlast, rfl⟩ := List.forall₂_cons_left_iff.mp hrest
    obtain rfl := List.forall₂_nil_left_iff.mp hlast
    obtain ⟨-, hfollows, -⟩ := hchain
    by_cases hsame : saleId = event.saleId
    · -- the sale was not settled, so nothing was stored of it before
      subst hsame
      rcases h with ⟨-, hc, hi⟩ | ⟨hsettled, -⟩
      · refine .settled (hafter.mpr hcompletion)
          ⟨completion, invoiced, (invoice, content), sale, ?_, ?_, ?_, ?_, hsale, htotals⟩
        · rw [hcompletions, hc]
          simp [hfirst.read, hsecond.read, DomainEvent.completes, hcompletion]
        · rw [hinvoices, hi]
          simp [hfirst.read, hsecond.read, DomainEvent.invoices, FiscalEvent.invoice, hid]
        · exact hfollows.seq
        · rw [EventEnvelope.invoice, hsecond.read]
          rfl
      · exact absurd hsettled hbefore
    · refine hkeep ?_ ?_ ?_ ?_
      · simp [hfirst.read, hsecond.read, DomainEvent.completes, Ne.symm hsame]
      · simp [hfirst.read, hsecond.read, DomainEvent.invoices, FiscalEvent.invoice, hid,
          Ne.symm hsame]
      · unfold SaleBook.Settles
        rw [hothers saleId hsame]
      · exact fun _ => hothers saleId hsame

theorem accounted_reachable {digests : Digests} {t : Terminal}
    (h : Transition.Reachable Fresh (Transition.Guarded (step digests) CompletesThroughInvoice) t)
    (saleId : Uuid) : t.Accounted saleId := by
  refine h.invariant (I := fun t => t.Accounted saleId) (fun t hfresh => ?_) ?_
  · obtain ⟨identity, rfl⟩ := hfresh
    refine .unsettled ?_ rfl rfl
    rintro ⟨sale, hsale, -⟩
    simp [fresh, Projections.empty, SaleBook.new] at hsale
  · intro t a t' ht hstep
    obtain ⟨hguard, hstep⟩ := hstep
    cases a with
    | call writable occurredAt call =>
      cases hstep
      rw [perform_eq_commit]
      rcases commit_cases digests writable occurredAt t (t.prepare digests occurredAt call) with
        ⟨error, -, hcommit⟩ | ⟨p, chain, error, -, -, hcommit⟩ |
        ⟨p, chain, es, store, hprepare, -, hseal, hstore, hcommit⟩
      · rw [hcommit]
        exact ht
      · -- only the chain in memory has moved
        rw [hcommit]
        rcases ht with ⟨hnot, hc, hi⟩ | ⟨hsettled, hinvoiced⟩
        · exact .unsettled hnot hc hi
        · exact .settled hsettled hinvoiced
      · rw [hcommit]
        exact accounted_stored (prepare_writes hguard hprepare) hseal hstore ht
    | restart | sync => cases hguard

/-- **Every settled sale has exactly one invoice**: after any run of calls, successful and failed,
    a sale of the book is completed exactly when the store holds one completion of it and one
    invoice for it, next to each other, over the totals of the sale. -/
theorem settles_iff_invoiced {digests : Digests} {t : Terminal}
    (h : Transition.Reachable Fresh (Transition.Guarded (step digests) CompletesThroughInvoice) t)
    (saleId : Uuid) : t.book.Settles saleId ↔ t.Invoiced saleId := by
  rcases accounted_reachable h saleId with ⟨hnot, hc, -⟩ | ⟨hsettled, hinvoiced⟩
  · refine ⟨fun hsettled => absurd hsettled hnot, ?_⟩
    rintro ⟨completion, _, _, _, hcompletion, -⟩
    rw [hc] at hcompletion
    cases hcompletion
  · exact ⟨fun _ => hinvoiced, fun _ => hsettled⟩

/-- One sale settled while another stays open. -/
theorem settles_iff_invoiced_oneOfTwo :
    let calls := (true, instant 5, .record (.opened 21 7 .bdt .taxInclusive .halfUp) 99) ::
      sell 20 (instant 10) ![100, 101, 102, 103]
    (till3.performAll plainDigests calls).book.Settles 20 ↔
      (till3.performAll plainDigests calls).Invoiced 20 := by
  refine settles_iff_invoiced (performAll_reachable ?_ (.init ⟨_, rfl⟩)) 20
  intro call hcall t
  simp only [sell, List.mem_cons, List.not_mem_nil, or_false] at hcall
  rcases hcall with rfl | rfl | rfl | rfl
  all_goals rfl

end Terminal

end Sahl
