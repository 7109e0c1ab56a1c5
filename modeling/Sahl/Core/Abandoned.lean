import Mathlib.Tactic
import Sahl.Core.SaleHistory
import Sahl.Core.Settled

/-! # Tickets given up

    Giving a ticket up asks only that it is open, not that nothing was paid on it. What was paid on
    it then belongs to no sale that is open or completed. Every payment of a stream stands with a
    sale that is exactly where no ticket is given up after money was taken on it
    (`paymentsStand_iff`). -/

namespace Sahl

/-! ## Section 1: What was paid -/

namespace SaleEvent

/-- The tender an event records. -/
def tender? : SaleEvent → Option Tender
  | .tenderRecorded _ tenderId method amount reference => some ⟨tenderId, method, amount, reference⟩
  | _ => none

/-- The event that gives a ticket up. -/
def isAbandonment : SaleEvent → Bool
  | .abandoned .. => true
  | _ => false

/-- Giving a ticket up records no tender. -/
theorem tender?_of_isAbandonment {event : SaleEvent} (h : event.isAbandonment) :
    event.tender? = none := by
  cases event with
  | abandoned => rfl
  | _ => cases h

end SaleEvent

namespace Sale

variable {sale sale' : Sale} {events : List SaleEvent}

/-- One step adds the tender the event records, and gives the ticket up where the event does. -/
theorem apply_paid {event : SaleEvent} (h : (sale.apply event).toExcept = .ok sale') :
    sale'.tenders = sale.tenders ++ event.tender?.toList ∧
      (sale'.status = .abandoned ↔ event.isAbandonment) := by
  obtain ⟨-, htransition, hallowed⟩ := apply_eq_ok h
  have hmoved := transition_moved htransition
  cases hmoved with
  | completed hcomplete =>
    rw [(complete_eq_ok hcomplete).2.2.2.2]
    simp [SaleEvent.tender?, SaleEvent.isAbandonment]
  | abandoned hopen => simp [SaleEvent.tender?, SaleEvent.isAbandonment]
  | tenderRecorded | lineAdded | lineQuantityChanged | lineDiscounted | lineVoided
  | orderDiscounted | ticketClaimed | ticketReleased | releaseIgnored | seated | linesFired =>
    have hopen := hallowed.resolve_left (by simp [SaleEvent.isTerminal])
    simp [SaleEvent.tender?, SaleEvent.isAbandonment, hopen]

/-- What a stream leaves: all the tenders recorded, and a ticket given up if the stream ends so. -/
theorem replay_paid (h : replay events = .ok sale) :
    sale.tenders = events.filterMap (·.tender?) ∧
      (sale.status = .abandoned ↔ ∃ last ∈ events.getLast?, last.isAbandonment) := by
  match events with
  | [] => cases h
  | first :: rest =>
    obtain ⟨fresh, hfresh, hrest⟩ := Except.bind_eq_ok.mp h
    obtain ⟨htenders, hopen⟩ := opened_eq_ok hfresh
    have hopening : first.tender? = none ∧ first.isAbandonment = false := by
      have hfirst := (opened_id hfresh).1
      cases first with
      | «opened» => exact ⟨rfl, rfl⟩
      | _ => cases hfirst
    refine foldlM_invariant (fun seen (s : Sale) =>
      s.tenders = (first :: seen).filterMap (·.tender?) ∧
        (s.status = .abandoned ↔ ∃ last ∈ (first :: seen).getLast?, last.isAbandonment))
      (fun seen s event s' hseen hstep => ?_) ?_ hrest
    · obtain ⟨hpaid, hgiven⟩ := apply_paid hstep
      rw [← List.cons_append, List.filterMap_append, List.getLast?_concat, hpaid, hgiven, hseen.1]
      constructor
      · cases htender : event.tender? <;> simp [htender]
      · simp
    · simp [htenders, hopen, hopening.1, hopening.2]

/-- Nothing follows in a stream once the ticket is given up. -/
theorem replay_abandonment_last {before after : List SaleEvent} {event : SaleEvent}
    (h : replay (before ++ event :: after) = .ok sale) (hgiven : event.isAbandonment) :
    after = [] := by
  cases before with
  | nil =>
    obtain ⟨fresh, hfresh, -⟩ := Except.bind_eq_ok.mp h
    have hfirst := (opened_id hfresh).1
    cases event with
    | «opened» => cases hgiven
    | _ => cases hfirst
  | cons first rest =>
    obtain ⟨fresh, hfresh, hrest⟩ := Except.bind_eq_ok.mp h
    obtain ⟨held, hheld, hlast⟩ := foldlM_append_eq_ok.mp hrest
    obtain ⟨dropped, hdropped, hafter⟩ := foldlM_cons_eq_ok.mp hlast
    have hstatus : dropped.status = .abandoned := (apply_paid hdropped).2.mpr hgiven
    cases after with
    | nil => rfl
    | cons next after =>
      -- the next event would be refused
      obtain ⟨_, hnext, -⟩ := foldlM_cons_eq_ok.mp hafter
      obtain ⟨error, hrefused⟩ := apply_of_not_open (by rw [hstatus]; decide) next
      rw [hrefused] at hnext
      cases hnext

/-- A ticket that was given up was paid nothing exactly when no tender was recorded before. -/
theorem replay_abandoned_unpaid_iff (h : replay events = .ok sale)
    (hstatus : sale.status = .abandoned) :
    ∃ before event, events = before ++ [event] ∧ event.isAbandonment ∧
      (sale.tenders = [] ↔ before.filterMap (·.tender?) = []) := by
  obtain ⟨hpaid, hgiven⟩ := replay_paid h
  obtain ⟨event, hlast, hevent⟩ := hgiven.mp hstatus
  obtain ⟨before, rfl⟩ := List.getLast?_eq_some_iff.mp hlast
  refine ⟨before, event, rfl, hevent, ?_⟩
  rw [hpaid, List.filterMap_append]
  simp [SaleEvent.tender?_of_isAbandonment hevent]

end Sale

/-! ## Section 2: The payments of a book -/

namespace SaleBook

variable {events : List SaleEvent} {book : SaleBook}

/-- A ticket given up was paid nothing, and every payment is on a sale that is open or completed. -/
structure PaymentsStand (events : List SaleEvent) (book : SaleBook) : Prop where
  abandoned : ∀ (saleId : Uuid) (sale : Sale), book.sales[saleId]? = some sale →
    sale.status = .abandoned → sale.tenders = []
  recorded : ∀ event ∈ events, ∀ tender ∈ event.tender?,
    ∃ sale, book.sales[event.saleId]? = some sale ∧ tender ∈ sale.tenders ∧
      (sale.status = .open ∨ sale.status = .completed)

/-- No ticket is given up after a tender was recorded on it. -/
def GivenUpUnpaid (events : List SaleEvent) : Prop :=
  ∀ before event after, events = before ++ event :: after → event.isAbandonment →
    (history event.saleId before).filterMap (·.tender?) = []

/-- The sale an event of a stream that replays is about, with the history it replays from. -/
theorem replay_entry (h : replay events = .ok book) {event : SaleEvent} (hevent : event ∈ events) :
    ∃ sale, book.sales[event.saleId]? = some sale ∧
      Sale.replay (history event.saleId events) = .ok sale := by
  have hmem : event ∈ history event.saleId events := List.mem_filter.mpr ⟨hevent, by simp⟩
  have hreplays := (replay_isOkay_iff events).mp (Except.isOkay_iff.mpr ⟨book, h⟩) event.saleId
  rcases hreplays with hnil | hokay
  · rw [hnil] at hmem
    cases hmem
  · obtain ⟨sale, hsale⟩ := Except.isOkay_iff.mp hokay
    exact ⟨sale, (replay_get h event.saleId sale).mpr hsale, hsale⟩

theorem history_split {saleId : Uuid} {before : List SaleEvent} {event : SaleEvent}
    (h : history saleId events = before ++ [event]) :
    ∃ earlier later, events = earlier ++ event :: later ∧ event.saleId = saleId ∧
      history saleId earlier = before := by
  obtain ⟨front, back, rfl, hfront, hback⟩ := List.filter_eq_append_iff.mp h
  obtain ⟨skipped, later, rfl, hskipped, hid, -⟩ := List.filter_eq_cons_iff.mp hback
  refine ⟨front ++ skipped, later, by simp, by simpa using hid, ?_⟩
  unfold history
  rw [List.filter_append, hfront, List.filter_eq_nil_iff.mpr hskipped, List.append_nil]

/-- **Payments stand** with a sale that is open or completed, in every stream that replays,
    exactly where no ticket is given up after money was taken on it. -/
theorem paymentsStand_iff (h : replay events = .ok book) :
    PaymentsStand events book ↔ GivenUpUnpaid events := by
  constructor
  · -- what was paid before the abandonment is the sale's payments: nothing follows an abandonment
    intro hstand before event after hsplit hgiven
    have hevent : event ∈ events := by simp [hsplit]
    obtain ⟨sale, hsale, hreplay⟩ := replay_entry h hevent
    have hhistory : history event.saleId events =
        history event.saleId before ++ event :: history event.saleId after := by
      simp [hsplit, history]
    rw [hhistory] at hreplay
    have hlast := Sale.replay_abandonment_last hreplay hgiven
    rw [hlast] at hreplay
    obtain ⟨hpaid, habandoned⟩ := Sale.replay_paid hreplay
    have hnone := hstand.abandoned _ _ hsale (habandoned.mpr ⟨event, by simp, hgiven⟩)
    rw [hpaid, List.filterMap_append, List.append_eq_nil_iff] at hnone
    exact hnone.1
  · intro hunpaid
    have habandoned : ∀ (saleId : Uuid) (sale : Sale), book.sales[saleId]? = some sale →
        sale.status = .abandoned → sale.tenders = [] := by
      intro saleId sale hsale hstatus
      obtain ⟨before, event, hhistory, hgiven, hiff⟩ :=
        Sale.replay_abandoned_unpaid_iff ((replay_get h saleId sale).mp hsale) hstatus
      obtain ⟨earlier, later, hsplit, hid, hbefore⟩ := history_split hhistory
      rw [hiff, ← hbefore, ← hid]
      exact hunpaid earlier event later hsplit hgiven
    refine ⟨habandoned, fun event hevent tender htender => ?_⟩
    obtain ⟨sale, hsale, hreplay⟩ := replay_entry h hevent
    have hmem : tender ∈ sale.tenders := by
      rw [(Sale.replay_paid hreplay).1]
      exact List.mem_filterMap.mpr ⟨event, List.mem_filter.mpr ⟨hevent, by simp⟩, htender⟩
    refine ⟨sale, hsale, hmem, ?_⟩
    -- only an abandoned sale could lose the tender, and it has none
    cases hstatus : sale.status with
    | «open» => exact .inl rfl
    | completed => exact .inr rfl
    | abandoned =>
      rw [habandoned _ _ hsale hstatus] at hmem
      cases hmem

/-! ### A walkout that had paid something -/

/-- Half of a ticket is paid in cash, then the ticket is given up. -/
def halfPaid : List SaleEvent :=
  [.opened 1 9 .bdt .taxInclusive .halfUp,
   .lineAdded 1 10 100 "rice" ⟨I64.lit 100, .bdt⟩ Quantity.one .exempt [],
   .tenderRecorded 1 20 .cash ⟨I64.lit 50, .bdt⟩ none,
   .abandoned 1 9]

theorem paymentsStand_iff_halfPaid :
    PaymentsStand halfPaid (gather halfPaid) ↔ GivenUpUnpaid halfPaid :=
  have hreplay : replay halfPaid = .ok (gather halfPaid) := by rfl
  paymentsStand_iff hreplay

theorem halfPaid_lost :
    ¬ ∀ (events : List SaleEvent) (book : SaleBook), replay events = .ok book →
      PaymentsStand events book := by
  intro h
  have hreplay : replay halfPaid = .ok (gather halfPaid) := by rfl
  have hgiven := (h _ _ hreplay).abandoned 1 _ rfl rfl
  cases hgiven

end SaleBook

end Sahl
