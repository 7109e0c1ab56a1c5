import Mathlib.Tactic
import Sahl.Core.Sale

/-! # Change out of cash

    Only cash may exceed the total of a sale. The check on non-cash tenders runs when a tender is
    recorded, against the total of that moment; a sale completes on the total of a later moment.
    `replay_completed_cash_iff` says which completed sales gave change out of cash only. -/

namespace Sahl

/-! ## Section 1: What one event does -/

namespace Sale

/-- Which events `transition` answers with a completed sale, and which with a tender. -/
theorem transition_eq_ok {sale sale' : Sale} {event : SaleEvent}
    (h : sale.transition event = .ok sale') :
    (∃ saleId total changeGiven at', event = .completed saleId total changeGiven at' ∧
        sale.complete total changeGiven at' = .ok sale') ∨
      (∃ saleId tenderId method amount reference,
        event = .tenderRecorded saleId tenderId method amount reference ∧
        0 < amount.minor.val ∧
        sale' = { sale with tenders := sale.tenders ++ [⟨tenderId, method, amount, reference⟩] }) ∨
      (sale'.tenders = sale.tenders ∧
        (event.isTerminal = false ∧ sale'.status = sale.status ∨ sale'.status = .abandoned)) := by
  cases transition_moved h with
  | completed hcomplete => exact .inl ⟨_, _, _, _, rfl, hcomplete⟩
  | tenderRecorded hpositive =>
    exact .inr (.inl ⟨_, _, _, _, _, rfl, by simpa [Money.isPositive] using hpositive, rfl⟩)
  | abandoned => exact .inr (.inr ⟨rfl, .inr rfl⟩)
  | lineAdded | lineQuantityChanged | lineDiscounted | lineVoided | orderDiscounted
  | ticketClaimed | ticketReleased | releaseIgnored | seated | linesFired =>
    exact .inr (.inr ⟨rfl, .inl ⟨rfl, rfl⟩⟩)

/-- An accepted event is a transition; an accepted tender also passed the non-cash check. -/
theorem apply_eq_ok {sale sale' : Sale} {event : SaleEvent}
    (h : (sale.apply event).toExcept = .ok sale') :
    event.saleId = sale.id ∧ sale.transition event = .ok sale' ∧
      (event.isTerminal ∨ sale.status = .open) := by
  unfold apply at h
  split at h
  · cases h
  rename_i hid
  split at h
  · cases h
  rename_i hstatus
  refine ⟨not_not.mp hid, ?_, by
    by_contra hcon
    push Not at hcon
    exact hstatus ⟨by simpa using hcon.1, hcon.2⟩⟩
  split at h
  · rename_i pushed htransition
    rw [htransition]
    exact congrArg _ (Outcome.toExcept_eq_ok.mp h).2
  · simpa using h

/-! ## Section 2: What a run keeps -/

/-- Every tender on the sale is a positive amount. -/
def TendersPositive (sale : Sale) : Prop := ∀ t ∈ sale.tenders, 0 < t.amount.minor.val

theorem complete_eq_ok {sale sale' : Sale} {total changeGiven : Money} {at' : Timestamp}
    (h : sale.complete total changeGiven at' = .ok sale') :
    sale.status = .open ∧ (∃ totals, sale.totals = .ok totals ∧ totals.total = total) ∧
      (∃ balance, sale.balanceDue = .ok balance ∧ balance.minor.val ≤ 0) ∧
      sale.changeDue = .ok changeGiven ∧
      sale' = { sale with settledTotal := some total, changeGiven := some changeGiven,
                          settledAt := some at', status := .completed } := by
  simp only [complete] at h
  split at h
  · cases h
  rename_i hopen
  simp only [Except.bind_eq_ok] at h
  obtain ⟨totals, htotals, h⟩ := h
  split at h
  · cases h
  rename_i htotal
  simp only [Except.bind_eq_ok] at h
  obtain ⟨outstanding, houtstanding, h⟩ := h
  split at h
  · cases h
  rename_i hcovered
  simp only [Except.bind_eq_ok] at h
  obtain ⟨change, hchange, h⟩ := h
  split at h
  · cases h
  rename_i hsame
  cases h
  -- the change recorded is the change worked out
  obtain rfl : change = changeGiven := not_not.mp hsame
  refine ⟨not_not.mp hopen, ⟨totals, htotals, not_not.mp htotal⟩,
    ⟨outstanding, houtstanding, ?_⟩, hchange, rfl⟩
  simpa [Money.isPositive] using hcovered

theorem apply_tendersPositive {sale sale' : Sale} {event : SaleEvent}
    (hpos : sale.TendersPositive) (h : (sale.apply event).toExcept = .ok sale') :
    sale'.TendersPositive := by
  obtain ⟨_, htransition, _⟩ := apply_eq_ok h
  rcases transition_eq_ok htransition with
    ⟨_, _, _, _, _, hcomplete⟩ | ⟨_, _, _, amount, _, _, hamount, rfl⟩ | ⟨htenders, _⟩
  · rw [(complete_eq_ok hcomplete).2.2.2.2]
    exact hpos
  · intro t ht
    rcases List.mem_append.mp ht with ht | ht
    · exact hpos t ht
    · rw [List.mem_singleton.mp ht]
      exact hamount
  · intro t ht
    exact hpos t (htenders ▸ ht)

theorem opened_eq_ok {event : SaleEvent} {sale : Sale} (h : opened event = .ok sale) :
    sale.tenders = [] ∧ sale.status = .open := by
  cases event <;> cases h
  exact ⟨rfl, rfl⟩

theorem replay_tendersPositive {events : List SaleEvent} {sale : Sale}
    (h : replay events = .ok sale) : sale.TendersPositive := by
  match events with
  | [] => cases h
  | first :: rest =>
    simp only [replay, Except.bind_eq_ok] at h
    obtain ⟨fresh, hfresh, h⟩ := h
    refine foldlM_invariant (fun _ s => s.TendersPositive)
      (fun _ _ _ _ hpos hstep => apply_tendersPositive hpos hstep) ?_ h
    intro t ht
    rw [(opened_eq_ok hfresh).1] at ht
    cases ht

/-- A sale ends up completed by its last event only. -/
theorem replay_completed {events : List SaleEvent} {sale : Sale} (h : replay events = .ok sale)
    (hstatus : sale.status = .completed) :
    ∃ before saleId total changeGiven at',
      events = events.dropLast ++ [.completed saleId total changeGiven at'] ∧
      replay events.dropLast = .ok before ∧
      before.complete total changeGiven at' = .ok sale := by
  match events with
  | [] => cases h
  | first :: rest =>
    simp only [replay, Except.bind_eq_ok] at h
    obtain ⟨fresh, hfresh, h⟩ := h
    -- a sale just opened is not completed, so there is a last event after it
    rcases List.eq_nil_or_concat rest with rfl | ⟨init, last, rfl⟩
    · cases h
      rw [(opened_eq_ok hfresh).2] at hstatus
      cases hstatus
    · rw [List.concat_eq_append] at h ⊢
      obtain ⟨before, hbefore, hlast⟩ := foldlM_append_eq_ok.mp h
      obtain ⟨sale₁, hlast, hnil⟩ := foldlM_cons_eq_ok.mp hlast
      cases hnil
      have hdrop : (first :: (init ++ [last])).dropLast = first :: init := by
        rw [← List.cons_append, List.dropLast_concat]
      obtain ⟨_, htransition, hopen⟩ := apply_eq_ok hlast
      -- only a completion leaves a sale completed
      rcases transition_eq_ok htransition with
        ⟨saleId, total, changeGiven, at', rfl, hcomplete⟩ | ⟨_, _, _, _, _, rfl, _, rfl⟩ |
          ⟨_, ⟨hterminal, hsame⟩ | habandoned⟩
      · refine ⟨before, saleId, total, changeGiven, at', by rw [hdrop]; rfl, ?_, hcomplete⟩
        rw [hdrop, replay, Except.bind_eq_ok]
        exact ⟨fresh, hfresh, hbefore⟩
      · rcases hopen with hterminal | hopen
        · cases hterminal
        · rw [hopen] at hstatus
          cases hstatus
      · rw [hterminal] at hopen
        rw [hsame, hopen.resolve_left (by simp)] at hstatus
        cases hstatus
      · rw [habandoned] at hstatus
        cases hstatus

/-! ## Section 3: Completed sales -/

/-- What was charged other than in cash is within the settled total, so the change is within
    the cash tendered and the drawer is not short. -/
def ChangeOutOfCash (sale : Sale) : Prop :=
  ∃ total change nonCash cash net,
    sale.settledTotal = some total ∧ sale.changeGiven = some change ∧
    Money.trySum sale.nonCashAmounts sale.currency = .ok nonCash ∧
    Money.trySum sale.cashAmounts sale.currency = .ok cash ∧
    sale.netCash = .ok net ∧
    nonCash.minor ≤ total.minor ∧ change.minor ≤ cash.minor ∧ 0 ≤ net.minor

theorem changeDue_eq_ok {sale : Sale} {change : Money} (h : sale.changeDue = .ok change) :
    ∃ totals tendered, sale.totals = .ok totals ∧ sale.tendered = .ok tendered ∧
      totals.total.currency = tendered.currency ∧
      change.currency = sale.currency ∧
      change.minor.val = max 0 (tendered.minor.val - totals.total.minor.val) := by
  simp only [changeDue, balanceDue, Except.bind_eq_ok, Except.mapError_eq_ok] at h
  obtain ⟨balance, ⟨totals, htotals, tendered, htendered, hsub⟩, h⟩ := h
  obtain ⟨hcur, hbalanceCur, hminor⟩ := Money.checkedSub_eq_ok.mp hsub
  refine ⟨totals, tendered, htotals, htendered, hcur, ?_⟩
  have htenderedCur : tendered.currency = sale.currency := by
    simp only [Sale.tendered, Except.mapError_eq_ok] at htendered
    exact (Money.trySum_isSum htendered).1
  -- a balance below zero is given back, any other leaves no change
  split at h
  · rename_i hneg
    simp only [Except.mapError_eq_ok, Money.checkedNeg, Except.bind_eq_ok, Except.okOr_eq_ok,
      SInt.checkedNeg_eq_some] at h
    obtain ⟨minor, hneg', h⟩ := h
    cases h
    simp only [Money.isNegative, decide_eq_true_eq] at hneg
    refine ⟨by simp_all, ?_⟩
    simp only
    omega
  · rename_i hneg
    cases h
    simp only [Money.isNegative, decide_eq_true_eq] at hneg
    refine ⟨rfl, ?_⟩
    simp only [Money.zero, SInt.val_zero]
    omega

/-- The tenders split into cash and the rest. -/
theorem tendered_split {sale : Sale} {tendered : Money} (hpos : sale.TendersPositive)
    (h : sale.tendered = .ok tendered) :
    ∃ nonCash cash, Money.trySum sale.nonCashAmounts sale.currency = .ok nonCash ∧
      Money.trySum sale.cashAmounts sale.currency = .ok cash ∧
      cash.currency = sale.currency ∧ 0 ≤ cash.minor.val ∧
      cash.minor.val + nonCash.minor.val = tendered.minor.val := by
  simp only [Sale.tendered, Except.mapError_eq_ok] at h
  obtain ⟨hcur, hsum⟩ := Money.trySum_isSum h
  obtain ⟨hcurs, hminor⟩ := Money.isSum_map.mp hsum
  -- a part of positive amounts sums where they all do
  have hpart : ∀ p : Tender → Bool, ∃ part,
      Money.trySum ((sale.tenders.filter p).map (·.amount)) sale.currency = .ok part := by
    intro p
    have hmem : ∀ a ∈ (sale.tenders.filter p).map (·.amount),
        a.currency = sale.currency ∧ 0 ≤ a.minor.val := by
      intro a ha
      obtain ⟨t, ht, rfl⟩ := List.mem_map.mp ha
      have ht := List.mem_of_mem_filter ht
      exact ⟨(hcurs t ht).trans hcur, (hpos t ht).le⟩
    refine Money.trySum_isOkay (fun a ha => (hmem a ha).1) (fun a ha => (hmem a ha).2) ?_
    have hle := sum_filter_le p (f := fun t : Tender => t.amount.minor.val)
      (fun t ht => (hpos t ht).le)
    have hfits := tendered.minor.hi'
    rw [hminor] at hfits
    rw [List.map_map]
    exact lt_of_le_of_lt hle hfits
  obtain ⟨nonCash, hnonCash⟩ := hpart (! ·.method.acceptsOvertender)
  obtain ⟨cash, hcash⟩ := hpart (·.method.affectsCashDrawer)
  obtain ⟨_, hnonCashSum⟩ := Money.trySum_isSum hnonCash
  obtain ⟨hcashCur, hcashSum⟩ := Money.trySum_isSum hcash
  have hnonCashMinor := (Money.isSum_map.mp hnonCashSum).2
  have hcashMinor := (Money.isSum_map.mp hcashSum).2
  refine ⟨nonCash, cash, hnonCash, hcash, hcashCur, ?_, ?_⟩
  · rw [hcashMinor]
    refine List.sum_nonneg fun y hy => ?_
    obtain ⟨t, ht, rfl⟩ := List.mem_map.mp hy
    exact (hpos t (List.mem_of_mem_filter ht)).le
  · rw [hcashMinor, hnonCashMinor, hminor]
    exact sum_filter_add_not (·.method.affectsCashDrawer) (fun t => t.amount.minor.val)
      sale.tenders

/-- The non-cash check, on a sale that has a total. -/
theorem assertNonCashWithinTotal_eq_ok {sale : Sale} {totals : OrderTotals} {nonCash : Money}
    (htotals : sale.totals = .ok totals)
    (hnonCash : Money.trySum sale.nonCashAmounts sale.currency = .ok nonCash) :
    sale.assertNonCashWithinTotal = .ok () ↔ nonCash.minor ≤ totals.total.minor := by
  simp only [assertNonCashWithinTotal, htotals, hnonCash, Except.mapError, Except.bind_eq_ok]
  constructor
  · rintro ⟨_, heq, h⟩
    cases heq
    split at h
    · cases h
    · rename_i hle
      exact not_lt.mp hle
  · intro hle
    exact ⟨nonCash, rfl, by rw [if_neg (not_lt.mpr hle)]⟩

/-- A completed sale with a total that is not negative gave change out of cash only when the
    non-cash check passes on the sale its closing event found. -/
theorem changeOutOfCash_iff {events : List SaleEvent} {sale : Sale} {total : Money}
    (h : replay events = .ok sale) (hstatus : sale.status = .completed)
    (hsettled : sale.settledTotal = some total) (hnonneg : 0 ≤ total.minor) :
    sale.ChangeOutOfCash ↔ ∃ before, replay events.dropLast = .ok before ∧
      before.assertNonCashWithinTotal = .ok () := by
  obtain ⟨before, _, total', change, at', _, hbefore, hcomplete⟩ := replay_completed h hstatus
  obtain ⟨_, ⟨totals, htotals, rfl⟩, _, hchange, rfl⟩ := complete_eq_ok hcomplete
  cases hsettled
  obtain ⟨totals', tendered, htotals', htendered, _, hchangeCur, hchangeMinor⟩ :=
    changeDue_eq_ok hchange
  obtain rfl : totals = totals' := Except.ok.inj (htotals.symm.trans htotals')
  obtain ⟨nonCash, cash, hnonCash, hcash, hcashCur, hcashPos, hsplit⟩ :=
    tendered_split (replay_tendersPositive hbefore) htendered
  have hcheck := assertNonCashWithinTotal_eq_ok htotals hnonCash
  rw [SInt.le_def, SInt.val_zero] at hnonneg
  constructor
  · rintro ⟨_, _, nonCash', _, _, heq, _, hnonCash', _, _, hle, _⟩
    cases heq
    obtain rfl : nonCash = nonCash' := Except.ok.inj (hnonCash.symm.trans hnonCash')
    exact ⟨before, hbefore, hcheck.mpr hle⟩
  · rintro ⟨before', hbefore', hpass⟩
    obtain rfl : before = before' := Except.ok.inj (hbefore.symm.trans hbefore')
    have hle := hcheck.mp hpass
    rw [SInt.le_def] at hle
    -- what is not cash covers no more than the total, so the change is within the cash
    have hchangeLe : change.minor.val ≤ cash.minor.val := by omega
    have hchi := cash.minor.hi'
    let net : Money := ⟨I64.lit (cash.minor.val - change.minor.val) (decide_eq_true (by omega)), cash.currency⟩
    refine ⟨totals.total, change, nonCash, cash, net, rfl, rfl, hnonCash, hcash, ?_, ?_,
      hchangeLe, ?_⟩
    · simp only [netCash, Except.bind_eq_ok, Except.mapError_eq_ok, Option.getD_some]
      exact ⟨cash, hcash, Money.checkedSub_eq_ok.mpr
        ⟨hcashCur.trans hchangeCur.symm, rfl, rfl⟩⟩
    · exact SInt.le_def.mpr hle
    · rw [SInt.le_def]
      simp only [SInt.val_zero, net, I64.lit_val]
      omega

/-! ## Section 4: Where the check stays passed -/

end Sale

/-- The events that change what a sale comes to. -/
def SaleEvent.reprices : SaleEvent → Bool
  | lineAdded .. | lineQuantityChanged .. | lineDiscounted .. | lineVoided ..
  | orderDiscounted .. => true
  | _ => false

/-- The events that take payment. -/
def SaleEvent.isTender : SaleEvent → Bool
  | tenderRecorded .. => true
  | _ => false

namespace Sale

theorem apply_tender_checked {sale sale' : Sale} {event : SaleEvent}
    (h : (sale.apply event).toExcept = .ok sale')
    (htender : sale'.tenders ≠ sale.tenders) : sale'.assertNonCashWithinTotal = .ok () := by
  obtain ⟨hid, htransition, hopen⟩ := apply_eq_ok h
  rcases transition_eq_ok htransition with
    ⟨_, _, _, _, _, hcomplete⟩ | ⟨_, _, _, _, _, rfl, _, rfl⟩ | ⟨hsame, _⟩
  · rw [(complete_eq_ok hcomplete).2.2.2.2] at htender
    exact absurd rfl htender
  · unfold apply at h
    have hopen : sale.status = .open := hopen.resolve_left (by simp [SaleEvent.isTerminal])
    rw [if_neg (not_not.mpr hid), if_neg (fun hcon => hcon.2 hopen), htransition] at h
    exact (Outcome.toExcept_eq_ok.mp h).1
  · exact absurd hsame htender

theorem transition_totals {sale sale' : Sale} {event : SaleEvent} (hquiet : event.reprices = false)
    (h : sale.transition event = .ok sale') :
    sale'.totals = sale.totals ∧ sale'.currency = sale.currency := by
  cases transition_moved h with
  | lineAdded | lineQuantityChanged | lineDiscounted | lineVoided | orderDiscounted =>
    cases hquiet
  | completed hcomplete =>
    rw [(complete_eq_ok hcomplete).2.2.2.2]
    exact ⟨rfl, rfl⟩
  | tenderRecorded | ticketClaimed | ticketReleased | releaseIgnored | seated | linesFired
  | abandoned => exact ⟨rfl, rfl⟩

/-- An event that reprices nothing keeps the non-cash check passed. -/
theorem apply_check_kept {sale sale' : Sale} {event : SaleEvent} (hquiet : event.reprices = false)
    (hcheck : sale.assertNonCashWithinTotal = .ok ())
    (h : (sale.apply event).toExcept = .ok sale') : sale'.assertNonCashWithinTotal = .ok () := by
  by_cases htender : sale'.tenders = sale.tenders
  · obtain ⟨htotals, hcur⟩ := transition_totals hquiet (apply_eq_ok h).2.1
    rw [← hcheck]
    simp only [assertNonCashWithinTotal, nonCashAmounts, htotals, hcur, htender]
  · exact apply_tender_checked h htender

/-- From a sale that passes the check, events that reprice nothing lead to sales that do: only a
    line or a discount touched after a tender can bring a total under what was charged. -/
theorem foldlM_check_kept {sale sale' : Sale} {events : List SaleEvent}
    (hquiet : ∀ event ∈ events, event.reprices = false)
    (hcheck : sale.assertNonCashWithinTotal = .ok ())
    (h : events.foldlM (fun sale event => (sale.apply event).toExcept) sale = .ok sale') :
    sale'.assertNonCashWithinTotal = .ok () := by
  induction events generalizing sale with
  | nil =>
    cases h
    exact hcheck
  | cons event rest ih =>
    obtain ⟨next, hnext, hrest⟩ := foldlM_cons_eq_ok.mp h
    exact ih (fun e he => hquiet e (List.mem_cons_of_mem _ he))
      (apply_check_kept (hquiet event List.mem_cons_self) hcheck hnext) hrest

/-- A stream that replays is replayed up to any point after its first event, and from there. -/
theorem replay_append {earlier later : List SaleEvent} {sale : Sale} (hne : earlier ≠ [])
    (h : replay (earlier ++ later) = .ok sale) : ∃ mid, replay earlier = .ok mid ∧
      later.foldlM (fun sale event => (sale.apply event).toExcept) mid = .ok sale := by
  obtain ⟨first, rest, rfl⟩ := List.exists_cons_of_ne_nil hne
  obtain ⟨start, hstart, h⟩ := Except.bind_eq_ok.mp h
  obtain ⟨mid, hrest, hlater⟩ := foldlM_append_eq_ok.mp h
  exact ⟨mid, Except.bind_eq_ok.mpr ⟨start, hstart, hrest⟩, hlater⟩

/-- The sale that a tender leaves passes the check. -/
theorem apply_isTender_checked {sale sale' : Sale} {event : SaleEvent}
    (htender : event.isTender = true) (h : (sale.apply event).toExcept = .ok sale') :
    sale'.assertNonCashWithinTotal = .ok () := by
  refine apply_tender_checked h fun hsame => ?_
  cases event with
  | tenderRecorded saleId tenderId method amount reference =>
    cases transition_moved (apply_eq_ok h).2.1 with
    | tenderRecorded => exact List.cons_ne_nil _ _ (List.append_right_eq_self.mp hsame)
  | _ => cases htender

/-- Where nothing is repriced after a tender, the check passes to the end. -/
theorem replay_check_kept {earlier later : List SaleEvent} {tender : SaleEvent} {sale : Sale}
    (htender : tender.isTender = true) (hquiet : ∀ event ∈ later, event.reprices = false)
    (h : replay (earlier ++ tender :: later) = .ok sale) :
    sale.assertNonCashWithinTotal = .ok () := by
  have hne : earlier ≠ [] := by
    rintro rfl
    -- a stream does not open with a tender
    obtain ⟨start, hstart, -⟩ := Except.bind_eq_ok.mp h
    cases tender with
    | tenderRecorded => cases hstart
    | _ => cases htender
  obtain ⟨mid, -, hlater⟩ := replay_append hne h
  obtain ⟨paid, hpaid, hrest⟩ := foldlM_cons_eq_ok.mp hlater
  exact foldlM_check_kept hquiet (apply_isTender_checked htender hpaid) hrest

/-- **Change out of cash, exactly**: a completed sale with a total that is not negative gave
    change out of cash only when the non-cash check passes on the sale its closing event found; it
    does where no line and no discount is touched after a tender. -/
theorem replay_completed_cash_iff {events : List SaleEvent} {sale : Sale} {total : Money}
    (h : replay events = .ok sale) (hstatus : sale.status = .completed)
    (hsettled : sale.settledTotal = some total) (hnonneg : 0 ≤ total.minor) :
    (sale.ChangeOutOfCash ↔ ∃ before, replay events.dropLast = .ok before ∧
      before.assertNonCashWithinTotal = .ok ()) ∧
    ((∃ earlier tender later, events = earlier ++ tender :: later ∧ tender.isTender = true ∧
      ∀ event ∈ later, event.reprices = false) → sale.ChangeOutOfCash) := by
  have hiff := changeOutOfCash_iff h hstatus hsettled hnonneg
  refine ⟨hiff, ?_⟩
  rintro ⟨earlier, tender, later, rfl, htender, hquiet⟩
  obtain ⟨before, _, _, _, _, hclosed, hbefore, -⟩ := replay_completed h hstatus
  -- the closing event is no tender, so it comes after this one
  have hlater : later ≠ [] := by
    rintro rfl
    have hlast := congrArg List.getLast? hclosed
    rw [List.getLast?_concat, List.getLast?_concat] at hlast
    rw [Option.some.inj hlast] at htender
    cases htender
  refine hiff.mpr ⟨before, hbefore, ?_⟩
  rw [List.dropLast_append_of_ne_nil (List.cons_ne_nil _ _),
    List.dropLast_cons_of_ne_nil hlater] at hbefore
  exact replay_check_kept htender
    (fun event hevent => hquiet event (List.mem_of_mem_dropLast hevent)) hbefore

/-! ## Section 5: A ticket of two lines -/

/-- A ticket opened by user 9 with lines of 100 and 50, then `rest`. -/
def twoLineTicket (rest : List SaleEvent) : List SaleEvent :=
  .opened 1 9 .bdt .taxInclusive .halfUp ::
  .lineAdded 1 10 100 "rice" ⟨I64.lit 100, .bdt⟩ Quantity.one .exempt [] ::
  .lineAdded 1 11 101 "salt" ⟨I64.lit 50, .bdt⟩ Quantity.one .exempt [] :: rest

/-- Paid in full by card, with nothing touched afterwards. -/
def paidByCard : List SaleEvent :=
  twoLineTicket
    [.tenderRecorded 1 20 .card ⟨I64.lit 150, .bdt⟩ none,
     .completed 1 ⟨I64.lit 150, .bdt⟩ ⟨I64.lit 0, .bdt⟩ .epoch]

/-- Paid in full by card, then a line is voided: the sale closes with 50 of change. -/
def voidedAfterCard : List SaleEvent :=
  twoLineTicket
    [.tenderRecorded 1 20 .card ⟨I64.lit 150, .bdt⟩ none,
     .lineVoided 1 11 .mistake 9,
     .completed 1 ⟨I64.lit 100, .bdt⟩ ⟨I64.lit 50, .bdt⟩ .epoch]

/-- What `events` replay to, or a blank sale. -/
def replayed (events : List SaleEvent) : Sale :=
  match replay events with
  | .ok sale => sale
  | .error _ => ⟨0, .open, 0, .bdt, .taxInclusive, .halfUp, [], .none, [], none, none, none, none,
      none, [], 0⟩

theorem replay_completed_cash_iff_paidByCard : (replayed paidByCard).ChangeOutOfCash := by
  have hreplay : replay paidByCard = .ok (replayed paidByCard) := by decide
  have hsettled : (replayed paidByCard).settledTotal = some ⟨I64.lit 150, .bdt⟩ := by decide
  refine (replay_completed_cash_iff hreplay (by decide) hsettled (by decide)).2 ?_
  exact ⟨twoLineTicket [], .tenderRecorded 1 20 .card ⟨I64.lit 150, .bdt⟩ none,
    [.completed 1 ⟨I64.lit 150, .bdt⟩ ⟨I64.lit 0, .bdt⟩ .epoch], rfl, rfl, by decide⟩

theorem voidedAfterCard_change_out_of_card :
    ¬ ∀ (events : List SaleEvent) (sale : Sale) (total : Money),
      replay events = .ok sale → sale.status = .completed → sale.settledTotal = some total →
      0 ≤ total.minor → sale.ChangeOutOfCash := by
  intro h
  obtain ⟨total, _, nonCash, _, _, htotal, _, hnonCash, _, _, hle, _⟩ :=
    h voidedAfterCard (replayed voidedAfterCard) ⟨I64.lit 100, .bdt⟩ (by decide) (by decide)
      (by decide) (by decide)
  have htotal' : (replayed voidedAfterCard).settledTotal = some ⟨I64.lit 100, .bdt⟩ := by decide
  have hnonCash' : Money.trySum (replayed voidedAfterCard).nonCashAmounts
      (replayed voidedAfterCard).currency = .ok ⟨I64.lit 150, .bdt⟩ := by decide
  cases htotal'.symm.trans htotal
  cases hnonCash'.symm.trans hnonCash
  exact absurd hle (by decide)

end Sale

end Sahl
