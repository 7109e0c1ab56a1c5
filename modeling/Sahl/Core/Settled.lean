import Mathlib.Tactic
import Sahl.Core.SaleCash

/-! # A settled sale is frozen

    Completing a sale records figures that are recomputed from its lines, discounts and tenders.
    Afterwards nothing is taken: every event is refused and leaves the sale as it was
    (`replay_completed_settled`). -/

namespace Sahl

namespace Sale

/-- What is recorded of a completed sale is what its lines and tenders come to. -/
structure Settled (sale : Sale) (totals : OrderTotals) (tendered change : Money)
    (at' : Timestamp) : Prop where
  totals_ok : sale.totals = .ok totals
  settledTotal : sale.settledTotal = some totals.total
  tendered_ok : sale.tendered = .ok tendered
  changeGiven : sale.changeGiven = some change
  covered : totals.total.checkedAdd change = .ok tendered
  change_nonneg : 0 ≤ change.minor.val
  settledAt : sale.settledAt = some at'

theorem complete_settled {sale sale' : Sale} {total changeGiven : Money} {at' : Timestamp}
    (h : sale.complete total changeGiven at' = .ok sale') :
    ∃ totals tendered, sale'.Settled totals tendered changeGiven at' := by
  obtain ⟨-, ⟨totals, htotals, htotal⟩, ⟨balance, hbalance, hcovered⟩, hchange, hsale⟩ :=
    complete_eq_ok h
  subst htotal hsale
  obtain ⟨totals', tendered, htotals', htendered, hcurrency, hchangeCurrency, hminor⟩ :=
    changeDue_eq_ok hchange
  obtain rfl : totals = totals' := Except.ok.inj (htotals.symm.trans htotals')
  have htenderedCurrency : tendered.currency = sale.currency := by
    simp only [Sale.tendered, Except.mapError_eq_ok] at htendered
    exact (Money.trySum_isSum htendered).1
  -- what was handed over covers the total, so the change is the whole difference
  have hbalanceMinor : balance.minor.val = totals.total.minor.val - tendered.minor.val := by
    simp only [balanceDue, htotals, htendered, Except.bind_eq_ok, Except.mapError_eq_ok] at hbalance
    obtain ⟨_, hsame, _, hsame', hsub⟩ := hbalance
    cases hsame
    cases hsame'
    exact (Money.checkedSub_eq_ok.mp hsub).2.2
  refine ⟨totals, tendered, {
    totals_ok := htotals
    settledTotal := rfl
    tendered_ok := htendered
    changeGiven := rfl
    covered := Money.checkedAdd_eq_ok.mpr ⟨?_, ?_, ?_⟩
    change_nonneg := by omega
    settledAt := rfl }⟩
  · rw [hcurrency, htenderedCurrency, hchangeCurrency]
  · exact hcurrency.symm
  · omega

/-- A sale that is not open takes no event. -/
theorem apply_of_not_open {sale : Sale} (h : sale.status ≠ .open) (event : SaleEvent) :
    ∃ error, sale.apply event = .refused sale error := by
  by_cases hid : event.saleId = sale.id
  · cases hterminal : event.isTerminal with
    | false =>
      refine ⟨.notOpen sale.status.label, ?_⟩
      unfold apply
      rw [if_neg (by simpa using hid), if_pos ⟨by simp [hterminal], h⟩]
    | true =>
      refine ⟨.notOpen sale.status.label, ?_⟩
      unfold apply
      rw [if_neg (by simpa using hid), if_neg (by simp [hterminal])]
      cases event with
      | completed => simp only [transition, complete, if_pos h, Outcome.ofExcept]
      | abandoned => simp only [transition, if_pos h, Outcome.ofExcept]
      | _ => cases hterminal
  · refine ⟨.wrongSale sale.id event.saleId, ?_⟩
    unfold apply
    rw [if_pos hid]

/-- **A completed sale is consistent and frozen**: the figures recorded of it are the ones its
    lines and tenders come to, and every further event is refused and changes nothing. -/
theorem replay_completed_settled {events : List SaleEvent} {sale : Sale}
    (h : replay events = .ok sale) (hstatus : sale.status = .completed) :
    (∃ totals tendered change at', sale.Settled totals tendered change at') ∧
      ∀ event, ∃ error, sale.apply event = .refused sale error := by
  obtain ⟨before, _, total, change, at', -, -, hcomplete⟩ := replay_completed h hstatus
  obtain ⟨totals, tendered, hsettled⟩ := complete_settled hcomplete
  refine ⟨⟨totals, tendered, change, at', hsettled⟩, fun event => ?_⟩
  exact apply_of_not_open (by rw [hstatus]; decide) event

theorem replay_completed_settled_voidedAfterCard :
    (∃ totals tendered change at',
        (replayed voidedAfterCard).Settled totals tendered change at') ∧
      ∀ event, ∃ error, (replayed voidedAfterCard).apply event =
        .refused (replayed voidedAfterCard) error :=
  @replay_completed_settled voidedAfterCard _ (by decide) (by decide)

/-! ## Every sale a till holds -/

/-- What stands of a sale wherever it has got to. -/
structure Sound (sale : Sale) : Prop where
  tendersPositive : sale.TendersPositive
  settled : sale.status = .completed →
    ∃ totals tendered change at', sale.Settled totals tendered change at'
  /-- Nothing is recorded of a sale that has not been completed. -/
  unsettled : sale.status ≠ .completed → sale.settledTotal = none

/-- Only an open sale is moved by an event that `apply` lets through. -/
theorem Moved.status_open {sale sale' : Sale} {event : SaleEvent} (h : sale.Moved event sale')
    (hallowed : event.isTerminal ∨ sale.status = .open) : sale.status = .open := by
  rcases hallowed with hterminal | hopen
  · cases h with
    | completed hcomplete => exact (complete_eq_ok hcomplete).1
    | abandoned hopen => exact hopen
    | _ => cases hterminal
  · exact hopen

theorem Moved.sound {sale sale' : Sale} {event : SaleEvent} (h : sale.Moved event sale')
    (hopen : sale.status = .open) (hsound : sale.Sound) : sale'.Sound := by
  have hnone : sale.settledTotal = none := hsound.unsettled (by rw [hopen]; decide)
  have hnot : sale.status ≠ .completed := by
    rw [hopen]
    decide
  -- only a completion settles, and only a tender is added to what must be positive
  cases h with
  | completed hcomplete =>
    obtain ⟨totals, tendered, hsettled⟩ := complete_settled hcomplete
    have hsale := (complete_eq_ok hcomplete).2.2.2.2
    refine ⟨?_, fun _ => ⟨totals, tendered, _, _, hsettled⟩, fun hstatus => ?_⟩
    · rw [hsale]
      exact hsound.tendersPositive
    · rw [hsale] at hstatus
      exact absurd rfl hstatus
  | tenderRecorded hpositive =>
    refine ⟨?_, fun hstatus => absurd hstatus hnot, fun _ => hnone⟩
    intro t ht
    rcases List.mem_append.mp ht with ht | ht
    · exact hsound.tendersPositive t ht
    · rw [List.mem_singleton.mp ht]
      simpa [Money.isPositive] using hpositive
  | abandoned =>
    refine ⟨hsound.tendersPositive, fun hstatus => ?_, fun _ => hnone⟩
    cases hstatus
  | lineAdded | lineQuantityChanged | lineDiscounted | lineVoided | orderDiscounted
  | ticketClaimed | ticketReleased | releaseIgnored | seated | linesFired =>
    exact ⟨hsound.tendersPositive, fun hstatus => absurd hstatus hnot, fun _ => hnone⟩

theorem Reached.sound {sale : Sale} (h : sale.Reached) : sale.Sound := by
  induction h with
  | @opened event sale hopened =>
    cases event <;> cases hopened
    refine ⟨fun t ht => ?_, fun hstatus => ?_, fun _ => rfl⟩
    · cases ht
    · cases hstatus
  | @apply sale event _ ih =>
    rcases sale.apply_state event with hsame | ⟨-, hallowed, htransition⟩
    · rw [hsame]
      exact ih
    · have hmoved := transition_moved htransition
      exact hmoved.sound (hmoved.status_open hallowed) ih

end Sale

end Sahl
