import Mathlib.Tactic
import Sahl.Core.SaleCash

/-! # What a refused event leaves

    Whoever reads a stream of sale events passes over those that are refused, and keeps the sale.
    A refused event leaves it as it was, but for a tender that is put on the sale before it is
    checked (`refused_unchanged_iff`). -/

namespace Sahl

namespace Sale

variable {sale : Sale} {event : SaleEvent}

/-- A sale with one more tender. -/
def withTender (sale : Sale) (tender : Tender) : Sale :=
  { sale with tenders := sale.tenders ++ [tender] }

/-- The event is a tender that fails its last check: a positive amount on an open sale, with
    which the tenders other than cash do not add up or come to more than the total. -/
def TenderStays (sale : Sale) : SaleEvent → Prop
  | .tenderRecorded saleId tenderId method amount reference =>
    saleId = sale.id ∧ sale.status = .open ∧ 0 < amount.minor.val ∧
      ¬ (sale.withTender ⟨tenderId, method, amount, reference⟩).assertNonCashWithinTotal.isOkay
  | _ => False

theorem withTender_ne (sale : Sale) (tender : Tender) : sale.withTender tender ≠ sale := by
  intro hsame
  have hlength := congrArg (fun s : Sale => s.tenders.length) hsame
  simp [withTender] at hlength

/-- What `apply` does with a tender on an open sale of its own. -/
theorem apply_tenderRecorded {tenderId : Uuid} {method : TenderMethod} {amount : Money}
    {reference : Option String} (hopen : sale.status = .open) (hpositive : 0 < amount.minor.val) :
    sale.apply (.tenderRecorded sale.id tenderId method amount reference) =
      ⟨sale.withTender ⟨tenderId, method, amount, reference⟩,
        (sale.withTender ⟨tenderId, method, amount, reference⟩).assertNonCashWithinTotal⟩ := by
  have htransition : sale.transition (.tenderRecorded sale.id tenderId method amount reference) =
      .ok (sale.withTender ⟨tenderId, method, amount, reference⟩) := by
    have hamount : amount.isPositive = true := by simpa [Money.isPositive] using hpositive
    simp only [transition, hamount, not_true_eq_false, if_false]
    rfl
  have hid : ¬ (SaleEvent.tenderRecorded sale.id tenderId method amount reference).saleId ≠
      sale.id := not_not.mpr rfl
  unfold apply
  rw [if_neg hid, if_neg (fun hcon => hcon.2 hopen), htransition]

/-- A refused event leaves the sale alone, or is a tender that stays on it. -/
theorem apply_refused {error : SaleError} (h : (sale.apply event).answer = .error error) :
    (sale.apply event).state = sale ∨ sale.TenderStays event := by
  unfold apply at h ⊢
  split at h
  · rename_i hid
    rw [if_pos hid]
    exact .inl rfl
  rename_i hid
  rw [if_neg hid]
  split at h
  · rename_i hclosed
    rw [if_pos hclosed]
    exact .inl rfl
  rename_i hallowed
  rw [if_neg hallowed]
  cases event with
  | tenderRecorded saleId tenderId method amount reference =>
    have hopen : sale.status = .open := by
      by_contra hstatus
      exact hallowed ⟨by simp [SaleEvent.isTerminal], hstatus⟩
    by_cases hpositive : amount.isPositive = true
    · -- the tender was pushed before the check that refuses it
      refine .inr ⟨not_not.mp hid, hopen, by simpa [Money.isPositive] using hpositive, ?_⟩
      simp only [transition, hpositive, not_true_eq_false, if_false] at h
      intro hokay
      obtain ⟨u, hu⟩ := Except.isOkay_iff.mp hokay
      rw [withTender] at hu
      rw [hu] at h
      cases h
    · left
      simp only [transition, if_pos hpositive]
      rfl
  | «opened» | lineAdded | lineQuantityChanged | lineDiscounted | lineVoided | orderDiscounted
  | completed | ticketClaimed | ticketReleased | seated | linesFired | abandoned =>
    left
    simp only at h ⊢
    cases hresult : sale.transition _ with
    | error error => rfl
    | ok sale' =>
      rw [hresult] at h
      cases h

/-- **A refused event, exactly**: it leaves the sale as it was unless it is a tender that fails
    its last check, and such a tender stays on the sale. -/
theorem refused_unchanged_iff (sale : Sale) (event : SaleEvent) :
    (∀ error, (sale.apply event).answer = .error error → (sale.apply event).state = sale) ↔
      ¬ sale.TenderStays event := by
  constructor
  · intro hkept hstays
    cases event with
    | tenderRecorded saleId tenderId method amount reference =>
      obtain ⟨rfl, hopen, hpositive, hcheck⟩ := hstays
      rw [apply_tenderRecorded hopen hpositive] at hkept
      cases hanswer :
          (sale.withTender ⟨tenderId, method, amount, reference⟩).assertNonCashWithinTotal with
      | error error => exact sale.withTender_ne _ (hkept error hanswer)
      | ok =>
        rw [hanswer] at hcheck
        exact hcheck rfl
    | _ => exact hstays
  · intro hnot error herror
    exact (apply_refused herror).resolve_right hnot

/-- A card charged for 200 on a bill of 150: the charge is refused, and stays on the bill. -/
theorem overcharged_changes : ¬ ∀ (sale : Sale) (event : SaleEvent) (error : SaleError),
    sale.Reached → (sale.apply event).answer = .error error → (sale.apply event).state = sale := by
  intro hclaim
  have hreached : (replayed (twoLineTicket [])).Reached :=
    @replay_reached (twoLineTicket []) _ (by decide)
  have hkept := hclaim (replayed (twoLineTicket []))
    (.tenderRecorded 1 20 .card ⟨I64.lit 200, .bdt⟩ none)
    (.nonCashOvertender ⟨I64.lit 200, .bdt⟩ ⟨I64.lit 150, .bdt⟩) hreached (by decide)
  revert hkept
  decide

end Sale

end Sahl
