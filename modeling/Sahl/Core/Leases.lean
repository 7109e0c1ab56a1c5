import Mathlib.Tactic
import Mathlib.Data.Prod.Lex
import Sahl.Lib.Contest
import Sahl.Core.SaleCash

/-! # Ticket leases

    Claims on an open ticket are always recorded: a device's claim replaces its own, and of two
    devices the earlier claim stands. The verdict that lets a device take a ticket asks how long
    ago the holder claimed it, so a taker comes later and does not get it
    (`claim_takes_effect_iff`); and who holds the ticket after several claims may depend on the
    order they meet in (`claims_converge_iff`). -/

namespace Sahl

/-! ## Section 1: The lease a claim leaves -/

/-- A claim of a device on a ticket. -/
structure Claim where
  deviceId : Uuid
  at' : Timestamp
  deriving DecidableEq

/-- When the claim was made, then by whom. -/
def Claim.rank (claim : Claim) : Timestamp ×ₗ Uuid := toLex (claim.at', claim.deviceId)

theorem Claim.rank_lt {a b : Claim} :
    a.rank < b.rank ↔ a.at' < b.at' ∨ a.at' = b.at' ∧ a.deviceId < b.deviceId :=
  Prod.Lex.toLex_lt_toLex

theorem Claim.deviceId_of_rank (a b : Claim) (h : a.rank = b.rank) : a.deviceId = b.deviceId :=
  (Prod.mk.inj (toLex_inj.mp h)).2

/-- The claim a lease stands for. -/
def TicketLease.claim (lease : TicketLease) : Claim := ⟨lease.holder, lease.claimedAt⟩

theorem TicketLease.isExpired_touched (lease : TicketLease) :
    lease.isExpired lease.touchedAt = false := by
  simp [isExpired, SInt.saturatingSub, SInt.saturatingAbs, idleTimeoutMillis, SInt.le_def]

/-- Between devices the claim that ranks lower stands. -/
theorem resolveContest_eq (held lease : TicketLease) :
    resolveContest held lease = if lease.claim.rank < held.claim.rank then lease else held := by
  have hmillis : ∀ a b : Timestamp, a.millis < b.millis ↔ a < b := fun _ _ => Iff.rfl
  unfold resolveContest
  simp only [hmillis, Claim.rank_lt, TicketLease.claim]
  rcases lt_trichotomy held.claimedAt lease.claimedAt with hlt | heq | hgt
  · rw [if_pos hlt, if_neg (by simp [hlt.not_gt, hlt.ne'])]
  · by_cases hholder : held.holder ≤ lease.holder
    · simp [heq, hholder, hholder.not_gt]
    · simp [heq, hholder, not_le.mp hholder]
  · rw [if_neg hgt.not_gt, if_pos hgt, if_pos (.inl hgt)]

namespace Sale

/-- The claim that stands is the one a contested register keeps. -/
theorem claimedLease_claim (saleId : Uuid) (lease : Option TicketLease) (claim : Claim) :
    (claimedLease lease (.new saleId claim.deviceId claim.at')).claim =
      Contest.keep Claim.deviceId Claim.rank (lease.map (·.claim)) claim := by
  cases lease with
  | none => rfl
  | some held =>
    have hnew : (TicketLease.new saleId claim.deviceId claim.at').claim = claim := rfl
    simp only [claimedLease, Contest.keep, Option.map_some, resolveContest_eq, hnew]
    by_cases hown : held.holder = claim.deviceId
    · simp [hown, TicketLease.claim, TicketLease.new]
    · have hholder : held.holder ≠ (TicketLease.new saleId claim.deviceId claim.at').holder := hown
      have hother : held.claim.deviceId ≠ claim.deviceId := hown
      rw [if_pos hholder, if_neg hother]
      by_cases hearlier : claim.rank < held.claim.rank
      · rw [if_pos hearlier, if_pos hearlier, hnew]
      · rw [if_neg hearlier, if_neg hearlier]

/-- An open sale takes every claim on it. -/
theorem apply_ticketClaimed {sale : Sale} {saleId : Uuid} (hid : sale.id = saleId)
    (hopen : sale.status = .open) (claim : Claim) :
    sale.apply (.ticketClaimed saleId claim.deviceId claim.at') =
      .done { sale with
        lease := some (claimedLease sale.lease (.new saleId claim.deviceId claim.at')) } := by
  unfold apply
  simp [SaleEvent.saleId, hid, hopen, transition, Outcome.ofExcept]

/-- Only claims and releases move a lease. -/
theorem transition_lease {sale sale' : Sale} {event : SaleEvent}
    (h : sale.transition event = .ok sale') :
    sale'.lease = sale.lease ∨ sale'.lease = none ∨ ∃ saleId deviceId at',
      sale'.lease = some (claimedLease sale.lease (.new saleId deviceId at')) := by
  cases transition_moved h with
  | ticketClaimed => exact .inr (.inr ⟨_, _, _, rfl⟩)
  | ticketReleased => exact .inr (.inl rfl)
  | completed hcomplete =>
    rw [(complete_eq_ok hcomplete).2.2.2.2]
    exact .inl rfl
  | lineAdded | lineQuantityChanged | lineDiscounted | lineVoided | orderDiscounted
  | tenderRecorded | releaseIgnored | seated | linesFired | abandoned => exact .inl rfl

/-- No event touches a lease without claiming it anew. -/
theorem Reached.lease_untouched {sale : Sale} (h : sale.Reached) :
    ∀ held, sale.lease = some held → held.touchedAt = held.claimedAt := by
  refine h.invariant (P := fun sale => ∀ held, sale.lease = some held →
    held.touchedAt = held.claimedAt) (fun event sale hopened => ?_)
    fun sale event sale' hsale htransition => ?_
  · cases event <;> cases hopened
    intro held hheld
    cases hheld
  · intro held hheld
    -- kept, dropped, or claimed anew, which touches it at the moment of the claim
    rcases transition_lease htransition with hsame | hnone | ⟨saleId, deviceId, at', hclaimed⟩
    · exact hsale held (hsame ▸ hheld)
    · rw [hnone] at hheld
      cases hheld
    · rw [hclaimed] at hheld
      obtain rfl := Option.some.inj hheld
      cases hlease : sale.lease with
      | none => rfl
      | some stood =>
        simp only [claimedLease, resolveContest_eq]
        split
        · split
          · rfl
          · exact hsale stood hlease
        · rfl

/-! ## Section 2: A claim the policy permits -/

/-- **A permitted claim takes effect, exactly**: the device holds the ticket afterwards when
    nobody or it held it before, or when its clock is behind the claim of the idle holder. -/
theorem claim_takes_effect_iff {sale : Sale} {claim : Claim} (h : sale.Reached)
    (hopen : sale.status = .open)
    (hpermits : (sale.mayWrite claim.deviceId claim.at').permitsClaim) :
    (∃ lease, (sale.apply (.ticketClaimed sale.id claim.deviceId claim.at')).state.lease =
        some lease ∧ lease.holder = claim.deviceId) ↔
      ∀ held, sale.lease = some held → held.holder = claim.deviceId ∨ claim.at' < held.claimedAt := by
  rw [apply_ticketClaimed rfl hopen]
  cases hlease : sale.lease with
  | none => simp [claimedLease, TicketLease.new]
  | some held =>
    simp only [Outcome.done_state, Option.some.injEq, exists_eq_left', forall_eq']
    by_cases hown : held.holder = claim.deviceId
    · simp [claimedLease, TicketLease.new, hown]
    · -- the verdict calls the holder idle, so the claim is not of the same moment
      have hidle : claim.at' ≠ held.claimedAt := by
        intro hsame
        rw [← h.lease_untouched held hlease] at hsame
        simp [mayWrite, evaluateClaim, hlease, hown, hsame, TicketLease.isExpired_touched,
          ClaimVerdict.permitsClaim] at hpermits
      have hrank : claim.rank < held.claim.rank ↔ claim.at' < held.claimedAt := by
        rw [Claim.rank_lt]
        exact or_iff_left fun hsame => hidle hsame.1
      have hholder : ∀ lease : TicketLease, lease.holder = lease.claim.deviceId := fun _ => rfl
      rw [hholder, claimedLease_claim, Option.map_some]
      by_cases hearlier : claim.at' < held.claimedAt
      · simp [Contest.keep, hrank, hearlier]
      · rw [Contest.keep_of_later hown (by rwa [hrank])]
        simp [TicketLease.claim, hown, hearlier]

/-! ### A ticket taken over -/

/-- A ticket that device 10 claimed at the given moment. -/
def ticketOf10 (at' : Timestamp) : List SaleEvent :=
  [.opened 1 9 .bdt .taxInclusive .halfUp, .ticketClaimed 1 10 at']

def minutes (n : Fin 1000) : Timestamp := ⟨I64.lit (n.val * 60000) (decide_eq_true (by omega))⟩

theorem claim_takes_effect_iff_clockBehind :
    (∃ lease, ((replayed (ticketOf10 (minutes 30))).apply
        (.ticketClaimed 1 11 (minutes 0))).state.lease = some lease ∧ lease.holder = 11) ↔
      ∀ held, (replayed (ticketOf10 (minutes 30))).lease = some held →
        held.holder = 11 ∨ minutes 0 < held.claimedAt :=
  have hreached : (replayed (ticketOf10 (minutes 30))).Reached :=
    @replay_reached (ticketOf10 (minutes 30)) _ (by rfl)
  @claim_takes_effect_iff _ ⟨11, minutes 0⟩ hreached (by decide) (by decide)

/-- Device 10 has been idle for eleven minutes; device 11 may take the ticket, and does not get
    it. -/
theorem idle_ticket_not_taken :
    ∃ sale, replay (ticketOf10 (minutes 0)) = .ok sale ∧ sale.Reached ∧ sale.status = .open ∧
      (sale.mayWrite 11 (minutes 11)).permitsClaim ∧
      ¬ ∃ lease, (sale.apply (.ticketClaimed sale.id 11 (minutes 11))).state.lease = some lease ∧
        lease.holder = 11 := by
  have hreplay : replay (ticketOf10 (minutes 0)) = .ok (replayed (ticketOf10 (minutes 0))) := by rfl
  have hkept : ((replayed (ticketOf10 (minutes 0))).apply (.ticketClaimed 1 11 (minutes 11))).state.lease.map
      (·.holder) = some 10 := by decide
  refine ⟨_, hreplay, replay_reached hreplay, by decide, by decide, ?_⟩
  rintro ⟨lease, hlease, hholder⟩
  have hid : (replayed (ticketOf10 (minutes 0))).id = 1 := by decide
  rw [hid] at hlease
  rw [hlease, Option.map_some, hholder] at hkept
  exact absurd hkept (by decide)

/-! ## Section 3: Claims in another order -/

/-- The sale after a run of claims on it. -/
def claimed (sale : Sale) (claims : List Claim) : Sale :=
  claims.foldl (fun ticket claim =>
    (ticket.apply (.ticketClaimed sale.id claim.deviceId claim.at')).state) sale

/-- The device that holds the ticket. -/
def holder (sale : Sale) : Option Uuid := sale.lease.map (·.holder)

theorem claimed_lease {sale : Sale} (hopen : sale.status = .open) (claims : List Claim) :
    (sale.claimed claims).lease.map (·.claim) =
      Contest.settle Claim.deviceId Claim.rank (sale.lease.map (·.claim)) claims := by
  suffices hgen : ∀ ticket : Sale, ticket.id = sale.id → ticket.status = .open →
      (claims.foldl (fun ticket claim => (ticket.apply (.ticketClaimed sale.id claim.deviceId
        claim.at')).state) ticket).lease.map (·.claim) =
          Contest.settle Claim.deviceId Claim.rank (ticket.lease.map (·.claim)) claims from
    hgen sale rfl hopen
  induction claims with
  | nil => exact fun _ _ _ => rfl
  | cons claim claims ih =>
    intro ticket hid hstatus
    rw [List.foldl_cons, apply_ticketClaimed hid hstatus, Contest.settle_cons,
      ← claimedLease_claim sale.id]
    exact ih { ticket with lease := _ } hid hstatus

/-- **Claims converge, exactly**: whatever order the devices' claims meet in, the same device
    ends up with the ticket when nothing is claimed or one device prevails. -/
theorem claims_converge_iff {sale : Sale} (hopen : sale.status = .open) (claims : List Claim) :
    (∀ xs ys, Contest.Interleaving Claim.deviceId claims xs →
      Contest.Interleaving Claim.deviceId claims ys →
        (sale.claimed xs).holder = (sale.claimed ys).holder) ↔
      claims = [] ∨ ∃ device,
        Contest.Prevails Claim.deviceId Claim.rank (sale.lease.map (·.claim)) claims device := by
  have hholder : ∀ ticket : Sale,
      ticket.holder = (ticket.lease.map (·.claim)).map (·.deviceId) := by
    intro ticket
    rw [Option.map_map]
    rfl
  rw [← Contest.converges_iff Claim.deviceId_of_rank]
  simp only [hholder, claimed_lease hopen]

/-- Devices 10 and 11 claim the ticket, device 10 first. -/
theorem claims_converge_iff_inTurn :
    (∀ xs ys, Contest.Interleaving Claim.deviceId [⟨10, minutes 1⟩, ⟨11, minutes 2⟩] xs →
      Contest.Interleaving Claim.deviceId [⟨10, minutes 1⟩, ⟨11, minutes 2⟩] ys →
        ((replayed (ticketOf10 (minutes 0))).claimed xs).holder =
          ((replayed (ticketOf10 (minutes 0))).claimed ys).holder) ↔
      ([⟨10, minutes 1⟩, ⟨11, minutes 2⟩] : List Claim) = [] ∨ ∃ device,
        Contest.Prevails Claim.deviceId Claim.rank
          ((replayed (ticketOf10 (minutes 0))).lease.map (·.claim))
          [⟨10, minutes 1⟩, ⟨11, minutes 2⟩] device :=
  claims_converge_iff (by decide) _

/-- Device 10 claims the ticket and claims it again ten minutes on; device 11 claims it in
    between. The claims of device 11 arriving last, it holds the ticket; the second claim of
    device 10 arriving last, device 10 does. -/
theorem claims_diverge :
    ∃ (sale : Sale) (claims xs ys : List Claim), sale.status = .open ∧
      Contest.Interleaving Claim.deviceId claims xs ∧
      Contest.Interleaving Claim.deviceId claims ys ∧
      (sale.claimed xs).holder = some 11 ∧ (sale.claimed ys).holder = some 10 := by
  let early : Claim := ⟨10, minutes 0⟩
  let between : Claim := ⟨11, minutes 5⟩
  let again : Claim := ⟨10, minutes 10⟩
  refine ⟨replayed [.opened 1 9 .bdt .taxInclusive .halfUp], [early, again, between],
    [early, again, between], [early, between, again], by decide, fun _ => rfl, fun device => ?_,
    by decide, by decide⟩
  by_cases h10 : device = 10
  · subst h10
    decide
  · have hother : (10 : Uuid) ≠ device := fun h => h10 h.symm
    simp [early, between, again, hother, List.filter_cons]

end Sale

end Sahl
