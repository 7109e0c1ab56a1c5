import Mathlib.Tactic
import Sahl.Core.Leases
import Sahl.Terminal.Terminal

/-! # Tickets that stay held

    A ticket is held until its holder has been idle for ten minutes, and another device neither
    takes it nor writes to it before that. A clock that stands before the last activity measures the
    same distance, so a step of ten minutes back frees the ticket (`staysHeld_iff`). -/

namespace Sahl

/-! ## Section 1: How long a ticket is held -/

/-- Idleness is a distance: ten minutes after the last activity, or before it. -/
theorem TicketLease.isExpired_iff (lease : TicketLease) (now : Timestamp) :
    lease.isExpired now = true ↔
      lease.touchedAt.millis.val + idleTimeoutMillis.val ≤ now.millis.val ∨
        now.millis.val + idleTimeoutMillis.val ≤ lease.touchedAt.millis.val := by
  have hlow := now.millis.lo'
  have hhigh := now.millis.hi'
  have htouched := lease.touchedAt.millis.lo'
  have htouched' := lease.touchedAt.millis.hi'
  unfold isExpired
  rw [decide_eq_true_eq, SInt.le_def, I64.saturatingAbs_val, I64.saturatingSub_val,
    idleTimeoutMillis, I64.lit_val]
  rcases abs_cases (max (-9223372036854775808)
    (min 9223372036854775807 (now.millis.val - lease.touchedAt.millis.val))) with h | h
  · omega
  · omega

/-- The verdict on another device's claim. -/
theorem evaluateClaim_eq_held_iff {lease : TicketLease} {device : Uuid} {now : Timestamp}
    (hother : lease.holder ≠ device) :
    evaluateClaim (some lease) device now = .held lease.holder ↔ lease.isExpired now = false := by
  simp only [evaluateClaim, if_neg hother]
  cases lease.isExpired now <;> simp

/-! ## Section 2: What the other device may write -/

/-- An event that writes to a ticket: anything but opening it or asking for it. -/
def SaleEvent.writesTicket : SaleEvent → Bool
  | opened .. | ticketClaimed .. => false
  | _ => true

namespace Terminal

variable {t : Terminal} {event : SaleEvent} {now : Timestamp} {sale : Sale} {holder : Uuid}

/-- A write to a ticket that is held is refused. -/
theorem assertMayWrite_of_held (hwrites : event.writesTicket = true)
    (hsale : t.book.sales[event.saleId]? = some sale)
    (hheld : sale.mayWrite t.identity.deviceId now = .held holder) :
    t.assertMayWrite event now = .error (.ticketHeld event.saleId holder) := by
  unfold assertMayWrite
  split
  · cases hwrites
  · cases hwrites
  · rw [hsale]
    simp only [hheld]

end Terminal

/-- A ticket stays with its holder: another device's claim is turned down, and its till records
    nothing on a sale under the lease, neither an event nor its completion. -/
structure StaysHeld (lease : TicketLease) (device : Uuid) (now : Timestamp) : Prop where
  verdict : evaluateClaim (some lease) device now = .held lease.holder
  recorded : ∀ (digests : Digests) (writable : Bool) (t : Terminal) (sale : Sale)
    (event : SaleEvent) (eventId : Uuid), t.identity.deviceId = device →
      t.book.sales[event.saleId]? = some sale → sale.lease = some lease →
        event.writesTicket = true →
          t.record digests writable now event eventId =
            (t, .error (.ticketHeld event.saleId lease.holder))
  completed : ∀ (digests : Digests) (writable : Bool) (t : Terminal) (sale : Sale)
    (event : SaleEvent) (regime : String) (issuedBy saleEventId fiscalEventId : Uuid),
      t.identity.deviceId = device → t.book.sales[event.saleId]? = some sale →
        sale.lease = some lease → event.writesTicket = true →
          t.completeSale digests writable now event regime issuedBy saleEventId fiscalEventId =
            (t, .error (.ticketHeld event.saleId lease.holder))

/-- **A clock stepping back**: before the holder's last activity and ten minutes have passed, a
    ticket stays held if and only if the clock is less than ten minutes behind that activity. -/
theorem staysHeld_iff {lease : TicketLease} {device : Uuid} {now : Timestamp}
    (hother : lease.holder ≠ device)
    (hbefore : now.millis.val <
      lease.touchedAt.millis.val + TicketLease.idleTimeoutMillis.val) :
    StaysHeld lease device now ↔
      lease.touchedAt.millis.val - TicketLease.idleTimeoutMillis.val < now.millis.val := by
  have hexpired := lease.isExpired_iff now
  constructor
  · intro h
    have hlive := (evaluateClaim_eq_held_iff hother).mp h.verdict
    rw [hlive] at hexpired
    -- the distance has no sign: ten minutes behind is as far as ten minutes ahead
    by_contra hfar
    exact Bool.false_ne_true (hexpired.mpr (.inr (by omega)))
  · intro hnear
    have hlive : lease.isExpired now = false := by
      rw [Bool.eq_false_iff, ne_eq, hexpired]
      omega
    have hverdict := (evaluateClaim_eq_held_iff hother).mpr hlive
    -- both writes ask for the same leave before they do anything else
    have hrefused : ∀ {t : Terminal} {sale : Sale} {event : SaleEvent},
        t.identity.deviceId = device → t.book.sales[event.saleId]? = some sale →
          sale.lease = some lease → event.writesTicket = true →
            t.assertMayWrite event now = .error (.ticketHeld event.saleId lease.holder) := by
      intro t sale event hdevice hsale hlease hwrites
      refine Terminal.assertMayWrite_of_held hwrites hsale ?_
      rw [Sale.mayWrite, hlease, hdevice]
      exact hverdict
    refine ⟨hverdict, ?_, ?_⟩
    · intro digests writable t sale event eventId hdevice hsale hlease hwrites
      have hprepared : t.prepareRecord event eventId now =
          .error (.ticketHeld event.saleId lease.holder) := by
        unfold Terminal.prepareRecord
        rw [hrefused hdevice hsale hlease hwrites]
        rfl
      rw [Terminal.record, hprepared]
      rfl
    · intro digests writable t sale event regime issuedBy saleEventId fiscalEventId hdevice hsale
        hlease hwrites
      have hprepared : t.prepareCompleteSale digests event regime issuedBy saleEventId
          fiscalEventId now = .error (.ticketHeld event.saleId lease.holder) := by
        unfold Terminal.prepareCompleteSale
        rw [hrefused hdevice hsale hlease hwrites]
        rfl
      rw [Terminal.completeSale, hprepared]
      rfl

/-! ### A clock put back by half an hour -/

/-- Device 10 touched its ticket half an hour into the day. -/
def touchedAtThirty : TicketLease := .new 1 10 (Sale.minutes 30)

/-- A minute back nothing happens. -/
theorem staysHeld_aMinuteBack : StaysHeld touchedAtThirty 11 (Sale.minutes 29) :=
  (staysHeld_iff (by decide) (by decide)).mpr (by decide)

/-- Half an hour back the ticket is for device 11 to take. -/
theorem put_back_frees_ticket : ¬ ∀ (lease : TicketLease) (device : Uuid) (now : Timestamp),
    lease.holder ≠ device →
      now.millis.val < lease.touchedAt.millis.val + TicketLease.idleTimeoutMillis.val →
        StaysHeld lease device now := by
  intro hclaim
  have hheld := (hclaim touchedAtThirty 11 (Sale.minutes 0) (by decide) (by decide)).verdict
  exact absurd hheld (by decide)

end Sahl
