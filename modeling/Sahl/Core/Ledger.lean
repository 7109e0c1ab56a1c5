import Mathlib.Tactic
import Sahl.Core.EventChain
import Sahl.Core.Tax

/-! # The fiscal ledger

    Every invoice of a device carries the next number of its counter and the digest of the
    invoice before it. The chain is separate from the event chain, and generic in the content of
    an invoice and in the digest of what is sealed. -/

namespace Sahl

/-! ## Section 1: Counter and chain -/

inductive FiscalError where
  | canonical (error : EventError)
  | counterExhausted
  | sequenceBreak (expected counter : Nat)
  | chainBroken (counter : Nat)
  | tampered (counter : Nat)
  deriving DecidableEq

/-- A per-device monotonic invoice counter. -/
structure InvoiceCounter where
  deviceId : Uuid
  issued : Nat
  deriving DecidableEq

/-- Take the next number. -/
def InvoiceCounter.next (counter : InvoiceCounter) : Except FiscalError (Nat × InvoiceCounter) := do
  let next ← Except.okOr (nextSeq counter.issued) .counterExhausted
  .ok (next, { counter with issued := next })

/-- Where a device's fiscal chain has got to. -/
structure FiscalTip where
  counter : Nat
  hash : EventHash
  deriving DecidableEq

/-- A device that has issued nothing. -/
def FiscalTip.genesis : FiscalTip := ⟨0, EventHash.genesis⟩

/-- One invoice's place in the fiscal sequence. -/
structure InvoiceSeal where
  deviceId : Uuid
  counter : Nat
  saleId : Uuid
  issuedAt : Timestamp
  previousHash : EventHash
  hash : EventHash
  deriving DecidableEq

/-- What the digest of an invoice is taken over. -/
structure SealedInvoice (T : Type) where
  counter : Nat
  deviceId : Uuid
  issuedAt : Timestamp
  previousHash : EventHash
  saleId : Uuid
  content : T

/-- The digest of an invoice, where it can be brought to canonical bytes. -/
abbrev InvoiceDigest (T : Type) := SealedInvoice T → Except EventError EventHash

/-- What a seal's digest is taken over. -/
def InvoiceSeal.sealed {T : Type} (invoice : InvoiceSeal) (content : T) : SealedInvoice T :=
  { counter := invoice.counter, deviceId := invoice.deviceId, issuedAt := invoice.issuedAt,
    previousHash := invoice.previousHash, saleId := invoice.saleId, content }

/-- A device's fiscal chain. -/
structure FiscalChain where
  counter : InvoiceCounter
  tipHash : EventHash
  deriving DecidableEq

namespace FiscalChain

def resume (deviceId : Uuid) (tip : FiscalTip) : FiscalChain := ⟨⟨deviceId, tip.counter⟩, tip.hash⟩

def tip (chain : FiscalChain) : FiscalTip := ⟨chain.counter.issued, chain.tipHash⟩

variable {T : Type}

/-- Seal an invoice into the chain. A number whose digest fails is taken all the same. -/
def sealInvoice (digest : InvoiceDigest T) (chain : FiscalChain) (saleId : Uuid)
    (issuedAt : Timestamp) (content : T) : Except FiscalError InvoiceSeal × FiscalChain :=
  match chain.counter.next with
  | .error error => (.error error, chain)
  | .ok (number, counter) =>
    match digest { counter := number, deviceId := counter.deviceId, issuedAt,
                   previousHash := chain.tipHash, saleId, content } with
    | .error error => (.error (.canonical error), { chain with counter })
    | .ok hash =>
      (.ok { deviceId := counter.deviceId, counter := number, saleId, issuedAt,
             previousHash := chain.tipHash, hash }, ⟨counter, hash⟩)

end FiscalChain

/-! ## Section 2: Verification -/

section Verify

variable {T : Type}

/-- One round of `verify_invoice_chain`. -/
def verifyInvoiceStep (digest : InvoiceDigest T) (tip : FiscalTip) (entry : InvoiceSeal × T) :
    Except FiscalError FiscalTip := do
  let expected ← Except.okOr (nextSeq tip.counter) .counterExhausted
  if entry.1.counter ≠ expected then .error (.sequenceBreak expected entry.1.counter)
  else if entry.1.previousHash ≠ tip.hash then .error (.chainBroken entry.1.counter)
  else
    let recomputed ← (digest (entry.1.sealed entry.2)).mapError FiscalError.canonical
    if recomputed ≠ entry.1.hash then .error (.tampered entry.1.counter)
    else .ok ⟨expected, entry.1.hash⟩

/-- Verify a device's fiscal chain from a known starting point. -/
def verifyInvoiceChain (digest : InvoiceDigest T) (seals : List (InvoiceSeal × T))
    (start : FiscalTip) : Except FiscalError FiscalTip :=
  seals.foldlM (verifyInvoiceStep digest) start

/-- An invoice follows a tip: its number and its link continue it, and it hashes to its
    seal. -/
structure InvoiceFollows (digest : InvoiceDigest T) (tip : FiscalTip) (entry : InvoiceSeal × T) :
    Prop where
  counter : entry.1.counter = tip.counter + 1
  fits : entry.1.counter < 2 ^ 64
  previousHash : entry.1.previousHash = tip.hash
  hash : digest (entry.1.sealed entry.2) = .ok entry.1.hash

theorem verifyInvoiceStep_iff {digest : InvoiceDigest T} {tip tip' : FiscalTip}
    {entry : InvoiceSeal × T} :
    verifyInvoiceStep digest tip entry = .ok tip' ↔
      InvoiceFollows digest tip entry ∧ tip' = ⟨entry.1.counter, entry.1.hash⟩ := by
  simp only [verifyInvoiceStep, Except.bind_eq_ok, Except.okOr_eq_ok, nextSeq_eq_some]
  constructor
  · intro h
    -- counter, previous hash and own hash are compared in this order
    obtain ⟨expected, ⟨hnext, hfits⟩, h⟩ := h
    split at h
    · cases h
    rename_i hcounter
    split at h
    · cases h
    rename_i hprevious
    obtain ⟨recomputed, hdigest, h⟩ := Except.bind_eq_ok.mp h
    split at h
    · cases h
    rename_i hhash
    cases h
    obtain rfl := not_not.mp hcounter
    obtain rfl := not_not.mp hhash
    exact ⟨⟨hnext, hfits, not_not.mp hprevious, Except.mapError_eq_ok.mp hdigest⟩, rfl⟩
  · intro h
    obtain ⟨⟨hcounter, hfits, hprevious, hhash⟩, rfl⟩ := h
    refine ⟨entry.1.counter, ⟨hcounter, hfits⟩, ?_⟩
    rw [if_neg (not_not.mpr rfl), if_neg (not_not.mpr hprevious), hhash]
    exact if_neg (not_not.mpr rfl)

theorem verifyInvoiceStep_eq_ok {digest : InvoiceDigest T} {tip tip' : FiscalTip}
    {entry : InvoiceSeal × T} (h : verifyInvoiceStep digest tip entry = .ok tip') :
    entry.1.counter = tip.counter + 1 ∧ tip' = ⟨entry.1.counter, entry.1.hash⟩ :=
  ⟨(verifyInvoiceStep_iff.mp h).1.counter, (verifyInvoiceStep_iff.mp h).2⟩

/-- A chain seals an invoice as it stands exactly when the invoice follows its tip and names its
    device. -/
theorem sealInvoice_iff {digest : InvoiceDigest T} {chain chain' : FiscalChain}
    {saleId : Uuid} {issuedAt : Timestamp} {content : T} {invoice : InvoiceSeal} :
    chain.sealInvoice digest saleId issuedAt content = (.ok invoice, chain') ↔
      InvoiceFollows digest chain.tip (invoice, content) ∧
        invoice.deviceId = chain.counter.deviceId ∧ invoice.saleId = saleId ∧
        invoice.issuedAt = issuedAt ∧
        chain' = .resume chain.counter.deviceId ⟨invoice.counter, invoice.hash⟩ := by
  unfold FiscalChain.sealInvoice InvoiceCounter.next
  constructor
  · intro h
    cases hnext : nextSeq chain.counter.issued with
    | none => simp [hnext, Except.okOr, bind, Except.bind] at h
    | some number =>
      simp only [hnext, Except.okOr, bind, Except.bind] at h
      -- the counter moves before the digest is asked for
      cases hhash : digest { counter := number, deviceId := chain.counter.deviceId, issuedAt,
                             previousHash := chain.tipHash, saleId, content } with
      | error error => simp [hhash] at h
      | ok hash =>
        simp only [hhash, Prod.mk.injEq, Except.ok.injEq] at h
        obtain ⟨rfl, rfl⟩ := h
        obtain ⟨hcounter, hfits⟩ := nextSeq_eq_some.mp hnext
        exact ⟨⟨hcounter, hfits, rfl, hhash⟩, rfl, rfl, rfl, rfl⟩
  · intro h
    obtain ⟨⟨hcounter, hfits, hprevious, hhash⟩, hdevice, rfl, rfl, rfl⟩ := h
    have hnext : nextSeq chain.counter.issued = some invoice.counter :=
      nextSeq_eq_some.mpr ⟨hcounter, hfits⟩
    simp only [FiscalChain.tip, InvoiceSeal.sealed] at hprevious hhash
    simp only [hnext, Except.okOr, bind, Except.bind, ← hdevice, ← hprevious, hhash]
    rfl

/-- What sealing adds is what verification asks for. -/
theorem sealInvoice_verifies {digest : InvoiceDigest T} {chain chain' : FiscalChain}
    {saleId : Uuid} {issuedAt : Timestamp} {content : T} {invoice : InvoiceSeal}
    (h : chain.sealInvoice digest saleId issuedAt content = (.ok invoice, chain')) :
    verifyInvoiceStep digest chain.tip (invoice, content) = .ok chain'.tip ∧
      invoice.deviceId = chain.counter.deviceId ∧
      chain' = .resume chain.counter.deviceId ⟨invoice.counter, invoice.hash⟩ := by
  obtain ⟨hfollows, hdevice, -, -, rfl⟩ := sealInvoice_iff.mp h
  exact ⟨verifyInvoiceStep_iff.mpr ⟨hfollows, rfl⟩, hdevice, rfl⟩

/-- Verified invoices are numbered on from the start without a gap. -/
theorem verifyInvoiceChain_counters {digest : InvoiceDigest T} {seals : List (InvoiceSeal × T)}
    {start tip : FiscalTip} (h : verifyInvoiceChain digest seals start = .ok tip) :
    seals.map (·.1.counter) = List.range' (start.counter + 1) seals.length := by
  induction seals generalizing start with
  | nil => rfl
  | cons entry rest ih =>
    obtain ⟨next, hstep, hrest⟩ := foldlM_cons_eq_ok.mp h
    obtain ⟨hcounter, rfl⟩ := verifyInvoiceStep_eq_ok hstep
    rw [List.map_cons, List.length_cons, List.range'_succ, ih hrest, ← hcounter]

/-- The tip of verified invoices is the last of them. -/
theorem verifyInvoiceChain_tip {digest : InvoiceDigest T} {seals : List (InvoiceSeal × T)}
    {start tip : FiscalTip} (h : verifyInvoiceChain digest seals start = .ok tip) :
    tip = (seals.getLast?.map fun entry => ⟨entry.1.counter, entry.1.hash⟩).getD start := by
  induction seals using List.reverseRecOn generalizing tip with
  | nil =>
    cases h
    rfl
  | append_singleton seals entry _ =>
    obtain ⟨mid, -, hlast⟩ := foldlM_append_eq_ok.mp h
    obtain ⟨next, hstep, hnil⟩ := foldlM_cons_eq_ok.mp hlast
    cases hnil
    simp [(verifyInvoiceStep_eq_ok hstep).2]

end Verify

/-! ## Section 3: Events -/

/-- What an invoice is, for hashing purposes. -/
structure InvoiceContent where
  totals : OrderTotals
  regime : String
  deriving DecidableEq

/-- Everything that happens to the fiscal sequence. -/
inductive FiscalEvent where
  | invoiceIssued (invoice : InvoiceSeal) (content : InvoiceContent) (at' : Timestamp)
      (issuedBy : Uuid)
  deriving DecidableEq

namespace FiscalEvent

def kind : FiscalEvent → String
  | invoiceIssued .. => "fiscal.invoice_issued"

/-- The invoice an event issues. -/
def invoice : FiscalEvent → InvoiceSeal
  | invoiceIssued invoice .. => invoice

/-- An invoice with the content it was sealed over. -/
def entry : FiscalEvent → InvoiceSeal × InvoiceContent
  | invoiceIssued invoice content .. => (invoice, content)

end FiscalEvent

end Sahl
