import Mathlib.Tactic
import Sahl.Core.Ledger
import Sahl.Lib.HashChain

/-! # What one device could have issued

    A run of invoices is issued by a device when its chain, resumed at a tip, seals exactly
    these for the same sales, instants and contents. Verification asks whether the invoices are
    numbered, linked and hashed on from the tip; it never looks at the device a seal names. -/

namespace Sahl

variable {T : Type}

/-! ## Section 1: Issuing -/

namespace FiscalChain

/-- Seal one invoice after another: each sale at its instant over its content. -/
def issue (digest : InvoiceDigest T) :
    FiscalChain → List (Uuid × Timestamp × T) → Except FiscalError (List InvoiceSeal × FiscalChain)
  | chain, [] => .ok ([], chain)
  | chain, (saleId, issuedAt, content) :: rest =>
    match chain.sealInvoice digest saleId issuedAt content with
    | (.error error, _) => .error error
    | (.ok invoice, chain') => do
      let (invoices, last) ← chain'.issue digest rest
      .ok (invoice :: invoices, last)

end FiscalChain

/-- What a device was asked to seal for an invoice. -/
def issueRequest (entry : InvoiceSeal × T) : Uuid × Timestamp × T :=
  (entry.1.saleId, entry.1.issuedAt, entry.2)

/-- The device, resumed at the tip, issues these invoices. -/
def IssuedBy (digest : InvoiceDigest T) (device : Uuid) (start : FiscalTip)
    (seals : List (InvoiceSeal × T)) : Prop :=
  ∃ last, (FiscalChain.resume device start).issue digest (seals.map issueRequest) =
    .ok (seals.map Prod.fst, last)

/-- Every seal names the device. -/
def NamesDevice (device : Uuid) (seals : List (InvoiceSeal × T)) : Prop :=
  ∀ entry ∈ seals, entry.1.deviceId = device

/-- Invoices that continue a tip: numbered on without a gap, each naming the digest before it
    and hashing to its own. -/
structure ContinuesTip (digest : InvoiceDigest T) (start : FiscalTip)
    (seals : List (InvoiceSeal × T)) : Prop where
  numbered : seals.map (·.1.counter) = List.range' (start.counter + 1) seals.length
  fits : ∀ entry ∈ seals, entry.1.counter < 2 ^ 64
  linked : HashChain.Linked (·.1.previousHash) (·.1.hash) start.hash seals
  hashed : ∀ entry ∈ seals, digest (entry.1.sealed entry.2) = .ok entry.1.hash

variable {digest : InvoiceDigest T} {device : Uuid} {start : FiscalTip}
  {seals rest : List (InvoiceSeal × T)} {entry : InvoiceSeal × T}

theorem namesDevice_cons :
    NamesDevice device (entry :: rest) ↔ entry.1.deviceId = device ∧ NamesDevice device rest :=
  List.forall_mem_cons

theorem continuesTip_nil : ContinuesTip digest start [] :=
  ⟨rfl, fun _ h => absurd h List.not_mem_nil, trivial, fun _ h => absurd h List.not_mem_nil⟩

theorem continuesTip_cons :
    ContinuesTip digest start (entry :: rest) ↔
      InvoiceFollows digest start entry ∧
        ContinuesTip digest ⟨entry.1.counter, entry.1.hash⟩ rest := by
  constructor
  · intro h
    have hnumbered := h.numbered
    rw [List.map_cons, List.length_cons, List.range'_succ, List.cons.injEq] at hnumbered
    have hfits := List.forall_mem_cons.mp h.fits
    have hhashed := List.forall_mem_cons.mp h.hashed
    refine ⟨⟨hnumbered.1, hfits.1, h.linked.1, hhashed.1⟩, ⟨?_, hfits.2, h.linked.2, hhashed.2⟩⟩
    rw [hnumbered.2, hnumbered.1]
  · intro h
    obtain ⟨hfirst, hrest⟩ := h
    refine ⟨?_, List.forall_mem_cons.mpr ⟨hfirst.fits, hrest.fits⟩,
      ⟨hfirst.previousHash, hrest.linked⟩, List.forall_mem_cons.mpr ⟨hfirst.hash, hrest.hashed⟩⟩
    rw [List.map_cons, List.length_cons, List.range'_succ, hrest.numbered, hfirst.counter]

/-! ## Section 2: Verification and issuing compared -/

theorem verifyInvoiceChain_isOkay_iff :
    (verifyInvoiceChain digest seals start).isOkay ↔ ContinuesTip digest start seals := by
  induction seals generalizing start with
  | nil => exact iff_of_true rfl continuesTip_nil
  | cons entry rest ih =>
    rw [verifyInvoiceChain, foldlM_cons_isOkay, continuesTip_cons]
    constructor
    · intro h
      obtain ⟨next, hstep, hrest⟩ := h
      obtain ⟨hfollows, rfl⟩ := verifyInvoiceStep_iff.mp hstep
      exact ⟨hfollows, ih.mp hrest⟩
    · intro h
      exact ⟨_, verifyInvoiceStep_iff.mpr ⟨h.1, rfl⟩, ih.mpr h.2⟩

/-- A run of invoices is issued one after the other. -/
theorem issuedBy_cons :
    IssuedBy digest device start (entry :: rest) ↔
      InvoiceFollows digest start entry ∧ entry.1.deviceId = device ∧
        IssuedBy digest device ⟨entry.1.counter, entry.1.hash⟩ rest := by
  simp only [IssuedBy, List.map_cons, issueRequest, FiscalChain.issue]
  constructor
  · intro h
    obtain ⟨last, h⟩ := h
    split at h
    · cases h
    · rename_i invoice chain' hseal
      obtain ⟨⟨invoices, last'⟩, hrest, h⟩ := Except.bind_eq_ok.mp h
      simp only [Except.ok.injEq, Prod.mk.injEq, List.cons.injEq] at h
      obtain ⟨⟨rfl, rfl⟩, rfl⟩ := h
      -- what was sealed follows the tip, and the rest is issued after it
      obtain ⟨hfollows, hdevice, -, -, rfl⟩ := sealInvoice_iff.mp hseal
      exact ⟨hfollows, hdevice, last', hrest⟩
  · intro h
    obtain ⟨hfollows, hdevice, last, hrest⟩ := h
    have hseal : (FiscalChain.resume device start).sealInvoice digest entry.1.saleId
        entry.1.issuedAt entry.2 =
          (.ok entry.1, .resume device ⟨entry.1.counter, entry.1.hash⟩) :=
      sealInvoice_iff.mpr ⟨hfollows, hdevice, rfl, rfl, rfl⟩
    refine ⟨last, ?_⟩
    rw [hseal]
    exact Except.bind_eq_ok.mpr ⟨_, hrest, rfl⟩

/-- What one device issues continues its tip and names it, and conversely. -/
theorem issuedBy_iff :
    IssuedBy digest device start seals ↔
      ContinuesTip digest start seals ∧ NamesDevice device seals := by
  induction seals generalizing start with
  | nil =>
    refine iff_of_true ⟨_, rfl⟩ ⟨continuesTip_nil, ?_⟩
    intro entry h
    cases h
  | cons entry rest ih =>
    rw [issuedBy_cons, continuesTip_cons, namesDevice_cons, ih]
    tauto

/-- **Issued chains**: verification accepts exactly what one device could have issued as long
    as the seals name one device or do not continue the tip. -/
theorem verifyInvoiceChain_issued_iff (digest : InvoiceDigest T) (start : FiscalTip)
    (seals : List (InvoiceSeal × T)) :
    ((verifyInvoiceChain digest seals start).isOkay ↔ ∃ device, IssuedBy digest device start seals)
      ↔ (∃ device, NamesDevice device seals) ∨ ¬ ContinuesTip digest start seals := by
  simp only [verifyInvoiceChain_isOkay_iff, issuedBy_iff, exists_and_left]
  tauto

/-! ## Section 3: Two devices in one chain -/

/-- The invoice a device numbers `counter`, over the digest before it. -/
def plainSeal (device : Uuid) (counter : Nat) (previousHash hash : EventHash) :
    InvoiceSeal × Unit :=
  ({ deviceId := device, counter, saleId := 7, issuedAt := Timestamp.epoch, previousHash, hash },
    ())

/-- A digest that tells invoices of different numbers apart. -/
def numberDigest : InvoiceDigest Unit := fun invoice => .ok ⟨Fin.ofNat _ invoice.counter⟩

/-- Device 2's second invoice on top of device 1's first. -/
def splicedSeals : List (InvoiceSeal × Unit) :=
  [plainSeal 1 1 EventHash.genesis ⟨1⟩, plainSeal 2 2 ⟨1⟩ ⟨2⟩]

/-- No two of its digests collide, no device issued it, and it verifies. -/
theorem verifyInvoiceChain_spliced :
    HashChain.Committing (·.1.hash) splicedSeals splicedSeals ∧
      verifyInvoiceChain numberDigest splicedSeals FiscalTip.genesis = .ok ⟨2, ⟨2⟩⟩ ∧
      ¬ ∃ device, IssuedBy numberDigest device FiscalTip.genesis splicedSeals := by
  refine ⟨?_, by decide, ?_⟩
  · show ∀ a ∈ splicedSeals, ∀ b ∈ splicedSeals, a.1.hash = b.1.hash → a = b
    decide
  · intro h
    obtain ⟨device, hissued⟩ := h
    have hnames := (issuedBy_iff.mp hissued).2
    obtain ⟨hfirst, hrest⟩ := namesDevice_cons.mp hnames
    have hsecond := (namesDevice_cons.mp hrest).1
    have hsame : (1 : Uuid) = 2 := hfirst.trans hsecond.symm
    exact absurd hsame (by decide)

end Sahl
