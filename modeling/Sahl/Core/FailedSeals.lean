import Mathlib.Tactic
import Sahl.Core.EventChain
import Sahl.Core.InvoiceChain

/-! # Seals that fail

    A chain takes the next number before it hashes what it seals. Content that cannot be brought
    to canonical bytes is refused after its number is gone, and the invoice sealed next is two on
    from the one before. A run of seals, some of them refused, is unbroken exactly when no number
    is spent so (`unbroken_iff`). -/

namespace Sahl

variable {T : Type}

/-! ## Section 1: The digest in use -/

/-- What is sealed as a JSON value, over its content's. -/
def SealedInvoice.toValue (invoice : SealedInvoice T) (content : Json.Value) : Json.Value :=
  jsonObject [
    ("counter", .integer invoice.counter),
    ("device_id", invoice.deviceId.toValue),
    ("issued_at", .integer invoice.issuedAt.millis.val),
    ("previous_hash", .string invoice.previousHash.toHex),
    ("sale_id", invoice.saleId.toValue),
    ("content", content)]

/-- The digest in use: `sha256` over the canonical bytes of what is sealed. -/
def jsonInvoiceDigest (sha256 : ByteArray → EventHash)
    (toValue : T → Except EventError Json.Value) : InvoiceDigest T := fun invoice => do
  let content ← toValue invoice.content
  let bytes ← canonicalBytes (invoice.toValue content)
  .ok (sha256 bytes)

/-- Content that can be canonicalised: it serializes, and without a floating-point number. -/
def Canonical (toValue : T → Except EventError Json.Value) (content : T) : Prop :=
  ∃ value, toValue content = .ok value ∧ value.firstFloat = none

theorem SealedInvoice.toValue_eq (invoice : SealedInvoice T) (content : Json.Value) :
    invoice.toValue content = .object [
      ("content", content),
      ("counter", .integer invoice.counter),
      ("device_id", invoice.deviceId.toValue),
      ("issued_at", .integer invoice.issuedAt.millis.val),
      ("previous_hash", .string invoice.previousHash.toHex),
      ("sale_id", invoice.saleId.toValue)] := by
  simp [SealedInvoice.toValue, jsonObject]

/-- Only the content of an invoice can hold a floating-point number. -/
theorem SealedInvoice.toValue_firstFloat (invoice : SealedInvoice T) (content : Json.Value) :
    (invoice.toValue content).firstFloat = none ↔ content.firstFloat = none := by
  rw [toValue_eq, Json.Value.firstFloat, Json.Value.firstFloatEntries_cons]
  exact and_iff_left rfl

/-- An invoice has a digest exactly when its content can be canonicalised. -/
theorem jsonInvoiceDigest_isOkay_iff (sha256 : ByteArray → EventHash)
    (toValue : T → Except EventError Json.Value) (invoice : SealedInvoice T) :
    (jsonInvoiceDigest sha256 toValue invoice).isOkay ↔ Canonical toValue invoice.content := by
  rw [Except.isOkay_iff]
  simp only [jsonInvoiceDigest, canonicalBytes, Except.bind_eq_ok, rejectFloats_eq_ok,
    SealedInvoice.toValue_firstFloat]
  constructor
  · intro h
    obtain ⟨_, content, hcontent, _, ⟨_, hfloat, _⟩, _⟩ := h
    exact ⟨content, hcontent, hfloat⟩
  · intro h
    obtain ⟨content, hcontent, hfloat⟩ := h
    exact ⟨_, content, hcontent, _, ⟨(), hfloat, rfl⟩, rfl⟩

/-! ## Section 2: One seal -/

namespace FiscalChain

variable {digest : InvoiceDigest T} {chain : FiscalChain} {saleId : Uuid} {issuedAt : Timestamp}
  {content : T}

/-- What the next invoice is hashed over. -/
def nextSealed (chain : FiscalChain) (saleId : Uuid) (issuedAt : Timestamp) (content : T) :
    SealedInvoice T :=
  { counter := chain.counter.issued + 1, deviceId := chain.counter.deviceId, issuedAt,
    previousHash := chain.tipHash, saleId, content }

/-- A chain whose next number was taken. -/
def skip (chain : FiscalChain) : FiscalChain :=
  { chain with counter := { chain.counter with issued := chain.counter.issued + 1 } }

theorem skip_ne (chain : FiscalChain) : chain.skip ≠ chain := by
  intro hsame
  have hissued : chain.counter.issued + 1 = chain.counter.issued :=
    congrArg (fun c : FiscalChain => c.counter.issued) hsame
  omega

/-- A chain that has run out of numbers refuses, and stays as it is. -/
theorem sealInvoice_exhausted (hfull : ¬ chain.counter.issued + 1 < 2 ^ 64) :
    chain.sealInvoice digest saleId issuedAt content = (.error .counterExhausted, chain) := by
  simp only [sealInvoice, InvoiceCounter.next, nextSeq, if_neg hfull, Except.okOr, bind,
    Except.bind]

/-- With a number left, the answer is that of the digest, and the number is taken either way. -/
theorem sealInvoice_numbered (digest : InvoiceDigest T) (saleId : Uuid) (issuedAt : Timestamp)
    (content : T) (hfits : chain.counter.issued + 1 < 2 ^ 64) :
    chain.sealInvoice digest saleId issuedAt content =
      match digest (chain.nextSealed saleId issuedAt content) with
      | .error error => (.error (.canonical error), chain.skip)
      | .ok hash =>
        (.ok { deviceId := chain.counter.deviceId, counter := chain.counter.issued + 1, saleId,
               issuedAt, previousHash := chain.tipHash, hash },
          { chain.skip with tipHash := hash }) := by
  simp only [sealInvoice, InvoiceCounter.next, nextSeq, if_pos hfits, Except.okOr, bind,
    Except.bind]
  rfl

end FiscalChain

/-! ## Section 3: A run of seals -/

/-- One request to seal: the chain before it, its content, its answer and the chain after it. -/
structure Sealing (T : Type) where
  before : FiscalChain
  content : T
  answer : Except FiscalError InvoiceSeal
  after : FiscalChain

namespace FiscalChain

/-- A run of requests, each sealed on the chain the ones before it left. -/
def sealings (digest : InvoiceDigest T) :
    FiscalChain → List (Uuid × Timestamp × T) → List (Sealing T)
  | _, [] => []
  | chain, (saleId, issuedAt, content) :: rest =>
    let (answer, after) := chain.sealInvoice digest saleId issuedAt content
    ⟨chain, content, answer, after⟩ :: after.sealings digest rest

/-- The chain a run of requests leaves. -/
def afterAll (digest : InvoiceDigest T) (chain : FiscalChain)
    (requests : List (Uuid × Timestamp × T)) : FiscalChain :=
  requests.foldl (fun chain request =>
    (chain.sealInvoice digest request.1 request.2.1 request.2.2).2) chain

end FiscalChain

/-- The invoices a run sealed, each with its content. -/
def successes (steps : List (Sealing T)) : List (InvoiceSeal × T) :=
  steps.filterMap fun step => step.answer.toOption.map (·, step.content)

/-- A refused request leaves the chain as it was. -/
def Sealing.Kept (step : Sealing T) : Prop :=
  ∀ error, step.answer = .error error → step.after = step.before

/-- A run of requests in which none that is refused changes the chain, and those that are not
    are numbered on from its start and verify up to where it ends. -/
structure Unbroken (digest : InvoiceDigest T) (chain : FiscalChain)
    (requests : List (Uuid × Timestamp × T)) : Prop where
  kept : ∀ step ∈ chain.sealings digest requests, step.Kept
  numbered : (successes (chain.sealings digest requests)).map (·.1.counter) =
    List.range' (chain.counter.issued + 1) (successes (chain.sealings digest requests)).length
  verified : verifyInvoiceChain digest (successes (chain.sealings digest requests)) chain.tip =
    .ok (chain.afterAll digest requests).tip

section Unbroken

variable {digest : InvoiceDigest T} {chain : FiscalChain} {saleId : Uuid} {issuedAt : Timestamp}
  {content : T} {rest : List (Uuid × Timestamp × T)}

theorem unbroken_nil : Unbroken digest chain [] :=
  ⟨fun _ h => absurd h List.not_mem_nil, rfl, rfl⟩

theorem sealings_cons {answer : Except FiscalError InvoiceSeal} {after : FiscalChain}
    (h : chain.sealInvoice digest saleId issuedAt content = (answer, after)) :
    chain.sealings digest ((saleId, issuedAt, content) :: rest) =
      ⟨chain, content, answer, after⟩ :: after.sealings digest rest := by
  rw [FiscalChain.sealings, h]

theorem afterAll_cons {answer : Except FiscalError InvoiceSeal} {after : FiscalChain}
    (h : chain.sealInvoice digest saleId issuedAt content = (answer, after)) :
    chain.afterAll digest ((saleId, issuedAt, content) :: rest) = after.afterAll digest rest := by
  rw [FiscalChain.afterAll, List.foldl_cons, h]
  rfl

/-- A request that is refused and leaves the chain alone changes nothing of a run. -/
theorem unbroken_refused {error : FiscalError}
    (h : chain.sealInvoice digest saleId issuedAt content = (.error error, chain)) :
    Unbroken digest chain ((saleId, issuedAt, content) :: rest) ↔ Unbroken digest chain rest := by
  have hsealed : successes (chain.sealings digest ((saleId, issuedAt, content) :: rest)) =
      successes (chain.sealings digest rest) := by
    rw [sealings_cons h]
    rfl
  constructor
  · intro hrun
    have hkept := hrun.kept
    rw [sealings_cons h, List.forall_mem_cons] at hkept
    have hverified := hrun.verified
    rw [hsealed, afterAll_cons h] at hverified
    exact ⟨hkept.2, hsealed ▸ hrun.numbered, hverified⟩
  · intro hrun
    refine ⟨?_, hsealed ▸ hrun.numbered, ?_⟩
    · rw [sealings_cons h, List.forall_mem_cons]
      exact ⟨fun _ _ => rfl, hrun.kept⟩
    · rw [hsealed, afterAll_cons h]
      exact hrun.verified

/-- A request that is sealed leaves the rest of a run to the chain after it. -/
theorem unbroken_sealed {invoice : InvoiceSeal} {after : FiscalChain}
    (h : chain.sealInvoice digest saleId issuedAt content = (.ok invoice, after)) :
    Unbroken digest chain ((saleId, issuedAt, content) :: rest) ↔ Unbroken digest after rest := by
  have hsealed : successes (chain.sealings digest ((saleId, issuedAt, content) :: rest)) =
      (invoice, content) :: successes (after.sealings digest rest) := by
    rw [sealings_cons h]
    rfl
  -- the invoice takes the next number and verifies on the tip; the rest is up to the chain after it
  obtain ⟨hstep, -, hafter⟩ := sealInvoice_verifies h
  have hcounter : invoice.counter = chain.counter.issued + 1 :=
    (verifyInvoiceStep_eq_ok hstep).1
  have hissued : after.counter.issued = invoice.counter := by rw [hafter]; rfl
  have hnumbered : (successes (chain.sealings digest ((saleId, issuedAt, content) :: rest))).map
        (·.1.counter) = List.range' (chain.counter.issued + 1)
          (successes (chain.sealings digest ((saleId, issuedAt, content) :: rest))).length ↔
      (successes (after.sealings digest rest)).map (·.1.counter) =
        List.range' (after.counter.issued + 1) (successes (after.sealings digest rest)).length := by
    rw [hsealed, List.map_cons, List.length_cons, List.range'_succ, List.cons.injEq, hissued,
      hcounter]
    exact and_iff_right rfl
  have hverified : verifyInvoiceChain digest
        (successes (chain.sealings digest ((saleId, issuedAt, content) :: rest))) chain.tip =
          .ok (chain.afterAll digest ((saleId, issuedAt, content) :: rest)).tip ↔
      verifyInvoiceChain digest (successes (after.sealings digest rest)) after.tip =
        .ok (after.afterAll digest rest).tip := by
    rw [hsealed, afterAll_cons h, verifyInvoiceChain, List.foldlM_cons, hstep]
    rfl
  have hkept : (∀ step ∈ chain.sealings digest ((saleId, issuedAt, content) :: rest), step.Kept) ↔
      ∀ step ∈ after.sealings digest rest, step.Kept := by
    rw [sealings_cons h, List.forall_mem_cons]
    refine and_iff_right ?_
    intro error herror
    cases herror
  constructor
  · intro hrun
    exact ⟨hkept.mp hrun.kept, hnumbered.mp hrun.numbered, hverified.mp hrun.verified⟩
  · intro hrun
    exact ⟨hkept.mpr hrun.kept, hnumbered.mpr hrun.numbered, hverified.mpr hrun.verified⟩

/-- A request that is refused after its number was taken breaks the run. -/
theorem not_unbroken_skipped {error : FiscalError}
    (h : chain.sealInvoice digest saleId issuedAt content = (.error error, chain.skip)) :
    ¬ Unbroken digest chain ((saleId, issuedAt, content) :: rest) := by
  intro hrun
  have hkept := hrun.kept
  rw [sealings_cons h, List.forall_mem_cons] at hkept
  exact chain.skip_ne (hkept.1 error rfl)

end Unbroken

/-- **Failed seals, exactly**: a run of requests is unbroken if and only if every content asked
    to be sealed while the counter still has a number can be canonicalised. -/
theorem unbroken_iff (sha256 : ByteArray → EventHash) (toValue : T → Except EventError Json.Value)
    (chain : FiscalChain) (requests : List (Uuid × Timestamp × T)) :
    Unbroken (jsonInvoiceDigest sha256 toValue) chain requests ↔
      ∀ request ∈ requests.take (2 ^ 64 - 1 - chain.counter.issued),
        Canonical toValue request.2.2 := by
  induction requests generalizing chain with
  | nil => exact iff_of_true unbroken_nil (by simp)
  | cons request rest ih =>
    obtain ⟨saleId, issuedAt, content⟩ := request
    by_cases hfits : chain.counter.issued + 1 < 2 ^ 64
    · have hseal := FiscalChain.sealInvoice_numbered (jsonInvoiceDigest sha256 toValue) saleId
        issuedAt content hfits
      have hcanonical := jsonInvoiceDigest_isOkay_iff sha256 toValue
        (chain.nextSealed saleId issuedAt content)
      have hleft : 2 ^ 64 - 1 - chain.counter.issued =
          2 ^ 64 - 1 - (chain.counter.issued + 1) + 1 := by omega
      rw [hleft, List.take_succ_cons, List.forall_mem_cons]
      cases hdigest : jsonInvoiceDigest sha256 toValue (chain.nextSealed saleId issuedAt content)
        with
      | error error =>
        rw [hdigest] at hseal hcanonical
        refine iff_of_false (not_unbroken_skipped hseal) ?_
        intro hall
        exact absurd (hcanonical.mpr hall.1) (by simp [Except.isOkay])
      | ok hash =>
        rw [hdigest] at hseal hcanonical
        rw [unbroken_sealed hseal, ih]
        exact (and_iff_right (hcanonical.mp rfl)).symm
    · -- no number left: this request and all after it are refused on an unchanged chain
      have hnone : 2 ^ 64 - 1 - chain.counter.issued = 0 := by omega
      rw [unbroken_refused (FiscalChain.sealInvoice_exhausted hfits), ih, hnone, List.take_zero,
        List.take_zero]

/-! ## Section 4: A number skipped -/

/-- A digest that is the same for all content it can hash. -/
def flatDigest : InvoiceDigest Json.Value :=
  jsonInvoiceDigest (fun _ => EventHash.genesis) Except.ok

/-- Three requests, the second with a floating-point number in its content. -/
def floatBetween : List (Uuid × Timestamp × Json.Value) :=
  [(1, Timestamp.epoch, .integer 11500), (2, Timestamp.epoch, .float "115.5"),
    (3, Timestamp.epoch, .integer 23000)]

/-- The second request is refused, the other two are invoices 1 and 3, and the chain they make
    does not verify. -/
theorem floatBetween_skips :
    verifyInvoiceChain flatDigest
        (successes ((FiscalChain.resume 3 FiscalTip.genesis).sealings flatDigest floatBetween))
        FiscalTip.genesis = .error (.sequenceBreak 2 3) ∧
      ¬ ∀ (sha256 : ByteArray → EventHash) (chain : FiscalChain)
          (requests : List (Uuid × Timestamp × Json.Value)),
        Unbroken (jsonInvoiceDigest sha256 Except.ok) chain requests := by
  have hbreak : verifyInvoiceChain flatDigest
      (successes ((FiscalChain.resume 3 FiscalTip.genesis).sealings flatDigest floatBetween))
      FiscalTip.genesis = .error (.sequenceBreak 2 3) := by
    decide +kernel
  refine ⟨hbreak, ?_⟩
  intro hclaim
  have hrun := hclaim (fun _ => EventHash.genesis) (.resume 3 FiscalTip.genesis) floatBetween
  cases hbreak.symm.trans hrun.verified

end Sahl
