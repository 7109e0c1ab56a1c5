import Mathlib.Tactic
import Sahl.Core.Ids
import Sahl.Lib.Lists
import Sahl.Lib.HashChain
import Sahl.Lib.Json

/-! # The event chain

    Every device owns one chain of sealed events. An event is hashed over all its other fields,
    the digest of its predecessor among them. Envelopes are generic in the payload, and sealing
    and verifying in the digest of what is hashed; `jsonDigest` is the digest in use, SHA-256
    over the canonical JSON text. -/

namespace Sahl

/-! ## Section 1: Digests and errors -/

/-- A 32-byte digest, read as one big-endian number. -/
structure EventHash where
  bits : Fin (2 ^ 256)
  deriving DecidableEq

namespace EventHash

/-- The start of every chain: all zeroes. -/
def genesis : EventHash := ⟨0⟩

def isGenesis (h : EventHash) : Bool := h = genesis

/-- Lower-case hex. -/
def toHex (h : EventHash) : String := String.ofList (Json.hexDigits 64 h.bits)

end EventHash

/-- Why an event could not be sealed, or why a chain failed to verify. -/
inductive EventError where
  | notCanonical (reason : String)
  | malformedHash (value : String)
  | hashMismatch (eventId : Uuid) (stored computed : EventHash)
  | brokenLink (eventId : Uuid) (expected actual : EventHash)
  | sequenceBreak (previous expected found : Nat)
  | deviceMismatch (expected found : Uuid)
  | notGenesis (found : Nat) (previous : EventHash)
  | timeWentBackwards (eventId : Uuid) (previous found : I64)
  deriving DecidableEq

/-! ## Section 2: Envelopes -/

/-- What the caller supplies of an event: who, where and when. -/
structure EventHeader where
  eventId : Uuid
  tenantId : Uuid
  outletId : Uuid
  deviceId : Uuid
  occurredAt : Timestamp
  deriving DecidableEq

/-- A domain event as it is handed to the log: its discriminator, and its serialization. -/
structure EventPayload (V : Type) where
  kind : String
  toValue : Except EventError V

/-- The fields an event is hashed over. -/
structure HashInput (V : Type) where
  eventId : Uuid
  tenantId : Uuid
  outletId : Uuid
  deviceId : Uuid
  deviceSeq : Nat
  occurredAt : Timestamp
  kind : String
  payload : V
  prevHash : EventHash
  deriving DecidableEq

/-- The digest of what is hashed, where it can be brought to canonical bytes. -/
abbrev HashFunction (V : Type) := HashInput V → Except EventError EventHash

/-- A sealed event: hashed, and linked to its predecessor. -/
structure EventEnvelope (V : Type) where
  eventId : Uuid
  tenantId : Uuid
  outletId : Uuid
  deviceId : Uuid
  deviceSeq : Nat
  occurredAt : Timestamp
  kind : String
  payload : V
  prevHash : EventHash
  hash : EventHash
  deriving DecidableEq

/-- Where a device's chain currently ends. -/
structure ChainTip where
  deviceSeq : Nat
  hash : EventHash
  deriving DecidableEq

/-- The tip of a device that has written nothing. -/
def ChainTip.genesis : ChainTip := ⟨0, EventHash.genesis⟩

namespace EventEnvelope

variable {V : Type}

def hashInput (e : EventEnvelope V) : HashInput V :=
  { eventId := e.eventId, tenantId := e.tenantId, outletId := e.outletId, deviceId := e.deviceId,
    deviceSeq := e.deviceSeq, occurredAt := e.occurredAt, kind := e.kind, payload := e.payload,
    prevHash := e.prevHash }

/-- The tip of a chain that ends in this event. -/
def tip (e : EventEnvelope V) : ChainTip := ⟨e.deviceSeq, e.hash⟩

/-- Seal a payload into a hash-linked event. -/
def sealEvent (digest : HashFunction V) (header : EventHeader) (deviceSeq : Nat)
    (payload : EventPayload V) (prevHash : EventHash) : Except EventError (EventEnvelope V) := do
  let value ← payload.toValue
  let hash ← digest
    { eventId := header.eventId, tenantId := header.tenantId, outletId := header.outletId,
      deviceId := header.deviceId, deviceSeq, occurredAt := header.occurredAt,
      kind := payload.kind, payload := value, prevHash }
  .ok { eventId := header.eventId, tenantId := header.tenantId, outletId := header.outletId,
        deviceId := header.deviceId, deviceSeq, occurredAt := header.occurredAt,
        kind := payload.kind, payload := value, prevHash, hash }

/-- Recompute the digest from the event's own contents. -/
def recomputeHash (digest : HashFunction V) (e : EventEnvelope V) :
    Except EventError EventHash :=
  digest e.hashInput

/-- Verify that the contents still match the digest. -/
def verify (digest : HashFunction V) (e : EventEnvelope V) : Except EventError Unit := do
  let computed ← e.recomputeHash digest
  if computed = e.hash then .ok ()
  else .error (.hashMismatch e.eventId e.hash computed)

end EventEnvelope

/-! ## Section 3: The chain -/

/-- `checked_add` on a device sequence number. -/
def nextSeq (seq : Nat) : Option Nat := if seq + 1 < 2 ^ 64 then some (seq + 1) else none

/-- `saturating_add(1)` on a device sequence number. -/
def satNextSeq (seq : Nat) : Nat := min (seq + 1) (2 ^ 64 - 1)

/-- The append-only event chain of one device; it owns only the tip. -/
structure EventChain where
  deviceId : Uuid
  tip : ChainTip
  deriving DecidableEq

namespace EventChain

variable {V : Type}

def new (deviceId : Uuid) : EventChain := ⟨deviceId, ChainTip.genesis⟩

def resume (deviceId : Uuid) (tip : ChainTip) : EventChain := ⟨deviceId, tip⟩

/-- Seal `payload` onto the end of the chain and advance the tip. -/
def append (digest : HashFunction V) (chain : EventChain) (header : EventHeader)
    (payload : EventPayload V) : Except EventError (EventEnvelope V × EventChain) := do
  if header.deviceId ≠ chain.deviceId then
    .error (.deviceMismatch chain.deviceId header.deviceId)
  else
    let deviceSeq ← Except.okOr (nextSeq chain.tip.deviceSeq)
      (.sequenceBreak chain.tip.deviceSeq chain.tip.deviceSeq chain.tip.deviceSeq)
    let event ← EventEnvelope.sealEvent digest header deviceSeq payload chain.tip.hash
    .ok (event, { chain with tip := ⟨deviceSeq, event.hash⟩ })

end EventChain

section Verify

variable {V : Type}

/-- One round of `verify_chain`. -/
def verifyStep (digest : HashFunction V) (deviceId : Uuid) (tip : ChainTip)
    (event : EventEnvelope V) : Except EventError ChainTip := do
  if event.deviceId ≠ deviceId then .error (.deviceMismatch deviceId event.deviceId)
  else
    let expectedSeq ← Except.okOr (nextSeq tip.deviceSeq)
      (.sequenceBreak tip.deviceSeq tip.deviceSeq event.deviceSeq)
    if event.deviceSeq ≠ expectedSeq then
      .error (.sequenceBreak tip.deviceSeq expectedSeq event.deviceSeq)
    else if event.prevHash ≠ tip.hash then
      .error (.brokenLink event.eventId event.prevHash tip.hash)
    else do
      event.verify digest
      .ok ⟨event.deviceSeq, event.hash⟩

/-- Verify that a run of events is an unbroken chain from `start`. -/
def verifyChain (digest : HashFunction V) (events : List (EventEnvelope V)) (start : ChainTip) :
    Except EventError ChainTip :=
  match events with
  | [] => .ok start
  | first :: _ => events.foldlM (verifyStep digest first.deviceId) start

/-- Verify a chain that must begin at the first event a device ever wrote. -/
def verifyChainFromGenesis (digest : HashFunction V) (events : List (EventEnvelope V)) :
    Except EventError ChainTip :=
  match events with
  | first :: _ =>
    if first.deviceSeq ≠ 1 ∨ ¬ first.prevHash.isGenesis then
      .error (.notGenesis first.deviceSeq first.prevHash)
    else verifyChain digest events ChainTip.genesis
  | [] => verifyChain digest events ChainTip.genesis

end Verify

/-! ## Section 4: Canonical bytes -/

/-- Refuse any floating-point number. -/
def rejectFloats (v : Json.Value) : Except EventError Unit :=
  match v.firstFloat with
  | some number => .error (.notCanonical
      ("floating-point number " ++ number ++ " cannot be canonically hashed"))
  | none => .ok ()

/-- The bytes a value is hashed over. -/
def canonicalBytes (v : Json.Value) : Except EventError ByteArray := do
  rejectFloats v
  .ok (String.ofList v.write).toUTF8

/-- An object as its map holds it: entries in key order. -/
def jsonObject (entries : List (String × Json.Value)) : Json.Value :=
  .object (entries.insertionSort fun a b => a.1 ≤ b.1)

/-- Text cut into groups of the given sizes, hyphens between them. -/
def hyphenate : List Nat → List Char → List Char
  | [], digits => digits
  | n :: sizes, digits => digits.take n ++ '-' :: hyphenate sizes (digits.drop n)

namespace Uuid

/-- The hyphenated lower-case form. -/
def toHyphenated (u : Uuid) : String :=
  String.ofList (hyphenate [8, 4, 4, 4] (Json.hexDigits 32 u.bits))

def toValue (u : Uuid) : Json.Value := .string u.toHyphenated

end Uuid

namespace HashInput

/-- The hash input as a JSON value. -/
def toValue (i : HashInput Json.Value) : Json.Value :=
  jsonObject [
    ("event_id", i.eventId.toValue),
    ("tenant_id", i.tenantId.toValue),
    ("outlet_id", i.outletId.toValue),
    ("device_id", i.deviceId.toValue),
    ("device_seq", .integer i.deviceSeq),
    ("occurred_at", .integer i.occurredAt.millis.val),
    ("kind", .string i.kind),
    ("payload", i.payload),
    ("prev_hash", .string i.prevHash.toHex)]

end HashInput

/-- The digest in use: `sha256` over the canonical bytes of the hash input. -/
def jsonDigest (sha256 : ByteArray → EventHash) : HashFunction Json.Value := fun i => do
  let bytes ← canonicalBytes i.toValue
  .ok (sha256 bytes)

end Sahl
