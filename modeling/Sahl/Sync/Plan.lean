import Mathlib.Tactic
import Sahl.Core.EventChain

/-! # Planning a pushed batch

    `planBatch` decides what the server does with a batch of events, given where the device's
    chain ends. -/

namespace Sahl

variable {V : Type}

/-! ## Section 1: Wire types -/

/-- Most events in one push. -/
def maxBatch : Nat := 500

/-- Why a sync batch was refused. -/
inductive SyncError where
  | chain (error : EventError)
  | gap (tip batchStartsAt : Nat)
  | forked (deviceSeq : Nat) (serverHash deviceHash : EventHash)
  | wrongDevice (expected found : Uuid)
  | batchTooLarge (count limit : Nat)
  deriving DecidableEq

/-- Why a push was refused, as the terminal is told. -/
inductive SyncRejection where
  | notAuthorised
  | invalid
  | forked
  | gap
  | unavailable
  deriving DecidableEq

def SyncRejection.fromSyncError : SyncError → SyncRejection
  | .gap .. => .gap
  | .forked .. => .forked
  | .chain _ | .wrongDevice .. | .batchTooLarge .. => .invalid

/-- A terminal offering events to the server. -/
structure PushRequest (V : Type) where
  deviceId : Uuid
  events : List (EventEnvelope V)

def PushRequest.validate (request : PushRequest V) : Except SyncError Unit :=
  if maxBatch < request.events.length then
    .error (.batchTooLarge request.events.length maxBatch)
  else .ok ()

/-- What the server did with a push. -/
structure PushResponse where
  accepted : Nat
  skipped : Nat
  tip : ChainTip
  highWater : Int
  deriving DecidableEq

/-- Events from the outlet's other devices, and where to resume. -/
structure PullResponse (V : Type) where
  events : List (EventEnvelope V)
  cursor : Int
  hasMore : Bool

/-! ## Section 2: The plan -/

/-- What the server should do with a batch. -/
structure BatchPlan where
  alreadyStored : Nat
  toInsert : Nat
  resultingTip : ChainTip
  deriving DecidableEq

def BatchPlan.isNoop (plan : BatchPlan) : Bool := plan.toInsert = 0

/-- How many leading events of a batch starting at `first` the server has already seen. -/
def overlapOf (tip : ChainTip) (first : EventEnvelope V) (events : List (EventEnvelope V)) : Nat :=
  min (satNextSeq tip.deviceSeq - first.deviceSeq) events.length

/-- The last already stored event must hash to the stored tip. -/
def checkBoundary (tip : ChainTip) (first : EventEnvelope V) (events : List (EventEnvelope V))
    (alreadyStored : Nat) : Except SyncError Unit :=
  if alreadyStored = 0 then .ok ()
  else
    match events[alreadyStored - 1]? with
    | none => .error (.gap tip.deviceSeq first.deviceSeq)
    | some boundary =>
      if boundary.hash ≠ tip.hash then
        .error (.forked boundary.deviceSeq tip.hash boundary.hash)
      else .ok ()

/-- Decide how to apply `events` to a device whose chain currently ends at `tip`. -/
def planBatch (digest : HashFunction V) (events : List (EventEnvelope V)) (tip : ChainTip)
    (deviceId : Uuid) : Except SyncError BatchPlan :=
  match events with
  | [] => .ok { alreadyStored := 0, toInsert := 0, resultingTip := tip }
  | first :: _ => do
    match events.find? (·.deviceId ≠ deviceId) with
    | some event => .error (.wrongDevice deviceId event.deviceId)
    | none =>
      if satNextSeq tip.deviceSeq < first.deviceSeq then
        .error (.gap tip.deviceSeq first.deviceSeq)
      else
        let alreadyStored := overlapOf tip first events
        let fresh := events.drop alreadyStored
        -- nothing fresh: answered before the boundary is compared
        if fresh.isEmpty then
          .ok { alreadyStored, toInsert := 0, resultingTip := tip }
        else do
          checkBoundary tip first events alreadyStored
          let resultingTip ← (verifyChain digest fresh tip).mapError SyncError.chain
          .ok { alreadyStored, toInsert := fresh.length, resultingTip }

/-! ## Section 3: What a plan says -/

/-- A plan either stores nothing, or extends the chain by events that follow the tip. -/
theorem planBatch_eq_ok {digest : HashFunction V} {events : List (EventEnvelope V)}
    {tip : ChainTip} {d : Uuid} {plan : BatchPlan}
    (h : planBatch digest events tip d = .ok plan) :
    (plan.toInsert = 0 ∧ plan.resultingTip = tip) ∨
      (events.drop plan.alreadyStored ≠ [] ∧
        plan.toInsert = (events.drop plan.alreadyStored).length ∧
        ChainFrom digest d tip (events.drop plan.alreadyStored) ∧
        plan.resultingTip = endTip tip (events.drop plan.alreadyStored) ∧
        (plan.alreadyStored ≠ 0 →
          ∃ b, events[plan.alreadyStored - 1]? = some b ∧ b.hash = tip.hash)) := by
  match events with
  | [] =>
    cases h
    exact .inl ⟨rfl, rfl⟩
  | first :: rest =>
    simp only [planBatch] at h
    split at h
    · cases h
    rename_i hdevices
    split at h
    · cases h
    split at h
    · cases h
      exact .inl ⟨rfl, rfl⟩
    rename_i hfresh
    simp only [Except.bind_eq_ok, Except.mapError_eq_ok] at h
    obtain ⟨_, hboundary, resultingTip, hverify, h⟩ := h
    cases h
    obtain ⟨⟨d', hchain⟩, htip⟩ := verifyChain_eq_ok.mp hverify
    refine .inr ⟨by simpa using hfresh, rfl, ?_, htip, fun hne => ?_⟩
    · -- the chain is of the device every event of the batch names
      generalize hk : overlapOf tip first (first :: rest) = k at *
      match hdrop : (first :: rest).drop k with
      | [] => simp [hdrop] at hfresh
      | e :: es =>
        rw [hdrop] at hchain
        have hmem : e ∈ first :: rest := List.mem_of_mem_drop (hdrop ▸ List.mem_cons_self)
        have he : e.deviceId = d := by
          simpa using (List.find?_eq_none.mp hdevices) e hmem
        obtain rfl : d' = d := hchain.1.device.symm.trans he
        exact hchain
    · -- events that were stored already must end in the tip
      simp only [checkBoundary, if_neg hne] at hboundary
      split at hboundary
      · cases hboundary
      · rename_i b hb
        split at hboundary
        · cases hboundary
        · rename_i heq
          exact ⟨b, hb, not_not.mp heq⟩

/-- A plan that stores nothing of a batch found its end at or below the tip, counted from its
    first event. -/
theorem planBatch_storesNothing {digest : HashFunction V} {first : EventEnvelope V}
    {rest : List (EventEnvelope V)} {tip : ChainTip} {d : Uuid} {plan : BatchPlan}
    (h : planBatch digest (first :: rest) tip d = .ok plan) (hnone : plan.toInsert = 0) :
    first.deviceSeq + (first :: rest).length ≤ tip.deviceSeq + 1 := by
  simp only [planBatch] at h
  split at h
  · cases h
  split at h
  · cases h
  have hsat : satNextSeq tip.deviceSeq ≤ tip.deviceSeq + 1 := min_le_left _ _
  split at h
  · rename_i hfresh
    have hoverlap := List.drop_eq_nil_iff.mp (List.isEmpty_iff.mp hfresh)
    rw [overlapOf, List.length_cons] at hoverlap
    rw [List.length_cons]
    omega
  · rename_i hfresh
    simp only [Except.bind_eq_ok, Except.mapError_eq_ok] at h
    obtain ⟨_, _, _, _, h⟩ := h
    cases h
    -- what is fresh is stored
    exact absurd (List.isEmpty_iff.mpr (List.length_eq_zero_iff.mp hnone)) hfresh

end Sahl
