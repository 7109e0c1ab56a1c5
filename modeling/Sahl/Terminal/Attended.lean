import Mathlib.Tactic
import Sahl.Terminal.OwnLog
import Sahl.Terminal.Desk

/-! # The till with somebody at it

    The commands of the screen work on the till and on whoever is signed in. What they record is
    what the store holds as sealed here; what a sync pulls is tagged as another device's. -/

namespace Sahl

namespace Terminal

/-- The events this till sealed, in the order it stored them. -/
def recordedHere (t : Terminal) : List (EventEnvelope Payload) :=
  (t.store.tagged.filter (·.2 = .local)).map (·.1)

/-- A call adds to the log what it prepared and could write, and nothing otherwise. -/
theorem perform_recordedHere (digests : Digests) (writable : Bool) (occurredAt : Timestamp)
    (t : Terminal) (call : Call) :
    ∃ new, (t.perform digests writable occurredAt call).1.recordedHere = t.recordedHere ++ new ∧
      ∀ e ∈ new, writable = true ∧ ∃ p, t.prepare digests occurredAt call = .ok p ∧
        ∃ recorded ∈ p.events, e.read = some recorded.2 := by
  rw [perform_eq_commit]
  rcases commit_cases digests writable occurredAt t (t.prepare digests occurredAt call) with
    ⟨error, -, hcommit⟩ | ⟨p, chain, error, -, -, hcommit⟩ |
    ⟨p, chain, es, store, hprepare, hwritable, hseal, hstore, hcommit⟩
  · rw [hcommit]
    exact ⟨[], (List.append_nil _).symm, fun _ h => absurd h List.not_mem_nil⟩
  · rw [hcommit]
    exact ⟨[], (List.append_nil _).symm, fun _ h => absurd h List.not_mem_nil⟩
  · refine ⟨es, ?_, ?_⟩
    · rw [hcommit]
      -- all that a call appends is recorded here
      show (store.tagged.filter (·.2 = .local)).map (·.1) = _
      rw [(EventStore.appendAll_tagged hstore).2.2.1, List.filter_append, List.map_append]
      refine congrArg _ ?_
      rw [List.filter_eq_self.mpr]
      · rw [List.map_map, Function.comp_def, List.map_id']
      · intro tagged htagged
        obtain ⟨e, -, rfl⟩ := List.mem_map.mp htagged
        rfl
    · intro e he
      obtain ⟨recorded, hrecorded, hcarries⟩ :=
        forall₂_mem_right (sealAll_eq_ok hseal).2.2.2 he
      exact ⟨hwritable, p, hprepare, recorded, hrecorded, hcarries.read⟩

/-- A sync round records nothing here. -/
theorem sync_recordedHere (digests : Digests) (t : Terminal) (transport : Transport Payload)
    (nowMillis : I64) :
    (t.sync digests transport nowMillis).1.recordedHere = t.recordedHere := by
  obtain ⟨es, ⟨-, new, hnew, -⟩, -⟩ :=
    EventStore.syncOnce_pulledInto digests.event t.store transport nowMillis
  unfold recordedHere
  rw [(sync_keeps digests t transport nowMillis).1, hnew, List.filter_append]
  have hnone : (new.map (·, Origin.remote)).filter (·.2 = .local) = [] := by
    rw [List.filter_eq_nil_iff]
    intro tagged htagged
    obtain ⟨e, -, rfl⟩ := List.mem_map.mp htagged
    simp
  rw [hnone, List.append_nil]

/-- A restart keeps the store. -/
theorem load_store {digests : Digests} {store : EventStore Payload}
    {identity : DeviceIdentity} {t : Terminal} (h : load digests store identity = .ok t) :
    t.store = store := by
  obtain ⟨_, -, h⟩ := Except.bind_eq_ok.mp h
  obtain ⟨loaded, -, h⟩ := Except.bind_eq_ok.mp h
  obtain ⟨shift, -, h⟩ := Except.bind_eq_ok.mp h
  cases h
  rfl

end Terminal

/-- A till, and whether anybody is at it. -/
structure AttendedTerminal extends Terminal where
  session : Presence

namespace AttendedTerminal

def desk (t : AttendedTerminal) : Desk := ⟨t.staff, t.session⟩

/-- What a cashier may do here unaided: nothing, where the outlet is not set up. -/
def approvalPolicy (t : AttendedTerminal) : ApprovalPolicy :=
  (t.outlet.map (·.approval)).getD (.strictest .bdt)

end AttendedTerminal

end Sahl
