import Mathlib.Tactic
import Sahl.Lib.Transition
import Sahl.Server.Push
import Sahl.Sync.Engine

/-! # Push safety

    One device pushes to its server. Batches and answers may be lost, and the device's database
    may be put back to an older backup, after which sequence numbers are used again. A batch that
    lies wholly at or below the server's tip is answered without a look at its hashes, so a
    forked till can mark events the server never saw (`push_unsafe`). Where such an answer is
    acknowledged only by a till that agrees with the server at the one position both reach, every
    marked event is in the server's log (`push_safe`). -/

namespace Sahl

variable {V : Type}

/-! ## Section 1: The two parties -/

structure PushState (V : Type) where
  server : Server V
  store : EventStore V
  /-- Copies of the database. -/
  backups : List (EventStore V)
  /-- The number and batch of the round that waits for its answer. -/
  round : Option (Nat × List (EventEnvelope V))
  rounds : Nat
  /-- Every batch ever sent. -/
  sent : List (Nat × List (EventEnvelope V))
  /-- The answer to the round. -/
  answer : Option PushResponse
  /-- Every event the device ever recorded, in whatever copy. -/
  recorded : List (EventEnvelope V)

namespace PushState

/-- A server that has stored nothing, and a device that has recorded nothing. -/
structure Fresh (s : PushState V) : Prop where
  server : s.server.Fresh
  store : s.store = EventStore.fresh s.store.deviceId
  backups : s.backups = []
  round : s.round = none
  sent : s.sent = []
  answer : s.answer = none
  recorded : s.recorded = []

/-- The server's log of the device. -/
def log (s : PushState V) : List (EventEnvelope V) := s.server.db.log s.store.deviceId

inductive Action (V : Type) where
  /-- The device seals an event onto its chain and stores it. -/
  | record (header : EventHeader) (payload : EventPayload V)
  | backup
  /-- The database is put back to a copy; a round in progress is gone. -/
  | restore (store : EventStore V)
  /-- A round sends its batch. -/
  | send
  /-- A batch that was sent reaches the server, now, late, or again. -/
  | deliver (n : Nat) (batch : List (EventEnvelope V)) (t : Nat)
  /-- The answer reaches the device. -/
  | acknowledge (nowMillis : I64)
  /-- The round ends without an answer: refused, or lost. -/
  | giveUp

/-- What a delivery tells the round in progress. -/
def answerOf (s : PushState V) (n : Nat)
    (result : Except SyncRejection PushResponse) : Option PushResponse :=
  match result with
  | .ok response => if s.round.map (·.1) = some n then some response else s.answer
  | .error _ => s.answer

def step (digest : HashFunction V) (s : PushState V) : Action V → PushState V → Prop
  | .record header payload, s' => ∃ event chain store,
      (EventChain.resume s.store.deviceId s.store.tip).append digest header payload =
        .ok (event, chain) ∧
      s.store.append event = .ok store ∧
      s' = { s with store, recorded := s.recorded ++ [event] }
  | .backup, s' => s' = { s with backups := s.store :: s.backups }
  | .restore store, s' => store ∈ s.backups ∧ s' = { s with store, round := none, answer := none }
  | .send, s' => s.round = none ∧ s.store.nextBatch ≠ [] ∧
      s' = { s with round := some (s.rounds, s.store.nextBatch), rounds := s.rounds + 1,
                    sent := s.sent ++ [(s.rounds, s.store.nextBatch)], answer := none }
  | .deliver n batch t, s' => (n, batch) ∈ s.sent ∧
      ∃ server result,
        s.server.push digest t s.store.deviceId ⟨s.store.deviceId, batch⟩ = (server, result) ∧
        s' = { s with server, answer := s.answerOf n result }
  | .acknowledge nowMillis, s' => ∃ n batch response store,
      s.round = some (n, batch) ∧ s.answer = some response ∧
      s.store.acknowledge batch response nowMillis = .ok store ∧
      s' = { s with store, round := none, answer := none }
  | .giveUp, s' => s' = { s with round := none, answer := none }

/-- The runs a push is safe in: an answer that accepted nothing is acknowledged only where device
    and server hold one digest at the last number both reach. -/
def AgreesWhereStored (s : PushState V) : Action V → Prop
  | .acknowledge _ => ∀ response, s.answer = some response → response.accepted = 0 →
      ∀ e ∈ s.store.events, ∀ f ∈ s.log,
        e.deviceSeq = min response.tip.deviceSeq s.store.tip.deviceSeq →
          f.deviceSeq = e.deviceSeq → e.hash = f.hash
  | _ => True

/-! ## Section 2: The invariant -/

/-- A copy of the database holds one chain of the device, out of what it recorded. -/
structure LocalLog (digest : HashFunction V) (d : Uuid) (recorded : List (EventEnvelope V))
    (store : EventStore V) : Prop where
  device : store.deviceId = d
  chain : ChainFrom digest d ChainTip.genesis store.events
  recorded : ∀ e ∈ store.events, e ∈ recorded

/-- Every event marked in a copy of the database is in the server's log. -/
def Marked (s : PushState V) (store : EventStore V) : Prop :=
  ∀ row ∈ store.table.rows, row.syncedAt ≠ none → row.event ∈ s.log

structure Inv (digest : HashFunction V) (s : PushState V) : Prop where
  server : Server.Inv digest s.server
  store : LocalLog digest s.store.deviceId s.recorded s.store
  backups : ∀ store ∈ s.backups, LocalLog digest s.store.deviceId s.recorded store
  log : ∀ e ∈ s.log, e ∈ s.recorded
  sent : ∀ n batch, (n, batch) ∈ s.sent → n < s.rounds ∧ ∀ e ∈ batch, e ∈ s.recorded
  round : ∀ n batch, s.round = some (n, batch) → batch ≠ [] ∧
    (∀ e ∈ batch, e ∈ s.store.events) ∧ ∀ other, (n, other) ∈ s.sent → other = batch
  /-- The server's log reaches the answered tip; where the answer accepted events, the tip is an
      event both hold. -/
  answer : ∀ response, s.answer = some response → response.tip.deviceSeq ≤ s.log.length ∧
    (response.accepted ≠ 0 → ∃ e ∈ s.store.events, e ∈ s.log ∧
      e.deviceSeq = response.tip.deviceSeq)
  marked : HashChain.Committing EventEnvelope.hash s.recorded s.recorded →
    s.Marked s.store ∧ ∀ store ∈ s.backups, s.Marked store

theorem inv_fresh {digest : HashFunction V} {s : PushState V} (h : Fresh s) : Inv digest s := by
  have hrows : s.store.table.rows = [] := by
    rw [h.store]
    rfl
  have hevents : s.store.events = [] := by simp [EventStore.events, EventTable.events, hrows]
  have hlog : s.log = [] := by simp [log, Db.log, h.server.table]
  refine ⟨Server.inv_fresh h.server, ⟨rfl, ?_, ?_⟩, by simp [h.backups], by simp [hlog],
    by simp [h.sent], by simp [h.round], by simp [h.answer], fun _ => ⟨?_, by simp [h.backups]⟩⟩
  · rw [hevents]
    trivial
  · simp [hevents]
  · simp [Marked, hrows]

theorem inv_record {digest : HashFunction V} {s s' : PushState V} {header : EventHeader}
    {payload : EventPayload V} (h : Inv digest s)
    (hstep : step digest s (.record header payload) s') : Inv digest s' := by
  obtain ⟨e, chain, store, hseal, happend, rfl⟩ := hstep
  obtain ⟨hfollows, _⟩ := append_eq_ok hseal
  have hevents := EventStore.append_events happend
  obtain ⟨_, _, hdevice, _, hrows⟩ := EventStore.append_eq_ok happend
  -- recording only adds: to the store, and to what the device ever recorded
  have hgrows : ∀ a ∈ s.store.events, a ∈ store.events := fun a ha =>
    hevents ▸ List.mem_append_left _ ha
  have hmore : ∀ {a}, a ∈ s.recorded → a ∈ s.recorded ++ [e] := List.mem_append_left _
  have hlog : log { s with store, recorded := s.recorded ++ [e] } = s.log := by
    simp [log, hdevice]
  refine ⟨h.server, ⟨rfl, ?_, fun a ha => ?_⟩, fun b hb => ?_, fun a ha => ?_,
    fun n batch hsent => ?_, fun n batch hround => ?_, fun response hresponse => ?_, fun hcommit => ?_⟩
  · rw [EventStore.tip_of_chain h.store.chain] at hfollows
    rw [hevents, hdevice]
    exact chainFrom_concat.mpr ⟨h.store.chain, hfollows⟩
  · rw [hevents] at ha
    exact (List.mem_append.mp ha).elim (fun ha => hmore (h.store.recorded a ha))
      (List.mem_append_right _)
  · have hold := h.backups b hb
    exact ⟨hold.device.trans hdevice.symm, hdevice ▸ hold.chain, fun a ha => hmore (hold.recorded a ha)⟩
  · exact hmore (h.log a (hlog ▸ ha))
  · obtain ⟨hlt, hbatch⟩ := h.sent n batch hsent
    exact ⟨hlt, fun a ha => hmore (hbatch a ha)⟩
  · obtain ⟨hne, hbatch, hother⟩ := h.round n batch hround
    exact ⟨hne, fun a ha => hgrows a (hbatch a ha), hother⟩
  · obtain ⟨hle, htip⟩ := h.answer response hresponse
    rw [hlog]
    exact ⟨hle, fun hne => (htip hne).imp fun a ha => ⟨hgrows a ha.1, ha.2⟩⟩
  · obtain ⟨hstore, hbackups⟩ := h.marked (hcommit.mono (fun _ => hmore) fun _ => hmore)
    refine ⟨fun row hrow hmarked => ?_, fun b hb row hrow hmarked => ?_⟩
    · rw [hlog]
      rw [hrows, List.mem_append, List.mem_singleton] at hrow
      rcases hrow with hrow | rfl
      · exact hstore row hrow hmarked
      · exact absurd rfl hmarked
    · rw [hlog]
      exact hbackups b hb row hrow hmarked

theorem inv_restore {digest : HashFunction V} {s s' : PushState V} {store : EventStore V}
    (h : Inv digest s) (hstep : step digest s (.restore store) s') : Inv digest s' := by
  obtain ⟨hbackup, rfl⟩ := hstep
  have hold := h.backups store hbackup
  have hlog : log { s with store, round := none, answer := none } = s.log := by
    simp [log, hold.device]
  refine ⟨h.server, ⟨rfl, hold.device ▸ hold.chain, hold.recorded⟩, fun b hb => ?_, ?_, h.sent,
    by simp, by simp, fun hcommit => ⟨?_, fun b hb => ?_⟩⟩
  · rw [hold.device]
    exact h.backups b hb
  · rw [hlog]
    exact h.log
  · rw [Marked, hlog]
    exact (h.marked hcommit).2 store hbackup
  · rw [Marked, hlog]
    exact (h.marked hcommit).2 b hb

theorem inv_send {digest : HashFunction V} {s s' : PushState V} (h : Inv digest s)
    (hstep : step digest s .send s') : Inv digest s' := by
  obtain ⟨_, hne, rfl⟩ := hstep
  have hbatch : ∀ e ∈ s.store.nextBatch, e ∈ s.store.events := by
    intro e he
    obtain ⟨row, hrow, _, rfl⟩ := EventStore.mem_nextBatch he
    exact List.mem_map_of_mem hrow
  refine ⟨h.server, h.store, h.backups, h.log, fun n batch hsent => ?_, fun n batch hround => ?_,
    by simp, h.marked⟩
  · rcases List.mem_append.mp hsent with hsent | hsent
    · obtain ⟨hlt, hrecorded⟩ := h.sent n batch hsent
      exact ⟨hlt.trans (Nat.lt_succ_self _), hrecorded⟩
    · obtain ⟨rfl, rfl⟩ := Prod.mk.inj (List.mem_singleton.mp hsent)
      exact ⟨Nat.lt_succ_self _, fun e he => h.store.recorded e (hbatch e he)⟩
  · obtain ⟨rfl, rfl⟩ := Prod.mk.inj (Option.some.inj hround)
    refine ⟨hne, hbatch, fun other hother => ?_⟩
    rcases List.mem_append.mp hother with hother | hother
    · exact absurd (h.sent _ other hother).1 (lt_irrefl _)
    · exact (Prod.mk.inj (List.mem_singleton.mp hother)).2

/-- What a delivered batch leaves of the log, and what its answer says of it. -/
theorem deliver_log {digest : HashFunction V} {s : PushState V} {batch : List (EventEnvelope V)}
    {t : Nat} {server : Server V} {result : Except SyncRejection PushResponse}
    (h : Server.Inv digest s.server)
    (hpush : s.server.push digest t s.store.deviceId ⟨s.store.deviceId, batch⟩ = (server, result)) :
    Server.Inv digest server ∧
      (∀ e ∈ s.log, e ∈ server.db.log s.store.deviceId) ∧
      s.log.length ≤ (server.db.log s.store.deviceId).length ∧
      (∀ e ∈ server.db.log s.store.deviceId, e ∈ s.log ∨ e ∈ batch) ∧
      ∀ response, result = .ok response →
        response.tip.deviceSeq ≤ (server.db.log s.store.deviceId).length ∧
          (response.accepted ≠ 0 → ∃ e ∈ batch, e ∈ server.db.log s.store.deviceId ∧
            e.deviceSeq = response.tip.deviceSeq) := by
  obtain ⟨server', result', hpush', hinv, hcases⟩ :=
    Server.push_cases t s.store.deviceId ⟨s.store.deviceId, batch⟩ h
  obtain ⟨rfl, rfl⟩ := Prod.mk.inj (hpush'.symm.trans hpush)
  obtain ⟨hdb, hanswer⟩ | ⟨k, response, _, rfl, hne, haccepted, hlog, htip, _⟩ := hcases
  · -- a push that stores nothing answers with the tip as it stands
    rw [hdb]
    refine ⟨hinv, fun e he => he, le_rfl, fun e he => .inl he, fun response hresponse => ?_⟩
    obtain ⟨hzero, record, _, hrecord, htip, _⟩ := hanswer response hresponse
    obtain ⟨hchain, hrecordTip⟩ := h.chain _ record hrecord
    refine ⟨?_, fun hne => absurd hzero hne⟩
    rw [htip, hrecordTip, endTip_deviceSeq hchain]
    simp [ChainTip.genesis]
  · have hchain := hinv.log_chain s.store.deviceId
    refine ⟨hinv, fun e he => ?_, ?_, fun e he => ?_, fun response' hresponse => ?_⟩
    · rw [hlog]
      exact List.mem_append_left _ he
    · rw [hlog, List.length_append]
      exact Nat.le_add_right _ _
    · rw [hlog] at he
      exact (List.mem_append.mp he).imp_right List.mem_of_mem_drop
    · cases hresponse
      refine ⟨?_, fun _ => ?_⟩
      · rw [htip, endTip_deviceSeq hchain]
        simp [ChainTip.genesis]
      · -- the new tip is the last event of the batch
        obtain ⟨es, e, hfresh⟩ := (List.eq_nil_or_concat _).resolve_left hne
        rw [List.concat_eq_append] at hfresh
        refine ⟨e, List.mem_of_mem_drop (i := k) (by rw [hfresh]; simp), ?_, ?_⟩
        · rw [hlog, hfresh]
          simp
        · rw [htip, hlog, hfresh, ← List.append_assoc, endTip_concat]
          rfl

theorem answerOf_eq_some {s : PushState V} {n : Nat}
    {result : Except SyncRejection PushResponse} {response : PushResponse}
    (h : s.answerOf n result = some response) :
    s.answer = some response ∨ result = .ok response ∧ ∃ batch, s.round = some (n, batch) := by
  unfold answerOf at h
  split at h
  · split at h
    · rename_i hround
      obtain ⟨⟨m, batch⟩, hbatch, rfl⟩ := Option.map_eq_some_iff.mp hround
      exact .inr ⟨by rw [Option.some.inj h], batch, hbatch⟩
    · exact .inl h
  · exact .inl h

theorem inv_deliver {digest : HashFunction V} {s s' : PushState V} {n t : Nat}
    {batch : List (EventEnvelope V)} (h : Inv digest s)
    (hstep : step digest s (.deliver n batch t) s') : Inv digest s' := by
  obtain ⟨hsent, server, result, hpush, rfl⟩ := hstep
  obtain ⟨hserver, hgrows, hlength, honly, hanswer⟩ := deliver_log h.server hpush
  have hmarked : ∀ store, s.Marked store → Marked { s with server, answer := s.answerOf n result }
      store := fun store hmarked row hrow hsynced => hgrows _ (hmarked row hrow hsynced)
  refine ⟨hserver, h.store, h.backups, fun e he => ?_, h.sent, h.round, fun response hresponse => ?_,
    fun hcommit => ?_⟩
  · exact (honly e he).elim (h.log e) ((h.sent n batch hsent).2 e)
  · have hold : s.answer = some response →
        response.tip.deviceSeq ≤ (server.db.log s.store.deviceId).length ∧
          (response.accepted ≠ 0 → ∃ e ∈ s.store.events,
            e ∈ server.db.log s.store.deviceId ∧ e.deviceSeq = response.tip.deviceSeq) := by
      intro hresponse
      obtain ⟨hle, htip⟩ := h.answer response hresponse
      exact ⟨hle.trans hlength, fun hne => (htip hne).imp fun e he => ⟨he.1, hgrows e he.2.1, he.2.2⟩⟩
    rcases answerOf_eq_some hresponse with hprevious | ⟨rfl, other, hround⟩
    · exact hold hprevious
    · -- the answer is to the round in progress, whose batch is in the store
      obtain ⟨_, hbatch, hother⟩ := h.round n other hround
      obtain rfl := hother batch hsent
      obtain ⟨hle, htip⟩ := hanswer response rfl
      exact ⟨hle, fun hne => (htip hne).imp fun e he => ⟨hbatch e he.1, he.2⟩⟩
  · obtain ⟨hstore, hbackups⟩ := h.marked hcommit
    exact ⟨hmarked _ hstore, fun b hb => hmarked b (hbackups b hb)⟩

/-- Device and server agree up to the answered tip, or up to the end of the shorter log. -/
theorem acknowledge_agrees {digest : HashFunction V} {s : PushState V} {n : Nat} {now : I64}
    {batch : List (EventEnvelope V)} {response : PushResponse} (h : Inv digest s)
    (hguard : AgreesWhereStored s (.acknowledge now))
    (hcommit : HashChain.Committing EventEnvelope.hash s.recorded s.recorded)
    (hround : s.round = some (n, batch)) (hanswer : s.answer = some response)
    {e : EventEnvelope V} (he : e ∈ s.store.events)
    (hle : e.deviceSeq ≤ response.tip.deviceSeq) : e ∈ s.log := by
  have hlogChain := h.server.log_chain s.store.deviceId
  have hcommit' : HashChain.Committing EventEnvelope.hash s.store.events s.log :=
    hcommit.mono h.store.recorded h.log
  obtain ⟨htipLe, htip⟩ := h.answer response hanswer
  obtain ⟨i, hseq, hat⟩ := chainFrom_genesis_getElem h.store.chain he
  obtain ⟨hi, _⟩ := List.getElem?_eq_some_iff.mp hat
  -- one shared event at or past `e` makes the logs agree on `e`
  have hshared : ∀ a ∈ s.store.events, ∀ b ∈ s.log, a.deviceSeq = b.deviceSeq → a.hash = b.hash →
      e.deviceSeq ≤ a.deviceSeq → e ∈ s.log := by
    intro a ha b hb hab hhash hea
    have htake := chainFrom_genesis_take_eq hcommit' h.store.chain hlogChain ha hb hab hhash
    have hmem : e ∈ s.store.events.take a.deviceSeq :=
      List.mem_of_getElem? (i := i) (by rw [List.getElem?_take_of_lt (by omega)]; exact hat)
    exact List.mem_of_mem_take (htake ▸ hmem)
  by_cases haccepted : response.accepted = 0
  · obtain ⟨hne, hbatch, _⟩ := h.round n batch hround
    have hstoreTip : s.store.tip.deviceSeq = s.store.events.length := by
      rw [EventStore.tip_of_chain h.store.chain, endTip_deviceSeq h.store.chain]
      simp [ChainTip.genesis]
    -- the position both reach
    obtain ⟨m, hm⟩ : ∃ m, min response.tip.deviceSeq s.store.tip.deviceSeq = m + 1 :=
      Nat.exists_eq_add_one.mpr (by omega)
    have hlocal : m < s.store.events.length := by omega
    have hremote : m < s.log.length := by omega
    have ha := List.getElem?_eq_getElem hlocal
    have hb := List.getElem?_eq_getElem hremote
    have haSeq := (chainFrom_getElem h.store.chain ha).1
    have hbSeq := (chainFrom_getElem hlogChain hb).1
    simp only [ChainTip.genesis] at haSeq hbSeq
    refine hshared _ (List.getElem_mem hlocal) _ (List.getElem_mem hremote) (by omega) ?_ (by omega)
    exact hguard response hanswer haccepted _ (List.getElem_mem hlocal) _
      (List.getElem_mem hremote) (by omega) (by omega)
  · obtain ⟨a, ha, hlog, haSeq⟩ := htip haccepted
    exact hshared a ha a hlog rfl rfl (haSeq ▸ hle)

theorem inv_acknowledge {digest : HashFunction V} {s s' : PushState V} {now : I64}
    (h : Inv digest s) (hguard : AgreesWhereStored s (.acknowledge now))
    (hstep : step digest s (.acknowledge now) s') : Inv digest s' := by
  obtain ⟨n, batch, response, store, hround, hanswer, hack, rfl⟩ := hstep
  obtain ⟨_, rfl⟩ := EventStore.acknowledge_eq_ok hack
  refine ⟨h.server, ⟨rfl, ?_, ?_⟩, h.backups, h.log, h.sent, by simp, by simp, fun hcommit => ?_⟩
  · rw [EventStore.markSynced_events]
    exact h.store.chain
  · rw [EventStore.markSynced_events]
    exact h.store.recorded
  · obtain ⟨hstore, hbackups⟩ := h.marked hcommit
    refine ⟨fun row hrow hmarked => ?_, hbackups⟩
    rcases EventStore.mem_markSynced hrow with hold | ⟨hevent, hle⟩
    · exact hstore row hold hmarked
    · exact acknowledge_agrees h hguard hcommit hround hanswer hevent hle

theorem inv_step {digest : HashFunction V} {s s' : PushState V} {a : Action V} (h : Inv digest s)
    (hstep : Transition.Guarded (step digest) AgreesWhereStored s a s') : Inv digest s' := by
  obtain ⟨hguard, hstep⟩ := hstep
  cases a with
  | record header payload => exact inv_record h hstep
  | backup =>
    obtain rfl := hstep
    refine ⟨h.server, h.store, fun b hb => ?_, h.log, h.sent, h.round, h.answer, fun hcommit => ?_⟩
    · exact (List.mem_cons.mp hb).elim (fun hb => hb ▸ h.store) (h.backups b)
    · obtain ⟨hstore, hbackups⟩ := h.marked hcommit
      refine ⟨hstore, fun b hb => ?_⟩
      rcases List.mem_cons.mp hb with rfl | hb
      · exact hstore
      · exact hbackups b hb
  | restore store => exact inv_restore h hstep
  | send => exact inv_send h hstep
  | deliver n batch t => exact inv_deliver h hstep
  | acknowledge now => exact inv_acknowledge h hguard hstep
  | giveUp =>
    obtain rfl := hstep
    exact ⟨h.server, h.store, h.backups, h.log, h.sent, by simp, by simp, h.marked⟩

/-! ## Section 3: Safety -/

/-- **Push safety**: in a run whose empty answers are acknowledged only in agreement, every event
    marked as synced stands in the server's log under its number and digest, as long as no two
    recorded events have one digest. -/
theorem push_safe {digest : HashFunction V} {s : PushState V}
    (h : Transition.Reachable Fresh (Transition.Guarded (step digest) AgreesWhereStored) s)
    (hcommit : HashChain.Committing EventEnvelope.hash s.recorded s.recorded)
    {row : StoredEvent V} (hrow : row ∈ s.store.table.rows) (hmarked : row.syncedAt ≠ none) :
    ∃ e ∈ s.log, e.deviceSeq = row.event.deviceSeq ∧ e.hash = row.event.hash := by
  have hinv := h.invariant (I := Inv digest) (fun _ => inv_fresh) fun _ _ _ => inv_step
  exact ⟨row.event, (hinv.marked hcommit).1 row hrow hmarked, rfl, rfl⟩

/-- A round of `push_pending` that returns is a run of the two parties. -/
theorem pushPending_run {digest : HashFunction V} {s : PushState V} {t : Nat} {server : Server V}
    {transport : Transport V} {now : I64} {outcome : SyncOutcome} {store : EventStore V}
    (hround : s.round = none)
    (hserver : s.server.push digest t s.store.deviceId ⟨s.store.deviceId, s.store.nextBatch⟩ =
      (server, transport.push s.store.nextBatch))
    (h : s.store.pushPending transport now = .ok (outcome, store)) :
    store = s.store ∨ Transition.Run (step digest) s
      [.send, .deliver s.rounds s.store.nextBatch t, .acknowledge now]
      { s with server, store, round := none, rounds := s.rounds + 1,
               sent := s.sent ++ [(s.rounds, s.store.nextBatch)], answer := none } := by
  simp only [EventStore.pushPending] at h
  split at h
  · cases h
    exact .inl rfl
  rename_i hpending
  simp only [Except.bind_eq_ok, Except.mapError_eq_ok] at h
  obtain ⟨response, hresponse, store', hack, h⟩ := h
  cases h
  have hne : s.store.nextBatch ≠ [] := EventStore.nextBatch_ne_nil (by simpa using hpending)
  -- sent, delivered as it was sent, and acknowledged
  refine .inr (.cons _ _ ⟨hround, hne, rfl⟩ (.cons _ _
    ⟨List.mem_append_right _ List.mem_cons_self, server, _, hserver, rfl⟩ (.cons _ _
      ⟨s.rounds, s.store.nextBatch, response, store, rfl, ?_, hack, rfl⟩ (.nil _))))
  simp [answerOf, hresponse]

/-! ### A till put back to a backup -/

/-- Till 4, with nothing recorded. -/
def newTill : PushState Unit :=
  { server := Server.threeTills, store := EventStore.fresh 4, backups := [], round := none,
    rounds := 0, sent := [], answer := none, recorded := [] }

theorem newTill_fresh : Fresh newTill := ⟨Server.threeTills_fresh, rfl, rfl, rfl, rfl, rfl, rfl⟩

/-- What till 4 records, under either of two event ids, as its first event. -/
def idHeader (id : Uuid) : EventHeader := ⟨id, 1, 2, 4, ⟨I64.lit 0⟩⟩

def firstOf (id : Uuid) : EventEnvelope Unit := Server.idEvent 4 id 1 EventHash.genesis

/-- The store of till 4 once it has recorded one event. -/
def storeOf (id : Uuid) (syncedAt : Option I64) : EventStore Unit :=
  ⟨4, ⟨[⟨firstOf id, .local, syncedAt, none⟩], by simp [DistinctKeys]⟩, 0⟩

/-- The server once it has stored the first event of till 4. -/
def storedFirst : Server Unit := (Server.threeTills.push Server.idDigest 0 4 ⟨4, [firstOf 10]⟩).1

/-- What it answers to a batch of till 4 from then on. -/
def takingFirst : Transport Unit where
  push batch := (storedFirst.push Server.idDigest 0 4 ⟨4, batch⟩).2
  pull _ _ := .error .unavailable

/-- Till 4 records event 10, is put back to the copy it made before, records event 11 under the
    same number, and pushes it. -/
def forkedTill : PushState Unit :=
  { server := storedFirst, store := storeOf 11 (some (I64.lit 9)), backups := [EventStore.fresh 4],
    round := none, rounds := 2, sent := [(0, [firstOf 10]), (1, [firstOf 11])], answer := none,
    recorded := [firstOf 10, firstOf 11] }

theorem forkedTill_reachable :
    Transition.Reachable Fresh (step Server.idDigest) forkedTill := by
  let Reaches := Transition.Reachable Fresh (step Server.idDigest)
  have hbackup : Reaches { newTill with backups := [EventStore.fresh 4] } :=
    .step .backup (.init newTill_fresh) rfl
  have hrecorded : Reaches ⟨Server.threeTills, storeOf 10 none, [EventStore.fresh 4], none, 0, [],
      none, [firstOf 10]⟩ :=
    .step (.record (idHeader 10) ⟨"sale.started", .ok ()⟩) hbackup ⟨_, _, _, rfl, rfl, rfl⟩
  have hsent : Reaches ⟨Server.threeTills, storeOf 10 none, [EventStore.fresh 4],
      some (0, [firstOf 10]), 1, [(0, [firstOf 10])], none, [firstOf 10]⟩ :=
    .step .send hrecorded ⟨rfl, by decide, rfl⟩
  have hdelivered : Reaches ⟨storedFirst, storeOf 10 none, [EventStore.fresh 4],
      some (0, [firstOf 10]), 1, [(0, [firstOf 10])],
      some ⟨1, 0, (firstOf 10).tip, 1⟩, [firstOf 10]⟩ :=
    .step (.deliver 0 [firstOf 10] 0) hsent ⟨List.mem_cons_self, _, _, rfl, rfl⟩
  -- the backup is put back before the answer arrives, and another first event is recorded
  have hrestored : Reaches ⟨storedFirst, EventStore.fresh 4, [EventStore.fresh 4], none, 1,
      [(0, [firstOf 10])], none, [firstOf 10]⟩ :=
    .step (.restore (EventStore.fresh 4)) hdelivered ⟨List.mem_cons_self, rfl⟩
  have hforked : Reaches ⟨storedFirst, storeOf 11 none, [EventStore.fresh 4], none, 1,
      [(0, [firstOf 10])], none, [firstOf 10, firstOf 11]⟩ :=
    .step (.record (idHeader 11) ⟨"sale.started", .ok ()⟩) hrestored ⟨_, _, _, rfl, rfl, rfl⟩
  -- it is pushed, and the round is answered
  have hpushed : (storeOf 11 none).pushPending takingFirst (I64.lit 9) =
      .ok (⟨0, 1, 0, false⟩, storeOf 11 (some (I64.lit 9))) := rfl
  rcases @pushPending_run _ Server.idDigest
    ⟨storedFirst, storeOf 11 none, [EventStore.fresh 4], none, 1, [(0, [firstOf 10])], none,
      [firstOf 10, firstOf 11]⟩ 0 storedFirst takingFirst _ _ _ rfl rfl hpushed with hsame | hrun
  · exact absurd (congrArg EventStore.unsynced hsame) (by decide)
  · exact hforked.run hrun

/-- Event 11 is marked as synced; the server's event of that number is event 10. -/
theorem push_unsafe : ¬ ∀ (s : PushState Unit) (row : StoredEvent Unit),
    Transition.Reachable Fresh (step Server.idDigest) s →
      HashChain.Committing EventEnvelope.hash s.recorded s.recorded →
        row ∈ s.store.table.rows → row.syncedAt ≠ none →
          ∃ e ∈ s.log, e.deviceSeq = row.event.deviceSeq ∧ e.hash = row.event.hash := by
  intro h
  have hcommit : HashChain.Committing EventEnvelope.hash forkedTill.recorded
      forkedTill.recorded := by
    unfold HashChain.Committing
    decide
  have hmarked := h forkedTill ⟨firstOf 11, .local, some (I64.lit 9), none⟩ forkedTill_reachable
    hcommit (List.mem_cons_self) (by decide)
  exact absurd hmarked (by decide)

/-- Till 4 has pushed its first event and been answered. -/
def syncedTill : PushState Unit :=
  { server := storedFirst, store := storeOf 10 (some (I64.lit 9)), backups := [], round := none,
    rounds := 1, sent := [(0, [firstOf 10])], answer := none, recorded := [firstOf 10] }

theorem syncedTill_reachable : Transition.Reachable Fresh
    (Transition.Guarded (step Server.idDigest) AgreesWhereStored) syncedTill := by
  let Reaches := Transition.Reachable Fresh
    (Transition.Guarded (step Server.idDigest) AgreesWhereStored)
  have hrecorded : Reaches ⟨Server.threeTills, storeOf 10 none, [], none, 0, [], none,
      [firstOf 10]⟩ :=
    .step (.record (idHeader 10) ⟨"sale.started", .ok ()⟩) (.init newTill_fresh)
      ⟨trivial, _, _, _, rfl, rfl, rfl⟩
  have hsent : Reaches ⟨Server.threeTills, storeOf 10 none, [], some (0, [firstOf 10]), 1,
      [(0, [firstOf 10])], none, [firstOf 10]⟩ :=
    .step .send hrecorded ⟨trivial, rfl, by decide, rfl⟩
  have hanswered : Reaches ⟨storedFirst, storeOf 10 none, [], some (0, [firstOf 10]), 1,
      [(0, [firstOf 10])], some ⟨1, 0, (firstOf 10).tip, 1⟩, [firstOf 10]⟩ :=
    .step (.deliver 0 [firstOf 10] 0) hsent ⟨trivial, List.mem_cons_self, _, _, rfl, rfl⟩
  refine .step (.acknowledge (I64.lit 9)) hanswered ⟨?_, _, _, _, _, rfl, rfl, rfl, rfl⟩
  -- the server accepted the event
  intro response hresponse haccepted
  obtain rfl := Option.some.inj hresponse
  cases haccepted

theorem push_safe_syncedTill :
    ∃ e ∈ syncedTill.log, e.deviceSeq = 1 ∧ e.hash = (firstOf 10).hash := by
  have hcommit : HashChain.Committing EventEnvelope.hash syncedTill.recorded
      syncedTill.recorded := by
    unfold HashChain.Committing
    decide
  have hrow : ⟨firstOf 10, .local, some (I64.lit 9), none⟩ ∈ syncedTill.store.table.rows :=
    List.mem_cons_self
  exact push_safe syncedTill_reachable hcommit hrow (by decide)

end PushState

end Sahl
