import Mathlib.Tactic
import Sahl.Server.Tenancy
import Sahl.Sync.Draining

/-! # The tills of an outlet

    Any number of tills record, push and pull, each on its own schedule, against one server that
    interleaves their pushes. Seen from one till, a run of all of them is a run of that till
    pulling, with a backlog that continues the server's chain (`TillInv`); what the server has of a
    device is a beginning of what the device recorded (`sound_reachable`). Where event ids are not
    used twice and no pull passes an open push, two tills of one outlet that have nothing left to
    push or to pull hold the same events (`tills_agree`). -/

namespace Sahl

variable {V : Type}

/-! ## Section 1: A till's own chain -/

namespace EventStore

/-- What a store has of its own device is one chain from genesis, sealed here. -/
structure OwnChain (digest : HashFunction V) (store : EventStore V) : Prop where
  chain : ChainFrom digest store.deviceId ChainTip.genesis
    (store.events.filter (·.deviceId = store.deviceId))
  sealedHere : ∀ tagged ∈ store.tagged, tagged.2 = .local ↔ tagged.1.deviceId = store.deviceId

namespace OwnChain

variable {digest : HashFunction V} {store store' : EventStore V}

theorem fresh (d : Uuid) : OwnChain digest (EventStore.fresh d) :=
  ⟨trivial, fun _ h => absurd h List.not_mem_nil⟩

theorem loadAll_eq (h : OwnChain digest store) :
    store.loadAll = store.events.filter (·.deviceId = store.deviceId) := by
  have hlocal : (store.tagged.filter (·.2 = .local)).map (·.1) =
      store.events.filter (·.deviceId = store.deviceId) := by
    rw [events_eq_tagged, List.filter_map]
    refine congrArg _ (List.filter_congr fun tagged htagged => ?_)
    exact decide_eq_decide.mpr (h.sealedHere tagged htagged)
  rw [loadAll_eq_tagged, hlocal]
  refine List.Pairwise.insertionSort_eq ?_
  have hsorted : ((store.events.filter (·.deviceId = store.deviceId)).map
      (·.deviceSeq)).Pairwise (· ≤ ·) := by
    rw [chainFrom_range h.chain]
    exact List.pairwise_le_range'
  exact List.pairwise_map.mp hsorted

/-- The tip of the store is where its own chain ends. -/
theorem tip_eq (h : OwnChain digest store) :
    store.tip = endTip ChainTip.genesis store.loadAll := by
  rw [h.loadAll_eq]
  exact tipWithin_of_chain h.chain

theorem of_tagged (h : OwnChain digest store) (hdevice : store'.deviceId = store.deviceId)
    (htagged : store'.tagged = store.tagged) : OwnChain digest store' := by
  refine ⟨?_, ?_⟩
  · rw [events_eq_tagged, htagged, hdevice, ← events_eq_tagged]
    exact h.chain
  · rw [htagged, hdevice]
    exact h.sealedHere

/-- An event that follows the tip goes to the end of the chain, and of the queue. -/
theorem append (h : OwnChain digest store) {e : EventEnvelope V}
    (hfollows : Follows digest store.deviceId store.tip e) (happend : store.append e = .ok store') :
    OwnChain digest store' ∧ store'.loadAll = store.loadAll ++ [e] ∧
      store'.unsynced = store.unsynced ++ [e] := by
  obtain ⟨-, -, hdevice, -, hrows⟩ := append_eq_ok happend
  have htagged := append_tagged happend
  have hown : store'.events.filter (·.deviceId = store'.deviceId) =
      store.events.filter (·.deviceId = store.deviceId) ++ [e] := by
    rw [append_events happend, List.filter_append, hdevice,
      List.filter_cons_of_pos (by simp [hfollows.device])]
    rfl
  have hchain : OwnChain digest store' := by
    refine ⟨?_, ?_⟩
    · rw [hown, hdevice, chainFrom_concat]
      refine ⟨h.chain, ?_⟩
      rw [← h.loadAll_eq, ← h.tip_eq]
      exact hfollows
    · rw [htagged, hdevice]
      intro tagged hmem
      rcases List.mem_append.mp hmem with hold | hnew
      · exact h.sealedHere tagged hold
      · rw [List.mem_singleton.mp hnew]
        simp [hfollows.device]
  have hbelow : ∀ a ∈ (store.table.rows.filter isPending).map (·.event),
      a.deviceSeq ≤ e.deviceSeq := by
    intro a ha
    obtain ⟨row, hrow, rfl⟩ := List.mem_map.mp ha
    obtain ⟨hrow, hpending⟩ := List.mem_filter.mp hrow
    have hlocal : row.origin = .local := (of_decide_eq_true hpending).1
    have htag : (row.event, row.origin) ∈ store.tagged := List.mem_map.mpr ⟨row, hrow, rfl⟩
    have hmine := (h.sealedHere _ htag).mp hlocal
    have hle : row.event.deviceSeq ≤ store.tip.deviceSeq :=
      le_tipWithin (List.mem_map_of_mem hrow) hmine
    have hseq := hfollows.seq
    omega
  refine ⟨hchain, by rw [hchain.loadAll_eq, hown, h.loadAll_eq], ?_⟩
  unfold unsynced
  rw [hrows, List.filter_append, List.map_append]
  exact insertionSort_concat hbelow

/-- Events of other devices leave the chain alone. -/
theorem pulled (h : OwnChain digest store) (hdevice : store'.deviceId = store.deviceId)
    {new : List (StoredEvent V)} (hrows : store'.table.rows = store.table.rows ++ new)
    (hnew : ∀ row ∈ new, row.origin = .remote ∧ row.event.deviceId ≠ store.deviceId) :
    OwnChain digest store' := by
  refine ⟨?_, ?_⟩
  · have hnone : (new.map (·.event)).filter (·.deviceId = store.deviceId) = [] := by
      rw [List.filter_eq_nil_iff]
      intro e he
      obtain ⟨row, hrow, rfl⟩ := List.mem_map.mp he
      simpa using (hnew row hrow).2
    have hevents : store'.events = store.events ++ new.map (·.event) := by
      simp [events, EventTable.events, hrows]
    rw [hevents, hdevice, List.filter_append, hnone, List.append_nil]
    exact h.chain
  · intro tagged hmem
    rw [EventStore.tagged, hrows, List.map_append] at hmem
    rw [hdevice]
    rcases List.mem_append.mp hmem with hold | hmem
    · exact h.sealedHere tagged hold
    · obtain ⟨row, hrow, rfl⟩ := List.mem_map.mp hmem
      simp [hnew row hrow]

end OwnChain

/-- Stores that hold the same events replay them in the same order. -/
theorem loadProjectionInput_eq {store store' : EventStore V}
    (h : store.events.Perm store'.events) :
    store.loadProjectionInput = store'.loadProjectionInput := by
  have hsorted : ∀ es : List (EventEnvelope V),
      (orderBy replayKey es).Pairwise fun a b => replayKey a ≤ replayKey b := fun es =>
    List.pairwise_insertionSort _ es
  have hperm : (orderBy replayKey store.events).Perm store.events := List.perm_insertionSort _ _
  refine List.Perm.eq_of_pairwise (fun a b ha hb hab hba => ?_) (hsorted _) (hsorted _)
    (hperm.trans (h.trans (List.perm_insertionSort _ _).symm))
  -- the ids tell apart what the instants do not
  have hid : a.eventId = b.eventId := congrArg (fun k => (ofLex k).2) (le_antisymm hab hba)
  exact store.table.distinct.eventId_inj (mem_orderBy.mp ha)
    (h.mem_iff.mpr (mem_orderBy.mp hb)) hid

/-- A page goes in as rows of siblings' events. -/
theorem applyPage_rows (digest : HashFunction V) (store : EventStore V) (page : PullResponse V) :
    ∃ new, (store.applyPage digest page).state.2.table.rows = store.table.rows ++ new ∧
      (∀ row ∈ new, row.origin = .remote ∧ row.event ∈ page.events) ∧
        (store.applyPage digest page).state.2.deviceId = store.deviceId := by
  obtain ⟨new, hrows, hnew⟩ := applyEvents_rows digest page.cursor page.events 0 store
  have hdevice := (applyEvents_applied digest page.cursor page.events 0 store).deviceId
  refine ⟨new, ?_, hnew, ?_⟩
  · unfold applyPage
    cases hanswer : (applyEvents digest page.cursor page.events 0 store).answer with
    | error error => simp only [hanswer]; exact hrows
    | ok u => simp only [hanswer]; exact hrows
  · unfold applyPage
    cases hanswer : (applyEvents digest page.cursor page.events 0 store).answer with
    | error error => simp only [hanswer]; exact hdevice
    | ok u => simp only [hanswer]; exact hdevice

end EventStore

/-! ## Section 2: The tills and their server -/

/-- A till, the batches it sent, and what the server answered it. -/
structure Till (V : Type) where
  store : EventStore V
  sent : List (List (EventEnvelope V))
  answers : List PushResponse
  pages : List (PullResponse V)

structure OutletState (V : Type) where
  server : Server V
  till : Uuid → Till V

namespace OutletState

/-- A server that has stored nothing, and tills that have recorded nothing. -/
structure Fresh (s : OutletState V) : Prop where
  server : s.server.Fresh
  till : ∀ d, s.till d = ⟨EventStore.fresh d, [], [], []⟩

def setTill (s : OutletState V) (d : Uuid) (till : Till V) : Uuid → Till V :=
  fun x => if x = d then till else s.till x

@[simp] theorem setTill_self (s : OutletState V) (d : Uuid) (till : Till V) :
    s.setTill d till d = till := by
  simp [setTill]

theorem setTill_ne (s : OutletState V) {d x : Uuid} (till : Till V) (h : x ≠ d) :
    s.setTill d till x = s.till x := by
  simp [setTill, h]

theorem setTill_same (s : OutletState V) (d : Uuid) : s.setTill d (s.till d) = s.till := by
  funext x
  by_cases hx : x = d
  · rw [hx, setTill_self]
  · exact setTill_ne s _ hx

theorem setTill_again (s : OutletState V) (server : Server V) (d : Uuid) (till till' : Till V) :
    OutletState.setTill ⟨server, s.setTill d till⟩ d till' = s.setTill d till' := by
  funext x
  by_cases hx : x = d
  · simp [setTill, hx]
  · simp [setTill, hx]

inductive Action (V : Type) where
  /-- A till seals an event onto its chain and stores it. -/
  | record (d : Uuid) (header : EventHeader) (payload : EventPayload V)
  /-- A round sends its batch. -/
  | send (d : Uuid)
  /-- A push transaction moves; it is opened for a batch that was sent, now, late, or again. -/
  | server (action : Server.Action V)
  /-- An answer to a push reaches the till, which compares it with a batch it sent. -/
  | acknowledge (d : Uuid) (batch : List (EventEnvelope V)) (response : PushResponse)
      (nowMillis : I64)
  /-- A round asks for the page above the cursor. -/
  | request (d : Uuid)
  /-- An answered page is applied, now, late, or again. -/
  | apply (d : Uuid) (page : PullResponse V)
  /-- A till stops after some events of a page. -/
  | crash (d : Uuid) (page : PullResponse V) (n : Nat)

/-- What a step of the server answers, and to whom. -/
def answerOf (digest : HashFunction V) (server : Server V) :
    Server.Action V → Option (Uuid × PushResponse)
  | .beginPush t d request =>
    match (server.beginPush digest t d request).2 with
    | .ok (some response) => some (d, response)
    | _ => none
  | .commit t =>
    match server.txns t, (server.commit t).2 with
    | some txn, .ok response => some (txn.deviceId, response)
    | _, _ => none
  | .insertNext _ | .abort _ => none

/-- The tills once an answer is on its way. -/
def answered (s : OutletState V) : Option (Uuid × PushResponse) → Uuid → Till V
  | none => s.till
  | some (d, response) =>
    s.setTill d { s.till d with answers := (s.till d).answers ++ [response] }

/-- A push brings a batch that its till sent. -/
def Brings (s : OutletState V) : Server.Action V → Prop
  | .beginPush _ d request => request.events ∈ (s.till d).sent
  | _ => True

def step (digest : HashFunction V) (s : OutletState V) : Action V → OutletState V → Prop
  | .record d header payload, s' => ∃ event chain store,
      (EventChain.resume d (s.till d).store.tip).append digest header payload =
        .ok (event, chain) ∧
      (s.till d).store.append event = .ok store ∧
      s' = { s with till := s.setTill d { s.till d with store } }
  | .send d, s' => (s.till d).store.nextBatch ≠ [] ∧
      s' = { s with till := s.setTill d { s.till d with
        sent := (s.till d).sent ++ [(s.till d).store.nextBatch] } }
  | .server action, s' => s.Brings action ∧ Server.step digest s.server action s'.server ∧
      s'.till = s.answered (answerOf digest s.server action)
  | .acknowledge d batch response nowMillis, s' =>
      batch ∈ (s.till d).sent ∧ response ∈ (s.till d).answers ∧ ∃ store,
        (s.till d).store.acknowledge batch response nowMillis = .ok store ∧
        s' = { s with till := s.setTill d { s.till d with store } }
  | .request d, s' => ∃ page,
      Server.servePull s.server.db d (s.till d).store.pullCursor pullPage = .ok page ∧
        s' = { s with till := s.setTill d { s.till d with pages := (s.till d).pages ++ [page] } }
  | .apply d page, s' => page ∈ (s.till d).pages ∧
      s' = { s with till := s.setTill d { s.till d with
        store := ((s.till d).store.applyPage digest page).state.2 } }
  | .crash d page n, s' => page ∈ (s.till d).pages ∧
      s' = { s with till := s.setTill d { s.till d with
        store := (EventStore.applyEvents digest page.cursor (page.events.take n) 0
          (s.till d).store).state.2 } }

/-- The outlet as the pulls of one till see it. -/
def pulling (s : OutletState V) (d : Uuid) : PullState V :=
  ⟨s.server, (s.till d).store, (s.till d).pages⟩

/-- The outlet as the rounds of one till see it. -/
def syncing (s : OutletState V) (d : Uuid) : SyncState V := ⟨s.server, (s.till d).store⟩

/-- The runs the tills agree in: no event id is used twice, and a pull reads no row numbered past
    one that an open push holds. -/
def Regular (s : OutletState V) : Action V → Prop
  | .record _ header _ => ∀ d, ∀ e ∈ (s.till d).store.events, e.eventId ≠ header.eventId
  | .request d => (s.pulling d).PassesNone .request
  | _ => True

end OutletState

/-! ## Section 3: One till among them -/

/-- What holds of one till and the server, whatever the other tills do. -/
structure TillInv (digest : HashFunction V) (server : Server V) (d : Uuid) (till : Till V) :
    Prop where
  device : till.store.deviceId = d
  own : till.store.OwnChain digest
  continues : SyncState.Continues digest ⟨server, till.store⟩
  /-- What the server has of the till, or is being sent, is of the till's chain. -/
  truth : Server.WithinTruth d till.store.loadAll server
  sent : ∀ batch ∈ till.sent, batch <:+: till.store.loadAll
  answers : ∀ response ∈ till.answers, response.tip.deviceSeq ≤ (server.db.log d).length
  remote : ∀ row ∈ till.store.table.rows, row.origin = .remote →
    Server.IsSibling server.db d row.event
  pages : ∀ page ∈ till.pages, ∀ e ∈ page.events,
    Server.IsSibling server.db d e ∧ e ∈ server.db.table.events

namespace TillInv

variable {digest : HashFunction V} {server : Server V} {d : Uuid} {till : Till V}

theorem fresh (hserver : server.Fresh) :
    TillInv digest server d ⟨EventStore.fresh d, [], [], []⟩ := by
  have hlog : server.db.log d = [] := by simp [Db.log, hserver.table]
  refine ⟨rfl, .fresh d, ⟨trivial, ?_, ⟨[], List.nil_prefix, rfl⟩, ?_⟩,
    Server.withinTruth_fresh _ _ hserver, ?_, ?_, ?_, ?_⟩
  · show server.db.log d <+: _
    rw [hlog]
    exact List.nil_prefix
  · intro row hrow
    cases hrow
  · intro batch hbatch
    cases hbatch
  · intro response hresponse
    cases hresponse
  · intro row hrow
    cases hrow
  · intro page hpage
    cases hpage

/-- The queue is the end of what the till recorded. -/
theorem unsynced_suffix (h : TillInv digest server d till) :
    till.store.unsynced <:+ till.store.loadAll := by
  obtain ⟨acked, -, hchain⟩ := h.continues.backlog
  exact ⟨acked, hchain.symm⟩

theorem nextBatch_infix (h : TillInv digest server d till) :
    till.store.nextBatch <:+: till.store.loadAll :=
  (List.take_prefix _ _).isInfix.trans h.unsynced_suffix.isInfix

/-- An event that the till has of another device is one of its siblings'. -/
theorem sibling (h : TillInv digest server d till) {e : EventEnvelope V}
    (he : e ∈ till.store.events) (hother : e.deviceId ≠ d) :
    Server.IsSibling server.db d e ∧ e ∈ server.db.table.events := by
  obtain ⟨row, hrow, rfl⟩ := List.mem_map.mp he
  have hremote : row.origin = .remote := by
    cases horigin : row.origin with
    | remote => rfl
    | «local» =>
      have hmine := (h.own.sealedHere _ (List.mem_map.mpr ⟨row, hrow, rfl⟩)).mp horigin
      exact absurd (hmine.trans h.device) hother
  exact ⟨h.remote row hrow hremote, h.continues.pulled row hrow hremote⟩

/-- What the till itself recorded is what it has under its name. -/
theorem mem_own (h : TillInv digest server d till) {e : EventEnvelope V} :
    e ∈ till.store.loadAll ↔ e ∈ till.store.events ∧ e.deviceId = d := by
  rw [h.own.loadAll_eq, List.mem_filter, decide_eq_true_eq, h.device]

/-! ### What the till does -/

theorem record {event : EventEnvelope V} {store : EventStore V} (h : TillInv digest server d till)
    (hfollows : Follows digest d till.store.tip event)
    (happend : till.store.append event = .ok store) :
    TillInv digest server d { till with store } := by
  obtain ⟨-, -, hdevice, -, hrows⟩ := EventStore.append_eq_ok happend
  rw [← h.device] at hfollows
  obtain ⟨hown, hall, hqueue⟩ := h.own.append hfollows happend
  have hgrown : till.store.loadAll <+: store.loadAll := hall ▸ List.prefix_append _ _
  have hlog : server.db.log till.store.deviceId <+: till.store.loadAll := h.continues.log
  refine ⟨hdevice.trans h.device, hown, ⟨?_, ?_, ?_, ?_⟩, ⟨?_, ?_⟩, ?_, h.answers, ?_, h.pages⟩
  · show ChainFrom digest store.deviceId _ store.loadAll
    rw [hown.loadAll_eq]
    exact hown.chain
  · show server.db.log store.deviceId <+: store.loadAll
    rw [hdevice]
    exact hlog.trans hgrown
  · obtain ⟨acked, hacked, hchain⟩ := h.continues.backlog
    refine ⟨acked, ?_, ?_⟩
    · show acked <+: server.db.log store.deviceId
      rw [hdevice]
      exact hacked
    · show store.loadAll = acked ++ store.unsynced
      rw [hall, hqueue, ← List.append_assoc]
      exact congrArg (· ++ [event]) hchain
  · intro row hrow hremote
    rw [hrows] at hrow
    rcases List.mem_append.mp hrow with hrow | hrow
    · exact h.continues.pulled row hrow hremote
    · rw [List.mem_singleton.mp hrow] at hremote
      cases hremote
  · exact h.truth.log.trans hgrown
  · exact fun t txn htxn hd => (h.truth.txn t txn htxn hd).trans hgrown.isInfix
  · exact fun batch hbatch => (h.sent batch hbatch).trans hgrown.isInfix
  · intro row hrow hremote
    rw [hrows] at hrow
    rcases List.mem_append.mp hrow with hrow | hrow
    · exact h.remote row hrow hremote
    · rw [List.mem_singleton.mp hrow] at hremote
      cases hremote

theorem send (h : TillInv digest server d till) :
    TillInv digest server d { till with sent := till.sent ++ [till.store.nextBatch] } := by
  refine ⟨h.device, h.own, h.continues, h.truth, ?_, h.answers, h.remote, h.pages⟩
  intro batch hbatch
  rcases List.mem_append.mp hbatch with hbatch | hbatch
  · exact h.sent batch hbatch
  · rw [List.mem_singleton.mp hbatch]
    exact h.nextBatch_infix

/-- An answer, however late, marks what the server's log has. -/
theorem acknowledge {response : PushResponse} (now : I64) (hserver : Server.Inv digest server)
    (h : TillInv digest server d till) (hresponse : response ∈ till.answers) :
    TillInv digest server d
      { till with store := till.store.markSynced response.tip.deviceSeq now } := by
  obtain ⟨acked, hacked, hchain, hstart, hqueue⟩ := h.continues.queue
  have hle := h.answers response hresponse
  have hfits := hserver.log_length_lt d
  have hall : (till.store.markSynced response.tip.deviceSeq now).loadAll = till.store.loadAll :=
    EventStore.markSynced_loadAll _ _ _
  have hunsynced : (till.store.markSynced response.tip.deviceSeq now).unsynced =
      till.store.unsynced.drop (response.tip.deviceSeq - acked.length) := by
    rw [EventStore.markSynced_unsynced _ (by omega), ← hstart]
    exact chainFrom_filter_lt hqueue _
  have hlog : server.db.log d <+: till.store.loadAll := h.truth.log
  refine ⟨h.device, h.own.of_tagged rfl (EventStore.markSynced_tagged _ _ _), ⟨?_, ?_, ?_, ?_⟩,
    ⟨?_, ?_⟩, ?_, h.answers, ?_, h.pages⟩
  · show ChainFrom digest till.store.deviceId _ (till.store.markSynced _ now).loadAll
    rw [hall]
    exact h.continues.chain
  · show server.db.log till.store.deviceId <+: (till.store.markSynced _ now).loadAll
    rw [hall]
    exact h.continues.log
  · -- what is acknowledged now reaches as far as the later of the two answers
    let k := response.tip.deviceSeq - acked.length
    refine ⟨acked ++ till.store.unsynced.take k, ?_, ?_⟩
    · show acked ++ till.store.unsynced.take k <+: server.db.log till.store.deviceId
      have hacked : acked <+: server.db.log till.store.deviceId := hacked
      have hchain : till.store.loadAll = acked ++ till.store.unsynced := hchain
      rw [h.device] at hacked ⊢
      refine List.prefix_of_prefix_length_le ?_ hlog ?_
      · rw [hchain]
        exact (List.prefix_append_right_inj _).mpr (List.take_prefix _ _)
      · have hshort := hacked.length_le
        rw [List.length_append, List.length_take]
        omega
    · show (till.store.markSynced _ now).loadAll = _ ++ (till.store.markSynced _ now).unsynced
      rw [hall, hunsynced, List.append_assoc, List.take_append_drop]
      exact hchain
  · intro row hrow hremote
    obtain ⟨old, hold, rfl⟩ := List.mem_map.mp hrow
    rw [EventStore.markRow_origin] at hremote
    rw [EventStore.markRow_event]
    exact h.continues.pulled old hold hremote
  · rw [hall]
    exact h.truth.log
  · rw [hall]
    exact h.truth.txn
  · rw [hall]
    exact h.sent
  · intro row hrow hremote
    obtain ⟨old, hold, rfl⟩ := List.mem_map.mp hrow
    rw [EventStore.markRow_origin] at hremote
    rw [EventStore.markRow_event]
    exact h.remote old hold hremote

theorem request {page : PullResponse V} (h : TillInv digest server d till)
    (hpage : Server.servePull server.db d till.store.pullCursor pullPage = .ok page) :
    TillInv digest server d { till with pages := till.pages ++ [page] } := by
  refine ⟨h.device, h.own, h.continues, h.truth, h.sent, h.answers, h.remote, ?_⟩
  intro old hold e he
  rcases List.mem_append.mp hold with hold | hold
  · exact h.pages old hold e he
  · rw [List.mem_singleton.mp hold] at he
    obtain ⟨record, hrecord, hevents, -⟩ := Server.servePull_eq_ok hpage
    rw [hevents] at he
    obtain ⟨row, hrow, rfl⟩ := List.mem_map.mp he
    obtain ⟨hstored, houtlet, hother, -⟩ := Server.mem_pullRows.mp (List.mem_of_mem_take hrow)
    refine ⟨⟨hother, ?_⟩, List.mem_map_of_mem hstored⟩
    rw [Server.Db.outletOf, hrecord, houtlet]
    rfl

/-- Rows of a page that was answered go in beside the till's own. -/
theorem pulled {store : EventStore V} {page : PullResponse V} {new : List (StoredEvent V)}
    (h : TillInv digest server d till) (hpage : page ∈ till.pages)
    (hdevice : store.deviceId = till.store.deviceId)
    (hrows : store.table.rows = till.store.table.rows ++ new)
    (hnew : ∀ row ∈ new, row.origin = .remote ∧ row.event ∈ page.events) :
    TillInv digest server d { till with store } := by
  have hsiblings : ∀ row ∈ new, Server.IsSibling server.db d row.event ∧
      row.event ∈ server.db.table.events := fun row hrow =>
    h.pages page hpage _ (hnew row hrow).2
  obtain ⟨hqueue, hall⟩ := EventStore.unsynced_of_remote hrows fun row hrow => (hnew row hrow).1
  refine ⟨hdevice.trans h.device, h.own.pulled hdevice hrows fun row hrow =>
    ⟨(hnew row hrow).1, ?_⟩, h.continues.of_same hdevice hall hqueue ?_, ?_, ?_, h.answers,
    ?_, h.pages⟩
  · rw [h.device]
    exact (hsiblings row hrow).1.1
  · intro row hrow hremote
    rw [hrows] at hrow
    rcases List.mem_append.mp hrow with hrow | hrow
    · exact h.continues.pulled row hrow hremote
    · exact (hsiblings row hrow).2
  · rw [hall]
    exact h.truth
  · rw [hall]
    exact h.sent
  · intro row hrow hremote
    rw [hrows] at hrow
    rcases List.mem_append.mp hrow with hrow | hrow
    · exact h.remote row hrow hremote
    · exact (hsiblings row hrow).1

/-! ### What the server does -/

/-- A push that is answered with the tip as it stands, or with the tip that it commits, is
    answered with a number the log reaches. -/
theorem answerOf_le {a : Server.Action V} {server' : Server V} {response : PushResponse}
    (hinv : Server.Inv digest server) (hstep : Server.step digest server a server')
    (hanswer : OutletState.answerOf digest server a = some (d, response)) :
    response.tip.deviceSeq ≤ (server'.db.log d).length := by
  have hinv' := Server.inv_step hinv hstep
  have hlength : ∀ record, server'.db.device d = some record →
      record.tip.deviceSeq = (server'.db.log d).length := by
    intro record hrecord
    obtain ⟨hchain, htip⟩ := hinv'.chain d record hrecord
    rw [htip, endTip_deviceSeq hchain]
    exact Nat.zero_add _
  cases a with
  | beginPush t x request =>
    obtain ⟨-, rfl⟩ := hstep
    simp only [OutletState.answerOf] at hanswer
    split at hanswer
    · rename_i answered hbegun
      cases hanswer
      rcases Server.beginPush_cases digest server t d request with
        ⟨answer, hs, -, hanswer⟩ | ⟨record, plan, -, -, hs⟩
      · rw [hs] at hbegun hlength ⊢
        obtain ⟨record, plan, hopen, -, -, -, htip⟩ := hanswer response hbegun
        rw [htip]
        exact (hlength record (Server.openPush_eq_ok hopen).1).le
      · rw [hs] at hbegun
        cases hbegun
    · cases hanswer
  | commit t =>
    obtain rfl := hstep
    simp only [OutletState.answerOf] at hanswer
    split at hanswer
    · rename_i txn answered htxn hcommitted
      cases hanswer
      obtain ⟨record, hrecord, -⟩ := (hinv.txn t txn htxn).device
      -- the answer of a commit that is not refused is the tip it leaves
      unfold Server.commit at hcommitted hlength ⊢
      simp only [htxn] at hcommitted hlength ⊢
      split at hcommitted
      · cases hcommitted
      · rename_i htodo
        rw [if_neg htodo] at hlength ⊢
        split at hcommitted
        · cases hcommitted
        · rename_i table htable
          cases hcommitted
          rw [htable] at hlength
          exact (hlength _ (Server.setTip_self _ hrecord)).le
    · cases hanswer
  | insertNext t => cases hanswer
  | abort t => cases hanswer

/-- A step of the server leaves each till what holds of it. -/
theorem serve {a : Server.Action V} {server' : Server V} (hinv : Server.Inv digest server)
    (h : TillInv digest server d till) (hstep : Server.step digest server a server')
    (hbrings : ∀ t request, a = .beginPush t d request → request.events ∈ till.sent)
    {answers : List PushResponse} (hanswers : ∀ response ∈ answers, response ∈ till.answers ∨
      OutletState.answerOf digest server a = some (d, response)) :
    TillInv digest server' d { till with answers } := by
  have hextends := Server.step_extends hinv hstep
  have houtlet : ∀ e, Server.IsSibling server'.db d e ↔ Server.IsSibling server.db d e := by
    intro e
    rw [Server.IsSibling, Server.IsSibling, (Server.step_inPlay hstep).1]
  have hchain : ChainFrom digest d ChainTip.genesis till.store.loadAll :=
    h.device ▸ h.continues.chain
  have hslices : Server.SlicesOf d till.store.loadAll server a := by
    cases a with
    | beginPush t x request =>
      intro hx
      subst hx
      exact h.sent _ (hbrings t request rfl)
    | insertNext | commit | abort => trivial
  have htruth := Server.withinTruth_step hchain hinv h.truth hslices hstep
  refine ⟨h.device, h.own, ⟨h.continues.chain, ?_, ?_, ?_⟩, htruth, h.sent, ?_, ?_, ?_⟩
  · show server'.db.log till.store.deviceId <+: till.store.loadAll
    rw [h.device]
    exact htruth.log
  · obtain ⟨acked, hacked, hqueue⟩ := h.continues.backlog
    exact ⟨acked, hacked.trans (hextends.log _), hqueue⟩
  · exact fun row hrow hremote => Server.step_events hstep (h.continues.pulled row hrow hremote)
  · intro response hresponse
    rcases hanswers response hresponse with hold | hnew
    · exact (h.answers response hold).trans (hextends.log d).length_le
    · exact answerOf_le hinv hstep hnew
  · exact fun row hrow hremote => (houtlet _).mpr (h.remote row hrow hremote)
  · exact fun page hpage e he => ⟨(houtlet e).mpr (h.pages page hpage e he).1,
      Server.step_events hstep (h.pages page hpage e he).2⟩

end TillInv

/-! ## Section 4: Every run -/

namespace OutletState

/-- What holds in every run. -/
structure Sound (digest : HashFunction V) (s : OutletState V) : Prop where
  server : Server.Inv digest s.server
  till : ∀ d, TillInv digest s.server d (s.till d)

theorem sound_fresh {digest : HashFunction V} {s : OutletState V} (h : Fresh s) :
    Sound digest s where
  server := Server.inv_fresh h.server
  till := fun d => by
    rw [h.till]
    exact .fresh h.server

/-- What a step does to one till is of no concern to the others. -/
theorem Sound.of_till {digest : HashFunction V} {s : OutletState V} {d : Uuid} {till : Till V}
    (h : Sound digest s) (htill : TillInv digest s.server d till) :
    Sound digest { s with till := s.setTill d till } := by
  refine ⟨h.server, fun x => ?_⟩
  show TillInv digest s.server x (s.setTill d till x)
  by_cases hx : x = d
  · subst hx
    rw [setTill_self]
    exact htill
  · rw [setTill_ne s till hx]
    exact h.till x

/-- Of a till, a step of the server changes only the answers it was given. -/
theorem server_till {digest : HashFunction V} {s s' : OutletState V} {a : Server.Action V}
    (hstep : step digest s (.server a) s') (d : Uuid) :
    ∃ answers, s'.till d = { s.till d with answers } ∧
      ∀ response ∈ answers, response ∈ (s.till d).answers ∨
        answerOf digest s.server a = some (d, response) := by
  rw [hstep.2.2]
  cases hanswer : answerOf digest s.server a with
  | none => exact ⟨_, rfl, fun response hresponse => .inl hresponse⟩
  | some answered =>
    obtain ⟨x, response⟩ := answered
    by_cases hx : d = x
    · subst hx
      refine ⟨_, setTill_self s d _, fun old hold => ?_⟩
      rcases List.mem_append.mp hold with hold | hold
      · exact .inl hold
      · rw [List.mem_singleton.mp hold]
        exact .inr rfl
    · exact ⟨_, setTill_ne s _ hx, fun old hold => .inl hold⟩

theorem sound_step {digest : HashFunction V} {s s' : OutletState V} {a : Action V}
    (h : Sound digest s) (hstep : step digest s a s') : Sound digest s' := by
  cases a with
  | record d header payload =>
    obtain ⟨event, chain, store, hseal, happend, rfl⟩ := hstep
    obtain ⟨hfollows, -⟩ := append_eq_ok hseal
    exact h.of_till ((h.till d).record hfollows happend)
  | send d =>
    obtain ⟨-, rfl⟩ := hstep
    exact h.of_till (h.till d).send
  | server a =>
    refine ⟨Server.inv_step h.server hstep.2.1, fun d => ?_⟩
    obtain ⟨answers, heq, hanswers⟩ := server_till hstep d
    rw [heq]
    refine (h.till d).serve h.server hstep.2.1 ?_ hanswers
    rintro t request rfl
    exact hstep.1
  | acknowledge d batch response now =>
    obtain ⟨-, hresponse, store, hack, rfl⟩ := hstep
    obtain ⟨-, rfl⟩ := EventStore.acknowledge_eq_ok hack
    exact h.of_till ((h.till d).acknowledge now h.server hresponse)
  | request d =>
    obtain ⟨page, hpage, rfl⟩ := hstep
    exact h.of_till ((h.till d).request hpage)
  | apply d page =>
    obtain ⟨hpage, rfl⟩ := hstep
    obtain ⟨new, hrows, hnew, hdevice⟩ := EventStore.applyPage_rows digest (s.till d).store page
    exact h.of_till ((h.till d).pulled hpage hdevice hrows hnew)
  | crash d page n =>
    obtain ⟨hpage, rfl⟩ := hstep
    obtain ⟨new, hrows, hnew⟩ := EventStore.applyEvents_rows digest page.cursor
      (page.events.take n) 0 (s.till d).store
    exact h.of_till ((h.till d).pulled hpage (EventStore.applyEvents_applied digest _ _ _ _).deviceId
      hrows fun row hrow => ⟨(hnew row hrow).1, List.mem_of_mem_take (hnew row hrow).2⟩)

theorem sound_reachable {digest : HashFunction V} {s : OutletState V}
    (h : Transition.Reachable Fresh (step digest) s) : Sound digest s :=
  h.invariant (fun _ => sound_fresh) fun _ _ _ => sound_step

/-- What the server has of a device is a beginning of what the device recorded. -/
theorem Sound.log_recorded {digest : HashFunction V} {s : OutletState V} (h : Sound digest s)
    (d : Uuid) : s.server.db.log d <+: (s.till d).store.loadAll :=
  (h.till d).truth.log

/-! ## Section 5: The runs the tills agree in -/

/-- What also holds where no event id is used twice and no pull passes an open push. -/
structure Inv (digest : HashFunction V) (s : OutletState V) : Prop extends Sound digest s where
  placed : s.server.Scoped
  pulling : ∀ d, (s.pulling d).Inv
  /-- An event id names one event, on whatever till. -/
  ids : ∀ d d' e e', e ∈ (s.till d).store.events → e' ∈ (s.till d').store.events →
    e.eventId = e'.eventId → e = e'

theorem inv_fresh {digest : HashFunction V} {s : OutletState V} (h : Fresh s) : Inv digest s where
  toSound := sound_fresh h
  placed := Server.scoped_fresh h.server
  pulling := fun d => by
    unfold OutletState.pulling
    rw [h.till]
    exact PullState.inv_fresh ⟨h.server, rfl, rfl⟩
  ids := fun d d' e e' he => by
    rw [h.till] at he
    cases he

/-- What the server has stored is on the till that recorded it. -/
theorem Inv.recorded {digest : HashFunction V} {s : OutletState V} (h : Inv digest s)
    {e : EventEnvelope V} (he : e ∈ s.server.db.table.events) :
    e ∈ (s.till e.deviceId).store.events := by
  have hlog : e ∈ s.server.db.log e.deviceId := Server.mem_log.mpr ⟨he, rfl⟩
  exact ((h.till _).mem_own.mp ((h.log_recorded _).subset hlog)).1

/-- A step of one till keeps the invariant, when every event the till has then was on some till, or
    has an id that none had. -/
theorem Inv.of_till {digest : HashFunction V} {s : OutletState V} {d : Uuid} {till : Till V}
    (h : Inv digest s) (hsound : Sound digest { s with till := s.setTill d till })
    (hpulling : PullState.Inv ⟨s.server, till.store, till.pages⟩)
    (hids : ∀ e ∈ till.store.events, (∃ x, e ∈ (s.till x).store.events) ∨
      ∀ x, ∀ a ∈ (s.till x).store.events, a.eventId ≠ e.eventId) :
    Inv digest { s with till := s.setTill d till } := by
  have hcross : ∀ e ∈ till.store.events, ∀ x, ∀ a ∈ (s.till x).store.events,
      e.eventId = a.eventId → e = a := by
    intro e he x a ha hid
    rcases hids e he with ⟨y, hold⟩ | hnew
    · exact h.ids y x e a hold ha hid
    · exact absurd hid.symm (hnew x a ha)
  refine ⟨hsound, h.placed, fun x => ?_, fun x y e e' he he' hid => ?_⟩
  · show PullState.Inv ⟨s.server, (s.setTill d till x).store, (s.setTill d till x).pages⟩
    by_cases hx : x = d
    · rw [hx, setTill_self]
      exact hpulling
    · rw [setTill_ne s till hx]
      exact h.pulling x
  · have he : e ∈ (s.setTill d till x).store.events := he
    have he' : e' ∈ (s.setTill d till y).store.events := he'
    by_cases hx : x = d
    · rw [hx, setTill_self] at he
      by_cases hy : y = d
      · rw [hy, setTill_self] at he'
        exact till.store.table.distinct.eventId_inj he he' hid
      · rw [setTill_ne s till hy] at he'
        exact hcross e he y e' he' hid
    · rw [setTill_ne s till hx] at he
      by_cases hy : y = d
      · rw [hy, setTill_self] at he'
        exact (hcross e' he' x e he hid.symm).symm
      · rw [setTill_ne s till hy] at he'
        exact h.ids x y e e' he he' hid

theorem inv_server {digest : HashFunction V} {s s' : OutletState V} {a : Server.Action V}
    (h : Inv digest s) (hstep : step digest s (.server a) s') : Inv digest s' := by
  refine ⟨sound_step h.toSound hstep, Server.scoped_step h.server h.placed hstep.2.1,
    fun d => ?_, fun x y e e' he he' hid => ?_⟩
  · obtain ⟨answers, heq, -⟩ := server_till hstep d
    refine @PullState.inv_server V digest (s.pulling d) _ a (h.pulling d) ⟨?_, ?_, hstep.2.1⟩
    · show (s'.till d).store = (s.till d).store
      rw [heq]
    · show (s'.till d).pages = (s.till d).pages
      rw [heq]
  · obtain ⟨_, hx, -⟩ := server_till hstep x
    obtain ⟨_, hy, -⟩ := server_till hstep y
    rw [hx] at he
    rw [hy] at he'
    exact h.ids x y e e' he he' hid

theorem inv_record {digest : HashFunction V} {s s' : OutletState V} {d : Uuid}
    {header : EventHeader} {payload : EventPayload V} (h : Inv digest s)
    (hguard : Regular s (.record d header payload))
    (hstep : step digest s (.record d header payload) s') : Inv digest s' := by
  have hsound := sound_step h.toSound hstep
  obtain ⟨event, chain, store, hseal, happend, rfl⟩ := hstep
  obtain ⟨hfollows, -, hid, -⟩ := append_eq_ok hseal
  refine h.of_till hsound ?_ fun e he => ?_
  · exact @PullState.inv_record V digest (s.pulling d) _ event (h.pulling d)
      ⟨hfollows.device.trans (h.till d).device.symm, store, happend, rfl⟩
  · rw [EventStore.append_events happend] at he
    rcases List.mem_append.mp he with he | he
    · exact .inl ⟨d, he⟩
    · rw [List.mem_singleton.mp he, hid]
      exact .inr hguard

theorem inv_acknowledge {digest : HashFunction V} {s s' : OutletState V} {d : Uuid}
    {batch : List (EventEnvelope V)} {response : PushResponse} {now : I64} (h : Inv digest s)
    (hstep : step digest s (.acknowledge d batch response now) s') : Inv digest s' := by
  have hsound := sound_step h.toSound hstep
  obtain ⟨-, -, store, hack, rfl⟩ := hstep
  obtain ⟨-, rfl⟩ := EventStore.acknowledge_eq_ok hack
  have hevents : ((s.till d).store.markSynced response.tip.deviceSeq now).events =
      (s.till d).store.events := EventStore.markSynced_events _ _ _
  refine h.of_till hsound ?_ fun e he => .inl ⟨d, hevents ▸ he⟩
  refine (h.pulling d).of_store rfl (fun e he => ?_) (fun e he => .inl ?_)
    ((h.pulling d).store.mono rfl rfl fun e he => ?_)
  · rw [hevents]
    exact he
  · rw [hevents] at he
    exact he
  · show e ∈ ((s.till d).store.markSynced response.tip.deviceSeq now).events
    rw [hevents]
    exact he

/-- A page goes into the store as events of the tills that recorded them. -/
theorem Inv.of_pulled {digest : HashFunction V} {s : OutletState V} {d : Uuid}
    {page : PullResponse V} {new : List (StoredEvent V)} {store : EventStore V} (h : Inv digest s)
    (hsound : Sound digest { s with till := s.setTill d { s.till d with store } })
    (hpage : page ∈ (s.till d).pages)
    (hrows : store.table.rows = (s.till d).store.table.rows ++ new)
    (hnew : ∀ row ∈ new, row.origin = .remote ∧ row.event ∈ page.events)
    (hpulling : PullState.Inv ⟨s.server, store, (s.till d).pages⟩) :
    Inv digest { s with till := s.setTill d { s.till d with store } } := by
  refine h.of_till hsound hpulling fun e he => .inl ?_
  obtain ⟨row, hrow, rfl⟩ := List.mem_map.mp he
  rw [hrows] at hrow
  rcases List.mem_append.mp hrow with hold | hrow
  · exact ⟨d, List.mem_map_of_mem hold⟩
  · exact ⟨_, h.recorded ((h.till d).pages page hpage _ (hnew row hrow).2).2⟩

/-- A page that the till was answered with has no event id of the till's own. -/
theorem Inv.passesNone {digest : HashFunction V} {s : OutletState V} {d : Uuid}
    {page : PullResponse V} (h : Inv digest s) (hpage : page ∈ (s.till d).pages) :
    (s.pulling d).PassesNone (.apply page) := by
  intro e he a ha hmine hid
  obtain ⟨hother, hstored⟩ := (h.pulling d).pulled page hpage e he
  have hsame := h.ids d _ a e ha (h.recorded hstored) hid
  exact hother (hsame ▸ hmine)

theorem inv_step {digest : HashFunction V} {s s' : OutletState V} {a : Action V} (h : Inv digest s)
    (hstep : Transition.Guarded (step digest) Regular s a s') : Inv digest s' := by
  obtain ⟨hguard, hstep⟩ := hstep
  have hsound := sound_step h.toSound hstep
  cases a with
  | record d header payload => exact inv_record h hguard hstep
  | send d =>
    obtain ⟨-, rfl⟩ := hstep
    exact h.of_till hsound (h.pulling d) fun e he => .inl ⟨d, he⟩
  | server a => exact inv_server h hstep
  | acknowledge d batch response now => exact inv_acknowledge h hstep
  | request d =>
    obtain ⟨page, hpage, rfl⟩ := hstep
    refine h.of_till hsound ?_ fun e he => .inl ⟨d, he⟩
    refine @PullState.inv_request V digest (s.pulling d) _ (h.pulling d) hguard ⟨page, ?_, rfl⟩
    show Server.servePull s.server.db (s.till d).store.deviceId (s.till d).store.pullCursor
      pullPage = .ok page
    rw [(h.till d).device]
    exact hpage
  | apply d page =>
    obtain ⟨hpage, rfl⟩ := hstep
    obtain ⟨new, hrows, hnew, -⟩ := EventStore.applyPage_rows digest (s.till d).store page
    refine h.of_pulled hsound hpage hrows hnew ?_
    exact @PullState.inv_apply V digest (s.pulling d) _ page (h.pulling d) (h.passesNone hpage)
      ⟨hpage, rfl⟩
  | crash d page n =>
    obtain ⟨hpage, rfl⟩ := hstep
    obtain ⟨new, hrows, hnew⟩ := EventStore.applyEvents_rows digest page.cursor
      (page.events.take n) 0 (s.till d).store
    refine h.of_pulled hsound hpage hrows
      (fun row hrow => ⟨(hnew row hrow).1, List.mem_of_mem_take (hnew row hrow).2⟩) ?_
    exact @PullState.inv_crash V digest (s.pulling d) _ page n (h.pulling d) ⟨hpage, rfl⟩

theorem inv_reachable {digest : HashFunction V} {s : OutletState V}
    (h : Transition.Reachable Fresh (Transition.Guarded (step digest) Regular) s) : Inv digest s :=
  h.invariant (fun _ => inv_fresh) fun _ _ _ => inv_step

/-! ## Section 6: Agreement -/

/-- Everything a till recorded is acknowledged, and no event of its siblings is above its cursor. -/
structure CaughtUp (s : OutletState V) (d : Uuid) : Prop where
  pushed : (s.till d).store.unsynced = []
  pulled : Server.siblingRows s.server.db d (s.till d).store.pullCursor = []

/-- A till that is caught up holds the events the server has stored of its outlet, and no other. -/
theorem Inv.holds_outlet {digest : HashFunction V} {s : OutletState V} (h : Inv digest s)
    {d outlet : Uuid} (houtlet : Server.Db.outletOf s.server.db d = some outlet)
    (hcaught : s.CaughtUp d) :
    (s.till d).store.events.Perm (s.server.db.table.events.filter (·.outletId = outlet)) := by
  have htill := h.till d
  have hlog : s.server.db.log d = (s.till d).store.loadAll := by
    have heq := htill.continues.log_eq hcaught.pushed
    rw [show (SyncState.mk s.server (s.till d).store).store.deviceId = d from htill.device] at heq
    exact heq
  have hids : ∀ es : List (EventEnvelope V), DistinctKeys es → es.Nodup := fun es hes =>
    List.Nodup.of_map _ hes.1
  refine (List.perm_ext_iff_of_nodup (hids _ (s.till d).store.table.distinct)
    ((hids _ s.server.db.table.distinct).filter _)).mpr fun e => ?_
  rw [List.mem_filter, decide_eq_true_eq]
  constructor
  · intro he
    by_cases hmine : e.deviceId = d
    · have hstored : e ∈ s.server.db.log d := hlog ▸ htill.mem_own.mpr ⟨he, hmine⟩
      obtain ⟨hstored, -⟩ := Server.mem_log.mp hstored
      obtain ⟨row, hrow, rfl⟩ := List.mem_map.mp hstored
      have hplaced := (h.placed row (.inl hrow)).outletOf
      rw [hmine, houtlet] at hplaced
      exact ⟨hstored, (Option.some.inj hplaced).symm⟩
    · obtain ⟨hsibling, hstored⟩ := htill.sibling he hmine
      exact ⟨hstored, Option.some.inj (hsibling.2.symm.trans houtlet)⟩
  · intro hstored
    obtain ⟨hstored, hplaced⟩ := hstored
    by_cases hmine : e.deviceId = d
    · have he : e ∈ (s.till d).store.loadAll := hlog ▸ Server.mem_log.mpr ⟨hstored, hmine⟩
      exact (htill.mem_own.mp he).1
    · obtain ⟨row, hrow, rfl⟩ := List.mem_map.mp hstored
      have hsibling : Server.IsSibling s.server.db d row.event :=
        ⟨hmine, houtlet.trans (congrArg some hplaced.symm)⟩
      -- the cursor is past every row of a sibling, and what it is past is held
      have hpassed : row.serverSeq ≤ (s.till d).store.pullCursor := by
        by_contra habove
        have hmem := Server.mem_siblingRows.mpr ⟨hrow, hsibling, not_le.mp habove⟩
        rw [hcaught.pulled] at hmem
        cases hmem
      refine (h.pulling d).store.rows row (.inl hrow) ?_ hpassed
      show Server.IsSibling s.server.db (s.till d).store.deviceId row.event
      rw [htill.device]
      exact hsibling

/-- **Tills agree**: in a run in which no event id is used twice and no pull passes an open push,
    any two tills of one outlet that are caught up hold the same events, those the server has
    stored of the outlet, and replay them in the same order. -/
theorem tills_agree {digest : HashFunction V} {s : OutletState V}
    (h : Transition.Reachable Fresh (Transition.Guarded (step digest) Regular) s)
    {a b outlet : Uuid} (ha : Server.Db.outletOf s.server.db a = some outlet)
    (hb : Server.Db.outletOf s.server.db b = some outlet)
    (hcaughtA : s.CaughtUp a) (hcaughtB : s.CaughtUp b) :
    (s.till a).store.events.Perm (s.server.db.table.events.filter (·.outletId = outlet)) ∧
      (s.till a).store.loadProjectionInput = (s.till b).store.loadProjectionInput := by
  have hinv := inv_reachable h
  have hholds := hinv.holds_outlet ha hcaughtA
  exact ⟨hholds, EventStore.loadProjectionInput_eq
    (hholds.trans (hinv.holds_outlet hb hcaughtB).symm)⟩

/-! ### One event, on two tills -/

/-- The three tills of an outlet before any of them has sold. -/
def opening : OutletState Unit := ⟨Server.threeTills, fun d => ⟨EventStore.fresh d, [], [], []⟩⟩

theorem opening_fresh : Fresh opening := ⟨Server.threeTills_fresh, fun _ => rfl⟩

/-- Till 4 in it, at a server. -/
def withFour (server : Server Unit) (till : Till Unit) : OutletState Unit :=
  ⟨server, opening.setTill 4 till⟩

/-- Till 4 has recorded an event, sent it, and been answered. -/
def fourSold : OutletState Unit :=
  withFour PushState.storedFirst ⟨PushState.storeOf 10 (some (I64.lit 9)),
    [[PushState.firstOf 10]], [⟨1, 0, (PushState.firstOf 10).tip, 1⟩], []⟩

/-- The runs the tills agree in. -/
abbrev Reaches : OutletState Unit → Prop :=
  Transition.Reachable Fresh (Transition.Guarded (step Server.idDigest) Regular)

theorem fourSold_reachable : Reaches fourSold := by
  have hrecorded : Reaches
      (withFour Server.threeTills ⟨PushState.storeOf 10 none, [], [], []⟩) := by
    refine .step (.record 4 (PushState.idHeader 10) ⟨"sale.started", .ok ()⟩) (.init opening_fresh)
      ⟨?_, _, _, _, rfl, rfl, rfl⟩
    intro d e he
    cases he
  have hsent : Reaches (withFour Server.threeTills
      ⟨PushState.storeOf 10 none, [[PushState.firstOf 10]], [], []⟩) := by
    refine .step (.send 4) hrecorded ⟨trivial, by decide, ?_⟩
    rw [withFour, withFour, setTill_again]
    rfl
  let opened := (Server.threeTills.beginPush Server.idDigest 0 4 ⟨4, [PushState.firstOf 10]⟩).1
  have hopened : Reaches (withFour opened
      ⟨PushState.storeOf 10 none, [[PushState.firstOf 10]], [], []⟩) :=
    .step (.server (.beginPush 0 4 ⟨4, [PushState.firstOf 10]⟩)) hsent
      ⟨trivial, List.mem_cons_self, ⟨rfl, rfl⟩, rfl⟩
  have hinserted : Reaches (withFour (opened.insertNext 0).1
      ⟨PushState.storeOf 10 none, [[PushState.firstOf 10]], [], []⟩) :=
    .step (.server (.insertNext 0)) hopened ⟨trivial, trivial, rfl, rfl⟩
  have hcommitted : Reaches (withFour PushState.storedFirst ⟨PushState.storeOf 10 none,
      [[PushState.firstOf 10]], [⟨1, 0, (PushState.firstOf 10).tip, 1⟩], []⟩) := by
    refine .step (.server (.commit 0)) hinserted ⟨trivial, trivial, rfl, ?_⟩
    show opening.setTill 4 _ = OutletState.setTill ⟨_, opening.setTill 4 _⟩ 4 _
    rw [setTill_again]
    rfl
  refine .step (.acknowledge 4 [PushState.firstOf 10] ⟨1, 0, (PushState.firstOf 10).tip, 1⟩
    (I64.lit 9)) hcommitted ⟨trivial, List.mem_cons_self, List.mem_cons_self, _, rfl, ?_⟩
  rw [fourSold, withFour, withFour, setTill_again]
  rfl

/-- Till 5 has pulled it. -/
def fivePulled : OutletState Unit where
  server := PushState.storedFirst
  till := fourSold.setTill 5 ⟨((EventStore.fresh 5).applyPage Server.idDigest
    ⟨[PushState.firstOf 10], 1, false⟩).state.2, [], [], [⟨[PushState.firstOf 10], 1, false⟩]⟩

theorem fivePulled_reachable : Reaches fivePulled := by
  have hnone : ∀ t, PushState.storedFirst.txns t = none := by
    intro t
    show (if t = 0 then none else if t = 0 then _ else if t = 0 then _ else none) = none
    split <;> rfl
  have hanswered : Reaches ⟨PushState.storedFirst, fourSold.setTill 5
      ⟨EventStore.fresh 5, [], [], [⟨[PushState.firstOf 10], 1, false⟩]⟩⟩ := by
    refine .step (.request 5) fourSold_reachable ⟨?_, _, rfl, rfl⟩
    -- nothing is in flight when the till asks
    intro record _ row _ t txn htxn
    rw [show (fourSold.pulling 5).server.txns t = none from hnone t] at htxn
    cases htxn
  refine .step (.apply 5 _) hanswered ⟨trivial, List.mem_cons_self, ?_⟩
  rw [setTill_again]
  rfl

theorem tills_agree_fivePulled : PushState.firstOf 10 ∈ (fivePulled.till 5).store.events ∧
    (fivePulled.till 4).store.loadProjectionInput =
      (fivePulled.till 5).store.loadProjectionInput := by
  have hfour : Server.Db.outletOf fivePulled.server.db 4 = some 2 := rfl
  have hfive : Server.Db.outletOf fivePulled.server.db 5 = some 2 := rfl
  refine ⟨by decide, ?_⟩
  exact (tills_agree fivePulled_reachable hfour hfive ⟨by decide, by decide⟩
    ⟨by decide, by decide⟩).2

end OutletState

end Sahl
