import Mathlib.Tactic
import Sahl.Server.Slices
import Sahl.Sync.PullCompleteness
import Sahl.Sync.PushSafety

/-! # Draining a backlog

    A round sends at most one batch and asks for one page, and says whether more is waiting. Rounds
    repeated while it is come to an end, with nothing left on either side (`drain_ends`): each of
    them shortens the queue or raises the cursor, and the measure counts both. A till whose events
    the server takes is answered in every round (`Placed.answered_after`). -/

namespace Sahl

variable {V : Type}

/-! ## Section 1: Rounds -/

/-- Till and server between two rounds. -/
structure SyncState (V : Type) where
  server : Server V
  store : EventStore V

namespace SyncState

/-- The server once it has the push of a round. -/
def pushed (digest : HashFunction V) (s : SyncState V) (t : Nat) : Server V :=
  if s.store.unsynced.isEmpty then s.server
  else (s.server.push digest t s.store.deviceId ⟨s.store.deviceId, s.store.nextBatch⟩).1

/-- How the server answers in a round: the push, and then the pull. -/
def transport (digest : HashFunction V) (s : SyncState V) (t : Nat) : Transport V where
  push events := (s.server.push digest t s.store.deviceId ⟨s.store.deviceId, events⟩).2
  pull cursor limit := Server.servePull (s.pushed digest t).db s.store.deviceId cursor limit

def round (digest : HashFunction V) (s : SyncState V) (t : Nat) (nowMillis : I64) :
    Outcome SyncClientError (SyncOutcome × SyncState V) :=
  let outcome := s.store.syncOnce digest (s.transport digest t) nowMillis
  ⟨(outcome.state.1, ⟨s.pushed digest t, outcome.state.2⟩), outcome.answer⟩

/-- After `n` rounds; round `i` is served by transaction `txn i`, at `now i`. -/
def after (digest : HashFunction V) (txn : Nat → Nat) (now : Nat → I64) (s : SyncState V) :
    Nat → SyncState V
  | 0 => s
  | n + 1 => ((after digest txn now s n).round digest (txn n) (now n)).state.2

/-- What round `n` comes to. -/
def roundAt (digest : HashFunction V) (txn : Nat → Nat) (now : Nat → I64) (s : SyncState V)
    (n : Nat) : Outcome SyncClientError (SyncOutcome × SyncState V) :=
  (s.after digest txn now n).round digest (txn n) (now n)

/-- The server answers what a round asks of it. -/
def Answered (digest : HashFunction V) (s : SyncState V) (t : Nat) : Prop :=
  (s.store.unsynced ≠ [] → ((s.transport digest t).push s.store.nextBatch).isOkay) ∧
    ((s.transport digest t).pull s.store.pullCursor pullPage).isOkay

/-- The backlog continues the server's chain of the device: what the till had acknowledged, and
    what it queues after that, are its chain from genesis, which the server holds up to some event
    of the queue. What the till holds of its siblings came from the server. -/
structure Continues (digest : HashFunction V) (s : SyncState V) : Prop where
  chain : ChainFrom digest s.store.deviceId ChainTip.genesis s.store.loadAll
  log : s.server.db.log s.store.deviceId <+: s.store.loadAll
  backlog : ∃ acked, acked <+: s.server.db.log s.store.deviceId ∧
    s.store.loadAll = acked ++ s.store.unsynced
  pulled : ∀ row ∈ s.store.table.rows, row.origin = .remote →
    row.event ∈ s.server.db.table.events

/-- An event of another device of this till's outlet. -/
def IsSibling (s : SyncState V) (e : EventEnvelope V) : Prop :=
  Server.IsSibling s.server.db s.store.deviceId e

/-- `s'` is what draining `s` should leave: nothing queued, the till's chain on the server, and
    once on the till every sibling's event that was above the cursor. -/
structure Drained (s s' : SyncState V) : Prop where
  own : s'.store.loadAll = s.store.loadAll
  unsynced : s'.store.unsynced = []
  log : s'.server.db.log s.store.deviceId = s.store.loadAll
  siblings : ∀ row ∈ s.server.db.table.rows, s.IsSibling row.event →
    s.store.pullCursor < row.serverSeq →
      s'.store.events.filter (·.eventId = row.event.eventId) = [row.event]

end SyncState

/-! ## Section 2: The push -/

namespace Server

/-- Rows of the outlet's other devices above a cursor. -/
def siblingRows (db : Db V) (d : Uuid) (cursor : Int) : List (EventRow V) :=
  match db.device d with
  | none => []
  | some record => pullRows db d record cursor

theorem siblingRows_of_device {db : Db V} {d : Uuid} {record : DeviceRecord}
    (h : db.device d = some record) (cursor : Int) :
    siblingRows db d cursor = pullRows db d record cursor := by
  rw [siblingRows, h]

theorem mem_siblingRows {db : Db V} {d : Uuid} {cursor : Int} {row : EventRow V} :
    row ∈ siblingRows db d cursor ↔
      row ∈ db.table.rows ∧ IsSibling db d row.event ∧ cursor < row.serverSeq := by
  unfold siblingRows IsSibling Db.outletOf
  cases db.device d with
  | none => simp
  | some record =>
    rw [mem_pullRows]
    constructor
    · intro h
      exact ⟨h.1, ⟨h.2.2.1, congrArg some h.2.1.symm⟩, h.2.2.2⟩
    · intro h
      exact ⟨h.1, (Option.some.inj h.2.1.2).symm, h.2.1.1, h.2.2⟩

/-- Rows of the device's own events are none of its siblings'. -/
theorem siblingRows_append {db : Db V} {d : Uuid} {tip : ChainTip}
    {table : EventTable V (EventRow V) EventRow.event} {rows : List (EventRow V)}
    (hrows : table.rows = db.table.rows ++ rows) (hown : ∀ row ∈ rows, row.event.deviceId = d)
    (cursor : Int) :
    siblingRows ⟨db.setTip d tip, table⟩ d cursor = siblingRows db d cursor := by
  cases hrecord : db.device d with
  | none => simp [siblingRows, Db.setTip, hrecord]
  | some record =>
    have hmoved : Db.device ⟨db.setTip d tip, table⟩ d = some { record with tip } :=
      setTip_self tip hrecord
    rw [siblingRows_of_device hrecord, siblingRows_of_device hmoved]
    have hnone : rows.filter (fun row => row.event.outletId = record.outletId ∧
        row.event.deviceId ≠ d ∧ cursor < row.serverSeq) = [] := by
      rw [List.filter_eq_nil_iff]
      intro row hrow
      simp [hown row hrow]
    show List.insertionSort _ (table.rows.filter _) = List.insertionSort _ (db.table.rows.filter _)
    rw [hrows, List.filter_append, hnone, List.append_nil]

/-- A push of a slice that starts at or below the end of the log leaves a longer part of the
    chain there, one that covers the slice, and answers with where it ends. -/
theorem push_covers {digest : HashFunction V} {s : Server V} {d : Uuid} (t : Nat)
    {chain acked batch later : List (EventEnvelope V)} {response : PushResponse}
    (hinv : Inv digest s) (hchain : ChainFrom digest d ChainTip.genesis chain)
    (hlog : s.db.log d <+: chain) (hslice : chain = acked ++ batch ++ later)
    (hne : batch ≠ []) (hok : (s.push digest t d ⟨d, batch⟩).2 = .ok response) :
    Inv digest (s.push digest t d ⟨d, batch⟩).1 ∧
      (∀ cursor, siblingRows (s.push digest t d ⟨d, batch⟩).1.db d cursor =
        siblingRows s.db d cursor) ∧
      (∀ e ∈ s.db.table.events, e ∈ (s.push digest t d ⟨d, batch⟩).1.db.table.events) ∧
      (s.push digest t d ⟨d, batch⟩).1.db.log d <+: chain ∧
      acked.length + batch.length ≤ ((s.push digest t d ⟨d, batch⟩).1.db.log d).length ∧
      response.tip.deviceSeq = ((s.push digest t d ⟨d, batch⟩).1.db.log d).length := by
  obtain ⟨s', answer, hpush, hinv', hcases⟩ := push_cases t d ⟨d, batch⟩ hinv
  rw [hpush] at hok ⊢
  have hgenesis : ChainTip.genesis.deviceSeq = 0 := rfl
  rcases hcases with ⟨hdb, hanswer⟩ | ⟨k, answered, rows, hanswer, hfresh, _, hlog', htip, hdevice,
    hrows, hevents⟩
  · -- nothing was stored: the batch lies within the log
    obtain ⟨_, record, plan, hrecord, htip, hplan, hnone⟩ := hanswer response hok
    obtain ⟨first, rest, hbatch⟩ := List.exists_cons_of_ne_nil hne
    have hhead : batch[0]? = some first := by
      rw [hbatch, List.getElem?_cons_zero]
    have hfirst := slice_deviceSeq hchain hslice hhead
    obtain ⟨hlogChain, hrecordTip⟩ := hinv.chain d record hrecord
    have hend := endTip_deviceSeq hlogChain
    rw [← hrecordTip] at hend
    subst hbatch
    have hwithin := planBatch_storesNothing hplan hnone
    show _ ∧ _ ∧ _ ∧ _ ∧ _ ∧ _
    rw [hdb, htip]
    refine ⟨hinv', fun cursor => rfl, fun e he => he, hlog, ?_, ?_⟩
    · omega
    · omega
  · -- the fresh part went to the end of the log, and the batch ends with it
    obtain rfl : answered = response := Except.ok.inj (hanswer.symm.trans hok)
    have hchain' := hinv'.log_chain d
    have hfollows : ChainFrom digest d (endTip ChainTip.genesis (s.db.log d)) (batch.drop k) := by
      rw [hlog'] at hchain'
      exact (chainFrom_append.mp hchain').2
    have hreaches := fresh_reaches hchain hslice hlog hfresh hfollows
    rw [← hlog'] at hreaches
    obtain ⟨hprefixed, hlength⟩ := hreaches
    refine ⟨hinv', fun cursor => ?_, fun e he => ?_, hprefixed, hlength.ge, ?_⟩
    · have hown : ∀ row ∈ rows, row.event.deviceId = d := by
        intro row hrow
        have hmem : row.event ∈ batch.drop k := hevents ▸ List.mem_map_of_mem hrow
        exact (chainFrom_mem hfollows hmem).2.1
      have hsame := @siblingRows_append _ s.db d answered.tip s'.db.table rows hrows hown cursor
      rw [← hdevice] at hsame
      exact hsame
    · show e ∈ s'.db.table.rows.map (·.event)
      rw [hrows, List.map_append]
      exact List.mem_append_left _ he
    · rw [htip, endTip_deviceSeq hchain', hgenesis, Nat.zero_add]

end Server

namespace SyncState

/-- What a round keeps of a state: which till it is, what it recorded and what it held, and on the
    server its siblings' rows and whatever was stored. -/
structure Kept (s s' : SyncState V) : Prop where
  device : s'.store.deviceId = s.store.deviceId
  own : s'.store.loadAll = s.store.loadAll
  held : ∀ e ∈ s.store.events, e ∈ s'.store.events
  siblings : ∀ cursor, Server.siblingRows s'.server.db s.store.deviceId cursor =
    Server.siblingRows s.server.db s.store.deviceId cursor
  stored : ∀ e ∈ s.server.db.table.events, e ∈ s'.server.db.table.events

theorem Kept.refl (s : SyncState V) : Kept s s :=
  ⟨rfl, rfl, fun _ he => he, fun _ => rfl, fun _ he => he⟩

theorem Kept.trans {s s' s'' : SyncState V} (h : Kept s s') (h' : Kept s' s'') : Kept s s'' where
  device := h'.device.trans h.device
  own := h'.own.trans h.own
  held := fun e he => h'.held e (h.held e he)
  siblings := fun cursor => by
    rw [← h.siblings cursor, ← h.device]
    exact h'.siblings cursor
  stored := fun e he => h'.stored e (h.stored e he)

/-- With nothing queued the server has the whole chain. -/
theorem Continues.log_eq {digest : HashFunction V} {s : SyncState V} (h : s.Continues digest)
    (hnone : s.store.unsynced = []) : s.server.db.log s.store.deviceId = s.store.loadAll := by
  obtain ⟨acked, hacked, hchain⟩ := h.backlog
  rw [hnone, List.append_nil] at hchain
  subst hchain
  exact h.log.eq_of_length_le hacked.length_le

/-- A chain splits where what was acknowledged ends. -/
theorem Continues.queue {digest : HashFunction V} {s : SyncState V} (h : s.Continues digest) :
    ∃ acked, acked <+: s.server.db.log s.store.deviceId ∧
      s.store.loadAll = acked ++ s.store.unsynced ∧
      (endTip ChainTip.genesis acked).deviceSeq = acked.length ∧
      ChainFrom digest s.store.deviceId (endTip ChainTip.genesis acked) s.store.unsynced := by
  obtain ⟨acked, hacked, hchain⟩ := h.backlog
  have hwhole := h.chain
  rw [hchain] at hwhole
  obtain ⟨hfirst, hrest⟩ := chainFrom_append.mp hwhole
  refine ⟨acked, hacked, hchain, ?_, hrest⟩
  rw [endTip_deviceSeq hfirst]
  exact Nat.zero_add _

/-- Acknowledging where the server's log ends leaves a backlog that continues it. -/
theorem Continues.marked {digest : HashFunction V} {s : SyncState V} {server : Server V}
    {m : Nat} {acked : List (EventEnvelope V)} (now : I64) (h : s.Continues digest)
    (hlog : server.db.log s.store.deviceId <+: s.store.loadAll)
    (hm : m = (server.db.log s.store.deviceId).length)
    (hstored : ∀ e ∈ s.server.db.table.events, e ∈ server.db.table.events)
    (hchain : s.store.loadAll = acked ++ s.store.unsynced) (hle : acked.length ≤ m)
    (hunsynced : (s.store.markSynced m now).unsynced =
      s.store.unsynced.drop (m - acked.length)) :
    Continues digest ⟨server, s.store.markSynced m now⟩ := by
  have hown : (s.store.markSynced m now).loadAll = s.store.loadAll :=
    EventStore.markSynced_loadAll _ _ _
  refine ⟨?_, ?_, ⟨_, List.prefix_rfl, ?_⟩, ?_⟩
  · show ChainFrom digest s.store.deviceId ChainTip.genesis (s.store.markSynced m now).loadAll
    rw [hown]
    exact h.chain
  · show server.db.log s.store.deviceId <+: (s.store.markSynced m now).loadAll
    rw [hown]
    exact hlog
  · -- what is acknowledged now is all of the server's log
    show (s.store.markSynced m now).loadAll =
      server.db.log s.store.deviceId ++ (s.store.markSynced m now).unsynced
    have hprefixed : server.db.log s.store.deviceId = s.store.loadAll.take m := by
      rw [hm]
      exact List.prefix_iff_eq_take.mp hlog
    rw [hown, hprefixed, hunsynced, hchain, List.take_append, List.take_of_length_le hle,
      List.append_assoc, List.take_append_drop]
  · intro row hrow hremote
    obtain ⟨old, hold, rfl⟩ := List.mem_map.mp hrow
    rw [EventStore.markRow_event]
    refine hstored _ (h.pulled old hold ?_)
    rw [← EventStore.markRow_origin m now]
    exact hremote

/-- The push of a round takes its batch off the queue, and more where the server had more. -/
theorem push_round {digest : HashFunction V} {s : SyncState V} {t : Nat} (now : I64)
    (hinv : Server.Inv digest s.server) (h : s.Continues digest)
    (hanswered : s.store.unsynced ≠ [] → ((s.transport digest t).push s.store.nextBatch).isOkay) :
    ∃ outcome store, s.store.pushPending (s.transport digest t) now = .ok (outcome, store) ∧
      Server.Inv digest (s.pushed digest t) ∧ Continues digest ⟨s.pushed digest t, store⟩ ∧
      Kept s ⟨s.pushed digest t, store⟩ ∧ store.pullCursor = s.store.pullCursor ∧
      store.unsynced.length ≤ s.store.unsynced.length ∧
      (outcome.morePending → store.unsynced.length < s.store.unsynced.length) ∧
      (¬ outcome.morePending → store.unsynced = []) := by
  by_cases hempty : s.store.unsynced = []
  · have hpushed : s.pushed digest t = s.server := by
      rw [pushed, hempty]
      rfl
    rw [hpushed]
    exact ⟨_, _, EventStore.pushPending_of_empty _ now hempty, hinv, h, Kept.refl s, rfl,
      Nat.le_refl _, fun hmore => absurd hmore (by decide), fun _ => hempty⟩
  · obtain ⟨acked, _, hchain, hstart, hqueue⟩ := h.queue
    obtain ⟨response, hresponse⟩ := Except.isOkay_iff.mp (hanswered hempty)
    have hne := EventStore.nextBatch_ne_nil hempty
    have hsplit : s.store.nextBatch ++ s.store.unsynced.drop maxBatch = s.store.unsynced :=
      List.take_append_drop _ _
    have hslice : s.store.loadAll =
        acked ++ s.store.nextBatch ++ s.store.unsynced.drop maxBatch := by
      rw [List.append_assoc, hsplit]
      exact hchain
    have hpushed : s.pushed digest t =
        (s.server.push digest t s.store.deviceId ⟨s.store.deviceId, s.store.nextBatch⟩).1 := by
      rw [pushed, if_neg]
      simpa using hempty
    obtain ⟨hinv', hsiblings, hstored, hlog, hcovers, htip⟩ :=
      Server.push_covers t hinv h.chain h.log hslice hne hresponse
    rw [← hpushed] at hinv' hsiblings hstored hlog hcovers htip
    have hfits := hinv'.log_length_lt s.store.deviceId
    rw [← htip] at hfits hcovers
    have hpositive : 0 < s.store.nextBatch.length := List.length_pos_of_ne_nil hne
    have hqueued : 0 < s.store.unsynced.length := List.length_pos_of_ne_nil hempty
    -- the last event of the batch is numbered where the batch ends
    have hlast : ∀ e, s.store.nextBatch.getLast? = some e →
        e.deviceSeq ≤ response.tip.deviceSeq := by
      intro e he
      have hat : s.store.unsynced[s.store.nextBatch.length - 1]? = some e := by
        rw [← hsplit, List.getElem?_append_left (by omega), ← List.getLast?_eq_getElem?]
        exact he
      have hseq := (chainFrom_getElem hqueue hat).1
      omega
    have hunsynced : (s.store.markSynced response.tip.deviceSeq now).unsynced =
        s.store.unsynced.drop (response.tip.deviceSeq - acked.length) := by
      rw [EventStore.markSynced_unsynced _ hfits, chainFrom_filter_lt hqueue, hstart]
    have hshorter : (s.store.markSynced response.tip.deviceSeq now).unsynced.length <
        s.store.unsynced.length := by
      rw [hunsynced, List.length_drop]
      omega
    refine ⟨_, _, EventStore.pushPending_of_answer hempty hresponse
      (EventStore.acknowledge_of_covers now hne hlast), hinv',
      h.marked now hlog htip hstored hchain (by omega) hunsynced,
      ⟨rfl, EventStore.markSynced_loadAll _ _ _, fun e he => ?_, hsiblings, hstored⟩, rfl,
      hshorter.le, fun _ => hshorter, ?_⟩
    · rw [EventStore.markSynced_events]
      exact he
    · intro hwhole
      have hall : ¬ s.store.nextBatch.length < s.store.unsynced.length := by simpa using hwhole
      rw [hunsynced, List.drop_eq_nil_iff]
      omega

end SyncState

/-! ## Section 3: The pull -/

namespace Server

theorem siblingRows_sorted (db : Db V) (d : Uuid) (cursor : Int) :
    (siblingRows db d cursor).Pairwise fun a b => a.serverSeq ≤ b.serverSeq := by
  unfold siblingRows
  cases db.device d with
  | none => exact List.Pairwise.nil
  | some record => exact pullRows_sorted db d record cursor

/-- Above a later cursor are those of the rows that it has not passed. -/
theorem siblingRows_filter {db : Db V} {d : Uuid} {cursor cursor' : Int} (h : cursor ≤ cursor') :
    siblingRows db d cursor' = (siblingRows db d cursor).filter (cursor' < ·.serverSeq) := by
  unfold siblingRows
  cases db.device d with
  | none => rfl
  | some record =>
    show pullRows db d record cursor' = (pullRows db d record cursor).filter _
    rw [pullRows, pullRows, filter_insertionSort, List.filter_filter]
    congr 1
    refine List.filter_congr fun row _ => ?_
    rw [← Bool.decide_and, decide_eq_decide]
    constructor
    · intro habove
      exact ⟨habove.2.2, habove.1, habove.2.1, lt_of_le_of_lt h habove.2.2⟩
    · intro habove
      exact ⟨habove.2.1, habove.2.2.1, habove.1⟩

/-- What the server stores it has verified. -/
theorem Inv.verifies {digest : HashFunction V} {s : Server V} (h : Inv digest s)
    {e : EventEnvelope V} (he : e ∈ s.db.table.events) :
    e.verify digest = .ok () ∧ e.deviceSeq < 2 ^ 63 := by
  refine ⟨verify_eq_ok.mpr ?_, h.fits e he⟩
  exact (chainFrom_mem (h.log_chain e.deviceId) (mem_log.mpr ⟨he, rfl⟩)).2.2

section Page

variable {db : Db V} {d : Uuid} {cursor : Int} {limit : Nat} {page : PullResponse V}

theorem servePull_page (h : servePull db d cursor limit = .ok page) (hlimit : limit ≤ 500) :
    page.events = ((siblingRows db d cursor).take limit).map (·.event) ∧
      page.cursor = (((siblingRows db d cursor).take limit).map (·.serverSeq)).getLastD cursor ∧
      page.hasMore = decide (limit < (siblingRows db d cursor).length) := by
  obtain ⟨record, hrecord, hevents, hcursor, hmore⟩ := servePull_eq_ok h
  rw [min_eq_left hlimit] at hevents hcursor hmore
  rw [siblingRows_of_device hrecord]
  exact ⟨hevents, hcursor, hmore⟩

/-- Where more is waiting, the page moves the cursor onto one of the rows. -/
theorem page_raises (h : servePull db d cursor limit = .ok page) (hlimit : limit ≤ 500)
    (hpositive : 0 < limit) (hmore : page.hasMore) :
    ∃ row ∈ siblingRows db d cursor, row.serverSeq = page.cursor := by
  obtain ⟨_, hcursor, hhasMore⟩ := servePull_page h hlimit
  have hlong : limit < (siblingRows db d cursor).length := by simpa [hhasMore] using hmore
  rcases pageCursor_cases ((siblingRows db d cursor).take limit) cursor with
    ⟨hnil, _⟩ | ⟨last, hlast, hseq⟩
  · have hlength := congrArg List.length hnil
    rw [List.length_take, List.length_nil] at hlength
    omega
  · exact ⟨last, List.mem_of_mem_take (List.mem_of_getLast? hlast), (hcursor.trans hseq).symm⟩

/-- Where nothing more is waiting, the page moves the cursor past all of them. -/
theorem page_last (h : servePull db d cursor limit = .ok page) (hlimit : limit ≤ 500)
    (hmore : ¬ page.hasMore) {row : EventRow V} (hrow : row ∈ siblingRows db d cursor) :
    row.serverSeq ≤ page.cursor := by
  obtain ⟨_, hcursor, hhasMore⟩ := servePull_page h hlimit
  have hshort : (siblingRows db d cursor).length ≤ limit := by simpa [hhasMore] using hmore
  rw [List.take_of_length_le hshort] at hcursor
  rcases pageCursor_cases (siblingRows db d cursor) cursor with ⟨hnil, _⟩ | ⟨last, hlast, hseq⟩
  · rw [hnil] at hrow
    exact absurd hrow List.not_mem_nil
  · rw [hcursor, hseq]
    obtain ⟨earlier, hrows⟩ := List.getLast?_eq_some_iff.mp hlast
    have hsorted := siblingRows_sorted db d cursor
    rw [hrows, List.pairwise_append] at hsorted
    rw [hrows] at hrow
    rcases List.mem_append.mp hrow with hrow | hrow
    · exact hsorted.2.2 row hrow last List.mem_cons_self
    · rw [List.mem_singleton.mp hrow]

/-- A page has the events of all rows that its cursor passes. -/
theorem page_reaches (h : servePull db d cursor limit = .ok page) (hlimit : limit ≤ 500)
    (hinj : ∀ a ∈ siblingRows db d cursor, ∀ b ∈ siblingRows db d cursor,
      a.serverSeq = b.serverSeq → a = b) {row : EventRow V} (hrow : row ∈ siblingRows db d cursor)
    (hpassed : row.serverSeq ≤ page.cursor) : row.event ∈ page.events := by
  obtain ⟨hevents, hcursor, _⟩ := servePull_page h hlimit
  have habove := (mem_siblingRows.mp hrow).2.2
  rw [hevents]
  refine List.mem_map_of_mem ?_
  rcases pageCursor_cases ((siblingRows db d cursor).take limit) cursor with
    ⟨_, hsame⟩ | ⟨last, hlast, hseq⟩
  · exact absurd (hpassed.trans_eq (hcursor.trans hsame)) (not_le.mpr habove)
  · exact mem_take_of_le (siblingRows_sorted db d cursor) hinj hlast hrow
      (hpassed.trans_eq (hcursor.trans hseq))

end Page

end Server

namespace SyncState

/-- No event of the till's own shares its id with one of its siblings'. -/
def Apart (own : List (EventEnvelope V)) (rows : List (EventRow V)) : Prop :=
  ∀ e ∈ own, ∀ row ∈ rows, e.eventId ≠ row.event.eventId

/-- An event that the till holds under a key of one of its siblings' is that event: the table of
    the server has the key once, and the till's own events are apart. -/
theorem Continues.eq_of_sameKey {digest : HashFunction V} {s : SyncState V}
    (h : s.Continues digest)
    (hapart : Apart s.store.loadAll
      (Server.siblingRows s.server.db s.store.deviceId s.store.pullCursor))
    {a : EventEnvelope V} {row : EventRow V} (ha : a ∈ s.store.events)
    (hrow : row ∈ Server.siblingRows s.server.db s.store.deviceId s.store.pullCursor)
    (hkey : SameKey a row.event) : a = row.event := by
  have hsibling := Server.mem_siblingRows.mp hrow
  obtain ⟨held, hheld, rfl⟩ := List.mem_map.mp ha
  cases horigin : held.origin with
  | remote =>
    exact s.server.db.table.distinct.sameKey (h.pulled held hheld horigin)
      (List.mem_map_of_mem hsibling.1) hkey
  | «local» =>
    have hown : held.event ∈ s.store.loadAll :=
      EventStore.mem_loadAll.mpr ⟨held, hheld, horigin, rfl⟩
    rcases hkey with hid | ⟨hdevice, _⟩
    · exact absurd hid (hapart _ hown row hrow)
    · exact absurd (hdevice.symm.trans (chainFrom_mem h.chain hown).2.1) hsibling.2.1.1

/-- A store that has more of the siblings' events, and no other than the server's, continues the
    chain as before. -/
theorem Continues.of_same {digest : HashFunction V} {s : SyncState V} {store : EventStore V}
    (h : s.Continues digest) (hdevice : store.deviceId = s.store.deviceId)
    (hown : store.loadAll = s.store.loadAll) (hqueue : store.unsynced = s.store.unsynced)
    (hpulled : ∀ row ∈ store.table.rows, row.origin = .remote →
      row.event ∈ s.server.db.table.events) : Continues digest ⟨s.server, store⟩ where
  chain := by
    show ChainFrom digest store.deviceId _ store.loadAll
    rw [hdevice, hown]
    exact h.chain
  log := by
    show s.server.db.log store.deviceId <+: store.loadAll
    rw [hdevice, hown]
    exact h.log
  backlog := by
    show ∃ acked, acked <+: s.server.db.log store.deviceId ∧ store.loadAll = acked ++ store.unsynced
    rw [hdevice, hown, hqueue]
    exact h.backlog
  pulled := hpulled

/-- Applying the page that a round pulled: the queue stays, the cursor moves past the page. -/
theorem pull_round {digest : HashFunction V} {s : SyncState V} {page : PullResponse V}
    (hinv : Server.Inv digest s.server) (h : s.Continues digest)
    (hpage : Server.servePull s.server.db s.store.deviceId s.store.pullCursor pullPage = .ok page) :
    ∃ store, s.store.applyPage digest page =
        .done (((EventStore.applyEvents digest page.cursor page.events 0 s.store).state.1,
          page.hasMore), store) ∧
      Continues digest ⟨s.server, store⟩ ∧ Kept s ⟨s.server, store⟩ ∧
      store.unsynced = s.store.unsynced ∧
      store.pullCursor = max s.store.pullCursor page.cursor ∧
      (Apart s.store.loadAll
          (Server.siblingRows s.server.db s.store.deviceId s.store.pullCursor) →
        ∀ e ∈ page.events, e ∈ store.events) := by
  obtain ⟨hevents, _, _⟩ := Server.servePull_page hpage (by decide)
  have hread : ∀ e ∈ page.events, ∃ row ∈ Server.siblingRows s.server.db s.store.deviceId
      s.store.pullCursor, row.event = e := by
    intro e he
    rw [hevents] at he
    obtain ⟨row, hrow, rfl⟩ := List.mem_map.mp he
    exact ⟨row, List.mem_of_mem_take hrow, rfl⟩
  -- the page was read from the table of the server, so what is on it verifies
  have hstored : ∀ e ∈ page.events, e ∈ s.server.db.table.events := by
    intro e he
    obtain ⟨row, hrow, rfl⟩ := hread e he
    exact List.mem_map_of_mem (Server.mem_siblingRows.mp hrow).1
  have hanswer : (EventStore.applyEvents digest page.cursor page.events 0 s.store).answer =
      .ok () :=
    EventStore.applyEvents_isOkay (fun e he => hinv.verifies (hstored e he)) 0 s.store
  have happlied := EventStore.applyEvents_applied digest page.cursor page.events 0 s.store
  obtain ⟨new, hrows, hnew⟩ := EventStore.applyEvents_rows digest page.cursor page.events 0 s.store
  have hlocal := EventStore.unsynced_of_remote hrows fun row hrow => (hnew row hrow).1
  refine ⟨(EventStore.applyEvents digest page.cursor page.events 0 s.store).state.2.setPullCursor
    page.cursor, ?_, h.of_same happlied.deviceId hlocal.2 hlocal.1 ?_,
    ⟨happlied.deviceId, hlocal.2, happlied.grows, fun _ => rfl, fun _ he => he⟩, hlocal.1, ?_,
    fun hapart => ?_⟩
  · simp only [EventStore.applyPage, hanswer]
  · intro row hrow hremote
    have hrow : row ∈ s.store.table.rows ++ new := hrows ▸ hrow
    rcases List.mem_append.mp hrow with hrow | hrow
    · exact h.pulled row hrow hremote
    · exact hstored _ (hnew row hrow).2
  · show max (EventStore.applyEvents _ _ _ _ _).state.2.pullCursor page.cursor = _
    rw [happlied.pullCursor]
  · refine EventStore.applyEvents_held (fun a ha e he hkey => ?_) hanswer
    rcases ha with ha | ha
    · obtain ⟨row, hrow, rfl⟩ := hread e he
      exact h.eq_of_sameKey hapart ha hrow hkey
    · exact s.server.db.table.distinct.sameKey (hstored a ha) (hstored e he) hkey

/-! ## Section 4: A round -/

/-- The rows of siblings above the cursor of the till. -/
def ahead (s : SyncState V) : List (EventRow V) :=
  Server.siblingRows s.server.db s.store.deviceId s.store.pullCursor

/-- What rounds from `start` keep: the backlog continues the server's chain, and the rows the
    cursor has passed since are on the till. -/
structure Inv (digest : HashFunction V) (start s : SyncState V) : Prop where
  server : Server.Inv digest s.server
  continues : s.Continues digest
  kept : Kept start s
  cursor : start.store.pullCursor ≤ s.store.pullCursor
  passed : Apart start.store.loadAll start.ahead → ∀ row ∈ start.ahead,
    row.serverSeq ≤ s.store.pullCursor → row.event ∈ s.store.events

theorem inv_start {digest : HashFunction V} {s : SyncState V} (hserver : Server.Inv digest s.server)
    (h : s.Continues digest) : Inv digest s s where
  server := hserver
  continues := h
  kept := Kept.refl s
  cursor := le_refl _
  passed := fun _ _ hrow hle => absurd hle (not_le.mpr (Server.mem_siblingRows.mp hrow).2.2)

/-- What is ahead of a later state is what its cursor has not passed. -/
theorem Kept.ahead_eq {start s : SyncState V} (h : Kept start s)
    (hcursor : start.store.pullCursor ≤ s.store.pullCursor) :
    s.ahead = start.ahead.filter (s.store.pullCursor < ·.serverSeq) := by
  rw [ahead, ahead, h.device, h.siblings, Server.siblingRows_filter hcursor]

/-- What a round comes to that pushes, and is answered a page. -/
theorem round_eq {digest : HashFunction V} {s : SyncState V} {t : Nat} {now : I64}
    {outcome : SyncOutcome} {store store' : EventStore V} {page : PullResponse V} {applied : Nat}
    (hpush : s.store.pushPending (s.transport digest t) now = .ok (outcome, store))
    (hpull : (s.transport digest t).pull store.pullCursor pullPage = .ok page)
    (hpage : store.applyPage digest page = .done ((applied, page.hasMore), store')) :
    s.round digest t now = .done ({ outcome with
      pulled := applied, morePending := outcome.morePending || page.hasMore },
        ⟨s.pushed digest t, store'⟩) := by
  simp only [round, EventStore.syncOnce, hpush, EventStore.pullNew, hpull, hpage]
  rfl

/-- Whether a round brings the end nearer. -/
def Progress (s s' : SyncState V) : Prop :=
  s'.store.unsynced.length < s.store.unsynced.length ∨ s.store.pullCursor < s'.store.pullCursor

/-- **One round**: answered, it succeeds and keeps the invariant. If it reports more to come it made
    progress; if not, the queue is empty and the cursor past every row. -/
theorem inv_round {digest : HashFunction V} {start s : SyncState V} {t : Nat} (now : I64)
    (hinj : ∀ a ∈ start.ahead, ∀ b ∈ start.ahead, a.serverSeq = b.serverSeq → a = b)
    (hinv : Inv digest start s) (hanswered : s.Answered digest t) :
    ∃ outcome s', s.round digest t now = .done (outcome, s') ∧ Inv digest start s' ∧
      s'.store.unsynced.length ≤ s.store.unsynced.length ∧
      s'.ahead.length ≤ s.ahead.length ∧
      (outcome.morePending → Progress s s' ∧ (s'.store.unsynced.length < s.store.unsynced.length ∨
        s'.ahead.length < s.ahead.length)) ∧
      (¬ outcome.morePending → s'.store.unsynced = [] ∧ s'.ahead = []) := by
  obtain ⟨outcome, store, hpush, hserver, hcontinues, hkept, hcursor, hshort, hmore, hdone⟩ :=
    push_round now hinv.server hinv.continues hanswered.1
  obtain ⟨page, hpull⟩ := Except.isOkay_iff.mp hanswered.2
  -- the state between the two halves
  let mid : SyncState V := ⟨s.pushed digest t, store⟩
  have hpage : Server.servePull mid.server.db mid.store.deviceId mid.store.pullCursor pullPage =
      .ok page := by
    show Server.servePull (s.pushed digest t).db store.deviceId store.pullCursor pullPage = _
    rw [hcursor]
    exact hkept.device ▸ hpull
  obtain ⟨store', happly, hcontinues', hkept', hunsynced, hcursor', hheld⟩ :=
    pull_round (s := mid) hserver hcontinues hpage
  have hkeptStart : Kept start ⟨s.pushed digest t, store'⟩ := (hinv.kept.trans hkept).trans hkept'
  have hahead : mid.ahead = s.ahead := by
    rw [ahead, ahead, hcursor, hkept.device, hkept.siblings]
  have hraised : store'.pullCursor = max s.store.pullCursor page.cursor := hcursor'.trans (by
    rw [show mid.store.pullCursor = s.store.pullCursor from hcursor])
  have hadvanced : s.store.pullCursor ≤ store'.pullCursor := hraised ▸ le_max_left _ _
  have hfilter : ahead ⟨s.pushed digest t, store'⟩ =
      s.ahead.filter (store'.pullCursor < ·.serverSeq) := (hkept.trans hkept').ahead_eq hadvanced
  refine ⟨_, _, round_eq hpush ?_ happly, ⟨hserver, hcontinues', hkeptStart, hinv.cursor.trans
    hadvanced, fun hapart row hrow hle => ?_⟩, ?_, ?_, fun hpending => ?_, fun hpending => ?_⟩
  · rw [hcursor]
    exact hpull
  · -- a row the cursor has passed was passed before, or is on the page
    have hsubset : ∀ row ∈ s.ahead, row ∈ start.ahead := by
      intro row hrow
      rw [hinv.kept.ahead_eq hinv.cursor] at hrow
      exact (List.mem_filter.mp hrow).1
    rcases le_or_gt row.serverSeq s.store.pullCursor with hold | habove
    · exact (hkept.trans hkept').held _ (hinv.passed hapart row hrow hold)
    · have hmid : row ∈ mid.ahead := by
        rw [hahead, hinv.kept.ahead_eq hinv.cursor]
        exact List.mem_filter.mpr ⟨hrow, by simpa using habove⟩
      have hinjMid : ∀ a ∈ mid.ahead, ∀ b ∈ mid.ahead, a.serverSeq = b.serverSeq → a = b := by
        rw [hahead]
        exact fun a ha b hb => hinj a (hsubset a ha) b (hsubset b hb)
      have hpassed : row.serverSeq ≤ page.cursor := by
        rcases le_max_iff.mp (hraised ▸ hle) with hle | hle
        · exact absurd hle (not_le.mpr habove)
        · exact hle
      refine hheld ?_ _ (Server.page_reaches hpage (by decide) hinjMid hmid hpassed)
      show Apart store.loadAll mid.ahead
      rw [hahead, hkept.own, hinv.kept.own]
      exact fun e he row hrow => hapart e he row (hsubset row hrow)
  · show store'.unsynced.length ≤ _
    rw [hunsynced]
    exact hshort
  · rw [hfilter]
    exact List.length_filter_le _ _
  · show (store'.unsynced.length < _ ∨ s.store.pullCursor < store'.pullCursor) ∧
      (store'.unsynced.length < _ ∨ _)
    rw [hunsynced]
    rcases (Bool.or_eq_true _ _).mp hpending with hqueued | hwaiting
    · exact ⟨.inl (hmore hqueued), .inl (hmore hqueued)⟩
    · obtain ⟨row, hrow, hseq⟩ := Server.page_raises hpage (by decide) (by decide) hwaiting
      have hrow : row ∈ s.ahead := hahead ▸ hrow
      have hpassed : row.serverSeq ≤ store'.pullCursor := by
        rw [hraised, hseq]
        exact le_max_right _ _
      have habove := (Server.mem_siblingRows.mp hrow).2.2
      refine ⟨.inr (habove.trans_le hpassed), .inr ?_⟩
      rw [hfilter]
      exact List.length_filter_lt_length_iff_exists.mpr ⟨row, hrow, by simpa using hpassed⟩
  · have hboth : outcome.morePending = false ∧ page.hasMore = false := by simpa using hpending
    show store'.unsynced = [] ∧ _
    rw [hunsynced, hfilter]
    refine ⟨hdone (by simp [hboth.1]), ?_⟩
    rw [List.filter_eq_nil_iff]
    intro row hrow
    have hpassed := Server.page_last hpage (by decide) (by simp [hboth.2]) (hahead.symm ▸ hrow)
    have hbeyond : row.serverSeq ≤ store'.pullCursor := hraised ▸ hpassed.trans (le_max_right _ _)
    simpa using hbeyond

/-- A round that succeeds with more queued than a batch holds says that more is to come. -/
theorem round_morePending {digest : HashFunction V} {s : SyncState V} {t : Nat} {now : I64}
    (hlong : maxBatch < s.store.unsynced.length) (h : (s.round digest t now).answer = .ok ()) :
    (s.round digest t now).state.1.morePending := by
  have hne : s.store.unsynced.isEmpty = false := by
    rw [List.isEmpty_eq_false_iff_exists_mem]
    exact List.exists_mem_of_length_pos (by omega)
  have hbatch : s.store.nextBatch.length < s.store.unsynced.length :=
    (List.length_take_le _ _).trans_lt hlong
  have hpush : ∀ outcome store, s.store.pushPending (s.transport digest t) now =
      .ok (outcome, store) → outcome.morePending := by
    intro outcome store hpush
    simp only [EventStore.pushPending, hne, Bool.false_eq_true, if_false] at hpush
    obtain ⟨response, -, hpush⟩ := Except.bind_eq_ok.mp hpush
    obtain ⟨store', -, hpush⟩ := Except.bind_eq_ok.mp hpush
    cases hpush
    exact decide_eq_true hbatch
  unfold round EventStore.syncOnce at h ⊢
  cases hpushed : s.store.pushPending (s.transport digest t) now with
  | error error =>
    rw [hpushed] at h
    cases h
  | ok pushed =>
    obtain ⟨outcome, store⟩ := pushed
    simp [hpush outcome store hpushed]

/-! ## Section 5: A till that is answered -/

/-- The server takes what the till recorded: the till is enrolled, its events are sealed where it
    is, their numbers fit the table, and no other event has an id of theirs. -/
structure Placed (s : SyncState V) (tenant outlet : Uuid) : Prop where
  enrolled : Server.Enrolled s.server.db s.store.deviceId tenant outlet
  isSealed : ∀ e ∈ s.store.loadAll, e.tenantId = tenant ∧ e.outletId = outlet
  fits : ∀ e ∈ s.store.loadAll, e.deviceSeq < 2 ^ 63
  ids : ∀ a ∈ s.server.db.table.events, ∀ e ∈ s.store.loadAll, a.eventId = e.eventId → a = e

section Placed

variable {digest : HashFunction V} {s : SyncState V} {tenant outlet : Uuid}

theorem Placed.enrolled_pushed (h : s.Placed tenant outlet) (hinv : Server.Inv digest s.server)
    (t : Nat) : Server.Enrolled (s.pushed digest t).db s.store.deviceId tenant outlet := by
  unfold pushed
  split
  · exact h.enrolled
  · exact h.enrolled.push t _ _ hinv

/-- What the push of a round stores is of its batch. -/
theorem mem_pushed (hinv : Server.Inv digest s.server) {t : Nat} {a : EventEnvelope V}
    (ha : a ∈ (s.pushed digest t).db.table.events) :
    a ∈ s.server.db.table.events ∨ a ∈ s.store.nextBatch := by
  unfold pushed at ha
  split at ha
  · exact .inl ha
  obtain ⟨s', answer, hpush, -, ⟨hdb, -⟩ | ⟨k, _, rows, -, -, -, -, -, -, hrows, hevents⟩⟩ :=
    Server.push_cases t s.store.deviceId ⟨s.store.deviceId, s.store.nextBatch⟩ hinv
  · rw [hpush] at ha
    rw [show s'.db = s.server.db from hdb] at ha
    exact .inl ha
  · rw [hpush, EventTable.events, hrows, List.map_append, hevents] at ha
    exact (List.mem_append.mp ha).imp id List.mem_of_mem_drop

theorem Continues.mem_nextBatch (h : s.Continues digest) {e : EventEnvelope V}
    (he : e ∈ s.store.nextBatch) : e ∈ s.store.loadAll := by
  obtain ⟨acked, -, hchain⟩ := h.backlog
  rw [hchain]
  exact List.mem_append_right _ (List.mem_of_mem_take he)

/-- **A till is answered** whose events the server takes: both halves of a round succeed. -/
theorem Placed.answered (h : s.Placed tenant outlet) (hinv : Server.Inv digest s.server)
    (hbacklog : s.Continues digest) (t : Nat) : s.Answered digest t := by
  refine ⟨fun hqueued => ?_, Server.servePull_isOkay (h.enrolled_pushed hinv t) _ _⟩
  obtain ⟨acked, hacked, hchain⟩ := hbacklog.backlog
  have hslice : s.store.loadAll =
      acked ++ s.store.nextBatch ++ s.store.unsynced.drop maxBatch := by
    rw [List.append_assoc, EventStore.nextBatch, List.take_append_drop]
    exact hchain
  have hspan : s.store.nextBatch.Sublist s.store.loadAll := by
    rw [hslice, List.append_assoc]
    exact (List.sublist_append_left _ _).trans (List.sublist_append_right _ _)
  have hkeys : ∀ a ∈ s.server.db.table.events, ∀ e ∈ s.store.nextBatch,
      a.eventId = e.eventId → a = e := fun a ha e he => h.ids a ha e (hspan.subset he)
  exact Server.push_isOkay t hinv h.enrolled hbacklog.chain hbacklog.log hslice hacked.length_le
    (EventStore.nextBatch_ne_nil hqueued) (List.length_take_le _ _)
    (fun e he => h.isSealed e (hspan.subset he)) (fun e he => h.fits e (hspan.subset he))
    (s.store.loadAll_ids.sublist (hspan.map _)) hkeys

/-- A round leaves the till one whose events the server takes. -/
theorem Placed.of_round {s' : SyncState V} {t : Nat} (h : s.Placed tenant outlet)
    (hinv : Server.Inv digest s.server) (hbacklog : s.Continues digest)
    (hserver : s'.server = s.pushed digest t) (hdevice : s'.store.deviceId = s.store.deviceId)
    (hown : s'.store.loadAll = s.store.loadAll) : s'.Placed tenant outlet where
  enrolled := by
    rw [hserver, hdevice]
    exact h.enrolled_pushed hinv t
  isSealed := hown ▸ h.isSealed
  fits := hown ▸ h.fits
  ids := by
    rw [hserver, hown]
    intro a ha e he hid
    rcases mem_pushed hinv ha with hstored | hsent
    · exact h.ids a hstored e he hid
    · exact List.inj_on_of_nodup_map s.store.loadAll_ids (hbacklog.mem_nextBatch hsent) he hid

end Placed

/-- Rows that are ahead bear different numbers. -/
theorem ahead_inj {digest : HashFunction V} {s : SyncState V}
    (hserver : Transition.Reachable Server.Fresh (Server.step digest) s.server) :
    ∀ a ∈ s.ahead, ∀ b ∈ s.ahead, a.serverSeq = b.serverSeq → a = b := by
  have hseq : s.server.SeqInv := hserver.invariant (I := Server.SeqInv)
    (fun _ => Server.seqInv_fresh) fun _ _ _ => Server.seqInv_step
  intro a ha b hb
  exact hseq.inj a b (.inl (Server.mem_siblingRows.mp ha).1) (.inl (Server.mem_siblingRows.mp hb).1)

/-- Every round of such a till is answered, however many there are. -/
theorem Placed.answered_after {digest : HashFunction V} {s : SyncState V} {tenant outlet : Uuid}
    {txn : Nat → Nat} {now : Nat → I64} (h : s.Placed tenant outlet)
    (hserver : Transition.Reachable Server.Fresh (Server.step digest) s.server)
    (hbacklog : s.Continues digest) (n : Nat) :
    (s.after digest txn now n).Answered digest (txn n) := by
  have hboth : ∀ n, Inv digest s (s.after digest txn now n) ∧
      (s.after digest txn now n).Placed tenant outlet := by
    intro n
    induction n with
    | zero => exact ⟨inv_start (Server.inv_reachable hserver) hbacklog, h⟩
    | succ n ih =>
      obtain ⟨hinv, hplaced⟩ := ih
      obtain ⟨outcome, s', hround, hinv', -⟩ := inv_round (now n) (ahead_inj hserver) hinv
        (hplaced.answered hinv.server hinv.continues (txn n))
      have hnext : s.after digest txn now (n + 1) = s' := by
        rw [after, hround]
        rfl
      have hpushed : s'.server = (s.after digest txn now n).pushed digest (txn n) :=
        (congrArg (·.state.2.server) hround).symm
      rw [hnext]
      exact ⟨hinv', hplaced.of_round hinv.server hinv.continues hpushed
        (hinv'.kept.device.trans hinv.kept.device.symm)
        (hinv'.kept.own.trans hinv.kept.own.symm)⟩
  obtain ⟨hinv, hplaced⟩ := hboth n
  exact hplaced.answered hinv.server hinv.continues (txn n)

/-! ## Section 6: The drain -/

/-- The rounds made while more is pending keep the invariant. -/
theorem inv_after {digest : HashFunction V} {start : SyncState V} {txn : Nat → Nat}
    {now : Nat → I64}
    (hinj : ∀ a ∈ start.ahead, ∀ b ∈ start.ahead, a.serverSeq = b.serverSeq → a = b)
    (hstart : Inv digest start start)
    (hanswered : ∀ n, (∀ m < n, (start.roundAt digest txn now m).state.1.morePending) →
      (start.after digest txn now n).Answered digest (txn n))
    (n : Nat) (hmore : ∀ m < n, (start.roundAt digest txn now m).state.1.morePending) :
    Inv digest start (start.after digest txn now n) := by
  induction n with
  | zero => exact hstart
  | succ n ih =>
    have hearlier : ∀ m < n, (start.roundAt digest txn now m).state.1.morePending :=
      fun m hm => hmore m (Nat.lt_succ_of_lt hm)
    obtain ⟨outcome, s', hround, hinv, _⟩ :=
      inv_round (now n) hinj (ih hearlier) (hanswered n hearlier)
    show Inv digest start ((start.after digest txn now n).round digest (txn n) (now n)).state.2
    rw [hround]
    exact hinv

/-- A state with an empty queue and no row ahead is one that is drained. -/
theorem Inv.drained {digest : HashFunction V} {start s : SyncState V} (h : Inv digest start s)
    (hqueue : s.store.unsynced = []) (hahead : s.ahead = []) : Drained start s := by
  have hlog : s.server.db.log start.store.deviceId = start.store.loadAll := by
    rw [← h.kept.device, ← h.kept.own]
    exact h.continues.log_eq hqueue
  -- the server has the till's own events by now, and with them their ids only once
  have hapart : Apart start.store.loadAll start.ahead := by
    intro e he row hrow hid
    obtain ⟨hstored, hsibling, _⟩ := Server.mem_siblingRows.mp hrow
    obtain ⟨hown, hdevice⟩ := Server.mem_log.mp (hlog ▸ he)
    have hrowStored := h.kept.stored _ (List.mem_map_of_mem hstored)
    have hsame := s.server.db.table.distinct.eventId_inj hown hrowStored hid
    exact hsibling.1 (hsame ▸ hdevice)
  refine ⟨h.kept.own, hqueue, hlog, fun row hrow hsibling habove => ?_⟩
  have hmem : row ∈ start.ahead := Server.mem_siblingRows.mpr ⟨hrow, hsibling, habove⟩
  have hpassed : row.serverSeq ≤ s.store.pullCursor := by
    rw [h.kept.ahead_eq h.cursor, List.filter_eq_nil_iff] at hahead
    simpa using hahead row hmem
  have hheld := h.passed hapart row hmem hpassed
  exact s.store.table.distinct.filter_eventId hheld

/-- **Draining ends with nothing left**: where a backlog continues the server's chain and no
    request fails, repeating rounds while more is pending stops; each round before the last made
    progress, and after it nothing is queued, the server has the whole chain of the till, and the
    till holds once each event of its siblings that was above its cursor. -/
theorem drain_ends {digest : HashFunction V} {s : SyncState V} {txn : Nat → Nat} {now : Nat → I64}
    (hserver : Transition.Reachable Server.Fresh (Server.step digest) s.server)
    (hbacklog : s.Continues digest)
    (hanswered : ∀ n, (∀ m < n, (s.roundAt digest txn now m).state.1.morePending) →
      (s.after digest txn now n).Answered digest (txn n)) :
    ∃ n,
      (∀ m < n, (s.roundAt digest txn now m).answer = .ok () ∧
        (s.roundAt digest txn now m).state.1.morePending ∧
        Progress (s.after digest txn now m) (s.after digest txn now (m + 1))) ∧
      (s.roundAt digest txn now n).answer = .ok () ∧
      ¬ (s.roundAt digest txn now n).state.1.morePending ∧
      Drained s (s.after digest txn now (n + 1)) := by
  have hinj := ahead_inj hserver
  have hinv := inv_after hinj (inv_start (Server.inv_reachable hserver) hbacklog) hanswered
  -- what is queued and what is ahead, counted together
  let left : Nat → Nat := fun n => (s.after digest txn now n).store.unsynced.length +
    (s.after digest txn now n).ahead.length
  have hdrops : ∀ n, (∀ m < n, (s.roundAt digest txn now m).state.1.morePending) →
      (s.roundAt digest txn now n).state.1.morePending → left (n + 1) < left n := by
    intro n hearlier hmore
    obtain ⟨outcome, s', hround, _, hqueue, hahead, hprogress, _⟩ :=
      inv_round (now n) hinj (hinv n hearlier) (hanswered n hearlier)
    have hnext : s.after digest txn now (n + 1) = s' := by
      rw [after, hround]
      rfl
    rw [roundAt, hround] at hmore
    have hcloser := (hprogress hmore).2
    show (s.after digest txn now (n + 1)).store.unsynced.length +
        (s.after digest txn now (n + 1)).ahead.length <
      (s.after digest txn now n).store.unsynced.length + (s.after digest txn now n).ahead.length
    rw [hnext]
    omega
  obtain ⟨n, hmore, hlast⟩ := Transition.stops_of_measure hdrops
  refine ⟨n, fun m hm => ?_, ?_⟩
  · have hearlier : ∀ i < m, (s.roundAt digest txn now i).state.1.morePending :=
      fun i hi => hmore i (hi.trans hm)
    obtain ⟨outcome, s', hround, _, _, _, hprogress, _⟩ :=
      inv_round (now m) hinj (hinv m hearlier) (hanswered m hearlier)
    have hagain := hmore m hm
    rw [roundAt, hround] at hagain ⊢
    refine ⟨rfl, hagain, ?_⟩
    rw [after, hround]
    exact (hprogress hagain).1
  · obtain ⟨outcome, s', hround, hinv', _, _, _, hdone⟩ :=
      inv_round (now n) hinj (hinv n hmore) (hanswered n hmore)
    rw [roundAt, hround] at hlast ⊢
    refine ⟨rfl, hlast, ?_⟩
    rw [after, hround]
    obtain ⟨hqueue, hahead⟩ := hdone hlast
    exact hinv'.drained hqueue hahead

end SyncState

/-! ### A backlog longer than a batch -/

namespace EventStore

variable {digest : HashFunction V} {d : Uuid} {es : List (EventEnvelope V)}

/-- A store of events it has still to send. -/
def queueing (d : Uuid) (es : List (EventEnvelope V)) (h : DistinctKeys es) : EventStore V :=
  ⟨d, ⟨es.map (⟨·, .local, none, none⟩), by simpa [Function.comp_def] using h⟩, 0⟩

/-- A chain comes out of it as it went in: as what the till recorded, and as what it queues. -/
theorem queueing_loads {start : ChainTip} (h : DistinctKeys es)
    (hchain : ChainFrom digest d start es) :
    (queueing d es h).loadAll = es ∧ (queueing d es h).unsynced = es := by
  have hsorted : (es.map (·.deviceSeq)).Pairwise (· ≤ ·) := by
    rw [chainFrom_range hchain]
    exact List.pairwise_le_range'
  have hwhole : ∀ p : StoredEvent V → Bool, (∀ e, p ⟨e, .local, none, none⟩) →
      orderBy (·.deviceSeq) (((queueing d es h).table.rows.filter p).map (·.event)) = es := by
    intro p hp
    have hrows : (queueing d es h).table.rows.filter p = (queueing d es h).table.rows := by
      rw [List.filter_eq_self]
      intro row hrow
      obtain ⟨e, -, rfl⟩ := List.mem_map.mp hrow
      exact hp e
    have hevents : (queueing d es h).table.rows.map (·.event) = es := by
      simp [queueing, Function.comp_def]
    rw [hrows, hevents]
    exact (List.pairwise_map.mp hsorted).insertionSort_eq
  exact ⟨hwhole _ fun _ => rfl, hwhole _ fun _ => rfl⟩

end EventStore

namespace SyncState

/-- `n` events that till 4 records on from a tip. -/
def recordedFrom : ChainTip → Nat → List (EventEnvelope Unit)
  | _, 0 => []
  | tip, n + 1 =>
    let event := Server.idEvent 4 (Uuid.fromU128 (tip.deviceSeq + 1001)) (tip.deviceSeq + 1)
      tip.hash
    event :: recordedFrom event.tip n

theorem recordedFrom_chain (n : Nat) (tip : ChainTip) (h : tip.deviceSeq + n < 2 ^ 63) :
    ChainFrom Server.idDigest 4 tip (recordedFrom tip n) := by
  induction n generalizing tip with
  | zero => trivial
  | succ n ih =>
    refine ⟨⟨rfl, rfl, ?_, rfl, rfl⟩, ih _ ?_⟩
    · show tip.deviceSeq + 1 < 2 ^ 64
      omega
    · show tip.deviceSeq + 1 + n < 2 ^ 63
      omega

theorem length_recordedFrom (n : Nat) (tip : ChainTip) : (recordedFrom tip n).length = n := by
  induction n generalizing tip with
  | zero => rfl
  | succ n ih => exact congrArg (· + 1) (ih _)

/-- Where they are sealed, and the id that goes with each number. -/
theorem mem_recordedFrom {n : Nat} {tip : ChainTip} {e : EventEnvelope Unit}
    (h : e ∈ recordedFrom tip n) : e.tenantId = 1 ∧ e.outletId = 2 ∧
      e.eventId = Uuid.fromU128 (e.deviceSeq + 1000) ∧ tip.deviceSeq < e.deviceSeq ∧
      e.deviceSeq ≤ tip.deviceSeq + n := by
  induction n generalizing tip with
  | zero => cases h
  | succ n ih =>
    rcases List.mem_cons.mp h with rfl | h
    · exact ⟨rfl, rfl, rfl, Nat.lt_succ_self _, by simp [Server.idEvent]⟩
    · obtain ⟨htenant, houtlet, hid, hlow, hhigh⟩ := ih h
      have hnext : tip.deviceSeq + 1 < e.deviceSeq := hlow
      have hlast : e.deviceSeq ≤ tip.deviceSeq + 1 + n := hhigh
      exact ⟨htenant, houtlet, hid, by omega, by omega⟩

theorem recordedFrom_distinct (n : Nat) (tip : ChainTip) (h : tip.deviceSeq + n < 2 ^ 63) :
    DistinctKeys (recordedFrom tip n) := by
  have hnumbers : ((recordedFrom tip n).map (·.deviceSeq)).Nodup := by
    rw [chainFrom_range (recordedFrom_chain n tip h)]
    exact List.nodup_range'
  have hinj : ∀ a ∈ recordedFrom tip n, ∀ b ∈ recordedFrom tip n,
      a.deviceSeq = b.deviceSeq → a = b := fun a ha b hb => List.inj_on_of_nodup_map hnumbers ha hb
  refine ⟨List.Nodup.map_on (fun a ha b hb hid => hinj a ha b hb ?_) hnumbers.of_map,
    List.Nodup.map_on (fun a ha b hb hkey => hinj a ha b hb (congrArg Prod.snd hkey))
      hnumbers.of_map⟩
  obtain ⟨-, -, ha, -, hfitsA⟩ := mem_recordedFrom ha
  obtain ⟨-, -, hb, -, hfitsB⟩ := mem_recordedFrom hb
  have hsame := Uuid.fromU128_inj (by omega) (by omega) (ha.symm.trans (hid.trans hb))
  omega

theorem backlog_fits : ChainTip.genesis.deviceSeq + 501 < 2 ^ 63 := by decide

/-- Till 4 has 501 events to push, one more than a batch holds, and one of till 6 to pull. -/
def backlogged : SyncState Unit where
  server := (Server.threeTills.push Server.idDigest 0 6 ⟨6, [PullState.siblingEvent 6]⟩).1
  store := .queueing 4 (recordedFrom ChainTip.genesis 501) (recordedFrom_distinct _ _ backlog_fits)

theorem backlogged_loads : backlogged.store.loadAll = recordedFrom ChainTip.genesis 501 ∧
    backlogged.store.unsynced = recordedFrom ChainTip.genesis 501 :=
  EventStore.queueing_loads (recordedFrom_distinct _ _ backlog_fits)
    (recordedFrom_chain _ _ backlog_fits)

theorem backlogged_continues : backlogged.Continues Server.idDigest := by
  obtain ⟨hown, hqueue⟩ := backlogged_loads
  refine ⟨?_, List.nil_prefix, ⟨[], List.nil_prefix, ?_⟩, fun row hrow hremote => ?_⟩
  · rw [hown]
    exact recordedFrom_chain _ _ backlog_fits
  · rw [hown, hqueue, List.nil_append]
  · obtain ⟨e, -, rfl⟩ := List.mem_map.mp hrow
    cases hremote

theorem backlogged_placed : backlogged.Placed 1 2 := by
  obtain ⟨hown, -⟩ := backlogged_loads
  have hstored : backlogged.server.db.table.events = [PullState.siblingEvent 6] := by decide
  refine ⟨⟨_, rfl, rfl, rfl, rfl⟩, ?_, ?_, ?_⟩
  · rw [hown]
    intro e he
    obtain ⟨htenant, houtlet, -⟩ := mem_recordedFrom he
    exact ⟨htenant, houtlet⟩
  · rw [hown]
    intro e he
    obtain ⟨-, -, -, -, hhigh⟩ := mem_recordedFrom he
    exact hhigh.trans_lt backlog_fits
  · -- the sibling's event has an id below those of the till
    rw [hown, hstored]
    intro a ha e he hid
    obtain ⟨-, -, hmine, -, hhigh⟩ := mem_recordedFrom he
    have hbound : e.deviceSeq < 2 ^ 63 := hhigh.trans_lt backlog_fits
    rw [List.mem_singleton.mp ha, hmine] at hid
    have hsame : 6 = e.deviceSeq + 1000 := Uuid.fromU128_inj (by decide) (by omega) hid
    omega

/-- The backlog takes more than a round, and drains. -/
theorem drain_ends_backlogged : ∃ n, 0 < n ∧ Drained backlogged
    (backlogged.after Server.idDigest (fun _ => 1) (fun _ => I64.lit 9) (n + 1)) := by
  have hserver : Transition.Reachable Server.Fresh (Server.step Server.idDigest)
      backlogged.server :=
    Server.push_reachable (.init Server.threeTills_fresh) rfl 6 _
  obtain ⟨n, _, hanswer, hlast, hdrained⟩ := drain_ends hserver backlogged_continues fun n _ =>
    backlogged_placed.answered_after hserver backlogged_continues n
  refine ⟨n, Nat.pos_of_ne_zero ?_, hdrained⟩
  rintro rfl
  -- the first round sends a batch, and an event is left
  have hlong : maxBatch < backlogged.store.unsynced.length := by
    rw [backlogged_loads.2, length_recordedFrom]
    decide
  exact hlast (round_morePending hlong hanswer)

end SyncState

end Sahl
