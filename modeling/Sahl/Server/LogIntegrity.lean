import Mathlib.Tactic
import Sahl.Lib.Transition
import Sahl.Server.Ingest

/-! # The server's log

    Whatever batches are pushed and however their transactions overlap, the committed log of a
    device is an unbroken chain from genesis to the stored tip (`Server.Inv`). Where the batches
    are slices of one chain, the log is a prefix of it (`push_log_integrity`). -/

namespace Sahl

variable {V : Type}

namespace Server

/-! ## Section 1: What one step does -/

/-- A push is answered at once, with nothing stored, or opens a transaction. -/
theorem beginPush_cases (digest : HashFunction V) (s : Server V) (t : Nat) (d : Uuid)
    (request : PushRequest V) :
    (∃ answer, s.beginPush digest t d request = (s, answer) ∧ answer ≠ .ok none ∧
      ∀ response, answer = .ok (some response) → ∃ record plan,
        openPush digest s.db d request = .ok (record, plan) ∧ plan.toInsert = 0 ∧
          response.accepted = 0 ∧ response.skipped = plan.alreadyStored ∧
            response.tip = record.tip) ∨
      ∃ record plan, openPush digest s.db d request = .ok (record, plan) ∧ plan.isNoop = false ∧
        s.beginPush digest t d request =
          ({ s with txns := s.setTxn t (some ⟨d, record, plan,
            request.events.drop plan.alreadyStored, []⟩) }, .ok none) := by
  unfold beginPush
  split
  · exact .inl ⟨_, rfl, by simp, by simp⟩
  · rename_i record plan hopen
    split
    · -- everything is stored already: answered at once
      rename_i hnoop
      refine .inl ?_
      split
      · exact ⟨_, rfl, by simp, by simp⟩
      · refine ⟨_, rfl, by simp, fun response hresponse => ⟨record, plan, hopen, ?_⟩⟩
        cases hresponse
        exact ⟨of_decide_eq_true hnoop, rfl, rfl, rfl⟩
    · rename_i hnoop
      exact .inr ⟨record, plan, hopen, by simpa using hnoop, rfl⟩

theorem openPush_eq_ok {digest : HashFunction V} {db : Db V} {d : Uuid} {request : PushRequest V}
    {record : DeviceRecord} {plan : BatchPlan}
    (h : openPush digest db d request = .ok (record, plan)) :
    db.device d = some record ∧ planBatch digest request.events record.tip d = .ok plan := by
  simp only [openPush, authenticate, Except.bind_eq_ok, Except.okOr_eq_ok] at h
  obtain ⟨record', ⟨record'', hrecord, hauth⟩, h⟩ := h
  split at hauth
  · cases hauth
  cases hauth
  split at h
  · cases h
  simp only [Except.bind_eq_ok, Except.mapError_eq_ok] at h
  obtain ⟨_, _, plan', hplan, h⟩ := h
  cases h
  exact ⟨hrecord, hplan⟩

theorem insertNext_cases (s : Server V) (t : Nat) :
    (s.insertNext t).1 = s ∨ (s.insertNext t).1 = s.abort t ∨
      ∃ txn e rest, s.txns t = some txn ∧ txn.todo = e :: rest ∧ scopeCheck txn e = .ok () ∧
        s.insertNext t =
          (⟨s.db, s.nextSeq + 1, s.setTxn t (some { txn with
            todo := rest, rows := txn.rows ++ [⟨e, s.nextSeq⟩] })⟩, .ok ()) := by
  unfold insertNext
  split
  · exact .inl rfl
  · rename_i txn htxn
    split
    · exact .inl rfl
    · rename_i e rest htodo
      split
      · exact .inr (.inl rfl)
      · rename_i hscope
        exact .inr (.inr ⟨txn, e, rest, htxn, htodo, hscope, rfl⟩)

theorem commit_cases (s : Server V) (t : Nat) :
    (s.commit t).1 = s ∨ (s.commit t).1 = s.abort t ∨
      ∃ txn table, s.txns t = some txn ∧ txn.todo = [] ∧
        s.db.table.insert? txn.rows = some table ∧
        s.commit t =
          (⟨⟨s.db.setTip txn.deviceId txn.plan.resultingTip, table⟩, s.nextSeq, s.setTxn t none⟩,
           .ok ⟨txn.plan.toInsert, txn.plan.alreadyStored, txn.plan.resultingTip,
             (txn.rows.map (·.serverSeq)).foldl max 0⟩) := by
  unfold commit
  split
  · exact .inl rfl
  · rename_i txn htxn
    split
    · exact .inl rfl
    · rename_i htodo
      split
      · exact .inr (.inl rfl)
      · rename_i table htable
        exact .inr (.inr ⟨txn, table, htxn, not_not.mp htodo, htable, rfl⟩)

/-- The committed state moves by commits only. -/
theorem step_db {digest : HashFunction V} {s s' : Server V} {a : Action V}
    (h : step digest s a s') :
    s'.db = s.db ∨ ∃ t txn table, a = .commit t ∧ s.txns t = some txn ∧ txn.todo = [] ∧
      s.db.table.insert? txn.rows = some table ∧
      s' = ⟨⟨s.db.setTip txn.deviceId txn.plan.resultingTip, table⟩, s.nextSeq,
        s.setTxn t none⟩ := by
  cases a with
  | beginPush t d request =>
    obtain ⟨_, rfl⟩ := h
    rcases beginPush_cases digest s t d request with ⟨_, h, _⟩ | ⟨_, _, _, _, h⟩
    all_goals exact .inl (by rw [h])
  | insertNext t =>
    obtain rfl := h
    rcases insertNext_cases s t with h | h | ⟨_, _, _, _, _, _, h⟩
    · exact .inl (by rw [h])
    · exact .inl (by rw [h]; rfl)
    · exact .inl (by rw [h])
  | commit t =>
    obtain rfl := h
    -- a commit with events left to insert, or whose rows clash, is rolled back
    rcases commit_cases s t with h | h | ⟨txn, table, htxn, htodo, htable, h⟩
    · exact .inl (by rw [h])
    · exact .inl (by rw [h]; rfl)
    · exact .inr ⟨t, txn, table, rfl, htxn, htodo, htable, by rw [h]⟩
  | abort t =>
    obtain rfl := h
    exact .inl rfl

/-- Committed events stay. -/
theorem step_events {digest : HashFunction V} {s s' : Server V} {a : Action V}
    (h : step digest s a s') {e : EventEnvelope V} (he : e ∈ s.db.table.events) :
    e ∈ s'.db.table.events := by
  rcases step_db h with hdb | ⟨_, _, _, _, _, _, htable, rfl⟩
  · rwa [hdb]
  · rw [EventTable.insert?_events htable]
    exact List.mem_append_left _ he

/-! ## Section 2: The invariant -/

/-- An open transaction holds a run of events that follows the tip it read, which was the tip of
    some prefix of the log. -/
structure TxnInv (digest : HashFunction V) (db : Db V) (txn : PushTxn V) : Prop where
  device : ∃ record, db.device txn.deviceId = some record ∧
    record.tenantId = txn.record.tenantId ∧ record.outletId = txn.record.outletId
  base : ∃ n ≤ (db.log txn.deviceId).length,
    txn.record.tip = endTip ChainTip.genesis ((db.log txn.deviceId).take n)
  chain : ChainFrom digest txn.deviceId txn.record.tip txn.batch
  nonempty : txn.batch ≠ []
  tip : txn.plan.resultingTip = endTip txn.record.tip txn.batch
  fits : ∀ row ∈ txn.rows, row.event.deviceSeq < 2 ^ 63

/-- Every log is an unbroken chain from genesis to the tip of its device. -/
structure Inv (digest : HashFunction V) (s : Server V) : Prop where
  enrolled : ∀ e ∈ s.db.table.events, ∃ record, s.db.device e.deviceId = some record
  fits : ∀ e ∈ s.db.table.events, e.deviceSeq < 2 ^ 63
  chain : ∀ d record, s.db.device d = some record →
    ChainFrom digest d ChainTip.genesis (s.db.log d) ∧
      record.tip = endTip ChainTip.genesis (s.db.log d)
  txn : ∀ t txn, s.txns t = some txn → TxnInv digest s.db txn

/-- What a committed transaction adds to a log. -/
theorem log_insert? {db : Db V} {device : Uuid → Option DeviceRecord}
    {table : EventTable V (EventRow V) EventRow.event} {rows : List (EventRow V)} (d : Uuid)
    (h : db.table.insert? rows = some table) :
    Db.log ⟨device, table⟩ d = db.log d ++ (rows.map (·.event)).filter (·.deviceId = d) := by
  simp only [Db.log, EventTable.insert?_events h, List.filter_append]

theorem setTip_self {db : Db V} {d : Uuid} {record : DeviceRecord} (tip : ChainTip)
    (h : db.device d = some record) : db.setTip d tip d = some { record with tip } := by
  simp [Db.setTip, h]

theorem setTip_ne (db : Db V) {d x : Uuid} (tip : ChainTip) (h : x ≠ d) :
    db.setTip d tip x = db.device x := by
  simp [Db.setTip, h]

theorem mem_log {db : Db V} {d : Uuid} {e : EventEnvelope V} :
    e ∈ db.log d ↔ e ∈ db.table.events ∧ e.deviceId = d := by
  simp [Db.log]

/-- The log of any device, enrolled or not, is a chain from genesis. -/
theorem Inv.log_chain {digest : HashFunction V} {s : Server V} (h : Inv digest s) (d : Uuid) :
    ChainFrom digest d ChainTip.genesis (s.db.log d) := by
  cases hlog : s.db.log d with
  | nil => trivial
  | cons e es =>
    obtain ⟨he, rfl⟩ := mem_log.mp (hlog ▸ List.mem_cons_self)
    obtain ⟨record, hrecord⟩ := h.enrolled e he
    rw [← hlog]
    exact (h.chain _ record hrecord).1

/-- One committed state extends another: devices stay where they are enrolled, logs grow at
    their end. -/
structure Extends (db db' : Db V) : Prop where
  device : ∀ d record, db.device d = some record → ∃ record', db'.device d = some record' ∧
    record'.tenantId = record.tenantId ∧ record'.outletId = record.outletId
  log : ∀ d, db.log d <+: db'.log d

theorem TxnInv.mono {digest : HashFunction V} {db db' : Db V} {txn : PushTxn V}
    (h : TxnInv digest db txn) (hdb : Extends db db') : TxnInv digest db' txn := by
  obtain ⟨⟨record, hrecord, htenant, houtlet⟩, ⟨n, hn, hbase⟩, hchain, hne, htip, hfits⟩ := h
  obtain ⟨record', hrecord', htenant', houtlet'⟩ := hdb.device _ _ hrecord
  obtain ⟨more, hmore⟩ := hdb.log txn.deviceId
  refine ⟨⟨record', hrecord', htenant'.trans htenant, houtlet'.trans houtlet⟩,
    ⟨n, ?_, ?_⟩, hchain, hne, htip, hfits⟩
  · rw [← hmore, List.length_append]
    omega
  · rw [hbase, ← hmore, List.take_append_of_le_length hn]

/-- A transaction that can insert what it holds began at the tip the log still has. -/
theorem TxnInv.base_eq {digest : HashFunction V} {db : Db V} {txn : PushTxn V}
    {table : EventTable V (EventRow V) EventRow.event} (h : TxnInv digest db txn)
    (hlog : ChainFrom digest txn.deviceId ChainTip.genesis (db.log txn.deviceId))
    (htodo : txn.todo = []) (htable : db.table.insert? txn.rows = some table) :
    txn.record.tip = endTip ChainTip.genesis (db.log txn.deviceId) := by
  obtain ⟨n, hn, hbase⟩ := h.base
  rcases hn.eq_or_lt with rfl | hlt
  · rw [hbase, List.take_length]
  -- otherwise the first event of the batch repeats a sequence number of the log
  exfalso
  obtain ⟨e, es, hbatch⟩ := List.exists_cons_of_ne_nil h.nonempty
  have hfirst : Follows digest txn.deviceId txn.record.tip e := by
    have := h.chain
    rw [hbatch] at this
    exact this.1
  have hseq : e.deviceSeq = n + 1 := by
    rw [hfirst.seq, hbase, endTip_deviceSeq (chainFrom_take hlog n), List.length_take,
      min_eq_left hn]
    simp [ChainTip.genesis]
  obtain ⟨stored, hstored⟩ : ∃ a, (db.log txn.deviceId)[n]? = some a :=
    ⟨_, List.getElem?_eq_getElem hlt⟩
  obtain ⟨hstoredSeq, hstoredDevice, _⟩ := chainFrom_getElem hlog hstored
  have hrows : txn.rows.map (·.event) = e :: es := by
    rw [← hbatch, PushTxn.batch, htodo, List.append_nil]
  have hnodup := table.distinct.2
  rw [EventTable.insert?_eq_some.mp htable, List.map_append, List.map_append,
    List.nodup_append] at hnodup
  refine hnodup.2.2 (stored.deviceId, stored.deviceSeq) ?_ (e.deviceId, e.deviceSeq) ?_ ?_
  · exact List.mem_map_of_mem (mem_log.mp (List.mem_of_getElem? hstored)).1
  · rw [hrows]
    simp
  · rw [hstoredDevice, hfirst.device, hstoredSeq, hseq]
    simp [ChainTip.genesis]

/-- What a commit leaves: the batch stands at the end of its device's log. -/
theorem commit_log {digest : HashFunction V} {s : Server V} {txn : PushTxn V}
    {table : EventTable V (EventRow V) EventRow.event} {device : Uuid → Option DeviceRecord}
    (htxn : TxnInv digest s.db txn) (htodo : txn.todo = [])
    (htable : s.db.table.insert? txn.rows = some table) (d : Uuid) :
    Db.log ⟨device, table⟩ d = s.db.log d ++ if txn.deviceId = d then txn.batch else [] := by
  have hbatch : txn.rows.map (·.event) = txn.batch := by
    rw [PushTxn.batch, htodo, List.append_nil]
  rw [log_insert? d htable, hbatch]
  congr 1
  split
  · rename_i hd
    rw [List.filter_eq_self]
    intro e he
    simpa [← hd] using (chainFrom_mem htxn.chain he).2.1
  · rename_i hd
    rw [List.filter_eq_nil_iff]
    intro e he
    simpa [(chainFrom_mem htxn.chain he).2.1] using hd

/-- Every step leaves the logs or extends them. -/
theorem step_extends {digest : HashFunction V} {s s' : Server V} {a : Action V}
    (hinv : Inv digest s) (h : step digest s a s') : Extends s.db s'.db := by
  rcases step_db h with hdb | ⟨t, txn, table, _, htxn, htodo, htable, rfl⟩
  · rw [hdb]
    exact ⟨fun d record hrecord => ⟨record, hrecord, rfl, rfl⟩, fun d => List.prefix_rfl⟩
  · refine ⟨fun d record hrecord => ?_, fun d => ?_⟩
    · by_cases hd : d = txn.deviceId
      · subst hd
        exact ⟨_, setTip_self _ hrecord, rfl, rfl⟩
      · exact ⟨record, (setTip_ne _ _ hd).trans hrecord, rfl, rfl⟩
    · rw [commit_log (hinv.txn t txn htxn) htodo htable d]
      exact List.prefix_append _ _

theorem inv_fresh {digest : HashFunction V} {s : Server V} (h : Fresh s) : Inv digest s where
  enrolled := by simp [h.table]
  fits := by simp [h.table]
  chain := by
    intro d record hrecord
    have hlog : s.db.log d = [] := by simp [Db.log, h.table]
    rw [hlog]
    exact ⟨trivial, h.tip d record hrecord⟩
  txn := by
    intro t txn htxn
    rw [h.txns t] at htxn
    cases htxn

/-! ## Section 3: Steps keep the invariant -/

/-- Steps that leave the committed state keep the invariant when they keep that of their
    transactions. -/
theorem Inv.of_db_eq {digest : HashFunction V} {s s' : Server V} (h : Inv digest s)
    (hdb : s'.db = s.db) (htxn : ∀ t txn, s'.txns t = some txn → TxnInv digest s.db txn) :
    Inv digest s' where
  enrolled := hdb ▸ h.enrolled
  fits := hdb ▸ h.fits
  chain := hdb ▸ h.chain
  txn := hdb ▸ htxn

theorem inv_abort {digest : HashFunction V} {s : Server V} (t : Nat) (h : Inv digest s) :
    Inv digest (s.abort t) := by
  refine h.of_db_eq rfl fun x txn htxn => ?_
  by_cases hx : x = t
  · simp [abort, setTxn, hx] at htxn
  · exact h.txn x txn (by simpa [abort, setTxn, hx] using htxn)

/-- A transaction put in place of another keeps the invariant when it has it. -/
theorem inv_setTxn {digest : HashFunction V} {s : Server V} {t : Nat} {txn : PushTxn V} (n : Int)
    (h : Inv digest s) (htxn : TxnInv digest s.db txn) :
    Inv digest ⟨s.db, n, s.setTxn t (some txn)⟩ := by
  refine h.of_db_eq rfl fun x txn' htxn' => ?_
  by_cases hx : x = t
  · subst hx
    simp only [setTxn_self, Option.some.injEq] at htxn'
    exact htxn' ▸ htxn
  · exact h.txn x txn' (by simpa [setTxn, hx] using htxn')

theorem inv_beginPush {digest : HashFunction V} {s : Server V} (t : Nat) (d : Uuid)
    (request : PushRequest V) (h : Inv digest s) :
    Inv digest (s.beginPush digest t d request).1 := by
  rcases beginPush_cases digest s t d request with ⟨_, hs, _⟩ | ⟨record, plan, hopen, hnoop, hs⟩
  · rwa [hs]
  rw [hs]
  obtain ⟨hrecord, hplan⟩ := openPush_eq_ok hopen
  obtain ⟨hzero, _⟩ | ⟨hne, _, hchain, htip, _⟩ := planBatch_eq_ok hplan
  · simp [BatchPlan.isNoop, hzero] at hnoop
  refine inv_setTxn _ h ⟨⟨record, hrecord, rfl, rfl⟩, ⟨_, le_rfl, ?_⟩, hchain, hne, htip,
    by simp⟩
  rw [List.take_length]
  exact (h.chain d record hrecord).2

/-- Inserting an event moves it within the batch. -/
theorem batch_insertNext {txn : PushTxn V} {e : EventEnvelope V} {rest : List (EventEnvelope V)}
    {n : Int} (h : txn.todo = e :: rest) :
    PushTxn.batch { txn with todo := rest, rows := txn.rows ++ [⟨e, n⟩] } = txn.batch := by
  simp [PushTxn.batch, h]

theorem scopeCheck_fits {txn : PushTxn V} {e : EventEnvelope V} (h : scopeCheck txn e = .ok ()) :
    e.deviceSeq < 2 ^ 63 := by
  unfold scopeCheck at h
  split at h
  · cases h
  split at h
  · cases h
  · rename_i hfits
    exact not_le.mp hfits

theorem inv_insertNext {digest : HashFunction V} {s : Server V} (t : Nat) (h : Inv digest s) :
    Inv digest (s.insertNext t).1 := by
  rcases insertNext_cases s t with hs | hs | ⟨txn, e, rest, htxn, htodo, hscope, hs⟩
  · rwa [hs]
  · rw [hs]
    exact inv_abort t h
  rw [hs]
  have hold := h.txn t txn htxn
  have hbatch := batch_insertNext (n := s.nextSeq) htodo
  refine inv_setTxn _ h ⟨hold.device, hold.base, ?_, ?_, ?_, fun row hrow => ?_⟩
  · rw [hbatch]
    exact hold.chain
  · rw [hbatch]
    exact hold.nonempty
  · rw [hbatch]
    exact hold.tip
  · rcases List.mem_append.mp hrow with hrow | hrow
    · exact hold.fits row hrow
    · rw [List.mem_singleton.mp hrow]
      exact scopeCheck_fits hscope

theorem inv_commit {digest : HashFunction V} {s : Server V} (t : Nat) (h : Inv digest s) :
    Inv digest (s.commit t).1 := by
  have hextends := step_extends (a := .commit t) h rfl
  rcases commit_cases s t with hs | hs | ⟨txn, table, htxn, htodo, htable, hs⟩
  · rwa [hs]
  · rw [hs]
    exact inv_abort t h
  rw [hs] at hextends ⊢
  have hold := h.txn t txn htxn
  obtain ⟨record, hrecord, _⟩ := hold.device
  obtain ⟨hlog, _⟩ := h.chain _ record hrecord
  have hbase := hold.base_eq hlog htodo htable
  -- a commit appends the batch to the log of its device and to no other
  have hcommit : ∀ d, Db.log ⟨s.db.setTip txn.deviceId txn.plan.resultingTip, table⟩ d =
      s.db.log d ++ if txn.deviceId = d then txn.batch else [] :=
    commit_log hold htodo htable
  refine ⟨fun e he => ?_, fun e he => ?_, fun d record' hrecord' => ?_, fun x txn' htxn' => ?_⟩
  · -- a stored event is of an enrolled device: it was there, or it is of the batch
    have he : e ∈ Db.log ⟨s.db.setTip txn.deviceId txn.plan.resultingTip, table⟩ e.deviceId :=
      mem_log.mpr ⟨he, rfl⟩
    rw [hcommit, List.mem_append] at he
    rcases he with he | he
    · obtain ⟨record', hrecord'⟩ := h.enrolled e (mem_log.mp he).1
      obtain ⟨record'', hrecord'', _⟩ := hextends.device _ _ hrecord'
      exact ⟨record'', hrecord''⟩
    · split at he
      · rename_i hd
        rw [← hd]
        exact ⟨_, setTip_self _ hrecord⟩
      · cases he
  · rcases List.mem_append.mp (EventTable.insert?_events htable ▸ he) with he | he
    · exact h.fits e he
    · obtain ⟨row, hrow, rfl⟩ := List.mem_map.mp he
      exact hold.fits row hrow
  · show ChainFrom digest d ChainTip.genesis
        (Db.log ⟨s.db.setTip txn.deviceId txn.plan.resultingTip, table⟩ d) ∧
      record'.tip = endTip ChainTip.genesis
        (Db.log ⟨s.db.setTip txn.deviceId txn.plan.resultingTip, table⟩ d)
    rw [hcommit]
    -- the chain of the device goes on from the tip the batch was planned on
    by_cases hd : d = txn.deviceId
    · subst hd
      rw [if_pos rfl]
      obtain rfl : { record with tip := txn.plan.resultingTip } = record' :=
        Option.some.inj ((setTip_self _ hrecord).symm.trans hrecord')
      rw [chainFrom_append, endTip_append, ← hbase]
      exact ⟨⟨hlog, hold.chain⟩, hold.tip⟩
    · rw [if_neg (Ne.symm hd), List.append_nil]
      exact h.chain d record' ((setTip_ne _ _ hd).symm.trans hrecord')
  · by_cases hx : x = t
    · simp [setTxn, hx] at htxn'
    · exact (h.txn x txn' (by simpa [setTxn, hx] using htxn')).mono hextends

theorem inv_step {digest : HashFunction V} {s s' : Server V} {a : Action V} (h : Inv digest s)
    (hstep : step digest s a s') : Inv digest s' := by
  cases a with
  | beginPush t d request =>
    obtain ⟨_, rfl⟩ := hstep
    exact inv_beginPush t d request h
  | insertNext t =>
    obtain rfl := hstep
    exact inv_insertNext t h
  | commit t =>
    obtain rfl := hstep
    exact inv_commit t h
  | abort t =>
    obtain rfl := hstep
    exact inv_abort t h

theorem inv_reachable {digest : HashFunction V} {s : Server V}
    (h : Transition.Reachable Fresh (step digest) s) : Inv digest s :=
  h.invariant (fun _ => inv_fresh) fun _ _ _ => inv_step

/-! ## Section 4: Batches cut from one chain -/

/-- The pushes of device `d` bring slices of `truth`; those of other devices bring anything. -/
def SlicesOf (d : Uuid) (truth : List (EventEnvelope V)) (_ : Server V) : Action V → Prop
  | .beginPush _ authenticated request => authenticated = d → request.events <:+: truth
  | _ => True

/-- What is stored of the device is a prefix of its chain, what is being stored a slice. -/
structure WithinTruth (d : Uuid) (truth : List (EventEnvelope V)) (s : Server V) : Prop where
  log : s.db.log d <+: truth
  txn : ∀ t txn, s.txns t = some txn → txn.deviceId = d → txn.batch <:+: truth

/-- A slice that follows a prefix continues it. -/
theorem prefix_append_slice {digest : HashFunction V} {d : Uuid}
    {truth log batch : List (EventEnvelope V)} (htruth : ChainFrom digest d ChainTip.genesis truth)
    (hlog : log <+: truth) (hbatch : batch <:+: truth) (hne : batch ≠ [])
    (hchain : ChainFrom digest d (endTip ChainTip.genesis log) batch) : log ++ batch <+: truth := by
  obtain ⟨more, rfl⟩ := hlog
  obtain ⟨before, after, hslice⟩ := hbatch
  obtain ⟨e, es, rfl⟩ := List.exists_cons_of_ne_nil hne
  -- the batch stands where its first sequence number says: right after the log
  have hlogChain := (chainFrom_append.mp htruth).1
  have hbefore : ChainFrom digest d ChainTip.genesis before := by
    rw [← hslice, List.append_assoc] at htruth
    exact (chainFrom_append.mp htruth).1
  have hlength : before.length = log.length := by
    have hat : (before ++ e :: es ++ after)[before.length]? = some e := by simp
    rw [hslice] at hat
    have hseq := (chainFrom_getElem htruth hat).1
    rw [hchain.1.seq, endTip_deviceSeq hlogChain] at hseq
    omega
  rw [List.append_assoc] at hslice
  obtain ⟨rfl, hrest⟩ := List.append_inj hslice hlength
  exact ⟨after, by rw [← hrest, List.append_assoc]⟩

theorem withinTruth_fresh {s : Server V} (d : Uuid) (truth : List (EventEnvelope V))
    (h : Fresh s) : WithinTruth d truth s where
  log := by simp [Db.log, h.table]
  txn := by
    intro t txn htxn
    rw [h.txns t] at htxn
    cases htxn

theorem withinTruth_setTxn {s : Server V} {t : Nat} {txn : PushTxn V} {d : Uuid}
    {truth : List (EventEnvelope V)} (n : Int) (h : WithinTruth d truth s)
    (htxn : txn.deviceId = d → txn.batch <:+: truth) :
    WithinTruth d truth ⟨s.db, n, s.setTxn t (some txn)⟩ := by
  refine ⟨h.log, fun x txn' htxn' => ?_⟩
  by_cases hx : x = t
  · subst hx
    simp only [setTxn_self, Option.some.injEq] at htxn'
    exact htxn' ▸ htxn
  · exact h.txn x txn' (by simpa [setTxn, hx] using htxn')

theorem withinTruth_abort {s : Server V} (t : Nat) {d : Uuid} {truth : List (EventEnvelope V)}
    (h : WithinTruth d truth s) : WithinTruth d truth (s.abort t) := by
  refine ⟨h.log, fun x txn htxn => ?_⟩
  by_cases hx : x = t
  · simp [abort, setTxn, hx] at htxn
  · exact h.txn x txn (by simpa [abort, setTxn, hx] using htxn)

theorem withinTruth_step {digest : HashFunction V} {d : Uuid} {truth : List (EventEnvelope V)}
    {s s' : Server V} {a : Action V} (htruth : ChainFrom digest d ChainTip.genesis truth)
    (hinv : Inv digest s) (h : WithinTruth d truth s) (hguard : SlicesOf d truth s a)
    (hstep : step digest s a s') : WithinTruth d truth s' := by
  cases a with
  -- what a push opens is a slice of what the device wrote
  | beginPush t authenticated request =>
    obtain ⟨_, rfl⟩ := hstep
    rcases beginPush_cases digest s t authenticated request with
      ⟨_, hs, _⟩ | ⟨record, plan, _, _, hs⟩
    · rwa [hs]
    rw [hs]
    refine withinTruth_setTxn _ h fun hd => ?_
    exact (List.drop_suffix _ _).isInfix.trans (hguard hd)
  | insertNext t =>
    obtain rfl := hstep
    rcases insertNext_cases s t with hs | hs | ⟨txn, e, rest, htxn, htodo, _, hs⟩
    · rwa [hs]
    · rw [hs]
      exact withinTruth_abort t h
    · rw [hs]
      refine withinTruth_setTxn _ h fun hd => ?_
      rw [batch_insertNext htodo]
      exact h.txn t txn htxn hd
  | commit t =>
    obtain rfl := hstep
    rcases commit_cases s t with hs | hs | ⟨txn, table, htxn, htodo, htable, hs⟩
    · rwa [hs]
    · rw [hs]
      exact withinTruth_abort t h
    rw [hs]
    have hold := hinv.txn t txn htxn
    refine ⟨?_, fun x txn' htxn' => ?_⟩
    · rw [commit_log hold htodo htable d]
      split
      · rename_i hd
        subst hd
        obtain ⟨record, hrecord, _⟩ := hold.device
        have hbase := hold.base_eq (hinv.chain _ record hrecord).1 htodo htable
        -- two slices of one chain that meet make a longer prefix of it
        exact prefix_append_slice htruth h.log (h.txn t txn htxn rfl) hold.nonempty
          (hbase ▸ hold.chain)
      · rw [List.append_nil]
        exact h.log
    · by_cases hx : x = t
      · simp [setTxn, hx] at htxn'
      · exact h.txn x txn' (by simpa [setTxn, hx] using htxn')
  | abort t =>
    obtain rfl := hstep
    exact withinTruth_abort t h

theorem withinTruth_reachable {digest : HashFunction V} {d : Uuid}
    {truth : List (EventEnvelope V)} {s : Server V}
    (htruth : ChainFrom digest d ChainTip.genesis truth)
    (h : Transition.Reachable Fresh (Transition.Guarded (step digest) (SlicesOf d truth)) s) :
    WithinTruth d truth s := by
  refine (h.invariant (I := fun s => Inv digest s ∧ WithinTruth d truth s) ?_ ?_).2
  · intro s hs
    exact ⟨inv_fresh hs, withinTruth_fresh d truth hs⟩
  · rintro s a s' ⟨hinv, htrue⟩ ⟨hguard, hstep⟩
    exact ⟨inv_step hinv hstep, withinTruth_step htruth hinv htrue hguard hstep⟩

/-! ## Section 5: Resends -/

/-- A batch that lies within the stored log is planned as nothing to do. -/
theorem planBatch_stored {digest : HashFunction V} {d : Uuid} {log batch : List (EventEnvelope V)}
    (hlog : ChainFrom digest d ChainTip.genesis log) (hfits : ∀ e ∈ log, e.deviceSeq < 2 ^ 63)
    (hbatch : batch <:+: log) :
    planBatch digest batch (endTip ChainTip.genesis log) d =
      .ok ⟨batch.length, 0, endTip ChainTip.genesis log⟩ := by
  match batch with
  | [] => rfl
  | first :: rest =>
    obtain ⟨before, after, hslice⟩ := hbatch
    have hmem : ∀ e ∈ first :: rest, e.deviceId = d := fun e he =>
      (chainFrom_mem hlog (by rw [← hslice]; simp only [List.mem_append]; exact .inl (.inr he))).2.1
    have hfind : (first :: rest).find? (·.deviceId ≠ d) = none := by
      rw [List.find?_eq_none]
      intro e he
      simpa using hmem e he
    have hat : log[before.length]? = some first := by
      rw [← hslice]
      simp
    have hfirst := (chainFrom_getElem hlog hat).1
    have htip := endTip_deviceSeq hlog
    have hlength : log.length = before.length + (rest.length + 1) + after.length := by
      rw [← hslice]
      simp only [List.length_append, List.length_cons]
    have hgenesis : ChainTip.genesis.deviceSeq = 0 := rfl
    obtain ⟨last, hlast⟩ : ∃ e, log[log.length - 1]? = some e :=
      ⟨_, List.getElem?_eq_getElem (by omega)⟩
    have hlastSeq := (chainFrom_getElem hlog hlast).1
    have hlastFits := hfits last (List.mem_of_getElem? hlast)
    have hsat := satNextSeq_of_lt (n := (endTip ChainTip.genesis log).deviceSeq) (by omega)
    -- the batch lies within the log, so there is no gap and all of it is overlap
    have hgap : ¬ satNextSeq (endTip ChainTip.genesis log).deviceSeq < first.deviceSeq := by
      omega
    have hoverlap : overlapOf (endTip ChainTip.genesis log) first (first :: rest) =
        (first :: rest).length := by
      rw [overlapOf, hsat, List.length_cons]
      omega
    simp only [planBatch, hfind, if_neg hgap, hoverlap, List.drop_length, List.isEmpty_nil,
      if_true]

/-- A resend of stored events is answered without storing anything. -/
theorem beginPush_stored {digest : HashFunction V} {s : Server V} {d : Uuid}
    {record : DeviceRecord} {request : PushRequest V} (t : Nat) (hinv : Inv digest s)
    (hrecord : s.db.device d = some record) (hstored : request.events <:+: s.db.log d) :
    ∃ answer, s.beginPush digest t d request = (s, answer) ∧ answer ≠ .ok none ∧
      ∀ response, answer = .ok (some response) →
        response.accepted = 0 ∧ response.skipped = request.events.length ∧
          response.tip = record.tip := by
  obtain ⟨hlog, htip⟩ := hinv.chain d record hrecord
  -- stored events are planned as stored already, to the last one
  have hplanned : ∀ record' plan, openPush digest s.db d request = .ok (record', plan) →
      record' = record ∧ plan = ⟨request.events.length, 0, record.tip⟩ := by
    intro record' plan hopen
    obtain ⟨hrecord', hplan⟩ := openPush_eq_ok hopen
    obtain rfl := Option.some.inj (hrecord.symm.trans hrecord')
    rw [htip, planBatch_stored hlog (fun e he => hinv.fits e (mem_log.mp he).1) hstored] at hplan
    exact ⟨rfl, by rw [htip]; exact (Except.ok.inj hplan).symm⟩
  rcases beginPush_cases digest s t d request with
    ⟨answer, hbegin, hnone, hanswer⟩ | ⟨record', plan, hopen, hnoop, _⟩
  · refine ⟨answer, hbegin, hnone, fun response hresponse => ?_⟩
    obtain ⟨record', plan, hopen, _, haccepted, hskipped, hresponseTip⟩ :=
      hanswer response hresponse
    obtain ⟨rfl, rfl⟩ := hplanned record' plan hopen
    exact ⟨haccepted, hskipped, hresponseTip⟩
  · obtain ⟨_, rfl⟩ := hplanned record' plan hopen
    cases hnoop

/-- A push of stored events leaves the server as it is. -/
theorem push_stored {digest : HashFunction V} {s : Server V} {d : Uuid}
    {record : DeviceRecord} {request : PushRequest V} (t : Nat) (hinv : Inv digest s)
    (hrecord : s.db.device d = some record) (hstored : request.events <:+: s.db.log d) :
    ∃ answer, s.push digest t d request = (s, answer) ∧ ∀ response, answer = .ok response →
      response.accepted = 0 ∧ response.skipped = request.events.length ∧
        response.tip = record.tip := by
  obtain ⟨answer, hbegin, hnone, hresponse⟩ := beginPush_stored t hinv hrecord hstored
  rw [push, hbegin]
  match answer with
  | .error rejection => exact ⟨_, rfl, by simp⟩
  | .ok none => exact absurd rfl hnone
  | .ok (some response) =>
    exact ⟨_, rfl, fun response' h => by cases h; exact hresponse response rfl⟩

/-- **Log integrity**: where the pushes of a device bring slices of its chain, whatever else is
    pushed and however the transactions overlap, the device's log is at every moment a prefix of
    the chain, numbered from 1 without a gap and verified to the stored tip; no step shortens it,
    and a resend of stored events changes nothing. -/
theorem push_log_integrity {digest : HashFunction V} {d : Uuid} {truth : List (EventEnvelope V)}
    {chain : EventChain} (htruth : AppendRun digest (EventChain.new d) truth chain) {s : Server V}
    (hreach : Transition.Reachable Fresh
      (Transition.Guarded (step digest) (SlicesOf d truth)) s) :
    s.db.log d <+: truth ∧
      (s.db.log d).map (·.deviceSeq) = List.range' 1 (s.db.log d).length ∧
      (∀ record, s.db.device d = some record →
        verifyChainFromGenesis digest (s.db.log d) = .ok record.tip) ∧
      (∀ a s', Transition.Guarded (step digest) (SlicesOf d truth) s a s' →
        s.db.log d <+: s'.db.log d) ∧
      (∀ t request record, s.db.device d = some record → request.events <:+: s.db.log d →
        ∃ answer, s.push digest t d request = (s, answer) ∧ ∀ response, answer = .ok response →
          response.accepted = 0 ∧ response.skipped = request.events.length ∧
            response.tip = record.tip) := by
  obtain ⟨_, hchain, _⟩ := appendRun_chainFrom htruth
  have hinv := inv_reachable hreach.of_guarded
  have hwithin := (withinTruth_reachable hchain hreach).log
  -- a prefix of a chain is one
  have hlog : ChainFrom digest d ChainTip.genesis (s.db.log d) := by
    obtain ⟨more, rfl⟩ := hwithin
    exact (chainFrom_append.mp hchain).1
  refine ⟨hwithin, ?_, fun record hrecord => ?_, fun a s' hstep => ?_,
    fun t request record hrecord hstored => push_stored t hinv hrecord hstored⟩
  · simpa [ChainTip.genesis] using chainFrom_range hlog
  · rw [(hinv.chain d record hrecord).2]
    exact chainFrom_verifies hlog
  · exact (step_extends hinv hstep.2).log d

/-! ### Two overlapping pushes of one event -/

/-- A digest that tells events apart by their id and number. -/
def idDigest : HashFunction Unit := fun i =>
  .ok ⟨Fin.ofNat _ (i.eventId.bits.val * 2 ^ 64 + i.deviceSeq)⟩

/-- The event of id `id` that a device of outlet 2 seals under `idDigest`. -/
def idEvent (d id : Uuid) (seq : Nat) (prev : EventHash) : EventEnvelope Unit :=
  ⟨id, 1, 2, d, seq, ⟨I64.lit 0⟩, "sale.started", (), prev,
    ⟨Fin.ofNat _ (id.bits.val * 2 ^ 64 + seq)⟩⟩

def firstEvent : EventEnvelope Unit := idEvent 4 10 1 EventHash.genesis

def secondEvent : EventEnvelope Unit := idEvent 4 11 2 firstEvent.hash

theorem idEvents_appendRun : AppendRun idDigest (EventChain.new 4) [firstEvent, secondEvent]
    ⟨4, secondEvent.tip⟩ := by
  have hfirst : (EventChain.new 4).append idDigest ⟨10, 1, 2, 4, ⟨I64.lit 0⟩⟩
      ⟨"sale.started", .ok ()⟩ = .ok (firstEvent, ⟨4, firstEvent.tip⟩) := by decide
  have hsecond : EventChain.append idDigest ⟨4, firstEvent.tip⟩ ⟨11, 1, 2, 4, ⟨I64.lit 0⟩⟩
      ⟨"sale.started", .ok ()⟩ = .ok (secondEvent, ⟨4, secondEvent.tip⟩) := by decide
  exact .append _ _ (.append _ _ .nil hfirst) hsecond

/-- A server with three enrolled devices of one outlet. -/
def threeTills : Server Unit where
  db := { device := fun d =>
            if d = 4 ∨ d = 5 ∨ d = 6 then some ⟨1, 2, false, ChainTip.genesis⟩ else none
          table := EventTable.empty }
  nextSeq := 1
  txns := fun _ => none

theorem threeTills_fresh : Fresh threeTills where
  table := rfl
  tip := by
    intro d record h
    simp only [threeTills] at h
    split at h
    · cases h
      rfl
    · cases h
  nextSeq := rfl
  txns := fun _ => rfl

/-- Two transactions plan one event against an empty log; the second to commit is refused. -/
def overlapping : Server Unit :=
  let opened := ((threeTills.beginPush idDigest 0 4 ⟨4, [firstEvent]⟩).1.beginPush idDigest 1 4
    ⟨4, [firstEvent]⟩).1
  let inserted := ((opened.insertNext 0).1.insertNext 1).1
  ((inserted.commit 0).1.commit 1).1

/-- The runs in which till 4 pushes slices of its two events. -/
abbrev Sliced : Server Unit → Prop := Transition.Reachable Fresh
  (Transition.Guarded (step idDigest) (SlicesOf 4 [firstEvent, secondEvent]))

theorem overlapping_reachable : Sliced overlapping := by
  have hslice : [firstEvent] <:+: [firstEvent, secondEvent] := by decide
  have hfirst : Sliced _ := .step (.beginPush 0 4 ⟨4, [firstEvent]⟩) (.init threeTills_fresh)
    ⟨fun _ => hslice, rfl, rfl⟩
  have hsecond : Sliced _ := .step (.beginPush 1 4 ⟨4, [firstEvent]⟩) hfirst
    ⟨fun _ => hslice, rfl, rfl⟩
  have hinserted : Sliced _ := .step (.insertNext 1)
    (.step (.insertNext 0) hsecond ⟨trivial, rfl⟩) ⟨trivial, rfl⟩
  exact .step (.commit 1) (.step (.commit 0) hinserted ⟨trivial, rfl⟩) ⟨trivial, rfl⟩

theorem push_log_integrity_overlapping :
    overlapping.db.log 4 = [firstEvent] ∧ overlapping.db.log 4 <+: [firstEvent, secondEvent] ∧
      (overlapping.db.log 4).map (·.deviceSeq) =
        List.range' 1 (overlapping.db.log 4).length := by
  obtain ⟨hwithin, hrange, _⟩ := push_log_integrity idEvents_appendRun overlapping_reachable
  exact ⟨by decide, hwithin, hrange⟩

end Server

end Sahl
