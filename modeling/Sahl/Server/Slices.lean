import Mathlib.Tactic
import Sahl.Server.Push

/-! # Slices of a device's chain

    What a till sends is a slice of its chain, and what the server has of the till is a beginning
    of it. Where the slice starts at or below the end of that, the fresh part of it continues the
    log, and an enrolled till's push is taken (`push_isOkay`). -/

namespace Sahl

variable {V : Type}

/-! ## Section 1: Slices and logs -/

namespace Server

/-- A log fits the numbers of its events. -/
theorem Inv.log_length_lt {digest : HashFunction V} {s : Server V} (h : Inv digest s) (d : Uuid) :
    (s.db.log d).length < 2 ^ 63 := by
  rcases List.eq_nil_or_concat (s.db.log d) with hnil | ⟨es, e, hlog⟩
  · rw [hnil, List.length_nil]
    decide
  · rw [List.concat_eq_append] at hlog
    have hat : (s.db.log d)[es.length]? = some e := by
      rw [hlog]
      simp
    have hseq := (chainFrom_getElem (h.log_chain d) hat).1
    have hfits := h.fits e (mem_log.mp (List.mem_of_getElem? hat)).1
    have hgenesis : ChainTip.genesis.deviceSeq = 0 := rfl
    rw [hlog, List.length_append, List.length_singleton]
    omega

section Slice

variable {digest : HashFunction V} {d : Uuid} {chain acked batch later log : List (EventEnvelope V)}

/-- The events of a slice are numbered on from what comes before it. -/
theorem slice_deviceSeq (hchain : ChainFrom digest d ChainTip.genesis chain)
    (hslice : chain = acked ++ batch ++ later) {k : Nat} {e : EventEnvelope V}
    (he : batch[k]? = some e) : e.deviceSeq = acked.length + k + 1 := by
  have hslot : chain[acked.length + k]? = some e := by
    rw [hslice, List.append_assoc, List.getElem?_append_right (Nat.le_add_right _ _),
      Nat.add_sub_cancel_left]
    exact List.getElem?_append_left (List.getElem?_eq_some_iff.mp he).1 ▸ he
  have hseq := (chainFrom_getElem hchain hslot).1
  have hgenesis : ChainTip.genesis.deviceSeq = 0 := rfl
  omega

/-- What is fresh of a slice continues the log to where the slice ends. -/
theorem fresh_reaches {k : Nat}
    (hchain : ChainFrom digest d ChainTip.genesis chain)
    (hslice : chain = acked ++ batch ++ later) (hlog : log <+: chain)
    (hfresh : batch.drop k ≠ [])
    (hfollows : ChainFrom digest d (endTip ChainTip.genesis log) (batch.drop k)) :
    log ++ batch.drop k <+: chain ∧
      (log ++ batch.drop k).length = acked.length + batch.length := by
  have hbatch : batch.drop k <:+: chain := by
    rw [hslice]
    exact (List.drop_suffix k batch).isInfix.trans ⟨acked, later, rfl⟩
  have hk : k < batch.length := by
    by_contra hlong
    exact hfresh (List.drop_eq_nil_iff.mpr (not_lt.mp hlong))
  have hlogChain : ChainFrom digest d ChainTip.genesis log := by
    obtain ⟨rest, rfl⟩ := hlog
    exact (chainFrom_append.mp hchain).1
  -- the number of the first fresh event says where the log ends
  have hmeets : log.length = acked.length + k := by
    have hfirst := slice_deviceSeq hchain hslice (List.getElem?_eq_getElem hk)
    have hstart := hfollows
    rw [List.drop_eq_getElem_cons hk] at hstart
    have hseq := hstart.1.seq
    rw [endTip_deviceSeq hlogChain] at hseq
    have hgenesis : ChainTip.genesis.deviceSeq = 0 := rfl
    omega
  refine ⟨prefix_append_slice hchain hlog hbatch hfresh hfollows, ?_⟩
  rw [List.length_append, List.length_drop]
  omega

/-- A log that a slice begins in ends before the slice, or the slice starts what is fresh of it. -/
theorem slice_fresh (hslice : chain = acked ++ batch ++ later) (hlog : log <+: chain)
    (hacked : acked.length ≤ log.length) (hlonger : log.length < acked.length + batch.length) :
    log ++ batch.drop (log.length - acked.length) <+: chain := by
  obtain ⟨rest, hrest⟩ := hlog
  refine ⟨later, ?_⟩
  have htail : acked ++ batch ++ later = log ++ rest := hslice.symm.trans hrest.symm
  have hdropped : rest = (batch ++ later).drop (log.length - acked.length) := by
    have hboth := congrArg (List.drop log.length) htail
    rw [List.drop_left, List.append_assoc, List.drop_append,
      List.drop_eq_nil_of_le hacked, List.nil_append] at hboth
    exact hboth.symm
  rw [← hrest, hdropped, List.append_assoc]
  refine congrArg (log ++ ·) ?_
  rw [List.drop_append_of_le_length (by omega)]

/-- What a slice shares with the log ends where the log does. -/
theorem slice_boundary (hslice : chain = acked ++ batch ++ later) (hlog : log <+: chain)
    (hacked : acked.length ≤ log.length) (hlonger : log.length < acked.length + batch.length)
    (first : EventEnvelope V) :
    checkBoundary (endTip ChainTip.genesis log) first batch (log.length - acked.length) =
      .ok () := by
  unfold checkBoundary
  by_cases hnone : log.length - acked.length = 0
  · exact if_pos hnone
  · rw [if_neg hnone]
    rcases List.eq_nil_or_concat log with hnil | ⟨earlier, last, hlast⟩
    · rw [hnil] at hnone
      exact absurd (Nat.zero_sub _) hnone
    rw [List.concat_eq_append] at hlast
    have hlength : log.length = earlier.length + 1 := by
      rw [hlast, List.length_append, List.length_singleton]
    have hend : chain[earlier.length]? = some last := by
      obtain ⟨rest, rfl⟩ := hlog
      rw [hlast, List.append_assoc, List.getElem?_append_right le_rfl, Nat.sub_self]
      rfl
    have hat : batch[log.length - acked.length - 1]? = some last := by
      rw [← hend, hslice, List.append_assoc, List.getElem?_append_right (by omega),
        List.getElem?_append_left (by omega)]
      exact congrArg (batch[·]?) (by omega)
    rw [hat, hlast, endTip_concat]
    exact if_neg (not_not.mpr rfl)

/-- A slice of a chain is planned for, where the log is of the chain and reaches the slice. -/
theorem planBatch_isOkay (hchain : ChainFrom digest d ChainTip.genesis chain)
    (hlog : log <+: chain) (hfits : log.length < 2 ^ 63)
    (hslice : chain = acked ++ batch ++ later) (hacked : acked.length ≤ log.length) :
    (planBatch digest batch (endTip ChainTip.genesis log) d).isOkay := by
  match hbatch : batch with
  | [] => exact rfl
  | first :: rest =>
    rw [← hbatch] at hslice ⊢
    have hlogChain : ChainFrom digest d ChainTip.genesis log := by
      obtain ⟨rest, rfl⟩ := hlog
      exact (chainFrom_append.mp hchain).1
    have hgenesis : ChainTip.genesis.deviceSeq = 0 := rfl
    have htip := endTip_deviceSeq hlogChain
    have hsat := satNextSeq_of_lt (n := (endTip ChainTip.genesis log).deviceSeq) (by omega)
    have hfirst := slice_deviceSeq hchain hslice (k := 0) (e := first) (by rw [hbatch]; rfl)
    have hfind : batch.find? (·.deviceId ≠ d) = none := by
      rw [List.find?_eq_none]
      intro e he
      have hmem : e ∈ chain := by
        rw [hslice]
        exact List.mem_append_left _ (List.mem_append_right _ he)
      simpa using (chainFrom_mem hchain hmem).2.1
    have hgap : ¬ satNextSeq (endTip ChainTip.genesis log).deviceSeq < first.deviceSeq := by
      omega
    have hoverlap : overlapOf (endTip ChainTip.genesis log) first batch =
        min (log.length - acked.length) batch.length := by
      rw [overlapOf, hsat]
      omega
    subst hbatch
    simp only [planBatch, hfind, if_neg hgap]
    by_cases hlonger : log.length < acked.length + (first :: rest).length
    · -- some of it is fresh, and follows the log
      have hk : overlapOf (endTip ChainTip.genesis log) first (first :: rest) =
          log.length - acked.length := by
        rw [hoverlap]
        omega
      have hbegins := slice_fresh hslice hlog hacked hlonger
      have hfollows : ChainFrom digest d (endTip ChainTip.genesis log)
          ((first :: rest).drop (log.length - acked.length)) := by
        obtain ⟨more, hmore⟩ := hbegins
        rw [← hmore] at hchain
        exact (chainFrom_append.mp (chainFrom_append.mp hchain).1).2
      have hverify := verifyChain_eq_ok.mpr ⟨⟨d, hfollows⟩, rfl⟩
      have hboundary := slice_boundary hslice hlog hacked hlonger first
      rw [hk]
      split
      · rfl
      · rw [hboundary, hverify]
        rfl
    · -- the server has all of it
      have hk : overlapOf (endTip ChainTip.genesis log) first (first :: rest) =
          (first :: rest).length := by
        rw [hoverlap]
        omega
      rw [hk, List.drop_length]
      rfl

end Slice

/-! ## Section 2: A push that is taken -/

/-- Events within the scope of a transaction are inserted without a refusal. -/
theorem insertAll_isOkay {s : Server V} {t : Nat} {txn : PushTxn V} (n : Nat)
    (htxn : s.txns t = some txn) (hscope : ∀ e ∈ txn.todo, scopeCheck txn e = .ok ()) :
    (insertAll t n s).2 = .ok () := by
  induction n generalizing s txn with
  | zero => rfl
  | succ n ih =>
    cases htodo : txn.todo with
    | nil =>
      have hs : s.insertNext t = (s, .ok ()) := by simp only [insertNext, htxn, htodo]
      rw [insertAll, hs]
      exact ih htxn hscope
    | cons e rest =>
      rw [htodo] at hscope
      have hs : s.insertNext t = (⟨s.db, s.nextSeq + 1, s.setTxn t (some { txn with
          todo := rest, rows := txn.rows ++ [⟨e, s.nextSeq⟩] })⟩, .ok ()) := by
        simp only [insertNext, htxn, htodo, hscope e List.mem_cons_self]
      rw [insertAll, hs]
      -- what is inserted does not change the scope
      exact ih (setTxn_self s t _) fun f hf => hscope f (List.mem_cons_of_mem _ hf)

/-- A device that the server takes events from: it is enrolled where it says, and not revoked. -/
def Enrolled (db : Db V) (d tenant outlet : Uuid) : Prop :=
  ∃ record, db.device d = some record ∧ record.revoked = false ∧
    record.tenantId = tenant ∧ record.outletId = outlet

theorem Enrolled.setTip {db : Db V} {d tenant outlet : Uuid} (h : Enrolled db d tenant outlet)
    (x : Uuid) (tip : ChainTip) (table : EventTable V (EventRow V) EventRow.event) :
    Enrolled ⟨db.setTip x tip, table⟩ d tenant outlet := by
  obtain ⟨record, hrecord, hactive, htenant, houtlet⟩ := h
  by_cases hx : d = x
  · subst hx
    exact ⟨{ record with tip }, setTip_self tip hrecord, hactive, htenant, houtlet⟩
  · exact ⟨record, (setTip_ne db tip hx).trans hrecord, hactive, htenant, houtlet⟩

/-- A push leaves every till enrolled. -/
theorem Enrolled.push {digest : HashFunction V} {s : Server V} {d tenant outlet : Uuid}
    (h : Enrolled s.db d tenant outlet) (t : Nat) (x : Uuid) (request : PushRequest V)
    (hinv : Inv digest s) : Enrolled (s.push digest t x request).1.db d tenant outlet := by
  obtain ⟨s', answer, hpush, -, ⟨hdb, -⟩ | ⟨_, response, rows, -, -, -, -, -, hdevice, -, -⟩⟩ :=
    push_cases t x request hinv
  · rw [hpush]
    show Enrolled s'.db d tenant outlet
    rw [hdb]
    exact h
  · rw [hpush]
    obtain ⟨record, hrecord, hactive, hplaced⟩ := h.setTip x response.tip s.db.table
    exact ⟨record, (congrFun hdevice d).trans hrecord, hactive, hplaced⟩

/-- An enrolled till is answered a page. -/
theorem servePull_isOkay {db : Db V} {d tenant outlet : Uuid} (h : Enrolled db d tenant outlet)
    (cursor : Int) (limit : Nat) : (servePull db d cursor limit).isOkay := by
  obtain ⟨record, hrecord, hactive, -, -⟩ := h
  have hauth : authenticate db d = .ok record := by
    simp only [authenticate, hrecord, Except.okOr, hactive, bind, Except.bind, Bool.false_eq_true,
      if_false]
  rw [servePull, pull, hauth]
  rfl

/-- The server knows how far a device is in the outlet stream once it has stored one event of it. -/
theorem highWaterFor_isOkay {db : Db V} {d : Uuid} (h : db.log d ≠ []) :
    ∃ highWater, db.highWaterFor d = .ok highWater := by
  obtain ⟨e, he⟩ := List.exists_mem_of_ne_nil _ h
  obtain ⟨hstored, hdevice⟩ := mem_log.mp he
  obtain ⟨row, hrow, rfl⟩ := List.mem_map.mp hstored
  have hmem : row.serverSeq ∈
      (db.table.rows.filter (·.event.deviceId = d)).map (·.serverSeq) :=
    List.mem_map_of_mem (List.mem_filter.mpr ⟨hrow, by simpa using hdevice⟩)
  cases hmax : ((db.table.rows.filter (·.event.deviceId = d)).map (·.serverSeq)).max? with
  | none =>
    rw [List.max?_eq_none_iff] at hmax
    rw [hmax] at hmem
    cases hmem
  | some highWater => exact ⟨highWater, by rw [Db.highWaterFor, hmax]; rfl⟩

/-- The fresh part of a slice goes into the table, where no other event has an id of it. -/
theorem insert?_slice {digest : HashFunction V} {s : Server V} {d : Uuid}
    {chain batch : List (EventEnvelope V)} {rows : List (EventRow V)}
    (hchain : ChainFrom digest d ChainTip.genesis chain)
    (hbegins : s.db.log d ++ rows.map (·.event) <+: chain)
    (hids : (batch.map (·.eventId)).Nodup) (hrows : (rows.map (·.event)).Sublist batch)
    (hkeys : ∀ a ∈ s.db.table.events, ∀ e ∈ batch, a.eventId = e.eventId → a = e) :
    ∃ table, s.db.table.insert? rows = some table := by
  have hboth : ChainFrom digest d ChainTip.genesis (s.db.log d ++ rows.map (·.event)) := by
    obtain ⟨more, rfl⟩ := hbegins
    exact (chainFrom_append.mp hchain).1
  obtain ⟨hlogChain, hfollows⟩ := chainFrom_append.mp hboth
  refine EventTable.insert?_isSome _ _ ⟨hids.sublist (hrows.map _), ?_⟩ ?_
  · -- the numbers of a chain are all different
    have hnumbers : ((rows.map (·.event)).map (·.deviceSeq)).Nodup := by
      rw [chainFrom_range hfollows]
      exact List.nodup_range'
    refine List.Nodup.of_map Prod.snd ?_
    rw [List.map_map]
    exact hnumbers
  · intro a ha row hrow hkey
    have hmem : row.event ∈ rows.map (·.event) := List.mem_map_of_mem hrow
    have hdevice : row.event.deviceId = d := (chainFrom_mem hfollows hmem).2.1
    -- an event under one of its keys would be in the log, which ends before it
    have hlogged : a ∈ s.db.log d ∧ a.deviceSeq = row.event.deviceSeq := by
      rcases hkey with hid | ⟨hsame, hseq⟩
      · obtain rfl := hkeys a ha _ (hrows.subset hmem) hid
        exact ⟨mem_log.mpr ⟨ha, hdevice⟩, rfl⟩
      · exact ⟨mem_log.mpr ⟨ha, hsame.trans hdevice⟩, hseq⟩
    have habove := (chainFrom_mem hfollows hmem).1
    rw [endTip_deviceSeq hlogChain] at habove
    obtain ⟨n, hn⟩ := List.getElem?_of_mem hlogged.1
    have hbelow := (chainFrom_getElem hlogChain hn).1
    have hlt := (List.getElem?_eq_some_iff.mp hn).1
    omega

/-- **A push is taken**: an enrolled till's batch, sealed at its outlet and continuing what the
    server has of the till, is answered. -/
theorem push_isOkay {digest : HashFunction V} {s : Server V} {d tenant outlet : Uuid} (t : Nat)
    {chain acked batch later : List (EventEnvelope V)} (hinv : Inv digest s)
    (henrolled : Enrolled s.db d tenant outlet)
    (hchain : ChainFrom digest d ChainTip.genesis chain) (hlog : s.db.log d <+: chain)
    (hslice : chain = acked ++ batch ++ later) (hacked : acked.length ≤ (s.db.log d).length)
    (hne : batch ≠ []) (hsize : batch.length ≤ maxBatch)
    (hplaced : ∀ e ∈ batch, e.tenantId = tenant ∧ e.outletId = outlet)
    (hfits : ∀ e ∈ batch, e.deviceSeq < 2 ^ 63) (hids : (batch.map (·.eventId)).Nodup)
    (hkeys : ∀ a ∈ s.db.table.events, ∀ e ∈ batch, a.eventId = e.eventId → a = e) :
    (s.push digest t d ⟨d, batch⟩).2.isOkay := by
  obtain ⟨record, hrecord, hactive, rfl, rfl⟩ := henrolled
  obtain ⟨hlogChain, htip⟩ := hinv.chain d record hrecord
  obtain ⟨plan, hplan⟩ := Except.isOkay_iff.mp
    (planBatch_isOkay hchain hlog (hinv.log_length_lt d) hslice hacked)
  have hvalid : (PushRequest.mk d batch).validate = .ok () := if_neg (not_lt.mpr hsize)
  have hopen : openPush digest s.db d ⟨d, batch⟩ = .ok (record, plan) := by
    simp only [openPush, authenticate, hrecord, Except.okOr, hactive, hvalid, htip, hplan, bind,
      Except.bind, Except.mapError, Bool.false_eq_true, if_false, ne_eq, not_true_eq_false]
  by_cases hnoop : plan.isNoop
  · -- the server has all of it: it looks up how far the device is in the outlet stream
    obtain ⟨first, rest, rfl⟩ := List.exists_cons_of_ne_nil hne
    have hfirst := slice_deviceSeq hchain hslice (List.getElem?_cons_zero)
    have hwithin := planBatch_storesNothing hplan (of_decide_eq_true hnoop)
    have hstored : s.db.log d ≠ [] := by
      intro hnil
      have hgenesis : (endTip ChainTip.genesis ([] : List (EventEnvelope V))).deviceSeq = 0 := rfl
      rw [hnil, hgenesis, List.length_cons] at hwithin
      omega
    obtain ⟨highWater, hhigh⟩ := highWaterFor_isOkay hstored
    simp only [push, beginPush, hopen, if_pos hnoop, hhigh]
    rfl
  · -- the fresh part is inserted and committed
    obtain ⟨hstores, _⟩ | ⟨hfresh, _, hfollows, _⟩ := planBatch_eq_ok hplan
    · exact absurd (decide_eq_true hstores) hnoop
    let txn : PushTxn V := ⟨d, record, plan, batch.drop plan.alreadyStored, []⟩
    let opened : Server V := { s with txns := s.setTxn t (some txn) }
    have htxn : opened.txns t = some txn := setTxn_self s t _
    have hbegin : s.beginPush digest t d ⟨d, batch⟩ = (opened, .ok none) := by
      rw [beginPush, hopen]
      exact if_neg hnoop
    have hopened : Inv digest opened := by
      have hinvBegin := inv_beginPush t d ⟨d, batch⟩ hinv
      rw [hbegin] at hinvBegin
      exact hinvBegin
    have hscope : ∀ e ∈ txn.todo, scopeCheck txn e = .ok () := by
      intro e he
      have hmem : e ∈ batch := List.mem_of_mem_drop he
      obtain ⟨htenant, houtlet⟩ := hplaced e hmem
      simp only [scopeCheck, txn, htenant, houtlet, not_le.mpr (hfits e hmem), ne_eq,
        not_true_eq_false, or_self, if_false]
    obtain ⟨s', hinv', hdb, ⟨rejection, hinsert⟩ | ⟨hinsert, txn', htxn', hdevice, -, -, hbatch,
      htodo⟩⟩ := insertAll_cases batch.length hopened htxn
    · have hokay := insertAll_isOkay batch.length htxn hscope
      rw [hinsert] at hokay
      cases hokay
    have hempty : txn'.todo = [] := by
      rw [htodo, List.drop_drop, List.drop_eq_nil_iff]
      omega
    have hrows : txn'.rows.map (·.event) = batch.drop plan.alreadyStored := by
      have hall : txn'.rows.map (·.event) ++ txn'.todo = batch.drop plan.alreadyStored := hbatch
      rw [hempty, List.append_nil] at hall
      exact hall
    obtain ⟨table, htable⟩ := @insert?_slice _ digest s d chain batch txn'.rows hchain
      (by
        rw [hrows]
        exact (fresh_reaches hchain hslice hlog hfresh (htip ▸ hfollows)).1)
      hids (hrows ▸ List.drop_sublist _ _) hkeys
    rw [← show s'.db = s.db from hdb] at htable
    rw [push, hbegin]
    simp only [hinsert, commit, htxn', hempty, htable, ne_eq, not_true_eq_false, if_false]
    rfl

end Server

end Sahl
