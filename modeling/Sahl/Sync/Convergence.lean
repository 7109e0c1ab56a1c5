import Mathlib.Tactic
import Sahl.Sync.Agreement

/-! # Bringing an outlet together

    Whatever has happened at an outlet, its tills can still be brought to agree: a till that is
    enrolled has its backlog taken, round by round, and what the server has stored reaches every
    other (`outlet_converges`). No run leads to a state that syncing could not mend. -/

namespace Sahl

variable {V : Type}

/-! ## Section 1: Rounds among the steps -/

namespace Server

theorem Enrolled.outletOf {db : Db V} {d tenant outlet : Uuid} (h : Enrolled db d tenant outlet) :
    Db.outletOf db d = some outlet := by
  obtain ⟨record, hrecord, -, -, rfl⟩ := h
  rw [Db.outletOf, hrecord]
  rfl

/-- A transaction that moves leaves the others as they are. -/
theorem insertAll_others {t x : Nat} (hx : x ≠ t) (n : Nat) (s : Server V) :
    (insertAll t n s).1.txns x = s.txns x := by
  have hset : ∀ (s : Server V) txn, s.setTxn t txn x = s.txns x := fun _ _ => if_neg hx
  have hnext : ∀ s : Server V, (s.insertNext t).1.txns x = s.txns x := by
    intro s
    rcases insertNext_cases s t with h | h | ⟨txn, e, rest, -, -, -, h⟩
    · rw [h]
    · rw [h]
      exact hset s _
    · rw [h]
      exact hset s _
  induction n generalizing s with
  | zero => rfl
  | succ n ih =>
    rw [insertAll]
    split
    · rename_i heq
      have hfirst := hnext s
      rw [heq] at hfirst
      exact hfirst
    · rename_i heq
      have hfirst := hnext s
      rw [heq] at hfirst
      rw [ih]
      exact hfirst

theorem commit_txns {s s' : Server V} {t : Nat} {response : PushResponse}
    (h : s.commit t = (s', .ok response)) : s'.txns = s.setTxn t none := by
  unfold commit at h
  split at h
  · cases h
  · split at h
    · cases h
    · split at h
      · cases h
      · cases h
        rfl

/-- A push that is answered was answered at once, or inserted and committed its events; it leaves
    no transaction open. -/
theorem push_eq_ok {digest : HashFunction V} {s s' : Server V} {t : Nat} {d : Uuid}
    {request : PushRequest V} {response : PushResponse} (hinv : Inv digest s)
    (hidle : ∀ x, s.txns x = none) (h : s.push digest t d request = (s', .ok response)) :
    (∀ x, s'.txns x = none) ∧
      (s.beginPush digest t d request = (s', .ok (some response)) ∨
        ∃ s₁ s₂ txn, s.beginPush digest t d request = (s₁, .ok none) ∧
          insertAll t request.events.length s₁ = (s₂, .ok ()) ∧
          s₂.txns t = some txn ∧ txn.deviceId = d ∧ s₂.commit t = (s', .ok response)) := by
  have hopened := inv_beginPush t d request hinv
  unfold push at h
  rcases beginPush_cases digest s t d request with
    ⟨answer, hbegin, hnone, -⟩ | ⟨record, plan, -, -, hbegin⟩
  · rw [hbegin] at h
    cases answer with
    | error rejection => cases h
    | ok answer =>
      cases answer with
      | none => exact absurd rfl hnone
      | some response' =>
        cases h
        exact ⟨hidle, .inl hbegin⟩
  · rw [hbegin] at h hopened
    obtain ⟨s₂, -, -, ⟨rejection, hinsert⟩ | ⟨hinsert, txn, htxn, hdevice, -, -, -, -⟩⟩ :=
      insertAll_cases request.events.length hopened (setTxn_self s t _)
    · simp only [hinsert] at h
      cases h
    · simp only [hinsert] at h
      refine ⟨fun x => ?_, .inr ⟨_, s₂, txn, hbegin, hinsert, htxn, hdevice, h⟩⟩
      rw [commit_txns h, setTxn]
      split
      · rfl
      · rename_i hx
        have hothers := insertAll_others hx request.events.length { s with
          txns := s.setTxn t (some ⟨d, record, plan, request.events.drop plan.alreadyStored, []⟩) }
        rw [hinsert] at hothers
        rw [hothers]
        exact (if_neg hx).trans (hidle x)

end Server

/-- A round that succeeds pushed, was answered a page, and applied it. -/
theorem EventStore.syncOnce_answered {digest : HashFunction V} {store : EventStore V}
    {transport : Transport V} {now : I64}
    (h : (store.syncOnce digest transport now).answer = .ok ()) :
    ∃ outcome store' page, store.pushPending transport now = .ok (outcome, store') ∧
      transport.pull store'.pullCursor pullPage = .ok page ∧
      (store.syncOnce digest transport now).state.2 = (store'.applyPage digest page).state.2 := by
  unfold syncOnce at h ⊢
  cases hpush : store.pushPending transport now with
  | error error =>
    rw [hpush] at h
    cases h
  | ok pushed =>
    obtain ⟨outcome, store'⟩ := pushed
    rw [hpush] at h
    simp only [pullNew] at h ⊢
    cases hpull : transport.pull store'.pullCursor pullPage with
    | error rejection =>
      rw [hpull] at h
      cases h
    | ok page => exact ⟨outcome, store', page, rfl, hpull, rfl⟩

namespace OutletState

def Action.records : Action V → Bool
  | .record .. => true
  | _ => false

/-- The steps of syncing: all but recording. -/
def Syncing (s : OutletState V) (a : Action V) : Prop := a.records = false ∧ s.Regular a

/-- No push is open. -/
def Quiet (s : OutletState V) : Prop := ∀ t, s.server.txns t = none

/-- The runs of syncing. -/
abbrev Synced (digest : HashFunction V) : OutletState V → List (Action V) → OutletState V → Prop :=
  Transition.Run (Transition.Guarded (step digest) Syncing)

theorem Synced.inv {digest : HashFunction V} {s s' : OutletState V} {as : List (Action V)}
    (h : Synced digest s as s') (hinv : Inv digest s) : Inv digest s' := by
  refine Transition.Run.invariant (fun _ _ _ hs hstep => ?_) h hinv
  exact inv_step hs ⟨hstep.1.2, hstep.2⟩

/-- The events of a push go in one after another. -/
theorem insertAll_run {digest : HashFunction V} {t : Nat} (n : Nat) {s : OutletState V}
    {server : Server V} (h : Server.insertAll t n s.server = (server, .ok ())) :
    Synced digest s (List.replicate n (.server (.insertNext t))) { s with server } := by
  induction n generalizing s with
  | zero =>
    obtain rfl := congrArg Prod.fst h
    exact .nil s
  | succ n ih =>
    rw [Server.insertAll] at h
    split at h
    · cases h
    · rename_i mid _ hnext
      have hmid : mid = (s.server.insertNext t).1 := (congrArg Prod.fst hnext).symm
      exact .cons (.server (.insertNext t)) _ ⟨⟨rfl, trivial⟩, trivial, hmid, rfl⟩
        (@ih { s with server := mid } h)

/-- A push with nothing in between is a run of its steps, with its answer on the way at the end. -/
theorem push_run {digest : HashFunction V} {s : OutletState V} {d : Uuid} {t : Nat}
    {batch : List (EventEnvelope V)} {server : Server V} {response : PushResponse}
    (hinv : Server.Inv digest s.server) (hquiet : s.Quiet) (hsent : batch ∈ (s.till d).sent)
    (h : s.server.push digest t d ⟨d, batch⟩ = (server, .ok response)) :
    ∃ as s', Synced digest s as s' ∧ s'.server = server ∧ s'.Quiet ∧ s'.till = s.setTill d
      { s.till d with answers := (s.till d).answers ++ [response] } := by
  have hopens : ∀ s₁, s₁ = (s.server.beginPush digest t d ⟨d, batch⟩).1 → ∀ answer,
      answerOf digest s.server (.beginPush t d ⟨d, batch⟩) = answer →
        Synced digest s [.server (.beginPush t d ⟨d, batch⟩)] ⟨s₁, s.answered answer⟩ := by
    rintro s₁ rfl answer rfl
    exact .cons _ _ ⟨⟨rfl, trivial⟩, hsent, ⟨hquiet t, rfl⟩, rfl⟩ (.nil _)
  obtain ⟨hidle, hbegin | ⟨s₁, s₂, txn, hbegin, hinsert, htxn, hdevice, hcommit⟩⟩ :=
    Server.push_eq_ok hinv hquiet h
  · have hanswer : answerOf digest s.server (.beginPush t d ⟨d, batch⟩) = some (d, response) := by
      simp only [answerOf, hbegin]
    exact ⟨_, _, hopens server (by rw [hbegin]) _ hanswer, rfl, hidle, rfl⟩
  · have hnone : answerOf digest s.server (.beginPush t d ⟨d, batch⟩) = none := by
      simp only [answerOf, hbegin]
    have hopened := hopens s₁ (by rw [hbegin]) _ hnone
    have hinserted := @insertAll_run _ digest t batch.length ⟨s₁, s.till⟩ s₂ hinsert
    have hanswer : answerOf digest s₂ (.commit t) = some (d, response) := by
      simp only [answerOf, htxn, hcommit, hdevice]
    have hcommitted : Synced digest ⟨s₂, s.till⟩ [.server (.commit t)]
        ⟨server, s.setTill d { s.till d with answers := (s.till d).answers ++ [response] }⟩ := by
      refine .cons _ _ ⟨⟨rfl, trivial⟩, trivial, ?_, ?_⟩ (.nil _)
      · show server = (s₂.commit t).1
        rw [hcommit]
      · show _ = OutletState.answered ⟨s₂, s.till⟩ (answerOf digest s₂ (.commit t))
        rw [hanswer]
        rfl
    exact ⟨_, _, (hopened.append hinserted).append hcommitted, rfl, hidle, rfl⟩

/-- The push half of a round is a run, in which the other tills do nothing. -/
theorem pushHalf_run {digest : HashFunction V} {s : OutletState V} {d : Uuid} {t : Nat} {now : I64}
    {outcome : SyncOutcome} {store : EventStore V} (hinv : Inv digest s) (hquiet : s.Quiet)
    (h : (s.till d).store.pushPending ((s.syncing d).transport digest t) now =
      .ok (outcome, store)) :
    ∃ as s', Synced digest s as s' ∧ s'.server = (s.syncing d).pushed digest t ∧
      (s'.till d).store = store ∧ (∀ x, x ≠ d → s'.till x = s.till x) ∧ s'.Quiet := by
  have hdevice : (s.syncing d).store.deviceId = d := (hinv.till d).device
  by_cases hempty : (s.till d).store.unsynced = []
  · rw [EventStore.pushPending_of_empty _ now hempty] at h
    cases h
    refine ⟨_, s, .nil s, ?_, rfl, fun _ _ => rfl, hquiet⟩
    show s.server = if (s.till d).store.unsynced.isEmpty then s.server else _
    rw [hempty]
    rfl
  · have hisEmpty : (s.till d).store.unsynced.isEmpty = false := by simpa using hempty
    simp only [EventStore.pushPending, hisEmpty, Bool.false_eq_true, if_false, Except.bind_eq_ok,
      Except.mapError_eq_ok] at h
    obtain ⟨response, hresponse, store', hack, h⟩ := h
    cases h
    have hpushed : s.server.push digest t d ⟨d, (s.till d).store.nextBatch⟩ =
        ((s.syncing d).pushed digest t, .ok response) := by
      have hanswer : (s.server.push digest t (s.syncing d).store.deviceId
          ⟨(s.syncing d).store.deviceId, (s.till d).store.nextBatch⟩).2 = .ok response := hresponse
      have hserver : (s.syncing d).pushed digest t = (s.server.push digest t
          (s.syncing d).store.deviceId
            ⟨(s.syncing d).store.deviceId, (s.till d).store.nextBatch⟩).1 := if_neg (by
        show ¬ (s.till d).store.unsynced.isEmpty = true
        rw [hisEmpty]
        exact Bool.false_ne_true)
      rw [hdevice] at hanswer hserver
      exact Prod.ext hserver.symm hanswer
    -- sent, served, and acknowledged
    let batch := (s.till d).store.nextBatch
    let sent : OutletState V := { s with till := s.setTill d { s.till d with
      sent := (s.till d).sent ++ [batch] } }
    have hsend : Synced digest s [.send d] sent :=
      .cons _ _ ⟨⟨rfl, trivial⟩, EventStore.nextBatch_ne_nil hempty, rfl⟩ (.nil _)
    have hsent : sent.till d = { s.till d with sent := (s.till d).sent ++ [batch] } :=
      setTill_self s d _
    have hbatch : batch ∈ (sent.till d).sent := by
      rw [hsent]
      exact List.mem_append_right _ List.mem_cons_self
    obtain ⟨as, answered, hserved, hserver, hquiet', htill⟩ :=
      push_run (s := sent) hinv.server hquiet hbatch hpushed
    have hself : answered.till d = { s.till d with
        sent := (s.till d).sent ++ [batch], answers := (s.till d).answers ++ [response] } := by
      rw [htill, setTill_self, hsent]
    have hacked : Synced digest answered [.acknowledge d batch response now]
        { answered with till := answered.setTill d { answered.till d with store } } := by
      refine .cons _ _ ⟨⟨rfl, trivial⟩, ?_, ?_, store, ?_, rfl⟩ (.nil _)
      · rw [hself]
        exact List.mem_append_right _ List.mem_cons_self
      · rw [hself]
        exact List.mem_append_right _ List.mem_cons_self
      · rw [hself]
        exact hack
    refine ⟨_, _, (hsend.append hserved).append hacked, hserver, ?_, fun x hx => ?_, hquiet'⟩
    · show (answered.setTill d _ d).store = store
      rw [setTill_self]
    · show answered.setTill d _ x = s.till x
      rw [setTill_ne _ _ hx, htill, setTill_ne _ _ hx]
      exact setTill_ne _ _ hx

/-- With no push open, a till that is answered a page applies it. -/
theorem pullHalf_run {digest : HashFunction V} {s : OutletState V} {d : Uuid}
    {page : PullResponse V} (hquiet : s.Quiet)
    (hpage : Server.servePull s.server.db d (s.till d).store.pullCursor pullPage = .ok page) :
    ∃ as s', Synced digest s as s' ∧ s'.server = s.server ∧
      (s'.till d).store = ((s.till d).store.applyPage digest page).state.2 ∧
      ∀ x, x ≠ d → s'.till x = s.till x := by
  let asked : OutletState V := { s with till := s.setTill d { s.till d with
    pages := (s.till d).pages ++ [page] } }
  have hself : asked.till d = { s.till d with pages := (s.till d).pages ++ [page] } :=
    setTill_self s d _
  have hregular : s.Regular (.request d) := by
    intro record _ row _ t txn htxn
    rw [show (s.pulling d).server.txns t = none from hquiet t] at htxn
    cases htxn
  have hasked : Synced digest s [.request d] asked :=
    .cons _ _ ⟨⟨rfl, hregular⟩, page, hpage, rfl⟩ (.nil _)
  let holding : Till V :=
    { asked.till d with store := ((asked.till d).store.applyPage digest page).state.2 }
  have happlied : Synced digest asked [.apply d page]
      { asked with till := asked.setTill d holding } := by
    refine .cons _ _ ⟨⟨rfl, trivial⟩, ?_, rfl⟩ (.nil _)
    rw [hself]
    exact List.mem_append_right _ List.mem_cons_self
  refine ⟨_, _, hasked.append happlied, rfl, ?_, fun x hx => ?_⟩
  · show (asked.setTill d holding d).store = _
    rw [setTill_self]
    show ((asked.till d).store.applyPage digest page).state.2 = _
    rw [hself]
  · show asked.setTill d _ x = s.till x
    rw [setTill_ne _ _ hx]
    exact setTill_ne _ _ hx

/-- **Rounds are runs**: a round of a till that succeeds, with no other request open, is a run of
    the outlet. -/
theorem round_run {digest : HashFunction V} {s : OutletState V} {d : Uuid} {t : Nat} {now : I64}
    {outcome : SyncOutcome} {next : SyncState V} (hinv : Inv digest s) (hquiet : s.Quiet)
    (h : (s.syncing d).round digest t now = .done (outcome, next)) :
    ∃ as s', Synced digest s as s' ∧ s'.syncing d = next ∧
      (∀ x, x ≠ d → s'.till x = s.till x) ∧ s'.Quiet := by
  have hdevice : (s.syncing d).store.deviceId = d := (hinv.till d).device
  have hanswer : ((s.syncing d).store.syncOnce digest ((s.syncing d).transport digest t)
      now).answer = .ok () := congrArg (·.answer) h
  have hnext : next = ⟨(s.syncing d).pushed digest t, ((s.syncing d).store.syncOnce digest
      ((s.syncing d).transport digest t) now).state.2⟩ := (congrArg (·.state.2) h).symm
  obtain ⟨_, store, page, hpush, hpull, hstore⟩ := EventStore.syncOnce_answered hanswer
  rw [hstore] at hnext
  obtain ⟨as, mid, hpushed, hserver, hmid, hothers, hquiet'⟩ := pushHalf_run hinv hquiet hpush
  have hpage : Server.servePull mid.server.db d (mid.till d).store.pullCursor pullPage =
      .ok page := by
    have hserved : Server.servePull ((s.syncing d).pushed digest t).db
        (s.syncing d).store.deviceId store.pullCursor pullPage = .ok page := hpull
    rw [hdevice] at hserved
    rw [hserver, hmid]
    exact hserved
  obtain ⟨bs, last, hpulled, hserver', hlast, hothers'⟩ := pullHalf_run hquiet' hpage
  refine ⟨_, last, hpushed.append hpulled, ?_, fun x hx => (hothers' x hx).trans (hothers x hx),
    ?_⟩
  · rw [hnext, syncing, hserver', hserver, hlast, hmid]
  · rw [Quiet, hserver']
    exact hquiet'

/-! ## Section 2: What rounds come to -/

/-- What a till recorded fits the numbers that the store takes. -/
def Numbered (s : OutletState V) : Prop :=
  ∀ d, ∀ e ∈ (s.till d).store.loadAll, e.deviceSeq < 2 ^ 63

/-- An answer on its way changes no store. -/
theorem answered_store (s : OutletState V) (answer : Option (Uuid × PushResponse)) (d : Uuid) :
    (s.answered answer d).store = (s.till d).store := by
  cases answer with
  | none => rfl
  | some answer =>
    obtain ⟨x, response⟩ := answer
    by_cases hx : d = x
    · subst hx
      exact congrArg (·.store) (setTill_self s d _)
    · exact congrArg (·.store) (setTill_ne s _ hx)

theorem numbered_step {digest : HashFunction V} {s s' : OutletState V} {a : Action V}
    (hinv : Inv digest s) (h : s.Numbered) (hstep : step digest s a s') : s'.Numbered := by
  -- one till's store changes at most, and only recording brings events of its own
  have hset : ∀ (server : Server V) d till, (∀ e ∈ till.store.loadAll, e.deviceSeq < 2 ^ 63) →
      Numbered ⟨server, s.setTill d till⟩ := by
    intro server d till htill x e he
    by_cases hx : x = d
    · subst hx
      have hself : OutletState.till ⟨server, s.setTill x till⟩ x = till := setTill_self s x till
      rw [hself] at he
      exact htill e he
    · have hother : OutletState.till ⟨server, s.setTill d till⟩ x = s.till x :=
        setTill_ne s till hx
      rw [hother] at he
      exact h x e he
  have hpulled : ∀ d (store : EventStore V) new,
      store.table.rows = (s.till d).store.table.rows ++ new →
        (∀ row ∈ new, row.origin = .remote) → ∀ e ∈ store.loadAll, e.deviceSeq < 2 ^ 63 := by
    intro d store new hrows hnew e he
    rw [(EventStore.unsynced_of_remote hrows hnew).2] at he
    exact h d e he
  cases a with
  | record d header payload =>
    obtain ⟨event, chain, store, hseal, happend, rfl⟩ := hstep
    have hfollows : Follows digest (s.till d).store.deviceId (s.till d).store.tip event := by
      rw [(hinv.till d).device]
      exact (append_eq_ok hseal).1
    refine hset _ d _ fun e he => ?_
    rw [((hinv.till d).own.append hfollows happend).2.1] at he
    rcases List.mem_append.mp he with hold | hnew
    · exact h d e hold
    · rw [List.mem_singleton.mp hnew]
      exact (EventStore.append_eq_ok happend).2.1
  | send d =>
    obtain ⟨-, rfl⟩ := hstep
    exact hset _ d _ fun e he => h d e he
  | server a =>
    obtain ⟨-, -, htill⟩ := hstep
    intro d e he
    rw [htill, answered_store] at he
    exact h d e he
  | acknowledge d batch response now =>
    obtain ⟨-, -, store, hack, rfl⟩ := hstep
    obtain ⟨-, rfl⟩ := EventStore.acknowledge_eq_ok hack
    refine hset _ d _ fun e he => ?_
    rw [EventStore.markSynced_loadAll] at he
    exact h d e he
  | request d =>
    obtain ⟨page, -, rfl⟩ := hstep
    exact hset _ d _ fun e he => h d e he
  | apply d page =>
    obtain ⟨-, rfl⟩ := hstep
    obtain ⟨new, hrows, hnew, -⟩ := EventStore.applyPage_rows digest (s.till d).store page
    exact hset _ d _ (hpulled d _ new hrows fun row hrow => (hnew row hrow).1)
  | crash d page n =>
    obtain ⟨-, rfl⟩ := hstep
    obtain ⟨new, hrows, hnew⟩ := EventStore.applyEvents_rows digest page.cursor
      (page.events.take n) 0 (s.till d).store
    exact hset _ d _ (hpulled d _ new hrows fun row hrow => (hnew row hrow).1)

theorem Synced.numbered {digest : HashFunction V} {s s' : OutletState V} {as : List (Action V)}
    (h : Synced digest s as s') (hinv : Inv digest s) (hnumbered : s.Numbered) : s'.Numbered := by
  refine (Transition.Run.invariant (I := fun s => Inv digest s ∧ s.Numbered)
    (fun s a s' hs hstep => ?_) h ⟨hinv, hnumbered⟩).2
  exact ⟨inv_step hs.1 ⟨hstep.1.2, hstep.2⟩, numbered_step hs.1 hs.2 hstep.2⟩

/-- Syncing leaves every till enrolled. -/
theorem Synced.enrolled {digest : HashFunction V} {s s' : OutletState V} {as : List (Action V)}
    {d tenant outlet : Uuid} (h : Synced digest s as s')
    (henrolled : Server.Enrolled s.server.db d tenant outlet) :
    Server.Enrolled s'.server.db d tenant outlet := by
  refine Transition.Run.invariant (I := fun s => Server.Enrolled s.server.db d tenant outlet)
    (fun s a s' hs hstep => ?_) h henrolled
  obtain ⟨-, hstep⟩ := hstep
  cases a with
  | server a =>
    rcases Server.step_db hstep.2.1 with hdb | ⟨_, txn, table, -, -, -, -, hserver⟩
    · rw [hdb]
      exact hs
    · rw [hserver]
      exact hs.setTip _ _ table
  | record d header payload =>
    obtain ⟨_, _, _, -, -, rfl⟩ := hstep
    exact hs
  | acknowledge d batch response now =>
    obtain ⟨-, -, _, -, rfl⟩ := hstep
    exact hs
  | request d =>
    obtain ⟨_, -, rfl⟩ := hstep
    exact hs
  | send d | apply d page | crash d page n =>
    obtain ⟨-, rfl⟩ := hstep
    exact hs

/-- A till is as its server knows it: enrolled, with all it recorded sealed at its outlet. -/
structure Placed (s : OutletState V) (d tenant outlet : Uuid) : Prop where
  enrolled : Server.Enrolled s.server.db d tenant outlet
  isSealed : ∀ e ∈ (s.till d).store.loadAll, e.tenantId = tenant ∧ e.outletId = outlet

/-- With no push open, the server answers what a round of a till asks. -/
theorem answered_of_placed {digest : HashFunction V} {s : OutletState V} {d tenant outlet : Uuid}
    (t : Nat) (hinv : Inv digest s) (hnumbered : s.Numbered) (h : s.Placed d tenant outlet) :
    (s.syncing d).Answered digest t := by
  have htill := hinv.till d
  have hdevice : (s.syncing d).store.deviceId = d := htill.device
  refine @SyncState.Placed.answered _ digest (s.syncing d) tenant outlet ⟨?_, h.isSealed,
    hnumbered d, fun a ha e he hid => ?_⟩ hinv.server htill.continues t
  · rw [hdevice]
    exact h.enrolled
  · exact hinv.ids _ d a e (hinv.recorded ha) (htill.mem_own.mp he).1 hid

/-- `s'` is `s` after till `d` has synced until nothing more is pending. -/
structure CaughtUpFrom (s s' : OutletState V) (d : Uuid) : Prop where
  caughtUp : s'.CaughtUp d
  own : (s'.till d).store.loadAll = (s.till d).store.loadAll
  others : ∀ x, x ≠ d → s'.till x = s.till x
  quiet : s'.Quiet
  /-- With nothing to push, the server is left as it is. -/
  idle : (s.till d).store.unsynced = [] → s'.server = s.server
  enrolled : ∀ x tenant outlet, Server.Enrolled s.server.db x tenant outlet →
    Server.Enrolled s'.server.db x tenant outlet

/-- **A till catches up**: with no push open, a till that is placed can sync until everything it
    recorded is on the server and every event of its siblings is on the till. -/
theorem catchUp_run {digest : HashFunction V} {s : OutletState V} {d tenant outlet : Uuid}
    (hinv : Inv digest s) (hnumbered : s.Numbered) (hplaced : s.Placed d tenant outlet)
    (hquiet : s.Quiet) : ∃ as s', Synced digest s as s' ∧ s.CaughtUpFrom s' d := by
  -- on the number of events that are still to go either way
  obtain ⟨n, hn⟩ : ∃ n, (s.syncing d).store.unsynced.length + (s.syncing d).ahead.length = n :=
    ⟨_, rfl⟩
  induction n using Nat.strongRecOn generalizing s with
  | _ n ih =>
    have hdevice : (s.syncing d).store.deviceId = d := (hinv.till d).device
    have hinj : ∀ a ∈ (s.syncing d).ahead, ∀ b ∈ (s.syncing d).ahead,
        a.serverSeq = b.serverSeq → a = b := fun a ha b hb =>
      (hinv.pulling d).seq.inj a b (.inl (Server.mem_siblingRows.mp ha).1)
        (.inl (Server.mem_siblingRows.mp hb).1)
    obtain ⟨outcome, next, hround, hnext, hqueue, hahead, hmore, hdone⟩ :=
      SyncState.inv_round (t := 0) (I64.lit 0) hinj
        (SyncState.inv_start hinv.server (hinv.till d).continues)
        (answered_of_placed 0 hinv hnumbered hplaced)
    obtain ⟨as, mid, hrun, hmid, hothers, hquiet'⟩ := round_run hinv hquiet hround
    have hserver : next.server = (s.syncing d).pushed digest 0 :=
      (congrArg (·.state.2.server) hround).symm
    obtain rfl := hmid
    have hown : (mid.till d).store.loadAll = (s.till d).store.loadAll := hnext.kept.own
    have hidle : (s.till d).store.unsynced = [] → mid.server = s.server := by
      intro hnone
      rw [show mid.server = _ from hserver]
      exact if_pos (List.isEmpty_iff.mpr hnone)
    by_cases hpending : outcome.morePending
    · have hsmaller := (hmore hpending).2
      have hplaced' : mid.Placed d tenant outlet :=
        ⟨hrun.enrolled hplaced.enrolled, fun e he => hplaced.isSealed e (hown ▸ he)⟩
      obtain ⟨bs, last, hrest, hlast⟩ := ih _ (by omega) (hrun.inv hinv)
        (hrun.numbered hinv hnumbered) hplaced' hquiet' rfl
      refine ⟨_, last, hrun.append hrest, hlast.caughtUp, hlast.own.trans hown,
        fun x hx => (hlast.others x hx).trans (hothers x hx), hlast.quiet, fun hnone => ?_,
        fun x tenant outlet hx => hlast.enrolled x tenant outlet (hrun.enrolled hx)⟩
      have hstill : (mid.till d).store.unsynced = [] := by
        have hlength : (mid.till d).store.unsynced.length ≤
            (s.till d).store.unsynced.length := hqueue
        rw [hnone, List.length_nil] at hlength
        exact List.eq_nil_of_length_eq_zero (Nat.le_zero.mp hlength)
      exact (hlast.idle hstill).trans (hidle hnone)
    · obtain ⟨hempty, hpast⟩ := hdone hpending
      refine ⟨_, mid, hrun, ⟨hempty, ?_⟩, hown, hothers, hquiet', hidle,
        fun x tenant outlet hx => hrun.enrolled hx⟩
      have hrows : Server.siblingRows mid.server.db (mid.till d).store.deviceId
          (mid.till d).store.pullCursor = [] := hpast
      rw [((hrun.inv hinv).till d).device] at hrows
      exact hrows

end OutletState

/-! ## Section 3: The whole outlet -/

namespace Server

/-- Only so many transactions are open. -/
def Bounded (s : Server V) : Prop := ∃ n, ∀ t, n ≤ t → s.txns t = none

theorem bounded_step {digest : HashFunction V} {s s' : Server V} {a : Action V} (h : s.Bounded)
    (hstep : step digest s a s') : s'.Bounded := by
  obtain ⟨n, hn⟩ := h
  -- a step sets one transaction at most
  have hset : ∀ (db : Db V) nextSeq t txn, Bounded ⟨db, nextSeq, s.setTxn t txn⟩ := by
    intro db nextSeq t txn
    refine ⟨max n (t + 1), fun x hx => ?_⟩
    have hother : x ≠ t := by omega
    exact (if_neg hother).trans (hn x (le_of_max_le_left hx))
  cases a with
  | beginPush t d request =>
    obtain ⟨-, rfl⟩ := hstep
    rcases beginPush_cases digest s t d request with ⟨_, h, -⟩ | ⟨_, _, -, -, h⟩
    · rw [h]
      exact ⟨n, hn⟩
    · rw [h]
      exact hset _ _ _ _
  | insertNext t =>
    obtain rfl := hstep
    rcases insertNext_cases s t with h | h | ⟨_, _, _, -, -, -, h⟩
    · rw [h]
      exact ⟨n, hn⟩
    · rw [h]
      exact hset _ _ _ _
    · rw [h]
      exact hset _ _ _ _
  | commit t =>
    obtain rfl := hstep
    rcases commit_cases s t with h | h | ⟨_, _, -, -, -, h⟩
    · rw [h]
      exact ⟨n, hn⟩
    · rw [h]
      exact hset _ _ _ _
    · rw [h]
      exact hset _ _ _ _
  | abort t =>
    obtain rfl := hstep
    exact hset _ _ _ _

end Server

namespace OutletState

theorem numbered_reachable {digest : HashFunction V} {s : OutletState V}
    (h : Transition.Reachable Fresh (Transition.Guarded (step digest) Regular) s) :
    s.Numbered ∧ s.server.Bounded := by
  refine (h.invariant (I := fun s => Inv digest s ∧ s.Numbered ∧ s.server.Bounded)
    (fun s hs => ?_) fun s a s' hs hstep => ?_).2
  · refine ⟨inv_fresh hs, fun d e he => ?_, 0, fun t _ => hs.server.txns t⟩
    rw [hs.till] at he
    cases he
  · obtain ⟨hinv, hnumbered, hbounded⟩ := hs
    refine ⟨inv_step hinv hstep, numbered_step hinv hnumbered hstep.2, ?_⟩
    obtain ⟨-, hstep⟩ := hstep
    cases a with
    | server a => exact Server.bounded_step hbounded hstep.2.1
    | record d header payload =>
      obtain ⟨_, _, _, -, -, rfl⟩ := hstep
      exact hbounded
    | acknowledge d batch response now =>
      obtain ⟨-, -, _, -, rfl⟩ := hstep
      exact hbounded
    | request d =>
      obtain ⟨_, -, rfl⟩ := hstep
      exact hbounded
    | send d | apply d page | crash d page n =>
      obtain ⟨-, rfl⟩ := hstep
      exact hbounded

/-- Pushes that are still open can be rolled back. -/
theorem abort_run {digest : HashFunction V} (n : Nat) (s : OutletState V) :
    ∃ as s', Synced digest s as s' ∧ s'.till = s.till ∧ s'.server.db = s.server.db ∧
      ∀ t, t < n ∨ s.server.txns t = none → s'.server.txns t = none := by
  induction n with
  | zero =>
    exact ⟨_, s, .nil s, rfl, rfl, fun t ht => ht.resolve_left (Nat.not_lt_zero t)⟩
  | succ n ih =>
    obtain ⟨as, mid, hrun, htill, hdb, hnone⟩ := ih
    let aborted : OutletState V := { mid with server := mid.server.abort n }
    have habort : Transition.Guarded (step digest) Syncing mid (.server (.abort n)) aborted :=
      ⟨⟨rfl, trivial⟩, trivial, rfl, rfl⟩
    refine ⟨_, aborted, hrun.append (.cons _ _ habort (.nil _)), htill, hdb, fun t ht => ?_⟩
    show mid.server.setTxn n none t = none
    by_cases hlast : t = n
    · exact if_pos hlast
    · exact (if_neg hlast).trans (hnone t (ht.imp_left (by omega)))

/-- What a run leaves of the outlet: what the tills recorded, and where they are enrolled. -/
structure Retains (s s' : OutletState V) : Prop where
  own : ∀ d, (s'.till d).store.loadAll = (s.till d).store.loadAll
  enrolled : ∀ d tenant outlet, Server.Enrolled s.server.db d tenant outlet →
    Server.Enrolled s'.server.db d tenant outlet

theorem Retains.placed {s s' : OutletState V} {d tenant outlet : Uuid} (h : Retains s s')
    (hplaced : s.Placed d tenant outlet) : s'.Placed d tenant outlet :=
  ⟨h.enrolled d _ _ hplaced.enrolled, fun e he => hplaced.isSealed e (h.own d ▸ he)⟩

theorem Retains.trans {s s' s'' : OutletState V} (h : Retains s s') (h' : Retains s' s'') :
    Retains s s'' :=
  ⟨fun d => (h'.own d).trans (h.own d),
    fun d tenant outlet hd => h'.enrolled d tenant outlet (h.enrolled d tenant outlet hd)⟩

theorem CaughtUpFrom.retains {s s' : OutletState V} {d : Uuid} (h : s.CaughtUpFrom s' d) :
    Retains s s' := by
  refine ⟨fun x => ?_, h.enrolled⟩
  by_cases hx : x = d
  · rw [hx]
    exact h.own
  · rw [h.others x hx]

/-- One till after another can push what it recorded. -/
theorem pushAll_run {digest : HashFunction V} {tenant outlet : Uuid} (tills : List Uuid)
    {s : OutletState V} (hinv : Inv digest s) (hnumbered : s.Numbered)
    (hplaced : ∀ d ∈ tills, s.Placed d tenant outlet) (hquiet : s.Quiet) :
    ∃ as s', Synced digest s as s' ∧ Retains s s' ∧ s'.Quiet ∧
      ∀ d, d ∈ tills ∨ (s.till d).store.unsynced = [] → (s'.till d).store.unsynced = [] := by
  induction tills generalizing s with
  | nil =>
    exact ⟨_, s, .nil s, ⟨fun _ => rfl, fun _ _ _ h => h⟩, hquiet,
      fun d hd => hd.resolve_left List.not_mem_nil⟩
  | cons d tills ih =>
    obtain ⟨as, mid, hrun, hmid⟩ :=
      catchUp_run hinv hnumbered (hplaced d List.mem_cons_self) hquiet
    obtain ⟨bs, last, hrest, hlast, hquiet', hpushed⟩ := ih (hrun.inv hinv)
      (hrun.numbered hinv hnumbered)
      (fun x hx => hmid.retains.placed (hplaced x (List.mem_cons_of_mem _ hx))) hmid.quiet
    refine ⟨_, last, hrun.append hrest, hmid.retains.trans hlast, hquiet', fun x hx => ?_⟩
    by_cases hself : x = d
    · rw [hself]
      exact hpushed d (.inr hmid.caughtUp.pushed)
    · refine hpushed x (hx.imp (fun hmem => ?_) fun hnone => ?_)
      · exact (List.mem_cons.mp hmem).resolve_left hself
      · rw [hmid.others x hself]
        exact hnone

/-- When nothing is left to push, one till after another can pull the rest, and those that are
    caught up stay so. -/
theorem pullAll_run {digest : HashFunction V} {tenant outlet : Uuid} (tills : List Uuid)
    {s : OutletState V} (hinv : Inv digest s) (hnumbered : s.Numbered)
    (hplaced : ∀ d ∈ tills, s.Placed d tenant outlet) (hquiet : s.Quiet)
    (hpushed : ∀ d ∈ tills, (s.till d).store.unsynced = []) :
    ∃ as s', Synced digest s as s' ∧ Retains s s' ∧ ∀ d, d ∈ tills ∨ s.CaughtUp d →
      s'.CaughtUp d := by
  induction tills generalizing s with
  | nil =>
    exact ⟨_, s, .nil s, ⟨fun _ => rfl, fun _ _ _ h => h⟩,
      fun d hd => hd.resolve_left List.not_mem_nil⟩
  | cons d tills ih =>
    obtain ⟨as, mid, hrun, hmid⟩ :=
      catchUp_run hinv hnumbered (hplaced d List.mem_cons_self) hquiet
    have hserver : mid.server = s.server := hmid.idle (hpushed d List.mem_cons_self)
    have hstill : ∀ x ∈ tills, (mid.till x).store.unsynced = [] := by
      intro x hx
      by_cases hself : x = d
      · rw [hself]
        exact hmid.caughtUp.pushed
      · rw [hmid.others x hself]
        exact hpushed x (List.mem_cons_of_mem _ hx)
    obtain ⟨bs, last, hrest, hlast, hcaught⟩ := ih (hrun.inv hinv) (hrun.numbered hinv hnumbered)
      (fun x hx => hmid.retains.placed (hplaced x (List.mem_cons_of_mem _ hx))) hmid.quiet hstill
    refine ⟨_, last, hrun.append hrest, hmid.retains.trans hlast, fun x hx => ?_⟩
    by_cases hself : x = d
    · rw [hself]
      exact hcaught d (.inr hmid.caughtUp)
    · refine hcaught x (hx.imp (fun hmem => ?_) fun hold => ?_)
      · exact (List.mem_cons.mp hmem).resolve_left hself
      · -- the server did not move, and neither did this till
        constructor
        · rw [hmid.others x hself]
          exact hold.pushed
        · rw [hmid.others x hself, hserver]
          exact hold.pulled

/-- Wherever regular runs lead, the placed tills of an outlet can be caught up by syncing: open
    pushes are rolled back, every till pushes, and then every till pulls. -/
theorem together_run {digest : HashFunction V} {s : OutletState V}
    (h : Transition.Reachable Fresh (Transition.Guarded (step digest) Regular) s)
    {tenant outlet : Uuid} {tills : List Uuid}
    (hplaced : ∀ d ∈ tills, s.Placed d tenant outlet) :
    ∃ as s', Synced digest s as s' ∧ Retains s s' ∧ ∀ d ∈ tills, s'.CaughtUp d := by
  have hinv := inv_reachable h
  obtain ⟨hnumbered, n, hbounded⟩ := numbered_reachable h
  obtain ⟨as, quiet, haborted, htill, hdb, hnone⟩ := @abort_run _ digest n s
  have hretained : Retains s quiet :=
    ⟨fun d => by rw [htill], fun d tenant outlet hd => by rw [hdb]; exact hd⟩
  have hquiet : quiet.Quiet := fun t => by
    rcases lt_or_ge t n with hlt | hge
    · exact hnone t (.inl hlt)
    · exact hnone t (.inr (hbounded t hge))
  obtain ⟨bs, mid, hpush, hmid, hquiet', hpushed⟩ := pushAll_run tills (haborted.inv hinv)
    (haborted.numbered hinv hnumbered) (fun d hd => hretained.placed (hplaced d hd)) hquiet
  have hrun : Synced digest s (as ++ bs) mid := haborted.append hpush
  have hretained' := hretained.trans hmid
  obtain ⟨cs, last, hpull, hlast, hcaught⟩ := pullAll_run tills (hrun.inv hinv)
    (hrun.numbered hinv hnumbered) (fun d hd => hretained'.placed (hplaced d hd)) hquiet'
    fun d hd => hpushed d (.inl hd)
  exact ⟨_, last, hrun.append hpull, hretained'.trans hlast, fun d hd => hcaught d (.inl hd)⟩

/-- A placed till that is caught up holds what the server has stored of the outlet. -/
theorem Inv.holds_placed {digest : HashFunction V} {s : OutletState V} {d tenant outlet : Uuid}
    (h : Inv digest s) (hplaced : s.Placed d tenant outlet) (hcaught : s.CaughtUp d) :
    (s.till d).store.events.Perm (s.server.db.table.events.filter (·.outletId = outlet)) :=
  h.holds_outlet hplaced.enrolled.outletOf hcaught

/-- Every placed till that is caught up holds what any other of them recorded. -/
theorem Inv.recorded_held {digest : HashFunction V} {s : OutletState V} {a b tenant outlet : Uuid}
    (h : Inv digest s) (ha : s.Placed a tenant outlet) (hb : s.Placed b tenant outlet)
    (hcaughtA : s.CaughtUp a) (hcaughtB : s.CaughtUp b) {e : EventEnvelope V}
    (he : e ∈ (s.till a).store.loadAll) : e ∈ (s.till b).store.events := by
  have hown := ((h.till a).mem_own.mp he).1
  exact (h.holds_placed hb hcaughtB).mem_iff.mpr ((h.holds_placed ha hcaughtA).mem_iff.mp hown)

end OutletState

end Sahl
