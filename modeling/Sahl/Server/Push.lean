import Mathlib.Tactic
import Sahl.Server.LogIntegrity

/-! # One push with nothing in between

    What `Server.push` leaves and answers: the committed state as it was, or the device's log with
    the fresh part of the batch at its end. -/

namespace Sahl

variable {V : Type}

namespace Server

/-- Inserting keeps the committed state; not refused, it moves events of the batch along. -/
theorem insertAll_cases {digest : HashFunction V} {s : Server V} {t : Nat} {txn : PushTxn V}
    (n : Nat) (hinv : Inv digest s) (htxn : s.txns t = some txn) :
    ∃ s', Inv digest s' ∧ s'.db = s.db ∧
      ((∃ rejection, insertAll t n s = (s', .error rejection)) ∨
        insertAll t n s = (s', .ok ()) ∧ ∃ txn', s'.txns t = some txn' ∧
          txn'.deviceId = txn.deviceId ∧ txn'.record = txn.record ∧ txn'.plan = txn.plan ∧
            txn'.batch = txn.batch ∧ txn'.todo = txn.todo.drop n) := by
  induction n generalizing s txn with
  | zero => exact ⟨s, hinv, rfl, .inr ⟨rfl, txn, htxn, rfl, rfl, rfl, rfl, rfl⟩⟩
  | succ n ih =>
    have hnext := inv_insertNext t hinv
    -- a transaction with nothing left to insert answers every further round
    cases htodo : txn.todo with
    | nil =>
      have hs : s.insertNext t = (s, .ok ()) := by simp only [insertNext, htxn, htodo]
      rw [insertAll, hs]
      obtain ⟨s', hinv', hdb, hrest⟩ := ih hinv htxn
      rw [htodo, List.drop_nil] at hrest
      exact ⟨s', hinv', hdb, by simpa using hrest⟩
    | cons e rest =>
      cases hscope : scopeCheck txn e with
      | error error =>
        have hs : s.insertNext t = (s.abort t, .error error.rejection) := by
          simp only [insertNext, htxn, htodo, hscope]
        rw [insertAll, hs]
        exact ⟨s.abort t, inv_abort t hinv, rfl, .inl ⟨_, rfl⟩⟩
      | ok u =>
        have hs : s.insertNext t = (⟨s.db, s.nextSeq + 1, s.setTxn t (some { txn with
            todo := rest, rows := txn.rows ++ [⟨e, s.nextSeq⟩] })⟩, .ok ()) := by
          simp only [insertNext, htxn, htodo, hscope]
        rw [hs] at hnext
        obtain ⟨s', hinv', hdb, hrest⟩ := ih hnext (setTxn_self s t _)
        rw [insertAll, hs]
        refine ⟨s', hinv', hdb, hrest.imp_right ?_⟩
        rintro ⟨hok, txn', htxn', hdevice, hrecord, hplan, hbatch, hdrop⟩
        exact ⟨hok, txn', htxn', hdevice, hrecord, hplan, hbatch.trans (batch_insertNext htodo),
          hdrop⟩

/-- A push leaves the committed state and accepts nothing, or commits the fresh part of its
    batch. -/
theorem push_cases {digest : HashFunction V} {s : Server V} (t : Nat) (d : Uuid)
    (request : PushRequest V) (hinv : Inv digest s) :
    ∃ s' answer, s.push digest t d request = (s', answer) ∧ Inv digest s' ∧
      ((s'.db = s.db ∧ ∀ response, answer = .ok response → response.accepted = 0 ∧
          ∃ record plan, s.db.device d = some record ∧ response.tip = record.tip ∧
            planBatch digest request.events record.tip d = .ok plan ∧ plan.toInsert = 0) ∨
        ∃ k response rows, answer = .ok response ∧ request.events.drop k ≠ [] ∧
          response.accepted = (request.events.drop k).length ∧
          s'.db.log d = s.db.log d ++ request.events.drop k ∧
          response.tip = endTip ChainTip.genesis (s'.db.log d) ∧
          s'.db.device = s.db.setTip d response.tip ∧
          s'.db.table.rows = s.db.table.rows ++ rows ∧
          rows.map (·.event) = request.events.drop k) := by
  unfold push
  rcases beginPush_cases digest s t d request with
    ⟨answer, hbegin, hnone, hanswer⟩ | ⟨record, plan, hopen, hnoop, hbegin⟩
  · rw [hbegin]
    match answer with
    | .error rejection => exact ⟨s, _, rfl, hinv, .inl ⟨rfl, by simp⟩⟩
    | .ok none => exact absurd rfl hnone
    | .ok (some response) =>
      obtain ⟨record, plan, hopen, hnone, haccepted, _, htip⟩ := hanswer response rfl
      obtain ⟨hrecord, hplan⟩ := openPush_eq_ok hopen
      refine ⟨s, _, rfl, hinv, .inl ⟨rfl, fun response' h => ?_⟩⟩
      cases h
      exact ⟨haccepted, record, plan, hrecord, htip, hplan, hnone⟩
  have hopened := inv_beginPush t d request hinv
  rw [hbegin] at hopened ⊢
  obtain ⟨hrecord, hplan⟩ := openPush_eq_ok hopen
  obtain ⟨s₁, hinv₁, hdb₁, ⟨rejection, hinsert⟩ | ⟨hinsert, txn, htxn, hdevice, hrec, hplan₁, hbatch,
    htodo⟩⟩ := insertAll_cases request.events.length hopened (setTxn_self s t _)
  · simp only [hinsert]
    exact ⟨s₁, _, rfl, hinv₁, .inl ⟨hdb₁, by simp⟩⟩
  simp only [hinsert]
  -- one round for each event of the request leaves nothing to do
  have hempty : txn.todo = [] := by
    rw [htodo, List.drop_drop, List.drop_eq_nil_iff]
    omega
  have hcommitted := inv_commit t hinv₁
  cases htable : s₁.db.table.insert? txn.rows with
  | none =>
    have hs : s₁.commit t = (s₁.abort t, .error IngestError.database.rejection) := by
      simp [commit, htxn, hempty, htable]
    rw [hs]
    exact ⟨_, _, rfl, inv_abort t hinv₁, .inl ⟨hdb₁, by simp⟩⟩
  | some table =>
    have hs : s₁.commit t = (⟨⟨s₁.db.setTip txn.deviceId txn.plan.resultingTip, table⟩,
        s₁.nextSeq, s₁.setTxn t none⟩, .ok ⟨txn.plan.toInsert, txn.plan.alreadyStored,
          txn.plan.resultingTip, (txn.rows.map (·.serverSeq)).foldl max 0⟩) := by
      simp [commit, htxn, hempty, htable]
    rw [hs] at hcommitted ⊢
    have hold := hinv₁.txn t txn htxn
    have hfresh : txn.batch = request.events.drop plan.alreadyStored := by
      rw [hbatch]
      rfl
    obtain ⟨hzero, _⟩ | ⟨hne, hinserted, _, _, _⟩ := planBatch_eq_ok hplan
    · simp [BatchPlan.isNoop, hzero] at hnoop
    -- what is committed is what the plan kept of the request
    have hlog : Db.log ⟨s₁.db.setTip txn.deviceId txn.plan.resultingTip, table⟩ d =
        s.db.log d ++ request.events.drop plan.alreadyStored := by
      rw [commit_log hold hempty htable, if_pos hdevice, hfresh, hdb₁]
    have hdeviceRecord : s₁.db.setTip txn.deviceId txn.plan.resultingTip d =
        some { record with tip := txn.plan.resultingTip } := by
      rw [hdevice]
      exact setTip_self _ (hdb₁ ▸ hrecord)
    have hrows := EventTable.insert?_eq_some.mp htable
    rw [hdb₁] at hrows
    refine ⟨_, _, rfl, hcommitted,
      .inr ⟨plan.alreadyStored, _, txn.rows, rfl, hne, ?_, hlog, ?_, ?_, hrows, ?_⟩⟩
    · rw [hplan₁]
      exact hinserted
    · exact (hcommitted.chain d _ hdeviceRecord).2
    · show s₁.db.setTip txn.deviceId _ = _
      rw [hdb₁, hdevice]
    · rw [← hfresh, PushTxn.batch, hempty, List.append_nil]

/-! ### A push among the runs -/

theorem insertAll_reachable {digest : HashFunction V} {t : Nat} (n : Nat) {s : Server V}
    (h : Transition.Reachable Fresh (step digest) s) :
    Transition.Reachable Fresh (step digest) (insertAll t n s).1 := by
  induction n generalizing s with
  | zero => exact h
  | succ n ih =>
    have hnext : Transition.Reachable Fresh (step digest) (s.insertNext t).1 :=
      .step (.insertNext t) h rfl
    rw [insertAll]
    split
    · rename_i heq
      rw [heq] at hnext
      exact hnext
    · rename_i heq
      rw [heq] at hnext
      exact ih hnext

/-- A request served with nothing in between is a run of its steps. -/
theorem push_reachable {digest : HashFunction V} {s : Server V} {t : Nat}
    (h : Transition.Reachable Fresh (step digest) s) (hidle : s.txns t = none) (d : Uuid)
    (request : PushRequest V) :
    Transition.Reachable Fresh (step digest) (s.push digest t d request).1 := by
  -- begin, insert each event, commit: the steps of the transaction in a row
  have hbegin : Transition.Reachable Fresh (step digest) (s.beginPush digest t d request).1 :=
    .step (.beginPush t d request) h ⟨hidle, rfl⟩
  unfold push
  split
  · rename_i heq
    rw [heq] at hbegin
    exact hbegin
  · rename_i heq
    rw [heq] at hbegin
    exact hbegin
  · rename_i s' heq
    rw [heq] at hbegin
    have hinserted := @insertAll_reachable _ _ t request.events.length _ hbegin
    split
    · rename_i hinsert
      rw [hinsert] at hinserted
      exact hinserted
    · rename_i hinsert
      rw [hinsert] at hinserted
      exact .step (.commit t) hinserted rfl

end Server

end Sahl
