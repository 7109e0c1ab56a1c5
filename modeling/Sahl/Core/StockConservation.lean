import Mathlib.Tactic
import Sahl.Core.Inventory

/-! # Stock is conserved

    A movement is relative and a count is absolute. What is on hand is nevertheless what came in
    less what went out, once the differences the counts put on record are added (`stock_conserved`),
    and an event that is refused leaves the book as it was. -/

namespace Sahl

namespace InventoryBook

/-! ## Section 1: The body of an event, change by change -/

def levelMut (batchId : Uuid) : Method InventoryError InventoryBook BatchLevel := do
  let book ← get
  Method.check (Except.okOr book.levels[batchId]? (.unknownBatch batchId))

def setOnHand (batchId : Uuid) (level : BatchLevel) (onHand : Quantity) :
    Method InventoryError InventoryBook Unit :=
  modify fun book => { book with levels := book.levels.insert batchId { level with onHand } }

/-- The changes of one event, in the order they are made. -/
def applyInPlace : InventoryEvent → Method InventoryError InventoryBook Unit
  | .batchReceived batchId productId lot expiresAt quantity unitCost _ at' _ => do
    let book ← get
    Method.refuseIf (book.levels[batchId]?.isSome) (.duplicateBatch batchId)
    Method.check (InventoryEvent.assertPositive quantity)
    modify fun book => { book with
      levels := book.levels.insert batchId ⟨⟨batchId, productId, lot, expiresAt, at'⟩, quantity⟩ }
    modify fun book => { book with costs := book.costs.insert batchId unitCost }
  | .stockIssued batchId quantity .. => do
    Method.check (InventoryEvent.assertPositive quantity)
    let level ← levelMut batchId
    let negated ← Method.check (quantity.checkedNeg.mapError InventoryError.money)
    let onHand ← Method.check ((level.onHand.checkedAdd negated).mapError InventoryError.money)
    setOnHand batchId level onHand
  | .stockReturned batchId quantity .. => do
    Method.check (InventoryEvent.assertPositive quantity)
    let level ← levelMut batchId
    let onHand ← Method.check ((level.onHand.checkedAdd quantity).mapError InventoryError.money)
    setOnHand batchId level onHand
  | .batchCounted batchId counted at' countedBy => do
    Method.refuseIf (counted.isNegative) (.negativeCount counted)
    let level ← levelMut batchId
    let expected := level.onHand
    let negated ← Method.check (expected.checkedNeg.mapError InventoryError.money)
    let delta ← Method.check ((counted.checkedAdd negated).mapError InventoryError.money)
    -- the count wins, and the disagreement is kept
    setOnHand batchId level counted
    unless delta.isZero do
      modify fun book => { book with
        variances := book.variances ++ [⟨batchId, expected, counted, delta, at', countedBy⟩] }

theorem on_levelMut_bind {batchId : Uuid}
    {f : BatchLevel → Method InventoryError InventoryBook Unit}
    {g : BatchLevel → Except InventoryError InventoryBook} {book : InventoryBook}
    (h : ∀ level, (f level).on book = .ofExcept book (g level)) :
    (levelMut batchId >>= f).on book =
      .ofExcept book (Except.okOr book.levels[batchId]? (.unknownBatch batchId) >>= g) := by
  unfold levelMut
  rw [bind_assoc, Method.on_get_bind]
  exact Method.on_check_bind h

/-- What is on hand is all that a movement changes. -/
theorem on_setOnHand (batchId : Uuid) (level : BatchLevel) (onHand : Quantity)
    (book : InventoryBook) :
    (setOnHand batchId level onHand).on book =
      .done (book.enter batchId ⟨{ level with onHand }, none, none⟩) := by
  simp [setOnHand, enter]

/-- Every check of an event stands before its first change. -/
theorem applyInPlace_eq (book : InventoryBook) (event : InventoryEvent) :
    (applyInPlace event).on book = .ofExcept book (book.apply event) := by
  unfold apply
  cases event with
  | batchReceived batchId productId lot expiresAt quantity unitCost supplier at' receivedBy =>
    simp only [applyInPlace, InventoryEvent.batchId, Method.on_get_bind]
    cases hlevel : book.levels[batchId]? with
    | some level => rfl
    | none =>
      simp only [InventoryEvent.booking, bind_assoc]
      refine Method.on_check_bind fun _ => ?_
      rw [Method.on_modify_bind, Method.on_modify]
      show _ = Outcome.done (book.enter batchId _)
      simp [enter]
  | stockIssued batchId quantity reason saleId at' issuedBy =>
    simp only [InventoryEvent.booking, InventoryEvent.move, bind_assoc]
    refine Method.on_check_bind fun _ => on_levelMut_bind fun level => ?_
    exact Method.on_check_bind fun negated => Method.on_check_bind fun onHand =>
      on_setOnHand batchId level onHand book
  | stockReturned batchId quantity reason saleId at' returnedBy =>
    simp only [InventoryEvent.booking, InventoryEvent.move, bind_assoc]
    refine Method.on_check_bind fun _ => on_levelMut_bind fun level => ?_
    exact Method.on_check_bind fun onHand => on_setOnHand batchId level onHand book
  | batchCounted batchId counted at' countedBy =>
    rw [InventoryEvent.booking]
    by_cases hnegative : counted.isNegative
    · rw [if_pos hnegative, applyInPlace, Method.refuseIf, if_pos hnegative]
      rfl
    · rw [if_neg hnegative, applyInPlace, Method.refuseIf, if_neg hnegative]
      simp only [bind_assoc, pure_bind]
      refine on_levelMut_bind fun level => ?_
      refine Method.on_check_bind fun negated => Method.on_check_bind fun delta => ?_
      -- the level first, then the variance
      by_cases hzero : delta.isZero
      · simp only [setOnHand, hzero, Method.on_modify_bind]
        show _ = Outcome.done (book.enter batchId _)
        simp [enter]
      · simp only [setOnHand, hzero, Method.on_modify_bind]
        show _ = Outcome.done (book.enter batchId _)
        simp [enter]

end InventoryBook

/-! ## Section 2: What the events say -/

namespace InventoryEvent

/-- What an event brings in, in thousandths. -/
def receivedMilli : InventoryEvent → Int
  | batchReceived _ _ _ _ quantity .. => quantity.milli.val
  | _ => 0

/-- What it brings back. -/
def returnedMilli : InventoryEvent → Int
  | stockReturned _ quantity .. => quantity.milli.val
  | _ => 0

/-- What it takes out. -/
def issuedMilli : InventoryEvent → Int
  | stockIssued _ quantity .. => quantity.milli.val
  | _ => 0

/-- The event that creates a batch. -/
def isReceipt : InventoryEvent → Bool
  | batchReceived .. => true
  | _ => false

/-- What an event leaves on hand in its batch. -/
def onHandAfter (onHand : Int) : InventoryEvent → Int
  | batchReceived _ _ _ _ quantity .. => quantity.milli.val
  | stockIssued _ quantity .. => onHand - quantity.milli.val
  | stockReturned _ quantity .. => onHand + quantity.milli.val
  | batchCounted _ counted .. => counted.milli.val

end InventoryEvent

/-- A count that found other than what was expected, in thousandths. -/
structure CountDifference where
  batchId : Uuid
  expected : Int
  counted : Int
  delta : Int
  at' : Timestamp
  countedBy : Uuid
  deriving DecidableEq

/-- The figures of a variance. -/
def CountVariance.difference (variance : CountVariance) : CountDifference :=
  ⟨variance.batchId, variance.expected.milli.val, variance.counted.milli.val,
    variance.delta.milli.val, variance.at', variance.countedBy⟩

namespace InventoryEvent

/-- What a count finds to differ from what is on hand. -/
def difference (onHand : Int) : InventoryEvent → Option CountDifference
  | batchCounted batchId counted at' countedBy =>
    if counted.milli.val = onHand then none
    else some ⟨batchId, onHand, counted.milli.val, counted.milli.val - onHand, at', countedBy⟩
  | _ => none

/-- What events leave on hand in a batch. -/
def onHandIn (batchId : Uuid) (events : List InventoryEvent) : Int :=
  (events.filter (·.batchId = batchId)).foldl onHandAfter 0

/-- One more event told, and what it found if it is a count. -/
def tell (told : List InventoryEvent × List CountDifference) (event : InventoryEvent) :
    List InventoryEvent × List CountDifference :=
  (told.1 ++ [event],
    told.2 ++ (event.difference (onHandIn event.batchId told.1)).toList)

/-- Every count of a stream that found other than what the events before it left on hand, in the
    order they were made. -/
def differences (events : List InventoryEvent) : List CountDifference :=
  (events.foldl tell ([], [])).2

/-- A figure of the events of one batch, added up. -/
def total (figure : InventoryEvent → Int) (batchId : Uuid) (events : List InventoryEvent) : Int :=
  ((events.filter (·.batchId = batchId)).map figure).sum

theorem differences_concat (events : List InventoryEvent) (event : InventoryEvent) :
    differences (events ++ [event]) =
      differences events ++ (event.difference (onHandIn event.batchId events)).toList := by
  have htold : ∀ (events seen : List InventoryEvent) (found : List CountDifference),
      (events.foldl tell (seen, found)).1 = seen ++ events := by
    intro events
    induction events with
    | nil => simp
    | cons event events ih =>
      intro seen found
      rw [List.foldl_cons, tell, ih]
      simp
  rw [differences, List.foldl_append, List.foldl_cons, List.foldl_nil, tell, htold]
  rfl

theorem onHandIn_concat (batchId : Uuid) (events : List InventoryEvent) (event : InventoryEvent) :
    onHandIn batchId (events ++ [event]) =
      if event.batchId = batchId then event.onHandAfter (onHandIn batchId events)
      else onHandIn batchId events := by
  unfold onHandIn
  by_cases hbatch : event.batchId = batchId
  · simp [List.filter_append, hbatch]
  · simp [List.filter_append, hbatch]

theorem total_concat (figure : InventoryEvent → Int) (batchId : Uuid)
    (events : List InventoryEvent) (event : InventoryEvent) :
    total figure batchId (events ++ [event]) =
      total figure batchId events + if event.batchId = batchId then figure event else 0 := by
  unfold total
  by_cases hbatch : event.batchId = batchId
  · simp [List.filter_append, hbatch]
  · simp [List.filter_append, hbatch]

/-- The difference of a count makes up for its being absolute: an event changes what is on hand by
    what it brings in and back, less what it takes out, and by the difference it finds. -/
theorem onHandAfter_balance (event : InventoryEvent) (onHand : Int)
    (hreceipt : event.isReceipt → onHand = 0) :
    event.onHandAfter onHand = onHand + event.receivedMilli + event.returnedMilli -
      event.issuedMilli + (event.difference onHand).elim 0 (·.delta) := by
  cases event with
  | batchReceived =>
    rw [hreceipt rfl]
    simp [onHandAfter, receivedMilli, returnedMilli, issuedMilli, difference]
  | stockIssued => simp [onHandAfter, receivedMilli, returnedMilli, issuedMilli, difference]
  | stockReturned => simp [onHandAfter, receivedMilli, returnedMilli, issuedMilli, difference]
  | batchCounted batchId counted =>
    by_cases hsame : counted.milli.val = onHand
    · simp [onHandAfter, receivedMilli, returnedMilli, issuedMilli, difference, hsame]
    · simp [onHandAfter, receivedMilli, returnedMilli, issuedMilli, difference, hsame]

/-! ## Section 3: One event -/

theorem move_eq_ok {level : BatchLevel} {movement : Except MoneyError Quantity} {b : Booking}
    (h : move level movement = .ok b) :
    ∃ q, movement = .ok q ∧ b.level.onHand.milli.val = level.onHand.milli.val + q.milli.val ∧
      b.variance = none := by
  simp only [move, Except.bind_eq_ok, Except.mapError_eq_ok, Quantity.checkedAdd_eq_ok] at h
  obtain ⟨q, hq, onHand, hsum, h⟩ := h
  cases h
  exact ⟨q, hq, hsum, rfl⟩

/-- What an event books is what it says, of what is on hand in its batch. A batch is received once,
    and first. -/
theorem booking_figures {event : InventoryEvent} {entry : Option BatchLevel} {b : Booking}
    (h : event.booking entry = .ok b) :
    (event.isReceipt ↔ entry = none) ∧
      b.level.onHand.milli.val = event.onHandAfter (entry.elim 0 (·.onHand.milli.val)) ∧
      b.variance.map (·.difference) = event.difference (entry.elim 0 (·.onHand.milli.val)) := by
  cases event with
  | batchReceived batchId productId lot expiresAt quantity =>
    cases entry with
    | some => cases h
    | none =>
      simp only [booking, Except.bind_eq_ok] at h
      obtain ⟨_, _, h⟩ := h
      cases h
      exact ⟨by simp [isReceipt], rfl, rfl⟩
  | stockIssued batchId quantity =>
    simp only [booking, Except.bind_eq_ok, Except.okOr_eq_ok] at h
    obtain ⟨_, _, level, rfl, h⟩ := h
    obtain ⟨q, hq, honHand, hvariance⟩ := move_eq_ok h
    rw [Quantity.checkedNeg_eq_ok.mp hq] at honHand
    exact ⟨by simp [isReceipt], honHand, by rw [hvariance]; rfl⟩
  | stockReturned batchId quantity =>
    simp only [booking, Except.bind_eq_ok, Except.okOr_eq_ok] at h
    obtain ⟨_, _, level, rfl, h⟩ := h
    obtain ⟨q, hq, honHand, hvariance⟩ := move_eq_ok h
    cases hq
    exact ⟨by simp [isReceipt], honHand, by rw [hvariance]; rfl⟩
  | batchCounted batchId counted at' countedBy =>
    rw [booking] at h
    split at h
    · cases h
    simp only [Except.bind_eq_ok, Except.okOr_eq_ok, Except.mapError_eq_ok,
      Quantity.checkedNeg_eq_ok, Quantity.checkedAdd_eq_ok] at h
    obtain ⟨level, rfl, negated, hnegated, delta, hdelta, h⟩ := h
    cases h
    refine ⟨by simp [isReceipt], rfl, ?_⟩
    have hminus : delta.milli.val = counted.milli.val - level.onHand.milli.val := by
      rw [hdelta, hnegated]
      rfl
    -- a count that finds what was expected leaves no variance
    by_cases hzero : delta.isZero
    · have hsame : counted.milli.val = level.onHand.milli.val := by
        simp only [Quantity.isZero, decide_eq_true_eq] at hzero
        omega
      simp [difference, hzero, hsame]
    · have hother : counted.milli.val ≠ level.onHand.milli.val := by
        simp only [Quantity.isZero, decide_eq_true_eq] at hzero
        omega
      simp [difference, hzero, hother, CountVariance.difference, hminus]

end InventoryEvent

/-! ## Section 4: The book -/

namespace InventoryBook

open InventoryEvent

/-- Rebuild from a stream of events, changing the book in place. -/
def replayInPlace (events : List InventoryEvent) : Except InventoryError InventoryBook :=
  events.foldlM (fun book event => ((applyInPlace event).on book).toExcept) .new

theorem replayInPlace_eq (events : List InventoryEvent) : replayInPlace events = replay events := by
  unfold replayInPlace replay
  simp only [applyInPlace_eq, Outcome.toExcept_ofExcept]

/-- The differences a book has on record for a batch, added up. -/
def deltas (book : InventoryBook) (batchId : Uuid) : Int :=
  ((book.variances.filter (·.batchId = batchId)).map (·.delta.milli.val)).sum

/-- Each batch holds what it received and what came back, less what left, with the differences of
    its counts; the batches are those received; and the differences are all on record, in order. -/
structure Conserved (events : List InventoryEvent) (book : InventoryBook) : Prop where
  onHand : ∀ (batchId : Uuid) (level : BatchLevel), book.levels[batchId]? = some level →
    level.onHand.milli.val = total receivedMilli batchId events +
      total returnedMilli batchId events - total issuedMilli batchId events + book.deltas batchId
  batches : ∀ batchId : Uuid, book.levels[batchId]?.isSome ↔
    ∃ event ∈ events, event.isReceipt ∧ event.batchId = batchId
  variances : book.variances.map (·.difference) = differences events

/-- What is on hand in a batch, nothing in one never received. -/
def onHandOf (book : InventoryBook) (batchId : Uuid) : Int :=
  book.levels[batchId]?.elim 0 (·.onHand.milli.val)

/-- The invariant of a replay: what is on hand both ways, beside the batches and the variances. -/
structure Accounted (events : List InventoryEvent) (book : InventoryBook) : Prop where
  balance : ∀ batchId, book.onHandOf batchId = total receivedMilli batchId events +
    total returnedMilli batchId events - total issuedMilli batchId events + book.deltas batchId
  stands : ∀ batchId, book.onHandOf batchId = onHandIn batchId events
  batches : ∀ batchId : Uuid, book.levels[batchId]?.isSome ↔
    ∃ event ∈ events, event.isReceipt ∧ event.batchId = batchId
  variances : book.variances.map (·.difference) = differences events

theorem accounted_new : Accounted [] .new where
  balance _ := rfl
  stands _ := rfl
  batches batchId := by simp [new]
  variances := rfl

theorem difference_batchId {event : InventoryEvent} {onHand : Int} {found : CountDifference}
    (h : event.difference onHand = some found) : found.batchId = event.batchId := by
  cases event with
  | batchCounted =>
    rw [difference] at h
    split at h <;> cases h
    rfl
  | _ => cases h

/-- A booking puts on record, for its own batch, the difference it found. -/
theorem deltas_enter {book : InventoryBook} {event : InventoryEvent} {b : Booking} {onHand : Int}
    (hvariance : b.variance.map (·.difference) = event.difference onHand) (batchId : Uuid) :
    (book.enter event.batchId b).deltas batchId = book.deltas batchId +
      if event.batchId = batchId then (event.difference onHand).elim 0 (·.delta) else 0 := by
  unfold deltas enter
  cases hfound : b.variance with
  | none =>
    rw [hfound] at hvariance
    simp [← hvariance]
  | some variance =>
    rw [hfound] at hvariance
    have hid : variance.batchId = event.batchId := difference_batchId hvariance.symm
    by_cases hbatch : event.batchId = batchId
    · simp [List.filter_append, ← hvariance, hid, hbatch, CountVariance.difference]
    · simp [List.filter_append, hid, hbatch]

theorem accounted_apply {events : List InventoryEvent} {book book' : InventoryBook}
    {event : InventoryEvent} (h : Accounted events book) (happly : book.apply event = .ok book') :
    Accounted (events ++ [event]) book' := by
  obtain ⟨b, hbooking, rfl⟩ := apply_eq_ok.mp happly
  obtain ⟨hreceipt, honHand, hvariance⟩ := booking_figures hbooking
  -- both figures are read at the entry the event found
  change b.level.onHand.milli.val = event.onHandAfter (book.onHandOf event.batchId) at honHand
  change b.variance.map (·.difference) = event.difference (book.onHandOf event.batchId) at hvariance
  have hnew : ∀ batchId, (book.enter event.batchId b).onHandOf batchId =
      if event.batchId = batchId then event.onHandAfter (book.onHandOf event.batchId)
      else book.onHandOf batchId := by
    intro batchId
    simp only [onHandOf, enter, UuidMap.get_insert]
    split
    · exact honHand
    · rfl
  constructor
  · intro batchId
    rw [hnew, total_concat, total_concat, total_concat, deltas_enter hvariance]
    by_cases hbatch : event.batchId = batchId
    · simp only [if_pos hbatch]
      -- a receipt finds no batch, so nothing was on hand
      have hempty : event.isReceipt → book.onHandOf event.batchId = 0 := by
        intro h
        rw [onHandOf, hreceipt.mp h]
        rfl
      have hold := h.balance event.batchId
      rw [onHandAfter_balance event _ hempty, hold, hbatch]
      omega
    · simp only [if_neg hbatch, add_zero]
      exact h.balance batchId
  · intro batchId
    rw [hnew, onHandIn_concat, h.stands, h.stands]
    split
    · rename_i hbatch
      rw [hbatch]
    · rfl
  · intro batchId
    have hold := h.batches batchId
    simp only [enter, UuidMap.get_insert, List.mem_append, List.mem_singleton, or_and_right,
      exists_or, exists_eq_left]
    by_cases hbatch : event.batchId = batchId
    · rw [if_pos hbatch]
      simp only [Option.isSome_some, hbatch, and_true, true_iff]
      by_cases hfirst : event.isReceipt
      · exact .inr hfirst
      · -- a batch that is not received by this event was received before
        refine .inl (hold.mp ?_)
        rw [← hbatch]
        exact Option.isSome_iff_ne_none.mpr fun hnone => hfirst (hreceipt.mpr hnone)
    · rw [if_neg hbatch]
      simp only [hbatch, and_false, or_false]
      exact hold
  · rw [differences_concat, ← h.variances, ← h.stands, ← hvariance]
    simp only [enter, List.map_append]
    cases b.variance <;> rfl

theorem accounted_replay {events : List InventoryEvent} {book : InventoryBook}
    (h : replay events = .ok book) : Accounted events book :=
  foldlM_invariant Accounted (fun _ _ _ _ hseen hstep => accounted_apply hseen hstep)
    accounted_new h

/-- **Stock is conserved** by every stream that replays, and an event that is refused leaves the
    whole book as it was. -/
theorem stock_conserved :
    (∀ (events : List InventoryEvent) (book : InventoryBook), replayInPlace events = .ok book →
      Conserved events book) ∧
    ∀ (book : InventoryBook) (event : InventoryEvent) (error : InventoryError),
      ((applyInPlace event).on book).answer = .error error →
        ((applyInPlace event).on book).state = book := by
  constructor
  · intro events book h
    rw [replayInPlace_eq] at h
    have haccounted := accounted_replay h
    refine ⟨fun batchId level hlevel => ?_, haccounted.batches, haccounted.variances⟩
    rw [← haccounted.balance, onHandOf, hlevel]
    rfl
  · intro book event error h
    rw [applyInPlace_eq] at h ⊢
    cases happly : book.apply event with
    | error error => rfl
    | ok book' =>
      rw [happly] at h
      cases h

/-- Ten come in, one goes out, and a count finds six. -/
def countedShort : List InventoryEvent :=
  [.batchReceived 1 100 none none ⟨I64.lit 10000⟩ ⟨I64.lit 50, .bdt⟩ none .epoch 9,
   .stockIssued 1 Quantity.one .sale none .epoch 9,
   .batchCounted 1 ⟨I64.lit 6000⟩ .epoch 9]

/-- The book of those. -/
def countedShortBook : InventoryBook := ((replay countedShort).toOption).getD .new

theorem stock_conserved_countedShort :
    Conserved countedShort countedShortBook ∧
      countedShortBook.variances.map (·.difference) = [⟨1, 9000, 6000, -3000, .epoch, 9⟩] := by
  have hreplay : replayInPlace countedShort = .ok countedShortBook := by rfl
  exact ⟨stock_conserved.1 _ _ hreplay, by decide⟩

end InventoryBook

end Sahl
