import Mathlib.Tactic
import Sahl.Core.Money

/-! # Inventory

    Batch levels, rebuilt from inventory events. A level may go negative: the shelf is the
    authority, and a count corrects the book. -/

namespace Sahl

/-! ## Section 1: Events -/

/-- Why stock left a batch. -/
inductive IssueReason where
  | sale
  | wastage
  | transferOut
  | returnToSupplier
  | internal
  deriving DecidableEq

/-- Why stock came back into a batch. -/
inductive ReturnReason where
  | customerRefund
  | transferIn
  deriving DecidableEq

/-- Everything that moves stock. -/
inductive InventoryEvent where
  | batchReceived (batchId productId : Uuid) (lot : Option String) (expiresAt : Option Timestamp)
      (quantity : Quantity) (unitCost : Money) (supplier : Option String) (at' : Timestamp)
      (receivedBy : Uuid)
  | stockIssued (batchId : Uuid) (quantity : Quantity) (reason : IssueReason)
      (saleId : Option Uuid) (at' : Timestamp) (issuedBy : Uuid)
  | stockReturned (batchId : Uuid) (quantity : Quantity) (reason : ReturnReason)
      (saleId : Option Uuid) (at' : Timestamp) (returnedBy : Uuid)
  | batchCounted (batchId : Uuid) (counted : Quantity) (at' : Timestamp) (countedBy : Uuid)
  deriving DecidableEq

namespace InventoryEvent

def batchId : InventoryEvent → Uuid
  | batchReceived batchId .. | stockIssued batchId .. | stockReturned batchId ..
  | batchCounted batchId .. => batchId

def kind : InventoryEvent → String
  | batchReceived .. => "inventory.batch_received"
  | stockIssued .. => "inventory.stock_issued"
  | stockReturned .. => "inventory.stock_returned"
  | batchCounted .. => "inventory.batch_counted"

def isCount : InventoryEvent → Bool
  | batchCounted .. => true
  | _ => false

end InventoryEvent

/-- Why the inventory rejected an event. -/
inductive InventoryError where
  | money (error : MoneyError)
  | unknownBatch (batchId : Uuid)
  | duplicateBatch (batchId : Uuid)
  | nonPositiveMovement (quantity : Quantity)
  | negativeCount (counted : Quantity)
  deriving DecidableEq

/-! ## Section 2: The book -/

/-- One received lot of a product. -/
structure Batch where
  id : Uuid
  productId : Uuid
  lot : Option String
  expiresAt : Option Timestamp
  receivedAt : Timestamp
  deriving DecidableEq

structure BatchLevel where
  batch : Batch
  onHand : Quantity
  deriving DecidableEq

/-- A count that disagreed with the book. -/
structure CountVariance where
  batchId : Uuid
  expected : Quantity
  counted : Quantity
  /-- Counted minus expected. -/
  delta : Quantity
  at' : Timestamp
  countedBy : Uuid
  deriving DecidableEq

/-- Every batch the outlet knows about. -/
structure InventoryBook where
  levels : UuidMap BatchLevel
  costs : UuidMap Money
  variances : List CountVariance
  deriving DecidableEq

/-- What an event books: the level of its batch, the cost of a batch it creates, the variance of
    a count. -/
structure Booking where
  level : BatchLevel
  cost : Option Money
  variance : Option CountVariance

namespace InventoryEvent

def assertPositive (quantity : Quantity) : Except InventoryError Unit :=
  if 0 < quantity.milli.val then .ok () else .error (.nonPositiveMovement quantity)

/-- The level with a movement added to it. -/
def move (level : BatchLevel) (movement : Except MoneyError Quantity) :
    Except InventoryError Booking := do
  let movement ← movement.mapError InventoryError.money
  let onHand ← (level.onHand.checkedAdd movement).mapError InventoryError.money
  .ok ⟨{ level with onHand }, none, none⟩

/-- The body of `apply`, on the level its batch has in the book. -/
def booking : InventoryEvent → Option BatchLevel → Except InventoryError Booking
  | batchReceived batchId .., some _ => .error (.duplicateBatch batchId)
  | batchReceived batchId productId lot expiresAt quantity unitCost _ at' _, none => do
    assertPositive quantity
    .ok ⟨⟨⟨batchId, productId, lot, expiresAt, at'⟩, quantity⟩, some unitCost, none⟩
  | stockIssued batchId quantity .., level => do
    assertPositive quantity
    let level ← Except.okOr level (.unknownBatch batchId)
    move level quantity.checkedNeg
  | stockReturned batchId quantity .., level => do
    assertPositive quantity
    let level ← Except.okOr level (.unknownBatch batchId)
    move level (.ok quantity)
  | batchCounted batchId counted at' countedBy, level => do
    if counted.isNegative then .error (.negativeCount counted)
    else
      let level ← Except.okOr level (.unknownBatch batchId)
      let expected := level.onHand
      let negated ← expected.checkedNeg.mapError InventoryError.money
      let delta ← (counted.checkedAdd negated).mapError InventoryError.money
      -- the count wins, and the disagreement is kept
      .ok ⟨{ level with onHand := counted }, none,
        if delta.isZero then none else some ⟨batchId, expected, counted, delta, at', countedBy⟩⟩

end InventoryEvent

namespace InventoryBook

def new : InventoryBook := ⟨∅, ∅, []⟩

/-- The book with a booking entered. -/
def enter (book : InventoryBook) (batchId : Uuid) (booking : Booking) : InventoryBook where
  levels := book.levels.insert batchId booking.level
  costs := booking.cost.elim book.costs (book.costs.insert batchId ·)
  variances := book.variances ++ booking.variance.toList

/-- Apply one event. -/
def apply (book : InventoryBook) (event : InventoryEvent) :
    Except InventoryError InventoryBook := do
  let booking ← event.booking book.levels[event.batchId]?
  .ok (book.enter event.batchId booking)

/-- Rebuild from a stream of events. -/
def replay (events : List InventoryEvent) : Except InventoryError InventoryBook :=
  events.foldlM apply new

theorem apply_eq_ok {book book' : InventoryBook} {event : InventoryEvent} :
    book.apply event = .ok book' ↔
      ∃ booking, event.booking book.levels[event.batchId]? = .ok booking ∧
        book.enter event.batchId booking = book' := by
  unfold apply
  rw [Except.bind_eq_ok]
  simp

end InventoryBook

namespace InventoryEvent

/-- Only a count leaves a variance. -/
theorem booking_variance {event : InventoryEvent} {level : Option BatchLevel} {b : Booking}
    (h : event.booking level = .ok b) (hcount : ¬ event.isCount) : b.variance = none := by
  -- a movement books no variance
  have hmove : ∀ {level movement b}, move level movement = .ok b → b.variance = none := by
    intro level movement b hb
    simp only [move, Except.bind_eq_ok] at hb
    obtain ⟨_, _, _, _, hb⟩ := hb
    cases hb
    rfl
  cases event with
  | batchReceived =>
    cases level with
    | some => cases h
    | none =>
      simp only [booking, Except.bind_eq_ok] at h
      obtain ⟨_, _, h⟩ := h
      cases h
      rfl
  | stockIssued =>
    simp only [booking, Except.bind_eq_ok] at h
    obtain ⟨_, _, _, _, h⟩ := h
    exact hmove h
  | stockReturned =>
    simp only [booking, Except.bind_eq_ok] at h
    obtain ⟨_, _, _, _, h⟩ := h
    exact hmove h
  | batchCounted => simp [isCount] at hcount

end InventoryEvent

namespace InventoryBook

theorem enter_comm (book : InventoryBook) {k l : Uuid} (h : k ≠ l) (b c : Booking)
    (hvariance : b.variance = none ∨ c.variance = none) :
    (book.enter k b).enter l c = (book.enter l c).enter k b := by
  have hlevels := UuidMap.insert_comm book.levels h b.level c.level
  have hcosts : ∀ {v w : Option Money}, w.elim (v.elim book.costs (book.costs.insert k ·))
      ((v.elim book.costs (book.costs.insert k ·)).insert l ·) =
        v.elim (w.elim book.costs (book.costs.insert l ·))
          ((w.elim book.costs (book.costs.insert l ·)).insert k ·) := by
    intro v w
    cases v <;> cases w <;> first | rfl | exact UuidMap.insert_comm book.costs h _ _
  simp only [enter, hlevels, hcosts, mk.injEq, true_and]
  rcases hvariance with hb | hc
  · simp [hb]
  · simp [hc]

/-- Events on two batches can be applied in either order, unless both are counts. -/
theorem apply_swap {book book' book'' : InventoryBook} {a b : InventoryEvent}
    (hbatch : a.batchId ≠ b.batchId) (hcount : ¬ (a.isCount ∧ b.isCount))
    (ha : book.apply a = .ok book') (hb : book'.apply b = .ok book'') :
    ∃ mid, book.apply b = .ok mid ∧ mid.apply a = .ok book'' := by
  obtain ⟨forA, hforA, rfl⟩ := apply_eq_ok.mp ha
  obtain ⟨forB, hforB, rfl⟩ := apply_eq_ok.mp hb
  have hlevel : (book.enter a.batchId forA).levels[b.batchId]? = book.levels[b.batchId]? := by
    simp only [enter, UuidMap.get_insert, if_neg hbatch]
  rw [hlevel] at hforB
  have hvariance : forA.variance = none ∨ forB.variance = none := by
    by_cases hcountA : a.isCount
    · exact .inr (InventoryEvent.booking_variance hforB fun h => hcount ⟨hcountA, h⟩)
    · exact .inl (InventoryEvent.booking_variance hforA hcountA)
  refine ⟨_, apply_eq_ok.mpr ⟨forB, hforB, rfl⟩, apply_eq_ok.mpr ⟨forA, ?_, ?_⟩⟩
  · simp only [enter, UuidMap.get_insert, if_neg hbatch.symm]
    exact hforA
  · exact (enter_comm book hbatch forA forB hvariance).symm

end InventoryBook

/-! ## Section 3: Which streams replay -/

namespace InventoryEvent

/-- What is on hand after an event about a batch already received, in thousandths; `none` where
    the event cannot follow. -/
def nextOnHand (onHand : Int) : InventoryEvent → Option Int
  | batchReceived .. => none
  | stockIssued _ quantity .. =>
    if 0 < quantity.milli.val ∧ I64.Fits (onHand - quantity.milli.val) then
      some (onHand - quantity.milli.val)
    else none
  | stockReturned _ quantity .. =>
    if 0 < quantity.milli.val ∧ I64.Fits (onHand + quantity.milli.val) then
      some (onHand + quantity.milli.val)
    else none
  | batchCounted _ counted .. =>
    if 0 ≤ counted.milli.val ∧ I64.Fits (-onHand) ∧ I64.Fits (counted.milli.val - onHand) then
      some counted.milli.val
    else none

/-- What a receipt puts on hand, in thousandths. -/
def received : InventoryEvent → Option Int
  | batchReceived _ _ _ _ quantity .. =>
    if 0 < quantity.milli.val then some quantity.milli.val else none
  | _ => none

/-- The events about one batch: its receipt first and once, and every figure within an `i64`. -/
def ReceivedFirst : List InventoryEvent → Prop
  | [] => True
  | first :: rest => ∃ n, first.received = some n ∧ (rest.foldlM nextOnHand n).isSome

theorem assertPositive_eq_ok {quantity : Quantity} {u : Unit} :
    assertPositive quantity = .ok u ↔ 0 < quantity.milli.val := by
  unfold assertPositive
  split <;> simp_all

theorem move_iff (level : BatchLevel) (movement : Except MoneyError Quantity) (n : Int) :
    (∃ b, move level movement = .ok b ∧ b.level.onHand.milli.val = n) ↔
      ∃ q, movement = .ok q ∧ level.onHand.milli.val + q.milli.val = n ∧ I64.Fits n := by
  simp only [move, Except.bind_eq_ok, Except.mapError_eq_ok, Quantity.checkedAdd_eq_ok]
  constructor
  · rintro ⟨b, ⟨q, hq, onHand, hsum, hb⟩, hn⟩
    cases hb
    exact ⟨q, hq, hsum.symm.trans hn, Quantity.fits_iff.mpr ⟨onHand, hn⟩⟩
  · rintro ⟨q, hq, hsum, hfits⟩
    obtain ⟨onHand, hn⟩ := Quantity.fits_iff.mp hfits
    exact ⟨_, ⟨q, hq, onHand, hn.trans hsum.symm, rfl⟩, hn⟩

/-- What an event books on a batch already received. -/
theorem booking_some_iff (event : InventoryEvent) (level : BatchLevel) (n : Int) :
    nextOnHand level.onHand.milli.val event = some n ↔
      ∃ b, event.booking (some level) = .ok b ∧ b.level.onHand.milli.val = n := by
  cases event with
  | batchReceived => simp [nextOnHand, booking]
  | stockIssued _ quantity =>
    simp only [nextOnHand, booking, Except.bind_eq_ok, assertPositive_eq_ok, Except.okOr_eq_ok,
      Option.some.injEq, exists_and_left, exists_eq_left', exists_const, move_iff,
      Option.ite_none_right_eq_some, and_assoc]
    refine and_congr_right fun hpositive => ?_
    constructor
    · rintro ⟨hfits, rfl⟩
      -- a positive quantity can always be negated
      have hneg : I64.Fits (-quantity.milli.val) := by
        have := quantity.milli.hi'
        exact ⟨by omega, by omega⟩
      obtain ⟨q, hq⟩ := Quantity.fits_iff.mp hneg
      exact ⟨q, Quantity.checkedNeg_eq_ok.mpr hq, by rw [hq]; rfl, hfits⟩
    · rintro ⟨q, hq, rfl, hfits⟩
      rw [Quantity.checkedNeg_eq_ok.mp hq] at hfits ⊢
      exact ⟨hfits, rfl⟩
  | stockReturned _ quantity =>
    simp only [nextOnHand, booking, Except.bind_eq_ok, assertPositive_eq_ok, Except.okOr_eq_ok,
      Option.some.injEq, exists_and_left, exists_eq_left', exists_const, move_iff,
      Option.ite_none_right_eq_some, and_assoc, Except.ok.injEq]
    refine and_congr_right fun hpositive => ?_
    constructor
    · rintro ⟨hfits, rfl⟩
      exact ⟨rfl, hfits⟩
    · rintro ⟨rfl, hfits⟩
      exact ⟨hfits, rfl⟩
  | batchCounted _ counted =>
    simp only [nextOnHand, booking, Option.ite_none_right_eq_some]
    -- a count is refused below zero; its variance is worked out with a negation of its own
    by_cases hnegative : counted.isNegative
    · have hlt : counted.milli.val < 0 := by simpa [Quantity.isNegative] using hnegative
      rw [if_pos hnegative]
      constructor
      · rintro ⟨⟨hcounted, -⟩, -⟩
        omega
      · rintro ⟨b, hb, -⟩
        cases hb
    · have hle : 0 ≤ counted.milli.val := by simpa [Quantity.isNegative] using hnegative
      simp only [if_neg hnegative, Except.bind_eq_ok, Except.okOr_eq_ok, Option.some.injEq,
        exists_eq_left', Except.mapError_eq_ok, Quantity.checkedNeg_eq_ok,
        Quantity.checkedAdd_eq_ok]
      constructor
      · rintro ⟨⟨-, hneg, hdelta⟩, rfl⟩
        obtain ⟨negated, hnegated⟩ := Quantity.fits_iff.mp hneg
        obtain ⟨delta, hsum⟩ := Quantity.fits_iff.mp hdelta
        exact ⟨_, ⟨negated, hnegated, delta, by rw [hsum, hnegated]; rfl, rfl⟩, rfl⟩
      · rintro ⟨b, ⟨negated, hnegated, delta, hsum, hb⟩, hn⟩
        cases hb
        refine ⟨⟨hle, Quantity.fits_iff.mpr ⟨negated, hnegated⟩, ?_⟩, hn⟩
        exact Quantity.fits_iff.mpr ⟨delta, by rw [hsum, hnegated]; rfl⟩

/-- The level an event leaves its batch at. -/
def levelAfter (event : InventoryEvent) (entry : Option BatchLevel) :
    Except InventoryError BatchLevel := (event.booking entry).map (·.level)

theorem levelAfter_eq_ok {event : InventoryEvent} {entry : Option BatchLevel} {level : BatchLevel} :
    event.levelAfter entry = .ok level ↔
      ∃ b, event.booking entry = .ok b ∧ b.level = level := Except.map_eq_ok

/-- Events about a batch already received follow exactly when its figures do. -/
theorem levelAfter_received_isOkay (events : List InventoryEvent) (level : BatchLevel) :
    (events.foldlM (fun entry event => (levelAfter event entry).map some) (some level)).isOkay ↔
      (events.foldlM nextOnHand level.onHand.milli.val).isSome := by
  induction events generalizing level with
  | nil => simp [Except.isOkay, pure, Except.pure]
  | cons event events ih =>
    rw [foldlM_cons_isOkay, List.foldlM_cons, Option.isSome_iff_exists]
    constructor
    · rintro ⟨entry, hentry, hrest⟩
      obtain ⟨level', hlevel', rfl⟩ := Except.map_eq_ok.mp hentry
      obtain ⟨b, hb, rfl⟩ := levelAfter_eq_ok.mp hlevel'
      rw [(booking_some_iff event level _).mpr ⟨b, hb, rfl⟩]
      exact Option.isSome_iff_exists.mp ((ih b.level).mp hrest)
    · rintro ⟨last, h⟩
      obtain ⟨n, hn, hrest⟩ := Option.bind_eq_some_iff.mp h
      obtain ⟨b, hb, rfl⟩ := (booking_some_iff event level n).mp hn
      refine ⟨some b.level, Except.map_eq_ok.mpr ⟨_, levelAfter_eq_ok.mpr ⟨b, hb, rfl⟩, rfl⟩, ?_⟩
      exact (ih b.level).mpr (Option.isSome_iff_exists.mpr ⟨last, hrest⟩)

/-- What an event books on a batch not received yet. -/
theorem booking_none_iff (event : InventoryEvent) (n : Int) :
    event.received = some n ↔
      ∃ b, event.booking none = .ok b ∧ b.level.onHand.milli.val = n := by
  cases event with
  | batchReceived _ _ _ _ quantity =>
    simp only [received, booking, Except.bind_eq_ok, assertPositive_eq_ok,
      Option.ite_none_right_eq_some, Option.some.injEq]
    constructor
    · rintro ⟨hpositive, hn⟩
      exact ⟨_, ⟨(), hpositive, rfl⟩, hn⟩
    · rintro ⟨b, ⟨_, hpositive, hb⟩, hn⟩
      cases hb
      exact ⟨hpositive, hn⟩
  | stockIssued | stockReturned => simp [received, booking, Except.bind_eq_ok]
  | batchCounted _ counted =>
    by_cases hnegative : counted.isNegative
    · simp [received, booking, hnegative]
    · simp [received, booking, hnegative, Except.bind_eq_ok]

theorem levelAfter_isOkay (events : List InventoryEvent) :
    (events.foldlM (fun entry event => (levelAfter event entry).map some) none).isOkay ↔
      ReceivedFirst events := by
  cases events with
  | nil => simp [ReceivedFirst, Except.isOkay, pure, Except.pure]
  | cons first rest =>
    rw [foldlM_cons_isOkay, ReceivedFirst]
    constructor
    · rintro ⟨entry, hentry, hrest⟩
      obtain ⟨level, hlevel, rfl⟩ := Except.map_eq_ok.mp hentry
      obtain ⟨b, hb, rfl⟩ := levelAfter_eq_ok.mp hlevel
      exact ⟨_, (booking_none_iff first _).mpr ⟨b, hb, rfl⟩,
        (levelAfter_received_isOkay rest b.level).mp hrest⟩
    · rintro ⟨n, hn, hrest⟩
      obtain ⟨b, hb, rfl⟩ := (booking_none_iff first n).mp hn
      refine ⟨some b.level, Except.map_eq_ok.mpr ⟨_, levelAfter_eq_ok.mpr ⟨b, hb, rfl⟩, rfl⟩, ?_⟩
      exact (levelAfter_received_isOkay rest b.level).mpr hrest

end InventoryEvent

namespace InventoryBook

/-- A stream replays exactly when every batch in it is received first, and once, and its figures
    fit. -/
theorem replay_isOkay_iff (events : List InventoryEvent) :
    (replay events).isOkay ↔
      ∀ batchId : Uuid, InventoryEvent.ReceivedFirst (events.filter (·.batchId = batchId)) := by
  have hlevels : ∀ (book : InventoryBook) (event : InventoryEvent) (levels : UuidMap BatchLevel),
      book.levels.alterM event.batchId event.levelAfter = .ok levels ↔
        ∃ next, book.apply event = .ok next ∧ next.levels = levels := by
    intro book event levels
    rw [UuidMap.alterM_eq_ok]
    constructor
    · rintro ⟨level, hlevel, rfl⟩
      obtain ⟨b, hb, rfl⟩ := InventoryEvent.levelAfter_eq_ok.mp hlevel
      exact ⟨_, apply_eq_ok.mpr ⟨b, hb, rfl⟩, rfl⟩
    · rintro ⟨next, hnext, rfl⟩
      obtain ⟨b, hb, rfl⟩ := apply_eq_ok.mp hnext
      exact ⟨b.level, InventoryEvent.levelAfter_eq_ok.mpr ⟨b, hb, rfl⟩, rfl⟩
  unfold replay
  rw [foldlM_isOkay_view (fun m event => UuidMap.alterM m event.batchId event.levelAfter)
    InventoryBook.levels hlevels, UuidMap.foldlM_alterM_isOkay]
  refine forall_congr' fun batchId => ?_
  rw [← InventoryEvent.levelAfter_isOkay]
  rfl

end InventoryBook

end Sahl
