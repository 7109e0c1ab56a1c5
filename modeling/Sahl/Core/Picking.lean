import Mathlib.Tactic
import Mathlib.Data.Prod.Lex
import Sahl.Lib.Drain
import Sahl.Core.Inventory

/-! # Picking the batches a quantity is drawn from

    A quantity is filled from the batches that have not expired and have something on hand, the
    soonest to expire first, and what they cannot cover is the shortfall of the pick. The main
    result is `pickFefo_firstExpired`. -/

namespace Sahl

/-! ## Section 1: Batches in order -/

namespace Batch

def isExpired (batch : Batch) (now : Timestamp) : Bool :=
  batch.expiresAt.any fun expiry => expiry.millis ≤ now.millis

/-- Sort key for first-expired-first-out: goods that do not expire last, ties by arrival and then
    by id. -/
def fefoKey (batch : Batch) : I64 ×ₗ I64 ×ₗ Uuid :=
  toLex (batch.expiresAt.elim (I64.lit 9223372036854775807) Timestamp.millis,
    toLex (batch.receivedAt.millis, batch.id))

theorem fefoKey_id {a b : Batch} (h : a.fefoKey = b.fefoKey) : a.id = b.id :=
  (Prod.mk.inj (toLex_inj.mp (Prod.mk.inj (toLex_inj.mp h)).2)).2

end Batch

/-! ## Section 2: The pick -/

/-- Take this much from this batch. -/
structure Allocation where
  batchId : Uuid
  taken : Quantity
  deriving DecidableEq

/-- The result of trying to fill a quantity from stock. -/
structure Pick where
  allocations : List Allocation
  /-- What could not be covered. -/
  shortfall : Quantity
  deriving DecidableEq

/-- The loop over the batches: what is taken from each, and what remains to be filled. -/
def pickFrom : I64 → List BatchLevel → List Allocation × I64
  | remaining, [] => ([], remaining)
  | remaining, level :: rest =>
    if remaining.val ≤ 0 then ([], remaining)
    else
      let take := min remaining level.onHand.milli
      let (allocations, left) := pickFrom (remaining.saturatingSub take) rest
      (⟨level.batch.id, ⟨take⟩⟩ :: allocations, left)

/-- Whether a batch can be drawn from. -/
def BatchLevel.usable (level : BatchLevel) (now : Timestamp) : Bool :=
  ! level.batch.isExpired now && 0 < level.onHand.milli.val

/-- The batches that can be drawn from, in the order they are. -/
def usableLevels (levels : List BatchLevel) (now : Timestamp) : List BatchLevel :=
  (levels.filter (·.usable now)).insertionSort fun a b => a.batch.fefoKey ≤ b.batch.fefoKey

/-- Fill a quantity from batches, soonest-expiring first. -/
def pickFefo (levels : List BatchLevel) (wanted : Quantity) (now : Timestamp) :
    Except MoneyError Pick :=
  if wanted.milli.val ≤ 0 then .ok ⟨[], Quantity.zero⟩
  else
    let (allocations, remaining) := pickFrom wanted.milli (usableLevels levels now)
    .ok ⟨allocations, ⟨max remaining 0⟩⟩

/-! ## Section 3: What the loop takes -/

/-- What a level holds, in thousandths. -/
def BatchLevel.milli (level : BatchLevel) : Int := level.onHand.milli.val

/-- The loop draws from the levels in order, and what remains is the rest. -/
theorem pickFrom_spec {levels : List BatchLevel} (hlevels : ∀ level ∈ levels, 0 < level.milli)
    {remaining : I64} (hremaining : 0 ≤ remaining.val) :
    (pickFrom remaining levels).1.map (fun allocation => (allocation.batchId,
        allocation.taken.milli.val)) =
      (Drain.draw BatchLevel.milli remaining.val levels).map
        (fun drawn => (drawn.1.batch.id, drawn.2)) ∧
    (pickFrom remaining levels).2.val = remaining.val -
      ((Drain.draw BatchLevel.milli remaining.val levels).map (·.2)).sum := by
  induction levels generalizing remaining with
  | nil => simp [pickFrom, Drain.draw]
  | cons level rest ih =>
    obtain ⟨hlevel, hrest⟩ := List.forall_mem_cons.mp hlevels
    by_cases hzero : remaining.val ≤ 0
    · rw [pickFrom, if_pos hzero, Drain.draw_of_nonpos hzero]
      simp
    · rw [pickFrom, if_neg hzero, Drain.draw, if_neg hzero]
      have htake : (min remaining level.onHand.milli).val = min remaining.val level.milli :=
        SInt.min_val _ _
      -- what is taken is at most what remains, so the subtraction does not saturate
      have hleft : (remaining.saturatingSub (min remaining level.onHand.milli)).val =
          remaining.val - min remaining.val level.milli := by
        have := remaining.hi'
        rw [I64.saturatingSub_val, htake]
        omega
      have hnext : 0 ≤ (remaining.saturatingSub (min remaining level.onHand.milli)).val := by
        rw [hleft]
        omega
      obtain ⟨htaken, hsum⟩ := ih hrest hnext
      rw [hleft] at htaken hsum
      constructor
      · simp only [List.map_cons, htake]
        exact congrArg _ htaken
      · simp only [List.map_cons, List.sum_cons, hsum]
        omega

/-! ## Section 4: First expired, first out -/

variable {levels levels' : List BatchLevel} {wanted : Quantity} {now : Timestamp} {pick : Pick}

/-- A pick takes all that is on hand of a batch. -/
def Pick.Drains (pick : Pick) (level : BatchLevel) : Prop :=
  ⟨level.batch.id, level.onHand⟩ ∈ pick.allocations

/-- A pick that fills a quantity as far as the batches go, first expired, first out. -/
structure FirstExpired (levels : List BatchLevel) (wanted : Quantity) (now : Timestamp)
    (pick : Pick) : Prop where
  covers : (pick.allocations.map (·.taken.milli.val)).sum + pick.shortfall.milli.val =
    wanted.milli.val
  shortfall : 0 ≤ pick.shortfall.milli.val
  once : (pick.allocations.map (·.batchId)).Nodup
  /-- Only a batch that can be drawn from is, and for no more than it has. -/
  taken : ∀ allocation ∈ pick.allocations, ∃ level ∈ levels,
    level.batch.id = allocation.batchId ∧ level.usable now ∧ 0 < allocation.taken.milli.val ∧
      allocation.taken.milli.val ≤ level.onHand.milli.val
  /-- The batches before one that is drawn from are drained. -/
  inOrder : ∀ allocation ∈ pick.allocations, ∀ level ∈ levels,
    level.batch.id = allocation.batchId → ∀ earlier ∈ levels, earlier.usable now →
      earlier.batch.fefoKey < level.batch.fefoKey → pick.Drains earlier
  /-- There is a shortfall only where every batch is drained. -/
  short : 0 < pick.shortfall.milli.val → ∀ level ∈ levels, level.usable now → pick.Drains level

theorem mem_usableLevels {level : BatchLevel} :
    level ∈ usableLevels levels now ↔ level ∈ levels ∧ level.usable now := by
  rw [usableLevels, (List.perm_insertionSort _ _).mem_iff, List.mem_filter]

theorem milli_pos_of_usable {level : BatchLevel} (h : level.usable now) : 0 < level.milli :=
  of_decide_eq_true (Bool.and_eq_true_iff.mp h).2

theorem usableLevels_ids (hids : (levels.map (·.batch.id)).Nodup) (now : Timestamp) :
    ((usableLevels levels now).map (·.batch.id)).Nodup := by
  have hperm : (usableLevels levels now).Perm (levels.filter (·.usable now)) :=
    List.perm_insertionSort _ _
  exact (hperm.map _).nodup_iff.mpr (hids.sublist (List.filter_sublist.map _))

/-- Batches with ids of their own are strictly in order. -/
theorem usableLevels_sorted (hids : (levels.map (·.batch.id)).Nodup) (now : Timestamp) :
    (usableLevels levels now).Pairwise fun a b => a.batch.fefoKey < b.batch.fefoKey := by
  have hsorted := List.pairwise_insertionSort
    (fun a b : BatchLevel => a.batch.fefoKey ≤ b.batch.fefoKey) (levels.filter (·.usable now))
  have hapart := List.pairwise_map.mp (usableLevels_ids hids now)
  refine (hsorted.and hapart).imp ?_
  rintro a b ⟨hle, hne⟩
  exact lt_of_le_of_ne hle fun hkey => hne (Batch.fefoKey_id hkey)

/-- The order of the batches does not depend on the order they are given in. -/
theorem usableLevels_perm (hids : (levels.map (·.batch.id)).Nodup) (h : levels'.Perm levels)
    (now : Timestamp) : usableLevels levels' now = usableLevels levels now := by
  have hids' : (levels'.map (·.batch.id)).Nodup := (h.map _).nodup_iff.mpr hids
  have hperm : (usableLevels levels' now).Perm (usableLevels levels now) :=
    (List.perm_insertionSort _ _).trans
      ((h.filter _).trans (List.perm_insertionSort _ _).symm)
  exact List.Perm.eq_of_pairwise (fun _ _ _ _ hab hba => absurd hab hba.not_gt)
    (usableLevels_sorted hids' now) (usableLevels_sorted hids now) hperm

/-- What a pick takes is drawn from the batches in order, and it falls short by what they do. -/
theorem pickFefo_eq_ok (hwanted : 0 < wanted.milli.val)
    (h : pickFefo levels wanted now = .ok pick) :
    pick.allocations.map (fun allocation => (allocation.batchId,
        allocation.taken.milli.val)) =
      (Drain.draw BatchLevel.milli wanted.milli.val (usableLevels levels now)).map
        (fun drawn => (drawn.1.batch.id, drawn.2)) ∧
    pick.shortfall.milli.val =
      max 0 (wanted.milli.val - ((usableLevels levels now).map BatchLevel.milli).sum) := by
  have hpositive : ∀ level ∈ usableLevels levels now, 0 < level.milli := fun level hlevel =>
    milli_pos_of_usable (mem_usableLevels.mp hlevel).2
  obtain ⟨htaken, hleft⟩ := pickFrom_spec hpositive hwanted.le
  rw [pickFefo, if_neg (by omega)] at h
  cases h
  refine ⟨htaken, ?_⟩
  rw [Drain.sum_draw (fun level hlevel => (hpositive level hlevel).le) hwanted.le] at hleft
  simp only [SInt.max_val, SInt.val_zero, hleft]
  omega

/-- A pick takes from a batch what is drawn from it. -/
theorem mem_allocations (hwanted : 0 < wanted.milli.val)
    (h : pickFefo levels wanted now = .ok pick) {allocation : Allocation} :
    allocation ∈ pick.allocations ↔ ∃ level,
      (level, allocation.taken.milli.val) ∈
        Drain.draw BatchLevel.milli wanted.milli.val (usableLevels levels now) ∧
      level.batch.id = allocation.batchId := by
  have hinjective : Function.Injective fun allocation : Allocation =>
      (allocation.batchId, allocation.taken.milli.val) := by
    rintro ⟨batchId, ⟨taken⟩⟩ ⟨batchId', ⟨taken'⟩⟩ hsame
    obtain ⟨hid, htaken⟩ := Prod.mk.inj hsame
    have hval : taken = taken' := SInt.ext htaken
    cases hid
    rw [hval]
  rw [← List.mem_map_of_injective hinjective, (pickFefo_eq_ok hwanted h).1, List.mem_map]
  constructor
  · intro hdraws
    obtain ⟨⟨level, taken⟩, hdrawn, hsame⟩ := hdraws
    obtain ⟨hid, rfl⟩ := Prod.mk.inj hsame
    exact ⟨level, hdrawn, hid⟩
  · intro hdraws
    obtain ⟨level, hdrawn, hid⟩ := hdraws
    exact ⟨(level, allocation.taken.milli.val), hdrawn, by rw [hid]⟩

/-- A batch drawn empty is drained by the pick. -/
theorem drains_of_draw (hwanted : 0 < wanted.milli.val)
    (h : pickFefo levels wanted now = .ok pick) {level : BatchLevel}
    (hdrawn : (level, level.milli) ∈
      Drain.draw BatchLevel.milli wanted.milli.val (usableLevels levels now)) :
    pick.Drains level := (mem_allocations hwanted h).mpr ⟨level, hdrawn, rfl⟩

/-- A pick fills its quantity first expired, first out. -/
theorem pickFefo_fills (hids : (levels.map (·.batch.id)).Nodup) (hwanted : 0 < wanted.milli.val)
    (h : pickFefo levels wanted now = .ok pick) : FirstExpired levels wanted now pick := by
  have hpositive : ∀ level ∈ usableLevels levels now, 0 < level.milli := fun level hlevel =>
    milli_pos_of_usable (mem_usableLevels.mp hlevel).2
  obtain ⟨htaken, hshort⟩ := pickFefo_eq_ok hwanted h
  have hsum : (pick.allocations.map (·.taken.milli.val)).sum =
      min wanted.milli.val ((usableLevels levels now).map BatchLevel.milli).sum := by
    rw [← Drain.sum_draw (fun level hlevel => (hpositive level hlevel).le) hwanted.le]
    have hvalues := congrArg (List.map Prod.snd) htaken
    rw [List.map_map, List.map_map] at hvalues
    exact congrArg List.sum hvalues
  have hsorted := usableLevels_sorted hids now
  refine ⟨by omega, by omega, ?_, ?_, ?_, ?_⟩
  · -- the batches drawn from are the first of those in order
    have hbatches := congrArg (List.map Prod.fst) htaken
    rw [List.map_map, List.map_map] at hbatches
    have hfirst : (pick.allocations.map (·.batchId)) =
        ((Drain.draw BatchLevel.milli wanted.milli.val (usableLevels levels now)).map Prod.fst).map
          (·.batch.id) := by
      rw [List.map_map]
      exact hbatches
    rw [hfirst]
    exact (usableLevels_ids hids now).sublist ((Drain.draw_prefix _ _ _).sublist.map _)
  · intro allocation hallocation
    obtain ⟨level, hdrawn, hid⟩ := (mem_allocations hwanted h).mp hallocation
    obtain ⟨hmem, hsome, hmost⟩ := Drain.mem_draw hpositive hdrawn
    obtain ⟨hlevel, husable⟩ := mem_usableLevels.mp hmem
    exact ⟨level, hlevel, hid, husable, hsome, hmost⟩
  · -- the batch drawn from is the level of that id, and what stands before it is drained
    intro allocation hallocation level hlevel hid earlier hearlier husable hbefore
    obtain ⟨drawn, hdrawn, hdrawnId⟩ := (mem_allocations hwanted h).mp hallocation
    have hsame : drawn = level := List.inj_on_of_nodup_map hids
      (mem_usableLevels.mp (Drain.mem_draw hpositive hdrawn).1).1 hlevel (hdrawnId.trans hid.symm)
    subst hsame
    exact drains_of_draw hwanted h (Drain.mem_draw_of_ahead hpositive hsorted
      (fun _ => lt_irrefl _) (fun _ _ => lt_asymm) hdrawn
      (mem_usableLevels.mpr ⟨hearlier, husable⟩) hbefore)
  · -- what falls short was drawn until nothing was left
    intro hmissing level hlevel husable
    refine drains_of_draw hwanted h (Drain.mem_draw_of_short hpositive ?_
      (mem_usableLevels.mpr ⟨hlevel, husable⟩))
    rw [Drain.sum_draw (fun level hlevel => (hpositive level hlevel).le) hwanted.le]
    omega

/-- **First expired, first out**: a pick fills its quantity from the batches that can be drawn
    from, each drained before the next, and is the same in whatever order they are given. -/
theorem pickFefo_firstExpired (hids : (levels.map (·.batch.id)).Nodup)
    (hwanted : 0 < wanted.milli.val) (h : pickFefo levels wanted now = .ok pick) :
    FirstExpired levels wanted now pick ∧
      ∀ levels', levels'.Perm levels → pickFefo levels' wanted now = .ok pick := by
  refine ⟨pickFefo_fills hids hwanted h, fun levels' hperm => ?_⟩
  rw [← h, pickFefo, pickFefo, usableLevels_perm hids hperm]

/-! ### Two crates -/

/-- Crates of a product, by their expiry and what is on hand. -/
def crate (id : Uuid) (expiresAt : Option Timestamp) (milli : I64) : BatchLevel :=
  ⟨⟨id, 12, none, expiresAt, Timestamp.epoch⟩, ⟨milli⟩⟩

theorem pickFefo_firstExpired_crates :
    ∃ pick, pickFefo [crate 2 none (I64.lit 5000), crate 1 (some ⟨I64.lit 90⟩) (I64.lit 2000)]
      ⟨I64.lit 3000⟩ Timestamp.epoch = .ok pick ∧
      FirstExpired [crate 2 none (I64.lit 5000), crate 1 (some ⟨I64.lit 90⟩) (I64.lit 2000)]
        ⟨I64.lit 3000⟩ Timestamp.epoch pick := by
  obtain ⟨pick, hpick⟩ := Except.isOkay_iff.mp (show (pickFefo
    [crate 2 none (I64.lit 5000), crate 1 (some ⟨I64.lit 90⟩) (I64.lit 2000)] ⟨I64.lit 3000⟩
    Timestamp.epoch).isOkay = true by decide +kernel)
  exact ⟨pick, hpick, (pickFefo_firstExpired (by decide) (by decide) hpick).1⟩

/-! ## Section 5: The stock figure -/

/-- Stock that is sellable right now. -/
def sellableOnHand (levels : List BatchLevel) (now : Timestamp) : Except MoneyError Quantity :=
  (levels.filter fun level => ! level.batch.isExpired now).foldlM
    (fun total level => total.checkedAdd level.onHand) Quantity.zero

/-- Batches of one product, in the order a pick draws from them. -/
def InventoryBook.forProduct (book : InventoryBook) (productId : Uuid) : List BatchLevel :=
  (book.levels.values.filter (·.batch.productId = productId)).insertionSort
    fun a b => a.batch.fefoKey ≤ b.batch.fefoKey

theorem foldlM_onHand {start total : Quantity}
    (h : levels.foldlM (fun total level => total.checkedAdd level.onHand) start = .ok total) :
    total.milli.val = start.milli.val + (levels.map BatchLevel.milli).sum := by
  induction levels generalizing start with
  | nil =>
    rw [List.foldlM_nil, Except.pure_eq_ok] at h
    rw [← h, List.map_nil, List.sum_nil, add_zero]
  | cons level rest ih =>
    obtain ⟨next, hnext, hrest⟩ := foldlM_cons_eq_ok.mp h
    rw [ih hrest, Quantity.checkedAdd_eq_ok.mp hnext, List.map_cons, List.sum_cons,
      BatchLevel.milli]
    omega

/-- How far the batches that have not expired are below zero, in all. -/
def overdrawn (levels : List BatchLevel) (now : Timestamp) : Int :=
  ((levels.filter fun level => ! level.batch.isExpired now).map fun level =>
    max 0 (-level.milli)).sum

/-- What can be drawn is what has not expired, the batches below zero left out. -/
theorem sum_usable (levels : List BatchLevel) (now : Timestamp) :
    ((levels.filter (·.usable now)).map BatchLevel.milli).sum =
      ((levels.filter fun level => ! level.batch.isExpired now).map BatchLevel.milli).sum +
        overdrawn levels now := by
  unfold overdrawn
  induction levels with
  | nil => rfl
  | cons level rest ih =>
    by_cases hexpired : level.batch.isExpired now = true
    · rw [List.filter_cons_of_neg (by simp [BatchLevel.usable, hexpired]),
        List.filter_cons_of_neg (by simp [hexpired])]
      exact ih
    · rw [Bool.not_eq_true] at hexpired
      rw [List.filter_cons_of_pos (p := fun level : BatchLevel => ! level.batch.isExpired now)
        (by simp [hexpired])]
      simp only [List.map_cons, List.sum_cons]
      -- a batch that has not expired is drawn from or counts as overdrawn
      by_cases hsome : 0 < level.milli
      · rw [List.filter_cons_of_pos (by
          simpa [BatchLevel.usable, hexpired, BatchLevel.milli] using hsome),
          List.map_cons, List.sum_cons, ih]
        omega
      · rw [List.filter_cons_of_neg (by
          simpa [BatchLevel.usable, hexpired, BatchLevel.milli] using hsome), ih]
        omega

theorem overdrawn_eq_zero_iff : overdrawn levels now = 0 ↔
    ∀ level ∈ levels, level.batch.isExpired now = false → 0 ≤ level.onHand.milli.val := by
  rw [overdrawn, sum_eq_zero_iff_of_nonneg fun _ _ => le_max_left _ _]
  simp only [List.mem_filter, Bool.not_eq_true', and_imp, BatchLevel.milli]
  refine forall_congr' fun level => forall_congr' fun _ => forall_congr' fun _ => ?_
  omega

theorem overdrawn_nonneg (levels : List BatchLevel) (now : Timestamp) :
    0 ≤ overdrawn levels now := by
  refine List.sum_nonneg fun n hn => ?_
  obtain ⟨level, -, rfl⟩ := List.mem_map.mp hn
  exact le_max_left _ _

/-- **Picking and the stock figure**: a pick falls short by what the batches that have not expired
    and hold something fall short by; that is what the stock figure falls short by if and only if
    no batch that has not expired is below zero, or the figure covers the quantity. -/
theorem shortfall_agrees_iff (book : InventoryBook) (productId : Uuid) (now : Timestamp)
    (hwanted : 0 < wanted.milli.val)
    (h : pickFefo (book.forProduct productId) wanted now = .ok pick) :
    pick.shortfall.milli.val = max 0 (wanted.milli.val -
        (((book.forProduct productId).filter (·.usable now)).map (·.onHand.milli.val)).sum) ∧
      ∀ sellable, sellableOnHand (book.forProduct productId) now = .ok sellable →
        (pick.shortfall.milli.val = max 0 (wanted.milli.val - sellable.milli.val) ↔
          (∀ level ∈ book.forProduct productId, level.batch.isExpired now = false →
            0 ≤ level.onHand.milli.val) ∨ wanted.milli.val ≤ sellable.milli.val) := by
  obtain ⟨-, hshort⟩ := pickFefo_eq_ok hwanted h
  have hperm : (usableLevels (book.forProduct productId) now).Perm
      ((book.forProduct productId).filter (·.usable now)) := List.perm_insertionSort _ _
  rw [(hperm.map BatchLevel.milli).sum_eq] at hshort
  refine ⟨hshort, fun sellable hsellable => ?_⟩
  have hfigure := foldlM_onHand hsellable
  have hdrawn := sum_usable (book.forProduct productId) now
  have hbelow := overdrawn_nonneg (book.forProduct productId) now
  have hzero : Quantity.zero.milli.val = 0 := rfl
  rw [← overdrawn_eq_zero_iff]
  omega

/-! ### A batch issued below zero -/

/-- Ten units of one batch, and one unit of another that six are issued from. -/
def overissued : List InventoryEvent :=
  [.batchReceived 1 12 none none ⟨I64.lit 10000⟩ ⟨I64.lit 100, .bdt⟩ none Timestamp.epoch 7,
   .batchReceived 2 12 none none ⟨I64.lit 1000⟩ ⟨I64.lit 100, .bdt⟩ none Timestamp.epoch 7,
   .stockIssued 2 ⟨I64.lit 6000⟩ .sale none Timestamp.epoch 7]

/-- Four units are there by both. -/
theorem shortfall_agrees_fourUnits : ∃ book pick, InventoryBook.replay overissued = .ok book ∧
    pickFefo (book.forProduct 12) ⟨I64.lit 4000⟩ Timestamp.epoch = .ok pick ∧
      ∀ sellable, sellableOnHand (book.forProduct 12) Timestamp.epoch = .ok sellable →
        4000 ≤ sellable.milli.val →
          pick.shortfall.milli.val = max 0 (4000 - sellable.milli.val) := by
  obtain ⟨book, hbook⟩ := Except.isOkay_iff.mp
    (show (InventoryBook.replay overissued).isOkay = true by decide +kernel)
  obtain ⟨pick, hpick⟩ := Except.isOkay_iff.mp (show (pickFefo (book.forProduct 12)
    ⟨I64.lit 4000⟩ Timestamp.epoch).isOkay = true from rfl)
  refine ⟨book, pick, hbook, hpick, fun sellable hsellable hcovered => ?_⟩
  exact ((shortfall_agrees_iff book 12 Timestamp.epoch (by decide) hpick).2 sellable
    hsellable).mpr (.inr hcovered)

/-- Ten units are there to be picked, and five by the stock figure. -/
theorem overissued_disagrees : ¬ ∀ (events : List InventoryEvent) (book : InventoryBook)
    (productId : Uuid) (now : Timestamp) (wanted : Quantity) (pick : Pick) (sellable : Quantity),
    InventoryBook.replay events = .ok book → 0 < wanted.milli.val →
      pickFefo (book.forProduct productId) wanted now = .ok pick →
        sellableOnHand (book.forProduct productId) now = .ok sellable →
          pick.shortfall.milli.val = max 0 (wanted.milli.val - sellable.milli.val) := by
  intro hclaim
  obtain ⟨book, hbook⟩ := Except.isOkay_iff.mp
    (show (InventoryBook.replay overissued).isOkay = true by decide +kernel)
  have hfigures : (InventoryBook.replay overissued).toOption.all (fun book =>
      (pickFefo (book.forProduct 12) ⟨I64.lit 10000⟩ Timestamp.epoch).toOption.map
        (·.shortfall.milli.val) = some 0 ∧
      sellableOnHand (book.forProduct 12) Timestamp.epoch = .ok ⟨I64.lit 5000⟩) = true := by
    decide +kernel
  rw [hbook] at hfigures
  obtain ⟨hnone, hsellable⟩ := of_decide_eq_true hfigures
  obtain ⟨pick, hpick⟩ := Except.isOkay_iff.mp (show (pickFefo (book.forProduct 12)
    ⟨I64.lit 10000⟩ Timestamp.epoch).isOkay = true from rfl)
  rw [hpick] at hnone
  have hshort := hclaim overissued book 12 Timestamp.epoch ⟨I64.lit 10000⟩ pick _ hbook
    (by decide) hpick hsellable
  exact absurd ((Option.some.inj hnone).symm.trans hshort) (by decide)

end Sahl
