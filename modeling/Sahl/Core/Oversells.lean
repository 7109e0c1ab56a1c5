import Mathlib.Tactic
import Sahl.Lib.Keyed
import Sahl.Core.Money

/-! # Oversells

    Stock is the sum of its movements, and tills that were apart may have sold the same last unit.
    What is reported once their movements are merged depends on the movements and not on the order
    they arrived in (`detectOversells_exact`). -/

namespace Sahl

/-! ## Section 1: Movements -/

/-- Why stock moved. -/
inductive MovementReason where
  | sale
  | refund
  | received
  | counted
  | wastage
  | transferIn
  | transferOut
  deriving DecidableEq

/-- One change to a product's stock; negative for anything leaving the shelf. -/
structure StockMovement where
  productId : Uuid
  delta : Quantity
  reason : MovementReason
  /-- Which till recorded it. -/
  deviceId : Uuid
  deriving DecidableEq

/-- Sum movements into a current level. -/
def levelOf (movements : List StockMovement) (productId : Uuid) : Except MoneyError Quantity :=
  (movements.filter (·.productId = productId)).foldlM
    (fun total movement => total.checkedAdd movement.delta) Quantity.zero

/-- A product the merged movements took below zero, and the devices that sold it. -/
structure Oversell where
  productId : Uuid
  shortfall : Quantity
  devices : List Uuid
  deriving DecidableEq

/-- A movement is posted to its product's level, its device to those that sold it. -/
def StockMovement.posting : Posting StockMovement Uuid (I64 × List Uuid) MoneyError where
  key := (·.productId)
  fresh := fun _ => (0, [])
  add := fun (level, devices) movement => do
    let level ← Except.okOr (level.checkedAdd movement.delta.milli) .overflow
    .ok (level,
      if movement.delta.isNegative ∧ movement.deviceId ∉ devices then
        devices ++ [movement.deviceId]
      else devices)

/-- What is reported of a product, where its level is negative. -/
def Oversell.ofLevel (productId : Uuid) (level : I64) (devices : List Uuid) : Option Oversell :=
  if 0 ≤ level.val then none
  else some ⟨productId, ⟨level.saturatingAbs⟩, devices.insertionSort (· ≤ ·)⟩

/-- Find products whose merged movements went negative. -/
def detectOversells (movements : List StockMovement) : Except MoneyError (List Oversell) := do
  let products ← movements.foldlM StockMovement.posting.post (∅ : UuidMap (I64 × List Uuid))
  .ok (products.toList.filterMap fun (productId, level, devices) =>
    Oversell.ofLevel productId level devices)

/-! ## Section 2: Levels -/

/-- The movements' deltas, sizes added, stay within an `i64`. -/
def Bounded (movements : List StockMovement) : Prop :=
  (movements.map fun m => |m.delta.milli.val|).sum < 9223372036854775808

/-- What the movements of a product come to. -/
def netOf (movements : List StockMovement) (productId : Uuid) : Int :=
  keySum (·.productId) (fun m : StockMovement => m.delta.milli.val) movements productId

/-- The devices with a movement of the product that left the shelf. -/
def Sold (movements : List StockMovement) (productId deviceId : Uuid) : Prop :=
  ∃ m ∈ movements, m.productId = productId ∧ m.delta.isNegative = true ∧ m.deviceId = deviceId

theorem Bounded.perm {xs ys : List StockMovement} (hperm : xs.Perm ys) (h : Bounded xs) :
    Bounded ys := by
  unfold Bounded
  rw [← (hperm.map _).sum_eq]
  exact h

/-- No product's running total leaves the range. -/
theorem Bounded.neverFull {movements : List StockMovement} (h : Bounded movements)
    (productId : Uuid) : I64.NeverFull
      ((movements.filter (·.productId = productId)).map fun m => m.delta.milli) := by
  refine I64.neverFull_of_abs (lt_of_le_of_lt ?_ h)
  rw [List.map_map]
  exact sum_filter_le _ fun m _ => abs_nonneg _

/-- A running total that never leaves the range is the sum. -/
theorem foldlM_checkedAdd_eq {xs : List StockMovement}
    (h : I64.NeverFull (xs.map fun m => m.delta.milli)) :
    ∃ level, xs.foldlM (fun total m => total.checkedAdd m.delta) Quantity.zero = .ok level ∧
      level.milli.val = (xs.map fun m => m.delta.milli.val).sum := by
  induction xs using List.reverseRecOn with
  | nil => exact ⟨Quantity.zero, rfl, rfl⟩
  | append_singleton xs m ih =>
    -- what never leaves the range has not left it before the last movement
    have hbefore : I64.NeverFull (xs.map fun m => m.delta.milli) := by
      intro seen hseen
      refine h seen (hseen.trans ?_)
      rw [List.map_append]
      exact List.prefix_append _ _
    obtain ⟨level, hfold, hlevel⟩ := ih hbefore
    have hfits := h _ List.prefix_rfl
    rw [List.map_map, List.map_append, List.sum_append] at hfits
    obtain ⟨total, htotal⟩ := Quantity.fits_iff.mp hfits
    have hsum : total.milli.val = level.milli.val + m.delta.milli.val := by
      rw [htotal, hlevel]
      simp [Function.comp_def]
    refine ⟨total, ?_, ?_⟩
    · exact foldlM_append_eq_ok.mpr ⟨level, hfold,
        foldlM_cons_eq_ok.mpr ⟨total, Quantity.checkedAdd_eq_ok.mpr hsum, rfl⟩⟩
    · rw [hsum, hlevel]
      simp

/-- The level of a product is what its movements come to. -/
theorem levelOf_eq {movements : List StockMovement} (h : Bounded movements) (productId : Uuid) :
    ∃ level, levelOf movements productId = .ok level ∧
      level.milli.val = netOf movements productId :=
  foldlM_checkedAdd_eq (h.neverFull productId)

/-! ## Section 3: What is posted -/

/-- The level of a product so far, and the devices that sold it so far, each once. -/
def StockMovement.Tallied (seen : List StockMovement) (row : I64 × List Uuid) : Prop :=
  row.1.val = (seen.map fun m => m.delta.milli.val).sum ∧ row.2.Nodup ∧
    ∀ d, d ∈ row.2 ↔ ∃ m ∈ seen, m.delta.isNegative = true ∧ m.deviceId = d

theorem StockMovement.add_eq_ok {row row' : I64 × List Uuid} {m : StockMovement} :
    posting.add row m = .ok row' ↔ row'.1.val = row.1.val + m.delta.milli.val ∧
      row'.2 = if m.delta.isNegative ∧ m.deviceId ∉ row.2 then row.2 ++ [m.deviceId]
        else row.2 := by
  obtain ⟨level, devices⟩ := row
  obtain ⟨level', devices'⟩ := row'
  show (Except.okOr (level.checkedAdd m.delta.milli) MoneyError.overflow >>= _) = _ ↔ _
  rw [Except.bind_eq_ok]
  constructor
  · intro h
    obtain ⟨sum, hsum, h⟩ := h
    cases h
    exact ⟨SInt.checkedAdd_eq_some.mp (Except.okOr_eq_ok.mp hsum), rfl⟩
  · intro h
    obtain ⟨hlevel, hdevices⟩ := h
    refine ⟨level', Except.okOr_eq_ok.mpr (SInt.checkedAdd_eq_some.mpr hlevel), ?_⟩
    exact congrArg (fun devices => Except.ok (level', devices)) hdevices.symm

theorem StockMovement.tallied_add {seen : List StockMovement} {row row' : I64 × List Uuid}
    {m : StockMovement} (h : Tallied seen row) (hadd : posting.add row m = .ok row') :
    Tallied (seen ++ [m]) row' := by
  obtain ⟨hlevel, hnodup, hdevices⟩ := h
  obtain ⟨hlevel', hdevices'⟩ := add_eq_ok.mp hadd
  refine ⟨?_, ?_, ?_⟩
  · rw [hlevel', hlevel]
    simp
  · rw [hdevices']
    by_cases hnew : m.delta.isNegative ∧ m.deviceId ∉ row.2
    · rw [if_pos hnew]
      exact List.nodup_append.mpr ⟨hnodup, List.nodup_singleton _, fun d hd other hother => by
        rw [List.mem_singleton.mp hother]
        exact fun hsame => hnew.2 (hsame ▸ hd)⟩
    · rw [if_neg hnew]
      exact hnodup
  · intro d
    rw [hdevices']
    by_cases hnew : m.delta.isNegative ∧ m.deviceId ∉ row.2
    · rw [if_pos hnew, List.mem_append, hdevices d]
      constructor
      · intro h
        rcases h with ⟨seller, hseller, hsold⟩ | hlast
        · exact ⟨seller, List.mem_append_left _ hseller, hsold⟩
        · exact ⟨m, List.mem_concat_self, hnew.1, (List.mem_singleton.mp hlast).symm⟩
      · intro h
        obtain ⟨seller, hseller, hsold, hd⟩ := h
        rcases List.mem_append.mp hseller with hseller | hlast
        · exact .inl ⟨seller, hseller, hsold, hd⟩
        · cases List.mem_singleton.mp hlast
          exact .inr (List.mem_singleton.mpr hd.symm)
    · rw [if_neg hnew, hdevices d]
      constructor
      · intro h
        obtain ⟨seller, hseller, hsold⟩ := h
        exact ⟨seller, List.mem_append_left _ hseller, hsold⟩
      · intro h
        obtain ⟨seller, hseller, hsold, hd⟩ := h
        rcases List.mem_append.mp hseller with hseller | hlast
        · exact ⟨seller, hseller, hsold, hd⟩
        · cases List.mem_singleton.mp hlast
          -- it sold the product before
          have hheld : m.deviceId ∈ row.2 := by
            by_contra hfresh
            exact hnew ⟨hsold, hfresh⟩
          rw [← hd]
          exact (hdevices _).mp hheld

theorem StockMovement.tallied_start {row : I64 × List Uuid} {m : StockMovement}
    (hadd : posting.add (posting.fresh m) m = .ok row) : Tallied [m] row := by
  have hempty : Tallied [] (posting.fresh m) := ⟨rfl, List.nodup_nil, by simp [posting]⟩
  exact tallied_add hempty hadd

/-- Bounded movements are all posted. -/
theorem StockMovement.post_all {movements : List StockMovement} (h : Bounded movements) :
    ∃ products : UuidMap (I64 × List Uuid), movements.foldlM posting.post ∅ = .ok products ∧
      posting.Posted (fun _ seen row => Tallied seen row) movements products := by
  have hadds : ∀ {seen : List StockMovement} {m : StockMovement} {row : I64 × List Uuid},
      seen ++ [m] <+: movements → row.1.val = netOf seen m.productId →
        (posting.add row m).isOkay := by
    intro seen m row hinitial hlevel
    have hfits := (h.neverFull m.productId) _
      ((hinitial.filter (·.productId = m.productId)).map fun m => m.delta.milli)
    obtain ⟨level, hval⟩ := I64.fits_iff.mp hfits
    refine Except.isOkay_iff.mpr ⟨(level, _), add_eq_ok.mpr ⟨?_, rfl⟩⟩
    rw [hval, hlevel]
    simp [netOf, keySum, Function.comp_def]
  have hall : ∃ products : UuidMap (I64 × List Uuid),
      movements.foldlM posting.post ∅ = .ok products := by
    refine Posting.posted_isOkay (fun _ seen row => Tallied seen row)
      (fun _ _ hadd => tallied_start hadd) (fun _ _ _ _ hseen hadd => tallied_add hseen hadd)
      (fun m _ => ?_) (fun seen m row hinitial hrow => hadds hinitial hrow.1)
    exact Except.isOkay_iff.mpr ⟨(m.delta.milli, _), add_eq_ok.mpr ⟨(zero_add _).symm, rfl⟩⟩
  obtain ⟨products, hproducts⟩ := hall
  exact ⟨products, hproducts, Posting.posted (fun _ _ hadd => tallied_start hadd)
    (fun _ _ _ _ hseen hadd => tallied_add hseen hadd) hproducts⟩

/-! ## Section 4: What is reported -/

/-- The oversell of a product: its level is negative, the shortfall is what is missing, and the
    devices are those that sold it, in order and each once. -/
structure Oversell.Reports (movements : List StockMovement) (oversell : Oversell) : Prop where
  negative : netOf movements oversell.productId < 0
  shortfall : oversell.shortfall.milli.val = -netOf movements oversell.productId
  sorted : oversell.devices.Pairwise (· < ·)
  devices : ∀ d, d ∈ oversell.devices ↔ Sold movements oversell.productId d

theorem Oversell.Reports.perm {xs ys : List StockMovement} {oversell : Oversell}
    (hperm : xs.Perm ys) (h : oversell.Reports xs) : oversell.Reports ys := by
  have hnet : netOf ys oversell.productId = netOf xs oversell.productId :=
    (keySum_perm hperm _).symm
  refine ⟨hnet ▸ h.negative, hnet ▸ h.shortfall, h.sorted, fun d => (h.devices d).trans ?_⟩
  simp only [Sold, hperm.mem_iff]

/-- Two reports of one product are the same. -/
theorem Oversell.Reports.unique {movements : List StockMovement} {a b : Oversell}
    (ha : a.Reports movements) (hb : b.Reports movements) (h : a.productId = b.productId) :
    a = b := by
  obtain ⟨product, ⟨shortfall⟩, devices⟩ := a
  obtain ⟨product', ⟨shortfall'⟩, devices'⟩ := b
  obtain rfl : product = product' := h
  have hshortfall : shortfall = shortfall' := SInt.ext (ha.shortfall.trans hb.shortfall.symm)
  have hdevices : devices = devices' := by
    have hmem : ∀ d, d ∈ devices ↔ d ∈ devices' := fun d =>
      (ha.devices d).trans (hb.devices d).symm
    exact ((List.perm_ext_iff_of_nodup ha.sorted.nodup hb.sorted.nodup).mpr hmem).eq_of_pairwise
      (fun _ _ _ _ hab hba => absurd hab hba.asymm) ha.sorted hb.sorted
  rw [hshortfall, hdevices]

/-- A level within bounded movements is not the least of its range. -/
theorem Bounded.lt_netOf {movements : List StockMovement} (h : Bounded movements)
    (productId : Uuid) : -9223372036854775808 < netOf movements productId := by
  have hfilter := sum_filter_le (fun m : StockMovement => m.productId = productId)
    (fun (m : StockMovement) (_ : m ∈ movements) => abs_nonneg m.delta.milli.val)
  have hsum := Multiset.abs_sum_le_sum_abs
    (s := ((movements.filter (·.productId = productId)).map fun m => m.delta.milli.val :
      Multiset Int))
  simp only [Multiset.map_coe, Multiset.sum_coe, List.map_map] at hsum
  exact (abs_lt.mp (lt_of_le_of_lt (hsum.trans hfilter) h)).1

theorem Oversell.productId_of_ofLevel {productId : Uuid} {level : I64} {devices : List Uuid}
    {oversell : Oversell} (h : ofLevel productId level devices = some oversell) :
    oversell.productId = productId := by
  unfold ofLevel at h
  split at h
  · cases h
  · cases h
    rfl

/-- What is reported of a tallied row is an oversell of its product. -/
theorem Oversell.reports_of_ofLevel {movements : List StockMovement} {productId : Uuid}
    {row : I64 × List Uuid} {oversell : Oversell} (h : Bounded movements)
    (hrow : StockMovement.Tallied (movements.filter (·.productId = productId)) row)
    (hsome : ofLevel productId row.1 row.2 = some oversell) : oversell.Reports movements := by
  obtain ⟨level, devices⟩ := row
  obtain ⟨hlevel, hnodup, hdevices⟩ := hrow
  have hnet : level.val = netOf movements productId := hlevel
  have hlow := h.lt_netOf productId
  obtain ⟨hneg, hsome⟩ := Option.ite_none_left_eq_some.mp hsome
  have hneg : ¬ 0 ≤ level.val := hneg
  cases hsome
  have hperm := List.perm_insertionSort (· ≤ ·) devices
  constructor
  · show netOf movements productId < 0
    omega
  · show level.saturatingAbs.val = -netOf movements productId
    rw [I64.saturatingAbs_val, abs_of_neg (by omega)]
    omega
  · have hsorted := List.pairwise_insertionSort (· ≤ ·) devices
    exact (hsorted.and (hperm.nodup_iff.mpr hnodup)).imp fun h => lt_of_le_of_ne h.1 h.2
  · intro d
    rw [hperm.mem_iff, hdevices d]
    simp only [Sold, List.mem_filter, decide_eq_true_eq, and_assoc]

/-- Every product below zero is reported, in order of product, and nothing else is. -/
theorem detectOversells_eq {movements : List StockMovement} (h : Bounded movements) :
    ∃ oversells, detectOversells movements = .ok oversells ∧
      oversells.Pairwise (fun a b => a.productId < b.productId) ∧
      (∀ oversell ∈ oversells, oversell.Reports movements) ∧
      ∀ productId, netOf movements productId < 0 →
        ∃ oversell ∈ oversells, oversell.productId = productId := by
  obtain ⟨products, hproducts, hposted⟩ := StockMovement.post_all h
  refine ⟨_, Except.bind_eq_ok.mpr ⟨products, hproducts, rfl⟩, ?_, ?_, ?_⟩
  · rw [List.pairwise_filterMap]
    refine Std.ExtTreeMap.ordered_keys_toList.imp fun hkeys first hfirst second hsecond => ?_
    rw [Oversell.productId_of_ofLevel hfirst, Oversell.productId_of_ofLevel hsecond]
    exact compare_lt_iff_lt.mp hkeys
  · intro oversell hmem
    obtain ⟨entry, hentry, hsome⟩ := List.mem_filterMap.mp hmem
    have hfound := Std.ExtTreeMap.mem_toList_iff_getElem?_eq_some.mp hentry
    exact Oversell.reports_of_ofLevel h (hposted.row _ _ hfound) hsome
  · intro productId hneg
    -- a level below zero has movements
    have hmoved : ∃ m ∈ movements, m.productId = productId := by
      by_contra hnone
      have hzero : netOf movements productId = 0 :=
        keySum_not_mem fun hkey => hnone (List.mem_map.mp hkey)
      omega
    obtain ⟨row, hrow⟩ := Option.isSome_iff_exists.mp ((hposted.isSome _).mpr hmoved)
    have hlevel : row.1.val = netOf movements productId := (hposted.row _ _ hrow).1
    exact ⟨_, List.mem_filterMap.mpr ⟨(productId, row),
      Std.ExtTreeMap.mem_toList_iff_getElem?_eq_some.mpr hrow, if_neg (by omega)⟩, rfl⟩

/-- **Oversells are reported exactly.** Of movements whose sizes sum within the range, every
    product has a level, and a product is reported when its level is negative: once, short of what
    it is below zero, with the devices that sold it; movements in another order are reported the
    same. -/
theorem detectOversells_exact (movements : List StockMovement)
    (h : (movements.map fun m => |m.delta.milli.val|).sum < 9223372036854775808) :
    (∀ productId, ∃ level, levelOf movements productId = .ok level ∧
      level.milli.val = netOf movements productId) ∧
    ∃ oversells, detectOversells movements = .ok oversells ∧
      (oversells.map (·.productId)).Nodup ∧
      (∀ oversell ∈ oversells, oversell.Reports movements) ∧
      (∀ productId, netOf movements productId < 0 →
        ∃ oversell ∈ oversells, oversell.productId = productId) ∧
      ∀ other, movements.Perm other → detectOversells other = .ok oversells := by
  obtain ⟨oversells, hdetect, hsorted, hreports, hall⟩ := detectOversells_eq h
  refine ⟨levelOf_eq h, oversells, hdetect, (List.pairwise_map.mpr hsorted).nodup, hreports, hall,
    fun other hperm => ?_⟩
  obtain ⟨others, hdetect', hsorted', hreports', hall'⟩ :=
    detectOversells_eq (Bounded.perm hperm h)
  -- both lists hold every oversell, in order of product
  have hsame : ∀ o, o ∈ others ↔ o ∈ oversells := by
    intro o
    constructor
    · intro ho
      have ho := (hreports' o ho).perm hperm.symm
      obtain ⟨reported, hmem, hid⟩ := hall o.productId ho.negative
      rw [← (hreports reported hmem).unique ho hid]
      exact hmem
    · intro ho
      have ho := (hreports o ho).perm hperm
      obtain ⟨reported, hmem, hid⟩ := hall' o.productId ho.negative
      rw [← (hreports' reported hmem).unique ho hid]
      exact hmem
  have hnodup : ∀ {os : List Oversell}, os.Pairwise (fun a b => a.productId < b.productId) →
      os.Nodup := by
    intro os hos
    exact hos.imp fun hlt heq => absurd (congrArg Oversell.productId heq) hlt.ne
  have heq : others = oversells :=
    ((List.perm_ext_iff_of_nodup (hnodup hsorted') (hnodup hsorted)).mpr hsame).eq_of_pairwise
      (fun _ _ _ _ hab hba => absurd hab hba.asymm) hsorted' hsorted
  rw [hdetect', heq]

/-- Two tills sold the one bag there was. -/
theorem detectOversells_exact_rice :
    ∃ oversells, detectOversells
        [⟨1, ⟨I64.lit (-1000)⟩, .sale, 11⟩, ⟨1, ⟨I64.lit 1000⟩, .received, 10⟩,
          ⟨1, ⟨I64.lit (-1000)⟩, .sale, 10⟩] = .ok oversells ∧
      (oversells.map (·.productId)).Nodup := by
  obtain ⟨-, oversells, hdetect, hnodup, -⟩ := detectOversells_exact
    [⟨1, ⟨I64.lit (-1000)⟩, .sale, 11⟩, ⟨1, ⟨I64.lit 1000⟩, .received, 10⟩,
      ⟨1, ⟨I64.lit (-1000)⟩, .sale, 10⟩] (by decide)
  exact ⟨oversells, hdetect, hnodup⟩

end Sahl
