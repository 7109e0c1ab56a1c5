import Mathlib.Tactic
import Mathlib.Data.Prod.Lex
import Mathlib.Data.String.Basic
import Sahl.Lib.Lists
import Sahl.Lib.Decimal
import Sahl.Core.Picking

/-! # Low stock

    The message that tells an owner what is running out. The book keeps levels by batch, and the
    message is composed from the batches at or below the threshold one by one: it is about products
    where no product has a low batch beside others that count, and its figures are the levels where
    none that it lists is below zero by a part of a unit (`lowStock_reports_iff`). -/

namespace Sahl

/-! ## Section 1: The message -/

/-- Who a message concerns. -/
inductive Audience where
  | owner
  | customer
  deriving DecidableEq

inductive MessageKind where
  | closingSummary
  | lowStock
  | digitalReceipt
  | anomaly
  deriving DecidableEq

/-- A composed message, ready for whatever holds the socket. -/
structure Message where
  outletId : Uuid
  kind : MessageKind
  audience : Audience
  body : String
  deriving DecidableEq

/-- A quantity, without trailing zeros nobody needs. Both parts are Euclidean. -/
def quantity (value : Quantity) : List Char :=
  let whole := value.milli.val / 1000
  let fraction := (value.milli.val % 1000).toNat
  if fraction = 0 then Decimal.render 0 whole
  else (Decimal.render 0 whole ++ '.' :: Decimal.padLeft 3 (Decimal.digits fraction)).rdropWhile
    (· = '0')

/-- A level at or below what the owner set. -/
def BatchLevel.isLow (below : Quantity) (level : BatchLevel) : Bool :=
  level.onHand.milli.val ≤ below.milli.val

/-- The batches that are running out, by the names of their products. -/
def runningOut (stock : InventoryBook) (below : Quantity) (nameOf : Uuid → Option String) :
    List (String × Quantity) :=
  (stock.levels.values.filter (·.isLow below)).filterMap fun level =>
    (nameOf level.batch.productId).map fun name => (name, level.onHand)

/-- Emptiest first, and by name. -/
def emptiness (item : String × Quantity) : Int ×ₗ String := toLex (item.2.milli.val, item.1)

/-- The text of a message about some items, the first five of them listed. -/
def lowStockBody (shop : String) (items : List (String × Quantity)) : String :=
  let listed := (items.take 5).map fun item =>
    item.1 ++ " (" ++ String.ofList (quantity item.2) ++ ")"
  shop ++ ": running low — " ++ ", ".intercalate listed ++
    (if listed.length < items.length then
      " and " ++ String.ofList (Decimal.digits (items.length - listed.length)) ++ " more"
    else "") ++ "."

/-- What is running out. -/
def lowStock (outletId : Uuid) (shop : String) (stock : InventoryBook) (below : Quantity)
    (nameOf : Uuid → Option String) : Option Message :=
  let found := runningOut stock below nameOf
  if found.isEmpty then none
  else some
    { outletId, kind := .lowStock, audience := .owner,
      body := lowStockBody shop (found.insertionSort fun a b => emptiness a ≤ emptiness b) }

/-! ## Section 2: What a quantity's text states -/

/-- A text for a quantity of thousandths: digits with at most three decimals, after a minus sign
    where it is below zero. -/
def States (text : List Char) (milli : Int) : Prop :=
  ∃ unsigned amount, Decimal.Denotes 3 unsigned amount ∧
    (text = unsigned ∧ milli = amount ∨ text = '-' :: unsigned ∧ milli = -amount)

theorem quantity_eq (value : Quantity) : quantity value =
    Decimal.trimmed 3 (value.milli.val / 1000) (value.milli.val % 1000).toNat := rfl

/-- A sign before what denotes an amount states the amount or its opposite. -/
theorem states_signed {unsigned : List Char} {amount : Nat} {milli : Int} (negative : Prop)
    [Decidable negative] (h : Decimal.Denotes 3 unsigned amount) :
    States ((if negative then ['-'] else []) ++ unsigned) milli ↔
      milli = if negative then -(amount : Int) else amount := by
  have hminus : ∀ {s : List Char} {n : Nat}, Decimal.Denotes 3 s n → '-' ∉ s := by
    intro s n hs hmem
    rcases hs.mem hmem with hdigit | hpoint
    · exact absurd hdigit (by decide)
    · exact absurd hpoint (by decide)
  by_cases hneg : negative
  · rw [if_pos hneg, if_pos hneg]
    constructor
    · rintro ⟨s, n, hs, ⟨rfl, -⟩ | ⟨heq, hmilli⟩⟩
      · exact absurd (by simp) (hminus hs)
      · have htail : unsigned = s := (List.cons.inj heq).2
        rw [hmilli, h.unique (htail ▸ hs)]
    · exact fun hmilli => ⟨unsigned, amount, h, .inr ⟨rfl, hmilli⟩⟩
  · rw [if_neg hneg, if_neg hneg, List.nil_append]
    constructor
    · rintro ⟨s, n, hs, ⟨rfl, hmilli⟩ | ⟨rfl, -⟩⟩
      · rw [hmilli, h.unique hs]
      · exact absurd (by simp) (hminus h)
    · exact fun hmilli => ⟨unsigned, amount, h, .inl ⟨rfl, hmilli⟩⟩

/-- The text of a quantity states it unless it is below zero by a part of a unit: the two parts
    are Euclidean, so the fraction counts upwards from the whole below. -/
theorem quantity_states_iff (value : Quantity) : States (quantity value) value.milli.val ↔
    0 ≤ value.milli.val ∨ (1000 : Int) ∣ value.milli.val := by
  have hfraction : (value.milli.val % 1000).toNat < 10 ^ 3 := by omega
  obtain ⟨unsigned, hdenotes, htext⟩ :=
    Decimal.trimmed_denotes (by decide) (value.milli.val / 1000) hfraction
  rw [quantity_eq, htext, states_signed _ hdenotes]
  split <;> omega

/-! ## Section 3: The items of the message -/

/-- What the message says of one batch, with the product it says it of. -/
structure LowItem where
  productId : Uuid
  name : String
  onHand : Quantity

def LowItem.shown (item : LowItem) : String × Quantity := (item.name, item.onHand)

def LowItem.ofLevel (nameOf : Uuid → Option String) (level : BatchLevel) : Option LowItem :=
  (nameOf level.batch.productId).map fun name => ⟨level.batch.productId, name, level.onHand⟩

/-- The items the message is composed from, in its order. -/
def lowItems (stock : InventoryBook) (below : Quantity) (nameOf : Uuid → Option String) :
    List LowItem :=
  ((stock.levels.values.filter (·.isLow below)).filterMap (LowItem.ofLevel nameOf)).insertionSort
    fun a b => emptiness a.shown ≤ emptiness b.shown

variable {outletId : Uuid} {shop : String} {stock : InventoryBook} {below : Quantity}
  {nameOf : Uuid → Option String}

theorem runningOut_eq : runningOut stock below nameOf =
    ((stock.levels.values.filter (·.isLow below)).filterMap (LowItem.ofLevel nameOf)).map
      LowItem.shown := by
  rw [runningOut, List.map_filterMap]
  congr 1
  funext level
  rw [LowItem.ofLevel, Option.map_map]
  rfl

/-- Nothing is sent where there are no items, and the message is composed from those there are. -/
theorem lowStock_eq : lowStock outletId shop stock below nameOf =
    if lowItems stock below nameOf = [] then none
    else some ⟨outletId, .lowStock, .owner,
      lowStockBody shop ((lowItems stock below nameOf).map LowItem.shown)⟩ := by
  have hsorted : (runningOut stock below nameOf).insertionSort
      (fun a b => emptiness a ≤ emptiness b) = (lowItems stock below nameOf).map LowItem.shown := by
    rw [runningOut_eq, lowItems, List.map_insertionSort _ (fun a b => emptiness a ≤ emptiness b)
      LowItem.shown _ fun _ _ _ _ => Iff.rfl]
  have hempty : (runningOut stock below nameOf).isEmpty ↔ lowItems stock below nameOf = [] := by
    rw [List.isEmpty_iff, ← List.length_eq_zero_iff,
      ← List.length_insertionSort (fun a b => emptiness a ≤ emptiness b), hsorted,
      List.length_map, List.length_eq_zero_iff]
  rw [lowStock, hsorted]
  by_cases h : lowItems stock below nameOf = []
  · rw [if_pos h, if_pos (hempty.mpr h)]
  · rw [if_neg h, if_neg (hempty.not.mpr h)]

/-- The body lists five of the items at most, and counts the others. -/
theorem lowStockBody_items (items : List LowItem) :
    lowStockBody shop (items.map LowItem.shown) = shop ++ ": running low — " ++
      ", ".intercalate ((items.take 5).map fun item =>
        item.name ++ " (" ++ String.ofList (quantity item.onHand) ++ ")") ++
      (if items.length ≤ 5 then ""
        else " and " ++ String.ofList (Decimal.digits (items.length - 5)) ++ " more") ++ "." := by
  have hlisted : ((items.map LowItem.shown).take 5).map (fun item =>
      item.1 ++ " (" ++ String.ofList (quantity item.2) ++ ")") = (items.take 5).map fun item =>
        item.name ++ " (" ++ String.ofList (quantity item.onHand) ++ ")" := by
    rw [← List.map_take, List.map_map]
    rfl
  have hlength : ((items.take 5).map fun item =>
      item.name ++ " (" ++ String.ofList (quantity item.onHand) ++ ")").length =
        min 5 items.length := by
    rw [List.length_map, List.length_take]
  rw [lowStockBody, hlisted, hlength, List.length_map]
  by_cases hfew : items.length ≤ 5
  · rw [if_pos hfew, if_neg (by omega)]
  · rw [if_neg hfew, if_pos (by omega), Nat.min_eq_left (by omega)]

theorem mem_lowItems {item : LowItem} : item ∈ lowItems stock below nameOf ↔
    ∃ level ∈ stock.levels.values, level.isLow below ∧
      LowItem.ofLevel nameOf level = some item := by
  rw [lowItems, List.mem_insertionSort, List.mem_filterMap]
  simp only [List.mem_filter, and_assoc]

theorem lowItems_sorted : (lowItems stock below nameOf).Pairwise
    fun a b => a.onHand.milli.val ≤ b.onHand.milli.val := by
  refine (List.pairwise_insertionSort _ _).imp ?_
  intro a b hab
  rcases Prod.Lex.toLex_le_toLex.mp hab with hlt | ⟨heq, -⟩
  · exact le_of_lt hlt
  · exact le_of_eq heq

/-- The items of one product are its low batches. -/
theorem lowItems_of_product {productId : Uuid} {name : String}
    (hname : nameOf productId = some name) :
    ((lowItems stock below nameOf).filter (·.productId = productId)).Perm
      (((stock.forProduct productId).filter (·.isLow below)).map fun level =>
        ⟨productId, name, level.onHand⟩) := by
  -- one product at a time, by induction on the levels before they are sorted
  have hlevels : ∀ levels : List BatchLevel,
      ((levels.filter (·.isLow below)).filterMap (LowItem.ofLevel nameOf)).filter
          (·.productId = productId) =
        ((levels.filter (·.batch.productId = productId)).filter (·.isLow below)).map fun level =>
          (⟨productId, name, level.onHand⟩ : LowItem) := by
    intro levels
    induction levels with
    | nil => rfl
    | cons level rest ih =>
      by_cases hproduct : level.batch.productId = productId
      · have hitem : LowItem.ofLevel nameOf level = some ⟨productId, name, level.onHand⟩ := by
          rw [LowItem.ofLevel, hproduct, hname]
          rfl
        cases hlow : level.isLow below <;> simp [hlow, hproduct, hitem, ih]
      · have hitem : ∀ item, LowItem.ofLevel nameOf level = some item →
            item.productId ≠ productId := by
          intro item h
          obtain ⟨_, -, rfl⟩ := Option.map_eq_some_iff.mp h
          exact hproduct
        cases hlow : level.isLow below
        · simpa [hlow, hproduct] using ih
        · cases h : LowItem.ofLevel nameOf level with
          | none => simpa [hlow, hproduct, h] using ih
          | some item => simpa [hlow, hproduct, h, hitem item h] using ih
  refine ((List.perm_insertionSort _ _).filter _).trans ?_
  rw [hlevels]
  exact (((List.perm_insertionSort _ _).symm).filter _).map _

/-! ## Section 4: The condition -/

/-- What is on hand of a product, over all its batches. -/
def InventoryBook.sumOnHand (stock : InventoryBook) (productId : Uuid) : Int :=
  ((stock.forProduct productId).map BatchLevel.milli).sum

/-- A product that can be named and is at or below the threshold over all its batches. -/
structure LowProduct (stock : InventoryBook) (below : Quantity) (nameOf : Uuid → Option String)
    (productId : Uuid) : Prop where
  stocked : stock.forProduct productId ≠ []
  nameable : (nameOf productId).isSome
  low : stock.sumOnHand productId ≤ below.milli.val

/-- The batches of a product can stand for it: none of them is low, and neither are they
    together; or one is, and the others come to nothing. -/
def BatchStandsFor (below : Quantity) (levels : List BatchLevel) : Prop :=
  match levels.filter (·.isLow below) with
  | [] => below.milli.val < (levels.map BatchLevel.milli).sum
  | [_] => ((levels.filter fun level => ! level.isLow below).map BatchLevel.milli).sum = 0
  | _ :: _ :: _ => False

theorem batchStandsFor_iff {levels : List BatchLevel} : BatchStandsFor below levels ↔
    (levels.filter (·.isLow below)).length ≤ 1 ∧
      (∀ level ∈ levels.filter (·.isLow below), level.milli = (levels.map BatchLevel.milli).sum) ∧
      ((levels.map BatchLevel.milli).sum ≤ below.milli.val →
        levels.filter (·.isLow below) ≠ []) := by
  have hsum := sum_filter_add_not (·.isLow below) BatchLevel.milli levels
  have hlow : ∀ level ∈ levels.filter (·.isLow below), level.milli ≤ below.milli.val :=
    fun level hlevel => of_decide_eq_true (List.mem_filter.mp hlevel).2
  unfold BatchStandsFor
  cases hfound : levels.filter (·.isLow below) with
  | nil => simp
  | cons level rest =>
    cases rest with
    | nil =>
      rw [hfound] at hsum hlow
      have hle := hlow level (List.mem_singleton_self level)
      simp only [List.map_cons, List.map_nil, List.sum_cons, List.sum_nil] at hsum
      simp only [List.length_singleton, List.mem_singleton, forall_eq, ne_eq, List.cons_ne_nil,
        not_false_eq_true, implies_true, and_true, le_refl, true_and]
      omega
    | cons => simp

/-- The batches that are emptier than a level, of products that can be named. -/
def InventoryBook.emptier (stock : InventoryBook) (nameOf : Uuid → Option String)
    (level : BatchLevel) : Nat :=
  stock.levels.values.countP fun other =>
    (nameOf other.batch.productId).isSome && decide (other.milli < level.milli)

/-- The books whose batches can stand for their products. -/
structure BatchesSuffice (stock : InventoryBook) (below : Quantity)
    (nameOf : Uuid → Option String) : Prop where
  standsFor : ∀ productId, stock.forProduct productId ≠ [] → (nameOf productId).isSome →
    BatchStandsFor below (stock.forProduct productId)
  /-- No batch among the five emptiest is below zero by a part of a unit. -/
  whole : ∀ level ∈ stock.levels.values, level.isLow below → (nameOf level.batch.productId).isSome →
    stock.emptier nameOf level < 5 → 0 ≤ level.milli ∨ (1000 : Int) ∣ level.milli

/-! ## Section 5: When the message is about products -/

/-- What the message is to be. -/
structure LowStockReports (outletId : Uuid) (shop : String) (stock : InventoryBook)
    (below : Quantity) (nameOf : Uuid → Option String) : Prop where
  once : ((lowItems stock below nameOf).map LowItem.productId).Nodup
  /-- An item is a low product, with its name and its sum. -/
  summed : ∀ item ∈ lowItems stock below nameOf, LowProduct stock below nameOf item.productId ∧
    nameOf item.productId = some item.name ∧ item.onHand.milli.val = stock.sumOnHand item.productId
  every : ∀ productId, LowProduct stock below nameOf productId →
    ∃ item ∈ lowItems stock below nameOf, item.productId = productId
  emptiestFirst : (lowItems stock below nameOf).Pairwise fun a b =>
    a.onHand.milli.val ≤ b.onHand.milli.val
  none_iff : lowStock outletId shop stock below nameOf = none ↔
    ∀ productId, ¬ LowProduct stock below nameOf productId
  /-- Five items at most are listed, and the others are counted. -/
  listed : ∀ message, lowStock outletId shop stock below nameOf = some message →
    message = ⟨outletId, .lowStock, .owner, shop ++ ": running low — " ++
      ", ".intercalate (((lowItems stock below nameOf).take 5).map fun item =>
        item.name ++ " (" ++ String.ofList (quantity item.onHand) ++ ")") ++
      (if (lowItems stock below nameOf).length ≤ 5 then ""
        else " and " ++ String.ofList (Decimal.digits ((lowItems stock below nameOf).length - 5)) ++
          " more") ++ "."⟩
  stated : ∀ item ∈ (lowItems stock below nameOf).take 5,
    States (quantity item.onHand) item.onHand.milli.val

theorem mem_forProduct {productId : Uuid} {level : BatchLevel} :
    level ∈ stock.forProduct productId ↔
      level ∈ stock.levels.values ∧ level.batch.productId = productId := by
  rw [InventoryBook.forProduct, List.mem_insertionSort, List.mem_filter, decide_eq_true_iff]

/-- An item is a low batch of a product that can be named. -/
theorem lowItems_spec {item : LowItem} (h : item ∈ lowItems stock below nameOf) :
    nameOf item.productId = some item.name ∧ stock.forProduct item.productId ≠ [] ∧
      item.onHand.milli.val ≤ below.milli.val := by
  obtain ⟨level, hlevel, hlow, hitem⟩ := mem_lowItems.mp h
  obtain ⟨name, hname, rfl⟩ := Option.map_eq_some_iff.mp hitem
  exact ⟨hname, List.ne_nil_of_mem (mem_forProduct.mpr ⟨hlevel, rfl⟩), of_decide_eq_true hlow⟩

/-- So many items name a product as it has low batches. -/
theorem count_lowItems {productId : Uuid} (hname : (nameOf productId).isSome) :
    ((lowItems stock below nameOf).map LowItem.productId).count productId =
      ((stock.forProduct productId).filter (·.isLow below)).length := by
  obtain ⟨name, hname⟩ := Option.isSome_iff_exists.mp hname
  have hperm : ((lowItems stock below nameOf).filter (·.productId = productId)).length = _ :=
    (lowItems_of_product hname).length_eq
  rw [List.length_map] at hperm
  rw [← hperm, List.count, List.countP_map, List.countP_eq_length_filter]
  rfl

/-- The items are the low products, each once and with its sum, if and only if the batches of each
    product count once. -/
theorem items_iff : ((lowItems stock below nameOf).map LowItem.productId).Nodup ∧
      (∀ item ∈ lowItems stock below nameOf,
        item.onHand.milli.val = stock.sumOnHand item.productId) ∧
      (∀ productId, LowProduct stock below nameOf productId →
        ∃ item ∈ lowItems stock below nameOf, item.productId = productId) ↔
    ∀ productId, stock.forProduct productId ≠ [] → (nameOf productId).isSome →
      BatchStandsFor below (stock.forProduct productId) := by
  -- an item is a low level of its product with the name looked up
  have hfibre : ∀ {item : LowItem}, item ∈ lowItems stock below nameOf ↔ ∃ level ∈
      (stock.forProduct item.productId).filter (·.isLow below),
        nameOf item.productId = some item.name ∧ item.onHand = level.onHand := by
    intro item
    rw [mem_lowItems]
    constructor
    · rintro ⟨level, hlevel, hlow, hitem⟩
      obtain ⟨name, hname, rfl⟩ := Option.map_eq_some_iff.mp hitem
      exact ⟨level, List.mem_filter.mpr ⟨mem_forProduct.mpr ⟨hlevel, rfl⟩, hlow⟩, hname, rfl⟩
    · rintro ⟨level, hlevel, hname, hon⟩
      obtain ⟨hmem, hlow⟩ := List.mem_filter.mp hlevel
      obtain ⟨hvalue, hproduct⟩ := mem_forProduct.mp hmem
      refine ⟨level, hvalue, hlow, ?_⟩
      rw [LowItem.ofLevel, hproduct, hname, ← hon]
      rfl
  constructor
  · rintro ⟨honce, hsummed, hevery⟩ productId hstocked hnameable
    obtain ⟨name, hname⟩ := Option.isSome_iff_exists.mp hnameable
    refine batchStandsFor_iff.mpr ⟨?_, fun level hlevel => ?_, fun hsum => ?_⟩
    · rw [← count_lowItems hnameable]
      exact List.nodup_iff_count_le_one.mp honce productId
    · exact hsummed ⟨productId, name, level.onHand⟩ (hfibre.mpr ⟨level, hlevel, hname, rfl⟩)
    · obtain ⟨item, hitem, rfl⟩ := hevery productId ⟨hstocked, hnameable, hsum⟩
      obtain ⟨level, hlevel, -⟩ := hfibre.mp hitem
      exact List.ne_nil_of_mem hlevel
  · intro h
    refine ⟨List.nodup_iff_count_le_one.mpr fun productId => ?_, fun item hitem => ?_,
      fun productId hlow => ?_⟩
    · by_cases hmem : productId ∈ (lowItems stock below nameOf).map LowItem.productId
      · obtain ⟨item, hitem, rfl⟩ := List.mem_map.mp hmem
        obtain ⟨hname, hstocked, -⟩ := lowItems_spec hitem
        have hnameable := Option.isSome_iff_exists.mpr ⟨_, hname⟩
        rw [count_lowItems hnameable]
        exact (batchStandsFor_iff.mp (h item.productId hstocked hnameable)).1
      · rw [List.count_eq_zero_of_not_mem hmem]
        exact Nat.zero_le 1
    · obtain ⟨level, hlevel, hname, hon⟩ := hfibre.mp hitem
      obtain ⟨-, hstocked, -⟩ := lowItems_spec hitem
      rw [hon]
      exact (batchStandsFor_iff.mp (h item.productId hstocked (by simp [hname]))).2.1 level hlevel
    · obtain ⟨name, hname⟩ := Option.isSome_iff_exists.mp hlow.nameable
      obtain ⟨level, hlevel⟩ := List.exists_mem_of_ne_nil _
        ((batchStandsFor_iff.mp (h productId hlow.stocked hlow.nameable)).2.2 hlow.low)
      exact ⟨⟨productId, name, level.onHand⟩, hfibre.mpr ⟨level, hlevel, hname, rfl⟩, rfl⟩

/-- The listed texts state their levels if and only if no batch among the five emptiest is below
    zero by a part of a unit. -/
theorem stated_iff : (∀ item ∈ (lowItems stock below nameOf).take 5,
      States (quantity item.onHand) item.onHand.milli.val) ↔
    ∀ level ∈ stock.levels.values, level.isLow below → (nameOf level.batch.productId).isSome →
      stock.emptier nameOf level < 5 → 0 ≤ level.milli ∨ (1000 : Int) ∣ level.milli := by
  -- the items before one in the list are the emptier batches of products with a name
  have hcount : ∀ level : BatchLevel, level.isLow below →
      (lowItems stock below nameOf).countP (fun item => item.onHand.milli.val < level.milli) =
        stock.emptier nameOf level := by
    intro level hlow
    rw [lowItems, (List.perm_insertionSort _ _).countP_eq, List.countP_filterMap,
      List.countP_filter, InventoryBook.emptier]
    refine List.countP_congr fun other _ => ?_
    have hbelow : level.milli ≤ below.milli.val := of_decide_eq_true hlow
    cases hname : nameOf other.batch.productId with
    | none => simp [LowItem.ofLevel, hname]
    | some name =>
      simp only [LowItem.ofLevel, hname, Option.map_some, Option.getD_some, BatchLevel.isLow,
        Bool.and_eq_true, decide_eq_true_iff, Option.isSome_some, true_and]
      exact ⟨fun h => h.1, fun h => ⟨h, le_trans (le_of_lt h) hbelow⟩⟩
  simp only [quantity_states_iff]
  rw [@forall_take_iff_rank _ _ _ (fun item : LowItem => item.onHand.milli.val)
    (fun milli => 0 ≤ milli ∨ (1000 : Int) ∣ milli) _ lowItems_sorted 5]
  constructor
  · intro h level hlevel hlow hnameable hfew
    obtain ⟨name, hname⟩ := Option.isSome_iff_exists.mp hnameable
    exact h ⟨level.batch.productId, name, level.onHand⟩
      (mem_lowItems.mpr ⟨level, hlevel, hlow, by rw [LowItem.ofLevel, hname]; rfl⟩)
      ((hcount level hlow).trans_lt hfew)
  · intro h item hitem hfew
    obtain ⟨level, hlevel, hlow, hofLevel⟩ := mem_lowItems.mp hitem
    obtain ⟨name, hname, rfl⟩ := Option.map_eq_some_iff.mp hofLevel
    exact h level hlevel hlow (by simp [hname]) ((hcount level hlow).symm.trans_lt hfew)

/-- **Low stock**: the message is about products, with their sums, if and only if the low batches
    can stand for their products and none of those listed is below zero by a part of a unit. -/
theorem lowStock_reports_iff (outletId : Uuid) (shop : String) (stock : InventoryBook)
    (below : Quantity) (nameOf : Uuid → Option String) :
    LowStockReports outletId shop stock below nameOf ↔ BatchesSuffice stock below nameOf := by
  constructor
  · intro h
    exact ⟨items_iff.mp ⟨h.once, fun item hitem => (h.summed item hitem).2.2, h.every⟩,
      stated_iff.mp h.stated⟩
  · intro h
    obtain ⟨honce, hsummed, hevery⟩ := items_iff.mpr h.standsFor
    -- an item that has the sum of its product is of a low product
    have hlow : ∀ item ∈ lowItems stock below nameOf,
        LowProduct stock below nameOf item.productId := by
      intro item hitem
      obtain ⟨hname, hstocked, hbelow⟩ := lowItems_spec hitem
      exact ⟨hstocked, by simp [hname], (hsummed item hitem).symm.trans_le hbelow⟩
    refine ⟨honce, fun item hitem => ⟨hlow item hitem, (lowItems_spec hitem).1,
      hsummed item hitem⟩, hevery, lowItems_sorted, ?_, ?_, stated_iff.mpr h.whole⟩
    · rw [lowStock_eq]
      by_cases hempty : lowItems stock below nameOf = []
      · rw [if_pos hempty]
        refine ⟨fun _ productId hproduct => ?_, fun _ => rfl⟩
        obtain ⟨item, hitem, -⟩ := hevery productId hproduct
        rw [hempty] at hitem
        cases hitem
      · rw [if_neg hempty]
        obtain ⟨item, hitem⟩ := List.exists_mem_of_ne_nil _ hempty
        exact ⟨nofun, fun hnone => absurd (hlow item hitem) (hnone item.productId)⟩
    · intro message hmessage
      rw [lowStock_eq] at hmessage
      obtain ⟨-, hmessage⟩ := Option.ite_none_left_eq_some.mp hmessage
      rw [← Option.some.inj hmessage, lowStockBody_items]

/-! ### An emptied batch beside a full one -/

/-- Ten units of rice come and go, and forty more come. -/
def restocked : List InventoryEvent :=
  [.batchReceived 1 12 none none ⟨I64.lit 10000⟩ ⟨I64.lit 100, .bdt⟩ none Timestamp.epoch 7,
   .stockIssued 1 ⟨I64.lit 10000⟩ .sale none Timestamp.epoch 7,
   .batchReceived 2 12 none none ⟨I64.lit 40000⟩ ⟨I64.lit 100, .bdt⟩ none Timestamp.epoch 7]

/-- Rice with forty units on the shelf is reported as out. -/
theorem restocked_reported : ¬ ∀ (events : List InventoryEvent) (stock : InventoryBook)
    (outletId : Uuid) (shop : String) (below : Quantity) (nameOf : Uuid → Option String),
    InventoryBook.replay events = .ok stock →
      LowStockReports outletId shop stock below nameOf := by
  intro hclaim
  obtain ⟨stock, hstock⟩ := Except.isOkay_iff.mp
    (show (InventoryBook.replay restocked).isOkay = true by decide +kernel)
  have hfigures : (InventoryBook.replay restocked).toOption.all (fun stock =>
      (lowItems stock ⟨I64.lit 5000⟩ fun _ => some "Rice").any fun item =>
        decide (item.onHand.milli.val ≠ stock.sumOnHand item.productId)) = true := by
    decide +kernel
  rw [hstock] at hfigures
  obtain ⟨item, hitem, hsum⟩ := List.any_eq_true.mp hfigures
  have hreports := hclaim restocked stock 9 "Shop" ⟨I64.lit 5000⟩ (fun _ => some "Rice") hstock
  exact of_decide_eq_true hsum (hreports.summed item hitem).2.2

end Sahl
