import Mathlib.Tactic
import Sahl.Lib.Counts
import Sahl.Core.Catalogue

/-! # What a product may be ordered with

    Groups are validated one by one; a list of choices is checked against all of them at once,
    and adds to the price of one unit in each group that offers it. -/

namespace Sahl

/-! ## Section 1: One group -/

namespace ModifierGroup

/-- The ids a group offers. -/
def ids (group : ModifierGroup) : Finset Uuid := (group.options.map (·.id)).toFinset

/-- What an id adds to one unit in this group: the delta of its first option under that id. -/
def delta (group : ModifierGroup) (optionId : Uuid) : ℤ :=
  (group.option optionId).elim 0 (·.priceDelta.minor.val)

theorem option_of_mem {group : ModifierGroup} {optionId : Uuid} (h : optionId ∈ group.ids) :
    ∃ option, group.option optionId = some option := by
  rw [ids, List.mem_toFinset, List.mem_map] at h
  obtain ⟨option, hoption, hid⟩ := h
  refine Option.isSome_iff_exists.mp (List.find?_isSome.mpr ⟨option, hoption, ?_⟩)
  exact decide_eq_true hid

theorem mem_of_option {group : ModifierGroup} {optionId : Uuid} {option : ModifierOption}
    (h : group.option optionId = some option) :
    option ∈ group.options ∧ option.id = optionId ∧ optionId ∈ group.ids := by
  have hmem := List.mem_of_find?_eq_some h
  have hid : option.id = optionId := by simpa using List.find?_some h
  exact ⟨hmem, hid, List.mem_toFinset.mpr (List.mem_map.mpr ⟨option, hmem, hid⟩)⟩

theorem delta_of_option {group : ModifierGroup} {optionId : Uuid} {option : ModifierOption}
    (h : group.option optionId = some option) :
    group.delta optionId = option.priceDelta.minor.val := by
  rw [delta, h]
  rfl

theorem delta_of_not_mem {group : ModifierGroup} {optionId : Uuid} (h : optionId ∉ group.ids) :
    group.delta optionId = 0 := by
  unfold delta
  cases hoption : group.option optionId with
  | none => rfl
  | some option => exact absurd (mem_of_option hoption).2.2 h

/-- How many of the choices a group offers. -/
theorem check_eq_ok {group : ModifierGroup} {chosen : List Uuid} :
    group.check chosen = .ok () ↔
      group.min.toNat ≤ ∑ id ∈ group.ids, chosen.count id ∧
        ∑ id ∈ group.ids, chosen.count id ≤ group.max.toNat := by
  have hcount : (chosen.filter fun id => group.options.any (·.id = id)).length =
      ∑ id ∈ group.ids, chosen.count id := by
    have hoffered : ∀ id, group.options.any (·.id = id) = decide (id ∈ group.ids) := by
      intro id
      rw [Bool.eq_iff_iff]
      simp [ids]
    rw [← Counts.countP_eq, List.countP_eq_length_filter]
    simp only [hoffered]
  unfold check
  rw [hcount]
  by_cases h : ∑ id ∈ group.ids, chosen.count id < group.min.toNat ∨
      group.max.toNat < ∑ id ∈ group.ids, chosen.count id
  · simp only [if_pos h, reduceCtorEq, false_iff]
    omega
  · simp only [if_neg h, true_iff]
    omega

/-- What a list of choices adds to one unit in one group. -/
def deltas (group : ModifierGroup) (chosen : List Uuid) : List Money :=
  chosen.filterMap fun id => (group.option id).map (·.priceDelta)

theorem mem_deltas {group : ModifierGroup} {chosen : List Uuid} {amount : Money} :
    amount ∈ group.deltas chosen ↔
      ∃ id ∈ chosen, ∃ option, group.option id = some option ∧ option.priceDelta = amount := by
  simp [deltas, Option.map_eq_some_iff]

/-- The deltas of a list come to each id's delta, as often as it is chosen. -/
theorem sum_deltas (group : ModifierGroup) (chosen : List Uuid) :
    ((group.deltas chosen).map (·.minor.val)).sum =
      ∑ id ∈ group.ids, (chosen.count id : ℤ) * group.delta id := by
  rw [← Counts.sum_map_eq fun _ => delta_of_not_mem]
  induction chosen with
  | nil => rfl
  | cons id rest ih =>
    rw [List.map_cons, List.sum_cons, ← ih]
    unfold deltas
    cases hoption : group.option id with
    | none =>
      rw [List.filterMap_cons_none (by rw [hoption]; rfl), delta, hoption, Option.elim_none,
        zero_add]
    | some option =>
      rw [List.filterMap_cons_some (by rw [hoption]; rfl), List.map_cons, List.sum_cons,
        delta_of_option hoption]

theorem length_deltas (group : ModifierGroup) (chosen : List Uuid) :
    (group.deltas chosen).length = ∑ id ∈ group.ids, chosen.count id := by
  have hoffered : ∀ id, ((group.option id).map (·.priceDelta)).isSome =
      decide (id ∈ group.ids) := by
    intro id
    rw [Bool.eq_iff_iff, Option.isSome_map, decide_eq_true_eq]
    constructor
    · intro h
      obtain ⟨option, hoption⟩ := Option.isSome_iff_exists.mp h
      exact (mem_of_option hoption).2.2
    · intro h
      exact Option.isSome_iff_exists.mpr (option_of_mem h)
  rw [deltas, List.length_filterMap_eq_countP, ← Counts.countP_eq]
  simp only [hoffered]

/-- The largest delta of a group, in either direction. -/
def largest (group : ModifierGroup) : ℕ :=
  (group.options.map fun option => option.priceDelta.minor.val.natAbs).foldr Max.max 0

/-- What the choices add in a group is no more than its largest delta as often as it allows. -/
theorem deltas_le {group : ModifierGroup} {chosen : List Uuid}
    (h : group.check chosen = .ok ()) :
    ((group.deltas chosen).map (·.minor.val.natAbs)).sum ≤ group.max.toNat * group.largest := by
  have heach : ∀ n ∈ (group.deltas chosen).map (·.minor.val.natAbs), n ≤ group.largest := by
    intro n hn
    obtain ⟨amount, hamount, rfl⟩ := List.mem_map.mp hn
    obtain ⟨id, -, option, hoption, rfl⟩ := mem_deltas.mp hamount
    exact List.le_max_of_le (List.mem_map_of_mem (mem_of_option hoption).1) le_rfl
  calc ((group.deltas chosen).map (·.minor.val.natAbs)).sum
      ≤ ((group.deltas chosen).map (·.minor.val.natAbs)).length • group.largest :=
        List.sum_le_card_nsmul _ _ heach
    _ = (∑ id ∈ group.ids, chosen.count id) * group.largest := by
        rw [List.length_map, length_deltas, smul_eq_mul]
    _ ≤ group.max.toNat * group.largest := Nat.mul_le_mul_right _ (check_eq_ok.mp h).2

/-- A group that validates asks for no more than it allows. -/
theorem validate_bounds {group : ModifierGroup} (h : group.validate = .ok ()) :
    group.min.toNat ≤ group.max.toNat := by
  unfold validate at h
  split at h
  · cases h
  split at h
  · cases h
  split at h
  · cases h
  split at h
  · cases h
  rename_i hbounds
  rw [not_or, UInt8.not_lt] at hbounds
  exact UInt8.le_iff_toNat_le.mp hbounds.2

end ModifierGroup

/-! ## Section 2: All the groups of a product -/

namespace Product

/-- What a list of choices adds to one unit, group by group. -/
def deltas (product : Product) (chosen : List Uuid) : List Money :=
  product.optionGroups.flatMap (·.deltas chosen)

/-- A list of choices that can be rung: as many from every group at once as it asks for, and a
    running price that stays in its currency and its range and does not end below zero. -/
structure Takes (product : Product) (chosen : List Uuid) : Prop where
  counts : ∀ group ∈ product.optionGroups, group.min.toNat ≤ ∑ id ∈ group.ids, chosen.count id ∧
    ∑ id ∈ group.ids, chosen.count id ≤ group.max.toNat
  addsUp : Money.AddsUp product.price.currency product.price.minor.val (product.deltas chosen)
  nonnegative : 0 ≤ product.price.minor.val + ((product.deltas chosen).map (·.minor.val)).sum

/-- A number of each option that can be taken: between the bounds of every group that offers it,
    in the currency of the product, and not below zero with the price. -/
structure Affords (product : Product) (taken : Uuid → ℕ) : Prop where
  counts : ∀ group ∈ product.optionGroups, group.min.toNat ≤ ∑ id ∈ group.ids, taken id ∧
    ∑ id ∈ group.ids, taken id ≤ group.max.toNat
  currency : ∀ group ∈ product.optionGroups, ∀ id option, group.option id = some option →
    0 < taken id → option.priceDelta.currency = product.price.currency
  nonnegative : 0 ≤ product.price.minor.val +
    (product.optionGroups.map fun group => ∑ id ∈ group.ids, (taken id : ℤ) * group.delta id).sum

/-- The furthest the choices can move the price. -/
def swing (product : Product) : ℕ :=
  (product.optionGroups.map fun group => group.max.toNat * group.largest).sum

/-- No choices take the price out of an `i64`. -/
def Moderate (product : Product) : Prop :=
  product.price.minor.val + product.swing < 9223372036854775808

/-- A product that validates has a price of zero or more, and groups with sound bounds. -/
theorem validate_eq_ok {product : Product} (h : product.validate = .ok ()) :
    0 ≤ product.price.minor.val ∧
      ∀ group ∈ product.optionGroups, group.min.toNat ≤ group.max.toNat := by
  unfold validate at h
  split at h
  · cases h
  split at h
  · cases h
  rename_i hprice
  split at h
  · cases h
  rw [Money.isNegative, decide_eq_true_eq, not_lt] at hprice
  refine ⟨hprice, fun group hgroup => ModifierGroup.validate_bounds ?_⟩
  exact forM_eq_ok.mp h group hgroup

theorem deltas_sum (product : Product) (chosen : List Uuid) :
    ((product.deltas chosen).map (·.minor.val)).sum =
      (product.optionGroups.map fun group =>
        ∑ id ∈ group.ids, (chosen.count id : ℤ) * group.delta id).sum := by
  unfold deltas
  induction product.optionGroups with
  | nil => rfl
  | cons group rest ih =>
    rw [List.flatMap_cons, List.map_append, List.sum_append, group.sum_deltas, ih, List.map_cons,
      List.sum_cons]

theorem deltas_le (product : Product) {chosen : List Uuid}
    (h : ∀ group ∈ product.optionGroups, group.check chosen = .ok ()) :
    ((product.deltas chosen).map (·.minor.val.natAbs)).sum ≤ product.swing := by
  unfold deltas swing
  generalize product.optionGroups = groups at h
  induction groups with
  | nil => simp
  | cons group rest ih =>
    obtain ⟨hgroup, hrest⟩ := List.forall_mem_cons.mp h
    rw [List.flatMap_cons, List.map_append, List.sum_append, List.map_cons, List.sum_cons]
    exact Nat.add_le_add (ModifierGroup.deltas_le hgroup) (ih hrest)

theorem mem_deltas {product : Product} {chosen : List Uuid} {amount : Money} :
    amount ∈ product.deltas chosen ↔ ∃ group ∈ product.optionGroups, ∃ id ∈ chosen,
      ∃ option, group.option id = some option ∧ option.priceDelta = amount := by
  simp only [deltas, List.mem_flatMap, ModifierGroup.mem_deltas]

/-- What is taken by a list is how often each option is in it. -/
theorem Takes.affords {product : Product} {chosen : List Uuid} (h : product.Takes chosen) :
    product.Affords fun id => chosen.count id where
  counts := h.counts
  currency group hgroup id option hoption htaken :=
    h.addsUp.currency _ (mem_deltas.mpr
      ⟨group, hgroup, id, List.count_pos_iff.mp htaken, option, hoption, rfl⟩)
  nonnegative := by
    rw [← deltas_sum]
    exact h.nonnegative

/-- Where no choices take the price out of range, what can be afforded can be taken in any
    order. -/
theorem Affords.takes {product : Product} {taken : Uuid → ℕ} (h : product.Affords taken)
    (hprice : 0 ≤ product.price.minor.val) (hmoderate : product.Moderate) :
    ∃ chosen, product.Takes chosen := by
  -- a list that names every option as often as it is taken
  obtain ⟨chosen, hchosen⟩ := Counts.exists_list
    (product.optionGroups.flatMap (·.options.map (·.id))).toFinset taken
  have hcount : ∀ group ∈ product.optionGroups, ∀ id ∈ group.ids, chosen.count id = taken id := by
    intro group hgroup id hid
    refine hchosen id (List.mem_toFinset.mpr (List.mem_flatMap.mpr ⟨group, hgroup, ?_⟩))
    exact List.mem_toFinset.mp hid
  have hcounts : ∀ group ∈ product.optionGroups, group.check chosen = .ok () := by
    intro group hgroup
    rw [ModifierGroup.check_eq_ok, Finset.sum_congr rfl (hcount group hgroup)]
    exact h.counts group hgroup
  refine ⟨chosen, fun group hgroup => ModifierGroup.check_eq_ok.mp (hcounts group hgroup), ?_, ?_⟩
  · -- moderate deltas cannot run over, however many of them there are
    have hswing := product.deltas_le hcounts
    refine Money.addsUp_of_bound ?_ ?_
    · intro amount hamount
      obtain ⟨group, hgroup, id, hid, option, hoption, rfl⟩ := mem_deltas.mp hamount
      refine h.currency group hgroup id option hoption ?_
      rw [← hcount group hgroup id (ModifierGroup.mem_of_option hoption).2.2]
      exact List.count_pos_iff.mpr hid
    · unfold Moderate at hmoderate
      omega
  · rw [deltas_sum]
    have hsame : (product.optionGroups.map fun group =>
        ∑ id ∈ group.ids, (chosen.count id : ℤ) * group.delta id) =
        product.optionGroups.map fun group => ∑ id ∈ group.ids, (taken id : ℤ) * group.delta id := by
      refine List.map_congr_left fun group hgroup => Finset.sum_congr rfl fun id hid => ?_
      rw [hcount group hgroup id hid]
    rw [hsame]
    exact h.nonnegative

end Product

/-! ## Section 3: Groups that share no option -/

namespace ModifierGroup

/-- The options an id can reach, in a currency. -/
def usable (group : ModifierGroup) (currency : Currency) : List ModifierOption :=
  group.options.filter fun option =>
    group.option option.id = some option ∧ option.priceDelta.currency = currency

/-- The usable option that adds most. -/
def dearest (group : ModifierGroup) (currency : Currency) : Option ModifierOption :=
  (group.usable currency).argmax (·.priceDelta.minor)

/-- The most a group can add to one unit, its bounds met. -/
def reach (group : ModifierGroup) (currency : Currency) : ℤ :=
  match group.dearest currency with
  | none => 0
  | some option => Counts.best group.min.toNat group.max.toNat option.priceDelta.minor.val

/-- How often to take an id of the group to add the most: only the dearest. -/
def share (group : ModifierGroup) (currency : Currency) (optionId : Uuid) : ℕ :=
  match group.dearest currency with
  | none => 0
  | some option =>
    if optionId = option.id then
      Counts.bestCount group.min.toNat group.max.toNat option.priceDelta.minor.val
    else 0

variable {group : ModifierGroup} {currency : Currency}

theorem mem_usable {option : ModifierOption} :
    option ∈ group.usable currency ↔
      group.option option.id = some option ∧ option.priceDelta.currency = currency := by
  simp only [usable, List.mem_filter, decide_eq_true_eq]
  exact ⟨fun h => h.2, fun h => ⟨(mem_of_option h.1).1, h⟩⟩

/-- No number of usable options that meets the bounds adds more than the reach. -/
theorem taken_le_reach {taken : Uuid → ℕ}
    (hcounts : group.min.toNat ≤ ∑ id ∈ group.ids, taken id ∧
      ∑ id ∈ group.ids, taken id ≤ group.max.toNat)
    (hcurrency : ∀ id option, group.option id = some option → 0 < taken id →
      option.priceDelta.currency = currency) :
    (0 < group.min.toNat → (group.dearest currency).isSome) ∧
      ∑ id ∈ group.ids, (taken id : ℤ) * group.delta id ≤ group.reach currency := by
  have husable : ∀ id ∈ group.ids, 0 < taken id → ∃ option ∈ group.usable currency,
      group.delta id = option.priceDelta.minor.val := by
    intro id hid htaken
    obtain ⟨option, hoption⟩ := option_of_mem hid
    have hself : group.option option.id = some option := by
      rw [(mem_of_option hoption).2.1, hoption]
    exact ⟨option, mem_usable.mpr ⟨hself, hcurrency id option hoption htaken⟩,
      delta_of_option hoption⟩
  cases hdearest : group.dearest currency with
  | none =>
    -- nothing is usable, so nothing is taken
    have hnone : ∀ id ∈ group.ids, taken id = 0 := by
      intro id hid
      by_contra htaken
      obtain ⟨option, hoption, -⟩ := husable id hid (Nat.pos_of_ne_zero htaken)
      rw [List.argmax_eq_none.mp hdearest] at hoption
      cases hoption
    have hzero : ∑ id ∈ group.ids, taken id = 0 := Finset.sum_eq_zero hnone
    have hworth : ∑ id ∈ group.ids, (taken id : ℤ) * group.delta id = 0 :=
      Finset.sum_eq_zero fun id hid => by rw [hnone id hid, Nat.cast_zero, zero_mul]
    rw [hworth, reach, hdearest]
    exact ⟨fun hmin => by omega, le_rfl⟩
  | some top =>
    refine ⟨fun _ => rfl, ?_⟩
    rw [reach, hdearest]
    refine Counts.weighted_le_best hcounts.1 hcounts.2 fun id hid htaken => ?_
    obtain ⟨option, hoption, hdelta⟩ := husable id hid htaken
    rw [hdelta, ← SInt.le_def]
    exact @List.le_of_mem_argmax _ _ _ (·.priceDelta.minor) _ _ _ hoption hdearest

theorem dearest_usable {option : ModifierOption} (h : group.dearest currency = some option) :
    group.option option.id = some option ∧ option.priceDelta.currency = currency :=
  mem_usable.mp (List.argmax_mem h)

/-- The share meets the bounds, where what is required can be had. -/
theorem share_counts (hbounds : group.min.toNat ≤ group.max.toNat)
    (hsome : 0 < group.min.toNat → (group.dearest currency).isSome) :
    group.min.toNat ≤ ∑ id ∈ group.ids, group.share currency id ∧
      ∑ id ∈ group.ids, group.share currency id ≤ group.max.toNat := by
  unfold share
  cases hdearest : group.dearest currency with
  | none =>
    have hmin : group.min.toNat = 0 := by
      by_contra hmin
      have hcontra := hsome (Nat.pos_of_ne_zero hmin)
      rw [hdearest] at hcontra
      cases hcontra
    simp only [Finset.sum_const_zero]
    omega
  | some option =>
    have hmem := (mem_of_option (dearest_usable hdearest).1).2.2
    simp only [Finset.sum_ite_eq', if_pos hmem]
    exact Counts.bestCount_bounds hbounds _

/-- The share comes to the reach. -/
theorem share_worth :
    ∑ id ∈ group.ids, (group.share currency id : ℤ) * group.delta id = group.reach currency := by
  unfold share reach
  cases hdearest : group.dearest currency with
  | none => simp
  | some option =>
    have hoption := (dearest_usable hdearest).1
    have hmem := (mem_of_option hoption).2.2
    simp only [Nat.cast_ite, Nat.cast_zero, ite_mul, zero_mul, Finset.sum_ite_eq', if_pos hmem]
    rw [delta_of_option hoption]
    rfl

theorem share_currency {id : Uuid} {option : ModifierOption}
    (hoption : group.option id = some option) (hshare : 0 < group.share currency id) :
    option.priceDelta.currency = currency := by
  unfold share at hshare
  cases hdearest : group.dearest currency with
  | none =>
    rw [hdearest] at hshare
    exact absurd hshare (Nat.lt_irrefl 0)
  | some top =>
    obtain ⟨htop, hcurrency⟩ := dearest_usable hdearest
    rw [hdearest] at hshare
    by_cases hid : id = top.id
    · rw [hid, htop, Option.some.injEq] at hoption
      rw [← hoption]
      exact hcurrency
    · simp only [if_neg hid] at hshare
      exact absurd hshare (Nat.lt_irrefl 0)

end ModifierGroup

namespace Product

/-- No two groups offer one option. -/
def Separate (product : Product) : Prop :=
  product.optionGroups.Pairwise fun group other => Disjoint group.ids other.ids

/-- Every group that asks for a choice has one in the product's currency, and the most that the
    groups can add leaves the price at zero or above. -/
def Payable (product : Product) : Prop :=
  (∀ group ∈ product.optionGroups, 0 < group.min.toNat →
    (group.dearest product.price.currency).isSome) ∧
    0 ≤ product.price.minor.val +
      (product.optionGroups.map (·.reach product.price.currency)).sum

instance (product : Product) : Decidable product.Moderate := inferInstanceAs (Decidable (_ < _))

instance (product : Product) : Decidable product.Separate :=
  inferInstanceAs (Decidable (List.Pairwise _ _))

instance (product : Product) : Decidable product.Payable := inferInstanceAs (Decidable (_ ∧ _))

/-- The group that offers an id, where the groups are separate. -/
theorem find?_of_separate {product : Product} (hseparate : product.Separate)
    {group : ModifierGroup} (hgroup : group ∈ product.optionGroups) {id : Uuid}
    (hid : id ∈ group.ids) :
    product.optionGroups.find? (fun group => decide (id ∈ group.ids)) = some group := by
  unfold Separate at hseparate
  generalize product.optionGroups = groups at hseparate hgroup
  induction groups with
  | nil => cases hgroup
  | cons first rest ih =>
    obtain ⟨hfirst, hrest⟩ := List.pairwise_cons.mp hseparate
    rcases List.mem_cons.mp hgroup with rfl | hgroup
    · exact List.find?_cons_of_pos (decide_eq_true hid)
    · have hother : id ∉ first.ids :=
        fun hmem => Finset.disjoint_left.mp (hfirst group hgroup) hmem hid
      rw [List.find?_cons_of_neg (by simpa using hother)]
      exact ih hrest hgroup

/-- Where the groups are separate each can be taken at its best, so that is what decides. -/
theorem affords_iff_payable {product : Product}
    (hbounds : ∀ group ∈ product.optionGroups, group.min.toNat ≤ group.max.toNat)
    (hseparate : product.Separate) : (∃ taken, product.Affords taken) ↔ product.Payable := by
  constructor
  · intro ⟨taken, h⟩
    -- no choice within the limits comes to more than the reach of its group
    have hreach : ∀ group ∈ product.optionGroups, _ := fun group hgroup =>
      ModifierGroup.taken_le_reach (h.counts group hgroup) (h.currency group hgroup)
    refine ⟨fun group hgroup => (hreach group hgroup).1, h.nonnegative.trans ?_⟩
    exact Int.add_le_add_left (List.sum_le_sum fun group hgroup => (hreach group hgroup).2) _
  · intro ⟨hsome, hprice⟩
    -- take of every group what reaches furthest; separate groups do not get in each other's way
    let taken : Uuid → ℕ := fun id =>
      (product.optionGroups.find? fun group => decide (id ∈ group.ids)).elim 0
        fun group => group.share product.price.currency id
    have htaken : ∀ group ∈ product.optionGroups, ∀ id ∈ group.ids,
        taken id = group.share product.price.currency id := by
      intro group hgroup id hid
      simp only [taken, find?_of_separate hseparate hgroup hid, Option.elim_some]
    refine ⟨taken, ?_, ?_, ?_⟩
    · intro group hgroup
      rw [Finset.sum_congr rfl (htaken group hgroup)]
      exact ModifierGroup.share_counts (hbounds group hgroup) (hsome group hgroup)
    · intro group hgroup id option hoption hpositive
      rw [htaken group hgroup id (ModifierGroup.mem_of_option hoption).2.2] at hpositive
      exact ModifierGroup.share_currency hoption hpositive
    · have hworth : (product.optionGroups.map fun group =>
          ∑ id ∈ group.ids, (taken id : ℤ) * group.delta id) =
          product.optionGroups.map (·.reach product.price.currency) := by
        refine List.map_congr_left fun group hgroup => ?_
        rw [← ModifierGroup.share_worth]
        exact Finset.sum_congr rfl fun id hid => by rw [htaken group hgroup id hid]
      rw [hworth]
      exact hprice

end Product

end Sahl
