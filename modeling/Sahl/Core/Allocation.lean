import Mathlib.Tactic
import Sahl.Lib.Apportion
import Sahl.Core.Money

/-! # Splitting an amount by weights

    `Money::allocate` works on the magnitude of an amount and puts the sign back on every share.
    Step by step it computes an apportionment by largest remainder, and it is answered wherever
    every share fits (`allocate_eq_ok_iff`). What it answers is split without loss and fairly
    (`allocate_fair`). -/

namespace Sahl

namespace Money

/-! ## Section 1: The steps of the source -/

theorem u128_eq_some {n m : Nat} (h : u128? n = some m) : m = n := by
  unfold u128? at h
  split at h <;> simp_all

theorem foldlM_u128_eq_some {α : Type} {f : α → Nat} {xs : List α} {start total : Nat}
    (h : xs.foldlM (fun acc x => u128? (acc + f x)) start = some total) :
    total = start + (xs.map f).sum := by
  induction xs generalizing start with
  | nil =>
    cases h
    simp
  | cons x xs ih =>
    obtain ⟨next, hnext, hrest⟩ := Option.bind_eq_some_iff.mp h
    rw [ih hrest, u128_eq_some hnext, List.map_cons, List.sum_cons]
    omega

theorem leftoverOrder_perm (remainders : List Nat) :
    (leftoverOrder remainders).Perm (List.range remainders.length) :=
  List.perm_insertionSort _ _

theorem leftoverOrder_places (amount : Nat) (weights : List Nat) :
    (leftoverOrder (Apportion.left amount weights)).Perm (List.range weights.length) := by
  have hperm := leftoverOrder_perm (Apportion.left amount weights)
  have hlength : (Apportion.left amount weights).length = weights.length := List.length_map _
  rwa [hlength] at hperm

theorem leftoverOrder_ahead (amount : Nat) (weights : List Nat) :
    (leftoverOrder (Apportion.left amount weights)).Pairwise (Apportion.Ahead amount weights) := by
  set remainders := Apportion.left amount weights with hremainders
  let before : Nat → Nat → Prop := fun left right =>
    remainders.getD right 0 < remainders.getD left 0 ∨
      (remainders.getD right 0 = remainders.getD left 0 ∧ left ≤ right)
  have : Std.Total before := ⟨fun a b => by simp only [before]; omega⟩
  have : IsTrans Nat before := ⟨fun a b c => by simp only [before]; omega⟩
  have hsorted := List.pairwise_insertionSort before (List.range remainders.length)
  have hnodup : (leftoverOrder remainders).Nodup :=
    (leftoverOrder_perm remainders).nodup_iff.mpr List.nodup_range
  refine (hsorted.and hnodup).imp fun ⟨hbefore, hother⟩ => ?_
  rcases hbefore with h | ⟨heq, hle⟩
  · exact .inl h
  · exact .inr ⟨heq, lt_of_le_of_ne hle hother⟩

theorem leftoverOrder_sorted (amount : Nat) (weights : List Nat) :
    (leftoverOrder (Apportion.left amount weights)).Pairwise fun a b =>
      (Apportion.left amount weights).getD b 0 ≤ (Apportion.left amount weights).getD a 0 :=
  Apportion.sorted_of_ahead (leftoverOrder_ahead amount weights)

/-! ## Section 2: What is answered -/

theorem u128_lt {n m : Nat} (h : u128? n = some m) : m < 2 ^ 128 := by
  unfold u128? at h
  split at h
  · cases h
    assumption
  · cases h

theorem u128_of_lt {n : Nat} (h : n < 2 ^ 128) : u128? n = some n := if_pos h

theorem foldlM_u128_of_lt {α : Type} {f : α → Nat} {xs : List α} {start : Nat}
    (h : start + (xs.map f).sum < 2 ^ 128) :
    xs.foldlM (fun acc x => u128? (acc + f x)) start = some (start + (xs.map f).sum) := by
  induction xs generalizing start with
  | nil => rfl
  | cons x xs ih =>
    rw [List.map_cons, List.sum_cons] at h ⊢
    rw [List.foldlM_cons, u128_of_lt (by omega)]
    show xs.foldlM _ (start + f x) = _
    rw [ih (by omega), Nat.add_assoc]

/-- A sum that is answered is in range, as its start was. -/
theorem foldlM_u128_lt {α : Type} {f : α → Nat} {xs : List α} {start total : Nat}
    (hstart : start < 2 ^ 128)
    (h : xs.foldlM (fun acc x => u128? (acc + f x)) start = some total) : total < 2 ^ 128 := by
  induction xs generalizing start with
  | nil =>
    cases h
    exact hstart
  | cons x xs ih =>
    obtain ⟨next, hnext, hrest⟩ := Option.bind_eq_some_iff.mp h
    exact ih (u128_lt hnext) hrest

/-- Units go out without overflow where there is room for all of them on every share. -/
theorem foldlM_bumpShare_of_lt {positions shares : List Nat}
    (h : ∀ share ∈ shares, share + positions.length < 2 ^ 128) :
    positions.foldlM bumpShare shares = .ok (positions.foldl Apportion.bump shares) := by
  induction positions generalizing shares with
  | nil => rfl
  | cons i positions ih =>
    rw [List.length_cons] at h
    -- the first unit has room, on whichever share
    have hbump : bumpShare shares i = .ok (Apportion.bump shares i) := by
      unfold bumpShare Apportion.bump
      cases hshare : shares[i]? with
      | none => rw [List.modify_eq_self (by simpa using hshare)]
      | some share =>
        have hroom := h share (List.mem_of_getElem? hshare)
        simp only [u128_of_lt (show share + 1 < 2 ^ 128 by omega), Except.okOr, bind, Except.bind]
        rw [List.modify_eq_set_getElem?, hshare]
        rfl
    refine foldlM_cons_eq_ok.mpr ⟨_, hbump, ?_⟩
    rw [List.foldl_cons]
    refine ih fun share hshare => ?_
    obtain ⟨j, hj⟩ := List.mem_iff_getElem?.mp hshare
    rw [Apportion.bump, List.getElem?_modify] at hj
    obtain ⟨old, hold, hnew⟩ := Option.map_eq_some_iff.mp hj
    have hroom := h old (List.mem_of_getElem? hold)
    split at hnew
    all_goals omega

/-- The magnitudes of the shares of an amount. -/
def magnitudes (m : Money) (weights : List U64) : List Nat :=
  Apportion.shares m.minor.val.natAbs (weights.map (·.val))
    (leftoverOrder (Apportion.left m.minor.val.natAbs (weights.map (·.val))))

theorem natAbs_minor_le (m : Money) : m.minor.val.natAbs ≤ 2 ^ 63 := by
  have hlow := m.minor.lo'
  have hhigh := m.minor.hi'
  omega

/-- The product of an amount and a weight always fits. -/
theorem products_eq (m : Money) (weights : List U64) : weights.mapM (fun (weight : U64) =>
    Except.okOr (u128? (m.minor.val.natAbs * weight.val)) MoneyError.overflow) =
      .ok ((weights.map (·.val)).map (m.minor.val.natAbs * ·)) := by
  have hsmall := natAbs_minor_le m
  refine mapM_eq_ok.mpr ?_
  rw [List.map_map, List.forall₂_map_right_iff, List.forall₂_same]
  intro weight _
  have hproduct : m.minor.val.natAbs * weight.val ≤ 2 ^ 63 * (2 ^ 64 - 1) :=
    Nat.mul_le_mul hsmall (by omega)
  rw [u128_of_lt (by omega)]
  rfl

/-- Where the weights have a total, an amount is split as the apportionment says, and the sign is
    put back on every share. -/
theorem allocate_eq {m : Money} {weights : List U64} (hpositive : 0 < (weights.map (·.val)).sum)
    (hfits : (weights.map (·.val)).sum < 2 ^ 128) :
    m.allocate weights = (m.magnitudes weights).mapM (signedShare (m.minor.val < 0) m.currency) := by
  have hmagnitude : m.minor.unsignedAbs.val = m.minor.val.natAbs := rfl
  have hsmall := natAbs_minor_le m
  have hsome : ¬ weights.isEmpty = true := by
    rw [List.isEmpty_iff]
    rintro rfl
    exact absurd hpositive (by simp)
  have htotal : weights.foldlM (fun acc (weight : U64) => u128? (acc + weight.val)) 0 =
      some (weights.map (·.val)).sum := by
    rw [foldlM_u128_of_lt (by rw [Nat.zero_add]; exact hfits), Nat.zero_add]
  have hproducts := products_eq m weights
  have hwhole : ((weights.map (·.val)).map (m.minor.val.natAbs * ·)).map
      (· / (weights.map (·.val)).sum) =
        Apportion.whole m.minor.val.natAbs (weights.map (·.val)) := by
    rw [List.map_map]
    rfl
  have hleft : ((weights.map (·.val)).map (m.minor.val.natAbs * ·)).map
      (· % (weights.map (·.val)).sum) =
        Apportion.left m.minor.val.natAbs (weights.map (·.val)) := by
    rw [List.map_map]
    rfl
  -- what is rounded down leaves less than there are parts with a fraction
  have hrest := (Apportion.sum_left m.minor.val.natAbs hpositive).1
  set parts := Apportion.whole m.minor.val.natAbs (weights.map (·.val)) with hparts
  have hdistributed : parts.foldlM (fun acc share => u128? (acc + share)) 0 = some parts.sum := by
    have hsum := @foldlM_u128_of_lt Nat id parts 0 (by rw [List.map_id]; omega)
    rw [List.map_id, Nat.zero_add] at hsum
    exact hsum
  have hbumped := @foldlM_bumpShare_of_lt
    ((leftoverOrder (Apportion.left m.minor.val.natAbs (weights.map (·.val)))).take
      (m.minor.val.natAbs - parts.sum)) parts (by
    intro share hshare
    have hle := List.single_le_sum (fun _ _ => Nat.zero_le _) share hshare
    have htake := List.length_take_le (m.minor.val.natAbs - parts.sum)
      (leftoverOrder (Apportion.left m.minor.val.natAbs (weights.map (·.val))))
    omega)
  unfold allocate
  rw [if_neg hsome, htotal]
  simp only [Except.okOr, bind, Except.bind]
  rw [if_neg hpositive.ne', hmagnitude]
  simp only [Except.okOr] at hproducts
  simp only [hproducts, hwhole, hleft, hdistributed, if_pos hrest, hbumped]
  rfl

/-- Nothing is split over weights without a total. -/
theorem allocate_weights {m : Money} {weights : List U64} {shares : List Money}
    (h : m.allocate weights = .ok shares) :
    0 < (weights.map (·.val)).sum ∧ (weights.map (·.val)).sum < 2 ^ 128 := by
  unfold allocate at h
  split at h
  · cases h
  obtain ⟨total, htotal, h⟩ := Except.bind_eq_ok.mp h
  rw [Except.okOr_eq_ok] at htotal
  split at h
  · cases h
  rename_i hnonzero
  have hsum := foldlM_u128_eq_some htotal
  have hfits := foldlM_u128_lt (by norm_num) htotal
  rw [Nat.zero_add] at hsum
  rw [← hsum]
  exact ⟨Nat.pos_of_ne_zero hnonzero, hfits⟩

/-- A share of a magnitude, under the sign of the amount. -/
def Signed (m : Money) (magnitude : Nat) (share : Money) : Prop :=
  share.currency = m.currency ∧
    share.minor.val = if m.minor.val < 0 then -(magnitude : Int) else magnitude

/-- The sign is put back on every magnitude that an `i64` holds. -/
theorem signedShare_eq_ok {m share : Money} {magnitude : Nat} :
    signedShare (m.minor.val < 0) m.currency magnitude = .ok share ↔
      magnitude < 9223372036854775808 ∧ m.Signed magnitude share := by
  obtain ⟨minor, currency⟩ := share
  unfold signedShare Signed
  -- the magnitude is put in an `i64` before it is negated, whichever the sign
  by_cases hnegative : m.minor.val < 0
  · simp only [hnegative, decide_true, if_true, Except.bind_eq_ok, Except.okOr_eq_ok,
      SInt.ofInt?_eq_some, SInt.checkedNeg_eq_some]
    constructor
    · intro h
      obtain ⟨value, hvalue, found, hfound, h⟩ := h
      cases h
      have hhigh := value.hi'
      exact ⟨by omega, rfl, by rw [hfound, hvalue]⟩
    · intro h
      obtain ⟨hfits, hcurrency, hminor⟩ := h
      cases hcurrency
      exact ⟨I64.lit magnitude (decide_eq_true (by omega)), rfl, minor, hminor, rfl⟩
  · simp only [hnegative, decide_false, Bool.false_eq_true, if_false, Except.bind_eq_ok,
      Except.okOr_eq_ok, SInt.ofInt?_eq_some]
    constructor
    · intro h
      obtain ⟨value, hvalue, found, hfound, h⟩ := h
      have hhigh := I64.hi' value
      cases hfound
      cases h
      exact ⟨by omega, rfl, hvalue⟩
    · intro h
      obtain ⟨hfits, hcurrency, hminor⟩ := h
      cases hcurrency
      exact ⟨minor, hminor, minor, rfl, rfl⟩

/-- **What is answered, exactly**: an amount is split where the weights have a total and every
    share fits, and its shares are those of the apportionment under its sign. -/
theorem allocate_eq_ok_iff {m : Money} {weights : List U64} {shares : List Money} :
    m.allocate weights = .ok shares ↔
      (0 < (weights.map (·.val)).sum ∧ (weights.map (·.val)).sum < 2 ^ 128) ∧
        (∀ magnitude ∈ m.magnitudes weights, magnitude < 9223372036854775808) ∧
          List.Forall₂ m.Signed (m.magnitudes weights) shares := by
  constructor
  · intro h
    have hweights := allocate_weights h
    rw [allocate_eq hweights.1 hweights.2, mapM_eq_ok] at h
    refine ⟨hweights, ?_⟩
    rw [← List.forall₂_and_left]
    exact h.imp fun _ _ => signedShare_eq_ok.mp
  · intro h
    obtain ⟨hweights, hfits, hsigned⟩ := h
    rw [allocate_eq hweights.1 hweights.2, mapM_eq_ok]
    exact ((List.forall₂_and_left _ _).mpr ⟨hfits, hsigned⟩).imp fun _ _ => signedShare_eq_ok.mpr

/-- An amount that is not negative is split as the apportionment says. -/
theorem allocate_eq_ok {m : Money} {weights : List U64} {shares : List Money}
    (hpos : 0 ≤ m.minor.val) (h : m.allocate weights = .ok shares) :
    0 < (weights.map (·.val)).sum ∧
      shares.map (·.minor.val) = ((Apportion.shares m.minor.val.toNat (weights.map (·.val))
        (leftoverOrder (Apportion.left m.minor.val.toNat (weights.map (·.val))))).map Int.ofNat) ∧
      ∀ share ∈ shares, share.currency = m.currency := by
  obtain ⟨hweights, -, hsigned⟩ := allocate_eq_ok_iff.mp h
  have hmagnitude : m.minor.val.toNat = m.minor.val.natAbs := by omega
  rw [hmagnitude]
  refine ⟨hweights.1, ?_, ?_⟩
  · refine (forall₂_map_eq hsigned fun magnitude share hshare => ?_).symm
    rw [hshare.2, if_neg (by omega)]
    rfl
  · intro share hshare
    obtain ⟨magnitude, -, hsigned⟩ := forall₂_mem_right hsigned hshare
    exact hsigned.1

/-! ## Section 3: What a split is worth -/

/-- An amount split by weights without loss, and fairly. -/
structure FairSplit (m : Money) (weights : List U64) (shares : List Money) : Prop where
  /-- One share for each weight. -/
  length : shares.length = weights.length
  sum : m.IsSum shares
  sign : ∀ share ∈ shares,
    if m.minor.val < 0 then share.minor.val ≤ 0 else 0 ≤ share.minor.val
  /-- A share is its exact part rounded down or up, in magnitude. -/
  rounded : ∀ (i : Nat) (weight : U64) (share : Money), weights[i]? = some weight →
    shares[i]? = some share →
      let part := m.minor.val.natAbs * weight.val
      let total := (weights.map (·.val)).sum
      share.minor.val.natAbs = part / total ∨
        share.minor.val.natAbs = (part + (total - 1)) / total
  zero : ∀ (i : Nat) (weight : U64) (share : Money), weights[i]? = some weight →
    shares[i]? = some share → weight.val = 0 → share.minor.val = 0
  /-- A larger weight never has a smaller share. -/
  larger : ∀ (i j : Nat) (weight weight' : U64) (share share' : Money), weights[i]? = some weight →
    weights[j]? = some weight' → shares[i]? = some share → shares[j]? = some share' →
      weight.val < weight'.val → share.minor.val.natAbs ≤ share'.minor.val.natAbs

theorem Signed.natAbs {m share : Money} {magnitude : Nat} (h : m.Signed magnitude share) :
    share.minor.val.natAbs = magnitude := by
  rw [h.2]
  split
  all_goals omega

theorem Signed.sum {m : Money} {magnitudes : List Nat} {shares : List Money}
    (h : List.Forall₂ m.Signed magnitudes shares) : (shares.map (·.minor.val)).sum =
      if m.minor.val < 0 then -(magnitudes.sum : Int) else magnitudes.sum := by
  induction h with
  | nil => simp
  | cons hshare _ ih =>
    rw [List.map_cons, List.sum_cons, List.sum_cons, ih, hshare.2]
    split
    all_goals omega

/-- The magnitudes of the shares come to that of the amount. -/
theorem sum_magnitudes {m : Money} {weights : List U64}
    (hpositive : 0 < (weights.map (·.val)).sum) :
    (m.magnitudes weights).sum = m.minor.val.natAbs :=
  Apportion.sum_shares hpositive (leftoverOrder_places _ _)

/-- The magnitude of a share is its exact part rounded down or up, and a part that is whole stays
    as it is. -/
theorem magnitudes_near {m : Money} {weights : List U64} {i magnitude : Nat} {weight : U64}
    (hpositive : 0 < (weights.map (·.val)).sum)
    (hmagnitude : (m.magnitudes weights)[i]? = some magnitude)
    (hweight : weights[i]? = some weight) :
    magnitude = m.minor.val.natAbs * weight.val / (weights.map (·.val)).sum ∨
      0 < m.minor.val.natAbs * weight.val % (weights.map (·.val)).sum ∧
        magnitude = m.minor.val.natAbs * weight.val / (weights.map (·.val)).sum + 1 := by
  refine Apportion.share_near hpositive (leftoverOrder_places _ _) (leftoverOrder_sorted _ _)
    hmagnitude ?_
  rw [List.getElem?_map, hweight]
  rfl

theorem fairSplit {m : Money} {weights : List U64} {shares : List Money}
    (hpositive : 0 < (weights.map (·.val)).sum)
    (hsigned : List.Forall₂ m.Signed (m.magnitudes weights) shares) :
    m.FairSplit weights shares where
  length := by
    rw [← hsigned.length_eq, magnitudes, Apportion.length_shares, List.length_map]
  sum := by
    refine ⟨fun share hshare => ?_, ?_⟩
    · obtain ⟨_, -, hshare⟩ := forall₂_mem_right hsigned hshare
      exact hshare.1
    · rw [Signed.sum hsigned, sum_magnitudes hpositive]
      split
      all_goals omega
  sign := by
    intro share hshare
    obtain ⟨_, -, hshare⟩ := forall₂_mem_right hsigned hshare
    rw [hshare.2]
    split
    all_goals omega
  rounded := by
    intro i weight share hweight hshare
    obtain ⟨magnitude, hmagnitude, hshare⟩ := forall₂_getElem? hsigned hshare
    simp only
    rw [hshare.natAbs]
    rcases magnitudes_near hpositive hmagnitude hweight with hwhole | ⟨hfraction, hmore⟩
    · exact .inl hwhole
    · -- a part with a fraction is one below its ceiling
      right
      set part := m.minor.val.natAbs * weight.val
      set total := (weights.map (·.val)).sum
      have hsplit := Nat.div_add_mod part total
      rw [hmore, eq_comm, Nat.div_eq_iff hpositive, add_mul, one_mul, mul_comm]
      have hless := Nat.mod_lt part hpositive
      omega
  zero := by
    intro i weight share hweight hshare hzero
    obtain ⟨magnitude, hmagnitude, hshare⟩ := forall₂_getElem? hsigned hshare
    have hnear := magnitudes_near hpositive hmagnitude hweight
    rw [hzero, Nat.mul_zero, Nat.zero_div, Nat.zero_mod] at hnear
    have habs := hshare.natAbs
    omega
  larger := by
    intro i j weight weight' share share' hweight hweight' hshare hshare' hless
    obtain ⟨magnitude, hmagnitude, hshare⟩ := forall₂_getElem? hsigned hshare
    obtain ⟨magnitude', hmagnitude', hshare'⟩ := forall₂_getElem? hsigned hshare'
    rw [hshare.natAbs, hshare'.natAbs]
    refine Apportion.share_mono (leftoverOrder_places _ _) (leftoverOrder_ahead _ _) hmagnitude
      hmagnitude' ?_ ?_ hless
    · rw [List.getElem?_map, hweight]
      rfl
    · rw [List.getElem?_map, hweight']
      rfl

/-- A share of a magnitude that fits can be negated, and is then the share of that magnitude of the
    negated amount. -/
theorem Signed.neg {m negated share : Money} {magnitude : Nat} (h : m.Signed magnitude share)
    (hneg : m.checkedNeg = .ok negated) (hfits : magnitude < 9223372036854775808)
    (hle : magnitude ≤ m.minor.val.natAbs) :
    ∃ share', share.checkedNeg = .ok share' ∧ negated.Signed magnitude share' := by
  obtain ⟨minor, hminor, hneg⟩ := Except.bind_eq_ok.mp hneg
  cases hneg
  rw [Except.okOr_eq_ok, SInt.checkedNeg_eq_some] at hminor
  have habs := h.natAbs
  refine ⟨⟨I64.lit (-share.minor.val) (decide_eq_true (by omega)), share.currency⟩, ?_, h.1, ?_⟩
  · exact Except.bind_eq_ok.mpr ⟨_, Except.okOr_eq_ok.mpr (SInt.checkedNeg_eq_some.mpr rfl), rfl⟩
  · -- the sign turns, or there is nothing to share
    show -share.minor.val = if minor.val < 0 then _ else _
    rw [h.2, hminor]
    split
    all_goals
      split
      all_goals omega

/-- Every share of an amount can be negated, and they are then the shares of the negated amount. -/
theorem Signed.negAll {m negated : Money} {magnitudes : List Nat} {shares : List Money}
    (hneg : m.checkedNeg = .ok negated) (h : List.Forall₂ m.Signed magnitudes shares) :
    (∀ magnitude ∈ magnitudes, magnitude < 9223372036854775808) →
      (∀ magnitude ∈ magnitudes, magnitude ≤ m.minor.val.natAbs) →
      ∃ shares', List.Forall₂ negated.Signed magnitudes shares' ∧
        List.Forall₂ (fun share share' => share.checkedNeg = .ok share') shares shares' := by
  induction h with
  | nil => exact fun _ _ => ⟨[], .nil, .nil⟩
  | cons hshare _ ih =>
    intro hfits hle
    obtain ⟨hfit, hfits⟩ := List.forall_mem_cons.mp hfits
    obtain ⟨hone, hle⟩ := List.forall_mem_cons.mp hle
    obtain ⟨share', hnegated, hshare'⟩ := hshare.neg hneg hfit hone
    obtain ⟨shares', hsigned', hnegated'⟩ := ih hfits hle
    exact ⟨share' :: shares', .cons hshare' hsigned', .cons hnegated hnegated'⟩

/-- A negated amount is split as the amount is, every share negated. -/
theorem allocate_neg {m negated : Money} {weights : List U64} {shares : List Money}
    (h : m.allocate weights = .ok shares) (hneg : m.checkedNeg = .ok negated) :
    ∃ shares', negated.allocate weights = .ok shares' ∧
      List.Forall₂ (fun share share' => share.checkedNeg = .ok share') shares shares' := by
  obtain ⟨hweights, hfits, hsigned⟩ := allocate_eq_ok_iff.mp h
  have hsame : negated.magnitudes weights = m.magnitudes weights := by
    obtain ⟨minor, hminor, hneg⟩ := Except.bind_eq_ok.mp hneg
    cases hneg
    rw [Except.okOr_eq_ok, SInt.checkedNeg_eq_some] at hminor
    rw [magnitudes, magnitudes, hminor, Int.natAbs_neg]
  have hle : ∀ magnitude ∈ m.magnitudes weights, magnitude ≤ m.minor.val.natAbs := by
    intro magnitude hmagnitude
    exact (List.single_le_sum (fun _ _ => Nat.zero_le _) magnitude hmagnitude).trans
      (sum_magnitudes hweights.1).le
  obtain ⟨shares', hsigned', hnegated⟩ := Signed.negAll hneg hsigned hfits hle
  exact ⟨shares', allocate_eq_ok_iff.mpr ⟨hweights, hsame ▸ hfits, hsame ▸ hsigned'⟩, hnegated⟩

/-- **Money is split without loss and fairly**: what is allocated is a fair split of the amount,
    and that of the negated amount is the same with every share negated. -/
theorem allocate_fair {m : Money} {weights : List U64} {shares : List Money}
    (h : m.allocate weights = .ok shares) :
    m.FairSplit weights shares ∧ ∀ negated, m.checkedNeg = .ok negated →
      ∃ shares', negated.allocate weights = .ok shares' ∧
        List.Forall₂ (fun share share' => share.checkedNeg = .ok share') shares shares' := by
  obtain ⟨hweights, -, hsigned⟩ := allocate_eq_ok_iff.mp h
  exact ⟨fairSplit hweights.1 hsigned, fun _ => allocate_neg h⟩

/-- Ten taka in three, one part of which is a poisha more. -/
theorem allocate_thirds :
    ∃ shares, (⟨I64.lit 1000, .bdt⟩ : Money).allocate [1, 1, 1] = .ok shares ∧
      (⟨I64.lit 1000, .bdt⟩ : Money).FairSplit [1, 1, 1] shares ∧
      ∃ shares', (⟨I64.lit (-1000), .bdt⟩ : Money).allocate [1, 1, 1] = .ok shares' ∧
        List.Forall₂ (fun share share' => share.checkedNeg = .ok share') shares shares' := by
  obtain ⟨shares, hshares⟩ := Except.isOkay_iff.mp
    (show ((⟨I64.lit 1000, .bdt⟩ : Money).allocate [1, 1, 1]).isOkay = true by decide +kernel)
  obtain ⟨hfair, hnegated⟩ := allocate_fair hshares
  exact ⟨shares, hshares, hfair, hnegated _ (by decide)⟩

end Money

end Sahl
