import Mathlib.Tactic
import Sahl.Core.Discounts

/-! # Return lines under an order discount

    No discount of its own is taken off a return line. The order discount is clamped to the signed
    sum of the lines, but spread over them by magnitude, so that a return line can get a share of
    it, and is then refunded at more than it is worth.

    The main result is `returnsUntouched_iff`. -/

namespace Sahl

/-! ## Section 1: What is spread, and over what -/

namespace OrderInput

/-- What the first pass finds out about the lines. -/
def parts (order : OrderInput) : List LineParts :=
  (lineParts order.currency order.rounding 0 order.lines).toOption.getD []

/-- The magnitudes of the discounted lines. -/
def weights (order : OrderInput) : List Nat := order.parts.map (·.base.minor.val.natAbs)

/-- The order discount, clamped to the signed sum of the discounted lines. -/
def applied (order : OrderInput) : Nat :=
  match Money.trySum (order.parts.map (·.base)) order.currency with
  | .error _ => 0
  | .ok subtotal =>
    match order.orderDiscount.resolve subtotal order.rounding with
    | .error _ => 0
    | .ok discount => discount.minor.val.toNat

/-- No return line gets a unit of the order discount: in proportion to its magnitude it has less
    than a whole one, and the units left over all go to lines ahead of it. -/
def SparesReturns (order : OrderInput) : Prop :=
  ∀ (i : Nat) (part : LineParts), order.parts[i]? = some part → part.base.minor.val < 0 →
    Apportion.Spared order.applied order.weights i

end OrderInput

/-- An order discount that leaves return lines alone. -/
structure OrderTotals.ReturnsUntouched (mode : PricingMode) (totals : OrderTotals) : Prop where
  within : ∀ line ∈ totals.lines, 0 ≤ line.discount.minor.val ∧
    line.discount.minor.val ≤ max 0 line.gross.minor.val
  /-- A return line is refunded at exactly its own value. -/
  refunded : ∀ line ∈ totals.lines, line.gross.minor.val < 0 → line.discount.minor.val = 0 ∧
    (mode = .taxInclusive → line.total.minor = line.gross.minor) ∧
    (mode = .taxExclusive → line.net.minor = line.gross.minor)
  /-- The whole discount is on lines above zero. -/
  borne : ((totals.lines.filter (0 < ·.gross.minor.val)).map (·.discount.minor.val)).sum =
    totals.discount.minor.val

/-! ## Section 2: The shares of an order discount -/

/-- A share is no more than the magnitude of its line, and nothing exactly where that is spared. -/
theorem apportion_shares {amount : Money} {bases shares : List Money} {currency : Currency}
    (hamount : 0 ≤ amount.minor.val)
    (hle : amount.minor.val ≤ max 0 (bases.map (·.minor.val)).sum)
    (h : apportion amount bases currency = .ok shares) {i : Nat} {share base : Money}
    (hshare : shares[i]? = some share) (hbase : bases[i]? = some base) :
    0 ≤ share.minor.val ∧ share.minor.val ≤ base.minor.val.natAbs ∧
      (base.minor.val ≠ 0 → (share.minor.val = 0 ↔ Apportion.Spared amount.minor.val.toNat
        (bases.map (·.minor.val.natAbs)) i)) := by
  set weights := bases.map (·.minor.val.natAbs) with hweights
  have hweight : weights[i]? = some base.minor.val.natAbs := by
    rw [hweights, List.getElem?_map, hbase]
    rfl
  rcases apportion_cases hamount hle h with ⟨hnone, hshares⟩ | ⟨hweighted, hfits, hminor, -⟩
  · -- nothing is shared out: no line has a share, and one with a value is spared
    have hnothing : share = Money.zero currency := by
      rw [hshares] at hshare
      exact List.eq_of_mem_replicate (List.mem_of_getElem? hshare)
    have hzero : amount.minor.val = 0 := by
      rcases hnone with hzero | hempty
      · exact hzero
      · rw [hempty] at hbase
        cases hbase
    rw [hnothing]
    refine ⟨le_refl _, Int.natCast_nonneg _, fun hnonzero => iff_of_true rfl ⟨?_, ?_⟩⟩
    · rw [hzero, Int.toNat_zero, Nat.zero_mul]
      have := List.single_le_sum (fun n _ => Nat.zero_le n) _ (List.mem_of_getElem? hweight)
      omega
    · rw [hzero, Int.toNat_zero, Apportion.left]
      simp
  · rw [← hweights] at hweighted hfits hminor
    have hperm := Money.leftoverOrder_places amount.minor.val.toNat weights
    have hahead := Money.leftoverOrder_ahead amount.minor.val.toNat weights
    have hat := congrArg (·[i]?) hminor
    simp only [List.getElem?_map, hshare, Option.map_some] at hat
    obtain ⟨units, hunits, hvalue⟩ := Option.map_eq_some_iff.mp hat.symm
    rw [Int.ofNat_eq_natCast] at hvalue
    have hbound := Apportion.shares_le hweighted hfits hperm
      (Money.leftoverOrder_sorted _ _) hunits hweight
    refine ⟨by omega, by omega, fun _ => ?_⟩
    rw [← Apportion.shares_eq_zero_iff hweighted hperm hahead hunits, ← hvalue]
    exact Int.natCast_eq_zero

/-! ## Section 3: The lines -/

/-- A discount takes nothing off what is not above zero. -/
theorem Discount.resolve_of_nonpos {d : Discount} {base taken : Money} {rounding : Rounding}
    (hbase : base.minor.val ≤ 0) (h : d.resolve base rounding = .ok taken) :
    taken.minor.val = 0 := by
  have hnone : base.isNegative ∨ base.isZero := by
    simp only [Money.isNegative, Money.isZero, decide_eq_true_eq]
    omega
  unfold resolve at h
  rw [if_pos hnone] at h
  cases h
  rfl

/-- What is taken is within what it is taken from, which may be below zero. -/
theorem Discount.resolve_within {d : Discount} {base taken : Money} {rounding : Rounding}
    (h : d.resolve base rounding = .ok taken) :
    0 ≤ taken.minor.val ∧ taken.minor.val ≤ max 0 base.minor.val := by
  by_cases hbase : 0 ≤ base.minor.val
  · obtain ⟨hlow, hhigh⟩ := Discount.resolve_bounds hbase h
    omega
  · rw [Discount.resolve_of_nonpos (by omega) h]
    omega

/-- A line is below zero discounted exactly where it is so undiscounted. -/
theorem LineParts.Of.signs {rounding : Rounding} {line : LineInput} {part : LineParts}
    (h : LineParts.Of rounding line part) :
    0 ≤ part.discount.minor.val ∧ part.discount.minor.val ≤ max 0 part.gross.minor.val ∧
      part.base.minor.val = part.gross.minor.val - part.discount.minor.val := by
  obtain ⟨hlow, hhigh⟩ := Discount.resolve_within h.discount
  exact ⟨hlow, hhigh, (Money.checkedSub_eq_ok.mp h.base).2.2⟩

theorem settleLine_discount {mode : PricingMode} {rounding : Rounding} {line : LineInput}
    {part : LineParts} {share : Money} {t : LineTotals}
    (h : settleLine mode rounding line part share = .ok t) :
    t.discount.minor.val = part.discount.minor.val + share.minor.val := by
  simp only [settleLine, Except.bind_eq_ok, Except.mapError_eq_ok] at h
  obtain ⟨_, _, _, _, discount, hdiscount, _, _, h⟩ := h
  cases h
  exact (Money.checkedAdd_eq_ok.mp hdiscount).2.2

/-- The first pass and the order discount of a calculation that goes through. -/
theorem calculate_applied {order : OrderInput} {totals : OrderTotals}
    (h : calculate order = .ok totals) :
    ∃ orderDiscount shares groups, List.Forall₂ (LineParts.Of order.rounding) order.lines
        order.parts ∧
      0 ≤ orderDiscount.minor.val ∧ order.applied = orderDiscount.minor.val.toNat ∧
      orderDiscount.minor.val ≤ max 0 ((order.parts.map (·.base)).map (·.minor.val)).sum ∧
      apportion orderDiscount (order.parts.map (·.base)) order.currency = .ok shares ∧
      settleLines order.pricingMode order.rounding order.lines order.parts shares [] =
        .ok (totals.lines, groups) := by
  obtain ⟨parts, subtotal, orderDiscount, shares, groups, hparts, hsubtotal, hdiscount,
    happortion, hsettle, -⟩ := calculate_steps h
  have hfirst : order.parts = parts := by
    rw [OrderInput.parts, hparts]
    rfl
  have happlied : order.applied = orderDiscount.minor.val.toNat := by
    unfold OrderInput.applied
    rw [hfirst, hsubtotal]
    simp only [hdiscount]
  obtain ⟨hlow, hhigh⟩ := Discount.resolve_within hdiscount
  rw [(Money.trySum_isSum hsubtotal).2.minor] at hhigh
  rw [hfirst]
  exact ⟨orderDiscount, shares, groups, lineParts_of hparts, hlow, happlied, hhigh, happortion,
    hsettle⟩

/-- What a line of an order bears: its own discount, and a share of the order discount. -/
structure Bears (order : OrderInput) (i : Nat) (t : LineTotals) (part : LineParts) (share : Int) :
    Prop where
  at' : order.parts[i]? = some part
  gross : t.gross = part.gross
  discount : t.discount.minor.val = part.discount.minor.val + share
  own : 0 ≤ part.discount.minor.val ∧ part.discount.minor.val ≤ max 0 part.gross.minor.val
  base : part.base.minor.val = part.gross.minor.val - part.discount.minor.val
  share_le : 0 ≤ share ∧ share ≤ part.base.minor.val.natAbs
  spared : part.base.minor.val ≠ 0 →
    (share = 0 ↔ Apportion.Spared order.applied order.weights i)

theorem calculate_bears {order : OrderInput} {totals : OrderTotals}
    (h : calculate order = .ok totals) {i : Nat} {t : LineTotals} (ht : totals.lines[i]? = some t) :
    ∃ part share, Bears order i t part share := by
  obtain ⟨orderDiscount, shares, groups, hparts, hlow, happlied, hhigh, happortion, hsettle⟩ :=
    calculate_applied h
  obtain ⟨_, part, share, _, hpart, hshare, hsettles⟩ := (settleLines_at hsettle).2 i t ht
  obtain ⟨_, -, hof⟩ := forall₂_mem_right hparts (List.mem_of_getElem? hpart)
  obtain ⟨hown, hownLe, hbase⟩ := hof.signs
  have hbases : (order.parts.map (·.base))[i]? = some part.base := by
    rw [List.getElem?_map, hpart]
    rfl
  obtain ⟨hpos, hle, hspared⟩ := apportion_shares hlow hhigh happortion hshare hbases
  rw [← happlied, List.map_map] at hspared
  exact ⟨part, share.minor.val,
    { at' := hpart
      gross := settleLine_gross hsettles
      discount := settleLine_discount hsettles
      own := ⟨hown, hownLe⟩
      base := hbase
      share_le := ⟨hpos, hle⟩
      spared := hspared }⟩

theorem calculate_length {order : OrderInput} {totals : OrderTotals}
    (h : calculate order = .ok totals) : totals.lines.length = order.parts.length := by
  obtain ⟨_, _, _, hparts, _, _, _, _, hsettle⟩ := calculate_applied h
  rw [(settleLines_at hsettle).1, hparts.length_eq]

/-! ## Section 4: When return lines are left alone -/

/-- Discounts within the lines take nothing off a return line. -/
theorem returnsUntouched_of_within {mode : PricingMode} {totals : OrderTotals}
    (hexact : totals.Exact mode)
    (h : ∀ line ∈ totals.lines, 0 ≤ line.discount.minor.val ∧
      line.discount.minor.val ≤ max 0 line.gross.minor.val) : totals.ReturnsUntouched mode := by
  constructor
  case within => exact h
  case refunded =>
    intro line hline hreturn
    obtain ⟨hlow, hhigh⟩ := h line hline
    -- below zero the discount is between nothing and nothing
    have hnone : line.discount.minor.val = 0 := by omega
    have hwhole : ∀ {left : Money}, line.gross.checkedSub line.discount = .ok left →
        left.minor = line.gross.minor := by
      intro left hleft
      refine SInt.ext ?_
      rw [(Money.checkedSub_eq_ok.mp hleft).2.2, hnone, sub_zero]
    exact ⟨hnone, fun hmode => hwhole ((hexact.line line hline).inclusive hmode),
      fun hmode => hwhole ((hexact.line line hline).exclusive hmode)⟩
  case borne =>
    have hrest : ((totals.lines.filter fun line => ! decide (0 < line.gross.minor.val)).map
        fun line => line.discount.minor.val).sum = 0 := by
      refine List.sum_eq_zero fun n hn => ?_
      obtain ⟨line, hline, rfl⟩ := List.mem_map.mp hn
      obtain ⟨hmem, hreturn⟩ := List.mem_filter.mp hline
      obtain ⟨hlow, hhigh⟩ := h line hmem
      simp only [Bool.not_eq_true', decide_eq_false_iff_not] at hreturn
      omega
    have hall := sum_filter_add_not (fun line : LineTotals => decide (0 < line.gross.minor.val))
      (·.discount.minor.val) totals.lines
    rw [(Money.isSum_map.mp hexact.discount).2, ← hall, hrest, add_zero]

/-- **An order discount leaves return lines alone** exactly where none of them has a whole unit in
    proportion, nor is among those the units left over go to. -/
theorem returnsUntouched_iff {order : OrderInput} {totals : OrderTotals}
    (h : calculate order = .ok totals) :
    totals.ReturnsUntouched order.pricingMode ↔ order.SparesReturns := by
  constructor
  · intro huntouched i part hpart hreturn
    have hi : i < totals.lines.length := by
      rw [calculate_length h]
      exact (List.getElem?_eq_some_iff.mp hpart).1
    obtain ⟨part', share, hbears⟩ := calculate_bears h (List.getElem?_eq_getElem hi)
    have hsame : part' = part := Option.some.inj (hbears.at'.symm.trans hpart)
    subst hsame
    obtain ⟨-, hhigh⟩ := huntouched.within _ (List.getElem_mem hi)
    rw [hbears.gross, hbears.discount] at hhigh
    obtain ⟨hown, hownLe⟩ := hbears.own
    have hbase := hbears.base
    have hshare := hbears.share_le.1
    -- the line is below zero undiscounted, so its whole discount is nothing
    exact (hbears.spared hreturn.ne).mp (by omega)
  · intro hspares
    refine returnsUntouched_of_within (exact_of_calculate h) fun line hline => ?_
    obtain ⟨i, hi⟩ := List.getElem?_of_mem hline
    obtain ⟨part, share, hbears⟩ := calculate_bears h hi
    obtain ⟨hown, hownLe⟩ := hbears.own
    obtain ⟨hshare, hshareLe⟩ := hbears.share_le
    have hbase := hbears.base
    rw [hbears.gross, hbears.discount]
    by_cases hreturn : part.base.minor.val < 0
    · have hnone := (hbears.spared hreturn.ne).mpr (hspares i part hbears.at' hreturn)
      omega
    · omega

/-- An exchange: one thing bought for 100, another brought back for 50. -/
def exchange (orderDiscount : Discount) : OrderInput where
  currency := .bdt
  pricingMode := .taxInclusive
  rounding := .halfUp
  lines := [
    { unitPrice := ⟨I64.lit 10000, .bdt⟩, quantity := Quantity.one,
      taxClass := .standard ⟨I32.lit 1500⟩, discount := .none },
    { unitPrice := ⟨I64.lit 5000, .bdt⟩, quantity := ⟨I64.lit (-1000)⟩,
      taxClass := .standard ⟨I32.lit 1500⟩, discount := .none }]
  orderDiscount

theorem returnsUntouched_iff_exchange :
    ∃ totals, calculate (exchange (.amount ⟨I64.lit 1, .bdt⟩)) = .ok totals ∧
      (totals.ReturnsUntouched .taxInclusive ↔
        (exchange (.amount ⟨I64.lit 1, .bdt⟩)).SparesReturns) := by
  obtain ⟨totals, h⟩ := Except.isOkay_iff.mp
    (show (calculate (exchange (.amount ⟨I64.lit 1, .bdt⟩))).isOkay = true by decide)
  exact ⟨totals, h, returnsUntouched_iff h⟩

/-- Of ten per cent off the exchange, a third is paid out on what is brought back. -/
theorem exchange_raises_refund :
    ∃ totals, calculate (exchange (.percentage ⟨I32.lit 1000⟩)) = .ok totals ∧
      ¬ totals.ReturnsUntouched .taxInclusive := by
  obtain ⟨totals, h⟩ := Except.isOkay_iff.mp
    (show (calculate (exchange (.percentage ⟨I32.lit 1000⟩))).isOkay = true by decide)
  have hcut : (calculate (exchange (.percentage ⟨I32.lit 1000⟩))).toOption.all (fun totals =>
      totals.lines.any fun line => line.gross.minor.val < 0 ∧ 0 < line.discount.minor.val) := by
    decide
  rw [h] at hcut
  obtain ⟨line, hline, hshare⟩ := List.any_eq_true.mp hcut
  obtain ⟨hreturn, hpositive⟩ := of_decide_eq_true hshare
  refine ⟨totals, h, fun huntouched => ?_⟩
  have hnone := (huntouched.refunded line hline hreturn).1
  omega

end Sahl
