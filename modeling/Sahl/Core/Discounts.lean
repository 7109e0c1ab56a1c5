import Mathlib.Tactic
import Sahl.Core.Allocation
import Sahl.Core.Tax

/-! # Discounts stay within what they discount

    Prices, quantities and tax rates that are not negative make an order in which no figure is,
    whatever the discounts are: each is clamped to what it is taken from, and no line's share of
    the order discount is more than the line (`calculate_bounded`). -/

namespace Sahl

/-! ## Section 1: Scaling nothing -/

namespace Money

/-- Scaling nothing is answered, with nothing. -/
theorem mulRatio_of_zero {m : Money} {numerator denominator : I64} {rounding : Rounding}
    (hm : m.minor.val = 0) (hd : 0 < denominator.val) :
    m.mulRatio numerator denominator rounding = .ok ⟨0, m.currency⟩ := by
  have hzero : (SInt.ofInt? 0 : Option I128) = some 0 := SInt.ofInt?_val 0
  have hminor : (SInt.ofInt? 0 : Option I64) = some 0 := SInt.ofInt?_val 0
  have hquotient : ∀ d : I128, 0 < d.val → divideRounded 0 d rounding = .ok 0 := by
    intro d hd
    unfold divideRounded
    rw [if_neg hd.ne']
    simp [SInt.checkedDiv, SInt.checkedRem, hd.ne', hzero, Except.okOr, bind, Except.bind]
  unfold mulRatio
  rw [hm, zero_mul, hzero]
  simp only [Except.okOr, bind, Except.bind]
  rw [hquotient _ hd]
  simp only [SInt.val_zero, hminor]

end Money

/-! ## Section 2: One discount -/

/-- What a discount asks for of `base`, before it is clamped. -/
def Discount.requested (d : Discount) (base : Money) (rounding : Rounding) :
    Except MoneyError Money :=
  match d with
  | .none => .ok (Money.zero base.currency)
  | .percentage rate => base.applyRate rate rounding
  | .amount fixed => .ok fixed

/-- The figure asked for, held between nothing and the base. -/
theorem clamp_eq_ok {ε : Type} {base asked taken : Money} (hbase : 0 ≤ base.minor.val)
    (hsame : asked.currency = base.currency)
    (h : (if asked.isNegative then Except.ok (Money.zero base.currency)
      else if base.minor < asked.minor then .ok base else .ok asked : Except ε Money) = .ok taken) :
    taken.currency = base.currency ∧
      taken.minor.val = max 0 (min asked.minor.val base.minor.val) := by
  by_cases hnegative : asked.minor.val < 0
  · rw [if_pos (by simpa [Money.isNegative] using hnegative)] at h
    cases h
    refine ⟨rfl, ?_⟩
    show (0 : Int) = _
    omega
  · rw [if_neg (by simpa [Money.isNegative] using hnegative)] at h
    by_cases hmore : base.minor.val < asked.minor.val
    · rw [if_pos (SInt.lt_def.mpr hmore)] at h
      cases h
      exact ⟨rfl, by omega⟩
    · rw [if_neg (by rw [SInt.lt_def]; exact hmore)] at h
      cases h
      exact ⟨hsame, by omega⟩

/-- A discount takes off what it asks for, clamped to between nothing and its base. -/
theorem Discount.resolve_eq_ok {d : Discount} {base taken : Money} {rounding : Rounding}
    (hbase : 0 ≤ base.minor.val) (h : d.resolve base rounding = .ok taken) :
    taken.currency = base.currency ∧ ∃ asked, d.requested base rounding = .ok asked ∧
      taken.minor.val = max 0 (min asked.minor.val base.minor.val) := by
  unfold resolve at h
  by_cases hnone : base.minor.val = 0
  · rw [if_pos (by simp [Money.isZero, hnone])] at h
    cases h
    -- off nothing comes nothing, whatever is asked for
    have hclamp : ∀ n : Int, (Money.zero base.currency).minor.val = max 0 (min n base.minor.val) := by
      intro n
      show (0 : Int) = _
      omega
    refine ⟨rfl, ?_⟩
    cases d with
    | none => exact ⟨_, rfl, hclamp _⟩
    | percentage rate => exact ⟨_, Money.mulRatio_of_zero hnone (by decide), hclamp _⟩
    | amount fixed => exact ⟨_, rfl, hclamp _⟩
  · have hsome : ¬ (base.isNegative ∨ base.isZero) := by
      simp only [Money.isNegative, Money.isZero, decide_eq_true_eq]
      omega
    rw [if_neg hsome] at h
    cases d with
    | none =>
      obtain ⟨hcurrency, htaken⟩ :=
        @clamp_eq_ok _ base (Money.zero base.currency) _ hbase rfl h
      exact ⟨hcurrency, _, rfl, htaken⟩
    | percentage rate =>
      simp only [Except.bind_eq_ok, Except.mapError_eq_ok] at h
      obtain ⟨asked, hasked, h⟩ := h
      obtain ⟨hcurrency, htaken⟩ := clamp_eq_ok hbase (Money.mulRatio_currency hasked) h
      exact ⟨hcurrency, asked, hasked, htaken⟩
    | amount fixed =>
      simp only at h
      split at h
      · cases h
      · rename_i hsame
        obtain ⟨hcurrency, htaken⟩ := clamp_eq_ok hbase (not_not.mp hsame) h
        exact ⟨hcurrency, fixed, rfl, htaken⟩

theorem Discount.resolve_bounds {d : Discount} {base taken : Money} {rounding : Rounding}
    (hbase : 0 ≤ base.minor.val) (h : d.resolve base rounding = .ok taken) :
    0 ≤ taken.minor.val ∧ taken.minor.val ≤ base.minor.val := by
  obtain ⟨-, asked, -, htaken⟩ := Discount.resolve_eq_ok hbase h
  omega

/-! ## Section 3: The order discount over the lines -/

/-- An order discount is shared out by the magnitudes of the lines, unless there is nothing to
    share or no line. -/
theorem apportion_cases {amount : Money} {bases shares : List Money} {currency : Currency}
    (hamount : 0 ≤ amount.minor.val)
    (hle : amount.minor.val ≤ max 0 (bases.map (·.minor.val)).sum)
    (h : apportion amount bases currency = .ok shares) :
    (amount.minor.val = 0 ∨ bases = []) ∧
        shares = List.replicate bases.length (Money.zero currency) ∨
      0 < (bases.map (·.minor.val.natAbs)).sum ∧
        amount.minor.val.toNat ≤ (bases.map (·.minor.val.natAbs)).sum ∧
        shares.map (·.minor.val) =
          (Apportion.shares amount.minor.val.toNat (bases.map (·.minor.val.natAbs))
            (Money.leftoverOrder (Apportion.left amount.minor.val.toNat
              (bases.map (·.minor.val.natAbs))))).map Int.ofNat ∧
        ∀ share ∈ shares, share.currency = amount.currency := by
  have hweights : (bases.map fun base => base.minor.unsignedAbs).map (·.val) =
      bases.map (·.minor.val.natAbs) := by
    rw [List.map_map]
    rfl
  have hsum : (bases.map (·.minor.val)).sum ≤ (bases.map (·.minor.val.natAbs)).sum := by
    rw [Nat.cast_list_sum, List.map_map]
    exact List.sum_le_sum fun b _ => Int.le_natAbs
  unfold apportion at h
  by_cases hnone : amount.isZero ∨ bases.isEmpty
  · rw [if_pos hnone] at h
    cases h
    simp only [Money.isZero, decide_eq_true_eq, List.isEmpty_iff] at hnone
    exact .inl ⟨hnone, rfl⟩
  · rw [if_neg hnone] at h
    have hpositive : 0 < amount.minor.val := by
      simp only [Money.isZero, decide_eq_true_eq, not_or] at hnone
      omega
    -- there is something to take off, so the lines are not all zero-valued
    have hweighted : ¬ (bases.map fun base => base.minor.unsignedAbs).all (· = 0) := by
      intro hall
      have hnothing : (bases.map (·.minor.val.natAbs)).sum = 0 := by
        rw [← hweights, List.sum_eq_zero_iff]
        intro n hn
        obtain ⟨weight, hweight, rfl⟩ := List.mem_map.mp hn
        rw [of_decide_eq_true (List.all_eq_true.mp hall weight hweight)]
        rfl
      omega
    simp only [if_neg hweighted, Except.mapError_eq_ok] at h
    obtain ⟨htotal, hminor, hcurrency⟩ := Money.allocate_eq_ok hamount h
    rw [hweights] at htotal hminor
    exact .inr ⟨htotal, by omega, hminor, hcurrency⟩

/-- Nothing is split into nothings. -/
theorem apportion_zero {amount : Money} {bases : List Money}
    (hbases : ∀ base ∈ bases, 0 ≤ base.minor.val) (hzero : amount.minor.val = 0) :
    let shares := List.replicate bases.length (Money.zero amount.currency)
    amount.IsSum shares ∧ List.Forall₂
      (fun share base => 0 ≤ share.minor.val ∧ share.minor.val ≤ base.minor.val) shares bases := by
  intro shares
  refine ⟨⟨fun share hshare => ?_, ?_⟩, ?_⟩
  · rw [List.eq_of_mem_replicate hshare]
    rfl
  · rw [hzero, List.map_replicate]
    simp [Money.zero]
  · rw [List.forall₂_iff_get]
    refine ⟨List.length_replicate, fun i hi hbase => ?_⟩
    have hnothing : (shares.get ⟨i, hi⟩).minor.val = 0 := by
      simp [shares, Money.zero]
    have := hbases _ (List.get_mem bases ⟨i, hbase⟩)
    omega

/-- An order discount no larger than the lines is split exactly, each share within its line. -/
theorem apportion_eq_ok {amount : Money} {bases shares : List Money}
    (hbases : ∀ base ∈ bases, 0 ≤ base.minor.val) (hamount : 0 ≤ amount.minor.val)
    (hle : amount.minor.val ≤ (bases.map (·.minor.val)).sum)
    (h : apportion amount bases amount.currency = .ok shares) :
    amount.IsSum shares ∧ List.Forall₂
      (fun share base => 0 ≤ share.minor.val ∧ share.minor.val ≤ base.minor.val) shares bases := by
  rcases apportion_cases hamount (hle.trans (le_max_right _ _)) h with
    ⟨hnone, rfl⟩ | ⟨hweighted, hfits, hminor, hcurrency⟩
  · -- without weights there is nothing to share out
    refine apportion_zero hbases ?_
    rcases hnone with hzero | hempty
    · exact hzero
    · rw [hempty, List.map_nil, List.sum_nil] at hle
      omega
  · set weights := bases.map (·.minor.val.natAbs) with hweights
    have hperm := Money.leftoverOrder_places amount.minor.val.toNat weights
    have hsorted := Money.leftoverOrder_sorted amount.minor.val.toNat weights
    refine ⟨⟨hcurrency, ?_⟩, ?_⟩
    · have hcast : ∀ ns : List Nat, (ns.map Int.ofNat).sum = (ns.sum : Nat) := fun ns =>
        (Nat.cast_list_sum ns).symm
      rw [hminor, hcast, Apportion.sum_shares hweighted hperm]
      omega
    · have hlength : shares.length = bases.length := by
        have := congrArg List.length hminor
        simpa [Apportion.length_shares, hweights] using this
      rw [List.forall₂_iff_get]
      refine ⟨hlength, fun i hi hbase => ?_⟩
      have hat := congrArg (·[i]?) hminor
      simp only [List.getElem?_map, List.getElem?_eq_getElem hi, Option.map_some] at hat
      obtain ⟨share, hshare, hvalue⟩ := Option.map_eq_some_iff.mp hat.symm
      have hweight : weights[i]? = some (bases.get ⟨i, hbase⟩).minor.val.natAbs := by
        simp [hweights, hbase]
      have hbound := Apportion.shares_le hweighted hfits hperm hsorted hshare hweight
      have hpos := hbases _ (List.get_mem bases ⟨i, hbase⟩)
      show 0 ≤ shares[i].minor.val ∧ shares[i].minor.val ≤ _
      rw [← hvalue, Int.ofNat_eq_natCast]
      omega

/-! ## Section 4: The lines -/

/-- Price, quantity and tax rate are not negative. The discount may be anything. -/
structure LineInput.NonNegative (line : LineInput) : Prop where
  unitPrice : 0 ≤ line.unitPrice.minor.val
  quantity : 0 ≤ line.quantity.milli.val
  rate : 0 ≤ line.taxClass.rate.basisPoints.val

def OrderInput.NonNegative (order : OrderInput) : Prop :=
  ∀ line ∈ order.lines, line.NonNegative

/-- A first-pass record takes off no less than nothing and no more than there is. -/
structure LineParts.Bounded (p : LineParts) : Prop where
  discount : 0 ≤ p.discount.minor.val
  base : 0 ≤ p.base.minor.val

theorem lineParts_bounded {currency : Currency} {rounding : Rounding} {index : Nat}
    {lines : List LineInput} {parts : List LineParts} (hpos : ∀ line ∈ lines, line.NonNegative)
    (h : lineParts currency rounding index lines = .ok parts) :
    parts.length = lines.length ∧ ∀ p ∈ parts, p.Bounded := by
  induction lines generalizing index parts with
  | nil =>
    simp only [lineParts] at h
    cases h
    simp
  | cons line rest ih =>
    obtain ⟨hline, hrest⟩ := List.forall_mem_cons.mp hpos
    simp only [lineParts] at h
    split at h
    · cases h
    · simp only [Except.bind_eq_ok, Except.mapError_eq_ok] at h
      obtain ⟨gross, hgross, discount, hdiscount, base, hbase, restParts, hparts, h⟩ := h
      cases h
      obtain ⟨hlength, hbounded⟩ := ih hrest hparts
      -- a gross that is not negative bounds the discount on it, and leaves a base
      have hgrossPos : 0 ≤ gross.minor.val :=
        (Money.mulRatio_rounds (by decide) hgross).quotient.nonneg
          (mul_nonneg hline.unitPrice hline.quantity)
      obtain ⟨hlow, hhigh⟩ := Discount.resolve_bounds hgrossPos hdiscount
      have hleft := (Money.checkedSub_eq_ok.mp hbase).2.2
      refine ⟨by simp [hlength], List.forall_mem_cons.mpr ⟨⟨hlow, ?_⟩, hbounded⟩⟩
      show 0 ≤ base.minor.val
      omega

/-- Tax on an amount that is not negative is not negative, and leaves a net that is not. -/
theorem resolveTax_bounds {taxable net tax : Money} {taxClass : TaxClass} {mode : PricingMode}
    {rounding : Rounding} (htaxable : 0 ≤ taxable.minor.val)
    (hrate : 0 ≤ taxClass.rate.basisPoints.val)
    (h : resolveTax taxable taxClass mode rounding = .ok (net, tax)) :
    0 ≤ net.minor.val ∧ 0 ≤ tax.minor.val := by
  have hscaled : 0 ≤ taxable.minor.val * taxClass.rate.basisPoints.val :=
    mul_nonneg htaxable hrate
  unfold resolveTax at h
  simp only at h
  split at h
  · cases h
    exact ⟨htaxable, le_refl _⟩
  · cases mode with
    | taxExclusive =>
      simp only [Except.bind_eq_ok, Except.mapError_eq_ok] at h
      obtain ⟨_, htax, h⟩ := h
      cases h
      exact ⟨htaxable, (Money.mulRatio_rounds (by decide) htax).quotient.nonneg hscaled⟩
    | taxInclusive =>
      simp only [Except.bind_eq_ok, Except.mapError_eq_ok, Except.okOr_eq_ok,
        SInt.checkedAdd_eq_some] at h
      obtain ⟨denominator, hdenominator, _, htax, _, hnet, h⟩ := h
      cases h
      have hsum : denominator.val = 10000 + taxClass.rate.basisPoints.val := hdenominator
      have hrounds := (Money.mulRatio_rounds (by omega) htax).quotient
      -- the tax is a part of the amount, since the rate is a part of the denominator
      have hpart : tax.minor.val ≤ taxable.minor.val := by
        refine hrounds.le (Int.mul_le_mul_of_nonneg_left ?_ htaxable)
        show taxClass.rate.basisPoints.val ≤ denominator.val
        omega
      have hleft := (Money.checkedSub_eq_ok.mp hnet).2.2
      exact ⟨by omega, hrounds.nonneg hscaled⟩

/-- A line with no figure below zero and no discount beyond its gross. -/
structure LineTotals.Bounded (t : LineTotals) : Prop where
  discount : 0 ≤ t.discount.minor.val
  discount_le : t.discount.minor.val ≤ t.gross.minor.val
  net : 0 ≤ t.net.minor.val
  tax : 0 ≤ t.tax.minor.val
  total : 0 ≤ t.total.minor.val

theorem settleLine_bounded {currency : Currency} {mode : PricingMode} {rounding : Rounding}
    {line : LineInput} {parts : LineParts} {share : Money} {t : LineTotals}
    (hline : line.NonNegative) (hparts : parts.Bounded) (hbase : parts.Consistent currency)
    (hshare : 0 ≤ share.minor.val ∧ share.minor.val ≤ parts.base.minor.val)
    (h : settleLine mode rounding line parts share = .ok t) :
    t.Bounded ∧ t.discount.minor.val = parts.discount.minor.val + share.minor.val := by
  simp only [settleLine, Except.bind_eq_ok, Except.mapError_eq_ok] at h
  obtain ⟨taxable, htaxable, ⟨net, tax⟩, hres, discount, hdiscount, total, htotal, h⟩ := h
  cases h
  have htaxable := (Money.checkedSub_eq_ok.mp htaxable).2.2
  have hdiscount := (Money.checkedAdd_eq_ok.mp hdiscount).2.2
  have htotal := (Money.checkedAdd_eq_ok.mp htotal).2.2
  have hbase := (Money.checkedSub_eq_ok.mp hbase.base).2.2
  have hown := hparts.discount
  obtain ⟨hnet, htax⟩ := resolveTax_bounds (by omega) hline.rate hres
  refine ⟨⟨?_, ?_, hnet, htax, ?_⟩, hdiscount⟩
  · show 0 ≤ discount.minor.val
    omega
  · show discount.minor.val ≤ parts.gross.minor.val
    omega
  · show 0 ≤ total.minor.val
    simp only at htotal
    omega

theorem settleLines_bounded {currency : Currency} {mode : PricingMode} {rounding : Rounding}
    {inputs : List LineInput} {parts : List LineParts} {shares : List Money}
    {groups groups' : List TaxGroup} {lines : List LineTotals}
    (hpos : ∀ line ∈ inputs, line.NonNegative) (hlength : parts.length = inputs.length)
    (hparts : ∀ p ∈ parts, p.Bounded ∧ p.Consistent currency)
    (hshares : List.Forall₂ (fun share part =>
      0 ≤ share.minor.val ∧ share.minor.val ≤ part.base.minor.val) shares parts)
    (h : settleLines mode rounding inputs parts shares groups = .ok (lines, groups')) :
    (∀ t ∈ lines, t.Bounded) ∧
      lines.map (·.discount.minor.val) = List.zipWith
        (fun part share => part.discount.minor.val + share.minor.val) parts shares := by
  -- the inputs, their parts and their shares are walked together
  induction inputs generalizing parts shares groups lines with
  | nil =>
    rw [List.length_nil, List.length_eq_zero_iff] at hlength
    simp only [settleLines] at h
    cases h
    simp [hlength]
  | cons input rest ih =>
    cases parts with
    | nil => simp [settleLines] at h
    | cons part restParts =>
      cases shares with
      | nil => simp [settleLines] at h
      | cons share restShares =>
        simp only [settleLines, Except.bind_eq_ok] at h
        obtain ⟨t, ht, groups₁, _, ⟨settled, groups₂⟩, hrest, h⟩ := h
        cases h
        obtain ⟨hinput, hinputs⟩ := List.forall_mem_cons.mp hpos
        obtain ⟨hpart, hrestParts⟩ := List.forall_mem_cons.mp hparts
        obtain ⟨hshare, hrestShares⟩ := List.forall₂_cons.mp hshares
        obtain ⟨hbounded, hdiscount⟩ := settleLine_bounded hinput hpart.1 hpart.2 hshare ht
        obtain ⟨hall, hdiscounts⟩ :=
          ih hinputs (by simpa using hlength) hrestParts hrestShares hrest
        refine ⟨List.forall_mem_cons.mpr ⟨hbounded, hall⟩, ?_⟩
        rw [List.map_cons, List.zipWith_cons_cons, hdiscount, hdiscounts]

/-! ## Section 5: Discounts off anything -/

/-- Nothing is taken off a base below zero. -/
theorem Discount.resolve_range {d : Discount} {base taken : Money} {rounding : Rounding}
    (h : d.resolve base rounding = .ok taken) :
    0 ≤ taken.minor.val ∧ taken.minor.val ≤ max 0 base.minor.val := by
  by_cases hbase : 0 ≤ base.minor.val
  · obtain ⟨hlow, hhigh⟩ := Discount.resolve_bounds hbase h
    exact ⟨hlow, hhigh.trans (le_max_right _ _)⟩
  · have hnegative : base.isNegative ∨ base.isZero := by
      simp only [Money.isNegative, decide_eq_true_eq]
      omega
    rw [Discount.resolve, if_pos hnegative] at h
    cases h
    exact ⟨le_refl _, le_max_left _ _⟩

/-- No line's share of an order discount is below zero. -/
theorem apportion_nonneg {amount : Money} {bases shares : List Money} {currency : Currency}
    (hamount : 0 ≤ amount.minor.val)
    (hle : amount.minor.val ≤ max 0 (bases.map (·.minor.val)).sum)
    (h : apportion amount bases currency = .ok shares) {share : Money} (hshare : share ∈ shares) :
    0 ≤ share.minor.val := by
  rcases apportion_cases hamount hle h with ⟨-, rfl⟩ | ⟨-, -, hminor, -⟩
  · rw [List.eq_of_mem_replicate hshare]
    exact le_refl _
  · have hmem : share.minor.val ∈ shares.map (·.minor.val) := List.mem_map_of_mem hshare
    rw [hminor] at hmem
    obtain ⟨n, -, hn⟩ := List.mem_map.mp hmem
    rw [← hn]
    exact Int.natCast_nonneg n

/-- Whatever an order's lines come to, what is taken off it is not below zero. -/
theorem calculate_discount_nonneg {order : OrderInput} {totals : OrderTotals}
    (h : calculate order = .ok totals) : 0 ≤ totals.discount.minor.val := by
  obtain ⟨parts, subtotal, taken, shares, groups, hparts, hsubtotal, htaken, happortion, hsettle,
    -⟩ := calculate_steps h
  obtain ⟨hlow, hhigh⟩ := Discount.resolve_range htaken
  rw [(Money.trySum_isSum hsubtotal).2.minor] at hhigh
  rw [(exact_of_calculate h).discount.minor, List.map_map]
  refine List.sum_nonneg fun n hn => ?_
  obtain ⟨line, hline, rfl⟩ := List.mem_map.mp hn
  obtain ⟨i, hi⟩ := List.mem_iff_getElem?.mp hline
  obtain ⟨input, part, share, -, hpart, hshare, hline⟩ := (settleLines_at hsettle).2 i line hi
  -- a line's discount is its own and its share of the order's
  have hdiscount : line.discount.minor.val = part.discount.minor.val + share.minor.val := by
    simp only [settleLine, Except.bind_eq_ok, Except.mapError_eq_ok] at hline
    obtain ⟨_, _, _, _, discount, hadd, _, _, hline⟩ := hline
    cases hline
    exact (Money.checkedAdd_eq_ok.mp hadd).2.2
  have hpartMem : part ∈ parts := List.mem_of_getElem? hpart
  obtain ⟨_, -, hof⟩ := forall₂_mem_right (lineParts_of hparts) hpartMem
  have hown := (Discount.resolve_range hof.discount).1
  have hgiven := apportion_nonneg hlow hhigh happortion (List.mem_of_getElem? hshare)
  show 0 ≤ line.discount.minor.val
  omega

/-! ## Section 6: The order -/

/-- How the order discount was found and split: what the first pass left of the lines, what was
    asked of their sum, what was taken, and each line's share of it on top of its own discount. -/
structure DiscountSplit (order : OrderInput) (totals : OrderTotals) where
  parts : List LineParts
  subtotal : Money
  asked : Money
  taken : Money
  shares : List Money
  first_pass : lineParts order.currency order.rounding 0 order.lines = .ok parts
  subtotal_sum : subtotal.IsSum (parts.map (·.base))
  requested : order.orderDiscount.requested subtotal order.rounding = .ok asked
  clamped : taken.minor.val = max 0 (min asked.minor.val subtotal.minor.val)
  split : taken.IsSum shares
  within : List.Forall₂ (fun share part =>
    0 ≤ share.minor.val ∧ share.minor.val ≤ part.base.minor.val) shares parts
  gross : totals.lines.map (·.gross) = parts.map (·.gross)
  discount : totals.lines.map (·.discount.minor.val) = List.zipWith
    (fun part share => part.discount.minor.val + share.minor.val) parts shares

/-- **Discounts stay within what they discount**: no line of a calculated order has a figure
    below zero or a discount beyond its gross, and the order discount taken is the one asked for,
    clamped, split exactly with no line's share above its base. -/
theorem calculate_bounded {order : OrderInput} {totals : OrderTotals} (hpos : order.NonNegative)
    (h : calculate order = .ok totals) :
    (∀ line ∈ totals.lines, line.Bounded) ∧ Nonempty (DiscountSplit order totals) := by
  obtain ⟨parts, subtotal, taken, shares, groups, hparts, hsubtotal, htaken, happortion, hsettle,
    _⟩ := calculate_steps h
  obtain ⟨hlength, hbounded⟩ := lineParts_bounded hpos hparts
  have hconsistent := lineParts_consistent hparts
  obtain ⟨hcurrency, hsum⟩ := Money.trySum_isSum hsubtotal
  -- no base is negative, so neither is the subtotal the discount is clamped to
  have hbases : ∀ base ∈ parts.map (·.base), 0 ≤ base.minor.val := by
    intro base hbase
    obtain ⟨part, hpart, rfl⟩ := List.mem_map.mp hbase
    exact (hbounded part hpart).base
  have hsubtotalPos : 0 ≤ subtotal.minor.val := by
    rw [hsum.minor]
    refine List.sum_nonneg fun n hn => ?_
    obtain ⟨base, hbase, rfl⟩ := List.mem_map.mp hn
    exact hbases base hbase
  obtain ⟨hsame, asked, hasked, hclamped⟩ := Discount.resolve_eq_ok hsubtotalPos htaken
  rw [← hcurrency, ← hsame] at happortion
  have hlow : 0 ≤ taken.minor.val := by omega
  have hhigh : taken.minor.val ≤ ((parts.map (·.base)).map (·.minor.val)).sum := by
    rw [← hsum.minor]
    omega
  obtain ⟨hsplit, hwithin⟩ := apportion_eq_ok hbases hlow hhigh happortion
  rw [List.forall₂_map_right_iff] at hwithin
  obtain ⟨hlines, hdiscount⟩ := settleLines_bounded hpos hlength
    (fun part hpart => ⟨hbounded part hpart, hconsistent part hpart⟩) hwithin hsettle
  exact ⟨hlines, ⟨{
    parts, subtotal, asked, taken, shares
    first_pass := hparts
    subtotal_sum := hsum
    requested := hasked
    clamped := hclamped
    split := hsplit
    within := hwithin
    gross := settleLines_gross hlength.symm hsettle
    discount := hdiscount }⟩⟩

instance (line : LineInput) : Decidable line.NonNegative :=
  decidable_of_iff (0 ≤ line.unitPrice.minor.val ∧ 0 ≤ line.quantity.milli.val ∧
      0 ≤ line.taxClass.rate.basisPoints.val)
    ⟨fun h => ⟨h.1, h.2.1, h.2.2⟩, fun h => ⟨h.unitPrice, h.quantity, h.rate⟩⟩

instance (order : OrderInput) : Decidable order.NonNegative :=
  inferInstanceAs (Decidable (∀ line ∈ order.lines, line.NonNegative))

theorem calculate_bounded_mixedBasket : ∃ totals, calculate mixedBasket = .ok totals ∧
    (∀ line ∈ totals.lines, line.Bounded) ∧ Nonempty (DiscountSplit mixedBasket totals) := by
  obtain ⟨totals, h⟩ := Except.isOkay_iff.mp (show (calculate mixedBasket).isOkay = true by decide)
  exact ⟨totals, h, calculate_bounded (by decide) h⟩

end Sahl
