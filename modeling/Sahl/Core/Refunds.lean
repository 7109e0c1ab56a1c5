import Mathlib.Tactic
import Sahl.Core.Tax

/-! # A refund mirrors its sale

    Every rule of rounding treats the two sides of zero alike, so that an order with all quantities
    negated comes to the negated figures, line by line (`calculate_mirrors`). -/

namespace Sahl

/-! ## Section 1: Rounding on either side of zero -/

/-- Whether a fraction of `twice` halves of the unit `magnitude` goes away from zero. -/
def Rounding.away (mode : Rounding) (quotient twice magnitude : Int) : Bool :=
  match mode with
  | .towardZero => false
  | .halfUp => magnitude ≤ twice
  | .halfEven => magnitude < twice ∨ magnitude = twice ∧ |quotient.tmod 2| = 1

/-- The quotient as it is rounded, whatever its size. -/
def Rounding.quotient (mode : Rounding) (n d : Int) : Int :=
  if n.tmod d = 0 then n.tdiv d
  else if mode.away (n.tdiv d) (|n.tmod d| * 2) |d| then
    n.tdiv d + if (n < 0) = (d < 0) then 1 else -1
  else n.tdiv d

theorem Rounding.roundsAway_eq_ok {mode : Rounding} {quotient twice magnitude : I128} {b : Bool}
    (h : mode.roundsAway quotient twice magnitude = .ok b) :
    b = mode.away quotient.val twice.val magnitude.val := by
  have hodd : |quotient.val.tmod 2| = 1 ↔ quotient.val.tmod 2 = 1 ∨ quotient.val.tmod 2 = -1 :=
    abs_eq one_pos.le
  cases mode with
  | towardZero =>
    cases h
    rfl
  | halfUp =>
    cases h
    rfl
  -- the code compares twice, and looks at parity between
  | halfEven =>
    simp only [roundsAway] at h
    simp only [away, hodd]
    split at h
    · cases h
      rename_i hmore
      simp [hmore]
    · rename_i hmore
      split at h
      · cases h
        rename_i hless
        simp [hmore, hless.ne']
      · cases h
        rename_i hless
        have hequal : magnitude.val = twice.val := by omega
        simp [hequal]

theorem divideRounded_eq_ok {n d q : I128} {mode : Rounding}
    (h : divideRounded n d mode = .ok q) : q.val = mode.quotient n.val d.val := by
  unfold divideRounded at h
  split at h
  · cases h
  rename_i hd
  simp only [Except.bind_eq_ok, Except.okOr_eq_ok, SInt.checkedDiv, SInt.checkedRem,
    if_neg hd, SInt.ofInt?_eq_some, Option.bind_eq_some_iff] at h
  obtain ⟨quotient, hquotient, remainder, ⟨_, -, hremainder⟩, h⟩ := h
  unfold Rounding.quotient
  rw [← hremainder, ← hquotient]
  split at h
  · rename_i hzero
    cases h
    rw [if_pos hzero]
  · rename_i hsome
    simp only [Except.bind_eq_ok, Except.okOr_eq_ok, SInt.checkedAbs, SInt.ofInt?_eq_some,
      Option.bind_eq_some_iff] at h
    -- something is left over, and the rule decides over the step away
    obtain ⟨twice, ⟨r, hr, htwice⟩, magnitude, hmagnitude, away, haway, h⟩ := h
    rw [if_neg hsome, ← hr, ← htwice, ← hmagnitude, ← Rounding.roundsAway_eq_ok haway]
    cases away with
    | true =>
      simp only [if_true, Except.okOr_eq_ok, SInt.ofInt?_eq_some] at h
      rw [h, if_pos rfl]
    | false =>
      cases h
      rw [if_neg Bool.false_ne_true]

theorem Rounding.away_neg (mode : Rounding) (quotient twice magnitude : Int) :
    mode.away (-quotient) twice magnitude = mode.away quotient twice magnitude := by
  cases mode with
  | towardZero | halfUp => rfl
  | halfEven => rw [away, away, Int.neg_tmod, abs_neg]

/-- No rule of rounding knows the direction of the number line. -/
theorem Rounding.quotient_neg (mode : Rounding) (n d : Int) :
    mode.quotient (-n) d = -mode.quotient n d := by
  unfold quotient
  rw [Int.neg_tdiv, Int.neg_tmod, abs_neg, away_neg]
  by_cases hexact : n.tmod d = 0
  · rw [if_pos (by omega), if_pos hexact]
  · rw [if_neg (by omega), if_neg hexact]
    -- something is left, so the numerator is not nothing, and changes its side
    have hnonzero : n ≠ 0 := by
      intro h
      rw [h, Int.zero_tmod] at hexact
      exact hexact rfl
    have hstep : (if (-n < 0) = (d < 0) then 1 else -1 : Int) =
        -(if (n < 0) = (d < 0) then 1 else -1) := by
      by_cases hn : n < 0 <;> by_cases hd : d < 0 <;> simp [hn, hd] <;> omega
    split
    · rw [hstep]
      omega
    · rfl

/-! ## Section 2: Amounts on either side of zero -/

namespace Money

/-- The same amount, the other way round. -/
structure Opposite (a b : Money) : Prop where
  currency : b.currency = a.currency
  minor : b.minor.val = -a.minor.val

theorem opposite_zero {a b : Currency} (h : b = a) : Opposite (zero a) (zero b) := ⟨h, rfl⟩

theorem Opposite.checkedAdd {a a' b b' c c' : Money} (ha : Opposite a a') (hb : Opposite b b')
    (h : a.checkedAdd b = .ok c) (h' : a'.checkedAdd b' = .ok c') : Opposite c c' := by
  obtain ⟨-, hcurrency, hminor⟩ := checkedAdd_eq_ok.mp h
  obtain ⟨-, hcurrency', hminor'⟩ := checkedAdd_eq_ok.mp h'
  refine ⟨by rw [hcurrency', ha.currency, hcurrency], ?_⟩
  rw [hminor', ha.minor, hb.minor, hminor]
  ring

theorem Opposite.checkedSub {a a' b b' c c' : Money} (ha : Opposite a a') (hb : Opposite b b')
    (h : a.checkedSub b = .ok c) (h' : a'.checkedSub b' = .ok c') : Opposite c c' := by
  obtain ⟨-, hcurrency, hminor⟩ := checkedSub_eq_ok.mp h
  obtain ⟨-, hcurrency', hminor'⟩ := checkedSub_eq_ok.mp h'
  refine ⟨by rw [hcurrency', ha.currency, hcurrency], ?_⟩
  rw [hminor', ha.minor, hb.minor, hminor]
  ring

theorem mulRatio_minor {m t : Money} {numerator denominator : I64} {rounding : Rounding}
    (h : m.mulRatio numerator denominator rounding = .ok t) :
    t.minor.val = rounding.quotient (m.minor.val * numerator.val) denominator.val := by
  simp only [mulRatio, Except.bind_eq_ok, Except.okOr_eq_ok, SInt.ofInt?_eq_some] at h
  obtain ⟨product, hproduct, scaled, hscaled, minor, hminor, h⟩ := h
  cases h
  rw [← hproduct, hminor]
  exact divideRounded_eq_ok hscaled

/-- Scaling the opposite of a product gives the opposite. -/
theorem mulRatio_opposite {m m' t t' : Money} {numerator numerator' denominator : I64}
    {rounding : Rounding} (hcurrency : m'.currency = m.currency)
    (hproduct : m'.minor.val * numerator'.val = -(m.minor.val * numerator.val))
    (h : m.mulRatio numerator denominator rounding = .ok t)
    (h' : m'.mulRatio numerator' denominator rounding = .ok t') : Opposite t t' := by
  refine ⟨by rw [mulRatio_currency h', mulRatio_currency h, hcurrency], ?_⟩
  rw [mulRatio_minor h', mulRatio_minor h, hproduct, Rounding.quotient_neg]

/-- The sums of opposite amounts, of which there are some, are opposite. -/
theorem IsSum.opposite {total total' : Money} {parts parts' : List Money} (hsome : parts ≠ [])
    (h : total.IsSum parts) (h' : total'.IsSum parts')
    (hparts : List.Forall₂ Opposite parts parts') : Opposite total total' := by
  have hminors : parts'.map (·.minor.val) = parts.map fun part => -part.minor.val :=
    (forall₂_map_eq hparts fun _ _ hpart => hpart.minor.symm).symm
  constructor
  · cases hparts with
    | nil => exact absurd rfl hsome
    | cons hpart _ =>
      rw [← h'.currency _ List.mem_cons_self, ← h.currency _ List.mem_cons_self]
      exact hpart.currency
  · rw [h'.minor, h.minor, hminors, List.sum_neg, List.map_map]
    rfl

end Money

/-! ## Section 3: A refund -/

structure LineTotals.Mirrors (t t' : LineTotals) : Prop where
  gross : t.gross.Opposite t'.gross
  discount : t.discount.Opposite t'.discount
  net : t.net.Opposite t'.net
  tax : t.tax.Opposite t'.tax
  total : t.total.Opposite t'.total
  taxClass : t'.taxClass = t.taxClass

structure TaxGroup.Mirrors (g g' : TaxGroup) : Prop where
  taxClass : g'.taxClass = g.taxClass
  taxableBase : g.taxableBase.Opposite g'.taxableBase
  tax : g.tax.Opposite g'.tax

/-- Every figure is the exact opposite. -/
structure OrderTotals.Mirrors (t t' : OrderTotals) : Prop where
  lines : List.Forall₂ LineTotals.Mirrors t.lines t'.lines
  taxGroups : List.Forall₂ TaxGroup.Mirrors t.taxGroups t'.taxGroups
  gross : t.gross.Opposite t'.gross
  discount : t.discount.Opposite t'.discount
  net : t.net.Opposite t'.net
  tax : t.tax.Opposite t'.tax
  total : t.total.Opposite t'.total

/-- A line with its quantity negated. -/
structure LineInput.RefundOf (line line' : LineInput) : Prop where
  unitPrice : line'.unitPrice = line.unitPrice
  quantity : line'.quantity.milli.val = -line.quantity.milli.val
  taxClass : line'.taxClass = line.taxClass
  discount : line'.discount = line.discount

/-- An order with every quantity negated. -/
structure OrderInput.RefundOf (order order' : OrderInput) : Prop where
  currency : order'.currency = order.currency
  pricingMode : order'.pricingMode = order.pricingMode
  rounding : order'.rounding = order.rounding
  lines : List.Forall₂ LineInput.RefundOf order.lines order'.lines
  orderDiscount : order'.orderDiscount = order.orderDiscount

/-- No discount, on a line or on the whole. -/
structure OrderInput.Undiscounted (order : OrderInput) : Prop where
  lines : ∀ line ∈ order.lines, line.discount = .none
  order : order.orderDiscount = .none

structure LineParts.Mirrors (part part' : LineParts) : Prop where
  gross : part.gross.Opposite part'.gross
  discount : part.discount.Opposite part'.discount
  base : part.base.Opposite part'.base

theorem Discount.resolve_none {base taken : Money} {rounding : Rounding}
    (h : Discount.none.resolve base rounding = .ok taken) :
    taken = Money.zero base.currency := by
  unfold resolve at h
  split at h
  · cases h
    rfl
  · rename_i hsome
    simp only [Money.isNegative, Money.isZero, decide_eq_true_eq, not_or] at hsome
    have hless : ¬ base.minor < (Money.zero base.currency).minor := by
      show ¬ base.minor.val < 0
      exact hsome.1
    obtain ⟨_, hraw, h⟩ := Except.bind_eq_ok.mp h
    cases hraw
    simp only [if_neg hless] at h
    cases h
    rfl

/-- The first pass over a refund. -/
theorem LineParts.Of.mirrors {rounding : Rounding} {line line' : LineInput}
    {part part' : LineParts} (hrefund : line.RefundOf line') (hplain : line.discount = .none)
    (h : LineParts.Of rounding line part) (h' : LineParts.Of rounding line' part') :
    part.Mirrors part' := by
  have hgross : part.gross.Opposite part'.gross := by
    refine Money.mulRatio_opposite (by rw [hrefund.unitPrice]) ?_ h.gross h'.gross
    rw [hrefund.unitPrice, hrefund.quantity]
    ring
  have hdiscount : part.discount.Opposite part'.discount := by
    have hnone := h.discount
    have hnone' := h'.discount
    rw [hplain] at hnone
    rw [hrefund.discount, hplain] at hnone'
    rw [Discount.resolve_none hnone, Discount.resolve_none hnone']
    exact Money.opposite_zero hgross.currency
  exact ⟨hgross, hdiscount, hgross.checkedSub hdiscount h.base h'.base⟩

theorem parts_mirror {rounding : Rounding} {lines lines' : List LineInput}
    {parts parts' : List LineParts} (hrefund : List.Forall₂ LineInput.RefundOf lines lines')
    (hplain : ∀ line ∈ lines, line.discount = .none)
    (h : List.Forall₂ (LineParts.Of rounding) lines parts)
    (h' : List.Forall₂ (LineParts.Of rounding) lines' parts') :
    List.Forall₂ LineParts.Mirrors parts parts' := by
  induction hrefund generalizing parts parts' with
  | nil =>
    cases h
    cases h'
    exact .nil
  | cons hline _ ih =>
    obtain ⟨hfirst, hrest⟩ := List.forall_mem_cons.mp hplain
    cases h with
    | cons hof hofs =>
      cases h' with
      | cons hof' hofs' => exact .cons (hof.mirrors hline hfirst hof') (ih hrest hofs hofs')

theorem resolveTax_opposite {taxable taxable' net net' tax tax' : Money} {taxClass : TaxClass}
    {mode : PricingMode} {rounding : Rounding} (hopposite : taxable.Opposite taxable')
    (h : resolveTax taxable taxClass mode rounding = .ok (net, tax))
    (h' : resolveTax taxable' taxClass mode rounding = .ok (net', tax')) :
    net.Opposite net' ∧ tax.Opposite tax' := by
  -- both sides tax opposite amounts at one rate
  have hscaled : ∀ bp : I64, taxable'.minor.val * bp.val = -(taxable.minor.val * bp.val) := by
    intro bp
    rw [hopposite.minor]
    ring
  unfold resolveTax at h h'
  by_cases hzero : taxClass.rate.isZero = true
  · simp only [if_pos hzero] at h h'
    cases h
    cases h'
    exact ⟨hopposite, Money.opposite_zero hopposite.currency⟩
  · simp only [if_neg hzero] at h h'
    cases mode with
    | taxExclusive =>
      simp only [Except.bind_eq_ok, Except.mapError_eq_ok] at h h'
      obtain ⟨_, htax, h⟩ := h
      obtain ⟨_, htax', h'⟩ := h'
      cases h
      cases h'
      exact ⟨hopposite, Money.mulRatio_opposite hopposite.currency (hscaled _) htax htax'⟩
    | taxInclusive =>
      simp only [Except.bind_eq_ok, Except.mapError_eq_ok, Except.okOr_eq_ok] at h h'
      obtain ⟨denominator, hdenominator, _, htax, _, hnet, h⟩ := h
      obtain ⟨denominator', hdenominator', _, htax', _, hnet', h'⟩ := h'
      cases h
      cases h'
      -- the denominator goes by the rate alone
      have hsame : denominator' = denominator :=
        Option.some.inj (hdenominator'.symm.trans hdenominator)
      rw [hsame] at htax'
      have hopposites := Money.mulRatio_opposite hopposite.currency (hscaled _) htax htax'
      exact ⟨hopposite.checkedSub hopposites hnet hnet', hopposites⟩

theorem settleLine_mirrors {mode : PricingMode} {rounding : Rounding} {line line' : LineInput}
    {part part' : LineParts} {share share' : Money} {t t' : LineTotals}
    (hrefund : line.RefundOf line') (hpart : part.Mirrors part') (hshare : share.Opposite share')
    (h : settleLine mode rounding line part share = .ok t)
    (h' : settleLine mode rounding line' part' share' = .ok t') : t.Mirrors t' := by
  simp only [settleLine, Except.bind_eq_ok, Except.mapError_eq_ok] at h h'
  obtain ⟨taxable, htaxable, ⟨net, tax⟩, hresolve, discount, hdiscount, total, htotal, h⟩ := h
  obtain ⟨taxable', htaxable', ⟨net', tax'⟩, hresolve', discount', hdiscount', total', htotal',
    h'⟩ := h'
  cases h
  cases h'
  rw [hrefund.taxClass] at hresolve'
  obtain ⟨hnet, htax⟩ :=
    resolveTax_opposite (hpart.base.checkedSub hshare htaxable htaxable') hresolve hresolve'
  exact
    { gross := hpart.gross
      discount := hpart.discount.checkedAdd hshare hdiscount hdiscount'
      net := hnet
      tax := htax
      total := hnet.checkedAdd htax htotal htotal'
      taxClass := hrefund.taxClass }

theorem accumulateGroup_mirrors {groups groups' after after' : List TaxGroup}
    {taxClass : TaxClass} {net net' tax tax' : Money}
    (hgroups : List.Forall₂ TaxGroup.Mirrors groups groups') (hnet : net.Opposite net')
    (htax : tax.Opposite tax') (h : accumulateGroup groups taxClass net tax = .ok after)
    (h' : accumulateGroup groups' taxClass net' tax' = .ok after') :
    List.Forall₂ TaxGroup.Mirrors after after' := by
  induction hgroups generalizing after after' with
  | nil =>
    cases h
    cases h'
    exact .cons ⟨rfl, hnet, htax⟩ .nil
  | @cons group group' rest rest' hgroup hrest ih =>
    rw [accumulateGroup] at h h'
    rw [hgroup.taxClass] at h'
    -- a sale and its refund find the group at the same place
    by_cases hclass : group.taxClass = taxClass
    · rw [if_pos hclass] at h h'
      simp only [Except.bind_eq_ok, Except.mapError_eq_ok] at h h'
      obtain ⟨base, hbase, sum, hsum, h⟩ := h
      obtain ⟨base', hbase', sum', hsum', h'⟩ := h'
      cases h
      cases h'
      exact .cons ⟨rfl, hgroup.taxableBase.checkedAdd hnet hbase hbase',
        hgroup.tax.checkedAdd htax hsum hsum'⟩ hrest
    · rw [if_neg hclass] at h h'
      obtain ⟨others, hothers, h⟩ := Except.bind_eq_ok.mp h
      obtain ⟨others', hothers', h'⟩ := Except.bind_eq_ok.mp h'
      cases h
      cases h'
      exact .cons hgroup (ih hothers hothers')

/-- The second pass over a refund. -/
theorem settleLines_mirrors {mode : PricingMode} {rounding : Rounding}
    {inputs inputs' : List LineInput} {parts parts' : List LineParts} {shares shares' : List Money}
    {groups groups' after after' : List TaxGroup} {lines lines' : List LineTotals}
    (hinputs : List.Forall₂ LineInput.RefundOf inputs inputs')
    (hparts : List.Forall₂ LineParts.Mirrors parts parts')
    (hshares : List.Forall₂ Money.Opposite shares shares')
    (hgroups : List.Forall₂ TaxGroup.Mirrors groups groups')
    (h : settleLines mode rounding inputs parts shares groups = .ok (lines, after))
    (h' : settleLines mode rounding inputs' parts' shares' groups' = .ok (lines', after')) :
    List.Forall₂ LineTotals.Mirrors lines lines' ∧
      List.Forall₂ TaxGroup.Mirrors after after' := by
  induction hinputs generalizing parts parts' shares shares' groups groups' lines lines' with
  | nil =>
    simp only [settleLines] at h h'
    cases h
    cases h'
    exact ⟨.nil, hgroups⟩
  | @cons input input' rest rest' hinput _ ih =>
    cases hparts with
    | nil => simp [settleLines] at h
    | cons hpart hrestParts =>
      cases hshares with
      | nil => simp [settleLines] at h
      | cons hshare hrestShares =>
        simp only [settleLines, Except.bind_eq_ok] at h h'
        obtain ⟨t, ht, next, hnext, ⟨settled, last⟩, hrest, h⟩ := h
        obtain ⟨t', ht', next', hnext', ⟨settled', last'⟩, hrest', h'⟩ := h'
        cases h
        cases h'
        -- the first line mirrors its own, and so do the groups that the rest start from
        have hline := settleLine_mirrors hinput hpart hshare ht ht'
        rw [hinput.taxClass] at hnext'
        have hgroups := accumulateGroup_mirrors hgroups hline.net hline.tax hnext hnext'
        obtain ⟨hlines, hafter⟩ := ih hrestParts hrestShares hgroups hrest hrest'
        exact ⟨.cons hline hlines, hafter⟩

/-- Without an order discount every share is nothing. -/
theorem apportion_none {currency : Currency} {subtotal orderDiscount : Money}
    {bases shares : List Money} {rounding : Rounding}
    (hdiscount : Discount.none.resolve subtotal rounding = .ok orderDiscount)
    (h : apportion orderDiscount bases currency = .ok shares) :
    shares = List.replicate bases.length (Money.zero currency) := by
  rw [Discount.resolve_none hdiscount, apportion, if_pos (.inl (by simp [Money.isZero, Money.zero]))]
    at h
  cases h
  rfl

/-- **A refund mirrors its sale**: with no discounts, an order with every quantity negated comes
    to the opposite of every figure. -/
theorem calculate_mirrors {order refund : OrderInput} {sold returned : OrderTotals}
    (hplain : order.Undiscounted) (hrefund : order.RefundOf refund)
    (h : calculate order = .ok sold) (h' : calculate refund = .ok returned) :
    sold.Mirrors returned := by
  obtain ⟨parts, subtotal, discount, shares, groups, hparts, hsubtotal, hdiscount, happortion,
    hsettle, hgroups⟩ := calculate_steps h
  obtain ⟨parts', subtotal', discount', shares', groups', hparts', hsubtotal', hdiscount',
    happortion', hsettle', hgroups'⟩ := calculate_steps h'
  rw [hplain.order] at hdiscount
  rw [hrefund.orderDiscount, hplain.order, hrefund.rounding] at hdiscount'
  rw [hrefund.currency, hrefund.rounding] at hparts'
  rw [hrefund.currency] at happortion'
  rw [hrefund.pricingMode, hrefund.rounding] at hsettle'
  -- the first pass mirrors line by line, and without discounts all shares are nothing
  have hfirst : List.Forall₂ LineParts.Mirrors parts parts' :=
    parts_mirror hrefund.lines hplain.lines (lineParts_of hparts) (lineParts_of hparts')
  have hshares : List.Forall₂ Money.Opposite shares shares' := by
    rw [apportion_none hdiscount happortion, apportion_none hdiscount' happortion',
      List.length_map, List.length_map, ← hfirst.length_eq]
    exact List.forall₂_same.mpr fun share hshare => by
      rw [List.eq_of_mem_replicate hshare]
      exact Money.opposite_zero rfl
  obtain ⟨hlines, hafter⟩ := settleLines_mirrors hrefund.lines hfirst hshares .nil hsettle hsettle'
  have hexact := exact_of_calculate h
  have hexact' := exact_of_calculate h'
  -- a figure of the order is the sum of its lines', so it mirrors where they do
  have hsum : ∀ {total total' : Money} (figure : LineTotals → Money),
      (∀ t t', LineTotals.Mirrors t t' → (figure t).Opposite (figure t')) →
      total.IsSum (sold.lines.map figure) → total'.IsSum (returned.lines.map figure) →
      total.Opposite total' := by
    intro total total' figure hfigure htotal htotal'
    have hsome : sold.lines.map figure ≠ [] :=
      fun hnone => calculate_lines_ne_nil h (List.map_eq_nil_iff.mp hnone)
    exact htotal.opposite hsome htotal'
      (List.forall₂_map_left_iff.mpr (List.forall₂_map_right_iff.mpr (hlines.imp hfigure)))
  constructor
  case lines => exact hlines
  case taxGroups =>
    rw [hgroups, hgroups']
    refine forall₂_insertionSort (fun a b x y hax hby => ?_) hafter
    rw [hax.taxClass, hby.taxClass]
  case gross => exact hsum (·.gross) (fun _ _ h => h.gross) hexact.gross hexact'.gross
  case discount =>
    exact hsum (·.discount) (fun _ _ h => h.discount) hexact.discount hexact'.discount
  case net => exact hsum (·.net) (fun _ _ h => h.net) hexact.net hexact'.net
  case tax => exact hsum (·.tax) (fun _ _ h => h.tax) hexact.tax hexact'.tax
  case total => exact hsum (·.total) (fun _ _ h => h.total) hexact.total hexact'.total

/-- A basket of two classes, so many thousandths of each. -/
def halves (milli : I64) : OrderInput where
  currency := .bdt
  pricingMode := .taxInclusive
  rounding := .halfEven
  lines := [
    { unitPrice := ⟨I64.lit 115, .bdt⟩, quantity := ⟨milli⟩, taxClass := .standard ⟨I32.lit 1500⟩,
      discount := .none },
    { unitPrice := ⟨I64.lit 333, .bdt⟩, quantity := ⟨milli⟩, taxClass := .exempt,
      discount := .none }]
  orderDiscount := .none

/-- At one and a half of each, both lines fall on half a unit. -/
theorem calculate_mirrors_halves : ∃ sold returned,
    calculate (halves (I64.lit 1500)) = .ok sold ∧
      calculate (halves (I64.lit (-1500))) = .ok returned ∧ sold.Mirrors returned := by
  obtain ⟨sold, h⟩ := Except.isOkay_iff.mp
    (show (calculate (halves (I64.lit 1500))).isOkay = true by decide)
  obtain ⟨returned, h'⟩ := Except.isOkay_iff.mp
    (show (calculate (halves (I64.lit (-1500)))).isOkay = true by decide)
  refine ⟨sold, returned, h, h', calculate_mirrors ⟨by decide, rfl⟩ ?_ h h'⟩
  exact ⟨rfl, rfl, rfl, .cons ⟨rfl, rfl, rfl, rfl⟩ (.cons ⟨rfl, rfl, rfl, rfl⟩ .nil), rfl⟩

end Sahl
