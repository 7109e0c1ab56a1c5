import Mathlib.Tactic
import Mathlib.Data.Prod.Lex
import Sahl.Lib.Lists
import Sahl.Core.Money

/-! # The VAT engine

    `calculate` turns an order into line totals, a VAT summary grouped by tax class, and order
    figures. The order discount is apportioned back across the lines before tax, so every
    figure of the order is the exact sum of its lines.

    The main result is `calculate_exact`. -/

namespace Sahl

/-! ## Section 1: Orders -/

/-- How a supply is treated for VAT. -/
inductive TaxClass where
  | standard (rate : Rate)
  | zeroRated
  | exempt
  deriving DecidableEq

namespace TaxClass

def rate : TaxClass → Rate
  | .standard rate => rate
  | .zeroRated | .exempt => Rate.zero

/-- Position on the printed summary: standard rates ascending, then zero-rated, then exempt. -/
def sortKey : TaxClass → Nat ×ₗ Int
  | .standard rate => toLex (0, rate.basisPoints.val)
  | .zeroRated => toLex (1, 0)
  | .exempt => toLex (2, 0)

end TaxClass

inductive TaxError where
  | money (error : MoneyError)
  | lineCurrencyMismatch (index : Nat) (expected found : Currency)
  | emptyOrder
  deriving DecidableEq

/-- A reduction applied to a line or to a whole order. -/
inductive Discount where
  | none
  | percentage (rate : Rate)
  | amount (amount : Money)
  deriving DecidableEq

/-- The amount to take off `base`, between zero and `base`. -/
def Discount.resolve (d : Discount) (base : Money) (rounding : Rounding) :
    Except TaxError Money :=
  -- a negative base is a return line; discounts do not apply to it
  if base.isNegative ∨ base.isZero then .ok (Money.zero base.currency)
  else do
    let raw ← match d with
      | .none => .ok (Money.zero base.currency)
      | .percentage rate => (base.applyRate rate rounding).mapError .money
      | .amount fixed =>
        if fixed.currency ≠ base.currency then
          .error (.money (.currencyMismatch base.currency fixed.currency))
        else .ok fixed
    if raw.isNegative then .ok (Money.zero base.currency)
    else if base.minor < raw.minor then .ok base
    else .ok raw

/-- Whether quoted prices already contain tax. -/
inductive PricingMode where
  | taxExclusive
  | taxInclusive
  deriving DecidableEq

structure LineInput where
  unitPrice : Money
  quantity : Quantity
  taxClass : TaxClass
  discount : Discount
  deriving DecidableEq

structure OrderInput where
  currency : Currency
  pricingMode : PricingMode
  rounding : Rounding
  lines : List LineInput
  orderDiscount : Discount
  deriving DecidableEq

/-! ## Section 2: Totals -/

structure LineTotals where
  gross : Money
  discount : Money
  net : Money
  tax : Money
  total : Money
  taxClass : TaxClass
  deriving DecidableEq

structure TaxGroup where
  taxClass : TaxClass
  taxableBase : Money
  tax : Money
  deriving DecidableEq

structure OrderTotals where
  lines : List LineTotals
  taxGroups : List TaxGroup
  gross : Money
  discount : Money
  net : Money
  tax : Money
  total : Money
  deriving DecidableEq

/-! ## Section 3: The engine -/

/-- What the first pass finds out about a line. -/
structure LineParts where
  gross : Money
  discount : Money
  base : Money

/-- The first pass: gross, own discount and discounted base of every line. -/
def lineParts (currency : Currency) (rounding : Rounding) :
    Nat → List LineInput → Except TaxError (List LineParts)
  | _, [] => .ok []
  | index, line :: rest => do
    if line.unitPrice.currency ≠ currency then
      .error (.lineCurrencyMismatch index currency line.unitPrice.currency)
    else
      let gross ← (line.unitPrice.mulRatio line.quantity.milli Quantity.milliPerUnit
        rounding).mapError TaxError.money
      let discount ← line.discount.resolve gross rounding
      let base ← (gross.checkedSub discount).mapError TaxError.money
      let parts ← lineParts currency rounding (index + 1) rest
      .ok ({ gross, discount, base } :: parts)

/-- Spread an order discount across lines in proportion to their discounted value. -/
def apportion (amount : Money) (bases : List Money) (currency : Currency) :
    Except TaxError (List Money) :=
  if amount.isZero ∨ bases.isEmpty then .ok (List.replicate bases.length (Money.zero currency))
  else
    let weights := bases.map fun base => base.minor.unsignedAbs
    -- every line is zero-valued: an even spread rather than no answer
    if weights.all (· = 0) then
      (amount.allocate (List.replicate bases.length 1)).mapError TaxError.money
    else (amount.allocate weights).mapError TaxError.money

/-- Split `net` and `tax` out of a taxable amount. -/
def resolveTax (taxable : Money) (taxClass : TaxClass) (mode : PricingMode)
    (rounding : Rounding) : Except TaxError (Money × Money) :=
  let rate := taxClass.rate
  if rate.isZero then .ok (taxable, Money.zero taxable.currency)
  else match mode with
    | .taxExclusive => do
      let tax ← (taxable.applyRate rate rounding).mapError TaxError.money
      .ok (taxable, tax)
    | .taxInclusive => do
      let basisPoints := rate.basisPoints64
      let denominator ← Except.okOr ((I64.lit 10000).checkedAdd basisPoints)
        (TaxError.money .overflow)
      let tax ← (taxable.mulRatio basisPoints denominator rounding).mapError TaxError.money
      let net ← (taxable.checkedSub tax).mapError TaxError.money
      .ok (net, tax)

/-- Accumulate a line into its summary group, creating the group on first sight. -/
def accumulateGroup : List TaxGroup → TaxClass → Money → Money →
    Except TaxError (List TaxGroup)
  | [], taxClass, net, tax => .ok [{ taxClass, taxableBase := net, tax }]
  | group :: groups, taxClass, net, tax =>
    if group.taxClass = taxClass then do
      let taxableBase ← (group.taxableBase.checkedAdd net).mapError TaxError.money
      let tax ← (group.tax.checkedAdd tax).mapError TaxError.money
      .ok ({ group with taxableBase, tax } :: groups)
    else do
      let groups ← accumulateGroup groups taxClass net tax
      .ok (group :: groups)

/-- One line of the second pass. -/
def settleLine (mode : PricingMode) (rounding : Rounding) (line : LineInput)
    (parts : LineParts) (share : Money) : Except TaxError LineTotals := do
  let taxable ← (parts.base.checkedSub share).mapError TaxError.money
  let (net, tax) ← resolveTax taxable line.taxClass mode rounding
  let discount ← (parts.discount.checkedAdd share).mapError TaxError.money
  let total ← (net.checkedAdd tax).mapError TaxError.money
  .ok { gross := parts.gross, discount, net, tax, total, taxClass := line.taxClass }

/-- The second pass: settle each line against its share of the order discount. A position
    missing from one of the parallel lists is the source's `EmptyOrder`. -/
def settleLines (mode : PricingMode) (rounding : Rounding) :
    List LineInput → List LineParts → List Money → List TaxGroup →
    Except TaxError (List LineTotals × List TaxGroup)
  | [], _, _, groups => .ok ([], groups)
  | line :: rest, parts :: restParts, share :: shares, groups => do
    let totals ← settleLine mode rounding line parts share
    let groups ← accumulateGroup groups line.taxClass totals.net totals.tax
    let (settled, groups) ← settleLines mode rounding rest restParts shares groups
    .ok (totals :: settled, groups)
  | _ :: _, _, _, _ => .error .emptyOrder

/-- `sort_by_key` over the groups, which is stable. -/
def sortGroups (groups : List TaxGroup) : List TaxGroup :=
  groups.insertionSort fun a b => a.taxClass.sortKey ≤ b.taxClass.sortKey

/-- Calculate an order. -/
def calculate (order : OrderInput) : Except TaxError OrderTotals :=
  if order.lines.isEmpty then .error .emptyOrder
  else do
    let parts ← lineParts order.currency order.rounding 0 order.lines
    let bases := parts.map (·.base)
    let subtotal ← (Money.trySum bases order.currency).mapError TaxError.money
    let orderDiscount ← order.orderDiscount.resolve subtotal order.rounding
    let apportioned ← apportion orderDiscount bases order.currency
    let (lines, groups) ← settleLines order.pricingMode order.rounding order.lines parts
      apportioned []
    let taxGroups := sortGroups groups
    let gross ← (Money.trySum (lines.map (·.gross)) order.currency).mapError TaxError.money
    let discount ← (Money.trySum (lines.map (·.discount)) order.currency).mapError TaxError.money
    let net ← (Money.trySum (lines.map (·.net)) order.currency).mapError TaxError.money
    let tax ← (Money.trySum (lines.map (·.tax)) order.currency).mapError TaxError.money
    let total ← (Money.trySum (lines.map (·.total)) order.currency).mapError TaxError.money
    .ok { lines, taxGroups, gross, discount, net, tax, total }

/-! ## Section 4: What a line comes to -/

/-- A line is exact: net and tax make the total, and the discounted gross is the total or the
    net, by pricing mode. -/
structure LineTotals.Exact (mode : PricingMode) (t : LineTotals) : Prop where
  total : t.net.checkedAdd t.tax = .ok t.total
  inclusive : mode = .taxInclusive → t.gross.checkedSub t.discount = .ok t.total
  exclusive : mode = .taxExclusive → t.gross.checkedSub t.discount = .ok t.net

/-- The tax comes out of the taxable amount or on top of it, by pricing mode. -/
theorem resolveTax_eq_ok {taxable net tax : Money} {taxClass : TaxClass} {mode : PricingMode}
    {rounding : Rounding} (h : resolveTax taxable taxClass mode rounding = .ok (net, tax)) :
    net.currency = taxable.currency ∧ tax.currency = taxable.currency ∧
      (mode = .taxInclusive → net.minor.val + tax.minor.val = taxable.minor.val) ∧
      (mode = .taxExclusive → net = taxable) := by
  unfold resolveTax at h
  simp only at h
  split at h
  · cases h
    simp [Money.zero]
  · cases mode with
    | taxExclusive =>
      simp only [Except.bind_eq_ok, Except.mapError_eq_ok] at h
      obtain ⟨tax', htax, h⟩ := h
      cases h
      exact ⟨rfl, Money.mulRatio_currency htax, by simp, fun _ => rfl⟩
    | taxInclusive =>
      simp only [Except.bind_eq_ok, Except.mapError_eq_ok] at h
      obtain ⟨_, _, tax', htax, net', hnet, h⟩ := h
      cases h
      obtain ⟨_, hcur, hminor⟩ := Money.checkedSub_eq_ok.mp hnet
      exact ⟨hcur, Money.mulRatio_currency htax, fun _ => by omega, by simp⟩

/-- A first-pass record: the base is what the discount leaves of the gross. -/
structure LineParts.Consistent (currency : Currency) (p : LineParts) : Prop where
  currency : p.gross.currency = currency
  base : p.gross.checkedSub p.discount = .ok p.base

theorem lineParts_consistent {currency : Currency} {rounding : Rounding} {index : Nat}
    {lines : List LineInput} {parts : List LineParts}
    (h : lineParts currency rounding index lines = .ok parts) :
    ∀ p ∈ parts, p.Consistent currency := by
  induction lines generalizing index parts with
  | nil =>
    simp only [lineParts] at h
    cases h
    simp
  | cons line rest ih =>
    simp only [lineParts] at h
    split at h
    · cases h
    · rename_i hcur
      simp only [Except.bind_eq_ok, Except.mapError_eq_ok] at h
      obtain ⟨gross, hgross, discount, _, base, hbase, restParts, hrest, h⟩ := h
      cases h
      intro p hp
      rcases List.mem_cons.mp hp with rfl | hp
      · exact ⟨(Money.mulRatio_currency hgross).trans (not_not.mp hcur), hbase⟩
      · exact ih hrest p hp

theorem settleLine_exact {currency : Currency} {mode : PricingMode} {rounding : Rounding}
    {line : LineInput} {parts : LineParts} {share : Money} {t : LineTotals}
    (hparts : parts.Consistent currency)
    (h : settleLine mode rounding line parts share = .ok t) :
    t.Exact mode ∧ t.gross.currency = currency ∧ t.taxClass = line.taxClass := by
  simp only [settleLine, Except.bind_eq_ok, Except.mapError_eq_ok] at h
  obtain ⟨taxable, htaxable, ⟨net, tax⟩, hres, discount, hdiscount, total, htotal, h⟩ := h
  cases h
  obtain ⟨hnetCur, htaxCur, hinclusive, hexclusive⟩ := resolveTax_eq_ok hres
  obtain ⟨hbaseCur, htaxableCur, htaxableMinor⟩ := Money.checkedSub_eq_ok.mp htaxable
  obtain ⟨hgrossCur, hpartsCur, hpartsMinor⟩ := Money.checkedSub_eq_ok.mp hparts.base
  obtain ⟨_, hdiscountCur, hdiscountMinor⟩ := Money.checkedAdd_eq_ok.mp hdiscount
  obtain ⟨_, htotalCur, htotalMinor⟩ := Money.checkedAdd_eq_ok.mp htotal
  simp only at htotalMinor
  -- inclusive prices hold the tax, so the total is what the discount leaves; exclusive, the net is
  refine ⟨⟨htotal, fun hmode => ?_, fun hmode => ?_⟩, hparts.currency, rfl⟩
  · have := hinclusive hmode
    refine Money.checkedSub_eq_ok.mpr ⟨by simp_all, by simp_all, ?_⟩
    simp only
    omega
  · have hnet := hexclusive hmode
    subst hnet
    refine Money.checkedSub_eq_ok.mpr ⟨by simp_all, by simp_all, ?_⟩
    simp only
    omega

/-- In an exact line every figure is in the currency of the gross. -/
theorem LineTotals.Exact.currencies {mode : PricingMode} {t : LineTotals} (h : t.Exact mode) :
    t.discount.currency = t.gross.currency ∧ t.net.currency = t.gross.currency ∧
      t.tax.currency = t.gross.currency ∧ t.total.currency = t.gross.currency := by
  obtain ⟨htax, htotal, _⟩ := Money.checkedAdd_eq_ok.mp h.total
  cases mode with
  | taxInclusive =>
    obtain ⟨hdiscount, hgross, _⟩ := Money.checkedSub_eq_ok.mp (h.inclusive rfl)
    simp_all
  | taxExclusive =>
    obtain ⟨hdiscount, hgross, _⟩ := Money.checkedSub_eq_ok.mp (h.exclusive rfl)
    simp_all

/-! ## Section 5: The VAT summary -/

/-- Net and tax of a line. -/
def LineTotals.charged (t : LineTotals) : Int × Int := (t.net.minor.val, t.tax.minor.val)

/-- Base and tax of a group. -/
def TaxGroup.charged (g : TaxGroup) : Int × Int := (g.taxableBase.minor.val, g.tax.minor.val)

/-- `groups` is the VAT summary of `lines`: one group for each class met, holding what the
    lines of the class hold. -/
structure SummaryOf (currency : Currency) (groups : List TaxGroup) (lines : List LineTotals) :
    Prop where
  unique : (groups.map (·.taxClass)).Nodup
  classes : ∀ c, c ∈ groups.map (·.taxClass) ↔ c ∈ lines.map (·.taxClass)
  currencies : ∀ g ∈ groups, g.taxableBase.currency = currency ∧ g.tax.currency = currency
  held : ∀ c, keySum (·.taxClass) TaxGroup.charged groups c =
    keySum (·.taxClass) LineTotals.charged lines c
  total : (groups.map TaxGroup.charged).sum = (lines.map LineTotals.charged).sum

/-- What accumulating one line does to the groups. -/
theorem accumulateGroup_eq_ok {groups groups' : List TaxGroup} {c : TaxClass} {net tax : Money}
    (h : accumulateGroup groups c net tax = .ok groups') :
    groups'.map (·.taxClass) =
        (if c ∈ groups.map (·.taxClass) then groups.map (·.taxClass)
          else groups.map (·.taxClass) ++ [c]) ∧
      (∀ k, keySum (·.taxClass) TaxGroup.charged groups' k =
        keySum (·.taxClass) TaxGroup.charged groups k +
          if c = k then (net.minor.val, tax.minor.val) else 0) ∧
      (groups'.map TaxGroup.charged).sum =
        (groups.map TaxGroup.charged).sum + (net.minor.val, tax.minor.val) ∧
      (∀ currency, net.currency = currency → tax.currency = currency →
        (∀ g ∈ groups, g.taxableBase.currency = currency ∧ g.tax.currency = currency) →
        ∀ g ∈ groups', g.taxableBase.currency = currency ∧ g.tax.currency = currency) := by
  -- the source walks the groups for the class of the line, and appends one that is new
  induction groups generalizing groups' with
  | nil =>
    simp only [accumulateGroup] at h
    cases h
    simp [keySum_cons, TaxGroup.charged]
  | cons g gs ih =>
    simp only [accumulateGroup] at h
    split at h
    · rename_i hc
      subst hc
      simp only [Except.bind_eq_ok, Except.mapError_eq_ok] at h
      obtain ⟨base, hbase, tax', htax, h⟩ := h
      cases h
      obtain ⟨_, hbaseCur, hbaseMinor⟩ := Money.checkedAdd_eq_ok.mp hbase
      obtain ⟨_, htaxCur, htaxMinor⟩ := Money.checkedAdd_eq_ok.mp htax
      have hheld : (⟨g.taxClass, base, tax'⟩ : TaxGroup).charged =
          g.charged + (net.minor.val, tax.minor.val) := by
        simp [TaxGroup.charged, hbaseMinor, htaxMinor]
      refine ⟨by simp, fun k => ?_, ?_, fun currency _ _ hall g' hg' => ?_⟩
      · simp only [keySum_cons, hheld]
        split
        · abel
        · simp
      · simp only [List.map_cons, List.sum_cons, hheld]
        abel
      · rcases List.mem_cons.mp hg' with rfl | hg'
        · have := hall g List.mem_cons_self
          exact ⟨hbaseCur.trans this.1, htaxCur.trans this.2⟩
        · exact hall g' (List.mem_cons_of_mem _ hg')
    · rename_i hc
      simp only [Except.bind_eq_ok] at h
      obtain ⟨gs', hgs', h⟩ := h
      cases h
      obtain ⟨hclasses, hheld, htotal, hcur⟩ := ih hgs'
      refine ⟨?_, fun k => ?_, ?_, fun currency hnet htax hall g' hg' => ?_⟩
      · have hne : c ≠ g.taxClass := fun h => hc h.symm
        simp only [List.map_cons, hclasses, List.mem_cons, hne, false_or]
        split <;> simp
      · rw [keySum_cons, keySum_cons, hheld]
        abel
      · simp only [List.map_cons, List.sum_cons, htotal]
        abel
      · rcases List.mem_cons.mp hg' with rfl | hg'
        · exact hall g' List.mem_cons_self
        · exact hcur currency hnet htax
            (fun g'' hg'' => hall g'' (List.mem_cons_of_mem _ hg'')) g' hg'

theorem accumulateGroup_summary {currency : Currency} {groups groups' : List TaxGroup}
    {lines : List LineTotals} {t : LineTotals} (hs : SummaryOf currency groups lines)
    (hnet : t.net.currency = currency) (htax : t.tax.currency = currency)
    (h : accumulateGroup groups t.taxClass t.net t.tax = .ok groups') :
    SummaryOf currency groups' (lines ++ [t]) := by
  obtain ⟨hclasses, hheld, htotal, hcur⟩ := accumulateGroup_eq_ok h
  refine ⟨?_, fun c => ?_, hcur currency hnet htax hs.currencies, fun c => ?_, ?_⟩
  · rw [hclasses]
    split
    · exact hs.unique
    · rename_i hnot
      exact List.nodup_append.mpr ⟨hs.unique, by simp, by
        rintro a ha b hb rfl
        rw [List.mem_singleton] at hb
        exact hnot (hb ▸ ha)⟩
  · have := hs.classes c
    rw [hclasses]
    split
    · rename_i hmem
      -- the class was there already, so no class is added
      have hmem' := (hs.classes t.taxClass).mp hmem
      rw [this, List.map_append, List.mem_append]
      constructor
      · exact Or.inl
      · rintro (h | h)
        · exact h
        · rw [List.map_singleton, List.mem_singleton] at h
          exact h ▸ hmem'
    · simp only [List.mem_append, List.map_append, this, List.map_singleton]
  · rw [hheld, hs.held, keySum_append, keySum_cons, keySum_nil, add_zero]
    rfl
  · rw [htotal, hs.total, List.map_append, List.sum_append, List.map_singleton,
      List.sum_singleton]
    rfl

theorem settleLines_exact {currency : Currency} {mode : PricingMode} {rounding : Rounding}
    {inputs : List LineInput} {parts : List LineParts} {shares : List Money}
    {groups groups' : List TaxGroup} {before lines : List LineTotals}
    (hparts : ∀ p ∈ parts, p.Consistent currency) (hs : SummaryOf currency groups before)
    (h : settleLines mode rounding inputs parts shares groups = .ok (lines, groups')) :
    (∀ t ∈ lines, t.Exact mode ∧ t.gross.currency = currency) ∧
      lines.map (·.taxClass) = inputs.map (·.taxClass) ∧
      SummaryOf currency groups' (before ++ lines) := by
  induction inputs generalizing parts shares groups before lines with
  | nil =>
    simp only [settleLines] at h
    cases h
    simpa using hs
  | cons input rest ih =>
    -- lines, parts and shares come in step: a list that ends first answers nothing
    match parts, shares with
    | [], _ | _ :: _, [] => simp [settleLines] at h
    | part :: restParts, share :: restShares =>
      simp only [settleLines, Except.bind_eq_ok] at h
      obtain ⟨t, ht, groups₁, hacc, ⟨settled, groups₂⟩, hrest, h⟩ := h
      cases h
      obtain ⟨hexact, hcur, hclass⟩ := settleLine_exact (hparts part List.mem_cons_self) ht
      obtain ⟨_, hnet, htax, _⟩ := hexact.currencies
      rw [← hclass] at hacc
      have hs₁ := accumulateGroup_summary hs (hnet.trans hcur) (htax.trans hcur) hacc
      obtain ⟨hall, hclasses, hs₂⟩ :=
        ih (fun p hp => hparts p (List.mem_cons_of_mem _ hp)) hs₁ hrest
      refine ⟨fun t' ht' => ?_, by simp [hclass, hclasses], by simpa using hs₂⟩
      rcases List.mem_cons.mp ht' with rfl | ht'
      · exact ⟨hexact, hcur⟩
      · exact hall t' ht'

/-! ## Section 6: The order -/

/-- Every figure of a calculated order is the exact sum of its parts. -/
structure OrderTotals.Exact (mode : PricingMode) (t : OrderTotals) : Prop where
  line : ∀ line ∈ t.lines, line.Exact mode
  gross : t.gross.IsSum (t.lines.map (·.gross))
  discount : t.discount.IsSum (t.lines.map (·.discount))
  net : t.net.IsSum (t.lines.map (·.net))
  tax : t.tax.IsSum (t.lines.map (·.tax))
  total : t.total.IsSum (t.lines.map (·.total))
  netTax : t.net.checkedAdd t.tax = .ok t.total
  inclusive : mode = .taxInclusive → t.gross.checkedSub t.discount = .ok t.total
  exclusive : mode = .taxExclusive → t.gross.checkedSub t.discount = .ok t.net
  groupUnique : (t.taxGroups.map (·.taxClass)).Nodup
  groupSorted : t.taxGroups.Pairwise fun a b => a.taxClass.sortKey ≤ b.taxClass.sortKey
  groupClasses : ∀ c, c ∈ t.taxGroups.map (·.taxClass) ↔ c ∈ t.lines.map (·.taxClass)
  groupBase : ∀ g ∈ t.taxGroups,
    g.taxableBase.IsSum ((t.lines.filter (·.taxClass = g.taxClass)).map (·.net))
  groupTax : ∀ g ∈ t.taxGroups,
    g.tax.IsSum ((t.lines.filter (·.taxClass = g.taxClass)).map (·.tax))
  groupBaseTotal : t.net.IsSum (t.taxGroups.map (·.taxableBase))
  groupTaxTotal : t.tax.IsSum (t.taxGroups.map (·.tax))

theorem SummaryOf.perm {currency : Currency} {groups groups' : List TaxGroup}
    {lines : List LineTotals} (hs : SummaryOf currency groups lines)
    (hp : groups'.Perm groups) : SummaryOf currency groups' lines where
  unique := (hp.map _).nodup_iff.mpr hs.unique
  classes c := ((hp.map _).mem_iff).trans (hs.classes c)
  currencies g hg := hs.currencies g (hp.mem_iff.mp hg)
  held c := (keySum_perm hp c).trans (hs.held c)
  total := ((hp.map _).sum_eq).trans hs.total

/-- A group holds the net and the tax of exactly the lines of its class. -/
theorem SummaryOf.group {currency : Currency} {groups : List TaxGroup} {lines : List LineTotals}
    (hs : SummaryOf currency groups lines) {g : TaxGroup} (hg : g ∈ groups) :
    g.taxableBase.minor.val =
        ((lines.filter (·.taxClass = g.taxClass)).map (·.net.minor.val)).sum ∧
      g.tax.minor.val =
        ((lines.filter (·.taxClass = g.taxClass)).map (·.tax.minor.val)).sum := by
  have h : g.charged = keySum (·.taxClass) LineTotals.charged lines g.taxClass :=
    (keySum_mem_nodup hs.unique hg).symm.trans (hs.held g.taxClass)
  exact Prod.mk.inj (h.trans (sum_map_pair _ _ _))

/-- Where lines are exact and each figure is the sum over the lines, the figures of the order
    obey the equations of a line. -/
theorem figures_exact {mode : PricingMode} {currency : Currency} {t : OrderTotals}
    (hlines : ∀ line ∈ t.lines, line.Exact mode)
    (hgross : t.gross.currency = currency ∧ t.gross.IsSum (t.lines.map (·.gross)))
    (hdiscount : t.discount.currency = currency ∧ t.discount.IsSum (t.lines.map (·.discount)))
    (hnet : t.net.currency = currency ∧ t.net.IsSum (t.lines.map (·.net)))
    (htax : t.tax.currency = currency ∧ t.tax.IsSum (t.lines.map (·.tax)))
    (htotal : t.total.currency = currency ∧ t.total.IsSum (t.lines.map (·.total))) :
    t.net.checkedAdd t.tax = .ok t.total ∧
      (mode = .taxInclusive → t.gross.checkedSub t.discount = .ok t.total) ∧
      (mode = .taxExclusive → t.gross.checkedSub t.discount = .ok t.net) := by
  have hnetMinor := (Money.isSum_map.mp hnet.2).2
  have htaxMinor := (Money.isSum_map.mp htax.2).2
  have htotalMinor := (Money.isSum_map.mp htotal.2).2
  have hgrossMinor := (Money.isSum_map.mp hgross.2).2
  have hdiscountMinor := (Money.isSum_map.mp hdiscount.2).2
  refine ⟨Money.checkedAdd_eq_ok.mpr ⟨by simp_all, by simp_all, ?_⟩, fun hmode =>
    Money.checkedSub_eq_ok.mpr ⟨by simp_all, by simp_all, ?_⟩, fun hmode =>
    Money.checkedSub_eq_ok.mpr ⟨by simp_all, by simp_all, ?_⟩⟩
  · rw [hnetMinor, htaxMinor, htotalMinor]
    exact sum_map_add fun line hline => (Money.checkedAdd_eq_ok.mp (hlines line hline).total).2.2
  · have := sum_map_add fun line hline => eq_add_of_sub_eq
      (Money.checkedSub_eq_ok.mp ((hlines line hline).inclusive hmode)).2.2.symm
    rw [hgrossMinor, hdiscountMinor, htotalMinor]
    exact eq_sub_of_add_eq this.symm
  · have := sum_map_add fun line hline => eq_add_of_sub_eq
      (Money.checkedSub_eq_ok.mp ((hlines line hline).exclusive hmode)).2.2.symm
    rw [hgrossMinor, hdiscountMinor, hnetMinor]
    exact eq_sub_of_add_eq this.symm

/-- What the engine answers is exact: its lines, its figures and its summary. -/
theorem exact_of_calculate {order : OrderInput} {totals : OrderTotals}
    (h : calculate order = .ok totals) : totals.Exact order.pricingMode := by
  unfold calculate at h
  split at h
  · cases h
  simp only [Except.bind_eq_ok, Except.mapError_eq_ok] at h
  obtain ⟨parts, hparts, _, _, _, _, apportioned, _, ⟨lines, groups⟩, hsettle, gross, hgross,
    discount, hdiscount, net, hnet, tax, htax, total, htotal, h⟩ := h
  cases h
  have hempty : SummaryOf order.currency [] [] :=
    ⟨by simp, by simp, by simp, by simp, rfl⟩
  obtain ⟨hlines, _, hs⟩ := settleLines_exact (lineParts_consistent hparts) hempty hsettle
  rw [List.nil_append] at hs
  -- sorting the groups changes neither what they hold nor their classes
  have hs : SummaryOf order.currency (sortGroups groups) lines :=
    hs.perm (List.perm_insertionSort _ _)
  have hexact : ∀ line ∈ lines, line.Exact order.pricingMode := fun l hl => (hlines l hl).1
  have hgross := Money.trySum_isSum hgross
  have hdiscount := Money.trySum_isSum hdiscount
  have hnet := Money.trySum_isSum hnet
  have htax := Money.trySum_isSum htax
  have htotal := Money.trySum_isSum htotal
  -- what holds of every line holds of the sums
  obtain ⟨hnetTax, hinclusive, hexclusive⟩ := figures_exact
    (t := ⟨lines, sortGroups groups, gross, discount, net, tax, total⟩)
    hexact hgross hdiscount hnet htax htotal
  have hlineCur : ∀ l ∈ lines, l.net.currency = order.currency ∧
      l.tax.currency = order.currency := fun l hl =>
    have hcur := (hexact l hl).currencies
    ⟨hcur.2.1.trans (hlines l hl).2, hcur.2.2.1.trans (hlines l hl).2⟩
  obtain ⟨hbaseSum, htaxSum⟩ := Prod.mk.inj
    ((sum_map_pair _ _ _).symm.trans (hs.total.trans (sum_map_pair _ _ _)))
  exact {
    line := hexact
    gross := hgross.2
    discount := hdiscount.2
    net := hnet.2
    tax := htax.2
    total := htotal.2
    netTax := hnetTax
    inclusive := hinclusive
    exclusive := hexclusive
    groupUnique := hs.unique
    groupSorted := List.pairwise_insertionSort _ _
    groupClasses := hs.classes
    groupBase := fun g hg => Money.isSum_map.mpr
      ⟨fun l hl => ((hlineCur l (List.mem_of_mem_filter hl)).1).trans (hs.currencies g hg).1.symm,
        (hs.group hg).1⟩
    groupTax := fun g hg => Money.isSum_map.mpr
      ⟨fun l hl => ((hlineCur l (List.mem_of_mem_filter hl)).2).trans (hs.currencies g hg).2.symm,
        (hs.group hg).2⟩
    groupBaseTotal := Money.isSum_map.mpr
      ⟨fun g hg => (hs.currencies g hg).1.trans hnet.1.symm,
        (Money.isSum_map.mp hnet.2).2.trans hbaseSum.symm⟩
    groupTaxTotal := Money.isSum_map.mpr
      ⟨fun g hg => (hs.currencies g hg).2.trans htax.1.symm,
        (Money.isSum_map.mp htax.2).2.trans htaxSum.symm⟩ }

/-- **The engine is exact**: every order it answers has exact lines, exact figures and an exact
    VAT summary in invoice order. -/
theorem calculate_exact {order : OrderInput} {totals : OrderTotals}
    (h : calculate order = .ok totals) : totals.Exact order.pricingMode := exact_of_calculate h

/-! ## Section 7: Each line of an order -/

/-- What the first pass finds out about a line, from that line alone. -/
structure LineParts.Of (rounding : Rounding) (line : LineInput) (part : LineParts) : Prop where
  gross : line.unitPrice.mulRatio line.quantity.milli Quantity.milliPerUnit rounding =
    .ok part.gross
  discount : line.discount.resolve part.gross rounding = .ok part.discount
  base : part.gross.checkedSub part.discount = .ok part.base

theorem lineParts_of {currency : Currency} {rounding : Rounding} {index : Nat}
    {lines : List LineInput} {parts : List LineParts}
    (h : lineParts currency rounding index lines = .ok parts) :
    List.Forall₂ (LineParts.Of rounding) lines parts := by
  induction lines generalizing index parts with
  | nil =>
    simp only [lineParts] at h
    cases h
    exact .nil
  | cons line rest ih =>
    simp only [lineParts] at h
    split at h
    · cases h
    · simp only [Except.bind_eq_ok, Except.mapError_eq_ok] at h
      obtain ⟨gross, hgross, discount, hdiscount, base, hbase, restParts, hrest, h⟩ := h
      cases h
      exact .cons ⟨hgross, hdiscount, hbase⟩ (ih hrest)

/-- What the engine makes of a line, some share of the order discount given. -/
def LineInput.SettlesTo (mode : PricingMode) (rounding : Rounding) (line : LineInput)
    (t : LineTotals) : Prop :=
  ∃ part share, LineParts.Of rounding line part ∧ settleLine mode rounding line part share = .ok t

theorem settleLine_gross {mode : PricingMode} {rounding : Rounding} {line : LineInput}
    {part : LineParts} {share : Money} {t : LineTotals}
    (h : settleLine mode rounding line part share = .ok t) : t.gross = part.gross := by
  simp only [settleLine, Except.bind_eq_ok] at h
  obtain ⟨_, _, _, _, _, _, _, _, h⟩ := h
  cases h
  rfl

/-- What the second pass makes of the line at a position. -/
theorem settleLines_at {mode : PricingMode} {rounding : Rounding} {inputs : List LineInput}
    {parts : List LineParts} {shares : List Money} {groups groups' : List TaxGroup}
    {lines : List LineTotals}
    (h : settleLines mode rounding inputs parts shares groups = .ok (lines, groups')) :
    lines.length = inputs.length ∧ ∀ (i : Nat) (t : LineTotals), lines[i]? = some t →
      ∃ input part share, inputs[i]? = some input ∧ parts[i]? = some part ∧
        shares[i]? = some share ∧ settleLine mode rounding input part share = .ok t := by
  induction inputs generalizing parts shares groups lines with
  | nil =>
    simp only [settleLines] at h
    cases h
    simp
  | cons input rest ih =>
    match parts, shares with
    -- the passes are zipped: one that is too short refuses the order
    | [], _ | _ :: _, [] => simp [settleLines] at h
    | part :: restParts, share :: restShares =>
      simp only [settleLines, Except.bind_eq_ok] at h
      obtain ⟨first, hfirst, _, _, ⟨settled, _⟩, hrest, h⟩ := h
      cases h
      obtain ⟨hlength, hall⟩ := ih hrest
      refine ⟨by simp [hlength], fun i t ht => ?_⟩
      cases i with
      | zero =>
        cases ht
        exact ⟨input, part, share, rfl, rfl, rfl, hfirst⟩
      | succ i => exact hall i t ht

theorem settleLines_gross {mode : PricingMode} {rounding : Rounding} {inputs : List LineInput}
    {parts : List LineParts} {shares : List Money} {groups groups' : List TaxGroup}
    {lines : List LineTotals} (hlength : inputs.length = parts.length)
    (h : settleLines mode rounding inputs parts shares groups = .ok (lines, groups')) :
    lines.map (·.gross) = parts.map (·.gross) := by
  induction inputs generalizing parts shares groups lines with
  | nil =>
    rw [List.length_nil, eq_comm, List.length_eq_zero_iff] at hlength
    simp only [settleLines] at h
    cases h
    rw [hlength]
    rfl
  | cons input rest ih =>
    match parts, shares with
    | [], _ | _ :: _, [] => simp [settleLines] at h
    | part :: restParts, share :: restShares =>
      simp only [settleLines, Except.bind_eq_ok] at h
      obtain ⟨t, ht, _, _, ⟨settled, _⟩, hrest, h⟩ := h
      cases h
      rw [List.map_cons, List.map_cons, settleLine_gross ht, ih (by simpa using hlength) hrest]

/-- The second pass settles every line of the order, in order. -/
theorem settleLines_settled {mode : PricingMode} {rounding : Rounding} {inputs : List LineInput}
    {parts : List LineParts} {shares : List Money} {groups groups' : List TaxGroup}
    {lines : List LineTotals} (hparts : List.Forall₂ (LineParts.Of rounding) inputs parts)
    (h : settleLines mode rounding inputs parts shares groups = .ok (lines, groups')) :
    List.Forall₂ (LineInput.SettlesTo mode rounding) inputs lines := by
  induction hparts generalizing shares groups lines with
  | nil =>
    simp only [settleLines] at h
    cases h
    exact .nil
  | @cons input part rest restParts hpart _ ih =>
    match shares with
    | [] => simp [settleLines] at h
    | share :: restShares =>
      simp only [settleLines, Except.bind_eq_ok] at h
      obtain ⟨t, ht, _, _, ⟨settled, _⟩, hrest, h⟩ := h
      cases h
      exact .cons ⟨part, share, hpart, ht⟩ (ih hrest)

/-- The steps of a calculation that goes through. -/
theorem calculate_steps {order : OrderInput} {totals : OrderTotals}
    (h : calculate order = .ok totals) :
    ∃ parts subtotal orderDiscount apportioned groups,
      lineParts order.currency order.rounding 0 order.lines = .ok parts ∧
      Money.trySum (parts.map (·.base)) order.currency = .ok subtotal ∧
      order.orderDiscount.resolve subtotal order.rounding = .ok orderDiscount ∧
      apportion orderDiscount (parts.map (·.base)) order.currency = .ok apportioned ∧
      settleLines order.pricingMode order.rounding order.lines parts apportioned [] =
        .ok (totals.lines, groups) ∧ totals.taxGroups = sortGroups groups := by
  unfold calculate at h
  split at h
  · cases h
  simp only [Except.bind_eq_ok, Except.mapError_eq_ok] at h
  obtain ⟨parts, hparts, subtotal, hsubtotal, orderDiscount, hdiscount, apportioned, happortioned,
    ⟨lines, groups⟩, hsettle, _, _, _, _, _, _, _, _, _, _, h⟩ := h
  cases h
  exact ⟨parts, subtotal, orderDiscount, apportioned, groups, hparts, hsubtotal, hdiscount,
    happortioned, hsettle, rfl⟩

/-- Every line of an order is settled by itself, in order. -/
theorem calculate_settled {order : OrderInput} {totals : OrderTotals}
    (h : calculate order = .ok totals) :
    List.Forall₂ (LineInput.SettlesTo order.pricingMode order.rounding)
      order.lines totals.lines := by
  obtain ⟨parts, _, _, _, _, hparts, _, _, _, hsettle, _⟩ := calculate_steps h
  exact settleLines_settled (lineParts_of hparts) hsettle

/-- An order without lines is not calculated. -/
theorem calculate_lines_ne_nil {order : OrderInput} {totals : OrderTotals}
    (h : calculate order = .ok totals) : totals.lines ≠ [] := by
  have hlength := (calculate_settled h).length_eq
  unfold calculate at h
  split at h
  · cases h
  rename_i hsome
  intro hnone
  rw [hnone, List.length_nil, List.length_eq_zero_iff] at hlength
  exact hsome (List.isEmpty_iff.mpr hlength)

/-- A supply at no rate carries no tax. -/
theorem settleLine_untaxed {mode : PricingMode} {rounding : Rounding} {line : LineInput}
    {part : LineParts} {share : Money} {t : LineTotals}
    (h : settleLine mode rounding line part share = .ok t) (hrate : t.taxClass.rate.isZero) :
    t.tax.minor.val = 0 := by
  simp only [settleLine, Except.bind_eq_ok] at h
  obtain ⟨taxable, _, ⟨net, tax⟩, hresolve, _, _, _, _, h⟩ := h
  cases h
  simp only [resolveTax, if_pos hrate] at hresolve
  cases hresolve
  rfl

theorem calculate_untaxed {order : OrderInput} {totals : OrderTotals}
    (h : calculate order = .ok totals) {line : LineTotals} (hline : line ∈ totals.lines)
    (hrate : line.taxClass.rate.isZero) : line.tax.minor.val = 0 := by
  obtain ⟨input, -, part, share, -, hsettle⟩ := forall₂_mem_right (calculate_settled h) hline
  exact settleLine_untaxed hsettle hrate

/-- The gross of an order is the exact sum of what its lines come to undiscounted. -/
theorem calculate_gross {order : OrderInput} {totals : OrderTotals}
    (h : calculate order = .ok totals) :
    ∃ grosses, List.Forall₂ (fun line gross => line.unitPrice.mulRatio line.quantity.milli
      Quantity.milliPerUnit order.rounding = .ok gross) order.lines grosses ∧
      totals.gross.IsSum grosses := by
  refine ⟨totals.lines.map (·.gross), ?_, (exact_of_calculate h).gross⟩
  refine List.forall₂_map_right_iff.mpr ((calculate_settled h).imp fun line t hsettles => ?_)
  obtain ⟨part, share, hpart, ht⟩ := hsettles
  rw [settleLine_gross ht]
  exact hpart.gross

/-- A basket of two classes with an order discount, priced inclusive of tax. -/
def mixedBasket : OrderInput where
  currency := .bdt
  pricingMode := .taxInclusive
  rounding := .halfUp
  lines := [
    { unitPrice := ⟨I64.lit 10000, .bdt⟩, quantity := Quantity.one,
      taxClass := .standard ⟨I32.lit 1500⟩, discount := .none },
    { unitPrice := ⟨I64.lit 333, .bdt⟩, quantity := ⟨I64.lit 1500⟩,
      taxClass := .exempt, discount := .percentage ⟨I32.lit 1000⟩ }]
  orderDiscount := .amount ⟨I64.lit 5000, .bdt⟩

theorem calculate_exact_mixedBasket :
    ∃ totals, calculate mixedBasket = .ok totals ∧ totals.Exact .taxInclusive := by
  obtain ⟨totals, h⟩ := Except.isOkay_iff.mp (show (calculate mixedBasket).isOkay = true by decide)
  exact ⟨totals, h, calculate_exact h⟩

end Sahl
