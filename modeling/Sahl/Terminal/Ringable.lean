import Mathlib.Tactic
import Sahl.Core.Choices
import Sahl.Terminal.Commands

/-! # Whether a product can be rung at all

    A product is validated when it enters the catalogue, and what a cashier chooses is checked
    when a line is rung; the first promises nothing about the second.

    The main result is `ringable_iff`. -/

namespace Sahl

namespace Terminal

/-! ## Section 1: A line that is accepted -/

/-- Some choices resolve, and every open sale takes the line they make at the product's price. -/
def Ringable (t : Terminal) (productId : Uuid) (product : Product) : Prop :=
  ∃ chosen modifiers, t.resolveModifiers productId chosen = .ok modifiers ∧
    ∀ (sale : Sale) (lineId : Uuid) (quantity : Quantity), sale.status = .open →
      (∀ line ∈ sale.lines, line.id ≠ lineId) →
      (sale.apply (.lineAdded sale.id lineId productId product.name product.price quantity
        product.taxClass modifiers)).toExcept.isOkay

/-- What choices resolve to adds their deltas, where they satisfy every group. -/
theorem resolveModifiers_eq_ok {t : Terminal} {productId : Uuid} {product : Product}
    (hget : t.catalogue.get productId = some product) {chosen : List Uuid}
    {modifiers : List Modifier} (h : t.resolveModifiers productId chosen = .ok modifiers) :
    (∀ group ∈ product.optionGroups, group.check chosen = .ok ()) ∧
      modifiers.map (·.priceDelta) = product.deltas chosen := by
  simp only [resolveModifiers, hget, Except.bind_eq_ok] at h
  obtain ⟨_, hchecks, h⟩ := h
  cases h
  constructor
  · intro group hgroup
    exact Except.mapError_eq_ok.mp (forM_eq_ok.mp hchecks group hgroup)
  · simp only [List.map_flatMap, List.map_filterMap, Option.map_map]
    rfl

theorem resolveModifiers_isOkay {t : Terminal} {productId : Uuid} {product : Product}
    (hget : t.catalogue.get productId = some product) {chosen : List Uuid}
    (hchecks : ∀ group ∈ product.optionGroups, group.check chosen = .ok ()) :
    (t.resolveModifiers productId chosen).isOkay := by
  have hall : (product.optionGroups.forM fun group =>
      (group.check chosen).mapError TerminalError.catalogue) = .ok () :=
    forM_eq_ok.mpr fun group hgroup => Except.mapError_eq_ok.mpr (hchecks group hgroup)
  simp only [resolveModifiers, hget, hall]
  rfl

/-- A new line is accepted where its options add up and leave its price at zero or above. -/
theorem apply_lineAdded_isOkay {sale : Sale} {lineId productId : Uuid} {name : String}
    {price : Money} {quantity : Quantity} {taxClass : TaxClass} {modifiers : List Modifier}
    (hopen : sale.status = .open) (hnew : ∀ line ∈ sale.lines, line.id ≠ lineId) :
    (sale.apply (.lineAdded sale.id lineId productId name price quantity taxClass
      modifiers)).toExcept.isOkay ↔
      Money.AddsUp price.currency price.minor.val (modifiers.map (·.priceDelta)) ∧
        0 ≤ price.minor.val + ((modifiers.map (·.priceDelta)).map (·.minor.val)).sum := by
  let line : SaleLine :=
    { id := lineId, productId, name, unitPrice := price, quantity, taxClass, discount := .none,
      modifiers, void := none }
  have hprice : line.effectiveUnitPrice =
      (modifiers.map (·.priceDelta)).foldlM Money.checkedAdd price := by
    rw [List.foldlM_map]
    rfl
  have hfree : sale.lines.any (·.id = lineId) = false := by
    rw [List.any_eq_false]
    intro other hother
    simpa using hnew other hother
  -- the sale is open and the id new, so the price alone decides
  have happly : (sale.apply (.lineAdded sale.id lineId productId name price quantity taxClass
      modifiers)).toExcept.isOkay ↔
      ∃ total, line.effectiveUnitPrice = .ok total ∧ total.isNegative = false := by
    have hbody : (sale.apply (.lineAdded sale.id lineId productId name price quantity taxClass
        modifiers)).toExcept = sale.transition (.lineAdded sale.id lineId productId name price
        quantity taxClass modifiers) := by
      simp [Sale.apply, SaleEvent.saleId, hopen]
    rw [hbody, Sale.transition, hfree, if_neg Bool.false_ne_true]
    show (line.effectiveUnitPrice.mapError SaleError.money >>= _).isOkay ↔ _
    simp only [Except.bind_isOkay, Except.mapError_eq_ok]
    refine exists_congr fun total => and_congr_right fun _ => ?_
    cases total.isNegative <;> simp [Except.isOkay]
  rw [happly, hprice, ← Money.foldlM_checkedAdd_isOkay_iff, Except.isOkay_iff]
  constructor
  · intro h
    obtain ⟨total, htotal, hsign⟩ := h
    rw [Money.isNegative, decide_eq_false_iff_not, not_lt, Money.foldlM_checkedAdd_minor htotal]
      at hsign
    exact ⟨⟨total, htotal⟩, hsign⟩
  · intro h
    obtain ⟨⟨total, htotal⟩, hsign⟩ := h
    refine ⟨total, htotal, ?_⟩
    rw [Money.isNegative, decide_eq_false_iff_not, not_lt, Money.foldlM_checkedAdd_minor htotal]
    exact hsign

/-! ## Section 2: Which products can be rung -/

/-- A sale nothing has been added to. -/
def blankSale : Sale :=
  { id := 1, status := .open, openedBy := 7, currency := .bdt, pricingMode := .taxInclusive,
    rounding := .halfUp, lines := [], orderDiscount := .none, tenders := [], settledTotal := none,
    changeGiven := none, settledAt := none, lease := none, seating := none, fired := [],
    roundsFired := 0 }

/-- A product can be rung where some list of choices is one it takes. -/
theorem ringable_iff_takes {t : Terminal} {productId : Uuid} {product : Product}
    (hget : t.catalogue.get productId = some product) :
    t.Ringable productId product ↔ ∃ chosen, product.Takes chosen := by
  constructor
  · intro ⟨chosen, modifiers, hresolve, haccepted⟩
    obtain ⟨hchecks, hdeltas⟩ := resolveModifiers_eq_ok hget hresolve
    have hblank := haccepted blankSale 1 Quantity.one rfl (by simp [blankSale])
    rw [apply_lineAdded_isOkay rfl (by simp [blankSale]), hdeltas] at hblank
    exact ⟨chosen, fun group hgroup => ModifierGroup.check_eq_ok.mp (hchecks group hgroup),
      hblank.1, hblank.2⟩
  · intro ⟨chosen, htakes⟩
    obtain ⟨modifiers, hresolve⟩ := Except.isOkay_iff.mp
      (resolveModifiers_isOkay hget fun group hgroup =>
        ModifierGroup.check_eq_ok.mpr (htakes.counts group hgroup))
    refine ⟨chosen, modifiers, hresolve, fun sale lineId quantity hopen hnew => ?_⟩
    rw [apply_lineAdded_isOkay hopen hnew, (resolveModifiers_eq_ok hget hresolve).2]
    exact ⟨htakes.addsUp, htakes.nonnegative⟩

/-- Where no choices take the price out of range, only how often each option is taken matters. -/
theorem ringable_iff_affords {t : Terminal} {productId : Uuid} {product : Product}
    (hget : t.catalogue.get productId = some product) (hvalid : product.validate = .ok ())
    (hmoderate : product.Moderate) :
    t.Ringable productId product ↔ ∃ taken, product.Affords taken := by
  rw [ringable_iff_takes hget]
  constructor
  · intro ⟨chosen, htakes⟩
    exact ⟨_, htakes.affords⟩
  · intro ⟨taken, haffords⟩
    exact haffords.takes (Product.validate_eq_ok hvalid).1 hmoderate

/-- Where moreover no two groups offer one option, each is best taken on its own. -/
theorem ringable_iff_payable {t : Terminal} {productId : Uuid} {product : Product}
    (hget : t.catalogue.get productId = some product) (hvalid : product.validate = .ok ())
    (hmoderate : product.Moderate) (hseparate : product.Separate) :
    t.Ringable productId product ↔ product.Payable := by
  rw [ringable_iff_affords hget hvalid hmoderate,
    Product.affords_iff_payable (Product.validate_eq_ok hvalid).2 hseparate]

/-- **Which products can be rung**: a product of the catalogue that validates can be rung exactly
    where some choices satisfy all its groups at once and leave its price in range and not below
    zero. Where no choices take the price out of range, that is a system of bounds on how often
    each option is taken; where moreover no two groups offer one option, it is that each group
    has what it asks for and the most they add leaves the price at zero or above. -/
theorem ringable_iff {t : Terminal} {productId : Uuid} {product : Product}
    (hget : t.catalogue.get productId = some product) (hvalid : product.validate = .ok ()) :
    (t.Ringable productId product ↔ ∃ chosen, product.Takes chosen) ∧
      (product.Moderate → (t.Ringable productId product ↔ ∃ taken, product.Affords taken)) ∧
      (product.Moderate → product.Separate →
        (t.Ringable productId product ↔ product.Payable)) :=
  ⟨ringable_iff_takes hget, ringable_iff_affords hget hvalid, ringable_iff_payable hget hvalid⟩

/-- A product on sale, with its groups. -/
def onSale (name : String) (price : I64) (optionGroups : List ModifierGroup) : Product :=
  { id := 12, name, sku := none, barcodes := [], price := ⟨price, .bdt⟩, unit := .piece,
    taxClass := .standard ⟨I32.lit 1500⟩, category := none, station := none, optionGroups,
    active := true }

/-- A till that has learnt of the product. -/
def carrying (product : Product) : Terminal :=
  let details : ProductDetails :=
    { name := product.name, sku := product.sku, barcodes := product.barcodes,
      price := product.price, unit := product.unit, taxClass := product.taxClass,
      category := product.category, station := product.station,
      optionGroups := product.optionGroups }
  till3.performAll plainDigests
    [(true, instant 0, .recordCatalogue (.productAdded product.id details (instant 0) 7) 101)]

/-- A burger in one of two sizes; going without cheese takes 20 off. -/
def burger : Product :=
  onSale "Burger" (I64.lit 30000)
    [⟨200, "Size", 1, 1, [⟨1, "Single", Money.zero .bdt⟩, ⟨2, "Double", ⟨I64.lit 15000, .bdt⟩⟩]⟩,
     ⟨201, "Without", 0, 1, [⟨3, "No cheese", ⟨I64.lit (-2000), .bdt⟩⟩]⟩]

theorem ringable_iff_burger : (carrying burger).Ringable 12 burger :=
  ((ringable_iff (by decide +kernel) (by decide +kernel)).2.2 (by decide +kernel)
    (by decide +kernel)).mpr (by decide +kernel)

/-- A side that must be had plain, which takes more off than it costs. -/
def plainSide : Product :=
  onSale "Side" (I64.lit 1000) [⟨200, "Sauce", 1, 1, [⟨1, "Plain", ⟨I64.lit (-2000), .bdt⟩⟩]⟩]

/-- The side passes every check of the catalogue and cannot be rung: the choice it asks for takes
    its price below zero. -/
theorem plainSide_not_ringable :
    (carrying plainSide).catalogue.get 12 = some plainSide ∧ plainSide.validate = .ok () ∧
      ¬ (carrying plainSide).Ringable 12 plainSide := by
  have hget : (carrying plainSide).catalogue.get 12 = some plainSide := by decide +kernel
  have hvalid : plainSide.validate = .ok () := by decide +kernel
  refine ⟨hget, hvalid, ?_⟩
  rw [ringable_iff_payable hget hvalid (by decide +kernel) (by decide +kernel)]
  decide +kernel

end Terminal

end Sahl
