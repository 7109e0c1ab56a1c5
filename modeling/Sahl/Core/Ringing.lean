import Mathlib.Tactic
import Sahl.Core.Figures
import Sahl.Core.SaleCash

/-! # Ringing a supply up

    What is sold is a supply: a product at a price, under a tax class, with the options chosen.
    Ringing a quantity of it up either raises the line that already sells it or adds a line
    (`RungUp`), and the gross of the order grows by what that many units come to. -/

namespace Sahl

/-! ## Section 1: The gross of a sale -/

/-- What a quantity comes to at a price for one unit. -/
def unitsPrice (unit : Money) (quantity : Quantity) (rounding : Rounding) :
    Except MoneyError I128 := do
  let product ← Except.okOr (SInt.ofInt? (unit.minor.val * quantity.milli.val)) .overflow
  divideRounded product ⟨1000, by decide, by decide⟩ rounding

namespace SaleLine

/-- What a line comes to before any discount. -/
def gross (rounding : Rounding) (line : SaleLine) : Except MoneyError Money := do
  let unit ← line.effectiveUnitPrice
  unit.mulRatio line.quantity.milli Quantity.milliPerUnit rounding

end SaleLine

/-- The gross of the order; nothing, while no line is active. -/
def Sale.gross (sale : Sale) : Except SaleError Money :=
  match sale.totals with
  | .ok totals => .ok totals.gross
  | .error .noActiveLines => .ok (Money.zero sale.currency)
  | .error error => .error error

theorem unitsPrice_isOkay (unit : Money) (quantity : Quantity) (rounding : Rounding) :
    ∃ cost, unitsPrice unit quantity rounding = .ok cost := by
  have hsize := Money.abs_mul_le unit.minor quantity.milli
  obtain ⟨product, hproduct, hvalue⟩ := SInt.ofInt?_of_fits (w := 128)
    (n := unit.minor.val * quantity.milli.val) (by
      rw [abs_le] at hsize
      norm_num at hsize ⊢
      omega)
  obtain ⟨cost, hcost⟩ := divideRounded_isOkay (n := product)
    (d := ⟨1000, by decide, by decide⟩) rounding (by decide) (by decide) (by rwa [hvalue])
  exact ⟨cost, Except.bind_eq_ok.mpr ⟨product, by rw [hproduct]; rfl, hcost⟩⟩

theorem unitsPrice_rounds {unit : Money} {quantity : Quantity} {rounding : Rounding} {cost : I128}
    (h : unitsPrice unit quantity rounding = .ok cost) :
    rounding.Rounds (unit.minor.val * quantity.milli.val) 1000 cost.val := by
  simp only [unitsPrice, Except.bind_eq_ok, Except.okOr_eq_ok, SInt.ofInt?_eq_some] at h
  obtain ⟨product, hproduct, h⟩ := h
  rw [← hproduct]
  exact divideRounded_rounds (d := ⟨1000, by decide, by decide⟩) (by decide) h

theorem SaleLine.gross_eq_ok {rounding : Rounding} {line : SaleLine} {gross : Money}
    (h : line.gross rounding = .ok gross) :
    ∃ unit cost, line.effectiveUnitPrice = .ok unit ∧
      unitsPrice unit line.quantity rounding = .ok cost ∧ gross.minor.val = cost.val := by
  obtain ⟨unit, hunit, h⟩ := Except.bind_eq_ok.mp h
  simp only [Money.mulRatio, Except.bind_eq_ok, Except.okOr_eq_ok] at h
  obtain ⟨product, hproduct, cost, hcost, minor, hminor, h⟩ := h
  cases h
  refine ⟨unit, cost, hunit, ?_, SInt.ofInt?_eq_some.mp hminor⟩
  exact Except.bind_eq_ok.mpr ⟨product, Except.okOr_eq_ok.mpr hproduct, hcost⟩

theorem SaleLine.toTaxInput_gross {rounding : Rounding} {line : SaleLine} {input : LineInput}
    {gross : Money} (hinput : line.toTaxInput = .ok input)
    (h : input.unitPrice.mulRatio input.quantity.milli Quantity.milliPerUnit rounding = .ok gross) :
    line.gross rounding = .ok gross := by
  obtain ⟨unit, hunit, hinput⟩ := Except.bind_eq_ok.mp hinput
  cases hinput
  exact Except.bind_eq_ok.mpr ⟨unit, hunit, h⟩

/-- The gross is the exact sum of what the active lines come to. -/
theorem Sale.gross_eq_ok {sale : Sale} {gross : Money} (h : sale.gross = .ok gross) :
    ∃ grosses, (sale.lines.filter (·.isActive)).mapM (SaleLine.gross sale.rounding) = .ok grosses ∧
      gross.minor.val = (grosses.map (·.minor.val)).sum := by
  unfold Sale.gross at h
  cases htotals : sale.totals with
  | ok totals =>
    rw [htotals] at h
    cases h
    obtain ⟨inputs, hinputs, hcalculate⟩ := totals_eq_ok htotals
    obtain ⟨grosses, hgrosses, hsum⟩ := calculate_gross hcalculate
    refine ⟨grosses, mapM_eq_ok.mpr ?_, hsum.minor⟩
    exact forall₂_comp hinputs hgrosses fun _ _ _ hinput => SaleLine.toTaxInput_gross hinput
  | error error =>
    rw [htotals] at h
    cases error with
    | noActiveLines =>
      cases h
      -- a sale without active lines has no totals, and comes to nothing
      have hnone : sale.lines.filter (·.isActive) = [] := by
        unfold Sale.totals at htotals
        cases hinputs : (sale.lines.filter (·.isActive)).mapM SaleLine.toTaxInput with
        | error error =>
          rw [hinputs] at htotals
          cases htotals
        | ok inputs =>
          rw [hinputs] at htotals
          simp only [Except.mapError, bind, Except.bind] at htotals
          split at htotals
          · rename_i hempty
            have hlength := (mapM_eq_ok.mp hinputs).length_eq
            rw [List.isEmpty_iff.mp hempty] at hlength
            exact List.length_eq_zero_iff.mp hlength
          · split at htotals
            all_goals cases htotals
      exact ⟨[], by rw [hnone]; rfl, rfl⟩
    | _ => cases h

/-! ## Section 2: Lines that differ -/

namespace Sale

/-- No two lines of a sale share an id. -/
def LinesDistinct (sale : Sale) : Prop := (sale.lines.map (·.id)).Nodup

theorem updateLine_ids {lineId : Uuid} {f : SaleLine → Except SaleError SaleLine}
    {lines lines' : List SaleLine} (hf : ∀ line line', f line = .ok line' → line'.id = line.id)
    (h : updateLine lineId f lines = .ok lines') : lines'.map (·.id) = lines.map (·.id) := by
  induction lines generalizing lines' with
  | nil => cases h
  | cons line rest ih =>
    simp only [updateLine] at h
    split at h
    · obtain ⟨line', hline, h⟩ := Except.bind_eq_ok.mp h
      cases h
      rw [List.map_cons, List.map_cons, hf _ _ hline]
    · obtain ⟨rest', hrest, h⟩ := Except.bind_eq_ok.mp h
      cases h
      rw [List.map_cons, List.map_cons, ih hrest]

/-- Every line stays, or is the one that was changed. -/
theorem updateLine_keeps {lineId : Uuid} {f : SaleLine → Except SaleError SaleLine}
    {lines lines' : List SaleLine} (h : updateLine lineId f lines = .ok lines') :
    ∀ line ∈ lines, line ∈ lines' ∨
      line.id = lineId ∧ ∃ line', f line = .ok line' ∧ line' ∈ lines' := by
  induction lines generalizing lines' with
  | nil => cases h
  | cons first rest ih =>
    simp only [updateLine] at h
    split at h
    · rename_i hid
      obtain ⟨first', hfirst, h⟩ := Except.bind_eq_ok.mp h
      cases h
      refine List.forall_mem_cons.mpr ⟨?_, fun line hline => ?_⟩
      · exact .inr ⟨hid, first', hfirst, List.mem_cons_self⟩
      · exact .inl (List.mem_cons_of_mem _ hline)
    · obtain ⟨rest', hrest, h⟩ := Except.bind_eq_ok.mp h
      cases h
      refine List.forall_mem_cons.mpr ⟨.inl List.mem_cons_self, fun line hline => ?_⟩
      rcases ih hrest line hline with hkept | ⟨hid, line', hline', hmem⟩
      · exact .inl (List.mem_cons_of_mem _ hkept)
      · exact .inr ⟨hid, line', hline', List.mem_cons_of_mem _ hmem⟩

theorem transition_linesDistinct {sale sale' : Sale} {event : SaleEvent} (hd : sale.LinesDistinct)
    (h : sale.transition event = .ok sale') : sale'.LinesDistinct := by
  -- updates in place leave the ids alone
  have hupdated : ∀ {lineId : Uuid} {f : SaleLine → Except SaleError SaleLine} {lines : List SaleLine},
      (∀ line line', f line = .ok line' → line'.id = line.id) →
      updateLine lineId f sale.lines = .ok lines → (lines.map (·.id)).Nodup := by
    intro lineId f lines hf hlines
    rw [updateLine_ids hf hlines]
    exact hd
  cases transition_moved h with
  | @lineAdded saleId line price hnew =>
    show (List.map SaleLine.id (sale.lines ++ [line])).Nodup
    rw [List.map_append, List.nodup_append]
    refine ⟨hd, by simp, ?_⟩
    intro a ha b hb hab
    obtain ⟨other, hother, rfl⟩ := List.mem_map.mp ha
    rw [List.map_singleton, List.mem_singleton] at hb
    exact hnew other hother (hab.trans hb)
  | lineQuantityChanged hlines | lineDiscounted hlines =>
    refine hupdated (fun line line' hline => ?_) hlines
    cases hline
    rfl
  | lineVoided hlines =>
    refine hupdated (fun line line' hline => ?_) hlines
    split at hline
    all_goals cases hline
    rfl
  | completed hcomplete =>
    rw [(complete_eq_ok hcomplete).2.2.2.2]
    exact hd
  | orderDiscounted | tenderRecorded | ticketClaimed | ticketReleased | releaseIgnored | seated
  | linesFired | abandoned => exact hd

theorem Reached.linesDistinct {sale : Sale} (h : sale.Reached) : sale.LinesDistinct := by
  refine h.invariant (fun event sale hopened => ?_) fun _ _ _ => transition_linesDistinct
  cases event <;> cases hopened
  exact List.nodup_nil

/-- Where ids differ, the line found under an id is the line itself. -/
theorem updateLine_of_distinct {f : SaleLine → Except SaleError SaleLine}
    {before after : List SaleLine} {line : SaleLine}
    (hd : ((before ++ line :: after).map (·.id)).Nodup) :
    updateLine line.id f (before ++ line :: after) =
      (f line).map fun line' => before ++ line' :: after := by
  induction before with
  | nil =>
    simp only [List.nil_append, updateLine]
    cases f line <;> rfl
  | cons first before ih =>
    rw [List.cons_append, List.map_cons, List.nodup_cons] at hd
    have hother : first.id ≠ line.id := by
      intro hsame
      refine hd.1 (List.mem_map.mpr ⟨line, ?_, hsame.symm⟩)
      exact List.mem_append_right _ List.mem_cons_self
    rw [List.cons_append, updateLine, if_neg hother, ih hd.2]
    cases f line <;> rfl

end Sale

/-! ## Section 3: Supplies -/

/-- What a line sells, whatever the quantity. -/
structure Supply where
  productId : Uuid
  unitPrice : Money
  taxClass : TaxClass
  modifiers : List Modifier
  deriving DecidableEq

/-- What one unit costs, options included. -/
def Supply.unit (supply : Supply) : Except MoneyError Money :=
  supply.modifiers.foldlM (fun price modifier => price.checkedAdd modifier.priceDelta)
    supply.unitPrice

namespace SaleLine

def supply (line : SaleLine) : Supply :=
  { productId := line.productId, unitPrice := line.unitPrice, taxClass := line.taxClass,
    modifiers := line.modifiers }

/-- Whether more of the supply can go on this line: a discounted line keeps its own row. -/
def takes (line : SaleLine) (supply : Supply) : Bool :=
  line.supply = supply ∧ line.discount = .none

end SaleLine

namespace Sale

/-- The line that more of a supply goes on. -/
def mergeable (sale : Sale) (supply : Supply) : Option SaleLine :=
  sale.activeLines.find? (·.takes supply)

/-- The gross grows by what a quantity of a supply comes to, give or take `slack` units. -/
def GrossGrows (sale sale' : Sale) (supply : Supply) (quantity : Quantity) (slack : Int) : Prop :=
  ∀ gross gross', sale.gross = .ok gross → sale'.gross = .ok gross' →
    ∃ unit cost, supply.unit = .ok unit ∧ unitsPrice unit quantity sale.rounding = .ok cost ∧
      |gross'.minor.val - gross.minor.val - cost.val| ≤ slack

/-- The sale afterwards differs from the sale before by a quantity of a supply. -/
inductive RungUp (sale sale' : Sale) (supply : Supply) (quantity : Quantity) : Prop where
  /-- A line that sells it undiscounted is raised. -/
  | merged (before after : List SaleLine) (line : SaleLine) (raised : Quantity) :
      sale.lines = before ++ line :: after → line.isActive → line.takes supply →
      raised.milli.val = line.quantity.milli.val + quantity.milli.val →
      sale' = { sale with lines := before ++ { line with quantity := raised } :: after } →
      sale.GrossGrows sale' supply quantity 1 → RungUp sale sale' supply quantity
  /-- A line that sells it undiscounted is added. -/
  | added (line : SaleLine) : line.isActive → line.takes supply → line.quantity = quantity →
      sale' = { sale with lines := sale.lines ++ [line] } →
      sale.GrossGrows sale' supply quantity 0 → RungUp sale sale' supply quantity

theorem mergeable_eq_some {sale : Sale} {supply : Supply} {line : SaleLine}
    (h : sale.mergeable supply = some line) :
    line ∈ sale.lines ∧ line.isActive ∧ line.takes supply := by
  have hmem := List.mem_of_find?_eq_some h
  have htakes := List.find?_some h
  exact ⟨List.mem_of_mem_filter hmem, (List.mem_filter.mp hmem).2, htakes⟩

theorem mergeable_isSome {sale : Sale} {supply : Supply} {line : SaleLine}
    (hmem : line ∈ sale.lines) (hactive : line.isActive) (htakes : line.takes supply) :
    (sale.mergeable supply).isSome := by
  rw [mergeable, List.find?_isSome]
  exact ⟨line, List.mem_filter.mpr ⟨hmem, hactive⟩, htakes⟩

/-! ### How the gross grows -/

theorem grossGrows_added {sale : Sale} {line : SaleLine} (hactive : line.isActive) :
    sale.GrossGrows { sale with lines := sale.lines ++ [line] } line.supply line.quantity 0 := by
  intro gross gross' hgross hgross'
  obtain ⟨grosses, hgrosses, hsum⟩ := gross_eq_ok hgross
  obtain ⟨grosses', hgrosses', hsum'⟩ := gross_eq_ok hgross'
  simp only [List.filter_append, List.filter_cons, hactive, if_true, List.filter_nil,
    mapM_append_eq_ok, mapM_cons_eq_ok, List.mapM_nil, Except.pure_eq_ok] at hgrosses'
  obtain ⟨earlier, _, hearlier, ⟨own, _, hown, rfl, rfl⟩, rfl⟩ := hgrosses'
  obtain rfl : grosses = earlier := Except.ok.inj (hgrosses.symm.trans hearlier)
  obtain ⟨unit, cost, hunit, hcost, hvalue⟩ := SaleLine.gross_eq_ok hown
  refine ⟨unit, cost, hunit, hcost, ?_⟩
  rw [List.map_append, List.sum_append, List.map_singleton, List.sum_singleton] at hsum'
  have hexact : gross'.minor.val - gross.minor.val - cost.val = 0 := by omega
  rw [hexact, abs_zero]

theorem grossGrows_merged {sale : Sale} {before after : List SaleLine} {line : SaleLine}
    {quantity raised : Quantity} (hlines : sale.lines = before ++ line :: after)
    (hactive : line.isActive)
    (hraised : raised.milli.val = line.quantity.milli.val + quantity.milli.val) :
    sale.GrossGrows
      { sale with lines := before ++ { line with quantity := raised } :: after }
      line.supply quantity 1 := by
  intro gross gross' hgross hgross'
  obtain ⟨grosses, hgrosses, hsum⟩ := gross_eq_ok hgross
  obtain ⟨grosses', hgrosses', hsum'⟩ := gross_eq_ok hgross'
  have hstill : ({ line with quantity := raised } : SaleLine).isActive = true := hactive
  simp only [hlines, List.filter_append, List.filter_cons, hactive, hstill, if_true,
    mapM_append_eq_ok, mapM_cons_eq_ok] at hgrosses hgrosses'
  obtain ⟨us, _, hus, ⟨own, vs, hown, hvs, rfl⟩, rfl⟩ := hgrosses
  obtain ⟨us', _, hus', ⟨own', vs', hown', hvs', rfl⟩, rfl⟩ := hgrosses'
  obtain rfl : us = us' := Except.ok.inj (hus.symm.trans hus')
  obtain rfl : vs = vs' := Except.ok.inj (hvs.symm.trans hvs')
  obtain ⟨unit, old, hunit, hold, hvalue⟩ := SaleLine.gross_eq_ok hown
  obtain ⟨unit', new, hunit', hnew, hvalue'⟩ := SaleLine.gross_eq_ok hown'
  obtain rfl : unit = unit' := Except.ok.inj (hunit.symm.trans hunit')
  obtain ⟨cost, hcost⟩ := unitsPrice_isOkay unit quantity sale.rounding
  refine ⟨unit, cost, hunit, hcost, ?_⟩
  -- the raised quantity is the sum, and the price of a sum is within one of the prices
  have htogether := unitsPrice_rounds hnew
  rw [hraised, mul_add] at htogether
  have hnear := (unitsPrice_rounds hold).add (unitsPrice_rounds hcost) htogether
  simp only [List.map_append, List.sum_append, List.map_cons, List.sum_cons] at hsum hsum'
  have hgrowth : gross'.minor.val - gross.minor.val - cost.val = new.val - old.val - cost.val := by
    omega
  rw [hgrowth]
  exact hnear

/-! ### The two events -/

/-- A raised quantity rings the supply up. -/
theorem rungUp_lineQuantityChanged {sale sale' : Sale} {supply : Supply} {line : SaleLine}
    {saleId : Uuid} {quantity raised : Quantity} (hd : sale.LinesDistinct)
    (hline : sale.mergeable supply = some line)
    (hraised : raised.milli.val = line.quantity.milli.val + quantity.milli.val)
    (h : (sale.apply (.lineQuantityChanged saleId line.id raised)).toExcept = .ok sale') :
    sale.RungUp sale' supply quantity := by
  obtain ⟨hmem, hactive, htakes⟩ := mergeable_eq_some hline
  obtain ⟨-, htransition, -⟩ := apply_eq_ok h
  obtain ⟨before, after, hlines⟩ := List.append_of_mem hmem
  unfold LinesDistinct at hd
  simp only [transition] at htransition
  rw [hlines] at hd htransition
  rw [updateLine_of_distinct hd] at htransition
  cases htransition
  have hsupply : line.supply = supply := (of_decide_eq_true htakes).1
  have hgross := grossGrows_merged hlines hactive hraised
  rw [hsupply] at hgross
  exact .merged before after line raised hlines hactive htakes hraised rfl hgross

/-- A new line rings the supply up when it carries the options of the supply. -/
theorem rungUp_lineAdded_iff {sale sale' : Sale} {supply : Supply} {saleId lineId : Uuid}
    {name : String} {quantity : Quantity} {modifiers : List Modifier}
    (hnone : sale.mergeable supply = none)
    (h : (sale.apply (.lineAdded saleId lineId supply.productId name supply.unitPrice quantity
      supply.taxClass modifiers)).toExcept = .ok sale') :
    sale.RungUp sale' supply quantity ↔ modifiers = supply.modifiers := by
  obtain ⟨-, htransition, -⟩ := apply_eq_ok h
  simp only [transition] at htransition
  split at htransition
  · cases htransition
  simp only [Except.bind_eq_ok] at htransition
  obtain ⟨price, -, htransition⟩ := htransition
  split at htransition
  · cases htransition
  cases htransition
  constructor
  · intro hrung
    cases hrung with
    | merged before after line raised hlines hactive htakes =>
      -- a line that takes the supply would have been found mergeable
      have hmem : line ∈ sale.lines := by simp [hlines]
      have := mergeable_isSome hmem hactive htakes
      rw [hnone] at this
      cases this
    | added line hactive htakes hquantity hsale hgross =>
      have hlines := congrArg (·.lines) hsale
      have hlast : _ = line := List.singleton_inj.mp (List.append_cancel_left hlines)
      have hsupply := (of_decide_eq_true htakes).1
      rw [← hsupply, ← hlast]
      rfl
  · intro hmodifiers
    subst hmodifiers
    exact .added _ rfl (by simp [SaleLine.takes, SaleLine.supply]) rfl rfl
      (grossGrows_added rfl)

end Sale

end Sahl
