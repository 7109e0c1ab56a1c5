import Mathlib.Tactic
import Sahl.Core.Catalogue

/-! # A scan resolves to one product

    A barcode is looked for among all products, withdrawn ones included, and the first that carries
    it is the answer. There is never a second: whatever events arrive, in whatever order, each
    barcode is on one product at most (`scan_resolves`). -/

namespace Sahl

/-- Two products carry one barcode. -/
def Product.SharesBarcode (product other : Product) : Prop :=
  ∃ barcode ∈ product.barcodes, barcode ∈ other.barcodes

theorem Product.sharesBarcode_symm (product other : Product) (h : product.SharesBarcode other) :
    other.SharesBarcode product := by
  obtain ⟨barcode, hproduct, hother⟩ := h
  exact ⟨barcode, hother, hproduct⟩

namespace Catalogue

/-! ## Section 1: The catalogue, event by event -/

def setActiveInPlace (productId : Uuid) (active : Bool) : Method CatalogueError Catalogue Unit := do
  let catalogue ← MonadState.get
  let product ← Method.check (Except.okOr catalogue.products[productId]? (.unknown productId))
  modify fun catalogue => ⟨catalogue.products.insert productId { product with active }⟩

/-- The changes of one event, in the order they are made. -/
def applyInPlace (event : CatalogueEvent) : Method CatalogueError Catalogue Unit :=
  match event with
  | .productAdded productId .. => do
    let catalogue ← MonadState.get
    Method.refuseIf (catalogue.products.contains productId) (.duplicate productId)
    let product ← Method.check (event.toProduct true)
    Method.check (catalogue.assertBarcodesFree product)
    modify fun catalogue => ⟨catalogue.products.insert productId product⟩
  | .productUpdated productId .. => do
    let catalogue ← MonadState.get
    let existing ← Method.check (Except.okOr catalogue.products[productId]? (.unknown productId))
    let product ← Method.check (event.toProduct existing.active)
    Method.check (catalogue.assertBarcodesFree product)
    modify fun catalogue => ⟨catalogue.products.insert productId product⟩
  | .productWithdrawn productId .. => setActiveInPlace productId false
  | .productRestored productId .. => setActiveInPlace productId true

/-- What a scanner found, if anything; withdrawn products are still matched. -/
def byBarcode (catalogue : Catalogue) (barcode : String) : Option Product :=
  catalogue.products.values.find? fun product => product.barcodes.any (· = barcode)

theorem on_setActiveInPlace (productId : Uuid) (active : Bool) (catalogue : Catalogue) :
    (setActiveInPlace productId active).on catalogue =
      .ofExcept catalogue (catalogue.setActive productId active) := by
  unfold setActiveInPlace setActive
  rw [Method.on_get_bind]
  exact Method.on_check_bind fun product => rfl

/-- Every check of an event stands before its change. -/
theorem applyInPlace_eq (catalogue : Catalogue) (event : CatalogueEvent) :
    (applyInPlace event).on catalogue = .ofExcept catalogue (catalogue.apply event) := by
  cases event with
  | productAdded productId details at' addedBy =>
    rw [applyInPlace, Method.on_get_bind, apply]
    refine Method.on_refuseIf_bind ?_
    exact Method.on_check_bind fun product => Method.on_check_bind fun _ => rfl
  | productUpdated productId details at' updatedBy =>
    rw [applyInPlace, Method.on_get_bind, apply]
    refine Method.on_check_bind fun existing => ?_
    exact Method.on_check_bind fun product => Method.on_check_bind fun _ => rfl
  | productWithdrawn productId => exact on_setActiveInPlace productId false catalogue
  | productRestored productId => exact on_setActiveInPlace productId true catalogue

theorem step_state (catalogue : Catalogue) (event : CatalogueEvent) :
    ((applyInPlace event).on catalogue).state =
      (catalogue.apply event).toOption.getD catalogue := by
  rw [applyInPlace_eq]
  cases catalogue.apply event <;> rfl

/-- The catalogue any events lead to; one that is refused leaves it as it was. -/
def reached (events : List CatalogueEvent) : Catalogue :=
  events.foldl (fun catalogue event => ((applyInPlace event).on catalogue).state) .new

/-! ## Section 2: One event -/

/-- Every product stands under its own id, is valid, and shares no barcode. -/
structure Sound (catalogue : Catalogue) : Prop where
  filed : ∀ (productId : Uuid) (product : Product),
    catalogue.products[productId]? = some product → product.id = productId
  valid : ∀ (productId : Uuid) (product : Product),
    catalogue.products[productId]? = some product → product.validate = .ok ()
  apart : catalogue.products.Apart Product.SharesBarcode

variable {catalogue catalogue' : Catalogue} {event : CatalogueEvent}

theorem toProduct_described {active : Bool} {product : Product}
    (h : event.toProduct active = .ok product) :
    product.id = event.productId ∧ product.active = active ∧ product.validate = .ok () := by
  cases event with
  | productAdded | productUpdated =>
    obtain ⟨_, hvalid, h⟩ := Except.bind_eq_ok.mp h
    cases h
    exact ⟨rfl, rfl, hvalid⟩
  | productWithdrawn | productRestored => cases h

/-- Barcodes are free where no other product carries one of them. -/
theorem assertBarcodesFree_eq_ok (hsound : catalogue.Sound) {product : Product} :
    catalogue.assertBarcodesFree product = .ok () ↔
      ∀ (b : Uuid) (other : Product), product.id ≠ b → catalogue.products[b]? = some other →
        ¬ product.SharesBarcode other := by
  unfold assertBarcodesFree
  rw [forM_eq_ok]
  trans ∀ barcode ∈ product.barcodes, ∀ other ∈ catalogue.products.values,
    other.id ≠ product.id → barcode ∉ other.barcodes
  · -- one barcode is free when no other product carries it
    refine forall₂_congr fun barcode _ => ?_
    cases hfound : catalogue.products.values.find?
        fun other => other.id ≠ product.id ∧ barcode ∈ other.barcodes with
    | none => simpa using hfound
    | some existing =>
      refine iff_of_false (fun hrefused => ?_) fun hfree => ?_
      · cases hrefused
      · have hcarries := List.find?_some hfound
        simp only [decide_eq_true_eq] at hcarries
        exact hfree existing (List.mem_of_find?_eq_some hfound) hcarries.1 hcarries.2
  simp only [UuidMap.mem_values]
  constructor
  · rintro hfree b other hother hget ⟨barcode, hproduct, hcarries⟩
    refine hfree barcode hproduct other ⟨b, hget⟩ ?_ hcarries
    rw [hsound.filed b other hget]
    exact hother.symm
  · rintro hfree barcode hproduct other ⟨b, hget⟩ hother hcarries
    rw [hsound.filed b other hget] at hother
    exact hfree b other hother.symm hget ⟨barcode, hproduct, hcarries⟩

/-- A product goes under its id where it is valid and shares no barcode. -/
theorem sound_insert (hsound : catalogue.Sound) {productId : Uuid} {product : Product}
    (hid : product.id = productId) (hvalid : product.validate = .ok ())
    (hfree : ∀ (b : Uuid) (other : Product), productId ≠ b → catalogue.products[b]? = some other →
      ¬ product.SharesBarcode other) : Sound ⟨catalogue.products.insert productId product⟩ := by
  constructor
  · intro key other hother
    rw [UuidMap.get_insert] at hother
    split at hother
    · rename_i hkey
      cases hother
      exact hid.trans hkey
    · exact hsound.filed key other hother
  · intro key other hother
    rw [UuidMap.get_insert] at hother
    split at hother
    · cases hother
      exact hvalid
    · exact hsound.valid key other hother
  · exact (UuidMap.apart_insert_iff Product.sharesBarcode_symm hsound.apart productId product).mpr
      hfree

theorem sound_place (hsound : catalogue.Sound) {active : Bool}
    (h : catalogue.place event active = .ok catalogue') : catalogue'.Sound := by
  obtain ⟨product, hproduct, h⟩ := Except.bind_eq_ok.mp h
  obtain ⟨_, hfree, h⟩ := Except.bind_eq_ok.mp h
  cases h
  obtain ⟨hid, -, hvalid⟩ := toProduct_described hproduct
  refine sound_insert hsound hid hvalid ?_
  rw [← hid]
  exact (assertBarcodesFree_eq_ok hsound).mp hfree

theorem sound_setActive (hsound : catalogue.Sound) {productId : Uuid} {active : Bool}
    (h : catalogue.setActive productId active = .ok catalogue') : catalogue'.Sound := by
  obtain ⟨product, hproduct, h⟩ := Except.bind_eq_ok.mp h
  cases h
  rw [Except.okOr_eq_ok] at hproduct
  have hid : product.id = productId := hsound.filed productId product hproduct
  have hvalid : product.validate = .ok () := hsound.valid productId product hproduct
  -- neither what makes a product valid nor its barcodes change
  exact sound_insert hsound hid hvalid fun b other hne hother =>
    hsound.apart productId b product other hne hproduct hother

theorem sound_apply (hsound : catalogue.Sound) (h : catalogue.apply event = .ok catalogue') :
    catalogue'.Sound := by
  cases event with
  | productAdded productId details at' addedBy =>
    rw [apply] at h
    split at h
    · cases h
    · exact sound_place hsound h
  | productUpdated productId details at' updatedBy =>
    obtain ⟨existing, -, h⟩ := Except.bind_eq_ok.mp h
    exact sound_place hsound h
  | productWithdrawn => exact sound_setActive hsound h
  | productRestored => exact sound_setActive hsound h

theorem sound_step (hsound : catalogue.Sound) (event : CatalogueEvent) :
    ((applyInPlace event).on catalogue).state.Sound := by
  rw [step_state]
  cases happly : catalogue.apply event with
  | error error => exact hsound
  | ok catalogue' => exact sound_apply hsound happly

theorem sound_reached (events : List CatalogueEvent) : (reached events).Sound := by
  induction events using List.reverseRecOn with
  | nil =>
    refine ⟨?_, ?_, UuidMap.apart_empty _⟩
    · intro productId product hproduct
      simp [reached, new] at hproduct
    · intro productId product hproduct
      simp [reached, new] at hproduct
  | append_singleton events event ih =>
    rw [reached, List.foldl_append]
    exact sound_step ih event

/-- An update leaves every product on the sell screen, or off it, as it was. -/
theorem apply_updated_active {productId : Uuid} {details : ProductDetails} {at' : Timestamp}
    {updatedBy : Uuid}
    (h : catalogue.apply (.productUpdated productId details at' updatedBy) = .ok catalogue')
    (other : Uuid) :
    catalogue'.products[other]?.map (·.active) = catalogue.products[other]?.map (·.active) := by
  obtain ⟨existing, hexisting, h⟩ := Except.bind_eq_ok.mp h
  obtain ⟨product, hproduct, h⟩ := Except.bind_eq_ok.mp h
  obtain ⟨_, -, h⟩ := Except.bind_eq_ok.mp h
  cases h
  rw [Except.okOr_eq_ok] at hexisting
  simp only [UuidMap.get_insert]
  split
  · rename_i hid
    change productId = other at hid
    rw [← hid, hexisting, Option.map_some, Option.map_some, (toProduct_described hproduct).2.1]
  · rfl

/-! ## Section 3: What a scan finds -/

/-- A scan finds a product that carries the barcode, where one does. -/
theorem byBarcode_eq_none {barcode : String} :
    catalogue.byBarcode barcode = none ↔
      ∀ (productId : Uuid) (product : Product), catalogue.products[productId]? = some product →
        barcode ∉ product.barcodes := by
  simp only [byBarcode, List.find?_eq_none, UuidMap.mem_values, forall_exists_index,
    List.any_eq_true, decide_eq_true_eq, exists_eq_right]
  exact ⟨fun h productId product => h product productId, fun h product productId => h productId product⟩

theorem byBarcode_eq_some (hsound : catalogue.Sound) {productId : Uuid} {product : Product}
    (hproduct : catalogue.products[productId]? = some product) {barcode : String}
    (hcarries : barcode ∈ product.barcodes) : catalogue.byBarcode barcode = some product := by
  cases hfound : catalogue.byBarcode barcode with
  | none => exact absurd hcarries (byBarcode_eq_none.mp hfound productId product hproduct)
  | some other =>
    have hother : barcode ∈ other.barcodes := by
      have hmatches := List.find?_some hfound
      simpa using hmatches
    obtain ⟨key, hkey⟩ := UuidMap.mem_values.mp (List.mem_of_find?_eq_some hfound)
    -- both carry it, so they stand under one id
    by_cases hid : productId = key
    · rw [hid, hkey] at hproduct
      exact hproduct
    · exact absurd ⟨barcode, hcarries, hother⟩
        (hsound.apart productId key product other hid hproduct hkey)

/-- Every barcode is on one product at most, which a scan of it finds; every product is valid. -/
structure Scannable (catalogue : Catalogue) : Prop where
  oneProduct : ∀ (a b : Uuid) (product other : Product) (barcode : String),
    catalogue.products[a]? = some product → catalogue.products[b]? = some other →
      barcode ∈ product.barcodes → barcode ∈ other.barcodes → a = b
  valid : ∀ (productId : Uuid) (product : Product),
    catalogue.products[productId]? = some product → product.validate = .ok ()
  found : ∀ (productId : Uuid) (product : Product) (barcode : String),
    catalogue.products[productId]? = some product → barcode ∈ product.barcodes →
      catalogue.byBarcode barcode = some product
  unknown : ∀ barcode : String, (∀ (productId : Uuid) (product : Product),
    catalogue.products[productId]? = some product → barcode ∉ product.barcodes) →
      catalogue.byBarcode barcode = none

/-- **A scan resolves to one product** after any events; an update leaves every product on the sell
    screen or off it, and an event that is refused leaves the catalogue, as it was. -/
theorem scan_resolves :
    (∀ events, (reached events).Scannable) ∧
    (∀ (catalogue : Catalogue) (productId : Uuid) (details : ProductDetails) (at' : Timestamp)
        (updatedBy other : Uuid),
      ((applyInPlace (.productUpdated productId details at' updatedBy)).on
          catalogue).state.products[other]?.map (·.active) =
        catalogue.products[other]?.map (·.active)) ∧
    ∀ (catalogue : Catalogue) (event : CatalogueEvent) (error : CatalogueError),
      ((applyInPlace event).on catalogue).answer = .error error →
        ((applyInPlace event).on catalogue).state = catalogue := by
  refine ⟨fun events => ?_, fun catalogue productId details at' updatedBy other => ?_,
    fun catalogue event error h => ?_⟩
  · have hsound := sound_reached events
    exact {
      oneProduct := by
        -- two active products that share a barcode would be apart and not apart
        intro a b product other barcode hproduct hother hcarries hcarries'
        by_contra hne
        exact hsound.apart a b product other hne hproduct hother ⟨barcode, hcarries, hcarries'⟩
      valid := hsound.valid
      found := fun _ _ _ hproduct hcarries => byBarcode_eq_some hsound hproduct hcarries
      unknown := fun _ hnone => byBarcode_eq_none.mpr hnone }
  · rw [step_state]
    cases happly : catalogue.apply (.productUpdated productId details at' updatedBy) with
    | error error => rfl
    | ok catalogue' => exact apply_updated_active happly other
  · rw [applyInPlace_eq] at h ⊢
    cases happly : catalogue.apply event with
    | error error => rfl
    | ok catalogue' =>
      rw [happly] at h
      cases h

/-- Rice is withdrawn, and its barcode asked for again. -/
example : (reached [.productAdded 1 ⟨"Rice", none, ["890"], ⟨I64.lit 480, .bdt⟩, .piece, .exempt,
      none, none, []⟩ .epoch 9, .productWithdrawn 1 .epoch 9,
    .productAdded 2 ⟨"Salt", none, ["890"], ⟨I64.lit 50, .bdt⟩, .piece, .exempt, none, none, []⟩
      .epoch 9]).byBarcode "890" = some ⟨1, "Rice", none, ["890"], ⟨I64.lit 480, .bdt⟩, .piece,
        .exempt, none, none, [], false⟩ := by decide

end Catalogue

end Sahl
