import Mathlib.Tactic
import Sahl.Lib.Text
import Sahl.Core.Tax

/-! # The catalogue

    What a shop sells, rebuilt from catalogue events. A scan resolves to one product: a barcode
    is never put on a second one. -/

namespace Sahl

/-! ## Section 1: Products -/

inductive CatalogueError where
  | unknown (productId : Uuid)
  | duplicate (productId : Uuid)
  | blank (field : String)
  | negativePrice (price : Money)
  | duplicateBarcode (barcode : String) (productId : Uuid)
  | badGroupBounds (name : String) (min max : UInt8)
  | choiceCount (group : String) (min max : UInt8) (chosen : Nat)
  deriving DecidableEq

/-- How a supply is counted. -/
inductive MeasureUnit where
  | piece
  | kilogram
  | gram
  | litre
  | millilitre
  | metre
  | pack
  deriving DecidableEq

/-- Where an order is made. -/
inductive Station where
  | kitchen
  | bar
  | counter
  | pass
  deriving DecidableEq

structure ModifierOption where
  id : Uuid
  name : String
  priceDelta : Money
  deriving DecidableEq

/-- A set of choices offered on a product. -/
structure ModifierGroup where
  id : Uuid
  name : String
  min : UInt8
  max : UInt8
  options : List ModifierOption
  deriving DecidableEq

def ModifierGroup.validate (group : ModifierGroup) : Except CatalogueError Unit :=
  if Text.isBlank group.name then .error (.blank "group name")
  else if group.options.isEmpty then .error (.blank "group options")
  else if group.options.any (Text.isBlank ·.name) then .error (.blank "option name")
  else if group.max = 0 ∨ group.max < group.min then
    -- nobody could satisfy such a group
    .error (.badGroupBounds group.name group.min group.max)
  else if group.options.length < group.min.toNat then
    .error (.badGroupBounds group.name group.min group.max)
  else .ok ()

/-- Check a set of chosen option ids against this group. -/
def ModifierGroup.check (group : ModifierGroup) (chosen : List Uuid) : Except CatalogueError Unit :=
  let count := (chosen.filter fun id => group.options.any (·.id = id)).length
  if count < group.min.toNat ∨ group.max.toNat < count then
    .error (.choiceCount group.name group.min group.max count)
  else .ok ()

def ModifierGroup.option (group : ModifierGroup) (optionId : Uuid) : Option ModifierOption :=
  group.options.find? (·.id = optionId)

/-- Something a shop sells. -/
structure Product where
  id : Uuid
  name : String
  sku : Option String
  barcodes : List String
  price : Money
  unit : MeasureUnit
  taxClass : TaxClass
  category : Option String
  station : Option Station
  optionGroups : List ModifierGroup
  active : Bool
  deriving DecidableEq

/-- Check that a product is one a shop could sell. -/
def Product.validate (product : Product) : Except CatalogueError Unit :=
  if Text.isBlank product.name then .error (.blank "name")
  else if product.price.isNegative then .error (.negativePrice product.price)
  else if product.barcodes.any Text.isBlank then .error (.blank "barcode")
  else product.optionGroups.forM ModifierGroup.validate

/-! ## Section 2: Events -/

/-- The editable facts about a product. -/
structure ProductDetails where
  name : String
  sku : Option String
  barcodes : List String
  price : Money
  unit : MeasureUnit
  taxClass : TaxClass
  category : Option String
  station : Option Station
  optionGroups : List ModifierGroup
  deriving DecidableEq

/-- Everything that happens to the catalogue. -/
inductive CatalogueEvent where
  | productAdded (productId : Uuid) (details : ProductDetails) (at' : Timestamp) (addedBy : Uuid)
  | productUpdated (productId : Uuid) (details : ProductDetails) (at' : Timestamp)
      (updatedBy : Uuid)
  | productWithdrawn (productId : Uuid) (at' : Timestamp) (withdrawnBy : Uuid)
  | productRestored (productId : Uuid) (at' : Timestamp) (restoredBy : Uuid)
  deriving DecidableEq

namespace CatalogueEvent

def productId : CatalogueEvent → Uuid
  | productAdded productId .. | productUpdated productId .. | productWithdrawn productId ..
  | productRestored productId .. => productId

def kind : CatalogueEvent → String
  | productAdded .. => "catalogue.product_added"
  | productUpdated .. => "catalogue.product_updated"
  | productWithdrawn .. => "catalogue.product_withdrawn"
  | productRestored .. => "catalogue.product_restored"

/-- The product these details describe. -/
def toProduct (event : CatalogueEvent) (active : Bool) : Except CatalogueError Product :=
  match event with
  | productAdded productId details .. | productUpdated productId details .. => do
    let product : Product :=
      { id := productId, name := details.name, sku := details.sku, barcodes := details.barcodes,
        price := details.price, unit := details.unit, taxClass := details.taxClass,
        category := details.category, station := details.station,
        optionGroups := details.optionGroups, active }
    product.validate
    .ok product
  | productWithdrawn productId .. | productRestored productId .. => .error (.unknown productId)

end CatalogueEvent

/-! ## Section 3: The catalogue -/

/-- Everything a shop sells. -/
structure Catalogue where
  products : UuidMap Product
  deriving DecidableEq

namespace Catalogue

def new : Catalogue := ⟨∅⟩

def get (catalogue : Catalogue) (productId : Uuid) : Option Product := catalogue.products[productId]?

/-- Refuse a barcode already on a different product. -/
def assertBarcodesFree (catalogue : Catalogue) (product : Product) : Except CatalogueError Unit :=
  product.barcodes.forM fun barcode =>
    match catalogue.products.values.find?
      fun other => other.id ≠ product.id ∧ barcode ∈ other.barcodes with
    | some existing => .error (.duplicateBarcode barcode existing.id)
    | none => .ok ()

/-- Put a product under its id, its barcodes being free. -/
def place (catalogue : Catalogue) (event : CatalogueEvent) (active : Bool) :
    Except CatalogueError Catalogue := do
  let product ← event.toProduct active
  catalogue.assertBarcodesFree product
  .ok ⟨catalogue.products.insert event.productId product⟩

/-- Change whether a product is on the sell screen. -/
def setActive (catalogue : Catalogue) (productId : Uuid) (active : Bool) :
    Except CatalogueError Catalogue := do
  let product ← Except.okOr catalogue.products[productId]? (.unknown productId)
  .ok ⟨catalogue.products.insert productId { product with active }⟩

/-- Apply one event. -/
def apply (catalogue : Catalogue) (event : CatalogueEvent) : Except CatalogueError Catalogue :=
  match event with
  | .productAdded productId .. =>
    if catalogue.products.contains productId then .error (.duplicate productId)
    else catalogue.place event true
  | .productUpdated productId .. => do
    -- an update keeps whether the product is on the sell screen
    let existing ← Except.okOr catalogue.products[productId]? (.unknown productId)
    catalogue.place event existing.active
  | .productWithdrawn productId .. => catalogue.setActive productId false
  | .productRestored productId .. => catalogue.setActive productId true

end Catalogue

end Sahl
