import Mathlib.Tactic
import Sahl.Lib.Delimited
import Sahl.Core.Scale
import Sahl.Core.Shift
import Sahl.Terminal.Commands
import Sahl.Terminal.Desk

/-! # What the screens send

    A request carries text and minor units. It is read into the domain's terms before anybody is
    asked for a PIN; what is not recognised is refused rather than defaulted. -/

namespace Sahl

/-! ## Section 1: Words -/

/-- What a request answers when it records nothing. -/
inductive RequestError where
  | authority (error : AuthorityError)
  | command (error : CommandError)
  | notSignedIn
  | unknownLine (lineId : Uuid)
  | badReason (reason : String)
  | badDiscount
  | unknownReason (reason : String)
  | tableOccupied
  | badRole (role : String)
  | firstMustBeOwner
  | badPin (error : PinError)
  | badUnit (unit : String)
  | badStation (station : String)
  | badProfile (profile : String)
  | badCurrency (error : MoneyError)
  | badRegime (regime : String)
  | badScale (error : ScaleError)
  deriving DecidableEq

def voidReason : String → Except RequestError VoidReason
  | "mistake" => .ok .mistake
  | "customer_changed" => .ok .customerChanged
  | "damaged" => .ok .damaged
  | "unavailable" => .ok .unavailable
  | other => .error (.badReason other)

def cashReason : String → Except RequestError CashMovementReason
  | "float_top_up" => .ok .floatTopUp
  | "skim" => .ok .skim
  | "petty_cash" => .ok .pettyCash
  | "refund" => .ok .refund
  | "correction" => .ok .correction
  | other => .error (.unknownReason other)

def staffRole : String → Except RequestError Role
  | "cashier" => .ok .cashier
  | "manager" => .ok .manager
  | "owner" => .ok .owner
  | other => .error (.badRole other)

def Station.fromLabel : String → Except String Station
  | "kitchen" => .ok .kitchen
  | "bar" => .ok .bar
  | "counter" => .ok .counter
  | "pass" => .ok .pass
  | other => .error other

def profileOf : String → Except RequestError Profile
  | "retail" => .ok .retail
  | "cafe" => .ok .cafe
  | "grocery" => .ok .grocery
  | other => .error (.badProfile other)

/-- A currency by its code, whatever the case of its letters. -/
def Currency.fromCode (code : String) : Except MoneyError Currency :=
  match String.ofList (code.toList.map Char.toUpper) with
  | "BDT" => .ok .bdt
  | "SAR" => .ok .sar
  | "AED" => .ok .aed
  | "USD" => .ok .usd
  | other => .error (.unknownCurrency other)

def FiscalRegime.fromLabel : String → Except String FiscalRegime
  | "none" => .ok .none
  | "bd_mushak" => .ok .bdMushak
  | "zatca" => .ok .zatca
  | other => .error other

/-- Trim, and treat an empty string as absent. -/
def nonEmpty (value : String) : Option String :=
  if Text.isBlank value then none else some (Text.trim value)

/-! ## Section 2: PINs -/

/-- The PINs people pick: one digit repeated, and runs up or down. -/
def isGuessable (pin : String) : Bool :=
  match pin.toList.map Char.toNat with
  | [] => true
  | first :: rest =>
    rest.all (· = first) || ((rest.zip (first :: rest)).all fun (next, previous) =>
      next = previous + 1) || ((rest.zip (first :: rest)).all fun (next, previous) =>
      previous = next + 1)

/-- The rules a PIN meets before it is hashed. -/
def validatePin (pin : String) : Except PinError Unit :=
  if pin.length < 4 ∨ 8 < pin.length then .error (.length pin.length)
  else if ! pin.toList.all Char.isDigit then .error .notNumeric
  else if isGuessable pin then .error .guessable
  else .ok ()

/-- Hash a PIN for storage; the key derivation, and its salt, are not this program's. -/
def hashPin (derive : String → Except PinError String) (pin : String) : Except PinError String := do
  validatePin pin
  derive pin

/-! ## Section 3: Forms -/

structure ModifierOptionInput where
  id : Option Uuid
  name : String
  priceDeltaMinor : I64

/-- A group as the catalogue screen sends it. Ids are absent for anything newly added. -/
structure ModifierGroupInput where
  id : Option Uuid
  name : String
  min : UInt8
  max : UInt8
  options : List ModifierOptionInput

/-- A product as the catalogue screen sends it. -/
structure ProductForm where
  name : String
  sku : Option String
  barcodes : List String
  priceMinor : I64
  unit : String
  taxBasisPoints : I32
  taxTreatment : String
  category : Option String
  station : Option String
  optionGroups : List ModifierGroupInput

/-- The ids a product's new groups and options are given, by their places. -/
structure NewIds where
  group : Nat → Uuid
  option : Nat → Nat → Uuid

def ModifierGroupInput.read (ids : NewIds) (currency : Currency)
    (entry : ModifierGroupInput × Nat) : ModifierGroup :=
  { id := entry.1.id.getD (ids.group entry.2), name := Text.trim entry.1.name, min := entry.1.min,
    max := entry.1.max,
    options := entry.1.options.zipIdx.map fun (option, place) =>
      { id := option.id.getD (ids.option entry.2 place), name := Text.trim option.name,
        priceDelta := ⟨option.priceDeltaMinor, currency⟩ } }

/-- The station a form names, if it names one. -/
def stationOf (label : Option String) : Except RequestError (Option Station) :=
  match label.bind nonEmpty with
  | none => .ok none
  | some label => ((Station.fromLabel label).mapError RequestError.badStation).map some

/-- The details a form describes, at an outlet that trades in `currency`. -/
def ProductForm.details (form : ProductForm) (unit : MeasureUnit) (currency : Currency)
    (ids : NewIds) : Except RequestError ProductDetails := do
  let taxClass ← (taxClass form.taxTreatment form.taxBasisPoints).mapError RequestError.command
  let station ← stationOf form.station
  .ok { name := Text.trim form.name, sku := form.sku.bind nonEmpty,
        barcodes := form.barcodes.filterMap nonEmpty, price := ⟨form.priceMinor, currency⟩, unit,
        taxClass, category := form.category.bind nonEmpty, station,
        optionGroups := form.optionGroups.zipIdx.map (ModifierGroupInput.read ids currency) }

/-- A table as the floor screen sends it. -/
structure TableForm where
  label : String
  sectionName : Option String
  seats : U32

def TableForm.details (form : TableForm) : TableDetails :=
  { label := Text.trim form.label, sectionName := form.sectionName.bind nonEmpty,
    seats := form.seats }

structure ScaleFormatInput where
  scalePrefix : String
  itemDigits : UInt8
  embedded : Embedded
  valueDigits : UInt8
  valueDecimals : UInt8
  fillerDigits : UInt8

/-- A layout whose fields and one check digit come to the thirteen digits of a label. -/
def ScaleFormatInput.intoFormat (input : ScaleFormatInput) : Except ScaleError ScaleFormat :=
  let scalePrefix := Text.trim input.scalePrefix
  let length := scalePrefix.utf8ByteSize
  let total := length + input.itemDigits.toNat + input.valueDigits.toNat +
    input.fillerDigits.toNat + 1
  if length = 0 ∨ 3 < length ∨ ! scalePrefix.toList.all Char.isDigit then
    .error (.badPrefix length)
  else if total ≠ 13 ∨ input.itemDigits = 0 ∨ input.valueDigits = 0 then
    .error (.badFormat length input.itemDigits input.valueDigits input.fillerDigits total)
  else
    .ok { scalePrefix, itemDigits := input.itemDigits, embedded := input.embedded,
          valueDigits := input.valueDigits, valueDecimals := input.valueDecimals,
          fillerDigits := input.fillerDigits }

/-- What a cashier may do unaided, as the settings screen sends it. -/
structure ApprovalInput where
  discountLimitMinor : I64
  discountRateBasisPoints : I32
  voidLimitMinor : I64

def ApprovalInput.intoPolicy (input : ApprovalInput) (currency : Currency) : ApprovalPolicy :=
  { discountLimit := ⟨input.discountLimitMinor, currency⟩,
    discountRateLimit := ⟨input.discountRateBasisPoints⟩,
    voidLimit := ⟨input.voidLimitMinor, currency⟩ }

/-- An outlet's setup as the settings screen sends it. -/
structure OutletForm where
  name : String
  profile : String
  currency : String
  timezone : String
  regime : String
  taxRegistration : Option String
  address : String
  scale : Option ScaleFormatInput
  approval : Option ApprovalInput

/-- The settings a form describes; where it sets no thresholds, everything needs approval. -/
def OutletForm.settings (form : OutletForm) (profile : Profile) (currency : Currency)
    (regime : FiscalRegime) : Except RequestError OutletSettings := do
  let scale ← match form.scale with
    | none => .ok none
    | some input => (input.intoFormat.mapError RequestError.badScale).map some
  .ok { name := Text.trim form.name, profile, currency, timezone := Text.trim form.timezone,
        regime, taxRegistration := form.taxRegistration.bind nonEmpty,
        address := Text.trim form.address, scale,
        approval := some ((form.approval.map (·.intoPolicy currency)).getD (.strictest currency)) }

end Sahl
