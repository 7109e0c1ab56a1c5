import Mathlib.Tactic
import Sahl.Core.Scale
import Sahl.Core.Scanning
import Sahl.Terminal.Loading

/-! # From the scale to the counter

    A scale prints what it weighed, or what it charged, as the digits of an ordinary barcode, and
    the till reads it back under the layout its outlet has set. Whatever a till has been through,
    what a scale prints under that layout is sold for what it says, and a digit that was misread
    is seen (`scan_printed`). -/

namespace Sahl

/-! ## Section 1: A scan at the counter -/

/-- Whether a unit can be sold in parts. -/
def MeasureUnit.isDivisible : MeasureUnit → Bool
  | .piece | .pack => false
  | .kilogram | .gram | .litre | .millilitre | .metre => true

/-- Why a weight may not become a sale line. -/
inductive WeighError where
  | nothing
  | negative (quantity : Quantity)
  | notDivisible (unit : MeasureUnit) (quantity : Quantity)
  deriving DecidableEq

/-- Check a weight against the unit it is being sold in. -/
def weigh (unit : MeasureUnit) (quantity : Quantity) : Except WeighError Quantity :=
  if quantity.isNegative then .error (.negative quantity)
  else if quantity.isZero then .error .nothing
  else if ! unit.isDivisible ∧ quantity.milli.val % Quantity.milliPerUnit.val ≠ 0 then
    .error (.notDivisible unit quantity)
  else .ok quantity

inductive ScanError where
  | scale (error : ScaleError)
  | weigh (error : WeighError)
  deriving DecidableEq

/-- What a scan turned out to be. -/
structure Scanned where
  productId : Uuid
  quantity : Quantity
  /-- Set only where a scale already fixed the money. -/
  price : Option Money
  deriving DecidableEq

namespace Terminal

/-- What a label says of the product it is on. -/
def soldAs (product : Product) : ScannedValue → Except ScanError Scanned
  | .weight quantity => do
    let quantity ← (weigh product.unit quantity).mapError ScanError.weigh
    .ok ⟨product.id, quantity, none⟩
  | .price price => .ok ⟨product.id, Quantity.one, some price⟩

/-- The layout of the outlet's scale, where this barcode is one of its labels. -/
def labelFormat (t : Terminal) (barcode : String) : Option ScaleFormat :=
  (t.outlet.bind (·.scale)).filter (·.matchesBarcode barcode)

/-- The product of a label's item code, as the label says. -/
def resolve (t : Terminal) (label : ScaleScan) : Except ScanError (Option Scanned) :=
  match t.catalogue.byBarcode label.itemCode with
  | none => .ok none
  | some product => (soldAs product label.value).map some

/-- Resolve a scanned barcode, unwrapping a scale label if this outlet prints them. -/
def scan (t : Terminal) (scanned : String) : Except ScanError (Option Scanned) :=
  let barcode := Text.trim scanned
  match t.labelFormat barcode with
  | none =>
    .ok ((t.catalogue.byBarcode barcode).map fun product => ⟨product.id, Quantity.one, none⟩)
  | some format => do
    let currency := (t.outlet.map (·.currency)).getD .bdt
    let label ← (format.parse barcode currency).mapError ScanError.scale
    t.resolve label

end Terminal

theorem weigh_eq_ok {unit : MeasureUnit} {quantity : Quantity} {n : Nat}
    (hquantity : quantity.milli.val = n) (hn : n ≠ 0)
    (hwhole : unit.isDivisible = true ∨ 1000 ∣ n) : weigh unit quantity = .ok quantity := by
  have hrest : ¬ (! unit.isDivisible ∧ quantity.milli.val % Quantity.milliPerUnit.val ≠ 0) := by
    intro h
    rcases hwhole with hdivisible | hwhole
    · rw [hdivisible] at h
      exact absurd h.1 (by decide)
    · rw [hquantity] at h
      exact h.2 (Int.emod_eq_zero_of_dvd (Int.natCast_dvd_natCast.mpr hwhole))
  rw [weigh, if_neg (by simp [Quantity.isNegative, hquantity]),
    if_neg (by simp [Quantity.isZero, hquantity, hn]), if_neg hrest]

/-- A weight of nothing, or of a part of what is sold whole, is refused. -/
theorem weigh_refused {unit : MeasureUnit} {quantity : Quantity} {n : Nat}
    (hquantity : quantity.milli.val = n)
    (h : n = 0 ∨ unit.isDivisible = false ∧ ¬ 1000 ∣ n) :
    ∃ error, weigh unit quantity = .error error := by
  rw [weigh, if_neg (by simp [Quantity.isNegative, hquantity])]
  by_cases hzero : n = 0
  · exact ⟨_, if_pos (by simp [Quantity.isZero, hquantity, hzero])⟩
  · obtain ⟨hunit, hpart⟩ := h.resolve_left hzero
    rw [if_neg (by simp [Quantity.isZero, hquantity, hzero]), if_pos]
    · exact ⟨_, rfl⟩
    · refine ⟨by rw [hunit]; rfl, fun hmod => hpart ?_⟩
      rw [hquantity] at hmod
      exact Int.natCast_dvd_natCast.mp (Int.dvd_of_emod_eq_zero hmod)

/-! ## Section 2: What a scale prints -/

/-- What a scale is set to print under a layout: an item code, so many of the last decimal place,
    and what its maker fills in. -/
structure Sticker (format : ScaleFormat) where
  itemCode : List Char
  value : Nat
  filler : List Char
  itemDigits : ∀ c ∈ itemCode, c.isDigit = true
  itemLength : itemCode.length = format.itemDigits.toNat
  valueFits : value < 10 ^ format.valueDigits.toNat
  fillerDigits : ∀ c ∈ filler, c.isDigit = true
  fillerLength : filler.length = format.fillerDigits.toNat

namespace Sticker

variable {format : ScaleFormat} (sticker : Sticker format)

/-- The digits of the value, as many as the layout has room for. -/
def valueDigits : List Char :=
  Decimal.padLeft format.valueDigits.toNat (Decimal.digits sticker.value)

def twelve : List Char :=
  format.scalePrefix.toList ++ (sticker.itemCode ++ (sticker.valueDigits ++ sticker.filler))

/-- The digit that closes the other twelve. -/
def check : Nat :=
  (10 - CheckDigit.weighted digitWeight 0 (digitValues sticker.twelve) % 10) % 10

def barcode : String := String.ofList (sticker.twelve ++ [Nat.digitChar sticker.check])

variable {sticker}

theorem length_valueDigits (hfits : format.Fits) :
    sticker.valueDigits.length = format.valueDigits.toNat :=
  Decimal.length_padLeft hfits.value sticker.valueFits

theorem length_twelve (hfits : format.Fits) : sticker.twelve.length = 12 := by
  have htotal : _ = 13 := hfits.total
  simp only [twelve, List.length_append, length_valueDigits hfits, sticker.itemLength,
    sticker.fillerLength]
  omega

theorem isDigit_twelve (hfits : format.Fits) : ∀ c ∈ sticker.twelve, c.isDigit = true := by
  intro c hc
  simp only [twelve, List.mem_append] at hc
  rcases hc with hc | hc | hc | hc
  · exact hfits.prefixDigits c hc
  · exact sticker.itemDigits c hc
  · exact Decimal.isDigit_of_mem_padLeft hc
  · exact sticker.fillerDigits c hc

theorem check_lt : sticker.check < 10 := Nat.mod_lt _ (by decide)

theorem isDigit_digitChar {n : Nat} (h : n < 10) :
    n.digitChar.isDigit = true ∧ n.digitChar.toNat - 48 = n := by
  have hall : ∀ n < 10, (Nat.digitChar n).isDigit = true ∧ (Nat.digitChar n).toNat - 48 = n := by
    decide
  exact hall n h

/-- What a scale prints is a label. -/
theorem isLabel (hfits : format.Fits) : IsLabel format.scalePrefix sticker.barcode := by
  obtain ⟨hdigit, hvalue⟩ := isDigit_digitChar (@check_lt format sticker)
  constructor
  · rw [barcode, String.toList_ofList, List.length_append, length_twelve hfits]
    rfl
  · intro c hc
    rw [barcode, String.toList_ofList] at hc
    rcases List.mem_append.mp hc with hc | hc
    · exact isDigit_twelve hfits c hc
    · rw [List.mem_singleton.mp hc]
      exact hdigit
  · rw [barcode, String.toList_ofList, twelve, List.append_assoc]
    exact List.prefix_append _ _
  · have hcount : (digitValues sticker.twelve).length = 12 := by
      rw [digitValues, List.length_map, length_twelve hfits]
    have hvalues : digitValues sticker.barcode.toList =
        digitValues sticker.twelve ++ [sticker.check] := by
      rw [barcode, String.toList_ofList, digitValues, List.map_append, List.map_singleton, hvalue]
      rfl
    rw [hvalues, CheckDigit.closes_append_iff (by rw [hcount]; rfl) check_lt]
    rfl

theorem itemPart : format.itemPart sticker.barcode = sticker.itemCode := by
  rw [ScaleFormat.itemPart, barcode, String.toList_ofList, twelve, List.append_assoc,
    List.drop_left, List.append_assoc, ← sticker.itemLength, List.take_left]

theorem valuePart (hfits : format.Fits) :
    format.valuePart sticker.barcode = sticker.valueDigits := by
  rw [ScaleFormat.valuePart, barcode, String.toList_ofList, twelve, List.append_assoc,
    ← List.drop_drop, List.drop_left, List.append_assoc, ← sticker.itemLength, List.drop_left,
    List.append_assoc, ← length_valueDigits hfits, List.take_left]

/-- **Printed and read back**: a label gives the item code and the value it was printed with. -/
theorem parse_barcode (hfits : format.Fits) {currency : Currency}
    (hprecise : format.valueDecimals.toNat ≤ format.places currency) :
    ∃ value, format.parse sticker.barcode currency =
        .ok ⟨String.ofList sticker.itemCode, value⟩ ∧
      format.Means currency
        (sticker.value * 10 ^ (format.places currency - format.valueDecimals.toNat)) value := by
  obtain ⟨label, hparse, hcode, hmeans⟩ :=
    ScaleFormat.parse_of_label hfits (@isLabel format sticker hfits) hprecise
  rw [valuePart hfits, valueDigits, Decimal.valueOf_padLeft] at hmeans
  have hitem : label.itemCode = String.ofList sticker.itemCode := by
    rw [← @itemPart format sticker, ← hcode, String.ofList_toList]
  exact ⟨label.value, by rw [hparse, ← hitem], hmeans⟩

end Sticker

/-! ## Section 3: The catalogue a till sells from -/

/-- An event changes the catalogue by an edit, or not at all. -/
theorem Projections.apply_catalogue {p p' : Projections} {event : DomainEvent}
    (h : p.apply event = .ok p') :
    p'.catalogue = p.catalogue ∨ ∃ edit, p.catalogue.apply edit = .ok p'.catalogue := by
  cases event with
  | catalogue edit =>
    simp only [apply, Except.bind_eq_ok, Except.mapError_eq_ok] at h
    obtain ⟨catalogue, hcatalogue, h⟩ := h
    cases h
    exact .inr ⟨edit, hcatalogue⟩
  | sale | shift | inventory | staff | floor | purchase =>
    obtain ⟨_, -, h⟩ := Except.bind_eq_ok.mp h
    cases h
    exact .inl rfl
  | outlet | fiscal =>
    cases h
    exact .inl rfl

theorem Projections.sound_apply {p p' : Projections} {event : DomainEvent}
    (hsound : p.catalogue.Sound) (h : p.apply event = .ok p') : p'.catalogue.Sound := by
  rcases apply_catalogue h with hsame | ⟨edit, hedit⟩
  · rw [hsame]
    exact hsound
  · exact Catalogue.sound_apply hsound hedit

theorem Catalogue.reached_eq (events : List CatalogueEvent) :
    reached events = events.foldl Catalogue.absorb .new := by
  rw [reached]
  congr 1
  funext catalogue event
  exact step_state catalogue event

namespace Terminal

/-- In every run of a till, restarts and sync rounds among its steps, no two products of its
    catalogue share a barcode. -/
theorem catalogue_sound {digests : Digests} {t : Terminal}
    (h : Transition.Reachable Fresh (step digests) t) : t.catalogue.Sound := by
  refine h.invariant (I := fun t => t.catalogue.Sound) ?_ ?_
  · intro t hfresh
    obtain ⟨identity, rfl⟩ := hfresh
    exact Catalogue.sound_reached []
  · intro t action t' hsound hstep
    cases action with
    | call writable occurredAt call =>
      rw [show t' = _ from hstep, perform_eq_commit]
      rcases commit_cases digests writable occurredAt t (t.prepare digests occurredAt call) with
        ⟨error, -, hcommit⟩ | ⟨p, chain, error, -, -, hcommit⟩ |
        ⟨p, chain, es, store, hprepare, -, -, -, hcommit⟩
      · rw [hcommit]
        exact hsound
      · rw [hcommit]
        exact hsound
      · rw [hcommit]
        exact foldlM_invariant (fun _ (p : Projections) => p.catalogue.Sound)
          (fun _ _ _ _ hseen happly => Projections.sound_apply hseen happly) hsound
          (prepare_adopts hprepare).projections
    | restart =>
      obtain ⟨_, -, hload⟩ := Except.bind_eq_ok.mp hstep
      obtain ⟨loaded, hloaded, hload⟩ := Except.bind_eq_ok.mp hload
      obtain ⟨shift, -, hload⟩ := Except.bind_eq_ok.mp hload
      cases hload
      show loaded.catalogue.Sound
      rw [Loading.foldlM_catalogue hloaded, ← Catalogue.reached_eq]
      exact Catalogue.sound_reached _
    | sync transport nowMillis =>
      obtain ⟨-, rfl⟩ := hstep
      have hkept : (t.sync digests transport nowMillis).1.catalogue = t.catalogue := by
        simp only [sync]
        split
        · rfl
        · split <;> rfl
      rw [hkept]
      exact hsound

/-! ## Section 4: A label at the counter -/

/-- What a label that says so much comes to on a product: that price, or that weight where it can
    be sold. -/
structure SellsAs (t : Terminal) (scanned : String) (product : Product) (format : ScaleFormat)
    (currency : Currency) (amount : Nat) : Prop where
  priced : format.embedded = .price → ∃ price : Money, price.minor.val = amount ∧
    price.currency = currency ∧ t.scan scanned = .ok (some ⟨product.id, Quantity.one, some price⟩)
  weighed : format.embedded = .weight → amount ≠ 0 →
    product.unit.isDivisible = true ∨ 1000 ∣ amount → ∃ quantity : Quantity,
      quantity.milli.val = amount ∧ t.scan scanned = .ok (some ⟨product.id, quantity, none⟩)
  refused : format.embedded = .weight →
    amount = 0 ∨ product.unit.isDivisible = false ∧ ¬ 1000 ∣ amount →
      ∃ error, t.scan scanned = .error (.weigh error)

section Configured

variable {t : Terminal} {config : OutletConfig} {format : ScaleFormat} {scanned : String}
  {label : ScaleScan} {product : Product}

theorem labelFormat_eq (houtlet : t.outlet = some config) (hscale : config.scale = some format)
    {barcode : String} (hmatches : format.matchesBarcode barcode = true) :
    t.labelFormat barcode = some format := by
  rw [labelFormat, houtlet, Option.bind_some, hscale, Option.filter_some, if_pos hmatches]

theorem scan_label (houtlet : t.outlet = some config)
    (hformat : t.labelFormat (Text.trim scanned) = some format)
    (hparse : format.parse (Text.trim scanned) config.currency = .ok label) :
    t.scan scanned = t.resolve label := by
  simp only [scan, hformat, houtlet, Option.map_some, Option.getD_some, hparse]
  rfl

theorem scan_refused (houtlet : t.outlet = some config)
    (hformat : t.labelFormat (Text.trim scanned) = some format) {error : ScaleError}
    (hparse : format.parse (Text.trim scanned) config.currency = .error error) :
    t.scan scanned = .error (.scale error) := by
  simp only [scan, hformat, houtlet, Option.map_some, Option.getD_some, hparse]
  rfl

/-- A label on a product is sold for what it says. -/
theorem sellsAs_of_means {amount : Nat} {value : ScannedValue} {currency : Currency}
    (hscan : t.scan scanned = (soldAs product value).map some)
    (hmeans : format.Means currency amount value) :
    t.SellsAs scanned product format currency amount := by
  cases value with
  | weight quantity =>
    obtain ⟨hembedded, hquantity⟩ := hmeans
    constructor
    · intro hprice
      cases hembedded.symm.trans hprice
    · intro _ hpositive hwhole
      refine ⟨quantity, hquantity, ?_⟩
      rw [hscan, soldAs, weigh_eq_ok hquantity hpositive hwhole]
      rfl
    · intro _ hbad
      obtain ⟨error, herror⟩ := weigh_refused hquantity hbad
      exact ⟨error, by rw [hscan, soldAs, herror]; rfl⟩
  | price price =>
    obtain ⟨hembedded, hprice, hcurrency⟩ := hmeans
    constructor
    · intro _
      exact ⟨price, hprice, hcurrency, by rw [hscan]; rfl⟩
    · intro hweight
      cases hembedded.symm.trans hweight
    · intro hweight
      cases hembedded.symm.trans hweight

end Configured

end Terminal

/-- One digit after the prefix was misread: it is taken for a label, and is none. -/
theorem Sticker.misread {format : ScaleFormat} {sticker : Sticker format} (hfits : format.Fits)
    {i : Nat} {c : Char} (hafter : format.scalePrefix.toList.length ≤ i)
    (hi : i < sticker.barcode.toList.length) (hdigit : c.isDigit = true)
    (hne : c ≠ sticker.barcode.toList[i]) (currency : Currency) :
    format.matchesBarcode (String.ofList (sticker.barcode.toList.set i c)) = true ∧
      ∃ error, format.parse (String.ofList (sticker.barcode.toList.set i c)) currency =
        .error error := by
  have hlabel := @isLabel format sticker hfits
  constructor
  · refine ScaleFormat.matchesBarcode_of_digits ?_ ?_ ?_ <;> rw [String.toList_ofList]
    · rw [List.length_set]
      exact hlabel.length
    · intro d hd
      rcases List.mem_or_eq_of_mem_set hd with hd | rfl
      · exact hlabel.digits d hd
      · exact hdigit
    · rw [List.prefix_iff_eq_take, List.take_set_of_le hafter]
      exact List.prefix_iff_eq_take.mp hlabel.starts
  · cases hparse : format.parse (String.ofList (sticker.barcode.toList.set i c)) currency with
    | error error => exact ⟨error, rfl⟩
    | ok scan =>
      exact absurd (ScaleFormat.isLabel_of_parse hparse)
        (ScaleFormat.not_isLabel_set hlabel hi hne)

namespace Terminal

/-- **From the scale to the counter**: in every run of a till, what a scale prints under the
    outlet's layout, scanned with whatever space around it, is sold as the one product that
    carries its item code, for the weight or the price it was printed with, or is unknown where no
    product carries it; and if one digit after the prefix was misread, the scan is refused. -/
theorem scan_printed {digests : Digests} {t : Terminal}
    (h : Transition.Reachable Fresh (step digests) t) {config : OutletConfig}
    {format : ScaleFormat} (houtlet : t.outlet = some config)
    (hscale : config.scale = some format) (hfits : format.Fits)
    (hprecise : format.valueDecimals.toNat ≤ format.places config.currency)
    (sticker : Sticker format) {scanned : String} (hscanned : Text.trim scanned = sticker.barcode) :
    (∀ (productId : Uuid) (product : Product), t.catalogue.products[productId]? = some product →
      String.ofList sticker.itemCode ∈ product.barcodes →
        product.id = productId ∧ t.SellsAs scanned product format config.currency
          (sticker.value * 10 ^ (format.places config.currency - format.valueDecimals.toNat))) ∧
    ((∀ (productId : Uuid) (product : Product), t.catalogue.products[productId]? = some product →
      String.ofList sticker.itemCode ∉ product.barcodes) → t.scan scanned = .ok none) ∧
    ∀ i, format.scalePrefix.toList.length ≤ i → ∀ hi : i < sticker.barcode.toList.length,
      ∀ c, c.isDigit = true → c ≠ sticker.barcode.toList[i] → ∀ misread,
        Text.trim misread = String.ofList (sticker.barcode.toList.set i c) →
          ∃ error, t.scan misread = .error (.scale error) := by
  have hsound := catalogue_sound h
  obtain ⟨value, hparse, hmeans⟩ := @Sticker.parse_barcode format sticker hfits _ hprecise
  have hformat : t.labelFormat (Text.trim scanned) = some format := by
    rw [hscanned]
    exact labelFormat_eq houtlet hscale (ScaleFormat.matchesBarcode_of_isLabel
      (Sticker.isLabel hfits))
  rw [← hscanned] at hparse
  have hscan := scan_label houtlet hformat hparse
  refine ⟨fun productId product hproduct hcarries => ?_, fun hnone => ?_, ?_⟩
  · have hfound := Catalogue.byBarcode_eq_some hsound hproduct hcarries
    exact ⟨hsound.filed productId product hproduct,
      sellsAs_of_means (by rw [hscan, resolve, hfound]) hmeans⟩
  · rw [hscan, resolve, Catalogue.byBarcode_eq_none.mpr hnone]
  · intro i hafter hi c hdigit hne misread hmisread
    obtain ⟨hmatches, error, herror⟩ := Sticker.misread hfits hafter hi hdigit hne config.currency
    rw [← hmisread] at hmatches herror
    exact ⟨error, scan_refused houtlet (labelFormat_eq houtlet hscale hmatches) herror⟩

/-! ### A kilogram and a quarter of onions -/

/-- A grocer whose scale prints two digits of prefix, five of item code and five of grams. -/
def grocer : OutletSettings where
  name := "Grocer"
  profile := .grocery
  currency := .bdt
  timezone := "Asia/Dhaka"
  regime := .none
  taxRegistration := none
  address := "Road 1"
  scale := some ⟨"20", 5, .weight, 5, 3, 0⟩
  approval := none

def grocerConfig : OutletConfig :=
  ⟨2, "Grocer", .grocery, .bdt, "Asia/Dhaka", .none, none, "Road 1",
    some ⟨"20", 5, .weight, 5, 3, 0⟩, .strictest .bdt, instant 1⟩

def onions : Product :=
  ⟨12, "Onions", none, ["12345"], ⟨I64.lit 6000, .bdt⟩, .kilogram, .exempt, none, none, [], true⟩

def grocerTill : Terminal :=
  till3.performAll plainDigests [
    (true, instant 1, .recordOutlet (.configured 2 grocer (instant 1) 7) 99),
    (true, instant 2, .recordCatalogue (.productAdded 12 ⟨"Onions", none, ["12345"],
      ⟨I64.lit 6000, .bdt⟩, .kilogram, .exempt, none, none, []⟩ (instant 2) 7) 100)]

/-- What the scale prints for a kilogram and a quarter. -/
def quarterMore : Sticker ⟨"20", 5, .weight, 5, 3, 0⟩ where
  itemCode := ['1', '2', '3', '4', '5']
  value := 1250
  filler := []
  itemDigits := List.all_eq_true.mp rfl
  itemLength := rfl
  valueFits := by decide
  fillerDigits := fun _ hc => absurd hc List.not_mem_nil
  fillerLength := rfl

/-- The label is sold as a kilogram and a quarter of onions. -/
theorem scan_printed_onions : ∃ quantity : Quantity, quantity.milli.val = 1250 ∧
    grocerTill.scan " 2012345012509 " = .ok (some ⟨12, quantity, none⟩) := by
  have hreached : Transition.Reachable Fresh (step plainDigests) grocerTill :=
    performAll_run _ (.init ⟨⟨1, 2, 3⟩, rfl⟩)
  have houtlet : grocerTill.outlet = some grocerConfig := by decide +kernel
  have hproduct : grocerTill.catalogue.products[(12 : Uuid)]? = some onions := by decide +kernel
  have hnew : ScaleFormat.new "20" 5 .weight 5 3 0 = .ok ⟨"20", 5, .weight, 5, 3, 0⟩ := by
    decide +kernel
  have hprinted : Text.trim " 2012345012509 " = quarterMore.barcode := by decide +kernel
  obtain ⟨-, hsells⟩ := (scan_printed hreached houtlet rfl (ScaleFormat.new_fits hnew)
    (by decide) quarterMore hprinted).1 12 onions hproduct (by decide)
  exact hsells.weighed rfl (by decide) (.inl rfl)

end Terminal

end Sahl
