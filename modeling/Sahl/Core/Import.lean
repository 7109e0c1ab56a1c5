import Mathlib.Tactic
import Sahl.Lib.Delimited
import Sahl.Core.Catalogue

/-! # Turning a spreadsheet into a catalogue

    A row of a delimited file reads as a product or as a problem with one of its columns. No row
    is left out: a file's products and problems are as many as its rows (`fromDelimited_rows`). -/

namespace Sahl

/-! ## Section 1: Cells -/

/-- The columns a header may name. -/
inductive ImportColumn where
  | name
  | price
  | sku
  | barcode
  | unit
  | vat
  | category
  deriving DecidableEq

/-- The column a header cell names, in the spellings a real export uses. -/
def ImportColumn.ofHeader (raw : String) : Option ImportColumn :=
  match Text.lowered (Text.trim raw) with
  | "name" | "product" | "product name" | "description" | "item" => some .name
  | "price" | "unit price" | "selling price" | "mrp" | "rate" => some .price
  | "sku" | "code" | "item code" | "product code" => some .sku
  | "barcode" | "barcodes" | "ean" | "upc" => some .barcode
  | "unit" | "uom" | "unit of supply" => some .unit
  | "vat" | "vat %" | "vat rate" | "tax" | "tax rate" => some .vat
  | "category" | "group" | "department" => some .category
  | _ => none

/-- Where a column is: the first header cell that names it. -/
def columnAt (header : List String) (column : ImportColumn) : Option Nat :=
  header.findIdx? fun raw => ImportColumn.ofHeader raw = some column

/-- Read a price written the way a person writes one. -/
def parseMoney (raw : String) (currency : Currency) : Except String Money :=
  let cleaned := raw.toList.filter fun c => c.isDigit || c = '.' || c = '-'
  if cleaned.isEmpty then .error "a price is required"
  else
    let (whole, fraction) := Text.splitOnce '.' cleaned
    let notANumber := Text.trim raw ++ " is not a number"
    if currency.exponent < fraction.length then
      .error (Text.trim raw ++ " has more than " ++ toString currency.exponent ++
        " decimal places")
    else do
      let major : I64 ← Except.okOr (Text.parseInt? 64 whole) notANumber
      let minor : I64 ←
        if fraction.isEmpty then .ok 0
        else Except.okOr (Text.parseInt? 64 (Text.padRight fraction currency.exponent)) notANumber
      if major.val < 0 ∨ cleaned.head? = some '-' then .error "a price cannot be negative"
      else do
        let total ← Except.okOr
          ((SInt.ofInt? (major.val * 10 ^ currency.exponent)).bind (·.checkedAdd minor))
          (Text.trim raw ++ " is too large")
        .ok ⟨total, currency⟩

def parseUnit (raw : String) : Option MeasureUnit :=
  match Text.lowered (Text.trim raw) with
  | "pcs" | "pc" | "piece" | "pieces" | "each" | "ea" | "unit" | "" => some .piece
  | "kg" | "kilo" | "kilogram" | "kgs" => some .kilogram
  | "g" | "gram" | "grams" | "gm" => some .gram
  | "l" | "litre" | "liter" | "ltr" => some .litre
  | "ml" | "millilitre" | "milliliter" => some .millilitre
  | "m" | "metre" | "meter" => some .metre
  | "pack" | "packet" | "box" | "carton" => some .pack
  | _ => none

/-- A percentage with two decimals, in basis points; further decimals are cut off. -/
def parseRate (cleaned : String) : Option TaxClass := do
  let digits := cleaned.toList.filter fun c => c.isDigit || c = '.'
  if digits.isEmpty then none
  else do
    let (whole, fraction) := Text.splitOnce '.' digits
    let percent : I32 ← Text.parseInt? 32 whole
    let hundredths : I32 ←
      if fraction.isEmpty then some 0 else Text.parseInt? 32 ((Text.padRight fraction 2).take 2)
    let scaled : I32 ← SInt.ofInt? (percent.val * 100)
    let basisPoints ← scaled.checkedAdd hundredths
    if 0 ≤ basisPoints.val ∧ basisPoints.val ≤ 10000 then some (.standard ⟨basisPoints⟩) else none

/-- Read a VAT column: a percentage, or a treatment spelled out. -/
def parseVat (raw : String) : Option TaxClass :=
  match Text.lowered (Text.trim raw) with
  | "exempt" | "exempted" | "e" => some .exempt
  | "zero" | "zero-rated" | "zero rated" | "z" => some .zeroRated
  | cleaned => parseRate cleaned

/-- The abbreviation of a unit. -/
def MeasureUnit.label : MeasureUnit → String
  | .piece => "pcs"
  | .kilogram => "kg"
  | .gram => "g"
  | .litre => "L"
  | .millilitre => "ml"
  | .metre => "m"
  | .pack => "pack"

/-- Parse a stored label. -/
def MeasureUnit.fromLabel (label : String) : Except CatalogueError MeasureUnit :=
  match label with
  | "pcs" => .ok .piece
  | "kg" => .ok .kilogram
  | "g" => .ok .gram
  | "L" => .ok .litre
  | "ml" => .ok .millilitre
  | "m" => .ok .metre
  | "pack" => .ok .pack
  | _ => .error (.blank "unit")

theorem MeasureUnit.fromLabel_label (unit : MeasureUnit) : fromLabel unit.label = .ok unit := by
  cases unit <;> rfl

/-! ## Section 2: Rows -/

/-- A row that parsed. -/
structure ImportedProduct where
  name : String
  sku : Option String
  barcodes : List String
  price : Money
  unit : MeasureUnit
  taxClass : TaxClass
  category : Option String
  deriving DecidableEq

/-- Something wrong with one row. -/
structure ImportProblem where
  /-- One-based and counting the header. -/
  line : Nat
  column : String
  found : String
  because : String
  deriving DecidableEq

inductive ImportError where
  | empty
  | missingColumn (column : String)
  deriving DecidableEq

/-- What a file turned out to contain. -/
structure Import where
  products : List ImportedProduct
  problems : List ImportProblem
  deriving DecidableEq

/-- The cell of a column, where there is one with something in it. -/
def cellAt (cells : List String) (at' : Option Nat) : Option String :=
  ((at'.bind fun index => cells[index]?).map Text.trim).filter (· ≠ "")

/-- The barcodes of one cell, separated by a space, a semicolon or a bar. -/
def splitBarcodes (cell : String) : List String :=
  ((Text.splitOn (fun c => c = ';' ∨ c = ' ' ∨ c = '|') cell).map Text.trim).filter (· ≠ "")

section Row

variable (header : List String) (currency : Currency) (defaultVat : I32)

/-- The unit of a row; pieces where there is none. -/
def readUnit (line : Nat) : Option String → Except ImportProblem MeasureUnit
  | none => .ok .piece
  | some raw => Except.okOr (parseUnit raw)
      ⟨line, "unit", raw, "not a unit this till knows — try pcs, kg, g, L, ml, m or pack"⟩

/-- The treatment of a row; the outlet's standard rate where there is none. -/
def readVat (line : Nat) : Option String → Except ImportProblem TaxClass
  | none => .ok (.standard ⟨defaultVat⟩)
  | some raw => Except.okOr (parseVat raw)
      ⟨line, "vat", raw, "expected a percentage, or 'exempt' or 'zero'"⟩

/-- One row, by the columns of the header. -/
def readRow (line : Nat) (cells : List String) : Except ImportProblem ImportedProduct := do
  let cell column := cellAt cells (columnAt header column)
  let name ← Except.okOr (cell .name) ⟨line, "name", "", "every product needs a name"⟩
  let rawPrice := (cell .price).getD ""
  let price ← (parseMoney rawPrice currency).mapError (ImportProblem.mk line "price" rawPrice)
  let unit ← readUnit line (cell .unit)
  let taxClass ← readVat defaultVat line (cell .vat)
  .ok { name, sku := cell .sku, barcodes := ((cell .barcode).map splitBarcodes).getD [], price,
        unit, taxClass, category := cell .category }

/-- Read rows one after the other: each is a product or a problem. -/
def readRows (delimiter : Char) : List (String × Nat) → Import
  | [] => ⟨[], []⟩
  | (raw, offset) :: rest =>
    let contents := readRows delimiter rest
    -- one line for the header, and a spreadsheet counts from one
    match readRow header currency defaultVat (offset + 2) (Text.cells raw delimiter) with
    | .ok product => { contents with products := product :: contents.products }
    | .error problem => { contents with problems := problem :: contents.problems }

end Row

/-- The lines of a file that hold something. -/
def filledLines (text : String) : List String := (Text.lines text).filter (! Text.isBlank ·)

/-- Read a delimited file into products. -/
def fromDelimited (text : String) (delimiter : Char) (currency : Currency) (defaultVat : I32) :
    Except ImportError Import :=
  match filledLines text with
  | [] => .error .empty
  | headerLine :: rows =>
    let header := Text.cells headerLine delimiter
    if columnAt header .name = none then .error (.missingColumn "name")
    else if columnAt header .price = none then .error (.missingColumn "price")
    else .ok (readRows header currency defaultVat delimiter rows.zipIdx)

/-- The data rows of a file. -/
def dataRows (text : String) : List String := (filledLines text).tail

/-! ## Section 3: What a row reads as -/

/-- What a file may write about a product: nothing of it is blank. -/
structure ImportedProduct.Named (row : ImportedProduct) : Prop where
  name : Text.isBlank row.name = false
  barcodes : ∀ barcode ∈ row.barcodes, Text.isBlank barcode = false

theorem cellAt_not_blank {cells : List String} {at' : Option Nat} {cell : String}
    (h : cellAt cells at' = some cell) : Text.isBlank cell = false := by
  obtain ⟨hcell, hfilled⟩ := Option.filter_eq_some_iff.mp h
  obtain ⟨raw, -, rfl⟩ := Option.map_eq_some_iff.mp hcell
  exact Text.trim_not_blank (by simpa using hfilled)

theorem splitBarcodes_not_blank {cell barcode : String} (h : barcode ∈ splitBarcodes cell) :
    Text.isBlank barcode = false := by
  obtain ⟨hpart, hfilled⟩ := List.mem_filter.mp h
  obtain ⟨raw, -, rfl⟩ := List.mem_map.mp hpart
  exact Text.trim_not_blank (by simpa using hfilled)

section Row

variable {header cells : List String} {currency : Currency} {defaultVat : I32} {line : Nat}
  {row : ImportedProduct}

theorem readRow_named (h : readRow header currency defaultVat line cells = .ok row) :
    row.Named := by
  simp only [readRow, Except.bind_eq_ok, Except.okOr_eq_ok] at h
  obtain ⟨name, hname, price, -, unit, -, taxClass, -, h⟩ := h
  cases h
  refine ⟨cellAt_not_blank hname, ?_⟩
  intro barcode hbarcode
  cases hcell : cellAt cells (columnAt header .barcode) with
  | none => simp [hcell] at hbarcode
  | some cell =>
    rw [hcell] at hbarcode
    exact splitBarcodes_not_blank hbarcode

/-- Every row is a product or a problem. -/
theorem readRows_length (delimiter : Char) (rows : List (String × Nat)) :
    (readRows header currency defaultVat delimiter rows).products.length +
      (readRows header currency defaultVat delimiter rows).problems.length = rows.length := by
  induction rows with
  | nil => rfl
  | cons row rows ih =>
    obtain ⟨raw, offset⟩ := row
    rw [readRows]
    cases readRow header currency defaultVat (offset + 2) (Text.cells raw delimiter) with
    | ok product =>
      simp only [List.length_cons]
      omega
    | error problem =>
      simp only [List.length_cons]
      omega

theorem readRows_named (delimiter : Char) (rows : List (String × Nat)) :
    ∀ product ∈ (readRows header currency defaultVat delimiter rows).products,
      product.Named := by
  induction rows with
  | nil => exact fun _ h => absurd h List.not_mem_nil
  | cons row rows ih =>
    obtain ⟨raw, offset⟩ := row
    rw [readRows]
    cases hread : readRow header currency defaultVat (offset + 2) (Text.cells raw delimiter) with
    | ok product => exact List.forall_mem_cons.mpr ⟨readRow_named hread, ih⟩
    | error problem => exact ih

end Row

/-- A file that is read has a product or a problem for each of its data rows. -/
theorem fromDelimited_rows {text : String} {delimiter : Char} {currency : Currency}
    {defaultVat : I32} {contents : Import}
    (h : fromDelimited text delimiter currency defaultVat = .ok contents) :
    contents.products.length + contents.problems.length = (dataRows text).length ∧
      ∀ product ∈ contents.products, product.Named := by
  unfold fromDelimited at h
  unfold dataRows
  cases hlines : filledLines text with
  | nil =>
    rw [hlines] at h
    cases h
  | cons headerLine rows =>
    rw [hlines] at h
    simp only at h
    split at h
    · cases h
    · split at h
      · cases h
      · cases h
        refine ⟨?_, readRows_named delimiter _⟩
        rw [readRows_length, List.length_zipIdx, List.tail_cons]

/-! ## Section 4: A new product among others -/

namespace Catalogue

/-- A product of the catalogue carries the barcode. -/
def Holds (catalogue : Catalogue) (barcode : String) : Prop :=
  ∃ product ∈ catalogue.products.values, barcode ∈ product.barcodes

/-- The catalogue has nothing under the id. -/
def New (catalogue : Catalogue) (productId : Uuid) : Prop :=
  catalogue.products[productId]? = none ∧
    ∀ product ∈ catalogue.products.values, product.id ≠ productId

instance (catalogue : Catalogue) (productId : Uuid) : Decidable (catalogue.New productId) :=
  inferInstanceAs (Decidable (_ ∧ _))

/-- Details without options in which nothing is blank. -/
structure Plain (details : ProductDetails) : Prop where
  name : Text.isBlank details.name = false
  barcodes : ∀ barcode ∈ details.barcodes, Text.isBlank barcode = false
  optionGroups : details.optionGroups = []

/-- What a shop may add: at a price that is not negative, under barcodes nothing carries. -/
def Addable (catalogue : Catalogue) (details : ProductDetails) : Prop :=
  details.price.isNegative = false ∧ ∀ barcode ∈ details.barcodes, ¬ catalogue.Holds barcode

variable {catalogue catalogue' : Catalogue} {productId : Uuid} {details : ProductDetails}
  {at' : Timestamp} {addedBy : Uuid}

theorem assertBarcodesFree_isOkay (hnew : catalogue.New productId) {product : Product}
    (hid : product.id = productId) :
    (catalogue.assertBarcodesFree product).isOkay ↔
      ∀ barcode ∈ product.barcodes, ¬ catalogue.Holds barcode := by
  unfold assertBarcodesFree
  rw [forM_isOkay]
  refine forall₂_congr fun barcode hbarcode => ?_
  constructor
  · intro h hheld
    obtain ⟨other, hother, hcarries⟩ := hheld
    split at h
    · cases h
    · rename_i hnone
      have hfree := List.find?_eq_none.mp hnone other hother
      have hdiffers : other.id ≠ product.id := hid ▸ hnew.2 other hother
      simp [hdiffers, hcarries] at hfree
  · intro h
    split
    · rename_i existing hfound
      have hcarries := List.find?_some hfound
      simp only [decide_eq_true_eq] at hcarries
      exact absurd ⟨existing, List.mem_of_find?_eq_some hfound, hcarries.2⟩ h
    · rfl

/-- Plain details describe a product where the price is not negative. -/
theorem toProduct_eq_ok (hplain : Plain details) {product : Product}
    (h : (CatalogueEvent.productAdded productId details at' addedBy).toProduct true =
      .ok product) :
    details.price.isNegative = false ∧ product.id = productId ∧
      product.barcodes = details.barcodes := by
  obtain ⟨_, hvalid, h⟩ := Except.bind_eq_ok.mp h
  cases h
  simp only [Product.validate, hplain.name, Bool.false_eq_true, if_false] at hvalid
  split at hvalid
  · cases hvalid
  · rename_i hprice
    exact ⟨Bool.not_eq_true _ ▸ hprice, rfl, rfl⟩

theorem toProduct_isOkay (hplain : Plain details) (hprice : details.price.isNegative = false) :
    ((CatalogueEvent.productAdded productId details at' addedBy).toProduct true).isOkay := by
  have hblank : details.barcodes.any Text.isBlank = false := by
    rw [List.any_eq_false]
    intro barcode hbarcode
    simp [hplain.barcodes barcode hbarcode]
  simp only [CatalogueEvent.toProduct, Product.validate, hplain.name, hprice, hblank,
    hplain.optionGroups, Bool.false_eq_true, if_false]
  rfl

/-- A product is added exactly where its price is not negative and nothing carries one of its
    barcodes. -/
theorem productAdded_isOkay (hnew : catalogue.New productId) (hplain : Plain details) :
    (catalogue.apply (.productAdded productId details at' addedBy)).isOkay ↔
      catalogue.Addable details := by
  have habsent : catalogue.products.contains productId = false := by
    rw [Std.ExtTreeMap.contains_eq_isSome_getElem?, hnew.1]
    rfl
  -- the id is new, so the product is placed
  have hplace : catalogue.apply (.productAdded productId details at' addedBy) =
      catalogue.place (.productAdded productId details at' addedBy) true := by
    show (if catalogue.products.contains productId then _ else _) = _
    rw [habsent]
    rfl
  rw [hplace, place, Except.bind_isOkay]
  constructor
  · intro h
    obtain ⟨product, hproduct, h⟩ := h
    obtain ⟨hprice, hid, hbarcodes⟩ := toProduct_eq_ok hplain hproduct
    obtain ⟨_, hfree, -⟩ := Except.bind_isOkay.mp h
    rw [Addable, ← hbarcodes, ← assertBarcodesFree_isOkay hnew hid]
    exact ⟨hprice, Except.isOkay_iff.mpr ⟨_, hfree⟩⟩
  · intro h
    obtain ⟨product, hproduct⟩ := Except.isOkay_iff.mp (@toProduct_isOkay productId _ at' addedBy
      hplain h.1)
    obtain ⟨-, hid, hbarcodes⟩ := toProduct_eq_ok hplain hproduct
    have hfree := (assertBarcodesFree_isOkay hnew hid).mpr (hbarcodes ▸ h.2)
    obtain ⟨_, hfree⟩ := Except.isOkay_iff.mp hfree
    exact ⟨product, hproduct, Except.bind_isOkay.mpr ⟨_, hfree, rfl⟩⟩

/-- An added product puts its barcodes in the catalogue, and takes its id. -/
theorem productAdded_leaves (hnew : catalogue.New productId) (hplain : Plain details)
    (h : catalogue.apply (.productAdded productId details at' addedBy) = .ok catalogue') :
    (∀ barcode, catalogue'.Holds barcode ↔ catalogue.Holds barcode ∨ barcode ∈ details.barcodes) ∧
      ∀ other, other ≠ productId → catalogue.New other → catalogue'.New other := by
  simp only [apply] at h
  split at h
  · cases h
  obtain ⟨product, hproduct, h⟩ := Except.bind_eq_ok.mp h
  obtain ⟨-, -, h⟩ := Except.bind_eq_ok.mp h
  obtain ⟨-, hid, hbarcodes⟩ := toProduct_eq_ok hplain hproduct
  cases h
  -- the key is new, so nothing that was there is lost
  have hvalues : ∀ other, other ∈ (catalogue.products.insert productId product).values ↔
      other = product ∨ other ∈ catalogue.products.values := by
    intro other
    simp only [UuidMap.mem_values, UuidMap.get_insert]
    constructor
    · intro hother
      obtain ⟨key, hkey⟩ := hother
      split at hkey
      · exact .inl (Option.some.inj hkey).symm
      · exact .inr ⟨key, hkey⟩
    · intro hother
      rcases hother with rfl | ⟨key, hkey⟩
      · exact ⟨productId, if_pos rfl⟩
      · refine ⟨key, ?_⟩
        rw [if_neg, hkey]
        rintro rfl
        rw [hnew.1] at hkey
        cases hkey
  constructor
  · intro barcode
    simp only [Holds, CatalogueEvent.productId, hvalues, exists_eq_or_imp, hbarcodes]
    exact or_comm
  · intro other hdiffers hother
    refine ⟨?_, ?_⟩
    · show (catalogue.products.insert productId product)[other]? = none
      rw [UuidMap.get_insert, if_neg hdiffers.symm]
      exact hother.1
    · intro found hfound
      rcases (hvalues found).mp hfound with rfl | hfound
      · rw [hid]
        exact hdiffers.symm
      · exact hother.2 found hfound

end Catalogue

end Sahl
