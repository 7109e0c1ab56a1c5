import Mathlib.Tactic
import Sahl.Lib.CheckDigit
import Sahl.Lib.Decimal
import Sahl.Core.Outlet

/-! # Scale labels

    A counter scale prints an EAN-13 with a weight or a price among its digits. Where they stand is
    a setting of the outlet. A label is read exactly as its layout says, or refused. -/

namespace Sahl

/-! ## Section 1: The layout -/

/-- Why a scale's label, or its layout, was refused. -/
inductive ScaleError where
  | wrongLength (length : Nat)
  | notANumber (found : Char)
  | notAScaleLabel (barcode scalePrefix : String)
  | badCheckDigit (found expected : Nat)
  | badFormat (scalePrefix : Nat) (item value filler : UInt8) (total : Nat)
  | badPrefix (length : Nat)
  | tooPrecise (decimals : UInt8) (unit : String)
  | money (error : MoneyError)
  deriving DecidableEq

/-- A label is a full EAN-13. -/
def labelLength : Nat := 13

namespace ScaleFormat

/-- A layout whose fields and one check digit come to the digits of a label. -/
def new (scalePrefix : String) (itemDigits : UInt8) (embedded : Embedded)
    (valueDigits valueDecimals fillerDigits : UInt8) : Except ScaleError ScaleFormat :=
  let length := scalePrefix.utf8ByteSize
  let total := length + itemDigits.toNat + valueDigits.toNat + fillerDigits.toNat + 1
  if length = 0 ∨ 3 < length ∨ ! scalePrefix.toList.all Char.isDigit then
    .error (.badPrefix length)
  else if total ≠ labelLength ∨ itemDigits = 0 ∨ valueDigits = 0 then
    .error (.badFormat length itemDigits valueDigits fillerDigits total)
  else .ok { scalePrefix, itemDigits, embedded, valueDigits, valueDecimals, fillerDigits }

/-- What the check of a layout establishes. -/
structure Fits (format : ScaleFormat) : Prop where
  prefixDigits : ∀ c ∈ format.scalePrefix.toList, c.isDigit = true
  prefixLength : 1 ≤ format.scalePrefix.toList.length ∧ format.scalePrefix.toList.length ≤ 3
  total : format.scalePrefix.toList.length + format.itemDigits.toNat + format.valueDigits.toNat +
    format.fillerDigits.toNat + 1 = labelLength
  item : 0 < format.itemDigits.toNat
  value : 0 < format.valueDigits.toNat

theorem new_fits {scalePrefix : String} {itemDigits valueDigits valueDecimals fillerDigits : UInt8}
    {embedded : Embedded} {format : ScaleFormat}
    (h : new scalePrefix itemDigits embedded valueDigits valueDecimals fillerDigits = .ok format) :
    format.Fits := by
  unfold new at h
  obtain ⟨hinitial, h⟩ := Except.ite_error_eq_ok.mp h
  obtain ⟨hwidths, h⟩ := Except.ite_error_eq_ok.mp h
  cases h
  simp only [not_or, Bool.not_eq_true', Bool.not_eq_false, List.all_eq_true] at hinitial
  simp only [not_or, not_not] at hwidths
  obtain ⟨hne, hshort, hdigits⟩ := hinitial
  obtain ⟨htotal, hitem, hvalue⟩ := hwidths
  -- the widths are in bytes, which are characters for digits
  have hlength : scalePrefix.toList.length = scalePrefix.utf8ByteSize :=
    (Text.utf8ByteSize_of_digits hdigits).symm
  have hpos : ∀ width : UInt8, width ≠ 0 → 0 < width.toNat := by
    intro width hwidth
    exact Nat.pos_of_ne_zero fun hzero => hwidth (UInt8.toNat_inj.mp hzero)
  constructor
  · exact hdigits
  · show 1 ≤ scalePrefix.toList.length ∧ scalePrefix.toList.length ≤ 3
    omega
  · show scalePrefix.toList.length + itemDigits.toNat + valueDigits.toNat + fillerDigits.toNat + 1 =
      labelLength
    rw [hlength]
    exact htotal
  · exact hpos _ hitem
  · exact hpos _ hvalue

/-! ## Section 2: Reading a label -/

/-- Whether this barcode is one of ours at all. -/
def matchesBarcode (format : ScaleFormat) (barcode : String) : Bool :=
  barcode.utf8ByteSize = labelLength && Text.startsWith barcode format.scalePrefix &&
    barcode.toList.all Char.isDigit

end ScaleFormat

/-- What a scanned label turned out to say. -/
inductive ScannedValue where
  | weight (quantity : Quantity)
  | price (price : Money)
  deriving DecidableEq

structure ScaleScan where
  itemCode : String
  value : ScannedValue
  deriving DecidableEq

/-- `str::get` of a range, where every character takes one byte. -/
def getRange (s : List Char) (start stop : Nat) : Option (List Char) :=
  if start ≤ stop ∧ stop ≤ s.length then some ((s.drop start).take (stop - start)) else none

/-- `char::to_digit` in base ten. -/
def toDigit (c : Char) : Option Nat := if c.isDigit then some (c.toNat - 48) else none

/-- Positions alternate 1×, 3×, starting at 1× for the leftmost digit. -/
def digitWeight (index : Nat) : Nat := if index % 2 = 0 then 1 else 3

/-- Standard EAN-13 modulo-10 over the first twelve digits; their sum is far from saturating. -/
def checkDigit (twelve : List Char) : Except ScaleError Nat := do
  let sum ← twelve.zipIdx.foldlM (fun (sum : Nat) (character, index) => do
    let digit ← Except.okOr (toDigit character) (ScaleError.notANumber character)
    .ok (sum + digit * digitWeight index)) 0
  .ok ((10 - sum % 10) % 10)

def digitAt (barcode : String) (index : Nat) : Except ScaleError Nat :=
  Except.okOr (barcode.toList[index]?.bind toDigit) (.wrongLength barcode.utf8ByteSize)

namespace ScaleFormat

/-- Scale a value up to the last of so many decimal places. -/
def scaled (format : ScaleFormat) (places : Nat) (unit : String) (raw : I64) :
    Except ScaleError I64 :=
  if places < format.valueDecimals.toNat then .error (.tooPrecise format.valueDecimals unit)
  else
    Except.okOr (SInt.ofInt? (raw.val * 10 ^ (places - format.valueDecimals.toNat)))
      (.money .overflow)

/-- Scale up to thousandths, which is what a quantity holds. -/
def toQuantity (format : ScaleFormat) (raw : I64) : Except ScaleError Quantity :=
  (format.scaled 3 "thousandths" raw).map Quantity.mk

def toMoney (format : ScaleFormat) (raw : I64) (currency : Currency) : Except ScaleError Money :=
  (format.scaled currency.exponent "minor units" raw).map fun minor => ⟨minor, currency⟩

/-- What the value's digits are read as. -/
def valueOfRaw (format : ScaleFormat) (raw : I64) (currency : Currency) :
    Except ScaleError ScannedValue :=
  match format.embedded with
  | .weight => (format.toQuantity raw).map ScannedValue.weight
  | .price => (format.toMoney raw currency).map ScannedValue.price

/-- The fields of a label, wherever the layout puts them. -/
def fields (format : ScaleFormat) (barcode : String) (currency : Currency) :
    Except ScaleError ScaleScan := do
  let itemStart := format.scalePrefix.utf8ByteSize
  let itemEnd := itemStart + format.itemDigits.toNat
  let valueEnd := itemEnd + format.valueDigits.toNat
  let itemCode := String.ofList ((getRange barcode.toList itemStart itemEnd).getD [])
  let raw ← Except.okOr (Text.parseInt? 64 ((getRange barcode.toList itemEnd valueEnd).getD []))
    (.wrongLength labelLength)
  let value ← format.valueOfRaw raw currency
  .ok { itemCode, value }

/-- Pull the item code and the embedded value out of a scanned label. -/
def parse (format : ScaleFormat) (barcode : String) (currency : Currency) :
    Except ScaleError ScaleScan :=
  if barcode.utf8ByteSize ≠ labelLength then .error (.wrongLength barcode.utf8ByteSize)
  else
    match barcode.toList.find? fun c => ! c.isDigit with
    | some found => .error (.notANumber found)
    | none =>
      if ! Text.startsWith barcode format.scalePrefix then
        .error (.notAScaleLabel barcode format.scalePrefix)
      else do
        let expected ← checkDigit ((getRange barcode.toList 0 12).getD [])
        let found ← digitAt barcode 12
        if found ≠ expected then .error (.badCheckDigit found expected)
        else format.fields barcode currency

end ScaleFormat

/-! ## Section 3: What a label is -/

/-- The digits of a text, by their value. -/
def digitValues (s : List Char) : List Nat := s.map fun c => c.toNat - 48

/-- Thirteen digits that begin with the prefix and close under the EAN-13 weights. -/
structure IsLabel (scalePrefix barcode : String) : Prop where
  length : barcode.toList.length = labelLength
  digits : ∀ c ∈ barcode.toList, c.isDigit = true
  starts : scalePrefix.toList <+: barcode.toList
  closes : CheckDigit.Closes 10 digitWeight (digitValues barcode.toList)

theorem toNat_of_isDigit {c : Char} (h : c.isDigit = true) : 48 ≤ c.toNat ∧ c.toNat ≤ 57 := by
  have hrange := Char.isDigit_iff_toNat.mp h
  exact ⟨hrange.1, hrange.2⟩

theorem toDigit_of_isDigit {c : Char} (h : c.isDigit = true) :
    toDigit c = some (c.toNat - 48) := if_pos h

/-- The weight of a position has an inverse modulo ten: it is one or three. -/
theorem digitWeight_coprime (index : Nat) : (digitWeight index).Coprime 10 := by
  unfold digitWeight
  split <;> decide

/-- The check digit is the one that closes the weighted sum. -/
theorem checkDigit_eq {twelve : List Char} (h : ∀ c ∈ twelve, c.isDigit = true) :
    checkDigit twelve =
      .ok ((10 - CheckDigit.weighted digitWeight 0 (digitValues twelve) % 10) % 10) := by
  -- the loop of the source, from any position and sum
  let step (sum : Nat) (entry : Char × Nat) : Except ScaleError Nat := do
    let digit ← Except.okOr (toDigit entry.1) (ScaleError.notANumber entry.1)
    .ok (sum + digit * digitWeight entry.2)
  have hfold : ∀ (s : List Char) (i sum : Nat), (∀ c ∈ s, c.isDigit = true) →
      (s.zipIdx i).foldlM step sum =
        .ok (sum + CheckDigit.weighted digitWeight i (digitValues s)) := by
    intro s
    induction s with
    | nil => exact fun _ _ _ => rfl
    | cons c rest ih =>
      intro i sum hs
      obtain ⟨hc, hrest⟩ := List.forall_mem_cons.mp hs
      have hstep : step sum (c, i) = .ok (sum + (c.toNat - 48) * digitWeight i) := by
        show (Except.okOr (toDigit c) _).bind _ = _
        rw [toDigit_of_isDigit hc]
        rfl
      rw [List.zipIdx_cons, List.foldlM_cons, hstep]
      show (rest.zipIdx (i + 1)).foldlM step _ = _
      rw [ih _ _ hrest, Nat.mul_comm, Nat.add_assoc]
      rfl
  show ((twelve.zipIdx 0).foldlM step 0).bind _ = _
  rw [hfold twelve 0 0 h, Nat.zero_add]
  rfl

theorem digitAt_eq {barcode : String} {index : Nat} (hindex : index < barcode.toList.length)
    (hdigit : barcode.toList[index].isDigit = true) :
    digitAt barcode index = .ok (barcode.toList[index].toNat - 48) := by
  rw [digitAt, List.getElem?_eq_getElem hindex, Option.bind_some, toDigit_of_isDigit hdigit]
  rfl

theorem getRange_eq {s : List Char} {start width : Nat} (h : start + width ≤ s.length) :
    (getRange s start (start + width)).getD [] = (s.drop start).take width := by
  rw [getRange, if_pos ⟨Nat.le_add_right start width, h⟩, Option.getD_some, Nat.add_sub_cancel_left]

/-- Thirteen digits close when the last is the check digit of the others. -/
theorem closes_iff_checkDigit {s : List Char} (hlength : s.length = labelLength)
    (hin : 12 < s.length) (hdigits : ∀ c ∈ s, c.isDigit = true) :
    CheckDigit.Closes 10 digitWeight (digitValues s) ↔
      s[12].toNat - 48 =
        (10 - CheckDigit.weighted digitWeight 0 (digitValues (s.take 12)) % 10) % 10 := by
  have hparts : s = s.take 12 ++ [s[12]] := by
    rw [← List.take_succ_eq_append_getElem hin]
    exact (List.take_of_length_le hlength.le).symm
  have hrange := toNat_of_isDigit (hdigits _ (List.getElem_mem hin))
  have hcount : (digitValues (s.take 12)).length = 12 := by
    rw [digitValues, List.length_map, List.length_take]
    omega
  have hvalues : digitValues s = digitValues (s.take 12) ++ [s[12].toNat - 48] := by
    conv_lhs => rw [hparts]
    exact List.map_append
  rw [hvalues]
  exact CheckDigit.closes_append_iff (by rw [hcount]; rfl) (by omega)

/-! ## Section 4: A label is read exactly -/

namespace ScaleFormat

/-- The digits of the item code. -/
def itemPart (format : ScaleFormat) (barcode : String) : List Char :=
  (barcode.toList.drop format.scalePrefix.toList.length).take format.itemDigits.toNat

/-- The digits of the weight or price. -/
def valuePart (format : ScaleFormat) (barcode : String) : List Char :=
  (barcode.toList.drop (format.scalePrefix.toList.length + format.itemDigits.toNat)).take
    format.valueDigits.toNat

/-- The decimal places a label's value is held in. -/
def places (format : ScaleFormat) (currency : Currency) : Nat :=
  match format.embedded with
  | .weight => 3
  | .price => currency.exponent

/-- A value of so many thousandths, or so many minor units, as the layout says which. -/
def Means (format : ScaleFormat) (currency : Currency) (amount : Nat) : ScannedValue → Prop
  | .weight quantity => format.embedded = .weight ∧ quantity.milli.val = amount
  | .price price =>
    format.embedded = .price ∧ price.minor.val = amount ∧ price.currency = currency

/-- What is read of a label: the digits at the layout's positions, the value scaled by its
    decimals. -/
structure Decodes (format : ScaleFormat) (currency : Currency) (barcode : String)
    (scan : ScaleScan) : Prop where
  itemCode : scan.itemCode.toList = format.itemPart barcode
  value : format.Means currency (Decimal.valueOf (format.valuePart barcode) *
    10 ^ (format.places currency - format.valueDecimals.toNat)) scan.value

variable {format : ScaleFormat} {currency : Currency} {barcode : String}

theorem places_le (format : ScaleFormat) (currency : Currency) : format.places currency ≤ 3 := by
  unfold places
  cases format.embedded with
  | weight => exact Nat.le_refl 3
  | price => cases currency <;> decide

/-- The value of ten digits, in thousandths, is far from full. -/
theorem scaled_eq {n places : Nat} (unit : String) {raw : I64} (hraw : raw.val = n)
    (hn : n < 10 ^ 10) (hplaces : places ≤ 3) (hfits : format.valueDecimals.toNat ≤ places) :
    ∃ amount, format.scaled places unit raw = .ok amount ∧
      amount.val = (n * 10 ^ (places - format.valueDecimals.toNat) : Nat) := by
  have hscale : 10 ^ (places - format.valueDecimals.toNat) ≤ 10 ^ 3 :=
    Nat.pow_le_pow_right (by decide) (by omega)
  have hbound : n * 10 ^ (places - format.valueDecimals.toNat) ≤ 10 ^ 10 * 10 ^ 3 :=
    Nat.mul_le_mul hn.le hscale
  obtain ⟨amount, hamount, hval⟩ := @SInt.ofInt?_of_fits 64
    (n * 10 ^ (places - format.valueDecimals.toNat) : Nat) ⟨by omega, by omega⟩
  refine ⟨amount, ?_, hval⟩
  rw [scaled, if_neg (by omega), hraw]
  push_cast at hamount
  rw [hamount]
  rfl

theorem scaled_refused {places : Nat} {unit : String} {raw : I64}
    (h : places < format.valueDecimals.toNat) :
    format.scaled places unit raw = .error (.tooPrecise format.valueDecimals unit) := if_pos h

/-- A value is read when its decimals fit, for what its digits mean. -/
theorem valueOfRaw_eq {n : Nat} {raw : I64} (hraw : raw.val = n) (hn : n < 10 ^ 10)
    (hfits : format.valueDecimals.toNat ≤ format.places currency) :
    ∃ value, format.valueOfRaw raw currency = .ok value ∧
      format.Means currency (n * 10 ^ (format.places currency - format.valueDecimals.toNat))
        value := by
  have hplaces := places_le format currency
  unfold valueOfRaw
  cases hembedded : format.embedded with
  | weight =>
    have hthree : format.places currency = 3 := by rw [places, hembedded]
    rw [hthree] at hfits hplaces ⊢
    obtain ⟨amount, hamount, hval⟩ :=
      scaled_eq "thousandths" hraw hn hplaces hfits
    exact ⟨.weight ⟨amount⟩, by rw [toQuantity, hamount]; rfl, hembedded, hval⟩
  | price =>
    have hexponent : format.places currency = currency.exponent := by rw [places, hembedded]
    rw [hexponent] at hfits hplaces ⊢
    obtain ⟨amount, hamount, hval⟩ :=
      scaled_eq "minor units" hraw hn hplaces hfits
    exact ⟨.price ⟨amount, currency⟩, by rw [toMoney, hamount]; rfl, hembedded, hval, rfl⟩

theorem valueOfRaw_refused {raw : I64}
    (h : format.places currency < format.valueDecimals.toNat) :
    ∃ error, format.valueOfRaw raw currency = .error error := by
  unfold valueOfRaw
  cases hembedded : format.embedded with
  | weight =>
    have hthree : format.places currency = 3 := by rw [places, hembedded]
    rw [hthree] at h
    exact ⟨_, by rw [toQuantity, scaled_refused h]; rfl⟩
  | price =>
    have hexponent : format.places currency = currency.exponent := by rw [places, hembedded]
    rw [hexponent] at h
    exact ⟨_, by rw [toMoney, scaled_refused h]; rfl⟩

/-- Thirteen digits that begin with the prefix are taken for a label, whether or not they close. -/
theorem matchesBarcode_of_digits (hlength : barcode.toList.length = labelLength)
    (hdigits : ∀ c ∈ barcode.toList, c.isDigit = true)
    (hstarts : format.scalePrefix.toList <+: barcode.toList) :
    format.matchesBarcode barcode = true := by
  have hsize : barcode.utf8ByteSize = labelLength :=
    (Text.utf8ByteSize_of_digits hdigits).trans hlength
  have hbegins : Text.startsWith barcode format.scalePrefix = true :=
    List.isPrefixOf_iff_prefix.mpr hstarts
  rw [matchesBarcode, hsize, hbegins, List.all_eq_true.mpr hdigits]
  rfl

/-- A label is one of ours before it is read. -/
theorem matchesBarcode_of_isLabel (h : IsLabel format.scalePrefix barcode) :
    format.matchesBarcode barcode = true := matchesBarcode_of_digits h.length h.digits h.starts

/-- A label gives its fields. -/
theorem parse_label (h : IsLabel format.scalePrefix barcode) :
    format.parse barcode currency = format.fields barcode currency := by
  have hin : 12 < barcode.toList.length := by rw [h.length]; decide
  have hsize : barcode.utf8ByteSize = labelLength :=
    (Text.utf8ByteSize_of_digits h.digits).trans h.length
  have hfind : (barcode.toList.find? fun c => ! c.isDigit) = none := by
    rw [List.find?_eq_none]
    intro c hc
    rw [h.digits c hc]
    decide
  have hstarts : Text.startsWith barcode format.scalePrefix = true :=
    List.isPrefixOf_iff_prefix.mpr h.starts
  have htwelve : (getRange barcode.toList 0 12).getD [] = barcode.toList.take 12 :=
    @getRange_eq barcode.toList 0 12 (by omega)
  have hexpected := @checkDigit_eq (barcode.toList.take 12)
    fun c hc => h.digits c (List.mem_of_mem_take hc)
  have hfound := digitAt_eq hin (h.digits _ (List.getElem_mem hin))
  have hcloses := (closes_iff_checkDigit h.length hin h.digits).mp h.closes
  unfold parse
  rw [if_neg (by rw [hsize]; exact not_not_intro rfl), hfind]
  show (if (! Text.startsWith barcode format.scalePrefix) = true then _ else _) = _
  rw [if_neg (by rw [hstarts]; decide), htwelve, hexpected, hfound]
  exact if_neg (not_not_intro hcloses)

/-- Nothing but a label is read. -/
theorem isLabel_of_parse {scan : ScaleScan} (h : format.parse barcode currency = .ok scan) :
    IsLabel format.scalePrefix barcode := by
  unfold parse at h
  obtain ⟨hsize, h⟩ := Except.ite_error_eq_ok.mp h
  split at h
  · cases h
  rename_i hfind
  obtain ⟨hstarts, h⟩ := Except.ite_error_eq_ok.mp h
  obtain ⟨expected, hexpected, h⟩ := Except.bind_eq_ok.mp h
  obtain ⟨found, hfound, h⟩ := Except.bind_eq_ok.mp h
  obtain ⟨hsame, -⟩ := Except.ite_error_eq_ok.mp h
  -- the length is counted in bytes, and equals that in characters once all are digits
  have hdigits : ∀ c ∈ barcode.toList, c.isDigit = true := by
    intro c hc
    simpa using List.find?_eq_none.mp hfind c hc
  have hlength : barcode.toList.length = labelLength :=
    (Text.utf8ByteSize_of_digits hdigits).symm.trans (not_not.mp hsize)
  have hin : 12 < barcode.toList.length := by rw [hlength]; decide
  have htwelve : (getRange barcode.toList 0 12).getD [] = barcode.toList.take 12 :=
    @getRange_eq barcode.toList 0 12 (by omega)
  rw [htwelve, @checkDigit_eq (barcode.toList.take 12)
    fun c hc => hdigits c (List.mem_of_mem_take hc)] at hexpected
  rw [digitAt_eq hin (hdigits _ (List.getElem_mem hin))] at hfound
  constructor
  · exact hlength
  · exact hdigits
  · exact List.isPrefixOf_iff_prefix.mp (by simpa [Text.startsWith] using hstarts)
  · rw [closes_iff_checkDigit hlength hin hdigits]
    cases hexpected
    cases hfound
    exact not_not.mp hsame

/-- The fields of a label are the digits at the layout's positions. -/
theorem fields_label (hfits : format.Fits) (h : IsLabel format.scalePrefix barcode) :
    ∃ raw : I64, raw.val = Decimal.valueOf (format.valuePart barcode) ∧
      Decimal.valueOf (format.valuePart barcode) < 10 ^ 10 ∧
      format.fields barcode currency = (format.valueOfRaw raw currency).map
        fun value => ⟨String.ofList (format.itemPart barcode), value⟩ := by
  have hlength : barcode.toList.length = 13 := h.length
  have htotal : format.scalePrefix.toList.length + format.itemDigits.toNat +
    format.valueDigits.toNat + format.fillerDigits.toNat + 1 = 13 := hfits.total
  obtain ⟨hlow, -⟩ := hfits.prefixLength
  have hitem := hfits.item
  have hpositive := hfits.value
  have hinitial : format.scalePrefix.utf8ByteSize = format.scalePrefix.toList.length :=
    Text.utf8ByteSize_of_digits hfits.prefixDigits
  have hcount : (format.valuePart barcode).length = format.valueDigits.toNat := by
    rw [valuePart, List.length_take, List.length_drop]
    omega
  have hne : format.valuePart barcode ≠ [] := by
    intro hnil
    rw [hnil, List.length_nil] at hcount
    omega
  have hdigits : ∀ c ∈ format.valuePart barcode, c.isDigit = true := by
    intro c hc
    exact h.digits c (List.mem_of_mem_drop (List.mem_of_mem_take hc))
  -- the prefix, one item digit and the check digit leave ten at most
  have hlt : Decimal.valueOf (format.valuePart barcode) < 10 ^ 10 :=
    (Decimal.valueOf_lt hdigits).trans_le (Nat.pow_le_pow_right (by decide) (by omega))
  obtain ⟨raw, hparsed, hraw⟩ := @Decimal.parseInt?_digits 64 _ hne hdigits (by omega)
  refine ⟨raw, hraw, hlt, ?_⟩
  have hvalue : (getRange barcode.toList
      (format.scalePrefix.toList.length + format.itemDigits.toNat)
      (format.scalePrefix.toList.length + format.itemDigits.toNat +
        format.valueDigits.toNat)).getD [] = format.valuePart barcode :=
    getRange_eq (by omega)
  have hcode : (getRange barcode.toList format.scalePrefix.toList.length
      (format.scalePrefix.toList.length + format.itemDigits.toNat)).getD [] =
        format.itemPart barcode :=
    getRange_eq (by omega)
  unfold fields
  rw [hinitial]
  show (Except.okOr (Text.parseInt? 64 ((getRange _ _ _).getD [])) _).bind _ = _
  rw [hvalue, hcode, hparsed]
  show (format.valueOfRaw raw currency).bind _ = _
  cases format.valueOfRaw raw currency <;> rfl

/-- A label whose decimals fit is read for what it says. -/
theorem parse_of_label (hfits : format.Fits) (h : IsLabel format.scalePrefix barcode)
    (hprecise : format.valueDecimals.toNat ≤ format.places currency) :
    ∃ scan, format.parse barcode currency = .ok scan ∧ format.Decodes currency barcode scan := by
  obtain ⟨raw, hraw, hlt, hfields⟩ := @fields_label format currency barcode hfits h
  obtain ⟨value, hvalue, hmeans⟩ := valueOfRaw_eq hraw hlt hprecise
  rw [parse_label h, hfields, hvalue]
  exact ⟨_, rfl, String.toList_ofList, hmeans⟩

/-- What is read has decimals that fit. -/
theorem precise_of_parse (hfits : format.Fits) {scan : ScaleScan}
    (h : format.parse barcode currency = .ok scan) :
    format.valueDecimals.toNat ≤ format.places currency := by
  have hlabel := isLabel_of_parse h
  by_contra hprecise
  obtain ⟨raw, -, -, hfields⟩ := @fields_label format currency barcode hfits hlabel
  obtain ⟨error, herror⟩ := @valueOfRaw_refused format currency raw (Nat.lt_of_not_le hprecise)
  rw [parse_label hlabel, hfields, herror] at h
  cases h

/-- A digit of a label cannot be changed alone. -/
theorem not_isLabel_set {scalePrefix : String} {i : Nat} {c : Char}
    (h : IsLabel scalePrefix barcode) (hi : i < barcode.toList.length)
    (hne : c ≠ barcode.toList[i]) :
    ¬ IsLabel scalePrefix (String.ofList (barcode.toList.set i c)) := by
  intro hset
  have hchanged := hset.digits
  have hcloses := hset.closes
  rw [String.toList_ofList] at hchanged hcloses
  have hnew := toNat_of_isDigit (hchanged c (List.mem_set hi c))
  have hold := toNat_of_isDigit (h.digits _ (List.getElem_mem hi))
  have hdiffers : c.toNat ≠ barcode.toList[i].toNat := fun heq => hne (Char.toNat_inj.mp heq)
  have hin : i < (digitValues barcode.toList).length := by
    rw [digitValues, List.length_map]
    exact hi
  have hvalue : (digitValues barcode.toList)[i] = barcode.toList[i].toNat - 48 :=
    List.getElem_map _
  have hvalues : digitValues (barcode.toList.set i c) =
      (digitValues barcode.toList).set i (c.toNat - 48) := List.map_set
  rw [hvalues] at hcloses
  exact CheckDigit.not_closes_of_set hin (digitWeight_coprime i) (by omega) (by omega) (by omega)
    h.closes hcloses

/-- **A label decodes exactly.** A layout that was accepted reads the strings that are labels and
    whose decimals fit, and no others; the item code and the value are the digits at its positions,
    the value scaled by its decimals; and a label with one character changed is refused. -/
theorem parse_decodes {scalePrefix : String}
    {itemDigits valueDigits valueDecimals fillerDigits : UInt8} {embedded : Embedded}
    {format : ScaleFormat}
    (hnew : new scalePrefix itemDigits embedded valueDigits valueDecimals fillerDigits = .ok format)
    (currency : Currency) (barcode : String) :
    ((∃ scan, format.parse barcode currency = .ok scan) ↔
      IsLabel format.scalePrefix barcode ∧
        format.valueDecimals.toNat ≤ format.places currency) ∧
    (∀ scan, format.parse barcode currency = .ok scan →
      format.Decodes currency barcode scan) ∧
    (IsLabel format.scalePrefix barcode → ∀ i, ∀ hi : i < barcode.toList.length, ∀ c,
      c ≠ barcode.toList[i] →
        ∃ error, format.parse (String.ofList (barcode.toList.set i c)) currency =
          .error error) := by
  have hfits := new_fits hnew
  refine ⟨⟨?_, ?_⟩, ?_, ?_⟩
  · intro hscan
    obtain ⟨scan, hscan⟩ := hscan
    exact ⟨isLabel_of_parse hscan, precise_of_parse hfits hscan⟩
  · intro h
    obtain ⟨scan, hscan, -⟩ := parse_of_label hfits h.1 h.2
    exact ⟨scan, hscan⟩
  · intro scan hscan
    obtain ⟨read, hread, hdecodes⟩ :=
      parse_of_label hfits (isLabel_of_parse hscan) (precise_of_parse hfits hscan)
    rw [hscan] at hread
    cases hread
    exact hdecodes
  · -- a changed label is no label: the check digit gives it away
    intro hlabel i hi c hne
    cases hparse : format.parse (String.ofList (barcode.toList.set i c)) currency with
    | error error => exact ⟨error, rfl⟩
    | ok scan => exact absurd (isLabel_of_parse hparse) (not_isLabel_set hlabel hi hne)

/-- Two digits of prefix, five of item code and five of grams: a label of 1.250 kg. -/
theorem parse_decodes_grams :
    ∃ format, new "20" 5 .weight 5 3 0 = .ok format ∧
      format.Decodes .bdt "2012345012509" ⟨"12345", .weight ⟨I64.lit 1250⟩⟩ := by
  have hparse : (ScaleFormat.mk "20" 5 .weight 5 3 0).parse "2012345012509" .bdt =
      .ok ⟨"12345", .weight ⟨I64.lit 1250⟩⟩ := by
    decide +kernel
  have hnew : new "20" 5 .weight 5 3 0 = .ok (ScaleFormat.mk "20" 5 .weight 5 3 0) := by
    decide +kernel
  exact ⟨_, hnew, (parse_decodes hnew .bdt "2012345012509").2.1 _ hparse⟩

end ScaleFormat

end Sahl
