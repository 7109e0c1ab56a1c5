import Mathlib.Tactic
import Sahl.Lib.Base64
import Sahl.Lib.Decimal
import Sahl.Lib.Tlv
import Sahl.Fiscal.Invoice

/-! # Saudi Arabia: the ZATCA simplified tax invoice

    Five facts on the face of the invoice and the same five in a QR code: base64 over
    tag-length-value triplets. The base64 codec and the calendar are not this program's.

    The main result is `build_statesSale_iff`: the registration is checked without the white
    space around it and written with it, and that is all that can go wrong. -/

namespace Sahl.Fiscal

/-- What is used of a calendar: instants of so many seconds since the epoch are written in UTC
    with a `Z`, to the second, and read back. -/
structure Calendar where
  Moment : Type
  fromUnixTimestamp : Int → Option Moment
  format : Moment → Except String String
  parse : String → Option Int
  parse_format : ∀ {seconds : Int} {moment : Moment} {text : String},
    fromUnixTimestamp seconds = some moment → format moment = .ok text → parse text = some seconds

/-! ## Section 1: The document -/

/-- One line of a simplified invoice. -/
structure ZatcaLine where
  description : String
  unit : String
  quantityMilli : I64
  /-- Excluding VAT. -/
  unitPrice : Money
  lineTotal : Money
  vatRateBasisPoints : I32
  vatAmount : Money
  totalWithVat : Money
  deriving DecidableEq

structure SimplifiedTaxInvoice where
  sellerName : String
  sellerVat : String
  issuingAddress : String
  invoiceNumber : String
  issuedAtMillis : I64
  lines : List ZatcaLine
  totalExcludingVat : Money
  totalVat : Money
  totalWithVat : Money
  /-- The QR payload: base64 of the concatenated triplets. -/
  qr : String
  deriving DecidableEq

namespace Zatca

/-- Tag numbers, in the order they are concatenated. -/
inductive Tag where
  | sellerName
  | vatRegistration
  | timestamp
  | totalWithVat
  | vatTotal
  deriving DecidableEq

def Tag.number : Tag → UInt8
  | sellerName => 1
  | vatRegistration => 2
  | timestamp => 3
  | totalWithVat => 4
  | vatTotal => 5

def vatNumberDigits : Nat := 15

/-- The document named in every refusal. -/
def document : String := "ZATCA simplified tax invoice"

/-- Append one triplet; its length counts bytes. -/
def push (buffer : List UInt8) (tag : Tag) (value : List UInt8) :
    Except FiscalError (List UInt8) :=
  if value.length < 256 then .ok (buffer ++ Tlv.triplet tag.number value)
  else .error (.invalid ("a QR field is at most 255 bytes, tag " ++ toString tag.number.toNat ++
    " is " ++ toString value.length))

/-- ISO 8601 in UTC with a `Z`, to the second. -/
def zulu (calendar : Calendar) (millis : I64) : Except FiscalError String := do
  let moment ← Except.okOr (calendar.fromUnixTimestamp (millis.val / 1000))
    (FiscalError.invalid (toString millis.val ++ " is not a representable instant"))
  (calendar.format moment).mapError FiscalError.invalid

/-- A plain decimal with the currency's own number of places. -/
def decimal (amount : Money) : String :=
  let places := amount.currency.exponent
  let perMajor := amount.currency.minorPerMajor
  let sign := if amount.isNegative then ['-'] else []
  let magnitude := amount.minor.unsignedAbs.val
  let major := Decimal.digits (magnitude / perMajor)
  let rest := magnitude % perMajor
  if places = 0 then String.ofList (sign ++ major)
  else String.ofList (sign ++ major ++ '.' :: Decimal.padLeft places (Decimal.digits rest))

/-- 15 digits, beginning and ending with 3, whatever white space there is around them. -/
def checkVatNumber (registration : String) : Except FiscalError Unit :=
  let trimmed := Text.trim registration
  if trimmed.toList.isEmpty then .error (.missing "VAT registration number" document)
  else if trimmed.utf8ByteSize ≠ vatNumberDigits ∨ ¬ trimmed.toList.all Char.isDigit ∨
      trimmed.toList.head? ≠ some '3' ∨ trimmed.toList.getLast? ≠ some '3' then
    .error (.invalid (trimmed ++
      " is not a Saudi VAT number: 15 digits beginning and ending with 3"))
  else .ok ()

/-- The five triplets, concatenated and encoded. -/
def qrPayload (base64 : Base64) (calendar : Calendar) (sellerName vatRegistration : String)
    (issuedAtMillis : I64) (totalWithVat vatTotal : Money) : Except FiscalError String := do
  let bytes ← push [] .sellerName (Text.utf8 sellerName)
  let bytes ← push bytes .vatRegistration (Text.utf8 vatRegistration)
  let stamp ← zulu calendar issuedAtMillis
  let bytes ← push bytes .timestamp (Text.utf8 stamp)
  let bytes ← push bytes .totalWithVat (Text.utf8 (decimal totalWithVat))
  let bytes ← push bytes .vatTotal (Text.utf8 (decimal vatTotal))
  .ok (base64.encode bytes)

/-- The excluding-VAT unit price. -/
def unitPrice (net : Money) (quantityMilli : I64) : Except FiscalError Money :=
  (perUnit net quantityMilli).mapError FiscalError.money

def zatcaLine (line : FiscalLine) (computed : LineTotals) : Except FiscalError ZatcaLine := do
  let unitPrice ← unitPrice computed.net line.quantityMilli
  .ok { description := line.description, unit := line.unit, quantityMilli := line.quantityMilli,
        unitPrice, lineTotal := computed.net, vatRateBasisPoints := rateOf computed.taxClass,
        vatAmount := computed.tax, totalWithVat := computed.total }

/-- Build a simplified tax invoice from a completed sale. -/
def build (base64 : Base64) (calendar : Calendar) (invoice : Invoice) :
    Except FiscalError SimplifiedTaxInvoice :=
  if invoice.lines.isEmpty ∨ invoice.totals.lines.isEmpty then .error .empty
  else do
    required (some invoice.seller.name) "seller name" document
    checkVatNumber invoice.seller.registration
    if invoice.totals.total.currency ≠ .sar then
      .error (.invalid ("a ZATCA invoice is in SAR, this sale is in " ++
        invoice.totals.total.currency.code))
    else
      let lines ← (invoice.lines.zip invoice.totals.lines).mapM fun (line, computed) =>
        zatcaLine line computed
      let qr ← qrPayload base64 calendar invoice.seller.name invoice.seller.registration
        invoice.issuedAt.millis invoice.totals.total invoice.totals.tax
      .ok { sellerName := invoice.seller.name, sellerVat := invoice.seller.registration,
            issuingAddress := invoice.seller.address,
            invoiceNumber := toString invoice.sequence.val,
            issuedAtMillis := invoice.issuedAt.millis, lines,
            totalExcludingVat := invoice.totals.net, totalVat := invoice.totals.tax,
            totalWithVat := invoice.totals.total, qr }

/-! ## Section 2: The parts -/

theorem push_eq_ok {buffer buffer' value : List UInt8} {tag : Tag} :
    push buffer tag value = .ok buffer' ↔
      value.length < 256 ∧ buffer ++ Tlv.triplet tag.number value = buffer' := by
  unfold push
  by_cases h : value.length < 256
  · simp [h]
  · simp [h]

theorem zulu_parse {calendar : Calendar} {millis : I64} {stamp : String}
    (h : zulu calendar millis = .ok stamp) : calendar.parse stamp = some (millis.val / 1000) := by
  simp only [zulu, Except.bind_eq_ok, Except.okOr_eq_ok, Except.mapError_eq_ok] at h
  obtain ⟨moment, hmoment, hstamp⟩ := h
  exact calendar.parse_format hmoment hstamp

/-- An amount is rendered at the places of its currency. -/
theorem toList_decimal (amount : Money) : (decimal amount).toList =
    Decimal.render amount.currency.exponent amount.minor.val := by
  simp only [decimal, Decimal.render, Currency.minorPerMajor_eq, Money.isNegative,
    I64.unsignedAbs, decide_eq_true_eq]
  by_cases hplaces : amount.currency.exponent = 0
  · simp [hplaces]
  · simp [hplaces]

/-- The decimal of an amount is read back for its minor units. -/
theorem read_decimal (amount : Money) :
    Decimal.read amount.currency.exponent (decimal amount).toList = some amount.minor.val := by
  rw [toList_decimal, Decimal.read_render]

/-- A Saudi VAT registration number. -/
structure IsVatNumber (text : String) : Prop where
  length : text.toList.length = vatNumberDigits
  digits : ∀ c ∈ text.toList, c.isDigit = true
  first : text.toList.head? = some '3'
  last : text.toList.getLast? = some '3'

theorem checkVatNumber_eq_ok {registration : String} :
    checkVatNumber registration = .ok () ↔ IsVatNumber (Text.trim registration) := by
  unfold checkVatNumber
  generalize Text.trim registration = trimmed
  constructor
  · intro h
    simp only at h
    split at h
    · cases h
    split at h
    · cases h
    -- the source counts bytes, which are characters once all are digits
    rename_i hgood
    rw [not_or, not_or, not_or, not_not, not_not, not_not, not_not, List.all_eq_true] at hgood
    obtain ⟨hsize, hdigits, hfirst, hlast⟩ := hgood
    rw [Text.utf8ByteSize_of_digits hdigits] at hsize
    exact ⟨hsize, hdigits, hfirst, hlast⟩
  · intro h
    have hsome : trimmed.toList.isEmpty = false := by
      rw [List.isEmpty_eq_false_iff_exists_mem]
      exact ⟨'3', List.mem_of_head? h.first⟩
    have hsize : trimmed.utf8ByteSize = vatNumberDigits :=
      (Text.utf8ByteSize_of_digits h.digits).trans h.length
    have hdigits : trimmed.toList.all Char.isDigit = true := List.all_eq_true.mpr h.digits
    simp [hsome, hsize, hdigits, h.first, h.last]

theorem IsVatNumber.trim {text : String} (h : IsVatNumber text) : Text.trim text = text :=
  Text.trim_eq_self fun c hc => Text.isWhitespace_of_isDigit (h.digits c hc)

/-- The payload is the five triplets in order, and nothing after them. -/
theorem qrPayload_decode {base64 : Base64} {calendar : Calendar}
    {sellerName vatRegistration qr : String} {issuedAtMillis : I64} {totalWithVat vatTotal : Money}
    (h : qrPayload base64 calendar sellerName vatRegistration issuedAtMillis totalWithVat
      vatTotal = .ok qr) :
    ∃ stamp, zulu calendar issuedAtMillis = .ok stamp ∧ (base64.decode qr).bind Tlv.decode =
      some [(1, Text.utf8 sellerName), (2, Text.utf8 vatRegistration), (3, Text.utf8 stamp),
        (4, Text.utf8 (decimal totalWithVat)), (5, Text.utf8 (decimal vatTotal))] := by
  simp only [qrPayload, Except.bind_eq_ok, push_eq_ok] at h
  obtain ⟨_, ⟨hname, rfl⟩, _, ⟨hregistration, rfl⟩, stamp, hstamp, _, ⟨hlength, rfl⟩, _,
    ⟨htotal, rfl⟩, _, ⟨hvat, rfl⟩, h⟩ := h
  cases h
  refine ⟨stamp, hstamp, ?_⟩
  rw [base64.decode_encode, Option.bind_some]
  have hread := Tlv.decode_flatten [(1, Text.utf8 sellerName), (2, Text.utf8 vatRegistration),
    (3, Text.utf8 stamp), (4, Text.utf8 (decimal totalWithVat)), (5, Text.utf8 (decimal vatTotal))]
    (by simp [hname, hregistration, hlength, htotal, hvat])
  simpa [Tag.number] using hread

/-! ## Section 3: What the QR states -/

/-- A QR that states a sale: every byte of it is the five triplets in order, and their values are
    the seller's name, a registration number, the instant of issue to the second, and the order's
    total and VAT in riyals. -/
def StatesSale (base64 : Base64) (calendar : Calendar) (invoice : Invoice) (qr : String) : Prop :=
  ∃ registration stamp total vat : String,
    (base64.decode qr).bind Tlv.decode =
      some [(1, Text.utf8 invoice.seller.name), (2, Text.utf8 registration), (3, Text.utf8 stamp),
        (4, Text.utf8 total), (5, Text.utf8 vat)] ∧
    IsVatNumber registration ∧
    calendar.parse stamp = some (invoice.issuedAt.millis.val / 1000) ∧
    Decimal.read Currency.sar.exponent total.toList = some invoice.totals.total.minor.val ∧
    Decimal.read Currency.sar.exponent vat.toList = some invoice.totals.tax.minor.val

theorem build_eq_ok {base64 : Base64} {calendar : Calendar} {invoice : Invoice}
    {issued : SimplifiedTaxInvoice} (h : build base64 calendar invoice = .ok issued) :
    IsVatNumber (Text.trim invoice.seller.registration) ∧
      List.Forall₂ (fun pair line => zatcaLine pair.1 pair.2 = .ok line)
        (invoice.lines.zip invoice.totals.lines) issued.lines ∧
      qrPayload base64 calendar invoice.seller.name invoice.seller.registration
        invoice.issuedAt.millis invoice.totals.total invoice.totals.tax = .ok issued.qr := by
  unfold build at h
  split at h
  · cases h
  simp only [Except.bind_eq_ok] at h
  obtain ⟨_, _, _, hcheck, h⟩ := h
  split at h
  · cases h
  simp only [Except.bind_eq_ok] at h
  obtain ⟨lines, hlines, qr, hqr, h⟩ := h
  cases h
  exact ⟨checkVatNumber_eq_ok.mp hcheck, mapM_eq_ok.mp hlines, hqr⟩

/-- Every amount is written with as many places as riyals are. -/
theorem read_decimal_sar (amount : Money) :
    Decimal.read Currency.sar.exponent (decimal amount).toList = some amount.minor.val := by
  have hplaces : Currency.sar.exponent = amount.currency.exponent := by
    cases amount.currency <;> rfl
  rw [hplaces, read_decimal]

/-- A QR that states its sale carries the registration as it came, so that is a VAT number. -/
theorem isVatNumber_of_statesSale {base64 : Base64} {calendar : Calendar} {invoice : Invoice}
    {issued : SimplifiedTaxInvoice} (h : build base64 calendar invoice = .ok issued)
    (hstates : StatesSale base64 calendar invoice issued.qr) :
    IsVatNumber invoice.seller.registration := by
  obtain ⟨stamp, -, hdecode⟩ := qrPayload_decode (build_eq_ok h).2.2
  obtain ⟨registration, _, _, _, hstated, hnumber, _⟩ := hstates
  rw [hdecode, Option.some.injEq] at hstated
  simp only [List.cons.injEq, Prod.mk.injEq, true_and] at hstated
  rw [Text.utf8_injective hstated.1]
  exact hnumber

/-- **The ZATCA QR states what was sold**, on every invoice that is issued, exactly where the
    registration has no white space around it. -/
theorem build_statesSale_iff {base64 : Base64} {calendar : Calendar} {invoice : Invoice}
    {issued : SimplifiedTaxInvoice} (h : build base64 calendar invoice = .ok issued) :
    StatesSale base64 calendar invoice issued.qr ↔
      Text.trim invoice.seller.registration = invoice.seller.registration := by
  constructor
  · intro hstates
    exact (isVatNumber_of_statesSale h hstates).trim
  · intro htrim
    -- what was checked is what is written
    obtain ⟨hnumber, -, hqr⟩ := build_eq_ok h
    obtain ⟨stamp, hstamp, hdecode⟩ := qrPayload_decode hqr
    rw [htrim] at hnumber
    exact ⟨invoice.seller.registration, stamp, _, _, hdecode, hnumber, zulu_parse hstamp,
      read_decimal_sar _, read_decimal_sar _⟩

/-- A calendar that knows half past three on 25 April 2022. -/
def april : Calendar where
  Moment := Unit
  fromUnixTimestamp seconds := if seconds = 1650900600 then some () else none
  format _ := .ok "2022-04-25T15:30:00Z"
  parse text := if text = "2022-04-25T15:30:00Z" then some 1650900600 else none
  parse_format := by
    intro seconds moment text hmoment htext
    cases htext
    rw [if_pos rfl]
    by_cases hseconds : seconds = 1650900600
    · rw [hseconds]
    · rw [if_neg hseconds] at hmoment
      cases hmoment

/-- One line, 100.00 riyals before VAT at 15%, under a registration. -/
def saudiInvoice (registration : String) : Invoice where
  saleId := 1
  sequence := 42
  issuedAt := ⟨I64.lit 1650900600999⟩
  seller := ⟨"Al Faisaliah Market", registration, "King Fahd Road, Riyadh 12211"⟩
  buyer := ⟨none, none, none⟩
  lines := [⟨"Dates, 1kg", "pcs", I64.lit 1000⟩]
  totals :=
    { lines := [⟨⟨I64.lit 11500, .sar⟩, Money.zero .sar, ⟨I64.lit 10000, .sar⟩,
        ⟨I64.lit 1500, .sar⟩, ⟨I64.lit 11500, .sar⟩, .standard ⟨I32.lit 1500⟩⟩],
      taxGroups := [⟨.standard ⟨I32.lit 1500⟩, ⟨I64.lit 10000, .sar⟩, ⟨I64.lit 1500, .sar⟩⟩],
      gross := ⟨I64.lit 11500, .sar⟩, discount := Money.zero .sar,
      net := ⟨I64.lit 10000, .sar⟩, tax := ⟨I64.lit 1500, .sar⟩,
      total := ⟨I64.lit 11500, .sar⟩ }
  destination := none

theorem build_statesSale_iff_riyadh :
    ∃ issued, build Base64.standard april (saudiInvoice "300000000000003") = .ok issued ∧
      StatesSale Base64.standard april (saudiInvoice "300000000000003") issued.qr := by
  obtain ⟨issued, h⟩ := Except.isOkay_iff.mp (show (build Base64.standard april
    (saudiInvoice "300000000000003")).isOkay = true by decide +kernel)
  exact ⟨issued, h, (build_statesSale_iff h).mpr (by decide +kernel)⟩

/-- A registration pasted with a blank before it passes the check, and the QR states sixteen
    characters that are no registration number. -/
theorem pasted_registration_misstated :
    ∃ issued, build Base64.standard april (saudiInvoice " 300000000000003") = .ok issued ∧
      ¬ StatesSale Base64.standard april (saudiInvoice " 300000000000003") issued.qr := by
  obtain ⟨issued, h⟩ := Except.isOkay_iff.mp (show (build Base64.standard april
    (saudiInvoice " 300000000000003")).isOkay = true by decide +kernel)
  refine ⟨issued, h, fun hstates => ?_⟩
  have hlength := (isVatNumber_of_statesSale h hstates).length
  exact absurd hlength (by decide +kernel)

end Zatca

end Sahl.Fiscal
