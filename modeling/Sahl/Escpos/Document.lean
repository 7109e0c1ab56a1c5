import Mathlib.Tactic
import Sahl.Lib.Text
import Sahl.Escpos.Command
import Sahl.Escpos.Receipt

/-! # Assembling a printable document

    A document is the concatenation of what the renderer writes: its own commands, and lines of
    text from catalogues, settings and sibling tills. Every ASCII character of a line reaches the
    printer as it is, the controls among them.

    The main result is `printed_iff`. -/

namespace Sahl.Escpos

/-! ## Section 1: What is printed -/

/-- One printed line item. -/
structure ReceiptLine where
  name : String
  quantity : Quantity
  unitPrice : Money
  total : Money
  /-- Printed and marked, never omitted. -/
  voided : Bool

/-- A VAT summary row. -/
structure ReceiptTaxGroup where
  label : String
  taxableBase : Money
  tax : Money

/-- Everything a receipt prints. -/
structure ReceiptData where
  shopName : String
  shopAddress : Option String
  taxRegistration : Option String
  invoiceNumber : String
  printedAt : String
  currencyLabel : String
  lines : List ReceiptLine
  taxGroups : List ReceiptTaxGroup
  discount : Option Money
  net : Money
  tax : Money
  total : Money
  tenders : List (String × Money)
  change : Option Money
  footer : Option String
  /-- The ZATCA QR payload, already base64. -/
  qr : Option String

/-- One line on a kitchen ticket, its options indented under it. -/
structure KitchenTicketLine where
  name : String
  quantity : Quantity
  modifiers : List String

/-- One station's instruction, as it prints. -/
structure KitchenTicketData where
  station : String
  isCancellation : Bool
  tableLabel : Option String
  covers : Option U32
  round : U32
  printedAt : String
  lines : List KitchenTicketLine

/-! ## Section 2: The renderer -/

/-- A line of text plus a newline. What is not ASCII becomes `?`. -/
def line (text : List Char) : List UInt8 :=
  (text.map fun character =>
    if character.toNat < 128 then UInt8.ofNat character.toNat else ascii '?') ++ [ascii '\n']

def textPiece (text : List Char) : printer.Piece := .text (line text)

/-- A rendered document, ready to write to a device. -/
structure Document where
  bytes : List UInt8

/-- What a renderer wrote, as the bytes that go to the device. -/
def Document.of (pieces : List printer.Piece) : Document := ⟨pieces.flatMap (·.units)⟩

namespace KitchenTicketData

def headerPieces (data : KitchenTicketData) (width : ℕ) : List printer.Piece :=
  [.command initializePrinter, .command (codePage codePageCp437), .command (align .center),
    .command (emphasis true), .command (size true true)] ++
  -- a cancellation is marked before anything else on the ticket
  (if data.isCancellation then [textPiece "*** CANCEL ***".toList] else []) ++
  [textPiece data.station.toList, .command (size false false)] ++
  (data.tableLabel.toList.flatMap fun table =>
    [.command (size true true), textPiece ("TABLE ".toList ++ table.toList),
      .command (size false false)]) ++
  [.command (emphasis false), .command (align .left), textPiece (rule width '='),
    textPiece ("Round ".toList ++ Decimal.digits data.round.val ++
      data.covers.toList.flatMap fun covers =>
        "   ".toList ++ Decimal.digits covers.val ++ " covers".toList),
    textPiece data.printedAt.toList, textPiece (rule width '=')]

def itemPieces (item : KitchenTicketLine) : List printer.Piece :=
  [.command (emphasis true), .command (size false true),
    textPiece (quantityLabel item.quantity ++ " x ".toList ++ item.name.toList),
    .command (size false false), .command (emphasis false)] ++
  item.modifiers.map fun modifier => textPiece ("    - ".toList ++ modifier.toList)

/-- What a kitchen ticket is made of: no prices and no drawer pulse. -/
def pieces (data : KitchenTicketData) (paper : PaperWidth) : List printer.Piece :=
  let width := paper.columns
  data.headerPieces width ++ data.lines.flatMap itemPieces ++
    [textPiece (rule width '='), .command (feed 3), .command cut]

end KitchenTicketData

namespace ReceiptData

def headerPieces (data : ReceiptData) (width : ℕ) : List printer.Piece :=
  [.command initializePrinter, .command (codePage codePageCp437), .command (align .center),
    .command (emphasis true), .command (size true true), textPiece data.shopName.toList,
    .command (size false false), .command (emphasis false)] ++
  (data.shopAddress.toList.map fun address => textPiece address.toList) ++
  (data.taxRegistration.toList.map fun registration =>
    textPiece ("VAT Reg: ".toList ++ registration.toList)) ++
  [.command (align .left), textPiece (rule width '-'),
    textPiece ("Invoice: ".toList ++ data.invoiceNumber.toList),
    textPiece ("Date:    ".toList ++ data.printedAt.toList), textPiece (rule width '-')]

/-- Two rows per item. -/
def itemPieces (width : ℕ) (item : ReceiptLine) : List printer.Piece :=
  let each := "  ".toList ++ quantity item.quantity ++ " x ".toList ++ amount item.unitPrice
  if item.voided then
    [textPiece (item.name.toList ++ " (VOID)".toList),
      textPiece (columns each "0.00".toList width)]
  else [textPiece item.name.toList, textPiece (columns each (amount item.total) width)]

def totalsPieces (data : ReceiptData) (width : ℕ) : List printer.Piece :=
  [textPiece (rule width '-')] ++
  ((data.discount.filter fun value => ! value.isZero).toList.map fun discount =>
    textPiece (columns "Discount".toList ('-' :: amount discount) width)) ++
  [textPiece (columns "Subtotal".toList (amount data.net) width)] ++
  (data.taxGroups.map fun group =>
    textPiece (columns group.label.toList (amount group.tax) width)) ++
  [.command (emphasis true),
    textPiece (columns ("TOTAL ".toList ++ data.currencyLabel.toList) (amount data.total) width),
    .command (emphasis false)] ++
  (data.tenders.map fun (method, value) =>
    textPiece (columns method.toList (amount value) width)) ++
  ((data.change.filter fun value => ! value.isZero).toList.map fun change =>
    textPiece (columns "Change".toList (amount change) width))

/-- The QR code, where there is a payload and it can be encoded. -/
def qrPieces (data : ReceiptData) : List printer.Piece :=
  match data.qr.map fun payload => Escpos.qr (Text.utf8 payload) 5 with
  | some (.ok commands) => commands.map .command ++ [textPiece []]
  | _ => []

def footerPieces (data : ReceiptData) (width : ℕ) : List printer.Piece :=
  [textPiece (rule width '-'), .command (align .center)] ++ data.qrPieces ++
  (data.footer.toList.map fun footer => textPiece footer.toList) ++
  -- feed first, or the last lines are still inside the mechanism when the blade fires
  [.command (feed 3), .command cut]

/-- What a receipt is made of; the drawer pulse comes last, if at all. -/
def pieces (data : ReceiptData) (paper : PaperWidth) (opensDrawer : Bool) : List printer.Piece :=
  let width := paper.columns
  data.headerPieces width ++ data.lines.flatMap (itemPieces width) ++ data.totalsPieces width ++
    data.footerPieces width ++ if opensDrawer then [.command (openDrawer .two)] else []

end ReceiptData

/-- Render a kitchen ticket. -/
def Document.renderKitchen (data : KitchenTicketData) (paper : PaperWidth) : Document :=
  .of (data.pieces paper)

/-- Render a receipt; `opensDrawer` appends the drawer pulse. -/
def Document.render (data : ReceiptData) (paper : PaperWidth) (opensDrawer : Bool) : Document :=
  .of (data.pieces paper opensDrawer)

/-! ## Section 3: Texts without a control -/

theorem control_ofNat {n : ℕ} (h : n < 256) :
    printer.control (UInt8.ofNat n) = false ↔ n ≠ 0x1B ∧ n ≠ 0x1D := by
  show decide (UInt8.ofNat n = esc ∨ UInt8.ofNat n = gs) = false ↔ _
  rw [decide_eq_false_iff_not, not_or]
  have hesc : UInt8.ofNat n = esc ↔ n = 0x1B := by
    rw [← UInt8.toNat_inj, UInt8.toNat_ofNat', Nat.mod_eq_of_lt h]
    rfl
  have hgs : UInt8.ofNat n = gs ↔ n = 0x1D := by
    rw [← UInt8.toNat_inj, UInt8.toNat_ofNat', Nat.mod_eq_of_lt h]
    rfl
  rw [hesc, hgs]

/-- A line has no control exactly where its text has none. -/
theorem textPiece_inert {text : List Char} : (textPiece text).Inert ↔ Inert text := by
  have hbyte : ∀ c : Char, printer.control (if c.toNat < 128 then UInt8.ofNat c.toNat
      else ascii '?') = false ↔ Printable c := by
    intro c
    by_cases hascii : c.toNat < 128
    · rw [if_pos hascii]
      exact control_ofNat (by omega)
    · rw [if_neg hascii]
      exact iff_of_true (by decide) ⟨by omega, by omega⟩
  have hnewline : printer.control (ascii '\n') = false := by decide
  show (∀ unit ∈ line text, printer.control unit = false) ↔ _
  rw [line, List.forall_mem_append, List.forall_mem_map, List.forall_mem_singleton]
  simp only [hbyte, hnewline, and_true]
  rfl

/-- Pieces none of whose texts has a control. -/
def Quiet (pieces : List printer.Piece) : Prop := ∀ piece ∈ pieces, piece.Inert

theorem quiet_nil : Quiet [] := by simp [Quiet]

theorem quiet_append {a b : List printer.Piece} : Quiet (a ++ b) ↔ Quiet a ∧ Quiet b :=
  List.forall_mem_append

theorem quiet_command {given : printer.Command} {rest : List printer.Piece} :
    Quiet (.command given :: rest) ↔ Quiet rest := by
  rw [Quiet, List.forall_mem_cons]
  exact and_iff_right trivial

theorem quiet_text {text : List Char} {rest : List printer.Piece} :
    Quiet (textPiece text :: rest) ↔ Inert text ∧ Quiet rest := by
  rw [Quiet, List.forall_mem_cons, textPiece_inert]
  rfl

theorem quiet_flatMap {α : Type} {f : α → List printer.Piece} {xs : List α} :
    Quiet (xs.flatMap f) ↔ ∀ x ∈ xs, Quiet (f x) := by
  simp only [Quiet, List.mem_flatMap, forall_exists_index, and_imp]
  exact ⟨fun h x hx y hy => h y x hx hy, fun h y x hx hy => h x hx y hy⟩

theorem quiet_map {α : Type} {f : α → List Char} {xs : List α} :
    Quiet (xs.map fun x => textPiece (f x)) ↔ ∀ x ∈ xs, Inert (f x) := by
  rw [Quiet, List.forall_mem_map]
  simp only [textPiece_inert]

/-- A ticket none of whose texts has a control in it. -/
structure KitchenTicketData.Clean (data : KitchenTicketData) : Prop where
  station : Inert data.station.toList
  tableLabel : ∀ table ∈ data.tableLabel, Inert table.toList
  printedAt : Inert data.printedAt.toList
  items : ∀ item ∈ data.lines, Inert item.name.toList ∧
    ∀ modifier ∈ item.modifiers, Inert modifier.toList

namespace KitchenTicketData

theorem headerPieces_quiet (data : KitchenTicketData) (width : ℕ) :
    Quiet (data.headerPieces width) ↔ Inert data.station.toList ∧
      (∀ table ∈ data.tableLabel, Inert table.toList) ∧ Inert data.printedAt.toList := by
  have hrule : Inert (rule width '=') := inert_rule (by decide)
  have hround : Inert ("Round ".toList ++ Decimal.digits data.round.val ++
      data.covers.toList.flatMap fun covers =>
        "   ".toList ++ Decimal.digits covers.val ++ " covers".toList) := by
    refine inert_append.mpr ⟨inert_append.mpr ⟨by decide, inert_digits _⟩, ?_⟩
    cases data.covers with
    | none => exact inert_nil
    | some covers =>
      rw [Option.toList_some, List.flatMap_singleton]
      exact inert_append.mpr ⟨inert_append.mpr ⟨by decide, inert_digits _⟩, by decide⟩
  have hcancel : Quiet (if data.isCancellation then [textPiece "*** CANCEL ***".toList]
      else []) := by
    split
    · exact quiet_text.mpr ⟨by decide, quiet_nil⟩
    · exact quiet_nil
  have htable : Inert "TABLE ".toList := by decide
  simp only [headerPieces, quiet_append, quiet_command, quiet_text, quiet_flatMap, quiet_nil,
    inert_append, Option.mem_toList, hrule, hround, hcancel, htable, and_true, true_and]
  exact and_assoc

theorem itemPieces_quiet (item : KitchenTicketLine) :
    Quiet (itemPieces item) ↔ Inert item.name.toList ∧
      ∀ modifier ∈ item.modifiers, Inert modifier.toList := by
  have htimes : Inert " x ".toList := by decide
  have hindent : Inert "    - ".toList := by decide
  have hquantity : Inert (quantityLabel item.quantity) := inert_thousandths _
  simp only [itemPieces, quiet_append, quiet_command, quiet_text, quiet_map, quiet_nil,
    inert_append, htimes, hindent, hquantity, and_true, true_and]

theorem pieces_quiet (data : KitchenTicketData) (paper : PaperWidth) :
    Quiet (data.pieces paper) ↔ data.Clean := by
  have hrule : Inert (rule paper.columns '=') := inert_rule (by decide)
  simp only [pieces, quiet_append, quiet_command, quiet_text, quiet_flatMap, quiet_nil,
    headerPieces_quiet, itemPieces_quiet, hrule, and_true]
  exact ⟨fun ⟨⟨hstation, htable, hprinted⟩, hitems⟩ => ⟨hstation, htable, hprinted, hitems⟩,
    fun h => ⟨⟨h.station, h.tableLabel, h.printedAt⟩, h.items⟩⟩

end KitchenTicketData

/-- A receipt none of whose texts, as far as they are printed, has a control in it. -/
structure ReceiptData.Clean (data : ReceiptData) (paper : PaperWidth) : Prop where
  shopName : Inert data.shopName.toList
  shopAddress : ∀ address ∈ data.shopAddress, Inert address.toList
  taxRegistration : ∀ registration ∈ data.taxRegistration, Inert registration.toList
  invoiceNumber : Inert data.invoiceNumber.toList
  printedAt : Inert data.printedAt.toList
  items : ∀ item ∈ data.lines, Inert item.name.toList
  taxGroups : ∀ group ∈ data.taxGroups,
    Inert (printedLabel group.label.toList (amount group.tax) paper.columns)
  currencyLabel : Inert (printedLabel ("TOTAL ".toList ++ data.currencyLabel.toList)
    (amount data.total) paper.columns)
  tenders : ∀ tender ∈ data.tenders,
    Inert (printedLabel tender.1.toList (amount tender.2) paper.columns)
  footer : ∀ footer ∈ data.footer, Inert footer.toList

namespace ReceiptData

theorem headerPieces_quiet (data : ReceiptData) (width : ℕ) :
    Quiet (data.headerPieces width) ↔ Inert data.shopName.toList ∧
      (∀ address ∈ data.shopAddress, Inert address.toList) ∧
      (∀ registration ∈ data.taxRegistration, Inert registration.toList) ∧
      Inert data.invoiceNumber.toList ∧ Inert data.printedAt.toList := by
  have hrule : Inert (rule width '-') := inert_rule (by decide)
  have hregistration : Inert "VAT Reg: ".toList := by decide
  have hinvoice : Inert "Invoice: ".toList := by decide
  have hdate : Inert "Date:    ".toList := by decide
  simp only [headerPieces, quiet_append, quiet_command, quiet_text, quiet_map, quiet_nil,
    inert_append, Option.mem_toList, Option.mem_def, hrule, hregistration, hinvoice, hdate,
    and_true, true_and, and_assoc]

theorem itemPieces_quiet (width : ℕ) (item : ReceiptLine) :
    Quiet (itemPieces width item) ↔ Inert item.name.toList := by
  have heach : Inert ("  ".toList ++ quantity item.quantity ++ " x ".toList ++
      amount item.unitPrice) := by
    have hindent : Inert "  ".toList := by decide
    have htimes : Inert " x ".toList := by decide
    have hquantity : Inert (quantity item.quantity) := inert_thousandths _
    simp only [inert_append, hindent, htimes, hquantity, inert_amount, and_true]
  have hrow : ∀ total : List Char, Inert total → Inert (columns ("  ".toList ++
      quantity item.quantity ++ " x ".toList ++ amount item.unitPrice) total width) :=
    fun total htotal => (inert_columns htotal).mpr (inert_printedLabel heach)
  have hzero : Inert "0.00".toList := by decide
  have hvoid : Inert " (VOID)".toList := by decide
  unfold itemPieces
  by_cases hvoided : item.voided = true
  · simp only [if_pos hvoided, quiet_text, quiet_nil, inert_append, hvoid, hrow _ hzero, and_true]
  · simp only [if_neg hvoided, quiet_text, quiet_nil, hrow _ (inert_amount _), and_true]

theorem totalsPieces_quiet (data : ReceiptData) (width : ℕ) :
    Quiet (data.totalsPieces width) ↔
      (∀ group ∈ data.taxGroups,
        Inert (printedLabel group.label.toList (amount group.tax) width)) ∧
      Inert (printedLabel ("TOTAL ".toList ++ data.currencyLabel.toList) (amount data.total)
        width) ∧
      ∀ tender ∈ data.tenders, Inert (printedLabel tender.1.toList (amount tender.2) width) := by
  have hrule : Inert (rule width '-') := inert_rule (by decide)
  have hdiscount : ∀ discount : Money,
      Inert (columns "Discount".toList ('-' :: amount discount) width) := by
    intro discount
    have hamount : Inert ('-' :: amount discount) := inert_cons.mpr ⟨by decide, inert_amount _⟩
    exact (inert_columns hamount).mpr (inert_printedLabel (by decide))
  have hown : ∀ (label : List Char) (money : Money), Inert label →
      Inert (printedLabel label (amount money) width) :=
    fun _ _ hlabel => inert_printedLabel hlabel
  have hchange := fun change => hown "Change".toList change (by decide)
  have hsubtotal := hown "Subtotal".toList data.net (by decide)
  simp only [totalsPieces, quiet_append, quiet_command, quiet_text, quiet_map, quiet_nil,
    inert_columns (inert_amount _), hrule, hdiscount, hchange, hsubtotal, implies_true, and_true,
    true_and, and_assoc]

theorem qrPieces_quiet (data : ReceiptData) : Quiet data.qrPieces := by
  unfold qrPieces
  split
  · rename_i commands _
    refine quiet_append.mpr ⟨?_, quiet_text.mpr ⟨inert_nil, quiet_nil⟩⟩
    exact List.forall_mem_map.mpr fun _ _ => trivial
  · exact quiet_nil

theorem pieces_quiet (data : ReceiptData) (paper : PaperWidth) (opensDrawer : Bool) :
    Quiet (data.pieces paper opensDrawer) ↔ data.Clean paper := by
  have hrule : Inert (rule paper.columns '-') := inert_rule (by decide)
  have hfooter : Quiet (data.footerPieces paper.columns) ↔
      ∀ footer ∈ data.footer, Inert footer.toList := by
    simp only [footerPieces, quiet_append, quiet_command, quiet_text, quiet_map, quiet_nil,
      qrPieces_quiet, Option.mem_toList, Option.mem_def, hrule, and_true, true_and]
  have hdrawer : Quiet (if opensDrawer then [.command (openDrawer .two)] else []) := by
    split
    · exact quiet_command.mpr quiet_nil
    · exact quiet_nil
  simp only [pieces, quiet_append, quiet_flatMap, headerPieces_quiet, itemPieces_quiet,
    totalsPieces_quiet, hfooter, hdrawer, and_true]
  constructor
  · intro ⟨⟨⟨⟨hname, haddress, hregistration, hnumber, hprinted⟩, hitems⟩, hgroups, hcurrency,
      htenders⟩, hfooter⟩
    exact ⟨hname, haddress, hregistration, hnumber, hprinted, hitems, hgroups, hcurrency,
      htenders, hfooter⟩
  · intro h
    exact ⟨⟨⟨⟨h.shopName, h.shopAddress, h.taxRegistration, h.invoiceNumber, h.printedAt⟩,
      h.items⟩, h.taxGroups, h.currencyLabel, h.tenders⟩, h.footer⟩

end ReceiptData

/-! ## Section 4: What a printer obeys -/

/-- The printer makes of a document what the renderer meant: every control sequence in it is one
    the renderer wrote, and all else is text. -/
def ReadAsMeant (document : Document) (pieces : List printer.Piece) : Prop :=
  printer.read document.bytes = pieces.flatMap (·.meaning)

/-- A sequence that fires the drawer. -/
def Pulse (command : List UInt8) : Prop := [esc, ascii 'p'] <+: command

instance (command : List UInt8) : Decidable (Pulse command) :=
  inferInstanceAs (Decidable (_ <+: _))

/-- Nothing in a document fires the drawer. -/
def NoPulse (document : Document) : Prop :=
  ∀ command, .obey command ∈ printer.read document.bytes → ¬ Pulse command

theorem readAsMeant_iff (pieces : List printer.Piece) :
    ReadAsMeant (.of pieces) pieces ↔ Quiet pieces := Framing.read_eq_meaning_iff pieces

/-- Pieces none of whose commands fires the drawer. -/
def Gentle (pieces : List printer.Piece) : Prop :=
  ∀ given, .command given ∈ pieces → ¬ Pulse given.units

/-- What is read as meant fires the drawer only with a command of its own. -/
theorem noPulse_of_readAsMeant {pieces : List printer.Piece}
    (hread : ReadAsMeant (.of pieces) pieces) (hgentle : Gentle pieces) :
    NoPulse (.of pieces) := by
  intro command hcommand
  rw [hread, List.mem_flatMap] at hcommand
  obtain ⟨piece, hpiece, hmeaning⟩ := hcommand
  cases piece with
  | command given =>
    have heq : command = given.units := by simpa [Framing.Piece.meaning] using hmeaning
    rw [heq]
    exact hgentle given hpiece
  | text written => simp [Framing.Piece.meaning] at hmeaning

theorem gentle_nil : Gentle [] := by simp [Gentle]

theorem gentle_append {a b : List printer.Piece} : Gentle (a ++ b) ↔ Gentle a ∧ Gentle b := by
  simp only [Gentle, List.mem_append, or_imp, forall_and]

theorem gentle_command {given : printer.Command} {rest : List printer.Piece} :
    Gentle (.command given :: rest) ↔ ¬ Pulse given.units ∧ Gentle rest := by
  simp only [Gentle, List.mem_cons, Framing.Piece.command.injEq, or_imp, forall_and, forall_eq]

theorem gentle_text {text : List Char} {rest : List printer.Piece} :
    Gentle (textPiece text :: rest) ↔ Gentle rest := by
  simp only [Gentle, textPiece, List.mem_cons, reduceCtorEq, false_or]

theorem gentle_flatMap {α : Type} {f : α → List printer.Piece} {xs : List α}
    (h : ∀ x, Gentle (f x)) : Gentle (xs.flatMap f) := by
  intro given hgiven
  obtain ⟨x, -, hx⟩ := List.mem_flatMap.mp hgiven
  exact h x given hx

theorem gentle_map {α : Type} {f : α → List Char} {xs : List α} :
    Gentle (xs.map fun x => textPiece (f x)) := by
  intro given hgiven
  obtain ⟨x, -, hx⟩ := List.mem_map.mp hgiven
  cases hx
/-- Of the sequences of the renderer only the drawer's own fires it. -/
theorem not_pulse_of_selector {command : printer.Command} {selector : UInt8} {rest : List UInt8}
    (h : command.tail = selector :: rest) (hselector : selector ≠ ascii 'p') :
    ¬ Pulse command.units := by
  intro hpulse
  rw [Pulse, Framing.Command.units, h, List.cons_prefix_cons, List.cons_prefix_cons] at hpulse
  exact hselector hpulse.2.1.symm

theorem not_pulse_initializePrinter : ¬ Pulse initializePrinter.units := by decide

theorem not_pulse_codePage (page : UInt8) : ¬ Pulse (codePage page).units :=
  not_pulse_of_selector rfl (by decide)

theorem not_pulse_align (alignment : Align) : ¬ Pulse (align alignment).units :=
  not_pulse_of_selector rfl (by decide)

theorem not_pulse_emphasis (on : Bool) : ¬ Pulse (emphasis on).units :=
  not_pulse_of_selector rfl (by decide)

theorem not_pulse_size (doubleWidth doubleHeight : Bool) :
    ¬ Pulse (size doubleWidth doubleHeight).units :=
  not_pulse_of_selector rfl (by decide)

theorem not_pulse_feed (lines : UInt8) : ¬ Pulse (feed lines).units :=
  not_pulse_of_selector rfl (by decide)

theorem not_pulse_cut : ¬ Pulse cut.units := by decide

theorem not_pulse_qr {payload : List UInt8} {moduleSize : UInt8} {commands : List printer.Command}
    (h : qr payload moduleSize = .ok commands) :
    ∀ command ∈ commands, ¬ Pulse command.units := by
  unfold qr at h
  split at h
  · cases h
  · split at h
    · cases h
    · cases h
      intro command hcommand
      simp only [List.mem_cons, List.not_mem_nil, or_false] at hcommand
      obtain rfl | rfl | rfl | rfl | rfl := hcommand <;>
        exact not_pulse_of_selector rfl (by decide)

theorem KitchenTicketData.pieces_gentle (data : KitchenTicketData) (paper : PaperWidth) :
    Gentle (data.pieces paper) := by
  have hcancel : Gentle (if data.isCancellation then [textPiece "*** CANCEL ***".toList]
      else []) := by
    split
    · exact gentle_text.mpr gentle_nil
    · exact gentle_nil
  have htable : Gentle (data.tableLabel.toList.flatMap fun table =>
      [.command (size true true), textPiece ("TABLE ".toList ++ table.toList),
        .command (size false false)]) := by
    refine gentle_flatMap fun table => ?_
    simp only [gentle_command, gentle_text, gentle_nil, not_pulse_size, not_false_eq_true,
      and_true]
  have hitems : Gentle (data.lines.flatMap itemPieces) := by
    refine gentle_flatMap fun item => ?_
    simp only [itemPieces, gentle_append, gentle_command, gentle_text, gentle_nil, gentle_map,
      not_pulse_emphasis, not_pulse_size, not_false_eq_true, and_true]
  simp only [pieces, headerPieces, gentle_append, gentle_command, gentle_text, gentle_nil,
    hcancel, htable, hitems, not_pulse_initializePrinter, not_pulse_codePage, not_pulse_align,
    not_pulse_emphasis, not_pulse_size, not_pulse_feed, not_pulse_cut, not_false_eq_true, and_true]

theorem ReceiptData.pieces_gentle (data : ReceiptData) (paper : PaperWidth) :
    Gentle (data.pieces paper false) := by
  have hitems : Gentle (data.lines.flatMap (itemPieces paper.columns)) := by
    refine gentle_flatMap fun item => ?_
    unfold itemPieces
    split <;> simp only [gentle_text, gentle_nil]
  have hqr : Gentle data.qrPieces := by
    unfold qrPieces
    split
    · rename_i commands hcommands
      obtain ⟨payload, -, hpayload⟩ := Option.map_eq_some_iff.mp hcommands
      refine gentle_append.mpr ⟨?_, gentle_text.mpr gentle_nil⟩
      intro given hgiven
      obtain ⟨command, hcommand, heq⟩ := List.mem_map.mp hgiven
      cases heq
      exact not_pulse_qr hpayload given hcommand
    · exact gentle_nil
  simp only [pieces, headerPieces, totalsPieces, footerPieces, gentle_append, gentle_command,
    gentle_text, gentle_nil, gentle_map, hitems, hqr, not_pulse_initializePrinter,
    not_pulse_codePage, not_pulse_align, not_pulse_emphasis, not_pulse_size, not_pulse_feed,
    not_pulse_cut, Bool.false_eq_true, if_false, not_false_eq_true, and_true]

/-- **Printed text cannot command the printer** exactly where none of it, as far as it is printed,
    has a control in it. -/
theorem printed_iff (ticket : KitchenTicketData) (data : ReceiptData) (paper : PaperWidth)
    (opensDrawer : Bool) :
    ((ReadAsMeant (.renderKitchen ticket paper) (ticket.pieces paper) ∧
        NoPulse (.renderKitchen ticket paper)) ↔ ticket.Clean) ∧
      ((ReadAsMeant (.render data paper opensDrawer) (data.pieces paper opensDrawer) ∧
        (opensDrawer = false → NoPulse (.render data paper opensDrawer))) ↔ data.Clean paper) := by
  constructor
  · rw [← ticket.pieces_quiet paper, ← readAsMeant_iff]
    refine and_iff_left_of_imp fun hread => ?_
    exact noPulse_of_readAsMeant hread (ticket.pieces_gentle paper)
  · rw [← data.pieces_quiet paper opensDrawer, ← readAsMeant_iff]
    refine and_iff_left_of_imp fun hread hdrawer => ?_
    subst hdrawer
    exact noPulse_of_readAsMeant hread (data.pieces_gentle paper)

/-- A kitchen ticket whose one item was given an option with a drawer sequence for a name. -/
def pulsingTicket : KitchenTicketData where
  station := "Grill"
  isCancellation := false
  tableLabel := none
  covers := none
  round := 1
  printedAt := "12:30"
  lines := [⟨"Burger", Quantity.one, ["\x1Bp\x00\x19\x19"]⟩]

/-- The option's name fires the drawer, from a ticket with no money on it. -/
theorem pulsingTicket_fires :
    ¬ (ReadAsMeant (.renderKitchen pulsingTicket .mm58) (pulsingTicket.pieces .mm58) ∧
      NoPulse (.renderKitchen pulsingTicket .mm58)) := by
  intro h
  have hfires : Reading.obey [esc, ascii 'p', 0, 25, 25] ∈
      printer.read (Document.renderKitchen pulsingTicket .mm58).bytes := by decide +kernel
  exact h.2 _ hfires (by decide)

end Sahl.Escpos
