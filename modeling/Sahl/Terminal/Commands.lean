import Mathlib.Tactic
import Sahl.Core.Ringing
import Sahl.Terminal.Book
import Sahl.Terminal.FailedCalls

/-! # The commands of the sell screen

    A command works out an event from what the screen asks and the till knows, records it, and
    answers with the sale as it then stands. `add_line` resolves the chosen options and looks for
    a line to merge with; the event it writes for a new line carries no options
    (`addLine_rungUp_iff`). -/

namespace Sahl

/-! ## Section 1: Commands -/

/-- What the screen receives when something goes wrong. -/
inductive CommandError where
  | terminal (error : TerminalError)
  | badTaxClass (treatment : String)
  | money (error : MoneyError)
  deriving DecidableEq

/-- The tax class of a treatment; a rate means something on a standard supply only. -/
def taxClass (treatment : String) (basisPoints : I32) : Except CommandError TaxClass :=
  if treatment = "standard" then .ok (.standard ⟨basisPoints⟩)
  else if treatment = "zero_rated" then .ok .zeroRated
  else if treatment = "exempt" then .ok .exempt
  else .error (.badTaxClass treatment)

/-- What the screen sends to ring a product up. -/
structure AddLine where
  saleId : Uuid
  productId : Uuid
  name : String
  unitPriceMinor : I64
  quantityMilli : I64
  taxBasisPoints : I32
  taxTreatment : String
  chosenOptions : List Uuid

namespace Terminal

def sale (t : Terminal) (saleId : Uuid) : Except TerminalError Sale :=
  Except.okOr t.book.sales[saleId]? (.unknownSale saleId)

/-- Turn chosen option ids into the modifiers a line carries. -/
def resolveModifiers (t : Terminal) (productId : Uuid) (chosen : List Uuid) :
    Except TerminalError (List Modifier) :=
  match t.catalogue.get productId with
  -- a sibling's product can be sold before its catalogue entry arrives
  | none => .ok []
  | some product => do
    product.optionGroups.forM fun group => (group.check chosen).mapError TerminalError.catalogue
    .ok (product.optionGroups.flatMap fun group => chosen.filterMap fun id =>
      (group.option id).map fun option =>
        { optionId := option.id, name := option.name, priceDelta := option.priceDelta })

/-- Record an event and answer with its sale. -/
def applyCommand (digests : Digests) (writable : Bool) (occurredAt : Timestamp) (t : Terminal)
    (event : SaleEvent) (eventId : Uuid) : Terminal × Except CommandError Sale :=
  match t.record digests writable occurredAt event eventId with
  | (t, .error error) => (t, .error (.terminal error))
  | (t, .ok _) => (t, (t.sale event.saleId).mapError .terminal)

/-- The supply asked for, in the currency of the sale and with its options resolved. -/
def askedSupply (t : Terminal) (request : AddLine) : Except CommandError Supply := do
  let sale ← (t.sale request.saleId).mapError CommandError.terminal
  let taxClass ← taxClass request.taxTreatment request.taxBasisPoints
  let modifiers ← (t.resolveModifiers request.productId request.chosenOptions).mapError
    CommandError.terminal
  .ok { productId := request.productId, unitPrice := ⟨request.unitPriceMinor, sale.currency⟩,
        taxClass, modifiers }

/-- The event `add_line` writes, `lineId` being the id it has ready for a new line. -/
def addLineEvent (t : Terminal) (request : AddLine) (lineId : Uuid) :
    Except CommandError SaleEvent := do
  let supply ← t.askedSupply request
  let sale ← (t.sale request.saleId).mapError CommandError.terminal
  match sale.mergeable supply with
  | some line => do
    let merged ← (line.quantity.checkedAdd ⟨request.quantityMilli⟩).mapError CommandError.money
    .ok (.lineQuantityChanged request.saleId line.id merged)
  | none =>
    .ok (.lineAdded request.saleId lineId supply.productId request.name supply.unitPrice
      ⟨request.quantityMilli⟩ supply.taxClass [])

def addLine (digests : Digests) (writable : Bool) (occurredAt : Timestamp) (t : Terminal)
    (request : AddLine) (lineId eventId : Uuid) : Terminal × Except CommandError Sale :=
  match t.addLineEvent request lineId with
  | .error error => (t, .error error)
  | .ok event => t.applyCommand digests writable occurredAt event eventId

/-! ## Section 2: What is rung is what is recorded, with no options -/

/-- An event on a sale of the book is refused, or may be written and leaves in the book what it
    makes of the sale. -/
theorem record_cases (digests : Digests) (writable : Bool) (occurredAt : Timestamp) (t : Terminal)
    (event : SaleEvent) (eventId : Uuid) {sale : Sale}
    (hsale : t.book.sales[event.saleId]? = some sale) :
    (∃ t' error, t.record digests writable occurredAt event eventId = (t', .error error) ∧
      t'.book = t.book) ∨
    ∃ t' es sale', t.record digests writable occurredAt event eventId = (t', .ok es) ∧
      (writable = true ∧ t.assertMayWrite event occurredAt = .ok ()) ∧
      (sale.apply event).toExcept = .ok sale' ∧ t'.book.sales[event.saleId]? = some sale' := by
  unfold record
  rcases commit_cases digests writable occurredAt t (t.prepareRecord event eventId occurredAt) with
    ⟨error, -, hcommit⟩ | ⟨p, chain, error, -, -, hcommit⟩ |
    ⟨p, chain, es, store, hprepare, hwritable, -, -, hcommit⟩
  · exact .inl ⟨_, _, hcommit, rfl⟩
  · exact .inl ⟨_, _, hcommit, rfl⟩
  · -- stored: what is adopted is the book in which the event was tried
    obtain ⟨_, hmay, hone⟩ := Except.bind_eq_ok.mp hprepare
    obtain ⟨candidate, hcandidate, hone⟩ := Except.bind_eq_ok.mp hone
    cases hone
    simp only [Projections.apply, Except.bind_eq_ok, Except.mapError_eq_ok] at hcandidate
    obtain ⟨book, hbook, hcandidate⟩ := hcandidate
    cases hcandidate
    obtain ⟨after, hafter, hinsert⟩ := UuidMap.alterM_eq_ok.mp (SaleBook.apply_eq_ok.mp hbook)
    rw [hsale] at hafter
    refine .inr ⟨_, es, after, hcommit, ⟨hwritable, hmay⟩, hafter, ?_⟩
    show book.sales[event.saleId]? = some after
    rw [← hinsert, UuidMap.get_insert, if_pos rfl]

/-- A command of the sell screen leaves the till its event's recording leaves. -/
theorem applyCommand_fst (digests : Digests) (writable : Bool) (occurredAt : Timestamp)
    (t : Terminal) (event : SaleEvent) (eventId : Uuid) :
    (t.applyCommand digests writable occurredAt event eventId).1 =
      (t.record digests writable occurredAt event eventId).1 := by
  unfold applyCommand
  generalize t.record digests writable occurredAt event eventId = result
  obtain ⟨t', answer⟩ := result
  cases answer with
  | error error => rfl
  | ok es => rfl

/-- A command that answers recorded its event, and answers with the sale the event left. -/
theorem applyCommand_eq_ok {digests : Digests} {writable : Bool} {occurredAt : Timestamp}
    {t t' : Terminal} {event : SaleEvent} {eventId : Uuid} {sale sale' : Sale}
    (hsale : t.book.sales[event.saleId]? = some sale)
    (h : t.applyCommand digests writable occurredAt event eventId = (t', .ok sale')) :
    (sale.apply event).toExcept = .ok sale' := by
  unfold applyCommand at h
  rcases record_cases digests writable occurredAt t event eventId hsale with
    ⟨t', error, hrecord, -⟩ | ⟨t', es, after, hrecord, -, hafter, hstored⟩
  · rw [hrecord] at h
    cases h
  · rw [hrecord] at h
    simp only [Prod.mk.injEq, Except.mapError_eq_ok, Terminal.sale, Except.okOr_eq_ok] at h
    obtain ⟨-, h⟩ := h
    rw [hstored] at h
    cases h
    exact hafter

/-- **What is rung is what is recorded, where there is no option to lose**: a quantity that
    `add_line` answers for is rung up exactly when its options resolve to none or there is a line
    to merge with. -/
theorem addLine_rungUp_iff {digests : Digests} {writable : Bool} {occurredAt : Timestamp}
    {t t' : Terminal} {request : AddLine} {lineId eventId : Uuid} {sale' : Sale}
    (ht : Transition.Reachable Fresh (step digests) t)
    (h : t.addLine digests writable occurredAt request lineId eventId = (t', .ok sale')) :
    ∃ sale supply, t.sale request.saleId = .ok sale ∧ t.askedSupply request = .ok supply ∧
      (sale.RungUp sale' supply ⟨request.quantityMilli⟩ ↔
        supply.modifiers = [] ∨ (sale.mergeable supply).isSome) := by
  unfold addLine at h
  cases hevent : t.addLineEvent request lineId with
  | error error =>
    rw [hevent] at h
    cases h
  | ok event =>
    rw [hevent] at h
    simp only [addLineEvent, Except.bind_eq_ok, Except.mapError_eq_ok] at hevent
    obtain ⟨supply, hsupply, sale, hsale, hevent⟩ := hevent
    refine ⟨sale, supply, hsale, hsupply, ?_⟩
    have hstored : t.book.sales[request.saleId]? = some sale := Except.okOr_eq_ok.mp hsale
    -- a line that takes the supply is raised; otherwise a line is added, without the options
    cases hline : sale.mergeable supply with
    | some line =>
      simp only [hline, Except.bind_eq_ok, Except.mapError_eq_ok] at hevent
      obtain ⟨raised, hraised, hevent⟩ := hevent
      cases hevent
      have hrung := Sale.rungUp_lineQuantityChanged (book_reached ht _ _ hstored).linesDistinct
        hline (Quantity.checkedAdd_eq_ok.mp hraised) (applyCommand_eq_ok hstored h)
      simp [hrung]
    | none =>
      rw [hline] at hevent
      cases hevent
      rw [Sale.rungUp_lineAdded_iff hline (applyCommand_eq_ok hstored h)]
      simp [eq_comm]

/-- A latte, with an extra shot to choose. -/
def latte : CatalogueEvent :=
  .productAdded 12
    { name := "Latte", sku := none, barcodes := [], price := ⟨I64.lit 32000, .bdt⟩,
      unit := .piece, taxClass := .standard ⟨I32.lit 1500⟩, category := none, station := none,
      optionGroups := [⟨200, "Extras", 0, 3, [⟨4, "Extra shot", ⟨I64.lit 5000, .bdt⟩⟩]⟩] }
    (instant 0) 7

/-- A till that knows the latte, with a sale open. -/
def cafe : Terminal :=
  till3.performAll plainDigests
    [(true, instant 0, .recordCatalogue latte 101), (true, instant 1, .record openSale 100)]

theorem cafe_reachable : Transition.Reachable Fresh (step plainDigests) cafe :=
  performAll_run _ (.init ⟨_, rfl⟩)

/-- One latte with the options chosen. -/
def oneLatte (chosenOptions : List Uuid) : AddLine :=
  { saleId := 20, productId := 12, name := "Latte", unitPriceMinor := I64.lit 32000,
    quantityMilli := I64.lit 1000, taxBasisPoints := I32.lit 1500, taxTreatment := "standard",
    chosenOptions }

def served (chosenOptions : List Uuid) : Terminal × Except CommandError Sale :=
  cafe.addLine plainDigests true (instant 2) (oneLatte chosenOptions) 40 102

theorem served_eq_ok {chosenOptions : List Uuid} (h : (served chosenOptions).2.isOkay) :
    ∃ sale', served chosenOptions = ((served chosenOptions).1, .ok sale') := by
  obtain ⟨sale', hsale'⟩ := Except.isOkay_iff.mp h
  exact ⟨sale', Prod.ext rfl hsale'⟩

theorem addLine_rungUp_iff_plainLatte :
    ∃ sale', served [] = ((served []).1, .ok sale') ∧
      ∃ sale supply, cafe.sale 20 = .ok sale ∧ cafe.askedSupply (oneLatte []) = .ok supply ∧
        (sale.RungUp sale' supply ⟨I64.lit 1000⟩ ↔
          supply.modifiers = [] ∨ (sale.mergeable supply).isSome) := by
  obtain ⟨sale', h⟩ := @served_eq_ok [] (by decide)
  exact ⟨sale', h, addLine_rungUp_iff cafe_reachable h⟩

/-- What is asked for with an extra shot. -/
def latteWithShot : Supply :=
  { productId := 12, unitPrice := ⟨I64.lit 32000, .bdt⟩, taxClass := .standard ⟨I32.lit 1500⟩,
    modifiers := [⟨4, "Extra shot", ⟨I64.lit 5000, .bdt⟩⟩] }

/-- A latte with an extra shot is charged and made without it: the till resolves the option, the
    line it records does not carry it. -/
theorem addLine_drops_options :
    cafe.askedSupply (oneLatte [4]) = .ok latteWithShot ∧
      ∃ sale sale', cafe.sale 20 = .ok sale ∧ served [4] = ((served [4]).1, .ok sale') ∧
        sale'.lines.map (·.modifiers) = [[]] ∧
        sale'.gross.toOption = some ⟨I64.lit 32000, .bdt⟩ ∧
        ¬ sale.RungUp sale' latteWithShot ⟨I64.lit 1000⟩ := by
  obtain ⟨sale', h⟩ := @served_eq_ok [4] (by decide)
  obtain ⟨sale, hsale⟩ := Except.isOkay_iff.mp (show (cafe.sale 20).isOkay by decide)
  -- the event that is built has no modifiers
  have hevent : cafe.addLineEvent (oneLatte [4]) 40 =
      .ok (.lineAdded 20 40 12 "Latte" ⟨I64.lit 32000, .bdt⟩ ⟨I64.lit 1000⟩
        (.standard ⟨I32.lit 1500⟩) []) := by rfl
  have hnone : (cafe.sale 20).toOption.map (·.mergeable latteWithShot) = some none := by decide
  have hbill : (served [4]).2.toOption.map (fun sale' =>
      (sale'.lines.map (·.modifiers), sale'.gross.toOption)) =
        some ([[]], some ⟨I64.lit 32000, .bdt⟩) := by decide
  have hbilled := (Prod.ext_iff.mp h).2
  rw [hsale] at hnone
  rw [hbilled] at hbill
  obtain ⟨hmodifiers, hgross⟩ := Prod.mk.inj (Option.some.inj hbill)
  refine ⟨by rfl, sale, sale', hsale, h, hmodifiers, hgross, ?_⟩
  unfold served addLine at h
  rw [hevent] at h
  have hstored : cafe.book.sales[(20 : Uuid)]? = some sale := Except.okOr_eq_ok.mp hsale
  have happlied := applyCommand_eq_ok hstored h
  have hiff := @Sale.rungUp_lineAdded_iff _ _ latteWithShot _ _ _ _ _ (Option.some.inj hnone)
    happlied
  rw [hiff]
  decide

end Terminal

end Sahl
