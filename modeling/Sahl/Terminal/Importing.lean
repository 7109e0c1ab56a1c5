import Mathlib.Tactic
import Mathlib.Data.Prod.Lex
import Mathlib.Data.String.Basic
import Sahl.Core.Import
import Sahl.Terminal.Attended
import Sahl.Terminal.Commands
import Sahl.Terminal.FailedCalls

/-! # Writing an import into the catalogue

    A file is read as a whole before anything is written, and a file with a problem writes
    nothing. The rows are then recorded one by one, each against the catalogue the rows before it
    left; where one of them is refused, the rows before it stay. -/

namespace Sahl

/-! ## Section 1: The commands -/

/-- The order of a grid: by name, then by id. -/
def Product.gridKey (product : Product) : String ×ₗ Uuid := toLex (product.name, product.id)

/-- Everything on the sell screen, by name. -/
def Catalogue.sellable (catalogue : Catalogue) : List Product :=
  (catalogue.products.values.filter (·.active)).insertionSort fun a b => a.gridKey ≤ b.gridKey

/-- The rate of a file without a VAT column: the first one on the sell screen. -/
def Catalogue.defaultRate (catalogue : Catalogue) : I32 :=
  (catalogue.sellable.findSome? fun product =>
    match product.taxClass with
    | .standard rate => some rate.basisPoints
    | _ => none).getD (I32.lit 1500)

/-- A row as the screen sees it. -/
structure ImportRowView where
  name : String
  sku : Option String
  barcodes : List String
  priceMinor : I64
  unit : String
  taxTreatment : String
  taxBasisPoints : I32
  category : Option String

def ImportRowView.of (row : ImportedProduct) : ImportRowView :=
  let (taxTreatment, taxBasisPoints) : String × I32 := match row.taxClass with
    | .standard rate => ("standard", rate.basisPoints)
    | .zeroRated => ("zero_rated", I32.lit 0)
    | .exempt => ("exempt", I32.lit 0)
  { name := row.name, sku := row.sku, barcodes := row.barcodes, priceMinor := row.price.minor,
    unit := row.unit.label, taxTreatment, taxBasisPoints, category := row.category }

/-- What an import answers when it writes nothing, or stops writing. -/
inductive ImportFailure where
  | authority (error : AuthorityError)
  | command (error : CommandError)
  | badFile (error : ImportError)
  /-- So many rows still need fixing. -/
  | notClean (problems : Nat)
  | badUnit (unit : String)
  deriving DecidableEq

structure ImportPreview where
  products : List ImportRowView
  problems : List ImportProblem

/-- What a pasted file holds, in the currency of the till. -/
def Terminal.readImport (t : Terminal) (text : String) (tabSeparated : Bool) :
    Except ImportFailure (Currency × Import) := do
  let currency ← t.currency.mapError (ImportFailure.command ∘ CommandError.terminal)
  let contents ← (fromDelimited text (if tabSeparated then '\t' else ',') currency
    t.catalogue.defaultRate).mapError ImportFailure.badFile
  .ok (currency, contents)

/-- Read a pasted file without writing anything. -/
def Terminal.previewImport (t : Terminal) (text : String) (tabSeparated : Bool) :
    Except ImportFailure ImportPreview := do
  let (_, contents) ← t.readImport text tabSeparated
  .ok ⟨contents.products.map .of, contents.problems⟩

/-- The details a previewed row is written with. -/
def ImportRowView.details (currency : Currency) (row : ImportRowView) :
    Except ImportFailure ProductDetails := do
  let unit ← (MeasureUnit.fromLabel row.unit).mapError fun _ => ImportFailure.badUnit row.unit
  let taxClass ← (taxClass row.taxTreatment row.taxBasisPoints).mapError ImportFailure.command
  .ok { name := row.name, sku := row.sku, barcodes := row.barcodes,
        price := ⟨row.priceMinor, currency⟩, unit, taxClass, category := row.category,
        station := none, optionGroups := [] }

/-- What an import finds as it writes: the instant, new ids for each row, and whether the
    database takes the row. -/
structure ImportRun where
  now : Timestamp
  productId : Nat → Uuid
  eventId : Nat → Uuid
  writable : Nat → Bool

section Commit

variable (digests : Digests) (run : ImportRun) (addedBy : Uuid)

/-- The event of a row. -/
def ImportRun.event (details : ProductDetails) (written : Nat) : CatalogueEvent :=
  .productAdded (run.productId written) details run.now addedBy

/-- Write rows one by one, so many being written already. -/
def Terminal.writeRows (currency : Currency) :
    List ImportRowView → Nat → Terminal → Terminal × Except ImportFailure Nat
  | [], written, t => (t, .ok written)
  | row :: rest, written, t =>
    match row.details currency with
    | .error error => (t, .error error)
    | .ok details =>
      match t.recordCatalogue digests (run.writable written) run.now
          (run.event addedBy details written) (run.eventId written) with
      | (t, .error error) => (t, .error (.command (.terminal error)))
      | (t, .ok _) => t.writeRows currency rest (written + 1)

end Commit

/-- Write a previewed import into the catalogue. -/
def AttendedTerminal.commitImport (digests : Digests) (verify : PinVerify) (run : ImportRun)
    (t : AttendedTerminal) (text : String) (tabSeparated : Bool) (pin : String) :
    AttendedTerminal × Except ImportFailure Nat :=
  let prepared : Except ImportFailure (Uuid × ImportPreview × Currency) := do
    let addedBy ← (t.desk.approve verify .editCatalogue pin).mapError ImportFailure.authority
    let preview ← t.previewImport text tabSeparated
    if preview.problems.isEmpty then
      let currency ← t.currency.mapError (ImportFailure.command ∘ CommandError.terminal)
      .ok (addedBy, preview, currency)
    else .error (.notClean preview.problems.length)
  match prepared with
  | .error error => (t, .error error)
  | .ok (addedBy, preview, currency) =>
    let (terminal, answer) :=
      t.toTerminal.writeRows digests run addedBy currency preview.products 0
    ({ t with toTerminal := terminal }, answer)

/-! ## Section 2: One row -/

/-- The details a parsed row is written with. -/
def ImportedProduct.details (currency : Currency) (row : ImportedProduct) : ProductDetails :=
  { name := row.name, sku := row.sku, barcodes := row.barcodes,
    price := ⟨row.price.minor, currency⟩, unit := row.unit, taxClass := row.taxClass,
    category := row.category, station := none, optionGroups := [] }

/-- The screen's view of a row loses nothing of it. -/
theorem ImportRowView.details_of (currency : Currency) (row : ImportedProduct) :
    (ImportRowView.of row).details currency = .ok (row.details currency) := by
  unfold ImportRowView.of ImportRowView.details
  cases htax : row.taxClass with
  | standard rate =>
    simp only [MeasureUnit.fromLabel_label, Except.mapError, taxClass]
    simp [ImportedProduct.details, htax, bind, Except.bind]
  | zeroRated =>
    simp only [MeasureUnit.fromLabel_label, Except.mapError, taxClass]
    simp [ImportedProduct.details, htax, bind, Except.bind]
  | exempt =>
    simp only [MeasureUnit.fromLabel_label, Except.mapError, taxClass]
    simp [ImportedProduct.details, htax, bind, Except.bind]

theorem ImportedProduct.Named.plain {row : ImportedProduct} (h : row.Named) (currency : Currency) :
    Catalogue.Plain (row.details currency) := ⟨h.name, h.barcodes, rfl⟩

namespace Terminal

variable {digests : Digests} {writable : Bool} {now : Timestamp} {t : Terminal}
  {event : CatalogueEvent} {eventId : Uuid}

theorem prepare_catalogue (digests : Digests) (now : Timestamp) (t : Terminal)
    (event : CatalogueEvent) (eventId : Uuid) {p : Prepared} :
    t.prepare digests now (.recordCatalogue event eventId) = .ok p ↔
      ∃ catalogue, t.catalogue.apply event = .ok catalogue ∧
        p = ⟨[(eventId, .catalogue event)],
          { t with toProjections := { t.toProjections with catalogue } }⟩ := by
  simp only [prepare, prepareOne, Projections.apply, Except.bind_eq_ok, Except.mapError_eq_ok]
  constructor
  · intro h
    obtain ⟨candidate, ⟨catalogue, hcatalogue, hcandidate⟩, h⟩ := h
    cases hcandidate
    cases h
    exact ⟨catalogue, hcatalogue, rfl⟩
  · intro h
    obtain ⟨catalogue, hcatalogue, rfl⟩ := h
    exact ⟨_, ⟨catalogue, hcatalogue, rfl⟩, rfl⟩

/-- A catalogue event that is stored is the last of the log, and its effect is in the
    catalogue. -/
structure Catalogued (digests : Digests) (t t' : Terminal) (event : CatalogueEvent)
    (eventId : Uuid) : Prop where
  started : t.chain.tip = t.store.tip
  catalogue : t.catalogue.apply event = .ok t'.catalogue
  stored : ∃ e : EventEnvelope Payload, t'.store.events = t.store.events ++ [e] ∧
    e.eventId = eventId ∧ e.read = some (.catalogue event)
  room : t'.store.tip.deviceSeq = t.store.tip.deviceSeq + 1 ∧ t'.store.tip.deviceSeq < 2 ^ 63
  inv : Terminal.Inv digests t'
  inStep : t'.chain.tip = t'.store.tip

/-- What a catalogue event leaves: it is stored, or neither the log nor the catalogue moved. -/
theorem recordCatalogue_cases (hinv : Inv digests t) (writable : Bool) (now : Timestamp)
    (event : CatalogueEvent) (eventId : Uuid) :
    (∃ es, (t.recordCatalogue digests writable now event eventId).2 = .ok es ∧ writable = true ∧
      Catalogued digests t (t.recordCatalogue digests writable now event eventId).1 event eventId) ∨
    (∃ error, (t.recordCatalogue digests writable now event eventId).2 = .error error ∧
      (t.recordCatalogue digests writable now event eventId).1.store = t.store ∧
      (t.recordCatalogue digests writable now event eventId).1.catalogue = t.catalogue) := by
  have hperform : t.recordCatalogue digests writable now event eventId =
      t.commit digests writable now
        (t.prepare digests now (.recordCatalogue event eventId)) := rfl
  rw [hperform]
  rcases commit_cases digests writable now t
      (t.prepare digests now (.recordCatalogue event eventId)) with
    ⟨error, -, hcommit⟩ | ⟨p, chain, error, -, -, hcommit⟩ |
    ⟨p, chain, es, store, hprepare, hwritable, hseal, hstore, hcommit⟩
  · rw [hcommit]
    exact .inr ⟨error, rfl, rfl, rfl⟩
  · rw [hcommit]
    exact .inr ⟨error, rfl, rfl, rfl⟩
  · -- stored: one event was sealed, and the tip of the store is its number
    refine .inl ⟨es, by rw [hcommit], hwritable, ?_⟩
    obtain ⟨catalogue, hcatalogue, rfl⟩ := (prepare_catalogue digests now t event eventId).mp hprepare
    obtain ⟨-, hchain, htip, hcarries⟩ := sealAll_eq_ok hseal
    obtain ⟨hstart, hends, hinv'⟩ := inv_stored hinv (prepare_adopts hprepare) hseal hstore
    obtain ⟨e, hcarriesOne, rfl⟩ : ∃ e, Carries now (eventId, .catalogue event) e ∧ es = [e] := by
      cases hcarries with
      | cons hone hrest =>
        cases hrest
        exact ⟨_, hone, rfl⟩
    obtain ⟨mid, happend, -⟩ := foldlM_cons_eq_ok.mp hstore
    have hfits := (EventStore.append_eq_ok happend).2.1
    have hseq : store.tip.deviceSeq = e.deviceSeq := by
      rw [← hends, htip]
      rfl
    rw [hcommit]
    refine ⟨hstart, hcatalogue, ⟨e, EventStore.appendAll_events hstore, hcarriesOne.eventId,
      hcarriesOne.read⟩, ⟨?_, ?_⟩, hinv', hends⟩
    · show store.tip.deviceSeq = _
      rw [hseq, hchain.1.seq, hstart]
    · show store.tip.deviceSeq < _
      rw [hseq]
      exact hfits

/-- An event the catalogue takes is stored where the database takes the write, the id is new
    and the numbers have not run out. -/
theorem recordCatalogue_isOkay (hinv : Inv digests t) (htip : t.chain.tip = t.store.tip)
    (hseals : ∀ input, (digests.event input).isOkay) (happly : (t.catalogue.apply event).isOkay)
    (hroom : t.store.tip.deviceSeq + 1 < 2 ^ 63)
    (hid : ∀ a ∈ t.store.events, a.eventId ≠ eventId) :
    (t.recordCatalogue digests true now event eventId).2.isOkay := by
  obtain ⟨catalogue, hcatalogue⟩ := Except.isOkay_iff.mp happly
  have hprepare := (prepare_catalogue digests now t event eventId).mpr ⟨catalogue, hcatalogue, rfl⟩
  have hseq : nextSeq t.chain.tip.deviceSeq = some (t.chain.tip.deviceSeq + 1) := by
    rw [nextSeq_eq_some, htip]
    exact ⟨rfl, by omega⟩
  have hdevice : (header t.identity eventId now).deviceId = t.chain.deviceId :=
    hinv.chainDevice.symm
  obtain ⟨hash, hhash⟩ := Except.isOkay_iff.mp (hseals ⟨eventId, t.identity.tenantId,
    t.identity.outletId, t.identity.deviceId, t.chain.tip.deviceSeq + 1, now,
    (DomainEvent.catalogue event).payload.kind, .known (.catalogue event), t.chain.tip.hash⟩)
  have happend := append_of_digest hdevice hseq
    (show (DomainEvent.catalogue event).payload.toValue = .ok (.known (.catalogue event)) from rfl)
    hhash
  -- what is prepared is one event, which seals, fits and is new
  have hstorable : Storable digests true now t (.recordCatalogue event eventId) := by
    intro p hp
    rw [hprepare] at hp
    cases hp
    refine ⟨rfl, ?_, List.nodup_singleton _, ?_, hroom⟩
    · simp only [sealAll, happend]
      exact ⟨_, _, rfl⟩
    · intro a ha hmem
      exact hid a ha (List.mem_singleton.mp hmem)
  rcases storable_cases hinv htip hstorable with hnothing | ⟨p, chain, es, store, -, -, -, hperform⟩
  · obtain ⟨error, herror⟩ := hnothing _ hprepare _ rfl
    rw [happend] at herror
    cases herror
  · have hdone : t.recordCatalogue digests true now event eventId =
        ({ p.adopted with store, chain }, .ok es) := hperform
    rw [hdone]
    rfl

end Terminal

/-! ## Section 3: Row after row -/

/-- The ids of so many rows are new to the till, and no two rows share one. -/
structure ImportRun.Fresh (run : ImportRun) (t : Terminal) (count : Nat) : Prop where
  productIds : Set.InjOn run.productId (Set.Iio count)
  eventIds : Set.InjOn run.eventId (Set.Iio count)
  products : ∀ n < count, t.catalogue.New (run.productId n)
  events : ∀ n < count, ∀ e ∈ t.store.events, e.eventId ≠ run.eventId n

/-- The till takes a row where the rows before it are in: the database takes the write, the log
    has room, the price is not negative, and neither the shop nor an earlier row carries one of
    its barcodes. -/
structure RowTaken (run : ImportRun) (t : Terminal) (earlier : List ImportedProduct)
    (row : ImportedProduct) : Prop where
  writable : run.writable earlier.length = true
  inStep : t.chain.tip = t.store.tip
  room : t.store.tip.deviceSeq + earlier.length + 1 < 2 ^ 63
  price : 0 ≤ row.price.minor.val
  notSold : ∀ barcode ∈ row.barcodes, ¬ t.catalogue.Holds barcode
  notListed : ∀ barcode ∈ row.barcodes, ∀ other ∈ earlier, barcode ∉ other.barcodes

/-- Every row of a file is taken, in its place. -/
def RowsTaken (run : ImportRun) (t : Terminal) (rows : List ImportedProduct) : Prop :=
  ∀ earlier row later, rows = earlier ++ row :: later → RowTaken run t earlier row

section Rows

variable (digests : Digests) (run : ImportRun) (addedBy : Uuid) (currency : Currency)

/-- The events of a file's rows. -/
def ImportRun.additions (rows : List ImportedProduct) : List CatalogueEvent :=
  rows.zipIdx.map fun row => run.event addedBy (row.1.details currency) row.2

/-- The log and the catalogue have gained one added product for each row, and nothing else. -/
structure Gained (t t' : Terminal) (rows : List ImportedProduct) : Prop where
  events : ∃ es : List (EventEnvelope Payload), t'.store.events = t.store.events ++ es ∧
    es.map EventEnvelope.read = (run.additions addedBy currency rows).map (some ∘ .catalogue)
  catalogue : (run.additions addedBy currency rows).foldlM Catalogue.apply t.catalogue =
    .ok t'.catalogue

/-- Where an import stands after some of its rows. -/
structure Written (t : Terminal) (count : Nat) (rows : List ImportedProduct) (t' : Terminal) :
    Prop where
  inv : Terminal.Inv digests t'
  inStep : t'.chain.tip = t'.store.tip ↔ t.chain.tip = t.store.tip
  seq : t'.store.tip.deviceSeq = t.store.tip.deviceSeq + rows.length
  gained : Gained run addedBy currency t t' rows
  holds : ∀ barcode, t'.catalogue.Holds barcode ↔
    t.catalogue.Holds barcode ∨ ∃ row ∈ rows, barcode ∈ row.barcodes
  products : ∀ n, rows.length ≤ n → n < count → t'.catalogue.New (run.productId n)
  events : ∀ n, rows.length ≤ n → n < count → ∀ e ∈ t'.store.events, e.eventId ≠ run.eventId n

variable {digests run addedBy currency} {t t' : Terminal} {count : Nat}
  {rows : List ImportedProduct} {row : ImportedProduct}

/-- Rows that are gained are so many events more in the log. -/
theorem Gained.length_eq (h : Gained run addedBy currency t t' rows) :
    t'.store.events.length = t.store.events.length + rows.length := by
  obtain ⟨es, hes, hreads⟩ := h.events
  have hlength := congrArg List.length hreads
  rw [List.length_map, List.length_map, ImportRun.additions, List.length_map,
    List.length_zipIdx] at hlength
  rw [hes, List.length_append, hlength]

theorem rowsTaken_nil : RowsTaken run t [] := by
  intro earlier row later h
  simp at h

theorem rowsTaken_concat :
    RowsTaken run t (rows ++ [row]) ↔ RowsTaken run t rows ∧ RowTaken run t rows row :=
  forall_split_concat

theorem written_nil (hinv : Terminal.Inv digests t) (hfresh : run.Fresh t count) :
    Written digests run addedBy currency t count [] t where
  inv := hinv
  inStep := Iff.rfl
  seq := rfl
  gained := ⟨⟨[], (List.append_nil _).symm, rfl⟩, rfl⟩
  holds := by simp
  products := fun n _ => hfresh.products n
  events := fun n _ => hfresh.events n

theorem additions_concat : run.additions addedBy currency (rows ++ [row]) =
    run.additions addedBy currency rows ++
      [run.event addedBy (row.details currency) rows.length] := by
  simp [ImportRun.additions, List.zipIdx_append]

/-- One more row. -/
theorem Written.next {event : CatalogueEvent}
    (hw : Written digests run addedBy currency t count rows t') (hfresh : run.Fresh t count)
    (hmore : rows.length < count) (hnamed : row.Named) {t'' : Terminal}
    (hevent : event = run.event addedBy (row.details currency) rows.length)
    (h : Terminal.Catalogued digests t' t'' event (run.eventId rows.length)) :
    Written digests run addedBy currency t count (rows ++ [row]) t'' := by
  subst hevent
  obtain ⟨hheld, hnew⟩ := Catalogue.productAdded_leaves (hw.products _ le_rfl hmore)
    (hnamed.plain currency) h.catalogue
  obtain ⟨e, hstored, hid, hread⟩ := h.stored
  obtain ⟨es, hes, hreads⟩ := hw.gained.events
  have hlength : (rows ++ [row]).length = rows.length + 1 := by simp
  refine ⟨h.inv, ?_, ?_, ⟨⟨es ++ [e], ?_, ?_⟩, ?_⟩, ?_, ?_, ?_⟩
  · exact ⟨fun _ => hw.inStep.mp h.started, fun _ => h.inStep⟩
  · rw [h.room.1, hw.seq, hlength]
    omega
  · rw [hstored, hes, List.append_assoc]
  · rw [additions_concat, List.map_append, List.map_append, hreads]
    simp [hread]
  · rw [additions_concat]
    exact foldlM_append_eq_ok.mpr
      ⟨t'.catalogue, hw.gained.catalogue, foldlM_cons_eq_ok.mpr ⟨_, h.catalogue, rfl⟩⟩
  · intro barcode
    have hrow : barcode ∈ (row.details currency).barcodes ↔ barcode ∈ row.barcodes := Iff.rfl
    rw [hheld, hw.holds, hrow]
    simp only [List.mem_append, List.mem_singleton, or_and_right, exists_or, exists_eq_left,
      or_assoc]
  · intro n hn hcount
    rw [hlength] at hn
    -- the ids of later rows are not the one just taken
    refine hnew _ ?_ (hw.products n (by omega) hcount)
    intro hsame
    have := hfresh.productIds hcount hmore hsame
    omega
  · intro n hn hcount a ha
    rw [hlength] at hn
    rw [hstored, List.mem_append, List.mem_singleton] at ha
    rcases ha with ha | rfl
    · exact hw.events n (by omega) hcount a ha
    · rw [hid]
      intro hsame
      have := hfresh.eventIds hmore hcount hsame
      omega

/-- Whether the till takes a row is whether the catalogue, the log and the database do. -/
theorem Written.rowTaken_iff (hw : Written digests run addedBy currency t count rows t')
    (hmore : rows.length < count) (hnamed : row.Named) :
    RowTaken run t rows row ↔ run.writable rows.length = true ∧ t'.chain.tip = t'.store.tip ∧
      t'.store.tip.deviceSeq + 1 < 2 ^ 63 ∧
      (t'.catalogue.apply (run.event addedBy (row.details currency) rows.length)).isOkay := by
  rw [hw.inStep, hw.seq, ImportRun.event,
    Catalogue.productAdded_isOkay (hw.products _ le_rfl hmore) (hnamed.plain currency)]
  have hprice : (row.details currency).price.isNegative = false ↔ 0 ≤ row.price.minor.val := by
    show decide (row.price.minor.val < 0) = false ↔ _
    rw [decide_eq_false_iff_not, not_lt]
  have hbarcodes : (∀ barcode ∈ (row.details currency).barcodes, ¬ t'.catalogue.Holds barcode) ↔
      (∀ barcode ∈ row.barcodes, ¬ t.catalogue.Holds barcode) ∧
        ∀ barcode ∈ row.barcodes, ∀ other ∈ rows, barcode ∉ other.barcodes := by
    rw [← forall₂_and]
    refine forall₂_congr fun barcode _ => ?_
    rw [hw.holds, not_or]
    simp only [not_exists, not_and]
  rw [Catalogue.Addable, hprice, hbarcodes]
  constructor
  · intro h
    exact ⟨h.writable, h.inStep, h.room, h.price, h.notSold, h.notListed⟩
  · intro h
    obtain ⟨hwritable, hstep, hroom, hprice, hsold, hlisted⟩ := h
    exact ⟨hwritable, hstep, hroom, hprice, hsold, hlisted⟩

/-- Recording a row writes it where it is taken, and adds nothing where it is not. -/
theorem Written.record (hw : Written digests run addedBy currency t count rows t')
    (hseals : ∀ input, (digests.event input).isOkay) (hfresh : run.Fresh t count)
    (hmore : rows.length < count) (hnamed : row.Named)
    {result : Terminal × Except TerminalError (List (EventEnvelope Payload))}
    (hresult : t'.recordCatalogue digests (run.writable rows.length) run.now
      (run.event addedBy (row.details currency) rows.length) (run.eventId rows.length) = result) :
    (∃ es, result.2 = .ok es ∧ RowTaken run t rows row ∧
      Written digests run addedBy currency t count (rows ++ [row]) result.1) ∨
    ∃ error, result.2 = .error error ∧ ¬ RowTaken run t rows row ∧
      Gained run addedBy currency t result.1 rows := by
  subst hresult
  rcases Terminal.recordCatalogue_cases hw.inv (run.writable rows.length) run.now
      (run.event addedBy (row.details currency) rows.length) (run.eventId rows.length) with
    ⟨es, hok, hwritable, hstored⟩ | ⟨error, herror, hstore, hcatalogue⟩
  · refine .inl ⟨es, hok, (hw.rowTaken_iff hmore hnamed).mpr ?_, hw.next hfresh hmore hnamed rfl hstored⟩
    have hroom := hstored.room.2
    rw [hstored.room.1] at hroom
    exact ⟨hwritable, hstored.started, hroom, Except.isOkay_iff.mpr ⟨_, hstored.catalogue⟩⟩
  · refine .inr ⟨error, herror, ?_, ⟨hstore ▸ hw.gained.events, hcatalogue ▸ hw.gained.catalogue⟩⟩
    -- a row that is taken would have been stored
    intro htaken
    obtain ⟨hwritable, hstep, hroom, happly⟩ := (hw.rowTaken_iff hmore hnamed).mp htaken
    have hid := hw.events rows.length le_rfl hmore
    have hok := @Terminal.recordCatalogue_isOkay _ run.now _ _ _ hw.inv hstep hseals happly hroom hid
    rw [hwritable] at herror
    rw [herror] at hok
    cases hok

/-- Writing stops at the first row that is not taken, with the rows before it in. -/
theorem writeRows_stops (hseals : ∀ input, (digests.event input).isOkay)
    (hfresh : run.Fresh t count) {rest : List ImportedProduct}
    (hcount : rows.length + rest.length = count) (hnamed : ∀ row ∈ rest, row.Named)
    (hw : Written digests run addedBy currency t count rows t') (htaken : RowsTaken run t rows) :
    ∃ t'' taken later, rest = taken ++ later ∧ RowsTaken run t (rows ++ taken) ∧
      Gained run addedBy currency t t'' (rows ++ taken) ∧
      ((later = [] ∧ t'.writeRows digests run addedBy currency (rest.map .of) rows.length =
          (t'', .ok (rows ++ taken).length)) ∨
        ∃ row error, later.head? = some row ∧ ¬ RowTaken run t (rows ++ taken) row ∧
          t'.writeRows digests run addedBy currency (rest.map .of) rows.length =
            (t'', .error error)) := by
  induction rest generalizing rows t' with
  | nil =>
    refine ⟨t', [], [], rfl, ?_⟩
    rw [List.append_nil]
    exact ⟨htaken, hw.gained, .inl ⟨rfl, rfl⟩⟩
  | cons row rest ih =>
    have hrow := hnamed row List.mem_cons_self
    rw [List.length_cons] at hcount
    simp only [List.map_cons, Terminal.writeRows, ImportRowView.details_of]
    generalize hresult : t'.recordCatalogue digests (run.writable rows.length) run.now
      (run.event addedBy (row.details currency) rows.length) (run.eventId rows.length) = result
    obtain ⟨next, answer⟩ := result
    -- the next row is taken and the induction goes on, or it is refused and writing ends here
    rcases hw.record hseals hfresh (by omega) hrow hresult with
      ⟨es, hok, hin, hnext⟩ | ⟨error, herror, hout, hgained⟩
    · obtain ⟨t'', taken, later, rfl, hends⟩ :=
        ih (by simp; omega) (fun other h => hnamed other (List.mem_cons_of_mem _ h)) hnext
          (rowsTaken_concat.mpr ⟨htaken, hin⟩)
      refine ⟨t'', row :: taken, later, rfl, ?_⟩
      cases hok
      rw [List.append_assoc, List.length_append] at hends
      exact hends
    · refine ⟨next, [], row :: rest, rfl, ?_⟩
      cases herror
      rw [List.append_nil]
      exact ⟨htaken, hgained, .inr ⟨row, _, rfl, hout, rfl⟩⟩

end Rows

/-! ## Section 4: All or nothing -/

namespace AttendedTerminal

section Import

variable (digests : Digests) (verify : PinVerify) (run : ImportRun) (t : AttendedTerminal)
  (text : String) (tabSeparated : Bool) (pin : String)

/-- The file reads as these rows, without a problem, for a person who may write them. -/
structure Cleared (addedBy : Uuid) (currency : Currency) (rows : List ImportedProduct) :
    Prop where
  approved : t.desk.approve verify .editCatalogue pin = .ok addedBy
  clean : t.readImport text tabSeparated = .ok (currency, ⟨rows, []⟩)

/-- An import answers with the number of data rows in the file and has added a product for each
    of them, or it fails and has added nothing. -/
structure AllOrNothing : Prop where
  all : ∀ t' count, t.commitImport digests verify run text tabSeparated pin = (t', .ok count) →
    count = (dataRows text).length ∧ ∃ addedBy currency rows,
      Cleared verify t text tabSeparated pin addedBy currency rows ∧
        rows.length = (dataRows text).length ∧
        Gained run addedBy currency t.toTerminal t'.toTerminal rows
  nothing : ∀ t' error,
    t.commitImport digests verify run text tabSeparated pin = (t', .error error) →
      t'.catalogue = t.catalogue ∧ t'.store.events = t.store.events

variable {digests verify run t text tabSeparated pin}

theorem previewImport_eq : t.previewImport text tabSeparated =
    (t.readImport text tabSeparated).map fun contents =>
      ⟨contents.2.products.map .of, contents.2.problems⟩ := by
  cases h : t.readImport text tabSeparated <;> simp [Terminal.previewImport, h, Except.map] <;> rfl

theorem readImport_currency {contents : Currency × Import}
    (h : t.readImport text tabSeparated = .ok contents) :
    t.currency = .ok contents.1 ∧
      fromDelimited text (if tabSeparated then '\t' else ',') contents.1 t.catalogue.defaultRate =
        .ok contents.2 := by
  simp only [Terminal.readImport, Except.bind_eq_ok, Except.mapError_eq_ok] at h
  obtain ⟨currency, hcurrency, read, hread, h⟩ := h
  cases h
  exact ⟨hcurrency, hread⟩

/-- An import is refused before it writes, or writes the rows of a clean file. -/
theorem commitImport_cases :
    (∃ error, t.commitImport digests verify run text tabSeparated pin = (t, .error error) ∧
      ∀ addedBy currency rows, ¬ Cleared verify t text tabSeparated pin addedBy currency rows) ∨
    ∃ addedBy currency rows, Cleared verify t text tabSeparated pin addedBy currency rows ∧
      t.commitImport digests verify run text tabSeparated pin =
        ({ t with toTerminal :=
            (t.writeRows digests run addedBy currency (rows.map .of) 0).1 },
          (t.writeRows digests run addedBy currency (rows.map .of) 0).2) := by
  unfold commitImport
  rw [previewImport_eq]
  cases happroved : t.desk.approve verify .editCatalogue pin with
  | error error =>
    refine .inl ⟨.authority error, rfl, ?_⟩
    intro addedBy currency rows h
    cases happroved.symm.trans h.approved
  | ok addedBy =>
    cases hread : t.readImport text tabSeparated with
    | error error =>
      refine .inl ⟨error, rfl, ?_⟩
      intro addedBy currency rows h
      cases hread.symm.trans h.clean
    | ok contents =>
      obtain ⟨currency, rows, problems⟩ := contents
      have hcurrency := (readImport_currency hread).1
      cases problems with
      | cons problem problems =>
        refine .inl ⟨.notClean (problems.length + 1), rfl, ?_⟩
        intro addedBy currency rows h
        cases hread.symm.trans h.clean
      | nil =>
        refine .inr ⟨addedBy, currency, rows, ⟨happroved, hread⟩, ?_⟩
        simp only [Except.mapError, Except.map, bind, Except.bind, hcurrency, List.isEmpty_nil,
          if_true]

/-- An import that is refused before it writes is nothing. -/
theorem allOrNothing_of_refused {error : ImportFailure}
    (h : t.commitImport digests verify run text tabSeparated pin = (t, .error error)) :
    AllOrNothing digests verify run t text tabSeparated pin := by
  constructor
  · intro t' count hok
    cases h.symm.trans hok
  · intro t' error hfails
    cases h.symm.trans hfails
    exact ⟨rfl, rfl⟩

/-- One file is cleared as the same rows, whoever they are cleared for. -/
theorem Cleared.rows_eq {addedBy addedBy' : Uuid} {currency currency' : Currency}
    {rows rows' : List ImportedProduct}
    (h : Cleared verify t text tabSeparated pin addedBy currency rows)
    (h' : Cleared verify t text tabSeparated pin addedBy' currency' rows') : rows' = rows := by
  cases h'.clean.symm.trans h.clean
  rfl

/-- **Imports**: on every till that runs reach, an import is all or nothing exactly where,
    whenever it is approved and the file reads without a problem, the till takes every row of the
    file or refuses the first. -/
theorem commitImport_allOrNothing_iff
    (hreach : Transition.Reachable Terminal.Fresh (Terminal.step digests) t.toTerminal)
    (hseals : ∀ input, (digests.event input).isOkay)
    (hfresh : run.Fresh t.toTerminal (dataRows text).length) :
    AllOrNothing digests verify run t text tabSeparated pin ↔
      ∀ addedBy currency rows, Cleared verify t text tabSeparated pin addedBy currency rows →
        (∀ row ∈ rows.head?, ¬ RowTaken run t.toTerminal [] row) ∨
          RowsTaken run t.toTerminal rows := by
  rcases @commitImport_cases digests verify run t text tabSeparated pin with
    ⟨error, hcommit, hnever⟩ | ⟨addedBy, currency, rows, hcleared, hcommit⟩
  · constructor
    · intro _ addedBy currency rows h
      exact absurd h (hnever addedBy currency rows)
    · intro _
      exact allOrNothing_of_refused hcommit
  obtain ⟨hrows, hnamed⟩ := fromDelimited_rows (readImport_currency hcleared.clean).2
  have hcount : rows.length = (dataRows text).length := hrows
  obtain ⟨t', taken, later, rfl, htaken, hgained, hends⟩ :=
    @writeRows_stops digests run addedBy currency t.toTerminal t.toTerminal _ [] hseals hfresh
      rows (by rw [List.length_nil, Nat.zero_add, hcount]) hnamed
      (written_nil (Terminal.inv_reachable hreach) hfresh) rowsTaken_nil
  simp only [List.nil_append, List.length_nil] at htaken hgained hends
  rcases hends with ⟨rfl, hwritten⟩ | ⟨row, error, hhead, hout, hwritten⟩
  · -- every row is taken
    rw [hwritten] at hcommit
    rw [List.append_nil] at hcleared hcount
    constructor
    · intro _ addedBy' currency' rows' h
      rw [hcleared.rows_eq h]
      exact .inr htaken
    · intro _
      constructor
      · intro t'' count hok
        cases hcommit.symm.trans hok
        exact ⟨hcount, addedBy, currency, taken, hcleared, hcount, hgained⟩
      · intro t'' error hfails
        cases hcommit.symm.trans hfails
  · -- a row is refused: nothing is written exactly where it is the first
    rw [hwritten] at hcommit
    obtain ⟨more, rfl⟩ := List.head?_eq_some_iff.mp hhead
    constructor
    · intro h addedBy' currency' rows' h'
      have hlength := hgained.length_eq
      rw [(h.nothing _ _ hcommit).2] at hlength
      have hnone : taken = [] := List.eq_nil_of_length_eq_zero (by omega)
      subst hnone
      rw [hcleared.rows_eq h']
      refine .inl ?_
      intro first hfirst
      cases hfirst
      exact hout
    · intro h
      have hnone : taken = [] := by
        rcases h addedBy currency _ hcleared with hfirst | hall
        · cases taken with
          | nil => rfl
          | cons first rest => exact absurd (htaken [] first rest rfl) (hfirst first rfl)
        · exact absurd (hall taken row more rfl) hout
      subst hnone
      obtain ⟨es, hes, hreads⟩ := hgained.events
      cases List.map_eq_nil_iff.mp hreads
      constructor
      · intro t'' count hok
        cases hcommit.symm.trans hok
      · intro t'' error' hfails
        cases hcommit.symm.trans hfails
        refine ⟨(Except.ok.inj hgained.catalogue).symm, ?_⟩
        rw [hes, List.append_nil]

theorem not_allOrNothing
    (hfails : (t.commitImport digests verify run text tabSeparated pin).2.isOkay = false)
    (hgrown : (t.commitImport digests verify run text tabSeparated pin).1.store.events.length ≠
      t.store.events.length) :
    ¬ AllOrNothing digests verify run t text tabSeparated pin := by
  intro h
  obtain ⟨error, herror⟩ : ∃ error,
      (t.commitImport digests verify run text tabSeparated pin).2 = .error error := by
    cases hanswer : (t.commitImport digests verify run text tabSeparated pin).2 with
    | error error => exact ⟨error, rfl⟩
    | ok count =>
      rw [hanswer] at hfails
      cases hfails
  exact hgrown (congrArg List.length (h.nothing _ error (Prod.ext rfl herror)).2)

end Import

/-! ### One barcode on two rows -/

open Terminal (plainDigests instant till3)

/-- A shop in Dhaka with a manager, before it sells anything. -/
def emptyShop : AttendedTerminal where
  toTerminal := till3.performAll plainDigests
    [(true, instant 1, .recordOutlet (.configured 2
        { name := "Shop", profile := .grocery, currency := .bdt, timezone := "Asia/Dhaka",
          regime := .none, taxRegistration := none, address := "Road 1", scale := none,
          approval := none } (instant 1) 7) 99),
     (true, instant 1, .recordStaff habibEnrolled 100)]
  session := .signedOut

theorem emptyShop_reachable :
    Transition.Reachable Terminal.Fresh (Terminal.step plainDigests) emptyShop.toTerminal :=
  Terminal.performAll_run _ (.init ⟨_, rfl⟩)

/-- An import at one instant whose ids count up, into a database that takes every row. -/
def plainImport : ImportRun where
  now := instant 2
  productId n := .fromU128 (1000 + n)
  eventId n := .fromU128 (2000 + n)
  writable _ := true

/-- Rice and soap under one barcode. -/
def riceAndSoap : String := "Name,Price,Barcode\nRice,46.00,890\nSoap,55,890\n"

theorem plainImport_fresh :
    plainImport.Fresh emptyShop.toTerminal (dataRows riceAndSoap).length where
  productIds := fun m hm n hn h => (by decide +kernel :
    ∀ m < (dataRows riceAndSoap).length, ∀ n < (dataRows riceAndSoap).length,
      plainImport.productId m = plainImport.productId n → m = n) m hm n hn h
  eventIds := fun m hm n hn h => (by decide +kernel :
    ∀ m < (dataRows riceAndSoap).length, ∀ n < (dataRows riceAndSoap).length,
      plainImport.eventId m = plainImport.eventId n → m = n) m hm n hn h
  products := by decide +kernel
  events := by decide +kernel

theorem commitImport_allOrNothing_iff_shop :
    AllOrNothing plainDigests plainVerify plainImport emptyShop riceAndSoap false "5294" ↔
      ∀ addedBy currency rows,
        Cleared plainVerify emptyShop riceAndSoap false "5294" addedBy currency rows →
          (∀ row ∈ rows.head?, ¬ RowTaken plainImport emptyShop.toTerminal [] row) ∨
            RowsTaken plainImport emptyShop.toTerminal rows :=
  commitImport_allOrNothing_iff emptyShop_reachable (fun _ => rfl) plainImport_fresh

/-- Both rows read without a problem. The second is refused, and the first stays. -/
theorem emptyShop_halfWritten :
    (emptyShop.commitImport plainDigests plainVerify plainImport riceAndSoap false
        "5294").2.isOkay = false ∧
      (emptyShop.commitImport plainDigests plainVerify plainImport riceAndSoap false
        "5294").1.store.events.length ≠ emptyShop.store.events.length := by
  decide +kernel

theorem commitImport_halfWritten :
    ¬ ∀ (digests : Digests) (verify : PinVerify) (run : ImportRun) (t : AttendedTerminal)
        (text : String) (tabSeparated : Bool) (pin : String),
      Transition.Reachable Terminal.Fresh (Terminal.step digests) t.toTerminal →
        run.Fresh t.toTerminal (dataRows text).length →
          AllOrNothing digests verify run t text tabSeparated pin :=
  fun h => not_allOrNothing emptyShop_halfWritten.1 emptyShop_halfWritten.2
    (h plainDigests plainVerify plainImport emptyShop riceAndSoap false "5294"
      emptyShop_reachable plainImport_fresh)

end AttendedTerminal

end Sahl
