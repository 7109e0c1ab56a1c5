import Mathlib.Tactic
import Sahl.Server.Push
import Sahl.Sync.PullCompleteness
import Sahl.Terminal.Booting

/-! # Whose price a till shows

    The policy takes the edit the server placed last; a load replays the edits in the order of the
    devices' clocks. A till therefore shows what the policy picks exactly where the details set
    last by the clocks are those of the edit the server placed last (`resolves_iff`): a device
    whose clock runs fast keeps its price against a later edit (`fastClock_wins`). -/

namespace Sahl

/-! ## Section 1: Edits -/

namespace EventEnvelope

/-- The details a stored event sets of one product. -/
def detailsOf (productId : Uuid) (e : EventEnvelope Payload) : Option ProductDetails :=
  e.catalogueEvent.bind (·.detailsOf productId)

/-- The product an event edits, and what to. -/
def productEdit (e : EventEnvelope Payload) : Option (Uuid × ProductDetails) :=
  match e.catalogueEvent with
  | some (.productUpdated productId details ..) => some (productId, details)
  | _ => none

theorem detailsOf_edit {e : EventEnvelope Payload} {productId : Uuid} {details : ProductDetails}
    (h : e.productEdit = some (productId, details)) : e.detailsOf productId = some details := by
  unfold productEdit at h
  unfold detailsOf
  split at h
  · rename_i hevent
    cases h
    rw [hevent]
    exact if_pos rfl
  · cases h

end EventEnvelope

/-- An edit, tagged with where the server placed it. -/
def EventRow.catalogueEdit (row : EventRow Payload) : Option (CatalogueEdit ProductDetails) :=
  row.event.productEdit.map fun (productId, details) =>
    { productId, serverSeq := row.serverSeq, deviceId := row.event.deviceId, value := details }

theorem EventRow.catalogueEdit_eq_some {row : EventRow Payload}
    {edit : CatalogueEdit ProductDetails} (h : row.catalogueEdit = some edit) :
    row.event.productEdit = some (edit.productId, edit.value) ∧
      row.serverSeq = edit.serverSeq := by
  obtain ⟨⟨productId, details⟩, hedit, hmade⟩ := Option.map_eq_some_iff.mp h
  cases hmade
  exact ⟨hedit, rfl⟩

namespace EventStore

/-- The store holds all of these edits, and no other. -/
structure HoldsEdits (store : EventStore Payload) (rows : List (EventRow Payload)) : Prop where
  all : ∀ row ∈ rows, row.event.productEdit.isSome → row.event ∈ store.events
  only : ∀ e ∈ store.events, e.productEdit.isSome → e ∈ rows.map (·.event)

/-- The edits are of products that exist, and a catalogue has nothing against them. -/
structure Acceptable (store : EventStore Payload) : Prop where
  agreeable : Agreeable (store.events.filterMap (·.catalogueEvent))
  existing : ∀ e ∈ store.events, ∀ edit ∈ e.productEdit,
    ((store.events.filterMap (·.catalogueEvent)).filter (·.adds edit.1)).length = 1

/-- The details of a product that were set last, by the clocks. -/
def LastSet (store : EventStore Payload) (productId : Uuid) (details : ProductDetails) : Prop :=
  ∃ e ∈ store.events, e.detailsOf productId = some details ∧
    ∀ e' ∈ store.events, (e'.detailsOf productId).isSome → replayKey e' ≤ replayKey e

end EventStore

namespace Terminal

/-- Every edited product is what the policy makes of the edits. -/
def Resolves (t : Terminal) (rows : List (EventRow Payload)) : Prop :=
  ∀ (productId : Uuid) edit,
    (latestPerProduct (rows.filterMap (·.catalogueEdit)))[productId]? = some edit →
      (t.catalogue.get productId).map (·.details) = some edit.value

/-! ## Section 2: The catalogue a till loads -/

theorem load_catalogue {digests : Digests} {store : EventStore Payload} {identity : DeviceIdentity}
    {t : Terminal} (h : load digests store identity = .ok t) :
    t.catalogue =
      (store.loadProjectionInput.filterMap (·.catalogueEvent)).foldl Catalogue.absorb .new := by
  simp only [load, Except.bind_eq_ok, Except.mapError_eq_ok] at h
  obtain ⟨_, -, loaded, hloaded, shift, -, h⟩ := h
  cases h
  exact Loading.foldlM_catalogue hloaded

/-- A loaded till has of a product that is added once what was set last, by the clocks. -/
theorem load_details {digests : Digests} {store : EventStore Payload} {identity : DeviceIdentity}
    {t : Terminal} (hacceptable : Agreeable (store.events.filterMap (·.catalogueEvent)))
    {productId : Uuid}
    (honce : ((store.events.filterMap (·.catalogueEvent)).filter (·.adds productId)).length = 1)
    (h : load digests store identity = .ok t) : (t.catalogue.get productId).map (·.details) =
      (store.loadProjectionInput.filterMap (·.detailsOf productId)).getLast? := by
  have hperm : (store.loadProjectionInput.filterMap (·.catalogueEvent)).Perm
      (store.events.filterMap (·.catalogueEvent)) :=
    (List.perm_insertionSort _ _).filterMap _
  have hagreeable : Agreeable (store.loadProjectionInput.filterMap (·.catalogueEvent)) := by
    refine ⟨fun event hevent => ?_, fun a ha b hb => ?_⟩
    · exact hacceptable.valid event (hperm.mem_iff.mp hevent)
    · exact hacceptable.apart a (hperm.mem_iff.mp ha) b (hperm.mem_iff.mp hb)
  rw [← (hperm.filter _).length_eq] at honce
  rw [load_catalogue h, Catalogue.get, Catalogue.absorbed_details hagreeable honce,
    List.filterMap_filterMap]
  rfl

/-! ## Section 3: Every set of edits -/

/-- **Concurrent edits**: whatever the devices and their clocks, a till that holds the edits the
    server stored shows what the policy picks exactly where, of every edited product, the details
    set last by the clocks are those of the edit the server placed last. -/
theorem resolves_iff {digest : HashFunction Payload} {s : Server Payload}
    (hserver : Transition.Reachable Server.Fresh (Server.step digest) s)
    {rows : List (EventRow Payload)} (hrows : ∀ row ∈ rows, row ∈ s.db.table.rows)
    {digests : Digests} {store : EventStore Payload} {identity : DeviceIdentity} {t : Terminal}
    (hholds : store.HoldsEdits rows) (hacceptable : store.Acceptable)
    (hload : load digests store identity = .ok t) :
    t.Resolves rows ↔ ∀ edit, Newest (rows.filterMap (·.catalogueEdit)) edit →
      ∀ details, store.LastSet edit.productId details → details = edit.value := by
  have hseq : Server.SeqInv s :=
    hserver.invariant (fun _ h => Server.seqInv_fresh h) fun _ _ _ h hstep =>
      Server.seqInv_step h hstep
  -- an edited product is there, with the details set last
  have hshown : ∀ edit ∈ rows.filterMap (·.catalogueEdit), ∃ details,
      (t.catalogue.get edit.productId).map (·.details) = some details ∧
        ∀ last, store.LastSet edit.productId last ↔ details = last := by
    intro edit hedit
    obtain ⟨row, hrow, hmade⟩ := List.mem_filterMap.mp hedit
    obtain ⟨hproduct, -⟩ := EventRow.catalogueEdit_eq_some hmade
    have hstored : row.event ∈ store.events :=
      hholds.all row hrow (by rw [hproduct]; rfl)
    have hget := load_details hacceptable.agreeable
      (hacceptable.existing row.event hstored _ hproduct) hload
    have hne : store.loadProjectionInput.filterMap (·.detailsOf edit.productId) ≠ [] :=
      List.ne_nil_of_mem (List.mem_filterMap.mpr
        ⟨row.event, EventStore.mem_orderBy.mpr hstored, EventEnvelope.detailsOf_edit hproduct⟩)
    obtain ⟨details, hdetails⟩ := Option.ne_none_iff_exists'.mp (mt List.getLast?_eq_none_iff.mp hne)
    refine ⟨details, hget.trans hdetails, fun last => ?_⟩
    rw [EventStore.LastSet, ← EventStore.readLast_iff, hdetails]
    exact Option.some_inj
  constructor
  · intro hresolves edit hedit details hlast
    obtain ⟨winner, hwinner⟩ := Option.isSome_iff_exists.mp (latestPerProduct_isSome hedit.mem)
    obtain ⟨hid, hnewest⟩ := latestPerProduct_eq_some hwinner
    have hsame : winner = edit := by
      have hseqs : winner.serverSeq = edit.serverSeq :=
        le_antisymm (hedit.last winner hnewest.mem hid) (hnewest.last edit hedit.mem hid.symm)
      obtain ⟨row, hrow, hmade⟩ := List.mem_filterMap.mp hnewest.mem
      obtain ⟨row', hrow', hmade'⟩ := List.mem_filterMap.mp hedit.mem
      have hrows_eq : row = row' := by
        refine hseq.inj row row' (.inl (hrows row hrow)) (.inl (hrows row' hrow')) ?_
        rw [(EventRow.catalogueEdit_eq_some hmade).2, (EventRow.catalogueEdit_eq_some hmade').2]
        exact hseqs
      rw [hrows_eq, hmade'] at hmade
      exact (Option.some.inj hmade).symm
    obtain ⟨shown, hdetails, hshown⟩ := hshown edit hedit.mem
    have hvalue := hresolves edit.productId winner hwinner
    rw [hdetails, hsame] at hvalue
    rw [← (hshown details).mp hlast]
    exact Option.some.inj hvalue
  · intro h productId edit hwinner
    obtain ⟨rfl, hnewest⟩ := latestPerProduct_eq_some hwinner
    obtain ⟨shown, hdetails, hshown⟩ := hshown edit hnewest.mem
    rw [hdetails, h edit hnewest shown ((hshown shown).mpr rfl)]

/-! ### Two clocks -/

def coffee (price : Int) (h : -9223372036854775808 ≤ price ∧ price < 9223372036854775808 := by
    decide) : ProductDetails where
  name := "Coffee"
  sku := none
  barcodes := []
  price := ⟨I64.lit price (decide_eq_true h), .bdt⟩
  unit := .piece
  taxClass := .exempt
  category := none
  station := none
  optionGroups := []

/-- A server that stays as it is, to the device that syncs with it. -/
def standing (s : Server Payload) (d : Uuid) : Transport Payload where
  push := fun batch => (s.push plainDigests.event 0 d ⟨d, batch⟩).2
  pull := fun cursor limit => Server.servePull s.db d cursor limit

theorem standing_servesSiblings (s : Server Payload) (d : Uuid) :
    ServesSiblings (standing s d) d := by
  intro cursor page hpage e he
  obtain ⟨record, -, hevents, -⟩ := Server.servePull_eq_ok hpage
  rw [hevents] at he
  obtain ⟨row, hrow, rfl⟩ := List.mem_map.mp he
  exact (Server.mem_pullRows.mp (List.mem_of_mem_take hrow)).2.2.1

/-- A server that devices 3 and 4 of one outlet are enrolled with. -/
def enrolled : Server Payload where
  db := { device := fun d => if d = 3 ∨ d = 4 then some ⟨1, 2, false, .genesis⟩ else none
          table := .empty }
  nextSeq := 1
  txns := fun _ => none

theorem enrolled_fresh : Server.Fresh enrolled where
  table := rfl
  tip := by
    intro d record h
    simp only [enrolled] at h
    split at h
    · cases h
      rfl
    · cases h
  nextSeq := rfl
  txns := fun _ => rfl

/-- What a till has recorded is sent. -/
def sent (s : Server Payload) (t : Terminal) : Server Payload :=
  (s.push plainDigests.event 0 t.identity.deviceId ⟨t.identity.deviceId, t.store.loadAll⟩).1

/-- The till of device 3 puts a coffee in the catalogue. -/
def selling : Terminal :=
  till3.performAll plainDigests
    [(true, instant 10, .recordCatalogue (.productAdded 50 (coffee 4800) (instant 10) 7) 100)]

/-- The till of device 4 has pulled it and, by its own clock, changes the price. -/
def repriced (clock : Timestamp) : Terminal :=
  ((fresh ⟨1, 2, 4⟩).sync plainDigests (standing (sent enrolled selling) 4) 0).1.restarted.performAll
    plainDigests
    [(true, clock, .recordCatalogue (.productUpdated 50 (coffee 5200) clock 7) 101)]

/-- The till of device 3 changes it after that. -/
def repricedAgain : Terminal :=
  selling.performAll plainDigests
    [(true, instant 20, .recordCatalogue (.productUpdated 50 (coffee 5000) (instant 20) 7) 102)]

/-- The server, sent the one change and then the other. -/
def arrivals (clock : Timestamp) : Server Payload :=
  sent (sent (sent enrolled selling) (repriced clock)) repricedAgain

/-- The till of device 3, once it holds both changes. -/
def concurrent (clock : Timestamp) : Terminal :=
  (repricedAgain.sync plainDigests (standing (sent (sent enrolled selling) (repriced clock)) 3) 0).1

theorem sent_reachable {s : Server Payload} {t : Terminal}
    (h : Transition.Reachable Server.Fresh (Server.step plainDigests.event) s)
    (hidle : (s.txns 0).isNone) :
    Transition.Reachable Server.Fresh (Server.step plainDigests.event) (sent s t) :=
  Server.push_reachable h (Option.isNone_iff_eq_none.mp hidle) _ _

theorem arrivals_reachable {clock : Timestamp}
    (hidle : ((sent (sent enrolled selling) (repriced clock)).txns 0).isNone) :
    Transition.Reachable Server.Fresh (Server.step plainDigests.event) (arrivals clock) :=
  sent_reachable (sent_reachable (sent_reachable (.init enrolled_fresh) rfl)
    (by decide +kernel)) hidle

theorem concurrent_reachable (clock : Timestamp) :
    Transition.Reachable Fresh (step plainDigests) (concurrent clock) := by
  have hedited : Transition.Reachable Fresh (step plainDigests) repricedAgain :=
    performAll_run _ (performAll_run _ (.init ⟨_, rfl⟩))
  exact .step (.sync _ 0) hedited ⟨standing_servesSiblings _ 3, rfl⟩

/-- With device 4's clock behind, the last change is last by the clocks as well, and is what the
    till shows. -/
theorem resolves_iff_inOrder :
    (concurrent (instant 15)).restarted.Resolves (arrivals (instant 15)).db.table.rows := by
  have hnewest : ∀ edit ∈ (arrivals (instant 15)).db.table.rows.filterMap (·.catalogueEdit),
      edit = ⟨50, 3, 3, coffee 5000⟩ ∨
        ∃ other ∈ (arrivals (instant 15)).db.table.rows.filterMap (·.catalogueEdit),
          other.productId = edit.productId ∧ edit.serverSeq < other.serverSeq := by
    decide +kernel
  have hlast : ∀ e ∈ (concurrent (instant 15)).store.events,
      e.detailsOf 50 = none ∨ e.detailsOf 50 = some (coffee 5000) ∨
        ∃ e' ∈ (concurrent (instant 15)).store.events,
          (e'.detailsOf 50).isSome ∧ replayKey e < replayKey e' := by
    decide +kernel
  refine (resolves_iff (arrivals_reachable (by decide +kernel)) (fun _ h => h)
    ⟨by decide +kernel, by decide +kernel⟩
    ⟨⟨by decide +kernel, by decide +kernel⟩, by decide +kernel⟩
    (load_restarted (by decide +kernel))).mpr fun edit hedit details hset => ?_
  rcases hnewest edit hedit.mem with rfl | ⟨other, hother, hproduct, hless⟩
  · obtain ⟨e, he, hdetails, hmax⟩ := hset
    rcases hlast e he with hnone | hsome | ⟨e', he', hset', hless⟩
    · cases hdetails.symm.trans hnone
    · exact Option.some.inj (hdetails.symm.trans hsome)
    · exact absurd (hmax e' he' hset') (not_le.mpr hless)
  · exact absurd (hedit.last other hother hproduct) (not_le.mpr hless)

/-- With it ahead, its price stands against the later one. -/
theorem fastClock_wins :
    Transition.Reachable Server.Fresh (Server.step plainDigests.event) (arrivals (instant 100)) ∧
      Transition.Reachable Fresh (step plainDigests) (concurrent (instant 100)) ∧
      (concurrent (instant 100)).store.HoldsEdits (arrivals (instant 100)).db.table.rows ∧
      (concurrent (instant 100)).store.Acceptable ∧
      load plainDigests (concurrent (instant 100)).store (concurrent (instant 100)).identity =
        .ok (concurrent (instant 100)).restarted ∧
      ¬ (concurrent (instant 100)).restarted.Resolves (arrivals (instant 100)).db.table.rows := by
  refine ⟨arrivals_reachable (by decide +kernel), concurrent_reachable _,
    ⟨by decide +kernel, by decide +kernel⟩,
    ⟨⟨by decide +kernel, by decide +kernel⟩, by decide +kernel⟩,
    load_restarted (by decide +kernel), fun hresolves => ?_⟩
  have hshown := hresolves 50 ⟨50, 3, 3, coffee 5000⟩ (by decide +kernel)
  exact absurd hshown (by decide +kernel)

end Terminal

end Sahl
