import Mathlib.Tactic
import Sahl.Core.Import

/-! # Concurrent catalogue edits

    The policy: of the edits of a product, the one the server placed last survives
    (`latestPerProduct_eq_some`). The catalogue itself goes by the order it is read in: what does
    not apply is left out, and a product ends with the details that were set last
    (`absorbed_details`). -/

namespace Sahl

/-! ## Section 1: The policy -/

/-- A catalogue edit, tagged with where the server placed it. -/
structure CatalogueEdit (T : Type) where
  productId : Uuid
  /-- Assigned by the server on ingest, not by a device clock. -/
  serverSeq : Int
  deviceId : Uuid
  value : T
  deriving DecidableEq

variable {T : Type}

/-- Pick the surviving edit. -/
def resolve (a b : CatalogueEdit T) : CatalogueEdit T :=
  match compare a.serverSeq b.serverSeq with
  | .gt => a
  | .lt => b
  | .eq => if b.deviceId ≤ a.deviceId then a else b

/-- The surviving edit of each product. -/
def latestPerProduct (edits : List (CatalogueEdit T)) : UuidMap (CatalogueEdit T) :=
  edits.foldl (fun winners edit =>
    winners.insert edit.productId
      (match winners[edit.productId]? with
      | some held => resolve held edit
      | none => edit)) ∅

/-- No edit of the product was placed after this one. -/
structure Newest (edits : List (CatalogueEdit T)) (edit : CatalogueEdit T) : Prop where
  mem : edit ∈ edits
  last : ∀ other ∈ edits, other.productId = edit.productId → other.serverSeq ≤ edit.serverSeq

theorem resolve_cases (a b : CatalogueEdit T) :
    (resolve a b = a ∧ b.serverSeq ≤ a.serverSeq) ∨
      (resolve a b = b ∧ a.serverSeq ≤ b.serverSeq) := by
  unfold resolve
  cases hcompare : compare a.serverSeq b.serverSeq with
  | gt => exact .inl ⟨rfl, (compare_gt_iff_gt.mp hcompare).le⟩
  | lt => exact .inr ⟨rfl, (compare_lt_iff_lt.mp hcompare).le⟩
  | eq =>
    have hsame := compare_eq_iff_eq.mp hcompare
    by_cases hdevice : b.deviceId ≤ a.deviceId
    · exact .inl ⟨if_pos hdevice, hsame.ge⟩
    · exact .inr ⟨if_neg hdevice, hsame.le⟩

theorem latestPerProduct_concat (edits : List (CatalogueEdit T)) (edit : CatalogueEdit T)
    (productId : Uuid) : (latestPerProduct (edits ++ [edit]))[productId]? =
      if edit.productId = productId then
        some (match (latestPerProduct edits)[edit.productId]? with
          | some held => resolve held edit
          | none => edit)
      else (latestPerProduct edits)[productId]? := by
  unfold latestPerProduct
  rw [List.foldl_concat]
  exact UuidMap.get_insert _ _ _ _

/-- An edited product has a surviving edit. -/
theorem latestPerProduct_isSome {edits : List (CatalogueEdit T)} {edit : CatalogueEdit T}
    (h : edit ∈ edits) : (latestPerProduct edits)[edit.productId]?.isSome := by
  induction edits using List.reverseRecOn with
  | nil => cases h
  | append_singleton edits last ih =>
    rw [latestPerProduct_concat]
    by_cases hid : last.productId = edit.productId
    · rw [if_pos hid]
      rfl
    · rw [if_neg hid]
      rcases List.mem_append.mp h with h | h
      · exact ih h
      · cases List.mem_singleton.mp h
        exact absurd rfl hid

theorem Newest.concat {edits : List (CatalogueEdit T)} {edit last : CatalogueEdit T}
    (h : Newest edits edit)
    (hlast : last.productId = edit.productId → last.serverSeq ≤ edit.serverSeq) :
    Newest (edits ++ [last]) edit := by
  refine ⟨List.mem_append_left _ h.mem, fun other hother hsame => ?_⟩
  rcases List.mem_append.mp hother with hother | hother
  · exact h.last other hother hsame
  · cases List.mem_singleton.mp hother
    exact hlast hsame

theorem Newest.of_earlier {edits : List (CatalogueEdit T)} {last : CatalogueEdit T}
    (h : ∀ other ∈ edits, other.productId = last.productId → other.serverSeq ≤ last.serverSeq) :
    Newest (edits ++ [last]) last := by
  refine ⟨List.mem_concat_self, fun other hother hsame => ?_⟩
  rcases List.mem_append.mp hother with hother | hother
  · exact h other hother hsame
  · rw [List.mem_singleton.mp hother]

/-- The surviving edit of a product is its newest. -/
theorem latestPerProduct_eq_some {edits : List (CatalogueEdit T)} {productId : Uuid}
    {edit : CatalogueEdit T} (h : (latestPerProduct edits)[productId]? = some edit) :
    edit.productId = productId ∧ Newest edits edit := by
  induction edits using List.reverseRecOn generalizing edit with
  | nil =>
    rw [latestPerProduct, List.foldl_nil, Std.ExtTreeMap.getElem?_empty] at h
    cases h
  | append_singleton edits last ih =>
    rw [latestPerProduct_concat] at h
    by_cases hid : last.productId = productId
    · subst hid
      rw [if_pos rfl] at h
      cases hheld : (latestPerProduct edits)[last.productId]? with
      | none =>
        rw [hheld] at h
        cases h
        refine ⟨rfl, .of_earlier fun other hother hsame => ?_⟩
        -- an earlier edit of the product would be held
        have hsome := latestPerProduct_isSome hother
        rw [hsame, hheld] at hsome
        cases hsome
      | some held =>
        rw [hheld] at h
        obtain ⟨hheldId, hnewest⟩ := ih hheld
        rcases resolve_cases held last with ⟨hwins, hle⟩ | ⟨hwins, hle⟩
        · cases (Option.some.inj h).symm.trans hwins
          exact ⟨hheldId, hnewest.concat fun _ => hle⟩
        · cases (Option.some.inj h).symm.trans hwins
          refine ⟨rfl, .of_earlier fun other hother hsame => ?_⟩
          exact (hnewest.last other hother (hsame.trans hheldId.symm)).trans hle
    · rw [if_neg hid] at h
      obtain ⟨heditId, hnewest⟩ := ih h
      refine ⟨heditId, hnewest.concat fun hsame => ?_⟩
      exact absurd (hsame.trans heditId) hid

/-! ## Section 2: The catalogue -/

/-- The editable facts of a product. -/
def Product.details (product : Product) : ProductDetails :=
  { name := product.name, sku := product.sku, barcodes := product.barcodes, price := product.price,
    unit := product.unit, taxClass := product.taxClass, category := product.category,
    station := product.station, optionGroups := product.optionGroups }

namespace CatalogueEvent

/-- The details an event sets. -/
def details : CatalogueEvent → Option ProductDetails
  | productAdded _ details .. | productUpdated _ details .. => some details
  | productWithdrawn .. | productRestored .. => none

def isAddition : CatalogueEvent → Bool
  | productAdded .. => true
  | _ => false

/-- The details an event sets of one product. -/
def detailsOf (productId : Uuid) (event : CatalogueEvent) : Option ProductDetails :=
  if event.productId = productId then event.details else none

def adds (productId : Uuid) (event : CatalogueEvent) : Bool :=
  event.isAddition ∧ event.productId = productId

end CatalogueEvent

/-- Events a catalogue has nothing against: what they describe is valid, and no two products share
    a barcode. -/
structure Agreeable (events : List CatalogueEvent) : Prop where
  valid : ∀ event ∈ events, event.details.isSome → ∀ active, (event.toProduct active).isOkay
  apart : ∀ a ∈ events, ∀ b ∈ events, a.productId ≠ b.productId → ∀ x ∈ a.details,
    ∀ y ∈ b.details, ∀ barcode ∈ x.barcodes, barcode ∉ y.barcodes

/-- A catalogue event, where it applies; else nothing. -/
def Catalogue.absorb (catalogue : Catalogue) (event : CatalogueEvent) : Catalogue :=
  (catalogue.apply event).toOption.getD catalogue

namespace Catalogue

variable {catalogue : Catalogue} {events : List CatalogueEvent} {event : CatalogueEvent}

/-- Every product is under its id, with details that one of the events set. -/
structure Described (events : List CatalogueEvent) (catalogue : Catalogue) : Prop where
  id : ∀ (productId : Uuid) product, catalogue.products[productId]? = some product →
    product.id = productId
  source : ∀ (productId : Uuid) product, catalogue.products[productId]? = some product →
    ∃ event ∈ events, event.productId = productId ∧ event.details = some product.details

theorem described_new (events : List CatalogueEvent) : Described events .new := by
  have hnone : ∀ productId : Uuid, Catalogue.new.products[productId]? = none := fun _ => rfl
  refine ⟨fun productId product hproduct => ?_, fun productId product hproduct => ?_⟩
  all_goals
    rw [hnone] at hproduct
    cases hproduct

theorem toProduct_details {active : Bool} {product : Product}
    (h : event.toProduct active = .ok product) :
    product.id = event.productId ∧ event.details = some product.details ∧
      product.active = active := by
  cases event with
  | productAdded | productUpdated =>
    obtain ⟨_, -, h⟩ := Except.bind_eq_ok.mp h
    cases h
    exact ⟨rfl, rfl, rfl⟩
  | productWithdrawn | productRestored => cases h

/-- An event that describes a product puts it in place. -/
theorem place_isOkay (h : Agreeable events) (hdescribed : Described events catalogue)
    (hevent : event ∈ events) (hdetails : event.details.isSome) (active : Bool) :
    ∃ product, catalogue.place event active =
        .ok ⟨catalogue.products.insert event.productId product⟩ ∧
      product.id = event.productId ∧ event.details = some product.details := by
  obtain ⟨product, hproduct⟩ := Except.isOkay_iff.mp (h.valid event hevent hdetails active)
  obtain ⟨hid, hdescribes, -⟩ := toProduct_details hproduct
  refine ⟨product, ?_, hid, hdescribes⟩
  have hfree : (catalogue.assertBarcodesFree product).isOkay := by
    unfold assertBarcodesFree
    refine forM_isOkay.mpr fun barcode hbarcode => ?_
    split
    · rename_i other hfound
      -- whoever held the barcode would be another product
      have hholds := List.find?_some hfound
      simp only [decide_eq_true_eq] at hholds
      obtain ⟨hdiffers, hcarries⟩ := hholds
      obtain ⟨key, hkey⟩ := UuidMap.mem_values.mp (List.mem_of_find?_eq_some hfound)
      obtain ⟨setter, hsetter, hsetterId, hset⟩ := hdescribed.source key other hkey
      have hother : event.productId ≠ setter.productId := by
        rw [hsetterId, ← hid, ← hdescribed.id key other hkey]
        exact hdiffers.symm
      exact absurd hcarries (h.apart event hevent setter hsetter hother _ hdescribes _ hset
        barcode hbarcode)
    · rfl
  obtain ⟨_, hfree⟩ := Except.isOkay_iff.mp hfree
  unfold place
  exact Except.bind_eq_ok.mpr ⟨product, hproduct, Except.bind_eq_ok.mpr ⟨_, hfree, rfl⟩⟩

/-- An event is left out, or puts the product it is about in place: a new one where it is an
    addition, and else one that is there. -/
theorem absorb_cases (h : Agreeable events) (hdescribed : Described events catalogue)
    (hevent : event ∈ events) :
    (catalogue.absorb event = catalogue ∧
        event.isAddition = catalogue.products[event.productId]?.isSome) ∨
      ∃ product, catalogue.absorb event = ⟨catalogue.products.insert event.productId product⟩ ∧
        event.isAddition = catalogue.products[event.productId]?.isNone ∧
        product.id = event.productId ∧
        event.details.or (catalogue.products[event.productId]?.map (·.details)) =
          some product.details := by
  unfold absorb
  cases event with
  -- an addition of a product that is there is refused, and so changes nothing
  | productAdded productId details at' addedBy =>
    simp only [apply, Std.ExtTreeMap.contains_eq_isSome_getElem?, CatalogueEvent.productId]
    cases hheld : catalogue.products[productId]? with
    | some held => exact .inl ⟨rfl, rfl⟩
    | none =>
      obtain ⟨product, hplaced, hid, hdetails⟩ := place_isOkay h hdescribed hevent rfl true
      refine .inr ⟨product, ?_, rfl, hid, by rw [hdetails]; rfl⟩
      simp only [Option.isSome_none, Bool.false_eq_true, if_false, hplaced]
      rfl
  -- any other event of a product that is not there is refused
  | productUpdated productId details at' updatedBy =>
    simp only [apply, CatalogueEvent.productId]
    cases hheld : catalogue.products[productId]? with
    | none => exact .inl ⟨rfl, rfl⟩
    | some held =>
      obtain ⟨product, hplaced, hid, hdetails⟩ :=
        place_isOkay h hdescribed hevent rfl held.active
      refine .inr ⟨product, ?_, rfl, hid, by rw [hdetails]; rfl⟩
      simp only [Except.okOr, bind, Except.bind, hplaced]
      rfl
  | productWithdrawn productId at' by' | productRestored productId at' by' =>
    simp only [apply, setActive, CatalogueEvent.productId]
    cases hheld : catalogue.products[productId]? with
    | none => exact .inl ⟨rfl, rfl⟩
    | some held => exact .inr ⟨_, rfl, rfl, hdescribed.id productId held hheld, rfl⟩

theorem described_absorb (h : Agreeable events) (hdescribed : Described events catalogue)
    (hevent : event ∈ events) : Described events (catalogue.absorb event) := by
  rcases absorb_cases h hdescribed hevent with ⟨hsame, -⟩ | ⟨product, hplaced, -, hid, hdetails⟩
  · rw [hsame]
    exact hdescribed
  · rw [hplaced]
    refine ⟨fun productId held hheld => ?_, fun productId held hheld => ?_⟩
    · rw [UuidMap.get_insert] at hheld
      split at hheld
      · rename_i hkey
        cases hheld
        exact hid.trans hkey
      · exact hdescribed.id productId held hheld
    · rw [UuidMap.get_insert] at hheld
      split at hheld
      · rename_i hkey
        cases hheld
        subst hkey
        cases hset : event.details with
        | some details => exact ⟨event, hevent, rfl, by rw [← hdetails, hset]; rfl⟩
        | none =>
          -- the details of a product that was there are kept
          rw [hset, Option.none_or] at hdetails
          obtain ⟨old, hold, hkept⟩ := Option.map_eq_some_iff.mp hdetails
          rw [← hkept]
          exact hdescribed.source _ old hold
      · exact hdescribed.source productId held hheld

/-- What a product is once some of the events are read: nothing before its addition, and then what
    the last of its events set. -/
structure Follows (events seen : List CatalogueEvent) (productId : Uuid) (catalogue : Catalogue) :
    Prop where
  described : Described events catalogue
  present : catalogue.products[productId]?.isSome = seen.any (·.adds productId)
  details : seen.any (·.adds productId) → catalogue.products[productId]?.map (·.details) =
    (seen.filterMap (·.detailsOf productId)).getLast?

theorem follows_absorb (h : Agreeable events) {seen : List CatalogueEvent} {productId : Uuid}
    (hseen : Follows events seen productId catalogue) (hevent : event ∈ events)
    (honce : event.adds productId → seen.any (·.adds productId) = false) :
    Follows events (seen ++ [event]) productId (catalogue.absorb event) := by
  have hdescribed := described_absorb h hseen.described hevent
  have hany : (seen ++ [event]).any (·.adds productId) =
      (seen.any (·.adds productId) || event.adds productId) := by simp
  have hlast : ((seen ++ [event]).filterMap (·.detailsOf productId)).getLast? =
      (event.detailsOf productId).or (seen.filterMap (·.detailsOf productId)).getLast? := by
    rw [List.filterMap_append]
    cases hset : event.detailsOf productId <;> simp [hset]
  by_cases hid : event.productId = productId
  · subst hid
    have hadds : event.adds event.productId = event.isAddition := by
      simp [CatalogueEvent.adds]
    have hsets : event.detailsOf event.productId = event.details := if_pos rfl
    rw [hadds] at hany honce
    rw [hsets] at hlast
    rcases absorb_cases h hseen.described hevent with
      ⟨hsame, haddition⟩ | ⟨product, hplaced, haddition, -, hdetails⟩
    · -- an addition of a product that is there would be its second
      have hnone : event.isAddition = false := by
        by_contra hsome
        rw [Bool.not_eq_false] at hsome
        rw [hsome, hseen.present, honce hsome] at haddition
        cases haddition
      rw [hnone] at haddition
      have habsent := hseen.present.symm.trans haddition.symm
      refine ⟨hdescribed, ?_, fun hadded => ?_⟩
      · rw [hany, hsame, hseen.present, hnone, Bool.or_false]
      · rw [hany, hnone, habsent] at hadded
        cases hadded
    · have hget : (catalogue.absorb event).products[event.productId]? = some product := by
        rw [hplaced]
        exact (UuidMap.get_insert _ _ _ _).trans (if_pos rfl)
      have hadded : (seen ++ [event]).any (·.adds event.productId) = true := by
        rw [hany, haddition, ← hseen.present]
        cases catalogue.products[event.productId]? <;> rfl
      refine ⟨hdescribed, by rw [hget, hadded]; rfl, fun _ => ?_⟩
      rw [hget, hlast, Option.map_some, ← hdetails]
      -- an event without details leaves those of the last one that had some
      cases hset : event.details with
      | some details => rfl
      | none =>
        have hnot : event.isAddition = false := by
          cases event <;> first | rfl | cases hset
        rw [hnot] at haddition
        rw [Option.none_or, Option.none_or]
        refine hseen.details ?_
        rw [← hseen.present]
        cases hheld : catalogue.products[event.productId]? with
        | none => rw [hheld] at haddition; cases haddition
        | some held => rfl
  · -- an event of another product
    have hadds : event.adds productId = false := by simp [CatalogueEvent.adds, hid]
    have hsets : event.detailsOf productId = none := if_neg hid
    have hget : (catalogue.absorb event).products[productId]? =
        catalogue.products[productId]? := by
      rcases absorb_cases h hseen.described hevent with ⟨hsame, -⟩ | ⟨product, hplaced, -⟩
      · rw [hsame]
      · rw [hplaced]
        exact (UuidMap.get_insert _ _ _ _).trans (if_neg hid)
    rw [hadds, Bool.or_false] at hany
    rw [hsets, Option.none_or] at hlast
    refine ⟨hdescribed, ?_, ?_⟩
    · rw [hget, hany]
      exact hseen.present
    · rw [hget, hany, hlast]
      exact hseen.details

/-- **The catalogue's own order**: of a product that is added once, the catalogue ends with the
    details that were set last. -/
theorem absorbed_details (h : Agreeable events) {productId : Uuid}
    (honce : (events.filter (·.adds productId)).length = 1) :
    (events.foldl absorb .new).products[productId]?.map (·.details) =
      (events.filterMap (·.detailsOf productId)).getLast? := by
  -- the invariant goes over the events seen so far, all of them among those given
  suffices hgen : ∀ seen : List CatalogueEvent, (∀ event ∈ seen, event ∈ events) →
      (seen.filter (·.adds productId)).length ≤ 1 →
      Follows events seen productId (seen.foldl absorb .new) by
    have hfollows := hgen events (fun _ hevent => hevent) honce.le
    refine hfollows.details ?_
    obtain ⟨event, hone⟩ := List.length_eq_one_iff.mp honce
    have hmem : event ∈ events.filter (·.adds productId) := by simp [hone]
    obtain ⟨hevent, hadds⟩ := List.mem_filter.mp hmem
    exact List.any_eq_true.mpr ⟨event, hevent, hadds⟩
  intro seen
  induction seen using List.reverseRecOn with
  | nil =>
    intro _ _
    exact ⟨described_new events, rfl, fun h => by cases h⟩
  | append_singleton seen event ih =>
    intro hmem hcount
    rw [List.filter_append, List.length_append] at hcount
    rw [List.foldl_concat]
    refine follows_absorb h (ih (fun e he => hmem e (List.mem_append_left _ he)) (by omega))
      (hmem event List.mem_concat_self) fun hadds => ?_
    rw [List.filter_cons_of_pos hadds] at hcount
    have hnone : seen.filter (·.adds productId) = [] :=
      List.eq_nil_of_length_eq_zero (by simpa using hcount)
    exact List.any_eq_false.mpr (List.filter_eq_nil_iff.mp hnone)

end Catalogue

end Sahl
