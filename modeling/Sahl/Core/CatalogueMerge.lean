import Mathlib.Tactic
import Mathlib.Data.List.MinMax
import Mathlib.Data.Prod.Lex
import Sahl.Core.CatalogueEdits

/-! # Merging catalogue edits

    Pages of edits arrive in any order, some of them twice. Of each product the edit the server
    placed last is held, ties going by device, so what is held depends on the edits that arrived and
    on nothing else (`latestPerProduct_orderFree`). -/

namespace Sahl

variable {T : Type}

/-! ## Section 1: The choice -/

/-- What edits of one product are ordered by. -/
def CatalogueEdit.rank (edit : CatalogueEdit T) : Int ×ₗ Uuid :=
  toLex (edit.serverSeq, edit.deviceId)

theorem CatalogueEdit.rank_lt_iff {a b : CatalogueEdit T} : a.rank < b.rank ↔
    a.serverSeq < b.serverSeq ∨ a.serverSeq = b.serverSeq ∧ a.deviceId < b.deviceId :=
  Prod.Lex.toLex_lt_toLex

/-- The edit of higher rank survives, and of equals the first. -/
theorem resolve_eq (a b : CatalogueEdit T) : resolve a b = if a.rank < b.rank then b else a := by
  unfold resolve
  cases hcompare : compare a.serverSeq b.serverSeq with
  | gt =>
    have hseq := compare_gt_iff_gt.mp hcompare
    have hnot : ¬ a.rank < b.rank := by
      rw [CatalogueEdit.rank_lt_iff]
      intro hlt
      rcases hlt with hlt | hlt <;> omega
    exact (if_neg hnot).symm
  | lt =>
    have hseq := compare_lt_iff_lt.mp hcompare
    exact (if_pos (CatalogueEdit.rank_lt_iff.mpr (.inl hseq))).symm
  | eq =>
    have hseq := compare_eq_iff_eq.mp hcompare
    have hrank : a.rank < b.rank ↔ ¬ b.deviceId ≤ a.deviceId := by
      rw [CatalogueEdit.rank_lt_iff, not_le, hseq]
      simp
    by_cases hdevice : b.deviceId ≤ a.deviceId
    · rw [if_neg fun hlt => hrank.mp hlt hdevice]
      exact if_pos hdevice
    · rw [if_pos (hrank.mpr hdevice)]
      exact if_neg hdevice

theorem resolve_assoc (a b c : CatalogueEdit T) :
    resolve (resolve a b) c = resolve a (resolve b c) := by
  simp only [resolve_eq]
  by_cases hab : a.rank < b.rank
  · by_cases hbc : b.rank < c.rank
    · simp only [if_pos hab, if_pos hbc, if_pos (hab.trans hbc)]
    · simp only [if_pos hab, if_neg hbc]
  · by_cases hbc : b.rank < c.rank
    · simp only [if_neg hab, if_pos hbc]
    · have hac : ¬ a.rank < c.rank :=
        not_lt.mpr ((not_lt.mp hbc).trans (not_lt.mp hab))
      simp only [if_neg hab, if_neg hbc, if_neg hac]

/-! ## Section 2: What is held -/

/-- The edits of a product. -/
def editsOf (edits : List (CatalogueEdit T)) (productId : Uuid) : List (CatalogueEdit T) :=
  edits.filter (·.productId = productId)

theorem mem_editsOf {edits : List (CatalogueEdit T)} {productId : Uuid} {edit : CatalogueEdit T} :
    edit ∈ editsOf edits productId ↔ edit ∈ edits ∧ edit.productId = productId := by
  simp [editsOf]

/-- Of each product its first edit of highest rank is held. -/
theorem latestPerProduct_eq_argmax (edits : List (CatalogueEdit T)) (productId : Uuid) :
    (latestPerProduct edits)[productId]? = (editsOf edits productId).argmax CatalogueEdit.rank := by
  induction edits using List.reverseRecOn with
  | nil => exact Std.ExtTreeMap.getElem?_empty
  | append_singleton edits last ih =>
    rw [latestPerProduct_concat]
    by_cases hid : last.productId = productId
    · have hfilter : editsOf (edits ++ [last]) productId = editsOf edits productId ++ [last] := by
        simp [editsOf, hid]
      rw [if_pos hid, hid, ih, hfilter, List.argmax_concat]
      cases (editsOf edits productId).argmax CatalogueEdit.rank with
      | none => rfl
      | some held =>
        show some (resolve held last) = if held.rank < last.rank then some last else some held
        rw [resolve_eq]
        split <;> rfl
    · have hfilter : editsOf (edits ++ [last]) productId = editsOf edits productId := by
        simp [editsOf, hid]
      rw [if_neg hid, ih, hfilter]

/-- Of two runs of edits the survivors of both are resolved. -/
theorem argmax_append (xs ys : List (CatalogueEdit T)) :
    (xs ++ ys).argmax CatalogueEdit.rank =
      Option.merge resolve (xs.argmax CatalogueEdit.rank) (ys.argmax CatalogueEdit.rank) := by
  induction ys using List.reverseRecOn with
  | nil =>
    rw [List.append_nil, List.argmax_nil]
    cases xs.argmax CatalogueEdit.rank <;> rfl
  | append_singleton ys last ih =>
    -- one more edit is resolved with the survivor so far
    have hconcat : ∀ zs : List (CatalogueEdit T), (zs ++ [last]).argmax CatalogueEdit.rank =
        Option.merge resolve (zs.argmax CatalogueEdit.rank) (some last) := by
      intro zs
      rw [List.argmax_concat]
      cases zs.argmax CatalogueEdit.rank with
      | none => rfl
      | some held =>
        show (if held.rank < last.rank then some last else some held) = some (resolve held last)
        rw [resolve_eq]
        split <;> rfl
    rw [← List.append_assoc, hconcat, ih, hconcat]
    cases xs.argmax CatalogueEdit.rank with
    | none => cases ys.argmax CatalogueEdit.rank <;> rfl
    | some a =>
      cases ys.argmax CatalogueEdit.rank with
      | none => rfl
      | some b => exact congrArg some (resolve_assoc a b last)

/-! ## Section 3: The merge -/

/-- The edit of a product that is greatest by server sequence and then by device. -/
structure CatalogueEdit.Greatest (edits : List (CatalogueEdit T)) (productId : Uuid)
    (edit : CatalogueEdit T) : Prop where
  mem : edit ∈ edits
  product : edit.productId = productId
  greatest : ∀ other ∈ edits, other.productId = productId →
    toLex (other.serverSeq, other.deviceId) ≤ toLex (edit.serverSeq, edit.deviceId)

/-- The server places one edit of a product and a device under one sequence. -/
def PlacedOnce (edits : List (CatalogueEdit T)) : Prop :=
  ∀ a ∈ edits, ∀ b ∈ edits, a.productId = b.productId → a.serverSeq = b.serverSeq →
    a.deviceId = b.deviceId → a = b

theorem CatalogueEdit.Greatest.unique {edits : List (CatalogueEdit T)} {productId : Uuid}
    {a b : CatalogueEdit T} (hplaced : PlacedOnce edits) (ha : a.Greatest edits productId)
    (hb : b.Greatest edits productId) : a = b := by
  have hrank := le_antisymm (hb.greatest a ha.mem ha.product) (ha.greatest b hb.mem hb.product)
  obtain ⟨hseq, hdevice⟩ := Prod.mk.inj (toLex_inj.mp hrank)
  exact hplaced a ha.mem b hb.mem (ha.product.trans hb.product.symm) hseq hdevice

theorem greatest_of_latestPerProduct {edits : List (CatalogueEdit T)} {productId : Uuid}
    {edit : CatalogueEdit T} (h : (latestPerProduct edits)[productId]? = some edit) :
    edit.Greatest edits productId := by
  rw [latestPerProduct_eq_argmax] at h
  obtain ⟨hmem, hid⟩ := mem_editsOf.mp (List.argmax_mem h)
  refine ⟨hmem, hid, fun other hother hsame => ?_⟩
  have hle : other.rank ≤ edit.rank :=
    List.le_of_mem_argmax (mem_editsOf.mpr ⟨hother, hsame⟩) h
  exact hle

/-- What is held of a product is its greatest edit. -/
theorem latestPerProduct_eq_some_iff {edits : List (CatalogueEdit T)} (hplaced : PlacedOnce edits)
    {productId : Uuid} {edit : CatalogueEdit T} :
    (latestPerProduct edits)[productId]? = some edit ↔ edit.Greatest edits productId := by
  constructor
  · exact greatest_of_latestPerProduct
  · intro hgreatest
    have hsome := latestPerProduct_isSome hgreatest.mem
    rw [hgreatest.product] at hsome
    obtain ⟨held, hheld⟩ := Option.isSome_iff_exists.mp hsome
    rw [hheld, (greatest_of_latestPerProduct hheld).unique hplaced hgreatest]

/-- **The catalogue merge is order-free.** Where the server places an edit once, what is held
    depends on which edits arrived, in whatever order and however often; of each edited product it
    is the greatest by server sequence and device; and of two runs of edits it is what their
    survivors resolve to, product by product. -/
theorem latestPerProduct_orderFree (edits : List (CatalogueEdit T))
    (hplaced : ∀ a ∈ edits, ∀ b ∈ edits, a.productId = b.productId → a.serverSeq = b.serverSeq →
      a.deviceId = b.deviceId → a = b) :
    (∀ other, (∀ edit, edit ∈ other ↔ edit ∈ edits) →
      latestPerProduct other = latestPerProduct edits) ∧
    (∀ edit ∈ edits, ∃ held, (latestPerProduct edits)[edit.productId]? = some held) ∧
    (∀ (productId : Uuid) (edit : CatalogueEdit T),
      (latestPerProduct edits)[productId]? = some edit ↔ edit.Greatest edits productId) ∧
    ∀ earlier later, edits = earlier ++ later → ∀ productId : Uuid,
      (latestPerProduct edits)[productId]? = Option.merge resolve
        (latestPerProduct earlier)[productId]? (latestPerProduct later)[productId]? := by
  refine ⟨?_, ?_, fun _ _ => latestPerProduct_eq_some_iff hplaced, ?_⟩
  · intro other hsame
    -- the other run is placed once as well, and its greatest edits are the same
    have hother : PlacedOnce other := fun a ha b hb =>
      hplaced a ((hsame a).mp ha) b ((hsame b).mp hb)
    refine Std.ExtTreeMap.ext_getElem? fun productId => Option.ext fun edit => ?_
    rw [latestPerProduct_eq_some_iff hother, latestPerProduct_eq_some_iff hplaced]
    constructor
    · intro h
      exact ⟨(hsame _).mp h.mem, h.product, fun e he => h.greatest e ((hsame e).mpr he)⟩
    · intro h
      exact ⟨(hsame _).mpr h.mem, h.product, fun e he => h.greatest e ((hsame e).mp he)⟩
  · intro edit hedit
    exact Option.isSome_iff_exists.mp (latestPerProduct_isSome hedit)
  · intro earlier later hparts productId
    subst hparts
    rw [latestPerProduct_eq_argmax, latestPerProduct_eq_argmax, latestPerProduct_eq_argmax,
      editsOf, List.filter_append]
    exact argmax_append _ _

/-- Two tills set the price of one product, and one of the edits comes twice. -/
theorem latestPerProduct_orderFree_twice :
    latestPerProduct [⟨1, 9, 10, "9.50"⟩, ⟨1, 7, 11, "9.00"⟩, ⟨1, 9, 10, "9.50"⟩] =
      latestPerProduct [⟨1, 7, 11, "9.00"⟩, ⟨1, 9, 10, "9.50"⟩] :=
  (latestPerProduct_orderFree [⟨1, 7, 11, "9.00"⟩, ⟨1, 9, 10, "9.50"⟩] (by decide)).1 _ (by
    intro edit
    simp only [List.mem_cons, List.not_mem_nil, or_false]
    tauto)

end Sahl
