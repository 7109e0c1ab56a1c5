import Mathlib.Tactic
import Sahl.Core.Figures

/-! # Splitting a bill

    A split is arithmetic, not a new kind of transaction: it works out what each part should be,
    and the ordinary tenders take it from there.

    The main result is `byLines_collects`: a split by lines charges every line once, and charges
    it what was calculated for it. -/

namespace Sahl

/-! ## Section 1: Parts -/

/-- One person's share. -/
structure SplitPart where
  /-- One-based, as a cashier counts them aloud. -/
  number : U32
  amount : Money
  /-- The lines this part covers; none in an even split. -/
  lineIds : List Uuid
  deriving DecidableEq

inductive SplitError where
  | money (error : MoneyError)
  | noParts
  | mismatched (lines totals : Nat)
  | unknownLine (lineId : Uuid)
  | lineAssignedTwice (lineId : Uuid)
  | lineUnassigned (lineId : Uuid)
  deriving DecidableEq

/-- The number of the part at a position, counted no further than the type. -/
def partNumber (index : Nat) : U32 :=
  if h : index + 1 < 2 ^ 32 then ⟨index + 1, h⟩ else ⟨2 ^ 32 - 1, by norm_num⟩

/-- Divide a total evenly; the earliest parts absorb the remainder. -/
def evenly (total : Money) (ways : U32) : Except MoneyError (List SplitPart) :=
  if ways = 0 then .error .invalidWeights
  else do
    let amounts ← total.allocate (List.replicate ways.val 1)
    .ok (amounts.zipIdx.map fun (amount, index) =>
      { number := partNumber index, amount, lineIds := [] })

/-- One line id of an assignment, checked against those before it. -/
def assign (active : List (Uuid × Money)) (seen : List Uuid) (lineId : Uuid) :
    Except SplitError (List Uuid) :=
  if ¬ active.any (·.1 = lineId) then .error (.unknownLine lineId)
  else if lineId ∈ seen then .error (.lineAssignedTwice lineId)
  else .ok (seen ++ [lineId])

/-- What the lines of a part come to. -/
def partAmount (active : List (Uuid × Money)) (currency : Currency) (lineIds : List Uuid) :
    Except SplitError Money :=
  lineIds.foldlM (fun amount lineId => do
    let entry ← Except.okOr (active.find? (·.1 = lineId)) (SplitError.unknownLine lineId)
    (amount.checkedAdd entry.2).mapError SplitError.money) (Money.zero currency)

/-- Divide by who ordered what; every active line is paid for exactly once. -/
def byLines (lines : List SaleLine) (lineTotals : List Money) (assignment : List (List Uuid)) :
    Except SplitError (List SplitPart) :=
  if assignment.isEmpty then .error .noParts
  else if lines.length ≠ lineTotals.length then
    .error (.mismatched lines.length lineTotals.length)
  else do
    let active := ((lines.zip lineTotals).filter (·.1.isActive)).map fun (line, total) =>
      (line.id, total)
    let seen ← assignment.flatten.foldlM (assign active) []
    match active.find? (·.1 ∉ seen) with
    | some missing => .error (.lineUnassigned missing.1)
    | none =>
      let currency := active.head?.elim Currency.bdt (·.2.currency)
      assignment.zipIdx.mapM fun (lineIds, index) => do
        let amount ← partAmount active currency lineIds
        .ok { number := partNumber index, amount, lineIds }

/-! ## Section 2: What a split collects -/

/-- What is asked for the line found under an id. -/
def asked (active : List (Uuid × Money)) (lineId : Uuid) : Int :=
  ((active.find? (·.1 = lineId)).map (·.2.minor.val)).getD 0

theorem asked_of_mem {active : List (Uuid × Money)} (hids : (active.map Prod.fst).Nodup)
    {entry : Uuid × Money} (hentry : entry ∈ active) :
    asked active entry.1 = entry.2.minor.val := by
  obtain ⟨found, hfound⟩ : ∃ found, active.find? (·.1 = entry.1) = some found := by
    rw [← Option.isSome_iff_exists, List.find?_isSome]
    exact ⟨entry, hentry, by simp⟩
  have hid : found.1 = entry.1 := by simpa using List.find?_some hfound
  have hsame : found = entry :=
    List.inj_on_of_nodup_map hids (List.mem_of_find?_eq_some hfound) hentry hid
  rw [asked, hfound, hsame]
  rfl

theorem foldlM_assign_eq_ok {active : List (Uuid × Money)} {lineIds seen seen' : List Uuid}
    (hseen : seen.Nodup) (h : lineIds.foldlM (assign active) seen = .ok seen') :
    seen' = seen ++ lineIds ∧ seen'.Nodup ∧ ∀ lineId ∈ lineIds, lineId ∈ active.map Prod.fst := by
  induction lineIds generalizing seen with
  | nil =>
    cases h
    exact ⟨(List.append_nil _).symm, hseen, by simp⟩
  | cons lineId rest ih =>
    obtain ⟨next, hnext, hrest⟩ := foldlM_cons_eq_ok.mp h
    unfold assign at hnext
    split at hnext
    · cases hnext
    rename_i hknown
    split at hnext
    · cases hnext
    rename_i hfresh
    cases hnext
    -- what was seen stays distinct, as a line seen before is refused
    have hgrown : (seen ++ [lineId]).Nodup := by
      rw [← List.concat_eq_append]
      exact List.Nodup.concat hfresh hseen
    obtain ⟨hseen', hnodup, hall⟩ := ih hgrown hrest
    rw [List.append_assoc, List.singleton_append] at hseen'
    refine ⟨hseen', hnodup, List.forall_mem_cons.mpr ⟨?_, hall⟩⟩
    obtain ⟨entry, hentry, hid⟩ := List.any_eq_true.mp (not_not.mp hknown)
    exact List.mem_map.mpr ⟨entry, hentry, by simpa using hid⟩

theorem partAmount_eq_ok {active : List (Uuid × Money)} {currency : Currency}
    {lineIds : List Uuid} {amount : Money} (h : partAmount active currency lineIds = .ok amount) :
    amount.minor.val = (lineIds.map (asked active)).sum := by
  refine foldlM_invariant
    (fun seen (acc : Money) => acc.minor.val = (seen.map (asked active)).sum) ?_ rfl h
  intro seen acc lineId acc' hacc hstep
  simp only [Except.bind_eq_ok, Except.okOr_eq_ok, Except.mapError_eq_ok] at hstep
  obtain ⟨entry, hfind, hadd⟩ := hstep
  rw [(Money.checkedAdd_eq_ok.mp hadd).2.2, hacc, List.map_append, List.sum_append,
    List.map_singleton, List.sum_singleton, asked, hfind]
  rfl

/-- Ids that differ pick out the lines under them. -/
theorem sum_asked {active : List (Uuid × Money)} {lineIds : List Uuid}
    (hids : (active.map Prod.fst).Nodup) (hlineIds : lineIds.Nodup)
    (hknown : ∀ lineId ∈ lineIds, lineId ∈ active.map Prod.fst) :
    (lineIds.map (asked active)).sum =
      ((active.filter (·.1 ∈ lineIds)).map (·.2.minor.val)).sum := by
  have hpicked : ((active.filter (·.1 ∈ lineIds)).map Prod.fst).Nodup :=
    hids.sublist (List.filter_sublist.map _)
  have hperm : lineIds.Perm ((active.filter (·.1 ∈ lineIds)).map Prod.fst) := by
    refine (List.perm_ext_iff_of_nodup hlineIds hpicked).mpr fun lineId => ?_
    constructor
    · intro hmem
      obtain ⟨entry, hentry, rfl⟩ := List.mem_map.mp (hknown lineId hmem)
      exact List.mem_map_of_mem (List.mem_filter.mpr ⟨hentry, by simpa using hmem⟩)
    · intro hmem
      obtain ⟨entry, hentry, rfl⟩ := List.mem_map.mp hmem
      simpa using (List.mem_filter.mp hentry).2
  rw [(hperm.map _).sum_eq, List.map_map]
  refine congrArg List.sum (List.map_congr_left fun entry hentry => ?_)
  exact asked_of_mem hids (List.mem_filter.mp hentry).1

/-- A split charges every line of a bill once. -/
structure Collects (bill : List (Uuid × Money)) (parts : List SplitPart) : Prop where
  once : (parts.flatMap (·.lineIds)).Perm (bill.map Prod.fst)
  part : ∀ part ∈ parts, part.amount.minor.val =
    ((bill.filter (·.1 ∈ part.lineIds)).map (·.2.minor.val)).sum
  total : (parts.map (·.amount.minor.val)).sum = (bill.map (·.2.minor.val)).sum

/-- A part of a split: the lines it was assigned, and what is asked for them. -/
def PartOf (bill : List (Uuid × Money)) (entry : List Uuid × Nat) (part : SplitPart) : Prop :=
  part.lineIds = entry.1 ∧ part.amount.minor.val = (entry.1.map (asked bill)).sum

/-- A split that is answered assigns every line once, and makes a part of each assignment. -/
theorem byLines_eq_ok {lines : List SaleLine} {lineTotals : List Money}
    {assignment : List (List Uuid)} {parts : List SplitPart}
    (hactive : ∀ line ∈ lines, line.isActive = true)
    (h : byLines lines lineTotals assignment = .ok parts) :
    lines.length = lineTotals.length ∧ assignment.flatten.Nodup ∧
      (∀ lineId, lineId ∈ assignment.flatten ↔
        lineId ∈ ((lines.map (·.id)).zip lineTotals).map Prod.fst) ∧
      List.Forall₂ (PartOf ((lines.map (·.id)).zip lineTotals)) assignment.zipIdx parts := by
  unfold byLines at h
  split at h
  · cases h
  split at h
  · cases h
  rename_i hlength
  have hbill : ((lines.zip lineTotals).filter (·.1.isActive)).map
      (fun (line, total) => (line.id, total)) = (lines.map (·.id)).zip lineTotals := by
    rw [List.filter_eq_self.mpr fun pair hpair => hactive _ (List.of_mem_zip hpair).1,
      List.zip_map_left]
    rfl
  simp only [hbill] at h
  obtain ⟨seen, hseen, h⟩ := Except.bind_eq_ok.mp h
  obtain ⟨hassigned, hnodup, hknown⟩ := foldlM_assign_eq_ok List.nodup_nil hseen
  rw [List.nil_append] at hassigned
  subst hassigned
  split at h
  · cases h
  rename_i hnone
  refine ⟨not_not.mp hlength, hnodup, fun lineId => ⟨hknown lineId, ?_⟩, ?_⟩
  · -- the source looks for a line that nobody was assigned, and finds none
    intro hmem
    obtain ⟨entry, hentry, rfl⟩ := List.mem_map.mp hmem
    by_contra hmissing
    exact List.find?_eq_none.mp hnone entry hentry (by simpa using hmissing)
  · refine (mapM_eq_ok.mp h).imp fun entry part hpart => ?_
    obtain ⟨amount, hamount, hpart⟩ := Except.bind_eq_ok.mp hpart
    cases hpart
    exact ⟨rfl, partAmount_eq_ok hamount⟩

/-- What the parts ask for together is what is asked for the lines assigned. -/
theorem sum_parts {bill : List (Uuid × Money)} {assignment : List (List Uuid)}
    {parts : List SplitPart} (h : List.Forall₂ (PartOf bill) assignment.zipIdx parts) :
    (parts.map (·.amount.minor.val)).sum = (assignment.flatten.map (asked bill)).sum := by
  have hamounts : parts.map (·.amount.minor.val) =
      assignment.map fun lineIds => (lineIds.map (asked bill)).sum := by
    rw [← forall₂_map_eq h fun _ _ h => h.2.symm]
    conv_rhs => rw [← List.zipIdx_map_fst 0 assignment]
    rw [List.map_map]
    rfl
  rw [hamounts, List.map_flatten, List.sum_flatten, List.map_map]
  rfl

/-- **Every line is charged once, to the part it was assigned to, at its own total.** -/
theorem byLines_collects {lines : List SaleLine} {lineTotals : List Money}
    {assignment : List (List Uuid)} {parts : List SplitPart}
    (hactive : ∀ line ∈ lines, line.isActive = true) (hids : (lines.map (·.id)).Nodup)
    (h : byLines lines lineTotals assignment = .ok parts) :
    parts.map (·.lineIds) = assignment ∧
      Collects ((lines.map (·.id)).zip lineTotals) parts := by
  obtain ⟨hlength, hassigned, hcovered, hparts⟩ := byLines_eq_ok hactive h
  generalize hbills : (lines.map (·.id)).zip lineTotals = bill at hcovered hparts ⊢
  have hnodup : (bill.map Prod.fst).Nodup := by
    rw [← hbills, List.map_fst_zip (by rw [List.length_map]; omega)]
    exact hids
  have hlineIds : parts.map (·.lineIds) = assignment := by
    rw [← forall₂_map_eq hparts fun _ _ h => h.1.symm, List.zipIdx_map_fst]
  -- each line is assigned once, so the parts are the bill in another order
  have hflatten : assignment.flatten.Perm (bill.map Prod.fst) :=
    (List.perm_ext_iff_of_nodup hassigned hnodup).mpr hcovered
  refine ⟨hlineIds, ?_, ?_, ?_⟩
  · rw [List.flatMap_def, hlineIds]
    exact hflatten
  · intro part hmem
    obtain ⟨entry, hentry, hids', hamount⟩ := forall₂_mem_right hparts hmem
    have hin : entry.1 ∈ assignment := by
      rw [← List.zipIdx_map_fst 0 assignment]
      exact List.mem_map_of_mem hentry
    have hsub : entry.1.Sublist assignment.flatten := List.sublist_flatten_of_mem hin
    rw [hamount, hids']
    exact sum_asked hnodup (hassigned.sublist hsub) fun lineId hlineId =>
      (hcovered lineId).mp (hsub.subset hlineId)
  · rw [sum_parts hparts, (hflatten.map _).sum_eq, List.map_map]
    exact congrArg List.sum (List.map_congr_left fun entry hentry => asked_of_mem hnodup hentry)

end Sahl
