import Mathlib.Tactic
import Sahl.Core.Allocation
import Sahl.Core.Split
import Sahl.Core.Ringing

/-! # Which splits are answered, and what they come to

    A split by lines is answered where it names every active line once and no part overflows on
    the way to its amount; an even split is within one minor unit. The main result is
    `split_exact`. -/

namespace Sahl

/-! ## Section 1: Assignments that are taken -/

/-- An id is taken where it is on the bill and has not come before. -/
theorem assign_eq_ok {bill : List (Uuid × Money)} {seen seen' : List Uuid} {lineId : Uuid} :
    assign bill seen lineId = .ok seen' ↔
      lineId ∈ bill.map Prod.fst ∧ lineId ∉ seen ∧ seen ++ [lineId] = seen' := by
  have hknown : bill.any (·.1 = lineId) = true ↔ lineId ∈ bill.map Prod.fst := by
    simp only [List.any_eq_true, List.mem_map, decide_eq_true_eq]
  unfold assign
  rw [← hknown]
  by_cases hany : bill.any (·.1 = lineId) = true
  · by_cases hseen : lineId ∈ seen
    · simp [hany, hseen]
    · simp [hany, hseen]
  · simp [hany]

/-- Ids are taken one after the other where each is on the bill and none comes twice. -/
theorem foldlM_assign_iff {bill : List (Uuid × Money)} {lineIds seen seen' : List Uuid}
    (hseen : seen.Nodup) : lineIds.foldlM (assign bill) seen = .ok seen' ↔
      (∀ lineId ∈ lineIds, lineId ∈ bill.map Prod.fst) ∧ (seen ++ lineIds).Nodup ∧
        seen ++ lineIds = seen' := by
  constructor
  · intro h
    obtain ⟨rfl, hnodup, hknown⟩ := foldlM_assign_eq_ok hseen h
    exact ⟨hknown, hnodup, rfl⟩
  · rintro ⟨hknown, hnodup, rfl⟩
    induction lineIds generalizing seen with
    | nil => simp [pure, Except.pure]
    | cons lineId rest ih =>
      obtain ⟨hhead, hrest⟩ := List.forall_mem_cons.mp hknown
      rw [List.append_cons] at hnodup ⊢
      have hgrown := (List.nodup_append'.mp hnodup).1
      have hfresh : lineId ∉ seen := fun hmem =>
        (List.nodup_append'.mp hgrown).2.2 hmem List.mem_cons_self
      exact foldlM_cons_eq_ok.mpr ⟨_, assign_eq_ok.mpr ⟨hhead, hfresh, rfl⟩,
        ih hgrown hrest hnodup⟩

/-! ## Section 2: Parts that come to an amount -/

/-- The totals of the lines under some ids of a bill. -/
def charges (bill : List (Uuid × Money)) (lineIds : List Uuid) : List Money :=
  lineIds.filterMap fun lineId => (bill.find? (·.1 = lineId)).map (·.2)

/-- A part adds up the totals of its lines, in the order they are named. -/
theorem partAmount_isOkay {bill : List (Uuid × Money)} {currency : Currency} {lineIds : List Uuid}
    (hknown : ∀ lineId ∈ lineIds, lineId ∈ bill.map Prod.fst) :
    (partAmount bill currency lineIds).isOkay ↔
      Money.AddsUp currency 0 (charges bill lineIds) := by
  -- the loop of the source, from any amount; a line that is known is always found
  let step (amount : Money) (lineId : Uuid) : Except SplitError Money := do
    let entry ← Except.okOr (bill.find? (·.1 = lineId)) (SplitError.unknownLine lineId)
    (amount.checkedAdd entry.2).mapError SplitError.money
  have hstart : ∀ (start : Money), (lineIds.foldlM step start).isOkay ↔
        ((charges bill lineIds).foldlM Money.checkedAdd start).isOkay := by
    induction lineIds with
    | nil => exact fun _ => ⟨fun _ => rfl, fun _ => rfl⟩
    | cons lineId rest ih =>
      obtain ⟨hhead, hrest⟩ := List.forall_mem_cons.mp hknown
      intro start
      obtain ⟨entry, hentry⟩ : ∃ entry, bill.find? (·.1 = lineId) = some entry := by
        rw [← Option.isSome_iff_exists, List.find?_isSome]
        obtain ⟨entry, hmem, hid⟩ := List.mem_map.mp hhead
        exact ⟨entry, hmem, by simpa using hid⟩
      have hcharges : charges bill (lineId :: rest) = entry.2 :: charges bill rest := by
        rw [charges, List.filterMap_cons, hentry]
        rfl
      rw [hcharges, foldlM_cons_isOkay, foldlM_cons_isOkay]
      refine exists_congr fun next => and_congr ?_ (ih hrest next)
      simp only [step, hentry, Except.okOr, bind, Except.bind, Except.mapError_eq_ok]
  exact (hstart _).trans (Money.foldlM_checkedAdd_isOkay_iff _ _)

/-- The currency a bill is split in. -/
def billCurrency (bill : List (Uuid × Money)) : Currency :=
  bill.head?.elim Currency.bdt (·.2.currency)

/-- A bill split by an assignment of its lines. -/
def splitLines (bill : List (Uuid × Money)) (assignment : List (List Uuid)) :
    Except SplitError (List SplitPart) := do
  let seen ← assignment.flatten.foldlM (assign bill) []
  match bill.find? (·.1 ∉ seen) with
  | some missing => .error (.lineUnassigned missing.1)
  | none =>
    assignment.zipIdx.mapM fun (lineIds, index) => do
      let amount ← partAmount bill (billCurrency bill) lineIds
      .ok { number := partNumber index, amount, lineIds }

/-- Lines that are all active are split as the bill they make with their totals. -/
theorem byLines_eq {lines : List SaleLine} {lineTotals : List Money}
    {assignment : List (List Uuid)} (hactive : ∀ line ∈ lines, line.isActive = true)
    (hlength : lines.length = lineTotals.length) (hassigned : assignment ≠ []) :
    byLines lines lineTotals assignment =
      splitLines ((lines.map (·.id)).zip lineTotals) assignment := by
  have hbill : ((lines.zip lineTotals).filter (·.1.isActive)).map
      (fun entry => (entry.1.id, entry.2)) = (lines.map (·.id)).zip lineTotals := by
    rw [List.filter_eq_self.mpr fun pair hpair => hactive _ (List.of_mem_zip hpair).1,
      List.zip_map_left]
    rfl
  unfold byLines
  rw [if_neg (by simpa using hassigned), if_neg (not_not.mpr hlength)]
  exact congrArg (splitLines · assignment) hbill

/-- The parts of a bill are answered where each of them is. -/
theorem parts_isOkay {bill : List (Uuid × Money)} {assignment : List (List Uuid)} :
    (assignment.zipIdx.mapM fun (lineIds, index) => do
      let amount ← partAmount bill (billCurrency bill) lineIds
      Except.ok { number := partNumber index, amount, lineIds : SplitPart }).isOkay ↔
        ∀ lineIds ∈ assignment, (partAmount bill (billCurrency bill) lineIds).isOkay := by
  rw [mapM_isOkay]
  constructor
  · intro hall lineIds hmem
    rw [← List.zipIdx_map_fst 0 assignment] at hmem
    obtain ⟨entry, hentry, rfl⟩ := List.mem_map.mp hmem
    obtain ⟨amount, hamount, -⟩ := Except.bind_isOkay.mp (hall entry hentry)
    exact Except.isOkay_iff.mpr ⟨amount, hamount⟩
  · intro hall entry hentry
    have hmem : entry.1 ∈ assignment := by
      rw [← List.zipIdx_map_fst 0 assignment]
      exact List.mem_map_of_mem hentry
    obtain ⟨amount, hamount⟩ := Except.isOkay_iff.mp (hall entry.1 hmem)
    exact Except.bind_isOkay.mpr ⟨amount, hamount, rfl⟩

/-- A bill is split where every line of it is assigned once and every part adds up. -/
theorem splitLines_isOkay {bill : List (Uuid × Money)} {assignment : List (List Uuid)}
    (hids : (bill.map Prod.fst).Nodup) : (splitLines bill assignment).isOkay ↔
      assignment.flatten.Perm (bill.map Prod.fst) ∧ ∀ lineIds ∈ assignment,
        Money.AddsUp (billCurrency bill) 0 (charges bill lineIds) := by
  have hparts : ∀ lineIds ∈ assignment, (∀ lineId ∈ assignment.flatten,
      lineId ∈ bill.map Prod.fst) → ((partAmount bill (billCurrency bill) lineIds).isOkay ↔
        Money.AddsUp (billCurrency bill) 0 (charges bill lineIds)) :=
    fun lineIds hmem hknown => partAmount_isOkay fun lineId hlineId =>
      hknown lineId (List.mem_flatten_of_mem hmem hlineId)
  -- the search for a line left out finds none where every line is assigned
  have hnone : bill.find? (·.1 ∉ assignment.flatten) = none ↔
      ∀ lineId ∈ bill.map Prod.fst, lineId ∈ assignment.flatten := by
    simp [List.find?_eq_none]
  rw [splitLines, Except.bind_isOkay]
  constructor
  · intro h
    obtain ⟨seen, hseen, hrest⟩ := h
    obtain ⟨hknown, hnodup, rfl⟩ := (foldlM_assign_iff List.nodup_nil).mp hseen
    rw [List.nil_append] at hnodup hrest
    cases hfind : bill.find? (·.1 ∉ assignment.flatten) with
    | some missing =>
      simp only [hfind] at hrest
      cases hrest
    | none =>
      simp only [hfind] at hrest
      refine ⟨(List.perm_ext_iff_of_nodup hnodup hids).mpr fun lineId =>
        ⟨hknown lineId, hnone.mp hfind lineId⟩, fun lineIds hmem => ?_⟩
      exact (hparts lineIds hmem hknown).mp (parts_isOkay.mp hrest lineIds hmem)
  · intro h
    obtain ⟨hperm, hadds⟩ := h
    have hknown : ∀ lineId ∈ assignment.flatten, lineId ∈ bill.map Prod.fst :=
      fun lineId => hperm.mem_iff.mp
    refine ⟨assignment.flatten, (foldlM_assign_iff List.nodup_nil).mpr
      ⟨hknown, hperm.nodup_iff.mpr hids, rfl⟩, ?_⟩
    simp only [hnone.mpr fun lineId => hperm.mem_iff.mpr]
    exact parts_isOkay.mpr fun lineIds hmem => (hparts lineIds hmem hknown).mpr (hadds lineIds hmem)

/-! ## Section 3: What the parts come to -/

theorem mem_charges {bill : List (Uuid × Money)} {lineIds : List Uuid} {amount : Money}
    (h : amount ∈ charges bill lineIds) : ∃ entry ∈ bill, entry.2 = amount := by
  obtain ⟨lineId, -, hfound⟩ := List.mem_filterMap.mp h
  obtain ⟨entry, hentry, rfl⟩ := Option.map_eq_some_iff.mp hfound
  exact ⟨entry, List.mem_of_find?_eq_some hentry, rfl⟩

theorem sum_charges (bill : List (Uuid × Money)) (lineIds : List Uuid) :
    ((charges bill lineIds).map (·.minor.val)).sum = (lineIds.map (asked bill)).sum := by
  induction lineIds with
  | nil => rfl
  | cons lineId rest ih =>
    rw [List.map_cons, List.sum_cons, ← ih, charges, List.filterMap_cons, asked]
    cases bill.find? (·.1 = lineId) with
    | none => simp [charges]
    | some entry => rfl

/-- Where no line of a bill is below zero, and the bill fits, the parts of it add up. -/
theorem addsUp_of_nonneg {bill : List (Uuid × Money)} {currency : Currency} {lineIds : List Uuid}
    (hids : (bill.map Prod.fst).Nodup) (hlineIds : lineIds.Nodup)
    (hknown : ∀ lineId ∈ lineIds, lineId ∈ bill.map Prod.fst)
    (hcurrency : ∀ entry ∈ bill, entry.2.currency = currency)
    (hpos : ∀ entry ∈ bill, 0 ≤ entry.2.minor.val)
    (hfits : (bill.map (·.2.minor.val)).sum < 9223372036854775808) :
    Money.AddsUp currency 0 (charges bill lineIds) := by
  refine (Money.trySum_isOkay_iff _ _).mp (Except.isOkay_iff.mpr (Money.trySum_isOkay ?_ ?_ ?_))
  · intro amount hamount
    obtain ⟨entry, hentry, rfl⟩ := mem_charges hamount
    exact hcurrency entry hentry
  · intro amount hamount
    obtain ⟨entry, hentry, rfl⟩ := mem_charges hamount
    exact hpos entry hentry
  · rw [sum_charges, sum_asked hids hlineIds hknown]
    exact (sum_filter_le _ hpos).trans_lt hfits

theorem partAmount_currency {bill : List (Uuid × Money)} {currency : Currency}
    {lineIds : List Uuid} {amount : Money} (h : partAmount bill currency lineIds = .ok amount) :
    amount.currency = currency := by
  refine foldlM_invariant (fun _ (acc : Money) => acc.currency = currency) ?_ rfl h
  intro seen acc lineId acc' hacc hstep
  simp only [Except.bind_eq_ok, Except.mapError_eq_ok] at hstep
  obtain ⟨entry, -, hadd⟩ := hstep
  exact (Money.checkedAdd_eq_ok.mp hadd).2.1.trans hacc

/-- The parts of a bill are in its currency. -/
theorem splitLines_currency {bill : List (Uuid × Money)} {assignment : List (List Uuid)}
    {parts : List SplitPart} (h : splitLines bill assignment = .ok parts) :
    ∀ part ∈ parts, part.amount.currency = billCurrency bill := by
  obtain ⟨seen, -, hrest⟩ := Except.bind_eq_ok.mp h
  cases hfind : bill.find? (·.1 ∉ seen) with
  | some missing =>
    simp only [hfind] at hrest
    cases hrest
  | none =>
    simp only [hfind] at hrest
    intro part hmem
    obtain ⟨entry, -, hpart⟩ := forall₂_mem_right (mapM_eq_ok.mp hrest) hmem
    obtain ⟨amount, hamount, hpart⟩ := Except.bind_eq_ok.mp hpart
    cases hpart
    exact partAmount_currency hamount

/-! ## Section 4: Even parts -/

/-- A total divided into so many parts, no two of them more than one minor unit apart. -/
structure EvenSplit (total : Money) (ways : U32) (parts : List SplitPart) : Prop where
  length : parts.length = ways.val
  sum : total.IsSum (parts.map (·.amount))
  near : ∀ part ∈ parts, ∀ part' ∈ parts, |part.amount.minor.val - part'.amount.minor.val| ≤ 1

/-- Rounded up is rounded down, or one more. -/
theorem div_up_near (n : Nat) {k : Nat} (hk : 0 < k) :
    n / k ≤ (n + (k - 1)) / k ∧ (n + (k - 1)) / k ≤ n / k + 1 := by
  refine ⟨Nat.div_le_div_right (by omega), ?_⟩
  rw [← Nat.add_div_right _ hk]
  exact Nat.div_le_div_right (by omega)

/-- Over weights of one, every share is the same quotient, rounded down or up, with the sign of
    the total. -/
theorem share_even {total : Money} {ways : Nat} {shares : List Money}
    (hfair : total.FairSplit (List.replicate ways 1) shares) {share : Money}
    (hshare : share ∈ shares) :
    (share.minor.val.natAbs = total.minor.val.natAbs / ways ∨
      share.minor.val.natAbs = (total.minor.val.natAbs + (ways - 1)) / ways) ∧
    if total.minor.val < 0 then share.minor.val ≤ 0 else 0 ≤ share.minor.val := by
  obtain ⟨i, hi, rfl⟩ := List.mem_iff_getElem.mp hshare
  have hweight : (List.replicate ways (1 : U64))[i]? = some 1 := by
    rw [hfair.length, List.length_replicate] at hi
    simp [hi]
  have hrounded := hfair.rounded i 1 _ hweight (List.getElem?_eq_getElem hi)
  have htotal : ((List.replicate ways (1 : U64)).map (·.val)).sum = ways := by simp
  simp only [htotal] at hrounded
  exact ⟨by simpa using hrounded, hfair.sign _ hshare⟩

theorem evenly_even {total : Money} {ways : U32} {parts : List SplitPart}
    (h : evenly total ways = .ok parts) : EvenSplit total ways parts := by
  unfold evenly at h
  split at h
  · cases h
  obtain ⟨shares, hshares, h⟩ := Except.bind_eq_ok.mp h
  have hparts := Except.ok.inj h
  obtain ⟨hweights, -, hsigned⟩ := Money.allocate_eq_ok_iff.mp hshares
  have hfair := Money.fairSplit hweights.1 hsigned
  have hamounts : parts.map (·.amount) = shares := by
    rw [← hparts, List.map_map]
    exact List.zipIdx_map_fst 0 shares
  have hpositive : 0 < ways.val := by
    have hsum := hweights.1
    simpa using hsum
  refine ⟨?_, by rw [hamounts]; exact hfair.sum, ?_⟩
  · rw [← hparts, List.length_map, List.length_zipIdx, hfair.length, List.length_replicate]
  · intro part hpart part' hpart'
    have hmem : part.amount ∈ shares := by
      rw [← hamounts]
      exact List.mem_map_of_mem hpart
    have hmem' : part'.amount ∈ shares := by
      rw [← hamounts]
      exact List.mem_map_of_mem hpart'
    obtain ⟨hvalue, hsign⟩ := share_even hfair hmem
    obtain ⟨hvalue', hsign'⟩ := share_even hfair hmem'
    obtain ⟨hdown, hup⟩ := div_up_near total.minor.val.natAbs hpositive
    -- shares of one sign differ as their magnitudes do
    rw [abs_le]
    by_cases hnegative : total.minor.val < 0
    · rw [if_pos hnegative] at hsign hsign'
      omega
    · rw [if_neg hnegative] at hsign hsign'
      omega

/-! ## Section 5: A sale split -/

namespace Sale

/-- The active lines of a sale with their totals. -/
def bill (sale : Sale) (totals : OrderTotals) : List (Uuid × Money) :=
  (sale.activeLines.map (·.id)).zip (totals.lines.map (·.total))

/-- A sale split by its lines: every part comes to the totals of its own lines, and all of them
    to the total of the order. -/
structure SplitInto (sale : Sale) (totals : OrderTotals) (assignment : List (List Uuid))
    (parts : List SplitPart) : Prop where
  lineIds : parts.map (·.lineIds) = assignment
  part : ∀ part ∈ parts,
    part.amount.IsSum (((sale.bill totals).filter (·.1 ∈ part.lineIds)).map (·.2))
  total : totals.total.IsSum (parts.map (·.amount))

variable {sale : Sale} {totals : OrderTotals}

theorem bill_ids (h : sale.totals = .ok totals) :
    (sale.bill totals).map Prod.fst = sale.activeLines.map (·.id) :=
  List.map_fst_zip (by rw [List.length_map, List.length_map, totals_length h])

theorem bill_totals (h : sale.totals = .ok totals) :
    (sale.bill totals).map Prod.snd = totals.lines.map (·.total) :=
  List.map_snd_zip (by rw [List.length_map, List.length_map, totals_length h])

/-- A calculated bill has lines, is in the currency of its total, and comes to it. -/
theorem bill_sum (h : sale.totals = .ok totals) :
    billCurrency (sale.bill totals) = totals.total.currency ∧
      (∀ entry ∈ sale.bill totals, entry.2.currency = totals.total.currency) ∧
      totals.total.minor.val = ((sale.bill totals).map (·.2.minor.val)).sum := by
  obtain ⟨_, _, hcalculate⟩ := totals_eq_ok h
  have hsum := (exact_of_calculate hcalculate).total
  rw [← bill_totals h, Money.isSum_map] at hsum
  refine ⟨?_, hsum⟩
  cases hbill : sale.bill totals with
  | nil =>
    have hnone := bill_totals h
    rw [hbill, List.map_nil, eq_comm, List.map_eq_nil_iff] at hnone
    exact absurd hnone (calculate_lines_ne_nil hcalculate)
  | cons entry rest =>
    rw [hbill] at hsum
    exact hsum.1 entry List.mem_cons_self

theorem bill_addsUp (hids : (sale.activeLines.map (·.id)).Nodup) (h : sale.totals = .ok totals)
    (hpos : ∀ line ∈ totals.lines, 0 ≤ line.total.minor.val) {assignment : List (List Uuid)}
    (hperm : assignment.flatten.Perm (sale.activeLines.map (·.id))) :
    ∀ lineIds ∈ assignment,
      Money.AddsUp totals.total.currency 0 (charges (sale.bill totals) lineIds) := by
  intro lineIds hmem
  obtain ⟨-, hcurrency, hsum⟩ := bill_sum h
  have hsub : lineIds.Sublist assignment.flatten := List.sublist_flatten_of_mem hmem
  rw [← bill_ids h] at hids hperm
  refine addsUp_of_nonneg hids ((hperm.nodup_iff.mpr hids).sublist hsub)
    (fun lineId hlineId => hperm.mem_iff.mp (hsub.subset hlineId)) hcurrency ?_ ?_
  · intro entry hentry
    have hmem' := List.mem_map_of_mem (f := Prod.snd) hentry
    rw [bill_totals h] at hmem'
    obtain ⟨line, hline, hsame⟩ := List.mem_map.mp hmem'
    rw [← hsame]
    exact hpos line hline
  · rw [← hsum]
    exact totals.total.minor.hi'

theorem byLines_bill (h : sale.totals = .ok totals) {assignment : List (List Uuid)}
    (hassigned : assignment ≠ []) :
    byLines sale.activeLines (totals.lines.map (·.total)) assignment =
      splitLines (sale.bill totals) assignment :=
  byLines_eq (fun _ hline => (List.mem_filter.mp hline).2)
    (by rw [List.length_map, totals_length h]) hassigned

/-- Nobody is asked for a bill with no part. -/
theorem assigned_of_perm (h : sale.totals = .ok totals) {assignment : List (List Uuid)}
    (hperm : assignment.flatten.Perm (sale.activeLines.map (·.id))) : assignment ≠ [] := by
  rintro rfl
  obtain ⟨_, _, hcalculate⟩ := totals_eq_ok h
  have hnone := List.map_eq_nil_iff.mp (List.nil_perm.mp hperm)
  have hlength := totals_length h
  rw [hnone, List.length_nil, eq_comm, List.length_eq_zero_iff] at hlength
  exact calculate_lines_ne_nil hcalculate hlength

theorem byLines_splitInto (hids : (sale.activeLines.map (·.id)).Nodup)
    (h : sale.totals = .ok totals) {assignment : List (List Uuid)} {parts : List SplitPart}
    (hparts : byLines sale.activeLines (totals.lines.map (·.total)) assignment = .ok parts) :
    sale.SplitInto totals assignment parts := by
  obtain ⟨hlineIds, hcollects⟩ :=
    byLines_collects (fun _ hline => (List.mem_filter.mp hline).2) hids hparts
  obtain ⟨hbill, hcurrency, hsum⟩ := bill_sum h
  have hassigned : assignment ≠ [] := by
    rintro rfl
    cases hparts
  rw [byLines_bill h hassigned] at hparts
  have hamounts := splitLines_currency hparts
  rw [hbill] at hamounts
  refine ⟨hlineIds, ?_, ?_⟩
  · intro part hmem
    refine Money.isSum_map.mpr ⟨fun entry hentry => ?_, hcollects.part part hmem⟩
    rw [hamounts part hmem]
    exact hcurrency entry (List.mem_filter.mp hentry).1
  · refine Money.isSum_map.mpr ⟨hamounts, ?_⟩
    rw [hsum]
    exact hcollects.total.symm

/-- **A bill is split exactly**: by lines, where every active line is named once and no other is,
    and no part leaves the range on the way to its amount; and evenly, to within a minor unit. -/
theorem split_exact (hdistinct : sale.LinesDistinct) (h : sale.totals = .ok totals) :
    (∀ assignment, (byLines sale.activeLines (totals.lines.map (·.total)) assignment).isOkay ↔
      assignment.flatten.Perm (sale.activeLines.map (·.id)) ∧ ∀ lineIds ∈ assignment,
        Money.AddsUp totals.total.currency 0 (charges (sale.bill totals) lineIds)) ∧
    ((∀ line ∈ totals.lines, 0 ≤ line.total.minor.val) → ∀ assignment,
      (byLines sale.activeLines (totals.lines.map (·.total)) assignment).isOkay ↔
        assignment.flatten.Perm (sale.activeLines.map (·.id))) ∧
    (∀ assignment parts,
      byLines sale.activeLines (totals.lines.map (·.total)) assignment = .ok parts →
        sale.SplitInto totals assignment parts) ∧
    ∀ total ways parts, evenly total ways = .ok parts → EvenSplit total ways parts := by
  have hids : (sale.activeLines.map (·.id)).Nodup :=
    hdistinct.sublist (List.filter_sublist.map _)
  have hokay : ∀ assignment,
      (byLines sale.activeLines (totals.lines.map (·.total)) assignment).isOkay ↔
        assignment.flatten.Perm (sale.activeLines.map (·.id)) ∧ ∀ lineIds ∈ assignment,
          Money.AddsUp totals.total.currency 0 (charges (sale.bill totals) lineIds) := by
    intro assignment
    -- the code refuses an empty assignment before it looks at the bill
    by_cases hassigned : assignment = []
    · subst hassigned
      exact ⟨nofun, fun hperm => absurd rfl (assigned_of_perm h hperm.1)⟩
    · have hbill := bill_ids h
      rw [byLines_bill h hassigned, splitLines_isOkay (by rwa [hbill]), hbill, (bill_sum h).1]
  refine ⟨hokay, fun hpos assignment => ?_, fun _ _ => byLines_splitInto hids h,
    fun _ _ _ => evenly_even⟩
  rw [hokay assignment]
  exact and_iff_left_of_imp fun hperm => bill_addsUp hids h hpos hperm

/-! ### Three lines in two parts -/

/-- A ticket with a great amount rung up twice, and taken off in between. -/
def greatTicket : List SaleEvent :=
  [.opened 1 9 .bdt .taxInclusive .halfUp,
   .lineAdded 1 10 100 "Gold" ⟨I64.lit 4611686018427387904, .bdt⟩ Quantity.one .exempt [],
   .lineAdded 1 11 100 "Gold" ⟨I64.lit 4611686018427387904, .bdt⟩ ⟨I64.lit (-1000)⟩ .exempt [],
   .lineAdded 1 12 100 "Gold" ⟨I64.lit 4611686018427387904, .bdt⟩ Quantity.one .exempt []]

theorem split_exact_twoLines :
    ∃ totals parts, (replayed (twoLineTicket [])).totals = .ok totals ∧
      byLines (replayed (twoLineTicket [])).activeLines (totals.lines.map (·.total)) [[11], [10]] =
        .ok parts ∧
      (replayed (twoLineTicket [])).SplitInto totals [[11], [10]] parts := by
  obtain ⟨totals, htotals⟩ := Except.isOkay_iff.mp
    (show ((replayed (twoLineTicket [])).totals).isOkay = true by decide +kernel)
  have hdistinct : ((replayed (twoLineTicket [])).lines.map (·.id)).Nodup := by decide
  obtain ⟨-, hpositive, hsplit, -⟩ := split_exact hdistinct htotals
  have hlines : (replayed (twoLineTicket [])).totals.toOption.all (fun totals =>
      ∀ line ∈ totals.lines, 0 ≤ line.total.minor.val) = true := by decide +kernel
  rw [htotals] at hlines
  obtain ⟨parts, hparts⟩ := Except.isOkay_iff.mp
    ((hpositive (of_decide_eq_true hlines) [[11], [10]]).mpr (by decide))
  exact ⟨totals, parts, htotals, hparts, hsplit _ _ hparts⟩

/-- The two great amounts are on one bill, and are too much for one part of it. -/
theorem greatTicket_overflows : ¬ ∀ (events : List SaleEvent) (sale : Sale) (totals : OrderTotals)
    (assignment : List (List Uuid)), replay events = .ok sale → sale.LinesDistinct →
      sale.totals = .ok totals →
        ((byLines sale.activeLines (totals.lines.map (·.total)) assignment).isOkay ↔
          assignment.flatten.Perm (sale.activeLines.map (·.id))) := by
  intro hclaim
  obtain ⟨sale, hsale⟩ := Except.isOkay_iff.mp
    (show (replay greatTicket).isOkay = true by decide +kernel)
  have hrefused : (replay greatTicket).toOption.all (fun sale => sale.totals.toOption.any
      (fun totals => (byLines sale.activeLines (totals.lines.map (·.total))
        [[10, 12], [11]]).isOkay = false) ∧ (sale.lines.map (·.id)).Nodup ∧
          [[10, 12], [11]].flatten.Perm (sale.activeLines.map (·.id))) = true := by
    decide +kernel
  rw [hsale] at hrefused
  obtain ⟨hoverflow, hdistinct, hperm⟩ := of_decide_eq_true hrefused
  obtain ⟨totals, htotals, hnone⟩ := (Option.any_eq_true _ _).mp hoverflow
  rw [(hclaim greatTicket sale totals _ hsale hdistinct
    (Except.toOption_eq_some.mp htotals)).mpr hperm] at hnone
  cases hnone

end Sale

end Sahl
