import Mathlib.Tactic
import Mathlib.Data.Rat.Cast.Order
import Sahl.Lib.Decimal
import Sahl.Lib.Keyed
import Sahl.Core.Audit
import Sahl.Core.Day
import Sahl.Core.Discounts
import Sahl.Core.Figures
import Sahl.Core.Settled

/-! # Standing out

    Someone who discounts or voids at a much higher rate than everyone else is worth asking about.
    Rates are compared by multiplying across, with saturating figures. Voided lines are a part of
    the lines, and the comparison is exact; a gross may be negative where goods were returned, and
    then it is exact where no sign is turned (`outliers_exact_iff`). -/

namespace Sahl

/-! ## Section 1: Findings -/

inductive Subject where
  | person (staffId : Uuid)
  | outlet
  deriving DecidableEq

/-- One thing worth an owner's attention. -/
structure Finding where
  kind : String
  severity : Severity
  subject : Subject
  count : Nat
  amount : Option Money
  summary : String
  deriving DecidableEq

/-- How readily the scan speaks up about rates. -/
structure Sensitivity where
  minimumSales : Nat
  outlierMultiple : U32

namespace Anomaly

/-- A share of something: `part` out of `gross`, across `sales` sales. -/
@[ext] structure Tally where
  part : I64
  gross : I64
  sales : Nat

/-- What one sale adds to a tally. -/
structure Figures where
  gross : I64
  part : I64

namespace Tally

def zero : Tally := ⟨0, 0, 0⟩

def add (tally : Tally) (figures : Figures) : Tally where
  gross := tally.gross.saturatingAdd figures.gross
  part := tally.part.saturatingAdd figures.part
  sales := tally.sales + 1

/-- This tally's contribution removed, leaving everyone else's. -/
def without (tally person : Tally) : Tally where
  part := tally.part.saturatingSub person.part
  gross := tally.gross.saturatingSub person.gross
  sales := tally.sales - person.sales

end Tally

/-- An `i64` as an `i128`. -/
def wide (n : I64) : I128 :=
  ⟨n.val, le_trans (by norm_num) n.lo', lt_trans n.hi' (by norm_num)⟩

/-- A `u32` as an `i128`. -/
def wideU32 (n : U32) : I128 :=
  ⟨n.val, le_trans (by norm_num) (Int.natCast_nonneg _),
    lt_trans (Int.ofNat_lt.mpr n.isLt) (by norm_num)⟩

/-- Whether `person`'s rate exceeds `multiple` times everyone else's, multiplied across. -/
def standsOut (person others : Tally) (multiple : U32) : Bool :=
  if others.gross.val = 0 ∨ others.part.val = 0 then 0 < person.part.val
  else
    let left := (wide person.part).saturatingMul (wide others.gross)
    let right := ((wide others.part).saturatingMul (wide person.gross)).saturatingMul
      (wideU32 multiple)
    right.val < left.val

/-- The tally of each person, and the outlet's. -/
def tallies (entries : List (Uuid × Figures)) : UuidMap Tally × Tally :=
  (entries.foldl (fun (perPerson : UuidMap Tally) entry =>
    perPerson.insert entry.1 ((perPerson.getD entry.1 .zero).add entry.2)) ∅,
   entries.foldl (fun outlet entry => outlet.add entry.2) .zero)

/-- What is raised of a person, if anything. -/
def raised (describe : Uuid → Tally → Finding) (sensitivity : Sensitivity) (outlet : Tally)
    (person : Uuid) (tally : Tally) : Option Finding :=
  if tally.sales < sensitivity.minimumSales ∨ tally.part.val = 0 ∨ tally.gross.val = 0 then none
  else if standsOut tally (outlet.without tally) sensitivity.outlierMultiple then
    some (describe person tally)
  else none

/-- What is read of each sale, under the person who opened it. A sale that nothing is read of is
    passed over. -/
def entriesOf (read : Sale → Option Figures) (sales : List Sale) : List (Uuid × Figures) :=
  sales.filterMap fun sale => (read sale).map fun figures => (sale.openedBy, figures)

/-- People whose rate stands out, by what is read of a sale and what is said of a person. -/
def rateOutliers (read : Sale → Option Figures) (describe : Uuid → Tally → Finding)
    (sensitivity : Sensitivity) (sales : List Sale) : List Finding :=
  let found := tallies (entriesOf read sales)
  found.1.toList.filterMap fun entry => raised describe sensitivity found.2 entry.1 entry.2

def plural (count : Nat) : String := if count = 1 then "" else "s"

/-- The money a sale took and what was discounted off it; a sale without totals has neither. -/
def discountFigures (sale : Sale) : Option Figures :=
  match sale.totals with
  | .error _ => none
  | .ok totals => some ⟨totals.gross.minor, totals.discount.minor⟩

def discountFinding (currency : Currency) (multiple : U32) (person : Uuid) (tally : Tally) :
    Finding where
  kind := "discount_rate_outlier"
  severity := .notable
  subject := .person person
  count := tally.sales
  amount := some ⟨tally.part, currency⟩
  summary := "Discounted more than " ++ String.ofList (Decimal.digits multiple.val) ++
    "× what everyone else did, across " ++ String.ofList (Decimal.digits tally.sales) ++ " sales"

/-- Someone discounting a much larger share of their takings than everyone else does. -/
def discountOutliers (currency : Currency) (sensitivity : Sensitivity) (sales : List Sale) :
    List Finding :=
  rateOutliers discountFigures (discountFinding currency sensitivity.outlierMultiple) sensitivity
    sales

/-- A length as an `i64`. -/
def lengthFigure (n : Nat) : I64 :=
  (SInt.ofInt? n).getD ⟨9223372036854775807, by norm_num, by norm_num⟩

/-- The lines of a sale and those that were voided. -/
def voidFigures (sale : Sale) : Option Figures :=
  some ⟨lengthFigure sale.lines.length, lengthFigure sale.voidCount⟩

def voidFinding (multiple : U32) (person : Uuid) (tally : Tally) : Finding where
  kind := "void_rate_outlier"
  severity := .notable
  subject := .person person
  count := tally.part.val.toNat
  amount := none
  summary := "Voided " ++ String.ofList (Decimal.render 0 tally.part.val) ++ " line" ++
    plural tally.part.val.toNat ++ " out of " ++
    String.ofList (Decimal.render 0 tally.gross.val) ++ " — more than " ++
    String.ofList (Decimal.digits multiple.val) ++ "× what everyone else did"

/-- Someone voiding lines far more often than everyone else. -/
def voidOutliers (sensitivity : Sensitivity) (sales : List Sale) : List Finding :=
  rateOutliers voidFigures (voidFinding sensitivity.outlierMultiple) sensitivity sales

/-! ## Section 2: Multiplying across -/

/-- Two figures multiplied are far within an `i128`. -/
theorem abs_mul_le (a b : I64) : |a.val * b.val| ≤ 9223372036854775808 * 9223372036854775808 := by
  have ha : |a.val| ≤ 9223372036854775808 := abs_le.mpr ⟨a.lo', a.hi'.le⟩
  have hb : |b.val| ≤ 9223372036854775808 := abs_le.mpr ⟨b.lo', b.hi'.le⟩
  rw [abs_mul]
  exact mul_le_mul ha hb (abs_nonneg _) (by norm_num)

theorem wide_mul (a b : I64) : ((wide a).saturatingMul (wide b)).val = a.val * b.val := by
  obtain ⟨hlow, hhigh⟩ := abs_le.mp (abs_mul_le a b)
  unfold SInt.saturatingMul wide
  rw [dif_pos (by norm_num; constructor <;> linarith)]

/-- A product is held at an end of the range only where that end compares as it does. -/
theorem saturatingMul_lt_iff {w : Nat} {a b c : SInt w} (h : -2 ^ (w - 1) < a.val) :
    (b.saturatingMul c).val < a.val ↔ b.val * c.val < a.val := by
  have hhigh := a.hi
  unfold SInt.saturatingMul
  split
  · exact Iff.rfl
  · rename_i hout
    split
    · show -2 ^ (w - 1) < a.val ↔ _
      constructor
      · intro _
        by_contra hle
        exact hout ⟨by linarith, by linarith⟩
      · exact fun _ => h
    · show (2 : Int) ^ (w - 1) - 1 < a.val ↔ _
      constructor
      · intro hlt
        linarith [Int.add_one_le_iff.mpr hlt]
      · intro hlt
        exact absurd ⟨by linarith [pow_pos (show (0 : Int) < 2 by norm_num) (w - 1)],
          hlt.trans hhigh⟩ hout

theorem standsOut_iff {person others : Tally} {multiple : U32} :
    standsOut person others multiple = true ↔
      if others.gross.val = 0 ∨ others.part.val = 0 then 0 < person.part.val
      else others.part.val * person.gross.val * multiple.val <
        person.part.val * others.gross.val := by
  unfold standsOut
  by_cases hnone : others.gross.val = 0 ∨ others.part.val = 0
  · rw [if_pos hnone, if_pos hnone, decide_eq_true_iff]
  · have hlow : -2 ^ (128 - 1) < ((wide person.part).saturatingMul (wide others.gross)).val := by
      rw [wide_mul]
      have hbound := (abs_le.mp (abs_mul_le person.part others.gross)).1
      norm_num
      linarith
    rw [if_neg hnone, if_neg hnone, decide_eq_true_iff, saturatingMul_lt_iff hlow, wide_mul,
      wide_mul]
    rfl

/-! ## Section 3: Rates -/

/-- What one sale adds to a rate. -/
structure Share where
  gross : Int
  part : Int
  deriving DecidableEq

/-- A person's figures beside those of everyone else taken together. -/
structure Standing where
  sales : Nat
  gross : Int
  part : Int
  othersGross : Int
  othersPart : Int

namespace Standing

/-- Enough sales, something to ask about, and a rate that is more than the multiple of everyone
    else's, or nobody else who has any. -/
def Outlier (standing : Standing) (sensitivity : Sensitivity) : Prop :=
  sensitivity.minimumSales ≤ standing.sales ∧ standing.part ≠ 0 ∧
    (standing.othersGross = 0 ∨ standing.othersPart = 0 ∨ standing.gross ≠ 0 ∧
      (sensitivity.outlierMultiple.val : ℚ) * (standing.othersPart / standing.othersGross) <
        standing.part / standing.gross)

/-- What the scan asks for. -/
def Raised (standing : Standing) (sensitivity : Sensitivity) : Prop :=
  sensitivity.minimumSales ≤ standing.sales ∧ standing.part ≠ 0 ∧ standing.gross ≠ 0 ∧
    if standing.othersGross = 0 ∨ standing.othersPart = 0 then 0 < standing.part
    else standing.othersPart * standing.gross * sensitivity.outlierMultiple.val <
      standing.part * standing.othersGross

/-- The gross is there to be a share of where nobody else has any, and otherwise has the sign of
    everyone else's if it has one. -/
def Comparable (standing : Standing) : Prop :=
  if standing.othersGross = 0 ∨ standing.othersPart = 0 then standing.gross ≠ 0
  else 0 ≤ standing.gross * standing.othersGross

/-- A rate is higher if and only if it is multiplied across, where the product of the grosses is
    positive; where it is negative the comparison turns round. -/
theorem rate_lt_iff {part gross othersPart othersGross : Int} {k : Nat} (hgross : gross ≠ 0)
    (hothers : othersGross ≠ 0) :
    ((k : ℚ) * (othersPart / othersGross) < part / gross ↔
      0 < (part * othersGross - othersPart * gross * k) * (gross * othersGross)) := by
  have hg : (gross : ℚ) ≠ 0 := Int.cast_ne_zero.mpr hgross
  have ho : (othersGross : ℚ) ≠ 0 := Int.cast_ne_zero.mpr hothers
  have hdiff : (part : ℚ) / gross - k * (othersPart / othersGross) =
      (part * othersGross - othersPart * gross * k) * (gross * othersGross) /
        (gross * othersGross) ^ 2 := by
    field_simp
  rw [← sub_pos, hdiff, div_pos_iff_of_pos_right (by positivity)]
  exact_mod_cast Iff.rfl

theorem raised_iff_outlier {standing : Standing} {sensitivity : Sensitivity}
    (hpart : 0 ≤ standing.part) (hothers : 0 ≤ standing.othersPart) :
    (standing.Raised sensitivity ↔ standing.Outlier sensitivity) ↔
      (sensitivity.minimumSales ≤ standing.sales → standing.part ≠ 0 → standing.Comparable) := by
  obtain ⟨sales, gross, part, othersGross, othersPart⟩ := standing
  unfold Raised Outlier Comparable
  simp only at *
  by_cases hsales : sensitivity.minimumSales ≤ sales
  swap
  · simp [hsales]
  by_cases hzero : part = 0
  · simp [hzero]
  have hpositive : 0 < part := by omega
  simp only [hsales, hzero, ne_eq, not_false_eq_true, true_and, forall_const]
  by_cases hnone : othersGross = 0 ∨ othersPart = 0
  · -- nobody else has any
    rw [if_pos hnone, if_pos hnone]
    rcases hnone with h | h <;> simp [h, hpositive]
  · rw [if_neg hnone, if_neg hnone]
    obtain ⟨hg, hp⟩ := not_or.mp hnone
    simp only [hg, hp, false_or]
    by_cases hgross : gross = 0
    · simp [hgross]
    simp only [hgross, not_false_eq_true, true_and, rate_lt_iff hgross hg]
    rw [← sub_pos]
    have hk : 0 ≤ (sensitivity.outlierMultiple.val : Int) := Int.natCast_nonneg _
    rcases lt_trichotomy (gross * othersGross) 0 with hneg | hzero | hpos
    · -- the two products differ in sign, and so do the two comparisons
      refine iff_of_false (fun hiff => ?_) (not_le.mpr hneg)
      rcases mul_neg_iff.mp hneg with ⟨hgpos, honeg⟩ | ⟨hgneg, hopos⟩
      · have hleft : part * othersGross < 0 := mul_neg_of_pos_of_neg hpositive honeg
        have hright : 0 ≤ othersPart * gross * sensitivity.outlierMultiple.val :=
          mul_nonneg (mul_nonneg hothers hgpos.le) hk
        have hpast := hiff.mpr (mul_pos_of_neg_of_neg (by linarith) hneg)
        linarith
      · have hleft : 0 < part * othersGross := mul_pos hpositive hopos
        have hright : othersPart * gross * sensitivity.outlierMultiple.val ≤ 0 :=
          mul_nonpos_of_nonpos_of_nonneg (mul_nonpos_of_nonneg_of_nonpos hothers hgneg.le) hk
        have hpast := hiff.mp (by linarith)
        exact absurd hpast (not_lt.mpr (mul_nonpos_of_nonneg_of_nonpos (by linarith) hneg.le))
    · exact absurd hzero (mul_ne_zero hgross hg)
    · exact iff_of_true (mul_pos_iff_of_pos_right hpos).symm hpos.le

end Standing

/-! ## Section 4: What the tallies come to -/

def Figures.share (figures : Figures) : Share := ⟨figures.gross.val, figures.part.val⟩

/-- Sums over some of the sales, whichever they are, stay within an `i64`. -/
def SumsWithin (shares : List (Uuid × Share)) : Prop :=
  ∀ chosen : List (Uuid × Share), chosen.Subperm shares →
    I64.Fits (chosen.map (·.2.gross)).sum ∧ I64.Fits (chosen.map (·.2.part)).sum

/-- Where a person stands among everyone's shares. -/
def standingOf (shares : List (Uuid × Share)) (person : Uuid) : Standing where
  sales := (shares.filter (·.1 = person)).length
  gross := ((shares.filter (·.1 = person)).map (·.2.gross)).sum
  part := ((shares.filter (·.1 = person)).map (·.2.part)).sum
  othersGross := ((shares.filter (¬ ·.1 = person)).map (·.2.gross)).sum
  othersPart := ((shares.filter (¬ ·.1 = person)).map (·.2.part)).sum

def sharesOf (entries : List (Uuid × Figures)) : List (Uuid × Share) :=
  entries.map fun entry => (entry.1, entry.2.share)

variable {entries entries' chosen : List (Uuid × Figures)} {person : Uuid}

/-- A tally of some of the sales. -/
def tallyOf (entries : List (Uuid × Figures)) : Tally :=
  entries.foldl (fun tally entry => tally.add entry.2) .zero

theorem tallyOf_eq (entries : List (Uuid × Figures)) : tallyOf entries =
    ⟨(entries.map (·.2.part)).foldl SInt.saturatingAdd 0,
      (entries.map (·.2.gross)).foldl SInt.saturatingAdd 0, entries.length⟩ := by
  induction entries using List.reverseRecOn with
  | nil => rfl
  | append_singleton seen entry ih =>
    rw [tallyOf, List.foldl_append, List.foldl_cons, List.foldl_nil, ← tallyOf, ih]
    simp [Tally.add]

/-- A tally of some of the sales is their sums. -/
theorem tallyOf_val (h : SumsWithin (sharesOf entries)) (hchosen : chosen.Subperm entries) :
    (tallyOf chosen).part.val = (chosen.map (·.2.part.val)).sum ∧
      (tallyOf chosen).gross.val = (chosen.map (·.2.gross.val)).sum := by
  -- every partial sum is one of chosen sales, and those fit
  have hfits : ∀ seen, seen <+: chosen → I64.Fits ((seen.map (·.2.gross.val)).sum) ∧
      I64.Fits ((seen.map (·.2.part.val)).sum) := by
    intro seen hseen
    obtain ⟨ordered, hperm, hsublist⟩ := hseen.sublist.subperm.trans hchosen
    have hsub := h (sharesOf seen) ⟨sharesOf ordered, hperm.map _, hsublist.map _⟩
    simp only [sharesOf, List.map_map] at hsub
    exact hsub
  have hfull : ∀ f : Figures → I64, (∀ seen, seen <+: chosen →
      I64.Fits ((seen.map fun entry => (f entry.2).val).sum)) →
        I64.NeverFull (chosen.map fun entry => f entry.2) := by
    intro f hf seen hseen
    obtain ⟨seen', hseen', rfl⟩ := List.prefix_map_iff.mp hseen
    rw [List.map_map]
    exact hf seen' hseen'
  rw [tallyOf_eq]
  constructor
  · show ((chosen.map (·.2.part)).foldl SInt.saturatingAdd 0).val = _
    rw [I64.foldl_saturatingAdd_val (hfull Figures.part fun seen hseen => (hfits seen hseen).2),
      List.map_map]
    rfl
  · show ((chosen.map (·.2.gross)).foldl SInt.saturatingAdd 0).val = _
    rw [I64.foldl_saturatingAdd_val (hfull Figures.gross fun seen hseen => (hfits seen hseen).1),
      List.map_map]
    rfl

theorem tallyOf_perm (h : SumsWithin (sharesOf entries)) (hchosen : chosen.Subperm entries)
    {other : List (Uuid × Figures)} (hperm : other.Perm chosen) :
    tallyOf other = tallyOf chosen := by
  obtain ⟨hpart, hgross⟩ := tallyOf_val h hchosen
  obtain ⟨hpart', hgross'⟩ := tallyOf_val h (hperm.subperm.trans hchosen)
  refine Tally.ext (SInt.ext ?_) (SInt.ext ?_) ?_
  · rw [hpart, hpart', (hperm.map _).sum_eq]
  · rw [hgross, hgross', (hperm.map _).sum_eq]
  · rw [tallyOf_eq, tallyOf_eq]
    exact hperm.length_eq

/-- The tally of a person who has sales is that of their sales. -/
theorem tallies_person (entries : List (Uuid × Figures)) (person : Uuid) :
    (tallies entries).1[person]? =
      if entries.filter (·.1 = person) = [] then none
      else some (tallyOf (entries.filter (·.1 = person))) :=
  Posting.getElem?_foldl_insert (·.1 : Uuid × Figures → Uuid) Tally.zero
    (fun tally entry => tally.add entry.2) entries person

/-- The tallies do not depend on the order of the sales. -/
theorem tallies_perm (h : SumsWithin (sharesOf entries)) (hperm : entries'.Perm entries) :
    tallies entries' = tallies entries := by
  refine Prod.ext (Std.ExtTreeMap.ext_getElem? fun person => ?_) ?_
  · have hfilter := hperm.filter fun entry : Uuid × Figures => decide (entry.1 = person)
    rw [tallies_person, tallies_person,
      tallyOf_perm h List.filter_sublist.subperm hfilter]
    simp only [← List.length_eq_zero_iff, hfilter.length_eq]
  · exact tallyOf_perm h (List.Subperm.refl _) hperm

/-! ## Section 5: Who is found -/

section Found

variable {read : Sale → Option Figures} {describe : Uuid → Tally → Finding}
  {sensitivity : Sensitivity} {sales sales' : List Sale}

theorem standingOf_sharesOf (entries : List (Uuid × Figures)) (person : Uuid) :
    standingOf (sharesOf entries) person =
      ⟨(entries.filter (·.1 = person)).length,
        ((entries.filter (·.1 = person)).map (·.2.gross.val)).sum,
        ((entries.filter (·.1 = person)).map (·.2.part.val)).sum,
        ((entries.filter (¬ ·.1 = person)).map (·.2.gross.val)).sum,
        ((entries.filter (¬ ·.1 = person)).map (·.2.part.val)).sum⟩ := by
  simp only [standingOf, sharesOf, List.filter_map, List.map_map, List.length_map]
  rfl

/-- What is left of the outlet's tally without a person's is everyone else's sums. -/
theorem without_val (h : SumsWithin (sharesOf entries)) (person : Uuid) :
    ((tallyOf entries).without (tallyOf (entries.filter (·.1 = person)))).part.val =
        ((entries.filter (¬ ·.1 = person)).map (·.2.part.val)).sum ∧
      ((tallyOf entries).without (tallyOf (entries.filter (·.1 = person)))).gross.val =
        ((entries.filter (¬ ·.1 = person)).map (·.2.gross.val)).sum := by
  obtain ⟨hallPart, hallGross⟩ := tallyOf_val h (List.Subperm.refl entries)
  obtain ⟨hownPart, hownGross⟩ := tallyOf_val h
    (List.filter_sublist (p := fun entry => entry.1 = person)).subperm
  have hrest := tallyOf_val h (List.filter_sublist (p := fun entry => ¬ entry.1 = person)).subperm
  have hsplit : ∀ f : Uuid × Figures → Int,
      ((entries.filter (·.1 = person)).map f).sum +
        ((entries.filter (¬ ·.1 = person)).map f).sum = (entries.map f).sum := by
    intro f
    simp only [decide_not]
    exact sum_filter_add_not (fun entry => decide (entry.1 = person)) f entries
  constructor
  · -- what is left is itself a tally, so the subtraction does not saturate
    have hfits := (tallyOf (entries.filter (¬ ·.1 = person))).part
    have hlow := hfits.lo'
    show ((tallyOf entries).part.saturatingSub _).val = _
    rw [I64.saturatingSub_val, hallPart, hownPart, ← hsplit, ← hrest.1]
    have hlo := (tallyOf (entries.filter (¬ ·.1 = person))).part.lo'
    have hhi := (tallyOf (entries.filter (¬ ·.1 = person))).part.hi'
    omega
  · show ((tallyOf entries).gross.saturatingSub _).val = _
    rw [I64.saturatingSub_val, hallGross, hownGross, ← hsplit, ← hrest.2]
    have hlo := (tallyOf (entries.filter (¬ ·.1 = person))).gross.lo'
    have hhi := (tallyOf (entries.filter (¬ ·.1 = person))).gross.hi'
    omega

/-- A person is raised for what they stand at. -/
theorem raised_isSome (h : SumsWithin (sharesOf entries)) :
    (raised describe sensitivity (tallyOf entries) person
        (tallyOf (entries.filter (·.1 = person)))).isSome ↔
      (standingOf (sharesOf entries) person).Raised sensitivity := by
  obtain ⟨hownPart, hownGross⟩ := tallyOf_val h
    (List.filter_sublist (p := fun entry => entry.1 = person)).subperm
  obtain ⟨hrestPart, hrestGross⟩ := without_val h person
  have hsales : (tallyOf (entries.filter (·.1 = person))).sales =
      (entries.filter (·.1 = person)).length := by
    rw [tallyOf_eq]
  rw [standingOf_sharesOf, Standing.Raised]
  simp only
  rw [← hownPart, ← hownGross, ← hrestPart, ← hrestGross, ← hsales, ← standsOut_iff, raised]
  -- the code passes over whoever has few sales, no part, or no gross
  by_cases hpassed : (tallyOf (entries.filter (·.1 = person))).sales < sensitivity.minimumSales ∨
      (tallyOf (entries.filter (·.1 = person))).part.val = 0 ∨
        (tallyOf (entries.filter (·.1 = person))).gross.val = 0
  · rw [if_pos hpassed]
    constructor
    · exact fun hnone => nomatch hnone
    · rintro ⟨hsales, hpart, hgross, -⟩
      rcases hpassed with hfew | hpart' | hgross'
      · omega
      · exact absurd hpart' hpart
      · exact absurd hgross' hgross
  · rw [if_neg hpassed]
    obtain ⟨hsales, hfigures⟩ := not_or.mp hpassed
    obtain ⟨hpart, hgross⟩ := not_or.mp hfigures
    split
    · rename_i hout
      exact ⟨fun _ => ⟨not_lt.mp hsales, hpart, hgross, hout⟩, fun _ => rfl⟩
    · rename_i hin
      exact ⟨nofun, fun hraised => absurd hraised.2.2.2 hin⟩

/-- A finding is raised for a person if and only if what they stand at asks for it. -/
theorem rateOutliers_iff
    (hsubject : ∀ person tally, (describe person tally).subject = .person person)
    (h : SumsWithin (sharesOf (entriesOf read sales))) (person : Uuid) :
    (∃ finding ∈ rateOutliers read describe sensitivity sales, finding.subject = .person person) ↔
      (standingOf (sharesOf (entriesOf read sales)) person).Raised sensitivity := by
  have hdescribed : ∀ {outlet : Tally} {who : Uuid} {tally : Tally} {finding : Finding},
      raised describe sensitivity outlet who tally = some finding →
        finding.subject = .person who := by
    intro outlet who tally finding hraised
    unfold raised at hraised
    split at hraised
    · cases hraised
    · split at hraised
      · cases hraised
        exact hsubject who tally
      · cases hraised
  rw [← @raised_isSome _ person describe sensitivity h]
  constructor
  · rintro ⟨finding, hfinding, hsub⟩
    obtain ⟨⟨who, tally⟩, hentry, hraised⟩ := List.mem_filterMap.mp hfinding
    have hwho : who = person := by
      rw [hdescribed hraised] at hsub
      exact Subject.person.inj hsub
    have hrow := Std.ExtTreeMap.mem_toList_iff_getElem?_eq_some.mp hentry
    rw [hwho] at hrow hraised
    rw [tallies_person] at hrow
    split at hrow
    · cases hrow
    · cases hrow
      exact Option.isSome_iff_exists.mpr ⟨finding, hraised⟩
  · intro hraised
    obtain ⟨finding, hraised⟩ := Option.isSome_iff_exists.mp hraised
    -- a person with no sales has nothing to be asked about
    have hsome : (entriesOf read sales).filter (·.1 = person) ≠ [] := by
      intro hnone
      rw [hnone, raised, if_pos (.inr (.inl rfl))] at hraised
      cases hraised
    refine ⟨finding, List.mem_filterMap.mpr ⟨(person, _), ?_, hraised⟩, hdescribed hraised⟩
    rw [Std.ExtTreeMap.mem_toList_iff_getElem?_eq_some]
    show (tallies (entriesOf read sales)).1[person]? = _
    rw [tallies_person, if_neg hsome]
    rfl

/-- The findings do not depend on the order of the sales. -/
theorem rateOutliers_perm (h : SumsWithin (sharesOf (entriesOf read sales)))
    (hperm : sales'.Perm sales) :
    rateOutliers read describe sensitivity sales' =
      rateOutliers read describe sensitivity sales := by
  have hentries : (entriesOf read sales').Perm (entriesOf read sales) := hperm.filterMap _
  rw [rateOutliers, rateOutliers, tallies_perm h hentries]

end Found

/-! ## Section 6: Discounts and voids -/

/-- The exact share of a sale that was discounted; a sale without totals has none. -/
def discountShare (sale : Sale) : Option Share :=
  match sale.totals with
  | .error _ => none
  | .ok totals => some ⟨totals.gross.minor.val, totals.discount.minor.val⟩

/-- The exact share of a sale's lines that were voided. -/
def voidShare (sale : Sale) : Option Share := some ⟨sale.lines.length, sale.voidCount⟩

def sharesIn (exact : Sale → Option Share) (sales : List Sale) : List (Uuid × Share) :=
  sales.filterMap fun sale => (exact sale).map fun share => (sale.openedBy, share)

/-- What is found is who stands out, in whatever order the sales come. -/
structure OutliersExact (found : List Sale → List Finding) (exact : Sale → Option Share)
    (sensitivity : Sensitivity) (sales : List Sale) : Prop where
  exact : ∀ person, (∃ finding ∈ found sales, finding.subject = .person person) ↔
    (standingOf (sharesIn exact sales) person).Outlier sensitivity
  orderFree : ∀ sales' : List Sale, sales'.Perm sales → found sales' = found sales

variable {sensitivity : Sensitivity} {sales : List Sale}

theorem sharesOf_entriesOf {read : Sale → Option Figures} {exact : Sale → Option Share}
    (h : ∀ sale ∈ sales, (read sale).map Figures.share = exact sale) :
    sharesOf (entriesOf read sales) = sharesIn exact sales := by
  rw [sharesOf, entriesOf, sharesIn, List.map_filterMap]
  refine List.filterMap_congr fun sale hsale => ?_
  rw [← h sale hsale, Option.map_map, Option.map_map]
  rfl

/-- Where no part is negative, findings are exact if and only if the figures of everyone who could
    be found compare. -/
theorem outliersExact_iff {read : Sale → Option Figures} {exact : Sale → Option Share}
    {describe : Uuid → Tally → Finding}
    (hsubject : ∀ person tally, (describe person tally).subject = .person person)
    (hread : ∀ sale ∈ sales, (read sale).map Figures.share = exact sale)
    (hpart : ∀ sale ∈ sales, ∀ share, exact sale = some share → 0 ≤ share.part)
    (hsums : SumsWithin (sharesIn exact sales)) :
    OutliersExact (rateOutliers read describe sensitivity) exact sensitivity sales ↔
      ∀ person, sensitivity.minimumSales ≤ (standingOf (sharesIn exact sales) person).sales →
        (standingOf (sharesIn exact sales) person).part ≠ 0 →
          (standingOf (sharesIn exact sales) person).Comparable := by
  have hshares := sharesOf_entriesOf hread
  have hsums' : SumsWithin (sharesOf (entriesOf read sales)) := by
    rw [hshares]
    exact hsums
  -- sums of parts are not negative, as no part is
  have hnonneg : ∀ p : Uuid × Share → Bool,
      0 ≤ (((sharesIn exact sales).filter p).map (·.2.part)).sum := by
    intro p
    refine List.sum_nonneg fun n hn => ?_
    obtain ⟨entry, hentry, rfl⟩ := List.mem_map.mp hn
    obtain ⟨sale, hsale, hfound⟩ := List.mem_filterMap.mp (List.mem_filter.mp hentry).1
    obtain ⟨share, hshare, rfl⟩ := Option.map_eq_some_iff.mp hfound
    exact hpart sale hsale share hshare
  have hfound : ∀ person, (∃ finding ∈ rateOutliers read describe sensitivity sales,
      finding.subject = .person person) ↔
        (standingOf (sharesIn exact sales) person).Raised sensitivity := by
    intro person
    rw [rateOutliers_iff hsubject hsums' person, hshares]
  have hcompare : ∀ person, ((standingOf (sharesIn exact sales) person).Raised sensitivity ↔
      (standingOf (sharesIn exact sales) person).Outlier sensitivity) ↔ _ :=
    fun person => Standing.raised_iff_outlier (hnonneg _) (hnonneg _)
  constructor
  · intro h person
    exact (hcompare person).mp ((hfound person).symm.trans (h.exact person))
  · intro h
    exact ⟨fun person => (hfound person).trans ((hcompare person).mpr (h person)),
      fun sales' hperm => rateOutliers_perm hsums' hperm⟩

theorem discount_read (sale : Sale) : (discountFigures sale).map Figures.share =
    discountShare sale := by
  unfold discountFigures discountShare
  split <;> rfl

theorem discountShare_nonneg {sale : Sale} {share : Share} (h : discountShare sale = some share) :
    0 ≤ share.part := by
  unfold discountShare at h
  split at h
  · cases h
  · rename_i totals htotals
    cases h
    obtain ⟨_, -, hcalculate⟩ := Sale.totals_eq_ok htotals
    exact calculate_discount_nonneg hcalculate

theorem lengthFigure_val {n : Nat} (h : I64.Fits n) : (lengthFigure n).val = n := by
  obtain ⟨x, hx, hval⟩ := SInt.ofInt?_of_fits (w := 64) (n := n) (by simpa [I64.Fits] using h)
  rw [lengthFigure, hx, Option.getD_some, hval]

/-- Lines that are counted within the range are counted as they are. -/
theorem void_read (hsums : SumsWithin (sharesIn voidShare sales)) {sale : Sale}
    (hsale : sale ∈ sales) : (voidFigures sale).map Figures.share = voidShare sale := by
  have hmem : (sale.openedBy, (⟨sale.lines.length, sale.voidCount⟩ : Share)) ∈
      sharesIn voidShare sales := List.mem_filterMap.mpr ⟨sale, hsale, rfl⟩
  obtain ⟨hgross, hpart⟩ := hsums [_] (List.singleton_subperm_iff.mpr hmem)
  simp only [List.map_cons, List.map_nil, List.sum_singleton] at hgross hpart
  show some (Share.mk (lengthFigure sale.lines.length).val (lengthFigure sale.voidCount).val) = _
  rw [lengthFigure_val hgross, lengthFigure_val hpart]
  rfl

/-- Voided lines are among the lines, so the figures of voids always compare. -/
theorem void_comparable (person : Uuid)
    (hpart : (standingOf (sharesIn voidShare sales) person).part ≠ 0) :
    (standingOf (sharesIn voidShare sales) person).Comparable := by
  -- of each sale no more lines are voided than there are
  have hshare : ∀ entry ∈ sharesIn voidShare sales,
      0 ≤ entry.2.part ∧ entry.2.part ≤ entry.2.gross := by
    intro entry hentry
    obtain ⟨sale, -, hfound⟩ := List.mem_filterMap.mp hentry
    cases hfound
    exact ⟨Int.natCast_nonneg _, Int.ofNat_le.mpr (List.length_filter_le _ _)⟩
  have hsums : ∀ p : Uuid × Share → Bool,
      0 ≤ (((sharesIn voidShare sales).filter p).map (·.2.part)).sum ∧
        (((sharesIn voidShare sales).filter p).map (·.2.part)).sum ≤
          (((sharesIn voidShare sales).filter p).map (·.2.gross)).sum := by
    intro p
    constructor
    · refine List.sum_nonneg fun n hn => ?_
      obtain ⟨entry, hentry, rfl⟩ := List.mem_map.mp hn
      exact (hshare entry (List.mem_filter.mp hentry).1).1
    · exact List.sum_le_sum fun entry hentry => (hshare entry (List.mem_filter.mp hentry).1).2
  have hown := hsums fun entry => decide (entry.1 = person)
  have hothers := hsums fun entry => decide (¬ entry.1 = person)
  unfold Standing.Comparable standingOf at *
  simp only at hpart ⊢
  split
  · omega
  · exact mul_nonneg (hown.1.trans hown.2) (hothers.1.trans hothers.2)

/-- **Outliers**: the findings about voids are exact, and all findings are, in whatever order the
    sales come, if and only if the takings that discounts came off compare: those of a person who
    could be found are not nothing where nobody else has any discount or takings, and otherwise
    have the sign of everyone else's. -/
theorem outliers_exact_iff (currency : Currency) (sensitivity : Sensitivity) (sales : List Sale)
    (hdiscounts : SumsWithin (sharesIn discountShare sales))
    (hvoids : SumsWithin (sharesIn voidShare sales)) :
    OutliersExact (voidOutliers sensitivity) voidShare sensitivity sales ∧
      (OutliersExact (discountOutliers currency sensitivity) discountShare sensitivity sales ↔
        ∀ person,
          sensitivity.minimumSales ≤ (standingOf (sharesIn discountShare sales) person).sales →
            (standingOf (sharesIn discountShare sales) person).part ≠ 0 →
              (standingOf (sharesIn discountShare sales) person).Comparable) := by
  constructor
  · refine (outliersExact_iff (fun _ _ => rfl) (fun sale hsale => void_read hvoids hsale) ?_
      hvoids).mpr fun person _ hpart => void_comparable person hpart
    intro sale _ share hshare
    cases hshare
    exact Int.natCast_nonneg _
  · exact outliersExact_iff (fun _ _ => rfl) (fun sale _ => discount_read sale)
      (fun _ _ _ hshare => discountShare_nonneg hshare) hdiscounts

/-! ### Two at the till -/

/-- Shares that are small enough together stay within the range, some of them as well. -/
theorem sumsWithin_of_abs {shares : List (Uuid × Share)}
    (h : (shares.map fun entry => |entry.2.gross| + |entry.2.part|).sum < 9223372036854775808) :
    SumsWithin shares := by
  rintro chosen ⟨ordered, hperm, hsublist⟩
  have hbound : ∀ f : Share → Int, (∀ share : Share, |f share| ≤ |share.gross| + |share.part|) →
      I64.Fits (chosen.map fun entry => f entry.2).sum := by
    intro f hf
    -- a sum is bounded by the sizes, those of all entries bound those of some
    have habs : |(ordered.map fun entry => f entry.2).sum| ≤
        (ordered.map fun entry => |f entry.2|).sum := by
      have hsum := Multiset.abs_sum_le_sum_abs
        (s := (ordered.map fun entry => f entry.2 : Multiset Int))
      simp only [Multiset.map_coe, Multiset.sum_coe, List.map_map] at hsum
      exact hsum
    have hle : (ordered.map fun entry => |f entry.2|).sum ≤
        (ordered.map fun entry => |entry.2.gross| + |entry.2.part|).sum :=
      List.sum_le_sum fun entry _ => hf entry.2
    have hall : (ordered.map fun entry => |entry.2.gross| + |entry.2.part|).sum ≤
        (shares.map fun entry => |entry.2.gross| + |entry.2.part|).sum := by
      refine List.Sublist.sum_le_sum (hsublist.map _) fun n hn => ?_
      obtain ⟨entry, -, rfl⟩ := List.mem_map.mp hn
      positivity
    rw [← (hperm.map fun entry => f entry.2).sum_eq]
    obtain ⟨hlow, hhigh⟩ := abs_lt.mp (lt_of_le_of_lt (habs.trans (hle.trans hall)) h)
    exact ⟨hlow.le, hhigh⟩
  exact ⟨hbound Share.gross fun share => le_add_of_nonneg_right (abs_nonneg _),
    hbound Share.part fun share => le_add_of_nonneg_left (abs_nonneg _)⟩

/-- A hundred's worth sold, something off it. -/
def sold (saleId staff : Uuid) (discount total : I64) : List SaleEvent :=
  [.opened saleId staff .bdt .taxInclusive .halfUp,
   .lineAdded saleId 10 12 "Rice" ⟨I64.lit 10000, .bdt⟩ Quantity.one .exempt [],
   .lineDiscounted saleId 10 (.amount ⟨discount, .bdt⟩) 9,
   .tenderRecorded saleId 20 .cash ⟨total, .bdt⟩ none,
   .completed saleId ⟨total, .bdt⟩ ⟨0, .bdt⟩ .epoch]

/-- Two hundred's worth taken back. -/
def takenBack (saleId staff : Uuid) : List SaleEvent :=
  [.opened saleId staff .bdt .taxInclusive .halfUp,
   .lineAdded saleId 10 12 "Rice" ⟨I64.lit 10000, .bdt⟩ ⟨I64.lit (-2000)⟩ .exempt [],
   .completed saleId ⟨I64.lit (-20000), .bdt⟩ ⟨I64.lit 20000, .bdt⟩ .epoch]

def cashierSold : Sale := Sale.replayed (sold 1 7 (I64.lit 100) (I64.lit 9900))
def managerSold : Sale := Sale.replayed (sold 2 9 (I64.lit 5000) (I64.lit 5000))
def cashierTookBack : Sale := Sale.replayed (takenBack 3 7)

/-- The manager discounts fifty times what the cashier does, and is found. -/
theorem outliers_exact_iff_fifty :
    OutliersExact (discountOutliers .bdt ⟨1, 2⟩) discountShare ⟨1, 2⟩
      [cashierSold, managerSold] := by
  have hshares : sharesIn discountShare [cashierSold, managerSold] =
      [(7, ⟨10000, 100⟩), (9, ⟨10000, 5000⟩)] := by decide +kernel
  have hvoids : sharesIn voidShare [cashierSold, managerSold] = [(7, ⟨1, 0⟩), (9, ⟨1, 0⟩)] := by
    decide +kernel
  refine (outliers_exact_iff .bdt ⟨1, 2⟩ [cashierSold, managerSold]
    (sumsWithin_of_abs (by rw [hshares]; decide))
    (sumsWithin_of_abs (by rw [hvoids]; decide))).2.mpr ?_
  intro person _ hpart
  rw [hshares] at hpart ⊢
  by_cases hcashier : person = 7
  · rw [hcashier, show standingOf [(7, ⟨10000, 100⟩), (9, ⟨10000, 5000⟩)] 7 =
      ⟨1, 10000, 100, 10000, 5000⟩ from rfl]
    norm_num [Standing.Comparable]
  · by_cases hmanager : person = 9
    · rw [hmanager, show standingOf [(7, ⟨10000, 100⟩), (9, ⟨10000, 5000⟩)] 9 =
        ⟨1, 10000, 5000, 10000, 100⟩ from rfl]
      norm_num [Standing.Comparable]
    · simp [standingOf, Ne.symm hcashier, Ne.symm hmanager] at hpart

/-- The cashier takes back more than they sell, and is found for the one per cent they discounted:
    their takings are below zero, and so is their rate. -/
theorem takings_below_zero_found : ¬ ∀ (currency : Currency) (sensitivity : Sensitivity)
    (sales : List Sale),
    (∀ sale ∈ sales, sale.status = .completed ∧ ∃ events, Sale.replay events = .ok sale) →
      SumsWithin (sharesIn discountShare sales) → SumsWithin (sharesIn voidShare sales) →
        OutliersExact (discountOutliers currency sensitivity) discountShare sensitivity sales := by
  intro hclaim
  have hshares : sharesIn discountShare [cashierSold, cashierTookBack, managerSold] =
      [(7, ⟨10000, 100⟩), (7, ⟨-20000, 0⟩), (9, ⟨10000, 5000⟩)] := by decide +kernel
  have hvoids : sharesIn voidShare [cashierSold, cashierTookBack, managerSold] =
      [(7, ⟨1, 0⟩), (7, ⟨1, 0⟩), (9, ⟨1, 0⟩)] := by decide +kernel
  have hsums : SumsWithin (sharesIn discountShare [cashierSold, cashierTookBack, managerSold]) :=
    sumsWithin_of_abs (by rw [hshares]; decide)
  have hexact := hclaim .bdt ⟨1, 2⟩ [cashierSold, cashierTookBack, managerSold] ?_ hsums
    (sumsWithin_of_abs (by rw [hvoids]; decide))
  · have hstanding : standingOf (sharesIn discountShare
        [cashierSold, cashierTookBack, managerSold]) 7 = ⟨2, -10000, 100, 10000, 5000⟩ := by
      rw [hshares]
      rfl
    -- the figures of the cashier do not compare, so the finding is not exact
    have hcompare := (outliersExact_iff (fun _ _ => rfl) (fun sale _ => discount_read sale)
      (fun _ _ _ hshare => discountShare_nonneg hshare) hsums).mp hexact 7
    rw [hstanding] at hcompare
    norm_num [Standing.Comparable] at hcompare
  · -- the three sales are what their events replay to
    have hreplayed : ∀ events, (Sale.replay events).isOkay = true →
        ∃ events', Sale.replay events' = .ok (Sale.replayed events) := by
      intro events hokay
      obtain ⟨sale, hsale⟩ := Except.isOkay_iff.mp hokay
      exact ⟨events, by rw [Sale.replayed, hsale]⟩
    intro sale hsale
    simp only [List.mem_cons, List.not_mem_nil, or_false] at hsale
    rcases hsale with rfl | rfl | rfl
    · exact ⟨by decide +kernel, hreplayed (sold 1 7 (I64.lit 100) (I64.lit 9900))
        (by decide +kernel)⟩
    · exact ⟨by decide +kernel, hreplayed (takenBack 3 7) (by decide +kernel)⟩
    · exact ⟨by decide +kernel, hreplayed (sold 2 9 (I64.lit 5000) (I64.lit 5000))
        (by decide +kernel)⟩

end Anomaly

end Sahl
