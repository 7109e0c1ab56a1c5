import Mathlib.Tactic
import Mathlib.Data.Prod.Lex
import Mathlib.Data.String.Basic
import Sahl.Core.Outliers

/-! # The alert feed

    A day's activity is read for four things: actions someone approved for themselves without the
    authority, discounts and voids at a rate that stands out, and amounts that keep stopping just
    under what would have needed somebody else. The feed counts each exactly, the same in whatever
    order the log is read, and never counts an action of somebody whose role is known under both of
    the first and the last (`scan_exact`). -/

namespace Sahl

/-! ## Section 1: Ranking -/

def Severity.level : Severity → Nat
  | routine => 0
  | notable => 1
  | alert => 2

/-- Most severe first, then most frequent, then by kind. -/
def Finding.rank (finding : Finding) : Natᵒᵈ ×ₗ Natᵒᵈ ×ₗ String :=
  toLex (OrderDual.toDual finding.severity.level, toLex (OrderDual.toDual finding.count,
    finding.kind))

/-- Order a feed for reading; findings of one rank keep their order. -/
def ranked (findings : List Finding) : List Finding :=
  findings.insertionSort fun left right => left.rank ≤ right.rank

namespace Anomaly

instance : Std.LawfulEqCmp (compare : Uuid ×ₗ String → Uuid ×ₗ String → Ordering) :=
  ⟨fun h => compare_eq_iff_eq.mp h⟩

/-! ## Section 2: The scan -/

/-- How readily the scan speaks up. -/
structure ScanSensitivity extends Sensitivity where
  /-- How far below a limit still counts as stopping just short of it. -/
  nearLimit : Money
  nearLimitOccurrences : Nat

/-- A starting point, to be tuned against real shops. -/
def ScanSensitivity.startingPoint (currency : Currency) : ScanSensitivity where
  minimumSales := 20
  outlierMultiple := 2
  nearLimit := ⟨lengthFigure currency.minorPerMajor, currency⟩
  nearLimitOccurrences := 3

/-- A period's activity, as the scan needs to see it. -/
structure Activity where
  sales : List Sale
  audit : List AuditEntry
  roles : UuidMap Role
  approval : ApprovalPolicy
  currency : Currency

variable (activity : Activity) (sensitivity : ScanSensitivity)

def selfApprovedFinding (staffId : Uuid) (count : Nat) : Finding where
  kind := "self_approved"
  severity := .alert
  subject := .person staffId
  count := count
  amount := none
  summary := "Approved their own action " ++ String.ofList (Decimal.digits count) ++ " time" ++
    plural count ++ " without holding that authority"

/-- Someone approving their own action without the authority to have done it unaided. -/
def selfApprovals : List Finding :=
  let bypassed := unapproved activity.audit (fun staffId => activity.roles[staffId]?)
    activity.approval
  (countBy (bypassed.map (·.actor)) : UuidMap Nat).toList.map fun entry =>
    selfApprovedFinding entry.1 entry.2

/-- The limit an action of a kind is measured against. -/
def limitOf (approval : ApprovalPolicy) : String → Option Money
  | "sale.order_discounted" => some approval.discountLimit
  | "sale.line_voided" => some approval.voidLimit
  | _ => none

/-- Whose count an entry just under its limit goes to. -/
def nearKey (entry : AuditEntry) : Option (Uuid ×ₗ String) :=
  match limitOf activity.approval entry.kind, entry.amount with
  | some limit, some amount =>
    if limit.isZero ∨ !entry.isSelfApproved then none
    else
      let floor := limit.minor.saturatingSub sensitivity.nearLimit.minor
      if floor < amount.minor ∧ amount.minor ≤ limit.minor then
        some (toLex (entry.actor, entry.kind))
      else none
  | _, _ => none

def nearLimitFinding (staffId : Uuid) (kind : String) (count : Nat) : Finding where
  kind := "near_approval_limit"
  severity := .notable
  subject := .person staffId
  count := count
  amount := some (if kind = "sale.line_voided" then activity.approval.voidLimit
    else activity.approval.discountLimit)
  summary := String.ofList (Decimal.digits count) ++
    (if kind = "sale.line_voided" then " voids" else " discounts") ++
    " just under the amount that would have needed approval"

/-- Amounts that repeatedly stop just under what would have needed somebody else. -/
def nearLimit : List Finding :=
  let counts : Std.ExtTreeMap (Uuid ×ₗ String) Nat compare :=
    countBy (activity.audit.filterMap (nearKey activity sensitivity))
  (counts.toList.filter fun entry => sensitivity.nearLimitOccurrences ≤ entry.2).map fun entry =>
    nearLimitFinding activity (ofLex entry.1).1 (ofLex entry.1).2 entry.2

/-- Everything the log has to say about a period. No sale is malformed enough to fail it. -/
def scan : Except SaleError (List Finding) :=
  .ok (ranked (selfApprovals activity ++
    discountOutliers activity.currency sensitivity.toSensitivity activity.sales ++
    voidOutliers sensitivity.toSensitivity activity.sales ++ nearLimit activity sensitivity))

/-! ## Section 3: What is counted -/

section Counted

variable {activity : Activity} {sensitivity : ScanSensitivity}

/-- An action its actor approved, under no role that permits it. -/
def Bypassed (activity : Activity) (entry : AuditEntry) : Prop :=
  entry.approvedBy = some entry.actor ∧
    ∀ role ∈ activity.roles[entry.actor]?,
      permits role entry.kind entry.amount activity.approval = false

instance (activity : Activity) (entry : AuditEntry) : Decidable (Bypassed activity entry) :=
  inferInstanceAs (Decidable (_ ∧ _))

/-- An action its actor approved, that stops short of its limit by less than is near. -/
def NearLimit (activity : Activity) (sensitivity : ScanSensitivity) (entry : AuditEntry) : Prop :=
  entry.approvedBy = some entry.actor ∧
    ∃ limit ∈ limitOf activity.approval entry.kind, limit.minor.val ≠ 0 ∧
      ∃ amount ∈ entry.amount,
        limit.minor.val - sensitivity.nearLimit.minor.val < amount.minor.val ∧
          amount.minor.val ≤ limit.minor.val

instance (activity : Activity) (sensitivity : ScanSensitivity) (entry : AuditEntry) :
    Decidable (NearLimit activity sensitivity entry) := inferInstanceAs (Decidable (_ ∧ _))

/-- How often someone bypassed an approval. -/
def bypasses (activity : Activity) (staffId : Uuid) : Nat :=
  activity.audit.countP fun entry => entry.actor = staffId ∧ Bypassed activity entry

/-- How often someone stopped just short of the limit of one kind of action. -/
def nearMisses (activity : Activity) (sensitivity : ScanSensitivity) (staffId : Uuid)
    (kind : String) : Nat :=
  activity.audit.countP fun entry =>
    entry.actor = staffId ∧ entry.kind = kind ∧ NearLimit activity sensitivity entry

/-- No limit is so far below zero that what is near it falls out of the range. -/
def FloorsFit (activity : Activity) (sensitivity : ScanSensitivity) : Prop :=
  ∀ kind, ∀ limit ∈ limitOf activity.approval kind,
    I64.Fits (limit.minor.val - sensitivity.nearLimit.minor.val)

theorem count_bypassed (staffId : Uuid) :
    ((unapproved activity.audit (fun staffId => activity.roles[staffId]?)
      activity.approval).map (·.actor)).count staffId = bypasses activity staffId := by
  rw [List.count, List.countP_map, unapproved, List.countP_filter, List.countP_filter, bypasses]
  refine List.countP_congr fun entry _ => ?_
  rw [decide_eq_true_eq]
  simp only [Function.comp_apply, AuditEntry.isSelfApproved, Bypassed, Bool.and_eq_true, beq_iff_eq,
    decide_eq_true_eq, Option.all_eq_true, Bool.not_eq_true']
  exact ⟨fun h => ⟨h.1.1, h.2, h.1.2⟩, fun h => ⟨⟨h.1, h.2.2⟩, h.2.1⟩⟩

theorem nearKey_eq_some (hfloors : FloorsFit activity sensitivity) {entry : AuditEntry}
    {key : Uuid ×ₗ String} : nearKey activity sensitivity entry = some key ↔
      NearLimit activity sensitivity entry ∧ toLex (entry.actor, entry.kind) = key := by
  unfold nearKey NearLimit
  cases hlimit : limitOf activity.approval entry.kind with
  | none => simp
  | some limit =>
    cases hamount : entry.amount with
    | none => simp
    | some amount =>
      have hfloor : (limit.minor.saturatingSub sensitivity.nearLimit.minor).val =
          limit.minor.val - sensitivity.nearLimit.minor.val := by
        obtain ⟨hlow, hhigh⟩ := hfloors entry.kind limit hlimit
        rw [I64.saturatingSub_val]
        omega
      simp only [Option.mem_some_iff, exists_eq_left', AuditEntry.isSelfApproved, Money.isZero]
      simp only [SInt.lt_def, SInt.le_def, hfloor, decide_eq_true_eq, Bool.not_eq_true',
        decide_eq_false_iff_not]
      by_cases hskip : limit.minor.val = 0 ∨ ¬ entry.approvedBy = some entry.actor
      · rw [if_pos hskip]
        refine iff_of_false (by simp) fun h => ?_
        rcases hskip with hzero | hother
        · exact h.1.2.1 hzero
        · exact hother h.1.1
      · obtain ⟨hlimit, hself⟩ := not_or.mp hskip
        rw [if_neg hskip]
        simp only [Option.ite_none_right_eq_some, Option.some.injEq]
        exact and_congr_left fun _ => ⟨fun h => ⟨not_not.mp hself, hlimit, h⟩, fun h => h.2.2⟩

theorem count_nearKey (hfloors : FloorsFit activity sensitivity) (staffId : Uuid) (kind : String) :
    (activity.audit.filterMap (nearKey activity sensitivity)).count (toLex (staffId, kind)) =
      nearMisses activity sensitivity staffId kind := by
  rw [List.count, List.countP_filterMap, nearMisses]
  refine List.countP_congr fun entry _ => ?_
  rw [decide_eq_true_eq]
  cases hkey : nearKey activity sensitivity entry with
  | none =>
    refine iff_of_false (by simp) fun h => ?_
    have hsome := (nearKey_eq_some hfloors).mpr ⟨h.2.2, rfl⟩
    rw [hkey] at hsome
    cases hsome
  | some key =>
    obtain ⟨hnear, rfl⟩ := (nearKey_eq_some hfloors).mp hkey
    simp only [Option.map_some, Option.getD_some, beq_iff_eq, EmbeddingLike.apply_eq_iff_eq,
      Prod.mk.injEq]
    exact ⟨fun h => ⟨h.1, h.2, hnear⟩, fun h => ⟨h.1, h.2.1⟩⟩

theorem limitOf_eq_some {approval : ApprovalPolicy} {kind : String} {limit : Money}
    (h : limitOf approval kind = some limit) :
    (kind = "sale.order_discounted" ∧ approval.discountLimit = limit) ∨
      kind = "sale.line_voided" ∧ approval.voidLimit = limit := by
  unfold limitOf at h
  split at h
  · exact .inl ⟨rfl, Option.some.inj h⟩
  · exact .inr ⟨rfl, Option.some.inj h⟩
  · cases h

/-- What stops short of its limit, a role could do unaided. -/
theorem NearLimit.not_bypassed {entry : AuditEntry} {role : Role}
    (h : NearLimit activity sensitivity entry) (hrole : activity.roles[entry.actor]? = some role) :
    ¬ Bypassed activity entry := by
  intro hbypassed
  obtain ⟨-, limit, hlimit, -, amount, hamount, -, hwithin⟩ := h
  have hrefused := hbypassed.2 role hrole
  rw [Option.mem_def.mp hamount] at hrefused
  rcases limitOf_eq_some hlimit with ⟨hkind, rfl⟩ | ⟨hkind, rfl⟩
  · rw [hkind] at hrefused
    have hallowed : authorizeDiscount role amount activity.approval = .allowed :=
      authorizeDiscount_eq_allowed.mpr (.inr hwithin)
    exact of_decide_eq_false hrefused hallowed
  · rw [hkind] at hrefused
    have hallowed : authorizeVoid role amount activity.approval = .allowed :=
      authorizeVoid_eq_allowed.mpr (.inr hwithin)
    exact of_decide_eq_false hrefused hallowed

/-! ## Section 4: What is found -/

theorem mem_selfApprovals {finding : Finding} : finding ∈ selfApprovals activity ↔
    ∃ staffId, 0 < bypasses activity staffId ∧
      selfApprovedFinding staffId (bypasses activity staffId) = finding := by
  rw [selfApprovals, List.mem_map]
  constructor
  · intro h
    obtain ⟨⟨staffId, count⟩, hmem, rfl⟩ := h
    obtain ⟨hpos, hcount⟩ := mem_countBy.mp hmem
    rw [count_bypassed] at hcount
    exact ⟨staffId, hcount ▸ hpos, by rw [hcount]⟩
  · intro h
    obtain ⟨staffId, hpos, rfl⟩ := h
    refine ⟨(staffId, bypasses activity staffId), mem_countBy.mpr ⟨hpos, ?_⟩, rfl⟩
    exact count_bypassed staffId

theorem mem_nearLimit (hfloors : FloorsFit activity sensitivity) {finding : Finding} :
    finding ∈ nearLimit activity sensitivity ↔ ∃ staffId kind,
      0 < nearMisses activity sensitivity staffId kind ∧
      sensitivity.nearLimitOccurrences ≤ nearMisses activity sensitivity staffId kind ∧
        nearLimitFinding activity staffId kind (nearMisses activity sensitivity staffId kind) =
          finding := by
  rw [nearLimit, List.mem_map]
  constructor
  · intro h
    obtain ⟨⟨key, count⟩, hmem, rfl⟩ := h
    obtain ⟨hmem, hoften⟩ := List.mem_filter.mp hmem
    obtain ⟨hpos, hcount⟩ := mem_countBy.mp hmem
    rw [show key = toLex ((ofLex key).1, (ofLex key).2) from rfl, count_nearKey hfloors] at hcount
    exact ⟨(ofLex key).1, (ofLex key).2, hcount ▸ hpos, hcount ▸ of_decide_eq_true hoften,
      by rw [hcount]⟩
  · intro h
    obtain ⟨staffId, kind, hpos, hoften, rfl⟩ := h
    refine ⟨(toLex (staffId, kind), nearMisses activity sensitivity staffId kind), ?_, rfl⟩
    exact List.mem_filter.mpr ⟨mem_countBy.mpr ⟨hpos, count_nearKey hfloors staffId kind⟩,
      decide_eq_true hoften⟩

theorem kind_selfApprovals {finding : Finding} (h : finding ∈ selfApprovals activity) :
    finding.kind = "self_approved" := by
  obtain ⟨staffId, -, rfl⟩ := mem_selfApprovals.mp h
  rfl

theorem kind_nearLimit {finding : Finding} (h : finding ∈ nearLimit activity sensitivity) :
    finding.kind = "near_approval_limit" := by
  obtain ⟨entry, -, rfl⟩ := List.mem_map.mp h
  rfl

/-- Whatever is raised of people is said the way it is described. -/
theorem rateOutliers_described {read : Sale → Option Figures}
    {describe : Uuid → Tally → Finding} {rates : Sensitivity} {sales : List Sale}
    {finding : Finding} (h : finding ∈ rateOutliers read describe rates sales) :
    ∃ person tally, describe person tally = finding := by
  obtain ⟨⟨person, tally⟩, -, hraised⟩ := List.mem_filterMap.mp h
  unfold raised at hraised
  split at hraised
  · cases hraised
  · split at hraised
    · exact ⟨person, tally, Option.some.inj hraised⟩
    · cases hraised

/-- A feed holds what the four parts of the scan find, each under a kind of its own. -/
theorem mem_scan {feed : List Finding} (h : scan activity sensitivity = .ok feed)
    {finding : Finding} : finding ∈ feed ↔
      (finding.kind = "self_approved" ∧ finding ∈ selfApprovals activity) ∨
      (finding.kind = "discount_rate_outlier" ∧ finding ∈ discountOutliers activity.currency
        sensitivity.toSensitivity activity.sales) ∨
      (finding.kind = "void_rate_outlier" ∧
        finding ∈ voidOutliers sensitivity.toSensitivity activity.sales) ∨
      (finding.kind = "near_approval_limit" ∧ finding ∈ nearLimit activity sensitivity) := by
  have hdiscount : finding ∈ discountOutliers activity.currency sensitivity.toSensitivity
      activity.sales → finding.kind = "discount_rate_outlier" := by
    intro hfound
    obtain ⟨person, tally, rfl⟩ := rateOutliers_described hfound
    rfl
  have hvoid : finding ∈ voidOutliers sensitivity.toSensitivity activity.sales →
      finding.kind = "void_rate_outlier" := by
    intro hfound
    obtain ⟨person, tally, rfl⟩ := rateOutliers_described hfound
    rfl
  cases h
  rw [ranked, (List.perm_insertionSort _ _).mem_iff]
  simp only [List.mem_append, or_assoc]
  rw [and_iff_right_of_imp kind_selfApprovals, and_iff_right_of_imp hdiscount,
    and_iff_right_of_imp hvoid, and_iff_right_of_imp kind_nearLimit]

/-- A scan does not depend on the order of the sales or of what was audited. -/
theorem scan_perm {sales' : List Sale} {audit' : List AuditEntry}
    (hdiscounts : SumsWithin (sharesIn discountShare activity.sales))
    (hvoids : SumsWithin (sharesIn voidShare activity.sales))
    (hsales : sales'.Perm activity.sales) (haudit : audit'.Perm activity.audit) :
    scan { activity with sales := sales', audit := audit' } sensitivity =
      scan activity sensitivity := by
  have hself : selfApprovals { activity with sales := sales', audit := audit' } =
      selfApprovals activity := by
    have hbypassed := (haudit.filter (·.isSelfApproved)).filter fun entry =>
      (activity.roles[entry.actor]?).all fun role =>
        !permits role entry.kind entry.amount activity.approval
    exact congrArg (fun counts : UuidMap Nat => counts.toList.map fun entry =>
      selfApprovedFinding entry.1 entry.2) (countBy_perm (hbypassed.map (·.actor)))
  have hnear : nearLimit { activity with sales := sales', audit := audit' } sensitivity =
      nearLimit activity sensitivity := by
    have hkeys := haudit.filterMap (nearKey activity sensitivity)
    exact congrArg (fun counts : Std.ExtTreeMap (Uuid ×ₗ String) Nat compare =>
      (counts.toList.filter fun entry => sensitivity.nearLimitOccurrences ≤ entry.2).map
        fun entry => nearLimitFinding activity (ofLex entry.1).1 (ofLex entry.1).2 entry.2)
      (countBy_perm hkeys)
  have hdiscount : discountOutliers activity.currency sensitivity.toSensitivity sales' =
      discountOutliers activity.currency sensitivity.toSensitivity activity.sales := by
    refine rateOutliers_perm ?_ hsales
    rw [sharesOf_entriesOf fun sale _ => discount_read sale]
    exact hdiscounts
  have hvoid : voidOutliers sensitivity.toSensitivity sales' =
      voidOutliers sensitivity.toSensitivity activity.sales := by
    refine rateOutliers_perm ?_ hsales
    rw [sharesOf_entriesOf fun sale hsale => void_read hvoids hsale]
    exact hvoids
  rw [scan, hself, hnear]
  show Except.ok (ranked (_ ++
    discountOutliers activity.currency sensitivity.toSensitivity sales' ++
      voidOutliers sensitivity.toSensitivity sales' ++ _)) = _
  rw [hdiscount, hvoid]
  rfl

/-! ## Section 5: What the feed says -/

/-- In the order it is read in, and of everybody exactly what there is to say. -/
structure Exact (activity : Activity) (sensitivity : ScanSensitivity) (feed : List Finding) :
    Prop where
  ordered : feed.Pairwise fun left right => left.rank ≤ right.rank
  bypassed : ∀ finding : Finding, finding.kind = "self_approved" →
    (finding ∈ feed ↔ ∃ staffId, 0 < bypasses activity staffId ∧
      selfApprovedFinding staffId (bypasses activity staffId) = finding)
  discounted : ∀ person, (∃ finding ∈ feed, finding.kind = "discount_rate_outlier" ∧
    finding.subject = .person person) ↔
      (standingOf (sharesIn discountShare activity.sales) person).Raised sensitivity.toSensitivity
  voided : ∀ person, (∃ finding ∈ feed, finding.kind = "void_rate_outlier" ∧
    finding.subject = .person person) ↔
      (standingOf (sharesIn voidShare activity.sales) person).Raised sensitivity.toSensitivity
  near : ∀ finding : Finding, finding.kind = "near_approval_limit" →
    (finding ∈ feed ↔ ∃ staffId kind, 0 < nearMisses activity sensitivity staffId kind ∧
      sensitivity.nearLimitOccurrences ≤ nearMisses activity sensitivity staffId kind ∧
        nearLimitFinding activity staffId kind (nearMisses activity sensitivity staffId kind) =
          finding)

theorem scan_ordered {feed : List Finding} (h : scan activity sensitivity = .ok feed) :
    feed.Pairwise fun left right => left.rank ≤ right.rank := by
  have : Std.Total fun left right : Finding => left.rank ≤ right.rank :=
    ⟨fun left right => le_total left.rank right.rank⟩
  have : IsTrans Finding fun left right => left.rank ≤ right.rank := ⟨fun _ _ _ => le_trans⟩
  cases h
  exact List.pairwise_insertionSort _ _

/-- The findings about a rate are about those whose figures ask for it. -/
theorem rates_in_feed {feed : List Finding} {read : Sale → Option Figures}
    {exact : Sale → Option Share} (describe : Uuid → Tally → Finding) {kind : String}
    {rates : Sensitivity} {sales : List Sale}
    (hfeed : ∀ finding, finding.kind = kind →
      (finding ∈ feed ↔ finding ∈ rateOutliers read describe rates sales))
    (hkind : ∀ person tally, (describe person tally).kind = kind)
    (hsubject : ∀ person tally, (describe person tally).subject = .person person)
    (hread : ∀ sale ∈ sales, (read sale).map Figures.share = exact sale)
    (hsums : SumsWithin (sharesIn exact sales)) (person : Uuid) :
    (∃ finding ∈ feed, finding.kind = kind ∧ finding.subject = .person person) ↔
      (standingOf (sharesIn exact sales) person).Raised rates := by
  have hshares := sharesOf_entriesOf hread
  rw [← hshares] at hsums ⊢
  rw [← rateOutliers_iff hsubject hsums person]
  constructor
  · intro h
    obtain ⟨finding, hfinding, hof, hsub⟩ := h
    exact ⟨finding, (hfeed finding hof).mp hfinding, hsub⟩
  · intro h
    obtain ⟨finding, hfinding, hsub⟩ := h
    obtain ⟨_, _, rfl⟩ := rateOutliers_described hfinding
    exact ⟨_, (hfeed _ (hkind _ _)).mpr hfinding, hkind _ _, hsub⟩

theorem exact_scan {feed : List Finding} (h : scan activity sensitivity = .ok feed)
    (hfloors : FloorsFit activity sensitivity)
    (hdiscounts : SumsWithin (sharesIn discountShare activity.sales))
    (hvoids : SumsWithin (sharesIn voidShare activity.sales)) :
    Exact activity sensitivity feed where
  ordered := scan_ordered h
  bypassed := by
    intro finding hkind
    rw [mem_scan h, ← mem_selfApprovals]
    simp [hkind]
  discounted := by
    refine rates_in_feed (discountFinding activity.currency sensitivity.outlierMultiple)
      (fun finding hkind => ?_) (fun _ _ => rfl) (fun _ _ => rfl)
      (fun sale _ => discount_read sale) hdiscounts
    rw [mem_scan h]
    simp [hkind, discountOutliers]
  voided := by
    refine rates_in_feed (voidFinding sensitivity.outlierMultiple) (fun finding hkind => ?_)
      (fun _ _ => rfl) (fun _ _ => rfl) (fun sale hsale => void_read hvoids hsale) hvoids
    rw [mem_scan h]
    simp [hkind, voidOutliers]
  near := by
    intro finding hkind
    rw [mem_scan h, ← mem_nearLimit hfloors]
    simp [hkind]

/-- **The alert feed**: a scan always answers, in the order the feed is read in, and says of
    everybody exactly what there is to say: how often they bypassed an approval, whether their
    discounts or voids stand out, and how often they stopped just short of a limit. It says so in
    whatever order sales and actions come, and no action of a person whose role is known counts as
    both bypassed and just short. -/
theorem scan_exact {activity : Activity} {sensitivity : ScanSensitivity}
    (hfloors : FloorsFit activity sensitivity)
    (hdiscounts : SumsWithin (sharesIn discountShare activity.sales))
    (hvoids : SumsWithin (sharesIn voidShare activity.sales)) :
    ∃ feed, scan activity sensitivity = .ok feed ∧ Exact activity sensitivity feed ∧
      (∀ (sales' : List Sale) (audit' : List AuditEntry), sales'.Perm activity.sales →
        audit'.Perm activity.audit →
          scan { activity with sales := sales', audit := audit' } sensitivity = .ok feed) ∧
      ∀ entry ∈ activity.audit, ∀ role, activity.roles[entry.actor]? = some role →
        NearLimit activity sensitivity entry → ¬ Bypassed activity entry :=
  ⟨_, rfl, exact_scan rfl hfloors hdiscounts hvoids,
    fun _ _ hsales haudit => scan_perm hdiscounts hvoids hsales haudit,
    fun _ _ _ hrole hnear => hnear.not_bypassed hrole⟩

/-! ### Three voids -/

/-- The cashier voids a line by themselves, of a worth. -/
def ownVoidOf (amount : I64) : AuditEntry where
  at' := .epoch
  severity := .notable
  kind := "sale.line_voided"
  actor := 7
  approvedBy := some 7
  amount := some ⟨amount, .bdt⟩
  summary := "rung in error"

/-- Three voids just under fifty, which a cashier may do, and one above. -/
def threeUnder : Activity where
  sales := [cashierSold, managerSold]
  audit := [ownVoidOf (I64.lit 4950), ownVoidOf (I64.lit 5000), ownVoidOf (I64.lit 5001),
    ownVoidOf (I64.lit 4990)]
  roles := (∅ : UuidMap Role).insert 7 .cashier
  approval := upToFifty
  currency := .bdt

/-- The feed says so of the cashier: three voids just short of the limit, and one bypassed. -/
theorem scan_exact_threeUnder : ∃ feed,
    scan threeUnder (ScanSensitivity.startingPoint .bdt) = .ok feed ∧
      nearLimitFinding threeUnder 7 "sale.line_voided" 3 ∈ feed ∧
        selfApprovedFinding 7 1 ∈ feed := by
  have hfloors : FloorsFit threeUnder (ScanSensitivity.startingPoint .bdt) := by
    intro kind limit hlimit
    rcases limitOf_eq_some hlimit with ⟨-, rfl⟩ | ⟨-, rfl⟩
    · decide
    · decide
  have hshares : sharesIn discountShare threeUnder.sales =
      [(7, ⟨10000, 100⟩), (9, ⟨10000, 5000⟩)] := by decide +kernel
  have hvoids : sharesIn voidShare threeUnder.sales = [(7, ⟨1, 0⟩), (9, ⟨1, 0⟩)] := by
    decide +kernel
  obtain ⟨feed, hscan, hexact, -⟩ := scan_exact hfloors
    (sumsWithin_of_abs (by rw [hshares]; decide))
    (sumsWithin_of_abs (by rw [hvoids]; decide))
  refine ⟨feed, hscan, (hexact.near _ rfl).mpr ⟨7, "sale.line_voided", ?_, ?_, ?_⟩,
    (hexact.bypassed _ rfl).mpr ⟨7, ?_, ?_⟩⟩
  · decide +kernel
  · decide +kernel
  · decide +kernel
  · decide +kernel
  · decide +kernel

end Counted

end Anomaly

end Sahl
