import Mathlib.Tactic
import Sahl.Server.Enrollment
import Sahl.Server.Push
import Sahl.Server.Reports
import Sahl.Sync.PullCompleteness

/-! # Tenants apart

    A request runs in a transaction that is scoped to one tenant, and row-level security hides the
    rows of every other. For a device the scope is the tenant of its own row, and a push stores
    only what is of the tenant and outlet of its device; so the policies hide nothing that a
    device's request would have read (`tenants_apart`). For the dashboard they do: an owner's token
    can ask for any outlet, and is answered from the rows of its own tenant alone
    (`dashboard_apart`). -/

namespace Sahl

variable {V : Type}

/-! ## Section 1: Row-level security -/

/-- The policy on every tenant-scoped table. With no tenant set it is never true. -/
def tenantIsolation (current : Option Uuid) (tenantId : Uuid) : Bool := current = some tenantId

theorem tenantIsolation_some {current tenantId : Uuid} :
    tenantIsolation (some current) tenantId = true ↔ tenantId = current := by
  unfold tenantIsolation
  rw [decide_eq_true_eq, Option.some.injEq]
  exact eq_comm

theorem DistinctKeys.sublist {es fs : List (EventEnvelope V)} (h : DistinctKeys fs)
    (hsub : es.Sublist fs) : DistinctKeys es :=
  ⟨h.1.sublist (hsub.map _), h.2.sublist (hsub.map _)⟩

/-- The rows of a table that a condition picks. -/
def EventTable.filter {ρ : Type} {eventOf : ρ → EventEnvelope V} (t : EventTable V ρ eventOf)
    (p : ρ → Bool) : EventTable V ρ eventOf :=
  ⟨t.rows.filter p, t.distinct.sublist (List.filter_sublist.map _)⟩

/-- What a transaction sees of the database under the tenant it is scoped to (`USING`). -/
def Db.visible (db : Db V) (current : Option Uuid) : Db V where
  device d := (db.device d).filter fun record => tenantIsolation current record.tenantId
  table := db.table.filter fun row => tenantIsolation current row.event.tenantId

/-- The tenant of a device, looked up past the policies. -/
def Db.deviceTenant (db : Db V) (deviceId : Uuid) : Option Uuid :=
  (db.device deviceId).map (·.tenantId)

/-- What the requests signed by a device see. -/
def Db.scopedTo (db : Db V) (deviceId : Uuid) : Db V := db.visible (db.deviceTenant deviceId)

/-- A device sees its own row. -/
theorem Db.scopedTo_device (db : Db V) (d : Uuid) : (db.scopedTo d).device d = db.device d := by
  show (db.device d).filter (fun record =>
    tenantIsolation ((db.device d).map (·.tenantId)) record.tenantId) = db.device d
  cases db.device d with
  | none => rfl
  | some record => exact Option.filter_some_pos (tenantIsolation_some.mpr rfl)

/-- The update of a device's tip under a policy: a row that the transaction does not see stays, and
    the row it leaves has to pass the check (`WITH CHECK`). -/
def Db.setTipUnder (db : Db V) (current : Option Uuid) (d : Uuid) (tip : ChainTip) :
    Option (Uuid → Option DeviceRecord) :=
  if ((db.visible current).device d).isNone then some db.device
  else if (db.setTip d tip d).all fun record => tenantIsolation current record.tenantId then
    some (db.setTip d tip)
  else none

/-- A device's tip is moved under the policies as it would be without them. -/
theorem Db.setTipUnder_scoped (db : Db V) (d : Uuid) (tip : ChainTip) :
    db.setTipUnder (db.deviceTenant d) d tip = some (db.setTip d tip) := by
  unfold setTipUnder
  rw [← scopedTo, scopedTo_device]
  cases hrecord : db.device d with
  | none =>
    -- there is no such row, so neither update changes one
    refine congrArg some (funext fun x => ?_)
    by_cases hx : x = d
    · simp [setTip, hx, hrecord]
    · simp [setTip, hx]
  | some record =>
    have hpasses : (db.setTip d tip d).all fun record =>
        tenantIsolation (db.deviceTenant d) record.tenantId := by
      simp [setTip, deviceTenant, hrecord, tenantIsolation]
    simp only [Option.isNone_some, Bool.false_eq_true, if_false]
    rw [if_pos hpasses]

namespace Server

/-! ## Section 2: What is stored where -/

/-- An event is of the tenant and the outlet that its device is enrolled in. -/
def Placed (db : Db V) (e : EventEnvelope V) : Prop :=
  ∃ record, db.device e.deviceId = some record ∧ e.tenantId = record.tenantId ∧
    e.outletId = record.outletId

theorem Placed.mono {db db' : Db V} {e : EventEnvelope V} (h : Placed db e)
    (hdb : Extends db db') : Placed db' e := by
  obtain ⟨record, hrecord, htenant, houtlet⟩ := h
  obtain ⟨record', hrecord', htenant', houtlet'⟩ := hdb.device _ record hrecord
  exact ⟨record', hrecord', htenant.trans htenant'.symm, houtlet.trans houtlet'.symm⟩

theorem Placed.outletOf {db : Db V} {e : EventEnvelope V} (h : Placed db e) :
    Db.outletOf db e.deviceId = some e.outletId := by
  obtain ⟨record, hrecord, -, houtlet⟩ := h
  rw [Db.outletOf, hrecord, houtlet]
  rfl

/-- A row that comes into play was the next of an open push, and passed its check. -/
theorem step_enters {digest : HashFunction V} {s s' : Server V} {a : Action V}
    (h : step digest s a s') {row : EventRow V} (hrow : s'.InPlay row) :
    s.InPlay row ∨ ∃ t txn, s.txns t = some txn ∧ row.event ∈ txn.todo ∧
      scopeCheck txn row.event = .ok () := by
  obtain ⟨-, ⟨-, hplay⟩ | ⟨hnext, -⟩⟩ := step_inPlay h
  · exact .inl (hplay row hrow)
  cases a with
  | insertNext t =>
    obtain rfl := h
    rcases insertNext_cases s t with hs | hs | ⟨txn, e, rest, htxn, htodo, hscope, hs⟩
    · rw [hs] at hnext
      exact absurd hnext (lt_add_one _).ne
    · rw [hs] at hnext
      exact absurd hnext (lt_add_one _).ne
    · rw [hs] at hrow
      rcases hrow with hrow | ⟨x, txn', htxn', hrow⟩
      · exact .inl (.inl hrow)
      by_cases hx : x = t
      · simp only [hx, setTxn_self, Option.some.injEq] at htxn'
        subst htxn'
        rcases List.mem_append.mp hrow with hrow | hrow
        · exact .inl (.inr ⟨t, txn, htxn, hrow⟩)
        · rw [List.mem_singleton.mp hrow]
          exact .inr ⟨t, txn, htxn, htodo ▸ List.mem_cons_self, hscope⟩
      · exact .inl (.inr ⟨x, txn', by simpa [setTxn, hx] using htxn', hrow⟩)
  -- only an insert is handed a number
  | beginPush t d request =>
    obtain ⟨-, rfl⟩ := h
    rcases beginPush_cases digest s t d request with ⟨_, hs, _⟩ | ⟨_, _, _, _, hs⟩
    · rw [hs] at hnext
      exact absurd hnext (lt_add_one _).ne
    · rw [hs] at hnext
      exact absurd hnext (lt_add_one _).ne
  | commit t =>
    obtain rfl := h
    rcases commit_cases s t with hs | hs | ⟨_, _, _, _, _, hs⟩
    · rw [hs] at hnext
      exact absurd hnext (lt_add_one _).ne
    · rw [hs] at hnext
      exact absurd hnext (lt_add_one _).ne
    · rw [hs] at hnext
      exact absurd hnext (lt_add_one _).ne
  | abort t =>
    obtain rfl := h
    exact absurd hnext (lt_add_one _).ne

/-- Every row, committed or held by an open push, is where its device is enrolled. -/
def Scoped (s : Server V) : Prop := ∀ row, s.InPlay row → Placed s.db row.event

theorem scoped_fresh {s : Server V} (h : Fresh s) : Scoped s := by
  rintro row (hrow | ⟨t, txn, htxn, -⟩)
  · simp [h.table] at hrow
  · simp [h.txns t] at htxn

theorem scoped_step {digest : HashFunction V} {s s' : Server V} {a : Action V}
    (hinv : Inv digest s) (h : Scoped s) (hstep : step digest s a s') : Scoped s' := by
  intro row hrow
  have hextends := step_extends hinv hstep
  rcases step_enters hstep hrow with hold | ⟨t, txn, htxn, htodo, hscope⟩
  · exact (h row hold).mono hextends
  · -- the check compares the event with the row of the device as the push read it
    have hopen := hinv.txn t txn htxn
    obtain ⟨record, hrecord, htenant, houtlet⟩ := hopen.device
    have hdevice : row.event.deviceId = txn.deviceId :=
      (chainFrom_mem hopen.chain (List.mem_append_right _ htodo)).2.1
    have hscoped : row.event.tenantId = txn.record.tenantId ∧
        row.event.outletId = txn.record.outletId := by
      unfold scopeCheck at hscope
      split at hscope
      · cases hscope
      · rename_i hsame
        push Not at hsame
        exact hsame
    refine Placed.mono ⟨record, hdevice ▸ hrecord, ?_, ?_⟩ hextends
    · exact hscoped.1.trans htenant.symm
    · exact hscoped.2.trans houtlet.symm

theorem scoped_reachable {digest : HashFunction V} {s : Server V}
    (h : Transition.Reachable Fresh (step digest) s) : Scoped s := by
  have hboth := h.invariant (I := fun s => Inv digest s ∧ Scoped s)
    (fun _ hs => ⟨inv_fresh hs, scoped_fresh hs⟩)
    fun _ _ _ hs hstep => ⟨inv_step hs.1 hstep, scoped_step hs.1 hs.2 hstep⟩
  exact hboth.2

/-! ## Section 3: A device's requests -/

/-- Every outlet is of one tenant, so devices of one outlet are of one tenant. -/
def OutletsOwned (db : Db V) : Prop := ∀ d d' record record', db.device d = some record →
  db.device d' = some record' → record.outletId = record'.outletId →
    record.tenantId = record'.tenantId

/-- What is placed in the outlet of a device is of the tenant of the device. -/
theorem Placed.tenant_eq {db : Db V} {e : EventEnvelope V} (h : Placed db e)
    (howned : OutletsOwned db) {d : Uuid} {record : DeviceRecord}
    (hrecord : db.device d = some record) (houtlet : e.outletId = record.outletId) :
    e.tenantId = record.tenantId := by
  obtain ⟨sibling, hsibling, htenant, hplaced⟩ := h
  exact htenant.trans (howned _ _ _ _ hsibling hrecord (hplaced.symm.trans houtlet))

section Scoped

variable {db : Db V} {d : Uuid} (hplaced : ∀ row ∈ db.table.rows, Placed db row.event)

include hplaced

theorem pullRows_scoped (howned : OutletsOwned db) {record : DeviceRecord}
    (hrecord : db.device d = some record) (cursor : Int) :
    pullRows (db.scopedTo d) d record cursor = pullRows db d record cursor := by
  have htenant : db.deviceTenant d = some record.tenantId := by
    rw [Db.deviceTenant, hrecord]
    rfl
  unfold pullRows
  rw [Db.scopedTo, htenant]
  congr 1
  show (db.table.rows.filter _).filter _ = _
  rw [List.filter_filter]
  refine List.filter_congr fun row hrow => ?_
  -- a row that the pull picks is of the outlet, and therefore of the tenant
  rw [Bool.and_eq_left_iff_imp, decide_eq_true_eq]
  intro hpicked
  exact tenantIsolation_some.mpr ((hplaced row hrow).tenant_eq howned hrecord hpicked.1)

/-- A pull reads under the policies what it would read without them. -/
theorem servePull_scoped (howned : OutletsOwned db) (cursor : Int) (limit : Nat) :
    servePull (db.scopedTo d) d cursor limit = servePull db d cursor limit := by
  unfold servePull pull authenticate
  rw [Db.scopedTo_device]
  cases hrecord : db.device d with
  | none => rfl
  | some record =>
    cases hrevoked : record.revoked with
    | true => simp [Except.okOr, bind, Except.bind, hrevoked]
    | false =>
      simp only [Except.okOr, bind, Except.bind, hrevoked, Bool.false_eq_true, if_false]
      rw [pullRows_scoped hplaced howned hrecord]

/-- The events of a device are of its own tenant. -/
theorem highWaterFor_scoped : (db.scopedTo d).highWaterFor d = db.highWaterFor d := by
  unfold Db.highWaterFor
  congr 3
  show (db.table.rows.filter _).filter _ = _
  rw [List.filter_filter]
  refine List.filter_congr fun row hrow => ?_
  rw [Bool.and_eq_left_iff_imp, decide_eq_true_eq]
  rintro rfl
  obtain ⟨record, hrecord, htenant, -⟩ := hplaced row hrow
  rw [Db.deviceTenant, hrecord]
  exact tenantIsolation_some.mpr htenant

/-- A push begins under the policies as it would without them. -/
theorem beginPush_scoped {digest : HashFunction V} {s : Server V} (hdb : s.db = db) (t : Nat)
    (request : PushRequest V) :
    (beginPush digest { s with db := db.scopedTo d } t d request).2 =
        (s.beginPush digest t d request).2 ∧
      (beginPush digest { s with db := db.scopedTo d } t d request).1.txns =
        (s.beginPush digest t d request).1.txns := by
  have hopen : openPush digest (db.scopedTo d) d request = openPush digest s.db d request := by
    unfold openPush authenticate
    rw [Db.scopedTo_device, hdb]
  unfold beginPush
  rw [hopen]
  cases openPush digest s.db d request with
  | error rejection => exact ⟨rfl, rfl⟩
  | ok opened =>
    obtain ⟨record, plan⟩ := opened
    cases hnoop : plan.isNoop with
    | false =>
      simp only [hnoop, Bool.false_eq_true, if_false]
      exact ⟨trivial, rfl⟩
    | true =>
      simp only [hnoop, if_true]
      rw [highWaterFor_scoped hplaced, hdb]
      cases db.highWaterFor d with
      | error error => exact ⟨rfl, rfl⟩
      | ok highWater => exact ⟨rfl, rfl⟩

end Scoped

/-- Everything `d` is answered by a pull is of its siblings: of other devices that are enrolled in
    its own tenant and outlet. -/
def AnswersSiblings (db : Db V) (d : Uuid) (record : DeviceRecord) : Prop :=
  ∀ cursor limit page, servePull db d cursor limit = .ok page → ∀ e ∈ page.events,
    e.deviceId ≠ d ∧ e.tenantId = record.tenantId ∧ e.outletId = record.outletId ∧
      ∃ sibling, db.device e.deviceId = some sibling ∧ sibling.tenantId = record.tenantId ∧
        sibling.outletId = record.outletId

/-- The policies of the tenant of `d` change no answer that its requests are given, let every
    insert pass that the server's own check lets pass, and let its tip be moved as a commit moves
    it. -/
structure PoliciesTransparent (digest : HashFunction V) (s : Server V) (d : Uuid) : Prop where
  pull : ∀ cursor limit, servePull (s.db.scopedTo d) d cursor limit = servePull s.db d cursor limit
  push : ∀ t request, (beginPush digest { s with db := s.db.scopedTo d } t d request).2 =
      (s.beginPush digest t d request).2 ∧
    (beginPush digest { s with db := s.db.scopedTo d } t d request).1.txns =
      (s.beginPush digest t d request).1.txns
  insert : ∀ t txn, s.txns t = some txn → txn.deviceId = d → ∀ e ∈ txn.todo,
    scopeCheck txn e = .ok () → tenantIsolation (s.db.deviceTenant d) e.tenantId = true
  tip : ∀ tip, s.db.setTipUnder (s.db.deviceTenant d) d tip = some (s.db.setTip d tip)

/-- **Tenants apart**: however pushes interleave, what the server stores of a device is of the
    tenant and outlet the device is enrolled in, a pull answers events of its siblings only, and
    row-level security makes no difference to what a device reads or writes. -/
theorem tenants_apart {digest : HashFunction V} {s : Server V}
    (h : Transition.Reachable Fresh (step digest) s) (howned : OutletsOwned s.db) {d : Uuid}
    {record : DeviceRecord} (hrecord : s.db.device d = some record) :
    (∀ e ∈ s.db.table.events, Placed s.db e) ∧ AnswersSiblings s.db d record ∧
      PoliciesTransparent digest s d := by
  have hscoped := scoped_reachable h
  have hplaced : ∀ row ∈ s.db.table.rows, Placed s.db row.event := fun row hrow =>
    hscoped row (.inl hrow)
  refine ⟨fun e he => ?_, fun cursor limit page hpage e he => ?_,
    servePull_scoped hplaced howned, beginPush_scoped hplaced rfl,
    fun t txn htxn hdevice e he hscope => ?_, s.db.setTipUnder_scoped d⟩
  · obtain ⟨row, hrow, rfl⟩ := List.mem_map.mp he
    exact hplaced row hrow
  · obtain ⟨record', hrecord', hevents, -⟩ := servePull_eq_ok hpage
    obtain rfl := Option.some.inj (hrecord.symm.trans hrecord')
    rw [hevents] at he
    obtain ⟨row, hrow, rfl⟩ := List.mem_map.mp he
    obtain ⟨hstored, houtlet, hother, -⟩ := mem_pullRows.mp (List.mem_of_mem_take hrow)
    have htenant := (hplaced row hstored).tenant_eq howned hrecord houtlet
    obtain ⟨sibling, hsibling, hsame, hsameOutlet⟩ := hplaced row hstored
    exact ⟨hother, htenant, houtlet, sibling, hsibling, hsame.symm.trans htenant,
      hsameOutlet.symm.trans houtlet⟩
  · -- the device row the push read has the tenant that the transaction is scoped to
    obtain ⟨record', hrecord', htenant, -⟩ := ((inv_reachable h).txn t txn htxn).device
    rw [hdevice] at hrecord'
    unfold scopeCheck at hscope
    split at hscope
    · cases hscope
    · rename_i hsame
      push Not at hsame
      rw [Db.deviceTenant, hrecord']
      exact tenantIsolation_some.mpr (hsame.1.trans htenant.symm)

/-! ### Two shops on one server -/

/-- Tills 4 and 5 in outlet 2 of tenant 1, till 6 in outlet 9 of tenant 8. -/
def twoShops : Server Unit where
  db := { device := fun d =>
            if d = 4 ∨ d = 5 then some ⟨1, 2, false, ChainTip.genesis⟩
            else if d = 6 then some ⟨8, 9, false, ChainTip.genesis⟩ else none
          table := EventTable.empty }
  nextSeq := 1
  txns := fun _ => none

theorem twoShops_fresh : Fresh twoShops where
  table := rfl
  tip := by
    intro d record h
    simp only [twoShops] at h
    split at h
    · cases h
      rfl
    · split at h
      · cases h
        rfl
      · cases h
  nextSeq := rfl
  txns := fun _ => rfl

/-- Both shops have sold. -/
def bothSold : Server Unit :=
  let first := (twoShops.push idDigest 0 5 ⟨5, [idEvent 5 50 1 EventHash.genesis]⟩).1
  (first.push idDigest 0 6 ⟨6, [{ idEvent 6 60 1 EventHash.genesis with
    tenantId := 8, outletId := 9 }]⟩).1

theorem bothSold_reachable : Transition.Reachable Fresh (step idDigest) bothSold :=
  push_reachable (push_reachable (.init twoShops_fresh) rfl 5 _) rfl 6 _

/-- Where a device of the two shops is enrolled. -/
theorem bothSold_enrolled {d : Uuid} {record : DeviceRecord}
    (h : bothSold.db.device d = some record) :
    record.tenantId = 8 ∧ record.outletId = 9 ∨ record.tenantId = 1 ∧ record.outletId = 2 := by
  have hdevice : bothSold.db.device d = if d = 6 then bothSold.db.device 6
      else if d = 5 then bothSold.db.device 5 else twoShops.db.device d := rfl
  rw [hdevice] at h
  split at h
  · cases h
    exact .inl ⟨rfl, rfl⟩
  split at h
  · cases h
    exact .inr ⟨rfl, rfl⟩
  · simp only [twoShops] at h
    split at h
    · cases h
      exact .inr ⟨rfl, rfl⟩
    · cases h

theorem tenants_apart_bothSold : bothSold.db.table.events.length = 2 ∧
    AnswersSiblings bothSold.db 4 ⟨1, 2, false, ChainTip.genesis⟩ := by
  have howned : OutletsOwned bothSold.db := by
    intro d d' record record' hrecord hrecord' hsame
    rcases bothSold_enrolled hrecord with ⟨htenant, houtlet⟩ | ⟨htenant, houtlet⟩ <;>
      rcases bothSold_enrolled hrecord' with ⟨htenant', houtlet'⟩ | ⟨htenant', houtlet'⟩
    · rw [htenant, htenant']
    · rw [houtlet, houtlet'] at hsame
      exact absurd hsame (by decide)
    · rw [houtlet, houtlet'] at hsame
      exact absurd hsame (by decide)
    · rw [htenant, htenant']
  exact ⟨by decide, (tenants_apart bothSold_reachable howned rfl).2.1⟩

end Server

/-! ## Section 4: The dashboard -/

/-- A row of `dashboard_token`: how an owner reads their own numbers. -/
structure DashboardToken where
  tenantId : Uuid
  /-- Every outlet of the tenant, where there is none. -/
  outletId : Option Uuid
  tokenHash : EventHash
  revoked : Bool

/-- Who is asking, and what they may see. -/
structure Reader where
  tenantId : Uuid
  outletId : Option Uuid

inductive ReportStatus where
  | badRequest
  | unauthorized
  | forbidden
  | unprocessable
  | unavailable
  deriving DecidableEq

/-- Which statements of a report fail in the database. -/
structure ReportFaults where
  tokenForDigest : Bool
  beginForTenant : Bool
  /-- Getting the connection for the sales, or reading them. -/
  sales : Bool
  /-- Getting the connection for the staff. -/
  connection : Bool
  staff : Bool

/-- Nothing fails. -/
def ReportFaults.none : ReportFaults where
  tokenForDigest := false
  beginForTenant := false
  sales := false
  connection := false
  staff := false

/-- What follows `Bearer` in an authorization header. -/
def bearer (value : String) : Option String :=
  if Text.startsWith value "Bearer " then some (String.ofList (value.toList.drop 7)) else none

/-- `dashboard_token_for_digest`, past the policies. -/
def dashboardTokenForDigest (tokens : List DashboardToken) (digest : EventHash) :
    Option DashboardToken :=
  tokens.find? (·.tokenHash = digest)

namespace Reader

/-- Verify a bearer token. Every failure looks identical, but for those of the database. -/
def authenticate (sha256 : List UInt8 → EventHash) (tokens : List DashboardToken)
    (faults : ReportFaults) (authorization : Option String) : Except ReportStatus Reader := do
  let presented ← Except.okOr (authorization.bind bearer) .unauthorized
  if faults.tokenForDigest then .error .unavailable
  else
    let token ← Except.okOr (dashboardTokenForDigest tokens (digestToken sha256 presented))
      .unauthorized
    if token.revoked then .error .unauthorized
    else if faults.beginForTenant then .error .unavailable
    else .ok ⟨token.tenantId, token.outletId⟩

/-- The outlet a report is about: the one the token is for, whatever is asked. -/
def outlet (reader : Reader) (asked : Option Uuid) : Except ReportStatus Uuid :=
  match reader.outletId, asked with
  | some only, some asked => if only ≠ asked then .error .forbidden else .ok only
  | some only, none => .ok only
  | none, some asked => .ok asked
  | none, none => .error .badRequest

/-- What a token lets its holder read. -/
def mayRead (reader : Reader) (e : EventEnvelope V) : Bool :=
  e.tenantId = reader.tenantId ∧ ∀ only ∈ reader.outletId, e.outletId = only

theorem outlet_of_scoped {reader : Reader} {asked : Option Uuid} {outlet only : Uuid}
    (h : reader.outlet asked = .ok outlet) (honly : reader.outletId = some only) :
    outlet = only := by
  unfold Reader.outlet at h
  rw [honly] at h
  cases asked with
  | none =>
    cases h
    rfl
  | some asked =>
    simp only at h
    split at h
    · cases h
    · cases h
      rfl

end Reader

/-- A report whose directory could not be read names no one. -/
def DayReport.unnamed (report : DayReport) : DayReport :=
  { report with staff := report.staff.map fun row => { row with name := "Unknown" } }

/-- A day, totalled from the log of an outlet where the statements that read it may fail. The
    connection for the staff is asked for once the sales have replayed. -/
def Db.dayUnder (db : Db Payload) (faults : ReportFaults) (outlet : Uuid) (window : DayWindow) :
    Except ReportStatus DayReport := do
  if faults.sales then .error .unavailable
  else
    let _ ← (SaleBook.replay (db.saleEvents outlet window)).mapError fun _ =>
      ReportStatus.unprocessable
    if faults.connection then .error .unavailable
    else
      let report ← (db.day outlet window).mapError fun _ => ReportStatus.unprocessable
      .ok (if faults.staff then report.unnamed else report)

/-- `GET /api/report/day`: a day, totalled from the log as the policies show it. -/
def dayRoute (sha256 : List UInt8 → EventHash) (tokens : List DashboardToken)
    (faults : ReportFaults) (db : Db Payload) (authorization : Option String)
    (asked : Option Uuid) (window : DayWindow) : Except ReportStatus DayReport := do
  let reader ← Reader.authenticate sha256 tokens faults authorization
  let outlet ← reader.outlet asked
  (db.visible (some reader.tenantId)).dayUnder faults outlet window

/-- A report is made of what its two queries read. -/
theorem Db.dayUnder_congr {db db' : Db Payload} {outlet : Uuid}
    (h : ∀ family window, db.query outlet family window = db'.query outlet family window)
    (faults : ReportFaults) (window : DayWindow) :
    db.dayUnder faults outlet window = db'.dayUnder faults outlet window := by
  unfold Db.dayUnder Db.day Db.saleEvents Db.directory
  rw [h, h]

/-- Scoped to the tenant of a reader, a query for its outlet reads what the reader may. -/
theorem Db.query_visible {db : Db Payload} {reader : Reader} {asked : Option Uuid} {outlet : Uuid}
    (houtlet : reader.outlet asked = .ok outlet) (family : Family) (window : DayWindow) :
    (db.visible (some reader.tenantId)).query outlet family window =
      orderBy dayKey ((db.table.events.filter reader.mayRead).filter fun e =>
        (e.outletId = outlet ∧ Text.startsWith e.kind family.kindPrefix) ∧
          window.covers e.occurredAt) := by
  have hevents : (db.visible (some reader.tenantId)).table.events =
      db.table.events.filter fun e => tenantIsolation (some reader.tenantId) e.tenantId := by
    show (db.table.rows.filter _).map EventRow.event = (db.table.rows.map EventRow.event).filter _
    rw [List.filter_map]
    rfl
  unfold Db.query
  rw [hevents, List.filter_filter, List.filter_filter]
  refine congrArg _ (List.filter_congr fun e _ => ?_)
  rw [Bool.eq_iff_iff, Bool.and_eq_true, Bool.and_eq_true, decide_eq_true_eq, tenantIsolation_some,
    Reader.mayRead, decide_eq_true_eq]
  refine and_congr_right fun hpicked => ?_
  constructor
  · intro htenant
    refine ⟨htenant, fun only honly => ?_⟩
    exact hpicked.1.1.trans (Reader.outlet_of_scoped houtlet honly)
  · exact fun hread => hread.1

/-- **The dashboard apart**: what a bearer is answered depends on no event that its token does not
    let it read, whichever outlet it asks for and whatever fails in the database. -/
theorem dashboard_apart {sha256 : List UInt8 → EventHash} {tokens : List DashboardToken}
    {faults : ReportFaults} {db db' : Db Payload} {authorization : Option String}
    (hsame : ∀ reader, Reader.authenticate sha256 tokens faults authorization = .ok reader →
      db.table.events.filter reader.mayRead = db'.table.events.filter reader.mayRead)
    (asked : Option Uuid) (window : DayWindow) :
    dayRoute sha256 tokens faults db authorization asked window =
      dayRoute sha256 tokens faults db' authorization asked window := by
  unfold dayRoute
  cases hreader : Reader.authenticate sha256 tokens faults authorization with
  | error status => rfl
  | ok reader =>
    simp only [bind, Except.bind]
    cases houtlet : reader.outlet asked with
    | error status => rfl
    | ok outlet =>
      simp only
      refine Db.dayUnder_congr (fun family window => ?_) faults window
      rw [Db.query_visible houtlet, Db.query_visible houtlet, hsame reader hreader]

/-! ### An owner who asks for a rival's outlet -/

/-- A sale opened at an outlet of a tenant. -/
def soldAt (tenant outlet id : Uuid) : EventRow Payload where
  event := ⟨id, tenant, outlet, 4, id.bits.val, ⟨I64.lit 5⟩, "sale.opened",
    .known (.sale (.opened 20 7 .bdt .taxInclusive .halfUp)), EventHash.genesis, EventHash.genesis⟩
  serverSeq := id.bits.val

/-- The rows of two tenants, and of the first alone. -/
def twoTenants : Db Payload := ⟨fun _ => none, ⟨[soldAt 1 2 10, soldAt 8 9 11], by decide⟩⟩

def oneTenant : Db Payload := ⟨fun _ => none, ⟨[soldAt 1 2 10], by decide⟩⟩

/-- A token of tenant 1 for all its outlets, under a digest that tells lengths apart. -/
def lengthSha (bytes : List UInt8) : EventHash := ⟨Fin.ofNat _ bytes.length⟩

def ownerToken : DashboardToken := ⟨1, none, lengthSha (Text.utf8 "key"), false⟩

theorem dashboard_apart_rival :
    dayRoute lengthSha [ownerToken] .none twoTenants (some "Bearer key") (some 9) .unbounded =
      dayRoute lengthSha [ownerToken] .none oneTenant (some "Bearer key") (some 9) .unbounded := by
  have howner : Reader.authenticate lengthSha [ownerToken] .none (some "Bearer key") =
      .ok ⟨1, none⟩ := by rfl
  refine dashboard_apart (fun reader hreader => ?_) (some 9) .unbounded
  obtain rfl := Except.ok.inj (howner.symm.trans hreader)
  decide

end Sahl
