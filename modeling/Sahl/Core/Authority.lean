import Mathlib.Tactic
import Sahl.Core.Staff

/-! # Who may do what

    A role holds permissions; a threshold lets a cashier do a little without one. What needs
    somebody else is approved by a PIN typed at the till. How a PIN is checked against a stored
    hash is a parameter: the key derivation is not this program's. -/

namespace Sahl

/-! ## Section 1: Permissions and thresholds -/

/-- Something a person might try to do. -/
inductive Permission where
  | ringSale
  | voidLine
  | refundSale
  | applyDiscount
  | overridePrice
  | noSaleDrawer
  | openShift
  | closeShift
  | moveCash
  | receiveStock
  | countStock
  | editCatalogue
  | manageStaff
  | enrolDevice
  | viewReports
  deriving DecidableEq

/-- Whether a role may do something at all, ignoring thresholds. -/
def Role.can : Role → Permission → Bool
  | .owner, _ => true
  | .manager, .manageStaff | .manager, .enrolDevice => false
  | .manager, _ => true
  | .cashier, .ringSale | .cashier, .openShift | .cashier, .countStock
  | .cashier, .receiveStock => true
  | .cashier, _ => false

/-- What an action needs before it may proceed. -/
inductive Authorization where
  | allowed
  | needsApproval (minimum : Role)
  | denied
  deriving DecidableEq

/-- Whether a discount of this size may be given unaided. -/
def authorizeDiscount (actor : Role) (amount : Money) (policy : ApprovalPolicy) : Authorization :=
  if actor.can .applyDiscount ∨ amount.minor ≤ policy.discountLimit.minor then .allowed
  else .needsApproval .manager

/-- Whether a percentage discount of this size may be given unaided. -/
def authorizeDiscountRate (actor : Role) (rate : Rate) (policy : ApprovalPolicy) :
    Authorization :=
  if actor.can .applyDiscount ∨ rate.basisPoints ≤ policy.discountRateLimit.basisPoints then
    .allowed
  else .needsApproval .manager

/-- Whether a line worth this much may be voided unaided. -/
def authorizeVoid (actor : Role) (lineValue : Money) (policy : ApprovalPolicy) : Authorization :=
  if !actor.can .voidLine then
    if lineValue.minor ≤ policy.voidLimit.minor then .allowed else .needsApproval .manager
  else .allowed

theorem authorizeDiscount_eq_allowed {actor : Role} {amount : Money} {policy : ApprovalPolicy} :
    authorizeDiscount actor amount policy = .allowed ↔
      actor.can .applyDiscount ∨ amount.minor ≤ policy.discountLimit.minor := by
  unfold authorizeDiscount
  split <;> simp_all

theorem authorizeDiscountRate_eq_allowed {actor : Role} {rate : Rate} {policy : ApprovalPolicy} :
    authorizeDiscountRate actor rate policy = .allowed ↔
      actor.can .applyDiscount ∨ rate.basisPoints ≤ policy.discountRateLimit.basisPoints := by
  unfold authorizeDiscountRate
  split <;> simp_all

theorem authorizeVoid_eq_allowed {actor : Role} {lineValue : Money} {policy : ApprovalPolicy} :
    authorizeVoid actor lineValue policy = .allowed ↔
      actor.can .voidLine ∨ lineValue.minor ≤ policy.voidLimit.minor := by
  unfold authorizeVoid
  cases actor.can .voidLine with
  | true => simp
  | false =>
    by_cases hlimit : lineValue.minor ≤ policy.voidLimit.minor
    · simp [hlimit]
    · simp [hlimit]

/-! ## Section 2: PINs -/

inductive PinError where
  | length (length : Nat)
  | notNumeric
  | guessable
  | corruptHash
  | hashFailed
  deriving DecidableEq

/-- Whether an entered PIN matches a stored hash; a hash that cannot be read is an error. -/
abbrev PinVerify := String → String → Except PinError Bool

/-- Everyone who can currently do something. -/
def StaffMember.can (member : StaffMember) (permission : Permission) : Bool :=
  member.active && member.role.can permission

/-- How an attempt to sign in ended. -/
inductive SignIn where
  | ok (staffId : Uuid) (role : Role)
  | wrongPin
  | unknown
  /-- The account exists but has been deactivated. -/
  | inactive
  deriving DecidableEq

/-- The first of some people whose PIN was entered. -/
def firstMatch (verify : PinVerify) (entered : String) :
    List StaffMember → Except PinError (Option StaffMember)
  | [] => .ok none
  | member :: rest => do
    let matches' ← verify entered member.pinHash
    if matches' then .ok (some member) else firstMatch verify entered rest

namespace Directory

variable (verify : PinVerify) (directory : Directory)

def get (staffId : Uuid) : Option StaffMember := directory.members[staffId]?

/-- The role of one person. -/
def roleOf (staffId : Uuid) : Option Role := (directory.get staffId).map (·.role)

def isEmpty : Bool := directory.members.isEmpty

/-- Check a PIN against one person. -/
def signIn (staffId : Uuid) (entered : String) : Except PinError SignIn :=
  match directory.get staffId with
  | none => .ok .unknown
  | some member =>
    if !member.active then .ok .inactive
    else do
      let matches' ← verify entered member.pinHash
      .ok (if matches' then .ok staffId member.role else .wrongPin)

/-- The people who hold a permission, in the order of their ids. -/
def holders (permission : Permission) : List StaffMember :=
  (directory.members.toList.map (·.2)).filter (·.can permission)

/-- Authenticate someone senior enough to approve. -/
def approve (permission : Permission) (entered : String) : Except PinError SignIn := do
  match ← firstMatch verify entered (directory.holders permission) with
  | some member => .ok (.ok member.id member.role)
  | none => .ok (if (directory.holders permission).isEmpty then .unknown else .wrongPin)

end Directory

theorem firstMatch_eq_some {verify : PinVerify} {entered : String} {people : List StaffMember}
    {member : StaffMember} (h : firstMatch verify entered people = .ok (some member)) :
    member ∈ people ∧ verify entered member.pinHash = .ok true := by
  induction people with
  | nil => cases h
  | cons first rest ih =>
    obtain ⟨matches', hverify, h⟩ := Except.bind_eq_ok.mp h
    cases matches' with
    | true =>
      cases h
      exact ⟨List.mem_cons_self, hverify⟩
    | false =>
      obtain ⟨hmem, hpin⟩ := ih h
      exact ⟨List.mem_cons_of_mem _ hmem, hpin⟩

namespace Directory

variable {verify : PinVerify} {directory : Directory} {permission : Permission}
  {entered : String}

theorem mem_holders {member : StaffMember} :
    member ∈ directory.holders permission ↔
      ∃ staffId, directory.get staffId = some member ∧ member.can permission := by
  simp only [holders, List.mem_filter, List.mem_map, Prod.exists, exists_eq_right, get,
    Std.ExtTreeMap.mem_toList_iff_getElem?_eq_some]
  constructor
  · intro h
    obtain ⟨⟨staffId, hmember⟩, hcan⟩ := h
    exact ⟨staffId, hmember, hcan⟩
  · intro h
    obtain ⟨staffId, hmember, hcan⟩ := h
    exact ⟨⟨staffId, hmember⟩, hcan⟩

/-- Only an active person signs in, with their own PIN and the role they have. -/
theorem signIn_eq_ok {staffId signedIn : Uuid} {role : Role} :
    directory.signIn verify staffId entered = .ok (.ok signedIn role) ↔
      ∃ member, directory.get staffId = some member ∧ member.active ∧
        verify entered member.pinHash = .ok true ∧ signedIn = staffId ∧ role = member.role := by
  unfold signIn
  cases hmember : directory.get staffId with
  | none => simp
  | some member =>
    -- somebody who left is refused before the pin is looked at
    by_cases hactive : member.active
    · simp only [hactive, Bool.not_true, Bool.false_eq_true, if_false]
      constructor
      · intro h
        obtain ⟨matches', hverify, h⟩ := Except.bind_eq_ok.mp h
        cases matches' with
        | true =>
          cases h
          exact ⟨member, rfl, hactive, hverify, rfl, rfl⟩
        | false => cases h
      · intro h
        obtain ⟨found, hfound, -, hverify, rfl, rfl⟩ := h
        cases hfound
        rw [hverify]
        rfl
    · simp [hactive]

/-- Only a holder of the permission approves, with a PIN of their own. -/
theorem approve_eq_ok {staffId : Uuid} {role : Role}
    (h : directory.approve verify permission entered = .ok (.ok staffId role)) :
    ∃ member ∈ directory.holders permission,
      member.id = staffId ∧ verify entered member.pinHash = .ok true := by
  obtain ⟨found, hfound, h⟩ := Except.bind_eq_ok.mp h
  cases found with
  | some member =>
    cases h
    obtain ⟨hmem, hpin⟩ := firstMatch_eq_some hfound
    exact ⟨member, hmem, rfl, hpin⟩
  | none =>
    simp only [Except.ok.injEq] at h
    split at h
    · cases h
    · cases h

end Directory

/-! ### What the staff events say last -/

namespace StaffEvent

/-- The role an event gives. -/
def role? : StaffEvent → Option Role
  | enrolled _ _ role .. | roleChanged _ role .. => some role
  | _ => none

/-- The PIN hash an event sets. -/
def pinHash? : StaffEvent → Option String
  | enrolled _ _ _ pinHash .. | pinChanged _ pinHash .. => some pinHash
  | _ => none

/-- Whether an event lets somebody in or shuts them out. -/
def activation? : StaffEvent → Option Bool
  | enrolled .. | reactivated .. => some true
  | deactivated .. => some false
  | _ => none

/-- The last thing of a kind that events say about somebody. -/
def latest {β : Type} (told : StaffEvent → Option β) (staffId : Uuid) (events : List StaffEvent) :
    Option β :=
  ((events.filter (·.staffId = staffId)).filterMap told).getLast?

theorem latest_concat {β : Type} (told : StaffEvent → Option β) (staffId : Uuid)
    (events : List StaffEvent) (event : StaffEvent) :
    latest told staffId (events ++ [event]) =
      if event.staffId = staffId then (told event).or (latest told staffId events)
      else latest told staffId events := by
  unfold latest
  rw [List.filter_append, List.filterMap_append]
  by_cases hid : event.staffId = staffId
  · rw [if_pos hid, List.filter_cons_of_pos (by simpa using hid)]
    cases htold : told event <;> simp [htold]
  · rw [if_neg hid, List.filter_cons_of_neg (by simpa using hid)]
    simp

end StaffEvent

namespace Directory

variable {events : List StaffEvent} {directory : Directory}

/-- A person's record says what the events said last, where each event leaves what it tells. -/
theorem replay_latest {β : Type} {told : StaffEvent → Option β} {field : StaffMember → β}
    (hrecord : ∀ event entry member, StaffEvent.record event entry = .ok member →
      some (field member) = (told event).or (entry.map field))
    (h : replay events = .ok directory) (staffId : Uuid) :
    (directory.get staffId).map field = StaffEvent.latest told staffId events := by
  refine foldlM_invariant (fun seen (d : Directory) =>
    (d.get staffId).map field = StaffEvent.latest told staffId seen) ?_ ?_ h
  · intro seen d event d' hseen hstep
    obtain ⟨member, hmember, hinsert⟩ := UuidMap.alterM_eq_ok.mp (apply_eq_ok.mp hstep)
    rw [StaffEvent.latest_concat, get, ← hinsert, UuidMap.get_insert]
    by_cases hid : event.staffId = staffId
    · subst hid
      rw [if_pos rfl, if_pos rfl, ← hseen]
      exact hrecord event _ member hmember
    · rw [if_neg hid, if_neg hid]
      exact hseen
  · simp [get, new, StaffEvent.latest]

theorem replay_role (h : replay events = .ok directory) (staffId : Uuid) :
    (directory.get staffId).map (·.role) = StaffEvent.latest StaffEvent.role? staffId events := by
  refine replay_latest (fun event entry member hrecord => ?_) h staffId
  cases event <;> cases entry <;> cases hrecord <;> rfl

theorem replay_pinHash (h : replay events = .ok directory) (staffId : Uuid) :
    (directory.get staffId).map (·.pinHash) =
      StaffEvent.latest StaffEvent.pinHash? staffId events := by
  refine replay_latest (fun event entry member hrecord => ?_) h staffId
  cases event <;> cases entry <;> cases hrecord <;> rfl

theorem replay_active (h : replay events = .ok directory) (staffId : Uuid) :
    (directory.get staffId).map (·.active) =
      StaffEvent.latest StaffEvent.activation? staffId events := by
  refine replay_latest (fun event entry member hrecord => ?_) h staffId
  cases event <;> cases entry <;> cases hrecord <;> rfl

/-- Everyone is filed under their own id. -/
theorem replay_id (h : replay events = .ok directory) {staffId : Uuid} {member : StaffMember}
    (hmember : directory.get staffId = some member) : member.id = staffId := by
  refine foldlM_invariant (fun _ (d : Directory) => ∀ (staffId : Uuid) member,
    d.get staffId = some member → member.id = staffId) ?_ ?_ h staffId member hmember
  · intro _ d event d' hseen hstep staffId member hmember
    obtain ⟨changed, hchanged, hinsert⟩ := UuidMap.alterM_eq_ok.mp (apply_eq_ok.mp hstep)
    rw [get, ← hinsert, UuidMap.get_insert] at hmember
    split at hmember
    · rename_i hid
      subst hid
      cases hmember
      cases hentry : d.members[event.staffId]? with
      | none =>
        rw [hentry] at hchanged
        cases event <;> cases hchanged
        rfl
      | some before =>
        have hbefore := hseen event.staffId before hentry
        rw [hentry] at hchanged
        cases event <;> cases hchanged <;> exact hbefore
    · exact hseen staffId member hmember
  · intro staffId member hnone
    simp [get, new] at hnone

end Directory

/-! ## Section 3: Sessions -/

/-- How long a till stays signed in after the last thing anybody did. -/
def sessionIdleTimeoutMillis : I64 := I64.lit 300000

/-- Somebody signed in. -/
structure Session where
  staffId : Uuid
  role : Role
  signedInAt : Timestamp
  touchedAt : Timestamp
  deriving DecidableEq

/-- Whether a session has gone idle. -/
def Session.isExpired (session : Session) (now : Timestamp) (timeoutMillis : I64) : Bool :=
  0 < ((now.millis.saturatingSub session.touchedAt.millis).saturatingSub timeoutMillis).val

/-- Whether anybody is at the till. -/
inductive Presence where
  | signedOut
  | signedIn (session : Session)
  deriving DecidableEq

namespace Presence

def signIn (staffId : Uuid) (role : Role) (at' : Timestamp) : Presence :=
  .signedIn ⟨staffId, role, at', at'⟩

/-- Who is signed in as of `now`. -/
def current (presence : Presence) (now : Timestamp) (timeoutMillis : I64) : Option Session :=
  match presence with
  | .signedOut => none
  | .signedIn session => if session.isExpired now timeoutMillis then none else some session

/-- The signed-in person did something; a session that has expired is not revived. -/
def touch (presence : Presence) (now : Timestamp) (timeoutMillis : I64) : Presence :=
  match presence with
  | .signedOut => .signedOut
  | .signedIn session =>
    if session.isExpired now timeoutMillis then .signedOut
    else .signedIn { session with touchedAt := now }

end Presence

/-- More than the timeout after the last thing somebody did. -/
def Idle (seen now : Timestamp) : Prop :=
  seen.millis.val + sessionIdleTimeoutMillis.val < now.millis.val

instance (seen now : Timestamp) : Decidable (Idle seen now) := inferInstanceAs (Decidable (_ < _))

theorem Session.isExpired_iff (session : Session) (now : Timestamp) :
    session.isExpired now sessionIdleTimeoutMillis = true ↔ Idle session.touchedAt now := by
  unfold Session.isExpired Idle sessionIdleTimeoutMillis
  rw [decide_eq_true_eq, I64.saturatingSub_val, I64.saturatingSub_val, I64.lit_val]
  have hnow := now.millis.hi'
  have hseen := session.touchedAt.millis.lo'
  omega

end Sahl
