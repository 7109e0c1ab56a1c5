import Mathlib.Tactic
import Sahl.Core.Money

/-! # Staff

    Who works here, rebuilt from staff events. A person who leaves is deactivated, never
    deleted. -/

namespace Sahl

/-! ## Section 1: Roles and events -/

inductive Role where
  | cashier
  | manager
  | owner
  deriving DecidableEq

/-- Thresholds above which a cashier needs someone else's approval. -/
structure ApprovalPolicy where
  discountLimit : Money
  discountRateLimit : Rate
  voidLimit : Money
  deriving DecidableEq

/-- Every threshold at zero. -/
def ApprovalPolicy.strictest (currency : Currency) : ApprovalPolicy :=
  { discountLimit := Money.zero currency, discountRateLimit := Rate.zero,
    voidLimit := Money.zero currency }

/-- Everything that happens to a staff member. -/
inductive StaffEvent where
  | enrolled (staffId : Uuid) (name : String) (role : Role) (pinHash : String) (at' : Timestamp)
      (enrolledBy : Uuid)
  | roleChanged (staffId : Uuid) (role : Role) (at' : Timestamp) (changedBy : Uuid)
  | pinChanged (staffId : Uuid) (pinHash : String) (at' : Timestamp) (changedBy : Uuid)
  | deactivated (staffId : Uuid) (at' : Timestamp) (deactivatedBy : Uuid)
  | reactivated (staffId : Uuid) (at' : Timestamp) (reactivatedBy : Uuid)
  deriving DecidableEq

namespace StaffEvent

def staffId : StaffEvent → Uuid
  | enrolled staffId .. | roleChanged staffId .. | pinChanged staffId .. | deactivated staffId ..
  | reactivated staffId .. => staffId

def kind : StaffEvent → String
  | enrolled .. => "staff.enrolled"
  | roleChanged .. => "staff.role_changed"
  | pinChanged .. => "staff.pin_changed"
  | deactivated .. => "staff.deactivated"
  | reactivated .. => "staff.reactivated"

def isEnrolment : StaffEvent → Bool
  | enrolled .. => true
  | _ => false

end StaffEvent

inductive DirectoryError where
  | unknown (staffId : Uuid)
  | duplicate (staffId : Uuid)
  deriving DecidableEq

/-! ## Section 2: The directory -/

/-- One person. -/
structure StaffMember where
  id : Uuid
  name : String
  role : Role
  active : Bool
  pinHash : String
  enrolledAt : Timestamp
  deriving DecidableEq

/-- The body of `apply`, on the record the person has. -/
def StaffEvent.record : StaffEvent → Option StaffMember → Except DirectoryError StaffMember
  | .enrolled staffId .., some _ => .error (.duplicate staffId)
  | .enrolled staffId name role pinHash at' _, none =>
    .ok { id := staffId, name, role, active := true, pinHash, enrolledAt := at' }
  | .roleChanged _ role .., some member => .ok { member with role }
  | .pinChanged _ pinHash .., some member => .ok { member with pinHash }
  | .deactivated .., some member => .ok { member with active := false }
  | .reactivated .., some member => .ok { member with active := true }
  | event, none => .error (.unknown event.staffId)

/-- The outlet's staff. -/
structure Directory where
  members : UuidMap StaffMember
  deriving DecidableEq

namespace Directory

def new : Directory := ⟨∅⟩

/-- Apply one event. -/
def apply (directory : Directory) (event : StaffEvent) : Except DirectoryError Directory := do
  let members ← directory.members.alterM event.staffId event.record
  .ok ⟨members⟩

/-- Rebuild from a stream of events. -/
def replay (events : List StaffEvent) : Except DirectoryError Directory :=
  events.foldlM apply new

theorem apply_eq_ok {directory directory' : Directory} {event : StaffEvent} :
    directory.apply event = .ok directory' ↔
      directory.members.alterM event.staffId event.record = .ok directory'.members := by
  unfold apply
  rw [Except.bind_eq_ok]
  constructor
  · rintro ⟨members, h, hmk⟩
    cases hmk
    exact h
  · intro h
    exact ⟨_, h, rfl⟩

/-- Events on two people can be applied in either order. -/
theorem apply_swap {directory directory' directory'' : Directory} {a b : StaffEvent}
    (h : a.staffId ≠ b.staffId) (ha : directory.apply a = .ok directory')
    (hb : directory'.apply b = .ok directory'') :
    ∃ mid, directory.apply b = .ok mid ∧ mid.apply a = .ok directory'' := by
  obtain ⟨members, hmid, hlast⟩ :=
    UuidMap.alterM_swap h (apply_eq_ok.mp ha) (apply_eq_ok.mp hb)
  exact ⟨⟨members⟩, apply_eq_ok.mpr hmid, apply_eq_ok.mpr hlast⟩

/-! ### Which streams replay -/

/-- The events about one person, the enrolment first and once. -/
def EnrolledFirst : List StaffEvent → Prop
  | [] => True
  | first :: rest => first.isEnrolment ∧ ∀ event ∈ rest, ¬ event.isEnrolment

theorem record_some (event : StaffEvent) (member : StaffMember) :
    (∃ member', StaffEvent.record event (some member) = .ok member') ↔ ¬ event.isEnrolment := by
  cases event <;> simp [StaffEvent.record, StaffEvent.isEnrolment]

theorem record_none (event : StaffEvent) :
    (∃ member, StaffEvent.record event none = .ok member) ↔ event.isEnrolment := by
  cases event <;> simp [StaffEvent.record, StaffEvent.isEnrolment]

/-- Once someone is enrolled, anything but an enrolment is recorded. -/
theorem record_enrolled_isOkay (events : List StaffEvent) (member : StaffMember) :
    (events.foldlM (fun entry event => (StaffEvent.record event entry).map some)
      (some member)).isOkay ↔ ∀ event ∈ events, ¬ event.isEnrolment := by
  induction events generalizing member with
  | nil => simp [Except.isOkay, pure, Except.pure]
  | cons event events ih =>
    rw [foldlM_cons_isOkay, List.forall_mem_cons, ← record_some event member]
    constructor
    · rintro ⟨entry, hentry, hrest⟩
      obtain ⟨member', hmember', rfl⟩ := Except.map_eq_ok.mp hentry
      exact ⟨⟨member', hmember'⟩, (ih member').mp hrest⟩
    · rintro ⟨⟨member', hmember'⟩, hrest⟩
      exact ⟨some member', Except.map_eq_ok.mpr ⟨member', hmember', rfl⟩, (ih member').mpr hrest⟩

theorem record_isOkay (events : List StaffEvent) :
    (events.foldlM (fun entry event => (StaffEvent.record event entry).map some)
      none).isOkay ↔ EnrolledFirst events := by
  cases events with
  | nil => simp [EnrolledFirst, Except.isOkay, pure, Except.pure]
  | cons first rest =>
    rw [foldlM_cons_isOkay, EnrolledFirst, ← record_none first]
    constructor
    · rintro ⟨entry, hentry, hrest⟩
      obtain ⟨member, hmember, rfl⟩ := Except.map_eq_ok.mp hentry
      exact ⟨⟨member, hmember⟩, (record_enrolled_isOkay rest member).mp hrest⟩
    · rintro ⟨⟨member, hmember⟩, hrest⟩
      exact ⟨some member, Except.map_eq_ok.mpr ⟨member, hmember, rfl⟩,
        (record_enrolled_isOkay rest member).mpr hrest⟩

/-- A stream replays exactly when everyone in it is enrolled first, and once. -/
theorem replay_isOkay_iff (events : List StaffEvent) :
    (replay events).isOkay ↔
      ∀ staffId : Uuid, EnrolledFirst (events.filter (·.staffId = staffId)) := by
  have hmembers : ∀ (directory : Directory) (event : StaffEvent) (members : UuidMap StaffMember),
      directory.members.alterM event.staffId event.record = .ok members ↔
        ∃ next, directory.apply event = .ok next ∧ next.members = members := by
    intro directory event members
    constructor
    · intro h
      exact ⟨⟨members⟩, apply_eq_ok.mpr h, rfl⟩
    · rintro ⟨next, h, rfl⟩
      exact apply_eq_ok.mp h
  unfold replay
  rw [foldlM_isOkay_view (fun m event => UuidMap.alterM m event.staffId event.record)
    Directory.members hmembers, UuidMap.foldlM_alterM_isOkay]
  refine forall_congr' fun staffId => ?_
  rw [← record_isOkay]
  rfl

end Directory

end Sahl
