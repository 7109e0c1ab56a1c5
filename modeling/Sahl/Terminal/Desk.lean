import Mathlib.Tactic
import Sahl.Core.Authority

/-! # Who is at the till, and on whose authority

    The till knows its staff from their events and who is signed in from a session. Neither is
    rebuilt when the other changes: a role, an activation or a PIN may change between sign-in and
    use, and the session may go idle. `authorizeFor_entitled` says on whose authority an action
    goes ahead, whatever happened before. -/

namespace Sahl

/-! ## Section 1: The desk -/

/-- What a till answers where somebody has to authorise. -/
inductive AuthorityError where
  | pin (error : PinError)
  | notAuthorized
  | noApprover
  | denied
  deriving DecidableEq

/-- The staff as the till knows them, and who is at it. -/
structure Desk where
  staff : Directory
  session : Presence
  deriving DecidableEq

namespace Desk

variable (verify : PinVerify) (desk : Desk)

/-- Authenticate someone senior enough to approve. -/
def approve (permission : Permission) (pin : String) : Except AuthorityError Uuid :=
  match desk.staff.approve verify permission pin with
  | .error error => .error (.pin error)
  | .ok (.ok staffId _) => .ok staffId
  | .ok .unknown => .error .noApprover
  | .ok .wrongPin | .ok .inactive => .error .notAuthorized

/-- Authenticate one named person. A failed attempt leaves whoever was signed in. -/
def signIn (staffId : Uuid) (pin : String) (now : Timestamp) :
    Desk × Except AuthorityError Session :=
  match desk.staff.signIn verify staffId pin with
  | .error error => (desk, .error (.pin error))
  | .ok (.ok staffId role) =>
    let session := Presence.signIn staffId role now
    ({ desk with session },
      Except.okOr (session.current now sessionIdleTimeoutMillis) .notAuthorized)
  | .ok .unknown | .ok .wrongPin | .ok .inactive => (desk, .error .notAuthorized)

/-- Who is at the till as of `now`, with the role the directory gives them now. -/
def currentSession (now : Timestamp) : Option Session :=
  match desk.session.current now sessionIdleTimeoutMillis with
  | none => none
  | some session =>
    match desk.staff.get session.staffId with
    | none => none
    | some member => if member.active then some { session with role := member.role } else none

def touch (now : Timestamp) : Desk :=
  { desk with session := desk.session.touch now sessionIdleTimeoutMillis }

def signOut : Desk := { desk with session := .signedOut }

/-- Who authorises an action the person at the till may be able to do themselves. -/
def authorizeFor (policy : ApprovalPolicy) (permission : Permission)
    (verdict : Role → ApprovalPolicy → Authorization) (pin : String) (now : Timestamp) :
    Except AuthorityError Uuid :=
  match desk.currentSession now with
  | none => desk.approve verify permission pin
  | some session =>
    match verdict session.role policy with
    | .allowed => .ok session.staffId
    | .denied => .error .denied
    | .needsApproval _ => desk.approve verify permission pin

/-- The PIN is this person's, who is active. -/
def Admits (staffId : Uuid) (pin : String) : Prop :=
  ∃ member, desk.staff.get staffId = some member ∧ member.active ∧
    verify pin member.pinHash = .ok true

variable {verify desk} {staffId : Uuid} {permission : Permission} {pin : String}
  {now : Timestamp}

/-- Signing in seats somebody who is admitted, in the role they have. -/
theorem signIn_admitted (h : desk.Admits verify staffId pin) :
    ∃ role, (desk.signIn verify staffId pin now).1 =
      { desk with session := .signedIn ⟨staffId, role, now, now⟩ } := by
  obtain ⟨member, hmember, hactive, hpin⟩ := h
  have hsignIn : desk.staff.signIn verify staffId pin = .ok (.ok staffId member.role) :=
    Directory.signIn_eq_ok.mpr ⟨member, hmember, hactive, hpin, rfl, rfl⟩
  refine ⟨member.role, ?_⟩
  unfold signIn
  rw [hsignIn]
  rfl

/-- A failed sign-in leaves whoever was signed in. -/
theorem signIn_refused (h : ¬ desk.Admits verify staffId pin) :
    (desk.signIn verify staffId pin now).1 = desk := by
  unfold signIn
  split
  case h_2 signedIn role hsignIn =>
    obtain ⟨member, hmember, hactive, hpin, -⟩ := Directory.signIn_eq_ok.mp hsignIn
    exact absurd ⟨member, hmember, hactive, hpin⟩ h
  all_goals rfl

/-- Only an active holder of the permission approves, with a PIN of their own. -/
theorem approve_eq_ok (h : desk.approve verify permission pin = .ok staffId) :
    ∃ member ∈ desk.staff.holders permission,
      member.id = staffId ∧ verify pin member.pinHash = .ok true := by
  unfold approve at h
  split at h
  case h_2 approver role happrove =>
    cases h
    exact Directory.approve_eq_ok happrove
  all_goals cases h

theorem currentSession_eq_some {live : Session} :
    desk.currentSession now = some live ↔
      ∃ session member, desk.session = .signedIn session ∧ ¬ Idle session.touchedAt now ∧
        desk.staff.get session.staffId = some member ∧ member.active ∧
        live = { session with role := member.role } := by
  unfold currentSession Presence.current
  cases hpresence : desk.session with
  | signedOut => simp
  | signedIn session =>
    by_cases hidle : Idle session.touchedAt now
    · have hexpired := (session.isExpired_iff now).mpr hidle
      simp [hexpired, hidle]
    · have hfresh : session.isExpired now sessionIdleTimeoutMillis = false := by
        rw [Bool.eq_false_iff, ne_eq, session.isExpired_iff]
        exact hidle
      -- the role is that of the staff list now, not the one at signing in
      cases hmember : desk.staff.get session.staffId with
      | none => simp [hfresh, hmember]
      | some member =>
        simp only [hfresh, Bool.false_eq_true, if_false, hmember, Presence.signedIn.injEq]
        constructor
        · intro h
          split at h
          · rename_i hactive
            exact ⟨session, member, rfl, hidle, hmember, hactive, (Option.some.inj h).symm⟩
          · cases h
        · intro h
          obtain ⟨other, found, rfl, -, hfound, hactive, rfl⟩ := h
          obtain rfl := Option.some.inj (hmember.symm.trans hfound)
          rw [if_pos hactive]

/-- What a verdict allows is done on the authority of the person at the till, anything else on
    that of a holder of the permission. -/
theorem authorizeFor_eq_ok {policy : ApprovalPolicy}
    {verdict : Role → ApprovalPolicy → Authorization}
    (h : desk.authorizeFor verify policy permission verdict pin now = .ok staffId) :
    (∃ session, desk.currentSession now = some session ∧ session.staffId = staffId ∧
      verdict session.role policy = .allowed) ∨
    (desk.approve verify permission pin = .ok staffId ∧
      ∀ session, desk.currentSession now = some session →
        verdict session.role policy ≠ .denied) := by
  unfold authorizeFor at h
  cases hlive : desk.currentSession now with
  | none =>
    rw [hlive] at h
    exact .inr ⟨h, fun _ hsome => by cases hsome⟩
  | some session =>
    rw [hlive] at h
    simp only at h
    cases hverdict : verdict session.role policy with
    | allowed =>
      rw [hverdict] at h
      cases h
      exact .inl ⟨session, rfl, rfl, hverdict⟩
    | denied =>
      rw [hverdict] at h
      cases h
    | needsApproval minimum =>
      rw [hverdict] at h
      -- a session that needs approval sends the question to whoever enters a pin
      refine .inr ⟨h, ?_⟩
      intro other hother
      cases hother
      rw [hverdict]
      exact nofun

end Desk

/-! ## Section 2: Runs -/

/-- What happens at a till as far as authority goes. -/
inductive DeskAction where
  /-- A staff event arrives. -/
  | staff (event : StaffEvent)
  | signIn (staffId : Uuid) (pin : String) (now : Timestamp)
  | touch (now : Timestamp)
  | signOut

/-- A till's staff events with the desk they lead to. -/
structure StaffedDesk extends Desk where
  events : List StaffEvent
  replays : Directory.replay events = .ok staff

namespace StaffedDesk

/-- Nobody works here yet. -/
def fresh : StaffedDesk := ⟨⟨.new, .signedOut⟩, [], rfl⟩

/-- One action; a staff event that does not apply is not recorded. -/
def act (verify : PinVerify) (desk : StaffedDesk) : DeskAction → StaffedDesk
  | .staff event =>
    match h : desk.staff.apply event with
    | .error _ => desk
    | .ok staff =>
      ⟨{ desk.toDesk with staff }, desk.events ++ [event], foldlM_append_eq_ok.mpr
        ⟨desk.staff, desk.replays, foldlM_cons_eq_ok.mpr ⟨staff, h, rfl⟩⟩⟩
  | .signIn staffId pin now =>
    ⟨⟨desk.staff, (desk.toDesk.signIn verify staffId pin now).1.session⟩, desk.events,
      desk.replays⟩
  | .touch now => ⟨desk.toDesk.touch now, desk.events, desk.replays⟩
  | .signOut => ⟨desk.toDesk.signOut, desk.events, desk.replays⟩

/-- The desk after a run of actions. -/
def run (verify : PinVerify) (actions : List DeskAction) : StaffedDesk :=
  actions.foldl (act verify) fresh

variable {verify : PinVerify} {actions : List DeskAction}

theorem run_concat (action : DeskAction) :
    run verify (actions ++ [action]) = (run verify actions).act verify action := by
  simp [run]

/-- Whoever was at the till no longer is. -/
def Ends (verify : PinVerify) (desk : StaffedDesk) : DeskAction → Prop
  | .signIn staffId pin _ => desk.toDesk.Admits verify staffId pin
  | .signOut => True
  | _ => False

end StaffedDesk

/-- The instant of a touch. -/
def DeskAction.touch? : DeskAction → Option Timestamp
  | .touch now => some now
  | _ => none

/-- Somebody signed in with their own PIN, nobody did after them or signed them out, and they
    were never idle for longer than the timeout, up to when they were last seen. -/
structure Attendance (verify : PinVerify) (before : List DeskAction) (staffId : Uuid)
    (pin : String) (at' : Timestamp) (after : List DeskAction) (seen : Timestamp) : Prop where
  admitted : (StaffedDesk.run verify before).toDesk.Admits verify staffId pin
  stayed : ∀ earlier action later, after = earlier ++ action :: later →
    ¬ (StaffedDesk.run verify (before ++ .signIn staffId pin at' :: earlier)).Ends verify action
  inTime : (at' :: after.filterMap DeskAction.touch?).IsChain fun a b => ¬ Idle a b
  last : (at' :: after.filterMap DeskAction.touch?).getLast? = some seen

/-- Somebody is signed in at the end of a run, and was last seen at an instant. -/
def Attends (verify : PinVerify) (actions : List DeskAction) (staffId : Uuid)
    (seen : Timestamp) : Prop :=
  ∃ before pin at' after, actions = before ++ .signIn staffId pin at' :: after ∧
    Attendance verify before staffId pin at' after seen

/-! ## Section 3: Who is signed in -/

namespace StaffedDesk

variable {verify : PinVerify} {desk : StaffedDesk} {actions before after : List DeskAction}
  {staffId : Uuid} {pin : String} {at' seen : Timestamp}

/-- What an action that does not end a session leaves of it. -/
def sessionAfter (session : Session) (action : DeskAction) : Presence :=
  match action.touch? with
  | none => .signedIn session
  | some now =>
    if Idle session.touchedAt now then .signedOut else .signedIn { session with touchedAt := now }

theorem act_session {session : Session} {action : DeskAction}
    (hsession : desk.session = .signedIn session) (hstays : ¬ desk.Ends verify action) :
    (desk.act verify action).session = sessionAfter session action := by
  cases action with
  | staff event =>
    rw [act]
    split
    · exact hsession
    · exact hsession
  | signIn staffId pin now =>
    show (desk.toDesk.signIn verify staffId pin now).1.session = _
    rw [Desk.signIn_refused hstays]
    exact hsession
  | touch now =>
    show desk.session.touch now sessionIdleTimeoutMillis = _
    rw [hsession, Presence.touch, sessionAfter]
    simp only [DeskAction.touch?, session.isExpired_iff]
  | signOut => exact absurd trivial hstays

/-- A session that lasts through an action that does not end it was there before. -/
theorem act_session_back {session : Session} {action : DeskAction}
    (hsession : (desk.act verify action).session = .signedIn session)
    (hstays : ¬ desk.Ends verify action) :
    ∃ before, desk.session = .signedIn before := by
  cases hbefore : desk.session with
  | signedIn before => exact ⟨before, rfl⟩
  | signedOut =>
    -- with nobody signed in, only a sign-in that is admitted gives a session, and that ends it
    exfalso
    cases action with
    | staff event =>
      rw [act] at hsession
      split at hsession
      · rw [hbefore] at hsession
        cases hsession
      · rw [hbefore] at hsession
        cases hsession
    | signIn staffId pin now =>
      have hkept : (desk.toDesk.signIn verify staffId pin now).1.session = .signedIn session :=
        hsession
      rw [Desk.signIn_refused hstays, hbefore] at hkept
      cases hkept
    | touch now =>
      have hout : desk.session.touch now sessionIdleTimeoutMillis = .signedIn session := hsession
      rw [hbefore] at hout
      cases hout
    | signOut => exact hstays trivial

end StaffedDesk

/-! ### Attendance, action by action -/

section Attendance

variable {verify : PinVerify} {before after : List DeskAction} {staffId : Uuid} {pin : String}
  {at' seen : Timestamp}

theorem attendance_nil :
    Attendance verify before staffId pin at' [] seen ↔
      (StaffedDesk.run verify before).toDesk.Admits verify staffId pin ∧ seen = at' := by
  constructor
  · intro h
    exact ⟨h.admitted, (Option.some.inj h.last).symm⟩
  · intro h
    obtain ⟨hadmitted, rfl⟩ := h
    refine ⟨hadmitted, ?_, by simp, rfl⟩
    intro earlier action later h
    simp at h

theorem attendance_concat {action : DeskAction} :
    Attendance verify before staffId pin at' (after ++ [action]) seen ↔
      ∃ earlier, Attendance verify before staffId pin at' after earlier ∧
        ¬ (StaffedDesk.run verify (before ++ .signIn staffId pin at' :: after)).Ends verify action ∧
        match action.touch? with
        | none => seen = earlier
        | some now => ¬ Idle earlier now ∧ seen = now := by
  have hlast : ∃ earlier, (at' :: after.filterMap DeskAction.touch?).getLast? = some earlier :=
    ⟨_, List.getLast?_eq_some_getLast (List.cons_ne_nil _ _)⟩
  obtain ⟨earlier, hearlier⟩ := hlast
  -- the action adds its own touch to the chain, if it is one
  have htouches : at' :: (after ++ [action]).filterMap DeskAction.touch? =
      (at' :: after.filterMap DeskAction.touch?) ++ action.touch?.toList := by
    cases htouch : action.touch? <;> simp [htouch]
  constructor
  · intro h
    obtain ⟨hstayed, hends⟩ := forall_split_concat.mp h.stayed
    have hinTime := h.inTime
    have hseen := h.last
    rw [htouches] at hinTime hseen
    obtain ⟨hchain, -, hnext⟩ := List.isChain_append.mp hinTime
    refine ⟨earlier, ⟨h.admitted, hstayed, hchain, hearlier⟩, hends, ?_⟩
    cases htouch : action.touch? with
    | none =>
      rw [htouch, Option.toList_none, List.append_nil, hearlier] at hseen
      exact (Option.some.inj hseen).symm
    | some now =>
      rw [htouch, Option.toList_some, List.getLast?_concat] at hseen
      exact ⟨hnext earlier hearlier now (by simp [htouch]), (Option.some.inj hseen).symm⟩
  · intro h
    obtain ⟨other, hbefore, hends, hseen⟩ := h
    obtain rfl := Option.some.inj (hbefore.last.symm.trans hearlier)
    refine ⟨hbefore.admitted, forall_split_concat.mpr ⟨hbefore.stayed, hends⟩, ?_, ?_⟩
    · rw [htouches]
      refine List.isChain_append.mpr ⟨hbefore.inTime, ?_, ?_⟩
      · cases action.touch? <;> simp
      · intro x hx y hy
        obtain rfl := Option.some.inj (hbefore.last.symm.trans hx)
        cases htouch : action.touch? with
        | none => simp [htouch] at hy
        | some now =>
          rw [htouch] at hy hseen
          cases hy
          exact hseen.1
    · rw [htouches]
      cases htouch : action.touch? with
      | none =>
        rw [htouch] at hseen
        simpa [hseen] using hbefore.last
      | some now =>
        rw [htouch] at hseen
        rw [hseen.2, Option.toList_some, List.getLast?_concat]

/-- Somebody who attends is signed in. -/
theorem attendance_session (h : Attendance verify before staffId pin at' after seen) :
    ∃ session, (StaffedDesk.run verify (before ++ .signIn staffId pin at' :: after)).session =
      .signedIn session ∧ session.staffId = staffId ∧ session.touchedAt = seen := by
  -- on the actions after the sign-in, from the last one back
  induction after using List.reverseRecOn generalizing seen with
  | nil =>
    obtain ⟨hadmitted, rfl⟩ := attendance_nil.mp h
    obtain ⟨role, hsignIn⟩ := @Desk.signIn_admitted _ _ _ _ seen hadmitted
    refine ⟨⟨staffId, role, seen, seen⟩, ?_, rfl, rfl⟩
    rw [StaffedDesk.run_concat]
    show ((StaffedDesk.run verify before).toDesk.signIn verify staffId pin seen).1.session = _
    rw [hsignIn]
  | append_singleton after action ih =>
    obtain ⟨earlier, hbefore, hends, hseen⟩ := attendance_concat.mp h
    obtain ⟨session, hsession, hid, htouched⟩ := ih hbefore
    rw [← List.cons_append, ← List.append_assoc, StaffedDesk.run_concat,
      StaffedDesk.act_session hsession hends, StaffedDesk.sessionAfter]
    cases htouch : action.touch? with
    | none =>
      rw [htouch] at hseen
      exact ⟨session, rfl, hid, htouched.trans hseen.symm⟩
    | some now =>
      rw [htouch] at hseen
      obtain ⟨hfresh, rfl⟩ := hseen
      rw [htouched]
      simp only [if_neg hfresh]
      exact ⟨_, rfl, hid, rfl⟩

end Attendance

variable {verify : PinVerify} {actions : List DeskAction} {staffId : Uuid} {seen : Timestamp}

/-- Who attends is exactly who is signed in. -/
theorem attends_iff :
    Attends verify actions staffId seen ↔
      ∃ session, (StaffedDesk.run verify actions).session = .signedIn session ∧
        session.staffId = staffId ∧ session.touchedAt = seen := by
  constructor
  · intro h
    obtain ⟨before, pin, at', after, rfl, hattendance⟩ := h
    exact attendance_session hattendance
  · intro h
    obtain ⟨session, hsession, rfl, rfl⟩ := h
    -- the session after the last action was opened by it, or stood before it
    induction actions using List.reverseRecOn generalizing session with
    | nil => cases hsession
    | append_singleton actions action ih =>
      rw [StaffedDesk.run_concat] at hsession
      by_cases hends : (StaffedDesk.run verify actions).Ends verify action
      · -- the session is the one this action opens
        cases action with
        | staff | touch => exact absurd hends id
        | signOut => cases hsession
        | signIn staffId pin now =>
          obtain ⟨role, hsignIn⟩ := @Desk.signIn_admitted _ _ _ _ now hends
          have hopened : ((StaffedDesk.run verify actions).toDesk.signIn verify staffId pin
              now).1.session = .signedIn session := hsession
          rw [hsignIn] at hopened
          cases hopened
          exact ⟨actions, pin, now, [], rfl, attendance_nil.mpr ⟨hends, rfl⟩⟩
      · -- the session was there before
        obtain ⟨earlier, hearlier⟩ := StaffedDesk.act_session_back hsession hends
        obtain ⟨before, pin, at', after, rfl, hattendance⟩ := ih earlier hearlier
        rw [StaffedDesk.act_session hearlier hends, StaffedDesk.sessionAfter] at hsession
        cases htouch : action.touch? with
        | none =>
          rw [htouch] at hsession
          cases hsession
          refine ⟨before, pin, at', after ++ [action], by simp, ?_⟩
          exact attendance_concat.mpr ⟨_, hattendance, hends, by rw [htouch]⟩
        | some now =>
          rw [htouch] at hsession
          simp only at hsession
          split at hsession
          · cases hsession
          · rename_i hfresh
            cases hsession
            refine ⟨before, pin, at', after ++ [action], by simp, ?_⟩
            have hseen : match action.touch? with
                | none => now = earlier.touchedAt
                | some at' => ¬ Idle earlier.touchedAt at' ∧ now = at' := by
              rw [htouch]
              exact ⟨hfresh, rfl⟩
            exact attendance_concat.mpr ⟨_, hattendance, hends, hseen⟩

/-! ## Section 4: On whose authority -/

/-- The person at the till: signed in and not idle since, let in by the last event that let them
    in or shut them out, and of the role the events gave them last. -/
structure AtTill (verify : PinVerify) (actions : List DeskAction) (now : Timestamp)
    (staffId : Uuid) (role : Role) : Prop where
  attends : ∃ seen, Attends verify actions staffId seen ∧ ¬ Idle seen now
  active : StaffEvent.latest StaffEvent.activation? staffId
    (StaffedDesk.run verify actions).events = some true
  role : StaffEvent.latest StaffEvent.role? staffId
    (StaffedDesk.run verify actions).events = some role

/-- Somebody active whose role holds the permission and whose PIN was entered. -/
structure Approves (verify : PinVerify) (events : List StaffEvent) (permission : Permission)
    (pin : String) (staffId : Uuid) : Prop where
  active : StaffEvent.latest StaffEvent.activation? staffId events = some true
  holds : ∃ role, StaffEvent.latest StaffEvent.role? staffId events = some role ∧
    role.can permission
  pin : ∃ pinHash, StaffEvent.latest StaffEvent.pinHash? staffId events = some pinHash ∧
    verify pin pinHash = .ok true

/-- Whoever the till answers for is at it, and conversely. -/
theorem currentSession_iff {now : Timestamp} {role : Role} :
    (∃ session, (StaffedDesk.run verify actions).currentSession now = some session ∧
      session.staffId = staffId ∧ session.role = role) ↔
      AtTill verify actions now staffId role := by
  -- the staff list replays who is active, and in which role
  have hactive := Directory.replay_active (StaffedDesk.run verify actions).replays staffId
  have hrole := Directory.replay_role (StaffedDesk.run verify actions).replays staffId
  constructor
  · intro h
    obtain ⟨live, hlive, rfl, rfl⟩ := h
    obtain ⟨session, member, hsession, hidle, hmember, hin, rfl⟩ :=
      Desk.currentSession_eq_some.mp hlive
    simp only [hmember] at hactive hrole
    refine ⟨⟨session.touchedAt, attends_iff.mpr ⟨session, hsession, rfl, rfl⟩, hidle⟩, ?_, ?_⟩
    · rw [← hactive, Option.map_some, hin]
    · rw [← hrole, Option.map_some]
  · intro h
    obtain ⟨seen, hattends, hidle⟩ := h.attends
    obtain ⟨session, hsession, rfl, rfl⟩ := attends_iff.mp hattends
    rw [h.active, Option.map_eq_some_iff] at hactive
    obtain ⟨member, hmember, hin⟩ := hactive
    rw [h.role, hmember, Option.map_some, Option.some.injEq] at hrole
    exact ⟨_, Desk.currentSession_eq_some.mpr ⟨session, member, hsession, hidle, hmember, hin, rfl⟩,
      rfl, hrole⟩

theorem approves_of_approve {permission : Permission} {pin : String}
    (h : (StaffedDesk.run verify actions).approve verify permission pin = .ok staffId) :
    Approves verify (StaffedDesk.run verify actions).events permission pin staffId := by
  have hreplays := (StaffedDesk.run verify actions).replays
  obtain ⟨member, hholder, rfl, hpin⟩ := Desk.approve_eq_ok h
  obtain ⟨key, hmember, hcan⟩ := Directory.mem_holders.mp hholder
  rw [StaffMember.can, Bool.and_eq_true] at hcan
  obtain ⟨hactive, hcan⟩ := hcan
  obtain rfl := Directory.replay_id hreplays hmember
  refine ⟨?_, ⟨member.role, ?_, hcan⟩, ⟨member.pinHash, ?_, hpin⟩⟩
  · rw [← Directory.replay_active hreplays, hmember, Option.map_some, hactive]
  · rw [← Directory.replay_role hreplays, hmember, Option.map_some]
  · rw [← Directory.replay_pinHash hreplays, hmember, Option.map_some]

/-- **Entitlement**: an action goes ahead on the authority of the person at the till, whose
    verdict allows it, or of somebody active who holds the permission and typed their PIN; and
    never where the verdict on the person at the till is a refusal. -/
theorem authorizeFor_entitled (verify : PinVerify) (actions : List DeskAction)
    (policy : ApprovalPolicy) (permission : Permission)
    (verdict : Role → ApprovalPolicy → Authorization) (pin : String) (now : Timestamp) :
    (∀ staffId, (StaffedDesk.run verify actions).authorizeFor verify policy permission verdict pin
        now = .ok staffId →
      (∃ role, AtTill verify actions now staffId role ∧ verdict role policy = .allowed) ∨
        Approves verify (StaffedDesk.run verify actions).events permission pin staffId) ∧
    ∀ present role, AtTill verify actions now present role → verdict role policy = .denied →
      ∀ staffId, (StaffedDesk.run verify actions).authorizeFor verify policy permission verdict
        pin now ≠ .ok staffId := by
  constructor
  · intro staffId h
    rcases Desk.authorizeFor_eq_ok h with ⟨session, hlive, hid, hallowed⟩ | ⟨happrove, -⟩
    · exact .inl ⟨session.role, currentSession_iff.mp ⟨session, hlive, hid, rfl⟩, hallowed⟩
    · exact .inr (approves_of_approve happrove)
  · intro present role hpresent hdenied staffId h
    obtain ⟨session, hlive, -, rfl⟩ := currentSession_iff.mpr hpresent
    rcases Desk.authorizeFor_eq_ok h with ⟨other, hother, -, hallowed⟩ | ⟨-, hnotDenied⟩
    · obtain rfl := Option.some.inj (hlive.symm.trans hother)
      rw [hdenied] at hallowed
      cases hallowed
    · exact hnotDenied session hlive hdenied

/-! ### A cashier at the till, a manager nearby -/

/-- A stored hash is the PIN behind a marker. -/
def plainVerify : PinVerify := fun entered stored => .ok (stored = "$argon2id$" ++ entered)

def habibEnrolled : StaffEvent :=
  .enrolled 1 "Habib" .manager "$argon2id$5294" Timestamp.epoch 9

def rumaEnrolled : StaffEvent := .enrolled 2 "Ruma" .cashier "$argon2id$8317" Timestamp.epoch 9

/-- Both are enrolled and the cashier signs in. -/
def counter : List DeskAction :=
  [.staff habibEnrolled, .staff rumaEnrolled, .signIn 2 "8317" Timestamp.epoch]

/-- The verdict on voiding a line of 100.00. -/
def voidHundred : Role → ApprovalPolicy → Authorization :=
  fun role policy => authorizeVoid role ⟨I64.lit 10000, .bdt⟩ policy

theorem authorizeFor_entitled_counter :
    ((∃ role, AtTill plainVerify counter Timestamp.epoch 1 role ∧
        voidHundred role (.strictest .bdt) = .allowed) ∨
      Approves plainVerify (StaffedDesk.run plainVerify counter).events .voidLine "5294" 1) ∧
    (StaffedDesk.run plainVerify counter).authorizeFor plainVerify (.strictest .bdt) .voidLine
      (fun _ _ => .denied) "5294" Timestamp.epoch ≠ .ok 1 := by
  have happroved : (StaffedDesk.run plainVerify counter).authorizeFor plainVerify
      (.strictest .bdt) .voidLine voidHundred "5294" Timestamp.epoch = .ok 1 := by rfl
  have hpresent : AtTill plainVerify counter Timestamp.epoch 2 .cashier :=
    currentSession_iff.mp ⟨⟨2, .cashier, Timestamp.epoch, Timestamp.epoch⟩, by rfl, rfl, rfl⟩
  exact ⟨(authorizeFor_entitled plainVerify counter (.strictest .bdt) .voidLine voidHundred "5294"
      Timestamp.epoch).1 1 happroved,
    (authorizeFor_entitled plainVerify counter (.strictest .bdt) .voidLine (fun _ _ => .denied)
      "5294" Timestamp.epoch).2 2 .cashier hpresent rfl 1⟩

end Sahl
