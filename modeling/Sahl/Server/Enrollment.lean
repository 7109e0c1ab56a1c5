import Mathlib.Tactic
import Sahl.Lib.Text
import Sahl.Lib.Transition
import Sahl.Core.Ids
import Sahl.Core.Event

/-! # Enrolling a device

    A token is looked up and checked outside the transaction that consumes it, so what was checked
    can be stale when the token is consumed. The conditional update holds the token's row until
    its transaction ends, and the device is written in the same transaction: however requests
    overlap and wherever they fail, a token enrols one device at most (`enroll_once`). -/

namespace Sahl

/-! ## Section 1: The tables -/

/-- A row of `enrollment_token`. -/
structure EnrollmentToken where
  tenantId : Uuid
  outletId : Uuid
  tokenHash : EventHash
  expiresAtMillis : I64
  consumedAt : Option Timestamp
  consumedBy : Option Uuid
  deriving DecidableEq

/-- A row of `device`, as far as an enrolment writes it. -/
structure EnrolledDevice where
  tenantId : Uuid
  outletId : Uuid
  label : String
  publicKey : List UInt8
  deriving DecidableEq

/-- The committed tables, with the constraints that hold between commits. -/
structure EnrollDb where
  tokens : UuidMap EnrollmentToken
  devices : UuidMap EnrolledDevice
  /-- `token_hash` is unique. -/
  unique : ∀ (id id' : Uuid) (row row' : EnrollmentToken), tokens[id]? = some row →
    tokens[id']? = some row' → row.tokenHash = row'.tokenHash → id = id'
  /-- `enrollment_token_consumed_by_fk`, checked at commit. -/
  references : ∀ (id : Uuid) (row : EnrollmentToken) (deviceId : Uuid), tokens[id]? = some row →
    row.consumedBy = some deviceId → deviceId ∈ devices

/-- What the database knows about a stored token. -/
structure StoredToken where
  expiresAtMillis : I64
  consumed : Bool

/-- What the lookup finds of a token. -/
structure FoundToken where
  id : Uuid
  tenantId : Uuid
  outletId : Uuid
  stored : StoredToken

/-- `enrollment_token_for_digest`. -/
def EnrollDb.tokenForDigest (db : EnrollDb) (digest : EventHash) : Option FoundToken :=
  (db.tokens.toList.find? fun entry => entry.2.tokenHash = digest).map fun entry =>
    ⟨entry.1, entry.2.tenantId, entry.2.outletId,
      ⟨entry.2.expiresAtMillis, entry.2.consumedAt.isSome⟩⟩

/-! ## Section 2: The checks -/

inductive EnrollmentError where
  | expired
  | alreadyConsumed
  | malformedPublicKey
  | entropy (message : String)
  deriving DecidableEq

/-- Consumption is checked before expiry. -/
def checkTokenUsable (token : StoredToken) (nowMillis : I64) : Except EnrollmentError Unit :=
  if token.consumed then .error .alreadyConsumed
  else if token.expiresAtMillis ≤ nowMillis then .error .expired
  else .ok ()

/-- The codec and the curve a public key is read with. -/
structure KeyFormat where
  decode : String → Option (List UInt8)
  wellFormed : List UInt8 → Bool
  isWeak : List UInt8 → Bool

def parsePublicKey (format : KeyFormat) (encoded : String) :
    Except EnrollmentError (List UInt8) := do
  let bytes ← Except.okOr (format.decode (Text.trim encoded)) .malformedPublicKey
  if bytes.length ≠ 32 then .error .malformedPublicKey
  else if ! format.wellFormed bytes then .error .malformedPublicKey
  else if format.isWeak bytes then .error .malformedPublicKey
  else .ok bytes

structure EnrollRequest where
  token : String
  publicKey : String
  label : String

def digestToken (sha256 : List UInt8 → EventHash) (plaintext : String) : EventHash :=
  sha256 (Text.utf8 (Text.trim plaintext))

inductive EnrollResponse where
  | created (deviceId tenantId outletId : Uuid)
  | refused
  | unavailable
  deriving DecidableEq

/-! ## Section 3: A request -/

/-- A transaction that has begun: the token, the device to be. -/
structure Enrolling where
  publicKey : List UInt8
  token : FoundToken
  deviceId : Uuid

/-- How far a request has come. What its transaction has written and not committed is in the
    phases `consumed` and `inserted`. -/
inductive EnrollPhase where
  | arrived
  | parsed (publicKey : List UInt8)
  | found (publicKey : List UInt8) (token : FoundToken)
  | usable (publicKey : List UInt8) (token : FoundToken)
  | begun (attempt : Enrolling)
  | consumed (attempt : Enrolling) (consumedAt : Timestamp)
  | inserted (attempt : Enrolling) (consumedAt : Timestamp)
  | committed (attempt : Enrolling) (acknowledged : Bool)
  | refused
  | unavailable
  | abandoned

/-- The points of the handler. Any of them that asks the database can fail, and the handler can
    be abandoned at all of them. -/
inductive EnrollAction where
  | receive
  | lookup
  | check (nowMillis : I64)
  | begin (deviceId : Uuid)
  | consume (now : Timestamp)
  | insert
  /-- The answer to a commit can be lost after it took effect. -/
  | commit (acknowledged : Bool)
  | fail
  | abandon

/-- The rows the conditional update is for: the token, not consumed, within the scope of the
    tenant. -/
def EnrollDb.consumable (db : EnrollDb) (token : FoundToken) : Bool :=
  db.tokens[token.id]?.any fun row => row.consumedAt.isNone && row.tenantId = token.tenantId

/-- Both writes of a transaction, as they are committed. -/
def EnrollDb.enroll? (db : EnrollDb) (attempt : Enrolling) (consumedAt : Timestamp)
    (label : String) : Option EnrollDb :=
  match h : db.tokens[attempt.token.id]? with
  | none => none
  | some row => some
    { tokens := db.tokens.insert attempt.token.id
        { row with consumedAt := some consumedAt, consumedBy := some attempt.deviceId }
      devices := db.devices.insert attempt.deviceId
        ⟨attempt.token.tenantId, attempt.token.outletId, Text.trim label, attempt.publicKey⟩
      unique := by
        have hhash : ∀ (id : Uuid) (other : EnrollmentToken),
            (db.tokens.insert attempt.token.id { row with
              consumedAt := some consumedAt, consumedBy := some attempt.deviceId })[id]? =
                some other →
            ∃ stored, db.tokens[id]? = some stored ∧ stored.tokenHash = other.tokenHash := by
          intro id other hother
          rw [UuidMap.get_insert] at hother
          split at hother
          · rename_i hid
            cases hother
            exact ⟨row, hid ▸ h, rfl⟩
          · exact ⟨other, hother, rfl⟩
        intro id id' _ _ hid hid' hsame
        obtain ⟨stored, hstored, heq⟩ := hhash id _ hid
        obtain ⟨stored', hstored', heq'⟩ := hhash id' _ hid'
        exact db.unique id id' stored stored' hstored hstored' (by rw [heq, heq', hsame])
      references := by
        intro id other deviceId hother hby
        rw [Std.ExtTreeMap.mem_insert]
        rw [UuidMap.get_insert] at hother
        split at hother
        · -- the device is inserted by the transaction that consumes the token
          cases hother
          cases hby
          exact .inl Std.ReflCmp.compare_self
        · exact .inr (db.references id other deviceId hother hby) }

/-- The handler, from one point to the next, on the tables as they are committed. -/
def EnrollRequest.proceed (format : KeyFormat) (sha256 : List UInt8 → EventHash)
    (request : EnrollRequest) (db : EnrollDb) :
    EnrollPhase → EnrollAction → Option (EnrollPhase × EnrollDb)
  | .arrived, .receive =>
    match parsePublicKey format request.publicKey with
    | .error _ => some (.refused, db)
    | .ok publicKey =>
      if Text.isBlank request.label then some (.refused, db)
      else some (.parsed publicKey, db)
  | .parsed publicKey, .lookup =>
    match db.tokenForDigest (digestToken sha256 request.token) with
    | none => some (.refused, db)
    | some token => some (.found publicKey token, db)
  | .found publicKey token, .check nowMillis =>
    match checkTokenUsable token.stored nowMillis with
    | .error _ => some (.refused, db)
    | .ok () => some (.usable publicKey token, db)
  | .usable publicKey token, .begin deviceId => some (.begun ⟨publicKey, token, deviceId⟩, db)
  | .begun attempt, .consume now =>
    -- one row is affected or none is
    if db.consumable attempt.token then some (.consumed attempt now, db)
    else some (.refused, db)
  | .consumed attempt consumedAt, .insert =>
    if attempt.deviceId ∈ db.devices then some (.unavailable, db)
    else some (.inserted attempt consumedAt, db)
  | .inserted attempt consumedAt, .commit acknowledged =>
    (db.enroll? attempt consumedAt request.label).map fun db =>
      (.committed attempt acknowledged, db)
  -- the lookup, the beginning, the update, the insertion and the commit ask the database
  | .parsed _, .fail | .usable _ _, .fail | .begun _, .fail | .consumed _ _, .fail
  | .inserted _ _, .fail => some (.unavailable, db)
  | .arrived, .abandon | .parsed _, .abandon | .found _ _, .abandon | .usable _ _, .abandon
  | .begun _, .abandon | .consumed _ _, .abandon | .inserted _ _, .abandon => some (.abandoned, db)
  | _, _ => none

/-- What a request that has ended is answered. -/
def EnrollPhase.response : EnrollPhase → Option EnrollResponse
  | committed attempt true =>
    some (.created attempt.deviceId attempt.token.tenantId attempt.token.outletId)
  | committed _ false | unavailable => some .unavailable
  | refused => some .refused
  | _ => none

/-! ## Section 4: Requests together -/

/-- The token whose row a request holds. -/
def EnrollPhase.holds : EnrollPhase → Option Uuid
  | consumed attempt _ | inserted attempt _ => some attempt.token.id
  | _ => none

/-- The device a request has inserted and not committed. -/
def EnrollPhase.inserting : EnrollPhase → Option Uuid
  | inserted attempt _ => some attempt.deviceId
  | _ => none

/-- The token a request has been told of. -/
def EnrollPhase.token : EnrollPhase → Option FoundToken
  | found _ token | usable _ token => some token
  | begun attempt | consumed attempt _ | inserted attempt _ | committed attempt _ =>
    some attempt.token
  | _ => none

/-- The token a request has consumed for good, and its device. -/
def EnrollPhase.granted : EnrollPhase → Option (Uuid × Uuid)
  | committed attempt _ => some (attempt.token.id, attempt.deviceId)
  | _ => none

variable {ι : Type} [DecidableEq ι]

/-- The tables, and every request. -/
structure Enrollments (ι : Type) where
  db : EnrollDb
  phase : ι → EnrollPhase

/-- An update conflicts with one of the same row, and an insertion with one of the same key. -/
def EnrollPhase.conflicts : EnrollPhase → EnrollAction → EnrollPhase → Bool
  | begun attempt, .consume _, other => other.holds = some attempt.token.id
  | consumed attempt _, .insert, other => other.inserting = some attempt.deviceId
  | _, _, _ => false

/-- A request waits for a transaction it conflicts with to end. -/
def Enrollments.Waits (s : Enrollments ι) (r : ι) (a : EnrollAction) : Prop :=
  ∃ r', r' ≠ r ∧ (s.phase r).conflicts a (s.phase r') = true

/-- One request comes to another point. -/
def Enrollments.moved (s : Enrollments ι) (db : EnrollDb) (r : ι) (phase : EnrollPhase) :
    Enrollments ι := ⟨db, Function.update s.phase r phase⟩

/-- One request takes one step. -/
def Enrollments.step (format : KeyFormat) (sha256 : List UInt8 → EventHash)
    (requests : ι → EnrollRequest) (s : Enrollments ι) (a : ι × EnrollAction)
    (s' : Enrollments ι) : Prop :=
  ¬ s.Waits a.1 a.2 ∧ ∃ phase db,
    (requests a.1).proceed format sha256 s.db (s.phase a.1) a.2 = some (phase, db) ∧
      s' = s.moved db a.1 phase

/-! ## Section 5: What one step does -/

variable {format : KeyFormat} {sha256 : List UInt8 → EventHash} {request : EnrollRequest}
  {requests : ι → EnrollRequest} {db db' : EnrollDb} {phase phase' : EnrollPhase}
  {a : EnrollAction}

/-- A step that writes nothing, by a request that has not committed. -/
structure Quiet (db : EnrollDb) (digest : EventHash) (phase phase' : EnrollPhase) : Prop where
  holds : phase'.holds = none
  inserting : phase'.inserting = none
  granted : phase'.granted = none
  uncommitted : phase.granted = none
  token : ∀ token, phase'.token = some token →
    phase.token = some token ∨ db.tokenForDigest digest = some token

/-- A request that ends has no token any more. -/
theorem Quiet.of_none {digest : EventHash} (h : phase'.token = none)
    (huncommitted : phase.granted = none) : Quiet db digest phase phase' := by
  have hnone : ∀ {p : EnrollPhase}, p.token = none →
      p.holds = none ∧ p.inserting = none ∧ p.granted = none := by
    intro p hp
    cases p <;> first | exact ⟨rfl, rfl, rfl⟩ | cases hp
  obtain ⟨hholds, hinserting, hgranted⟩ := hnone h
  refine ⟨hholds, hinserting, hgranted, huncommitted, fun token htoken => ?_⟩
  rw [h] at htoken
  cases htoken

/-- A request takes the row, inserts the device, commits both, or leaves everything as it is. -/
theorem proceed_cases (h : request.proceed format sha256 db phase a = some (phase', db')) :
    (∃ attempt now, a = .consume now ∧ phase = .begun attempt ∧
        db.consumable attempt.token = true ∧ phase' = .consumed attempt now ∧ db' = db) ∨
      (∃ attempt now, a = .insert ∧ phase = .consumed attempt now ∧
        attempt.deviceId ∉ db.devices ∧ phase' = .inserted attempt now ∧ db' = db) ∨
      (∃ attempt now acknowledged, phase = .inserted attempt now ∧
        db.enroll? attempt now request.label = some db' ∧
          phase' = .committed attempt acknowledged) ∨
      db' = db ∧ Quiet db (digestToken sha256 request.token) phase phase' := by
  unfold EnrollRequest.proceed at h
  split at h
  case h_1 =>
    -- the key and the label are looked at before the database is
    split at h
    · cases h
      exact .inr (.inr (.inr ⟨rfl, .of_none rfl rfl⟩))
    · split at h
      all_goals
        cases h
        exact .inr (.inr (.inr ⟨rfl, .of_none rfl rfl⟩))
  case h_2 =>
    split at h
    · cases h
      exact .inr (.inr (.inr ⟨rfl, .of_none rfl rfl⟩))
    · rename_i hfound
      cases h
      exact .inr (.inr (.inr ⟨rfl, rfl, rfl, rfl, rfl, fun _ htoken => .inr (htoken ▸ hfound)⟩))
  case h_3 =>
    split at h
    · cases h
      exact .inr (.inr (.inr ⟨rfl, .of_none rfl rfl⟩))
    · cases h
      exact .inr (.inr (.inr ⟨rfl, rfl, rfl, rfl, rfl, fun _ htoken => .inl htoken⟩))
  case h_4 =>
    cases h
    exact .inr (.inr (.inr ⟨rfl, rfl, rfl, rfl, rfl, fun _ htoken => .inl htoken⟩))
  case h_5 attempt now =>
    split at h
    · rename_i hrow
      cases h
      exact .inl ⟨attempt, now, rfl, rfl, hrow, rfl, rfl⟩
    · cases h
      exact .inr (.inr (.inr ⟨rfl, .of_none rfl rfl⟩))
  case h_6 attempt now =>
    split at h
    · cases h
      exact .inr (.inr (.inr ⟨rfl, .of_none rfl rfl⟩))
    · rename_i hfree
      cases h
      exact .inr (.inl ⟨attempt, now, rfl, rfl, hfree, rfl, rfl⟩)
  case h_7 attempt now acknowledged =>
    obtain ⟨entered, hentered, heq⟩ := Option.map_eq_some_iff.mp h
    cases heq
    exact .inr (.inr (.inl ⟨attempt, now, acknowledged, rfl, hentered, rfl⟩))
  case h_20 => cases h
  -- a failure or an abandonment ends the request and its transaction
  all_goals
    cases h
    exact .inr (.inr (.inr ⟨rfl, .of_none rfl rfl⟩))

/-- What a commit writes. -/
theorem enroll?_eq_some {attempt : Enrolling} {now : Timestamp} {label : String}
    (h : db.enroll? attempt now label = some db') :
    ∃ row, db.tokens[attempt.token.id]? = some row ∧
      (∀ id : Uuid, db'.tokens[id]? = if attempt.token.id = id then
        some { row with consumedAt := some now, consumedBy := some attempt.deviceId }
      else db.tokens[id]?) ∧
      ∀ deviceId, deviceId ∈ db'.devices ↔ attempt.deviceId = deviceId ∨ deviceId ∈ db.devices := by
  unfold EnrollDb.enroll? at h
  split at h
  · cases h
  · rename_i row hrow
    cases h
    refine ⟨row, hrow, fun id => UuidMap.get_insert _ _ _ _, fun deviceId => ?_⟩
    rw [Std.ExtTreeMap.mem_insert, compare_eq_iff_eq]

theorem tokenForDigest_eq_some {digest : EventHash} {token : FoundToken}
    (h : db.tokenForDigest digest = some token) :
    ∃ row, db.tokens[token.id]? = some row ∧ row.tokenHash = digest := by
  obtain ⟨⟨id, row⟩, hfound, rfl⟩ := Option.map_eq_some_iff.mp h
  refine ⟨row, Std.ExtTreeMap.mem_toList_iff_getElem?_eq_some.mp
    (List.mem_of_find?_eq_some hfound), ?_⟩
  have hmatch := List.find?_some hfound
  exact of_decide_eq_true hmatch

/-! ## Section 6: The invariant -/

/-- What holds however far the requests have come, against the tables they found. -/
structure EnrollInv (sha256 : List UInt8 → EventHash) (requests : ι → EnrollRequest)
    (start : EnrollDb) (s : Enrollments ι) : Prop where
  /-- A request knows the token it carries. -/
  known : ∀ r token, (s.phase r).token = some token → ∃ row,
    s.db.tokens[token.id]? = some row ∧ row.tokenHash = digestToken sha256 (requests r).token
  /-- A row that is held has not been consumed, and one request holds it. -/
  unspent : ∀ r id, (s.phase r).holds = some id →
    ∃ row, s.db.tokens[id]? = some row ∧ row.consumedAt = none
  alone : ∀ r r' id, (s.phase r).holds = some id → (s.phase r').holds = some id → r = r'
  /-- A device that is being inserted is not there, and one request inserts it. -/
  missing : ∀ r deviceId, (s.phase r).inserting = some deviceId → deviceId ∉ s.db.devices
  once : ∀ r r' deviceId, (s.phase r).inserting = some deviceId →
    (s.phase r').inserting = some deviceId → r = r'
  /-- What was granted was unconsumed at the start and is consumed by the device granted. -/
  granted : ∀ r id deviceId, (s.phase r).granted = some (id, deviceId) → ∃ row now,
    start.tokens[id]? = some row ∧ row.consumedAt = none ∧ deviceId ∉ start.devices ∧
      s.db.tokens[id]? =
        some { row with consumedAt := some now, consumedBy := some deviceId }
  single : ∀ r r' id deviceId deviceId', (s.phase r).granted = some (id, deviceId) →
    (s.phase r').granted = some (id, deviceId') → r = r'
  tokens : ∀ id : Uuid, (∀ r deviceId, (s.phase r).granted ≠ some (id, deviceId)) →
    s.db.tokens[id]? = start.tokens[id]?
  devices : ∀ deviceId, deviceId ∈ s.db.devices ↔ deviceId ∈ start.devices ∨
    ∃ r id, (s.phase r).granted = some (id, deviceId)

/-- Before any request has been received. -/
def Enrollments.init (db : EnrollDb) : Enrollments ι := ⟨db, fun _ => .arrived⟩

omit [DecidableEq ι] in
theorem EnrollInv.of_init (db : EnrollDb) : EnrollInv sha256 requests db (.init db) := by
  constructor
  case tokens => exact fun _ _ => rfl
  case devices =>
    intro deviceId
    constructor
    · exact fun h => .inl h
    · rintro (h | ⟨_, _, h⟩)
      · exact h
      · cases h
  -- a request that has not been received has none of the others
  all_goals
    intros
    contradiction

variable {s s' : Enrollments ι} {start : EnrollDb} {r : ι}

@[simp] theorem moved_self : (s.moved db r phase).phase r = phase := Function.update_self _ _ _

theorem moved_other {r' : ι} (h : r' ≠ r) : (s.moved db r phase).phase r' = s.phase r' :=
  Function.update_of_ne h _ _

/-- What is read of the requests after one has moved. -/
theorem moved_eq_some {β : Type} {f : EnrollPhase → Option β} {r' : ι} {v : β}
    (h : f ((s.moved db r phase).phase r') = some v) :
    r' = r ∧ f phase = some v ∨ r' ≠ r ∧ f (s.phase r') = some v := by
  by_cases hr : r' = r
  · subst hr
    rw [moved_self] at h
    exact .inl ⟨rfl, h⟩
  · rw [moved_other hr] at h
    exact .inr ⟨hr, h⟩

/-- The tables stay, and what has been granted. -/
theorem EnrollInv.of_same (hs : EnrollInv sha256 requests start s)
    (hgranted : (s.phase r).granted = none ∧ phase.granted = none)
    (hknown : ∀ token, phase.token = some token → ∃ row,
      s.db.tokens[token.id]? = some row ∧ row.tokenHash = digestToken sha256 (requests r).token)
    (hholds : ∀ id, phase.holds = some id →
      (∃ row, s.db.tokens[id]? = some row ∧ row.consumedAt = none) ∧
        ∀ r', r' ≠ r → (s.phase r').holds ≠ some id)
    (hinserting : ∀ deviceId, phase.inserting = some deviceId → deviceId ∉ s.db.devices ∧
      ∀ r', r' ≠ r → (s.phase r').inserting ≠ some deviceId) :
    EnrollInv sha256 requests start (s.moved s.db r phase) := by
  have hsame : ∀ r', ((s.moved s.db r phase).phase r').granted = (s.phase r').granted := by
    intro r'
    by_cases hr : r' = r
    · rw [hr, moved_self, hgranted.1, hgranted.2]
    · rw [moved_other hr]
  constructor
  case known =>
    intro r' token h
    rcases moved_eq_some (f := EnrollPhase.token) h with ⟨rfl, hnew⟩ | ⟨-, h⟩
    · exact hknown token hnew
    · exact hs.known r' token h
  case unspent =>
    intro r' id h
    rcases moved_eq_some (f := EnrollPhase.holds) h with ⟨-, h⟩ | ⟨-, h⟩
    · exact (hholds id h).1
    · exact hs.unspent r' id h
  case alone =>
    intro r₁ r₂ id h₁ h₂
    -- of two that hold one token at most one has just moved
    rcases moved_eq_some (f := EnrollPhase.holds) h₁ with ⟨rfl, hnew⟩ | ⟨hr₁, hold⟩
    · rcases moved_eq_some (f := EnrollPhase.holds) h₂ with ⟨rfl, -⟩ | ⟨hr₂, h₂⟩
      · rfl
      · exact absurd h₂ ((hholds id hnew).2 r₂ hr₂)
    · rcases moved_eq_some (f := EnrollPhase.holds) h₂ with ⟨rfl, hnew⟩ | ⟨-, h₂⟩
      · exact absurd hold ((hholds id hnew).2 r₁ hr₁)
      · exact hs.alone r₁ r₂ id hold h₂
  case missing =>
    intro r' deviceId h
    rcases moved_eq_some (f := EnrollPhase.inserting) h with ⟨-, h⟩ | ⟨-, h⟩
    · exact (hinserting deviceId h).1
    · exact hs.missing r' deviceId h
  case once =>
    intro r₁ r₂ deviceId h₁ h₂
    -- and likewise of two that insert one device
    rcases moved_eq_some (f := EnrollPhase.inserting) h₁ with ⟨rfl, hnew⟩ | ⟨hr₁, hold⟩
    · rcases moved_eq_some (f := EnrollPhase.inserting) h₂ with ⟨rfl, -⟩ | ⟨hr₂, h₂⟩
      · rfl
      · exact absurd h₂ ((hinserting deviceId hnew).2 r₂ hr₂)
    · rcases moved_eq_some (f := EnrollPhase.inserting) h₂ with ⟨rfl, hnew⟩ | ⟨-, h₂⟩
      · exact absurd hold ((hinserting deviceId hnew).2 r₁ hr₁)
      · exact hs.once r₁ r₂ deviceId hold h₂
  case granted =>
    intro r' id deviceId h
    exact hs.granted r' id deviceId ((hsame r').symm.trans h)
  case single =>
    intro r₁ r₂ id d₁ d₂ h₁ h₂
    exact hs.single r₁ r₂ id d₁ d₂ ((hsame r₁).symm.trans h₁) ((hsame r₂).symm.trans h₂)
  case tokens =>
    intro id h
    exact hs.tokens id fun r' deviceId hr' => h r' deviceId ((hsame r').trans hr')
  case devices =>
    intro deviceId
    simp only [hsame]
    exact hs.devices deviceId

/-! ### A commit -/

section Commit

variable {attempt : Enrolling} {now : Timestamp} {acknowledged : Bool} {r' : ι}

/-- A request that has committed holds no row any more. -/
theorem committed_holds {id : Uuid}
    (h : ((s.moved db' r (.committed attempt acknowledged)).phase r').holds = some id) :
    r' ≠ r ∧ (s.phase r').holds = some id := by
  rcases moved_eq_some (f := EnrollPhase.holds) h with ⟨-, hnew⟩ | hold
  · cases hnew
  · exact hold

theorem committed_inserting {deviceId : Uuid}
    (h : ((s.moved db' r (.committed attempt acknowledged)).phase r').inserting = some deviceId) :
    r' ≠ r ∧ (s.phase r').inserting = some deviceId := by
  rcases moved_eq_some (f := EnrollPhase.inserting) h with ⟨-, hnew⟩ | hold
  · cases hnew
  · exact hold

/-- It is granted its token and its device, and the others what they were granted. -/
theorem committed_granted {id deviceId : Uuid} :
    ((s.moved db' r (.committed attempt acknowledged)).phase r').granted = some (id, deviceId) ↔
      r' = r ∧ attempt.token.id = id ∧ attempt.deviceId = deviceId ∨
        r' ≠ r ∧ (s.phase r').granted = some (id, deviceId) := by
  by_cases hr : r' = r
  · subst hr
    rw [moved_self, EnrollPhase.granted, Option.some.injEq, Prod.mk.injEq]
    simp
  · rw [moved_other hr]
    simp [hr]

omit [DecidableEq ι] in
/-- Nothing has been granted of a token whose row is held. -/
theorem EnrollInv.ungranted (hs : EnrollInv sha256 requests start s) {id : Uuid}
    (hheld : (s.phase r).holds = some id) (r' : ι) (deviceId : Uuid) :
    (s.phase r').granted ≠ some (id, deviceId) := by
  intro h
  obtain ⟨row, hrow, hunspent⟩ := hs.unspent r id hheld
  obtain ⟨_, _, -, -, -, hspent⟩ := hs.granted r' id deviceId h
  rw [hspent] at hrow
  rw [← Option.some.inj hrow] at hunspent
  cases hunspent

/-- The row that is spent keeps its hash. -/
theorem EnrollInv.known_commit (hs : EnrollInv sha256 requests start s)
    (hr : s.phase r = .inserted attempt now) {row : EnrollmentToken}
    (hrow : s.db.tokens[attempt.token.id]? = some row)
    (htokens : ∀ id : Uuid, db'.tokens[id]? = if attempt.token.id = id then
        some { row with consumedAt := some now, consumedBy := some attempt.deviceId }
      else s.db.tokens[id]?) {token : FoundToken}
    (h : ((s.moved db' r (.committed attempt acknowledged)).phase r').token = some token) :
    ∃ stored, db'.tokens[token.id]? = some stored ∧
      stored.tokenHash = digestToken sha256 (requests r').token := by
  have hknown : ∃ stored, s.db.tokens[token.id]? = some stored ∧
      stored.tokenHash = digestToken sha256 (requests r').token := by
    rcases moved_eq_some (f := EnrollPhase.token) h with ⟨rfl, hnew⟩ | ⟨-, hold⟩
    · exact hs.known r' token (by rw [hr]; exact hnew)
    · exact hs.known r' token hold
  obtain ⟨stored, hstored, hhash⟩ := hknown
  rw [htokens]
  by_cases hid : attempt.token.id = token.id
  · rw [← hid, hrow] at hstored
    rw [if_pos hid]
    cases hstored
    exact ⟨_, rfl, hhash⟩
  · rw [if_neg hid]
    exact ⟨stored, hstored, hhash⟩

/-- What a commit grants was unconsumed at the start, and so was what had been granted. -/
theorem EnrollInv.granted_commit (hs : EnrollInv sha256 requests start s)
    (hr : s.phase r = .inserted attempt now) {row : EnrollmentToken}
    (hrow : s.db.tokens[attempt.token.id]? = some row)
    (htokens : ∀ id : Uuid, db'.tokens[id]? = if attempt.token.id = id then
        some { row with consumedAt := some now, consumedBy := some attempt.deviceId }
      else s.db.tokens[id]?) {id deviceId : Uuid}
    (h : ((s.moved db' r (.committed attempt acknowledged)).phase r').granted =
      some (id, deviceId)) :
    ∃ row now, start.tokens[id]? = some row ∧ row.consumedAt = none ∧ deviceId ∉ start.devices ∧
      db'.tokens[id]? =
        some { row with consumedAt := some now, consumedBy := some deviceId } := by
  have hheld : (s.phase r).holds = some attempt.token.id := by
    rw [hr]
    rfl
  rw [htokens]
  rcases committed_granted.mp h with ⟨-, rfl, rfl⟩ | ⟨-, hold⟩
  · obtain ⟨row', hrow', hunspent⟩ := hs.unspent r _ hheld
    obtain rfl : row = row' := Option.some.inj (hrow.symm.trans hrow')
    have hfresh : attempt.deviceId ∉ s.db.devices := hs.missing r _ (by rw [hr]; rfl)
    rw [if_pos rfl]
    exact ⟨row, now, (hs.tokens _ (hs.ungranted hheld)).symm.trans hrow, hunspent,
      fun hthere => hfresh ((hs.devices _).mpr (.inl hthere)), rfl⟩
  · have hid : attempt.token.id ≠ id := by
      rintro rfl
      exact hs.ungranted hheld r' deviceId hold
    rw [if_neg hid]
    exact hs.granted r' id deviceId hold

/-- A commit grants what its request held. -/
theorem EnrollInv.of_commit (hs : EnrollInv sha256 requests start s)
    (hr : s.phase r = .inserted attempt now)
    (hdb : s.db.enroll? attempt now (requests r).label = some db') :
    EnrollInv sha256 requests start (s.moved db' r (.committed attempt acknowledged)) := by
  obtain ⟨row, hrow, htokens, hdevices⟩ := enroll?_eq_some hdb
  have hheld : (s.phase r).holds = some attempt.token.id := by
    rw [hr]
    rfl
  have hother : ∀ {r' : ι} {id deviceId : Uuid},
      (s.phase r').granted = some (id, deviceId) → r' ≠ r := by
    rintro r' id deviceId hold rfl
    rw [hr] at hold
    cases hold
  constructor
  case known => exact fun r' token h => hs.known_commit hr hrow htokens h
  case unspent =>
    intro r' id h
    obtain ⟨hother, hold⟩ := committed_holds h
    have hid : attempt.token.id ≠ id := by
      rintro rfl
      exact hother (hs.alone r' r _ hold hheld)
    show ∃ row, db'.tokens[id]? = some row ∧ _
    rw [htokens, if_neg hid]
    exact hs.unspent r' id hold
  case alone =>
    exact fun r₁ r₂ id h₁ h₂ => hs.alone r₁ r₂ id (committed_holds h₁).2 (committed_holds h₂).2
  case missing =>
    intro r' deviceId h
    obtain ⟨hother, hold⟩ := committed_inserting h
    show deviceId ∉ db'.devices
    rw [hdevices]
    rintro (rfl | hthere)
    · exact hother (hs.once r' r _ hold (by rw [hr]; rfl))
    · exact hs.missing r' deviceId hold hthere
  case once =>
    exact fun r₁ r₂ deviceId h₁ h₂ =>
      hs.once r₁ r₂ deviceId (committed_inserting h₁).2 (committed_inserting h₂).2
  case granted => exact fun r' id deviceId h => hs.granted_commit hr hrow htokens h
  case single =>
    intro r₁ r₂ id d₁ d₂ h₁ h₂
    -- of two that were granted one token, none has just committed, or both have
    rcases committed_granted.mp h₁ with ⟨rfl, rfl, -⟩ | ⟨-, hold₁⟩
    · rcases committed_granted.mp h₂ with ⟨rfl, -⟩ | ⟨-, hold₂⟩
      · rfl
      · exact absurd hold₂ (hs.ungranted hheld r₂ d₂)
    · rcases committed_granted.mp h₂ with ⟨-, rfl, -⟩ | ⟨-, hold₂⟩
      · exact absurd hold₁ (hs.ungranted hheld r₁ d₁)
      · exact hs.single r₁ r₂ id d₁ d₂ hold₁ hold₂
  case tokens =>
    intro id h
    have hid : attempt.token.id ≠ id := fun hid =>
      h r attempt.deviceId (committed_granted.mpr (.inl ⟨rfl, hid, rfl⟩))
    show db'.tokens[id]? = _
    rw [htokens, if_neg hid]
    exact hs.tokens id fun r' deviceId hold =>
      h r' deviceId (committed_granted.mpr (.inr ⟨hother hold, hold⟩))
  case devices =>
    intro deviceId
    show deviceId ∈ db'.devices ↔ _
    rw [hdevices, hs.devices]
    constructor
    · rintro (rfl | hthere | ⟨r', id, hold⟩)
      · exact .inr ⟨r, _, committed_granted.mpr (.inl ⟨rfl, rfl, rfl⟩)⟩
      · exact .inl hthere
      · exact .inr ⟨r', id, committed_granted.mpr (.inr ⟨hother hold, hold⟩)⟩
    · rintro (hthere | ⟨r', id, h⟩)
      · exact .inr (.inl hthere)
      · rcases committed_granted.mp h with ⟨-, -, rfl⟩ | ⟨-, hold⟩
        · exact .inl rfl
        · exact .inr (.inr ⟨r', id, hold⟩)

end Commit

/-- Every step keeps the invariant. -/
theorem EnrollInv.step {a : ι × EnrollAction} (hs : EnrollInv sha256 requests start s)
    (h : s.step format sha256 requests a s') : EnrollInv sha256 requests start s' := by
  obtain ⟨r, action⟩ := a
  obtain ⟨hwaits, phase, db', hproceed, rfl⟩ := h
  rcases proceed_cases hproceed with ⟨attempt, now, rfl, hr, hrow, rfl, rfl⟩ |
    ⟨attempt, now, rfl, hr, hfree, rfl, rfl⟩ | ⟨attempt, now, acknowledged, hr, hdb, rfl⟩ |
    ⟨rfl, hquiet⟩
  · -- the row is taken: nobody else holds it, and it is checked again
    refine hs.of_same ⟨by rw [hr]; rfl, rfl⟩ ?_ ?_ nofun
    · exact fun token htoken => hs.known r token (by rw [hr]; exact htoken)
    · rintro id ⟨⟩
      refine ⟨?_, fun r' hr' hheld => hwaits ⟨r', hr', ?_⟩⟩
      · obtain ⟨row, hstored, hopen⟩ := (Option.any_eq_true _ _).mp hrow
        exact ⟨row, hstored, Option.isNone_iff_eq_none.mp (Bool.and_eq_true_iff.mp hopen).1⟩
      · rw [hr]
        exact decide_eq_true hheld
  · refine hs.of_same ⟨by rw [hr]; rfl, rfl⟩ ?_ ?_ ?_
    · exact fun token htoken => hs.known r token (by rw [hr]; exact htoken)
    · intro id hid
      have hheld : (s.phase r).holds = some id := by
        rw [hr]
        exact hid
      exact ⟨hs.unspent r id hheld, fun r' hr' hother => hr' (hs.alone r' r id hother hheld)⟩
    · rintro deviceId ⟨⟩
      refine ⟨hfree, fun r' hr' hother => hwaits ⟨r', hr', ?_⟩⟩
      rw [hr]
      exact decide_eq_true hother
  · exact hs.of_commit hr hdb
  · refine hs.of_same ⟨hquiet.uncommitted, hquiet.granted⟩ ?_ ?_ ?_
    · intro token htoken
      rcases hquiet.token token htoken with hknown | hfound
      · exact hs.known r token hknown
      · exact tokenForDigest_eq_some hfound
    · intro id hid
      rw [hquiet.holds] at hid
      cases hid
    · intro deviceId hdevice
      rw [hquiet.inserting] at hdevice
      cases hdevice

/-! ## Section 7: One token, one device -/

/-- Consumed tokens have been consumed by a device. -/
def EnrollDb.Consistent (db : EnrollDb) : Prop :=
  ∀ (id : Uuid) (row : EnrollmentToken), db.tokens[id]? = some row →
    row.consumedAt.isSome = row.consumedBy.isSome

/-- A request has created a device for a token. -/
def Enrollments.Created (s : Enrollments ι) (r : ι) (id deviceId : Uuid) : Prop :=
  (s.phase r).granted = some (id, deviceId)

/-- What the tables and the requests are to be like, after any run. -/
structure EnrolsOnce (sha256 : List UInt8 → EventHash) (requests : ι → EnrollRequest)
    (start : EnrollDb) (s : Enrollments ι) : Prop where
  /-- One request creates a device for a token, and one device. -/
  once : ∀ id r r' deviceId deviceId', s.Created r id deviceId → s.Created r' id deviceId' →
    r = r' ∧ deviceId = deviceId'
  /-- The devices are those there were and those created. -/
  devices : ∀ deviceId, deviceId ∈ s.db.devices ↔
    deviceId ∈ start.devices ∨ ∃ r id, s.Created r id deviceId
  /-- Where all requests carry one token, one device is new. -/
  sameToken : (∀ r r', digestToken sha256 (requests r).token =
      digestToken sha256 (requests r').token) →
    ∀ deviceId ∈ s.db.devices, ∀ deviceId' ∈ s.db.devices, deviceId ∉ start.devices →
      deviceId' ∉ start.devices → deviceId = deviceId'
  /-- A token is consumed if and only if the device that `consumed_by` names is there. -/
  consumed : ∀ (id : Uuid) (row : EnrollmentToken), s.db.tokens[id]? = some row →
    (row.consumedAt.isSome ↔ ∃ deviceId ∈ s.db.devices, row.consumedBy = some deviceId)
  /-- A token there was to be consumed is consumed if and only if a device was created for it. -/
  created : ∀ (id : Uuid) (row row' : EnrollmentToken), start.tokens[id]? = some row →
    row.consumedAt = none → s.db.tokens[id]? = some row' →
      (row'.consumedAt.isSome ↔ ∃ r deviceId, s.Created r id deviceId)
  /-- The device created is new, and `consumed_by` names it. -/
  named : ∀ r id deviceId, s.Created r id deviceId → deviceId ∈ s.db.devices ∧
    deviceId ∉ start.devices ∧ ∃ row, s.db.tokens[id]? = some row ∧
      row.consumedAt.isSome ∧ row.consumedBy = some deviceId

omit [DecidableEq ι] in
/-- What holds throughout, read for the tables. -/
theorem EnrollInv.enrolsOnce (hs : EnrollInv sha256 requests start s) (hstart : start.Consistent) :
    EnrolsOnce sha256 requests start s := by
  have honce : ∀ id r r' deviceId deviceId', s.Created r id deviceId →
      s.Created r' id deviceId' → r = r' ∧ deviceId = deviceId' := by
    intro id r r' deviceId deviceId' h h'
    obtain rfl := hs.single r r' id deviceId deviceId' h h'
    exact ⟨rfl, congrArg Prod.snd (Option.some.inj (h.symm.trans h'))⟩
  have hnamed : ∀ r id deviceId, s.Created r id deviceId → deviceId ∈ s.db.devices ∧
      deviceId ∉ start.devices ∧ ∃ row, s.db.tokens[id]? = some row ∧
        row.consumedAt.isSome ∧ row.consumedBy = some deviceId := by
    intro r id deviceId h
    obtain ⟨row, now, -, -, hnew, hrow⟩ := hs.granted r id deviceId h
    exact ⟨(hs.devices deviceId).mpr (.inr ⟨r, id, h⟩), hnew, _, hrow, rfl, rfl⟩
  -- a token that nothing was created for is as it was
  have hrow : ∀ (id : Uuid) (row : EnrollmentToken), s.db.tokens[id]? = some row →
      (∃ r deviceId, s.Created r id deviceId) ∨ start.tokens[id]? = some row := by
    intro id row h
    by_cases hcreated : ∃ r deviceId, s.Created r id deviceId
    · exact .inl hcreated
    · refine .inr ((hs.tokens id fun r deviceId hr => hcreated ⟨r, deviceId, hr⟩).symm.trans h)
  refine ⟨honce, hs.devices, ?_, ?_, ?_, hnamed⟩
  · intro hsame d hd d' hd' hnew hnew'
    obtain ⟨r, id, h⟩ := ((hs.devices d).mp hd).resolve_left hnew
    obtain ⟨r', id', h'⟩ := ((hs.devices d').mp hd').resolve_left hnew'
    have htoken : ∀ {r id d}, s.Created r id d → ∃ row, s.db.tokens[id]? = some row ∧
        row.tokenHash = digestToken sha256 (requests r).token := by
      intro r id d h
      unfold Enrollments.Created at h
      cases hphase : s.phase r <;> rw [hphase] at h <;> cases h
      exact hs.known r _ (by rw [hphase]; rfl)
    obtain ⟨row, hid, hhash⟩ := htoken h
    obtain ⟨row', hid', hhash'⟩ := htoken h'
    obtain rfl : id = id' :=
      s.db.unique id id' row row' hid hid' (by rw [hhash, hhash', hsame r r'])
    exact (honce id r r' d d' h h').2
  · intro id row h
    rcases hrow id row h with ⟨r, deviceId, hcreated⟩ | hold
    · obtain ⟨hdevice, -, row', hrow', hat, hby⟩ := hnamed r id deviceId hcreated
      obtain rfl : row = row' := Option.some.inj (h.symm.trans hrow')
      exact ⟨fun _ => ⟨deviceId, hdevice, hby⟩, fun _ => hat⟩
    · rw [hstart id row hold, Option.isSome_iff_exists]
      constructor
      · exact fun ⟨deviceId, hby⟩ => ⟨deviceId, s.db.references id row deviceId h hby, hby⟩
      · exact fun ⟨deviceId, _, hby⟩ => ⟨deviceId, hby⟩
  · intro id row row' hstored hunconsumed h
    constructor
    · intro hconsumed
      rcases hrow id row' h with hcreated | hold
      · exact hcreated
      · rw [hstored] at hold
        rw [← Option.some.inj hold, hunconsumed] at hconsumed
        cases hconsumed
    · rintro ⟨r, deviceId, hcreated⟩
      obtain ⟨-, -, final, hfinal, hat, -⟩ := hnamed r id deviceId hcreated
      rw [Option.some.inj (h.symm.trans hfinal)]
      exact hat

/-- A request that has committed takes no more steps. -/
theorem run_granted {actions : List (ι × EnrollAction)} {v : Uuid × Uuid}
    (h : Transition.Run (Enrollments.step format sha256 requests) s actions s')
    (hgranted : (s.phase r).granted = some v) : (s'.phase r).granted = some v := by
  refine h.invariant (I := fun s => (s.phase r).granted = some v) ?_ hgranted
  intro s a s' hs hstep
  obtain ⟨-, phase, db, hproceed, rfl⟩ := hstep
  by_cases hr : r = a.1
  · -- the request that has moved had not committed
    subst hr
    rcases proceed_cases hproceed with ⟨_, _, -, hphase, -⟩ | ⟨_, _, -, hphase, -⟩ |
      ⟨_, _, _, hphase, -⟩ | ⟨-, hquiet⟩
    · rw [hphase] at hs
      cases hs
    · rw [hphase] at hs
      cases hs
    · rw [hphase] at hs
      cases hs
    · rw [hquiet.uncommitted] at hs
      cases hs
  · rw [moved_other hr]
    exact hs

/-- A run of given steps, if each of them can be taken. -/
def Enrollments.exec [Fintype ι] (format : KeyFormat) (sha256 : List UInt8 → EventHash)
    (requests : ι → EnrollRequest) :
    Enrollments ι → List (ι × EnrollAction) → Option (Enrollments ι)
  | s, [] => some s
  | s, a :: actions =>
    if ∃ r', r' ≠ a.1 ∧ (s.phase a.1).conflicts a.2 (s.phase r') = true then none
    else
      ((requests a.1).proceed format sha256 s.db (s.phase a.1) a.2).bind fun next =>
        exec format sha256 requests (s.moved next.2 a.1 next.1) actions

theorem exec_run [Fintype ι] {actions : List (ι × EnrollAction)}
    (h : s.exec format sha256 requests actions = some s') :
    Transition.Run (Enrollments.step format sha256 requests) s actions s' := by
  induction actions generalizing s with
  | nil =>
    cases h
    exact .nil _
  | cons a actions ih =>
    unfold Enrollments.exec at h
    split at h
    · cases h
    · rename_i hwaits
      obtain ⟨⟨phase, db⟩, hproceed, hrest⟩ := Option.bind_eq_some_iff.mp h
      exact .cons a actions ⟨hwaits, phase, db, hproceed, rfl⟩ (ih hrest)

/-- **Enrolment**: however many requests overlap, and wherever they fail or are abandoned, a token
    enrols one device at most and is consumed if and only if that device is there, and a request
    that has not committed has left the tables as they were at each of its steps. -/
theorem enroll_once {actions : List (ι × EnrollAction)} (hstart : start.Consistent)
    (h : Transition.Run (Enrollments.step format sha256 requests) (.init start) actions s) :
    EnrolsOnce sha256 requests start s ∧
      ∀ r earlier action later mid mid', (s.phase r).granted = none →
        Transition.Run (Enrollments.step format sha256 requests) (.init start) earlier mid →
          mid.step format sha256 requests (r, action) mid' →
            Transition.Run (Enrollments.step format sha256 requests) mid' later s →
              mid'.db = mid.db := by
  have hinv := h.invariant (I := EnrollInv sha256 requests start)
    (fun _ _ _ hs hstep => hs.step hstep) (.of_init start)
  refine ⟨hinv.enrolsOnce hstart, ?_⟩
  intro r earlier action later mid mid' hungranted _ hstep hlater
  obtain ⟨-, phase, db, hproceed, rfl⟩ := hstep
  rcases proceed_cases hproceed with ⟨_, _, -, -, -, -, rfl⟩ | ⟨_, _, -, -, -, -, rfl⟩ |
    ⟨attempt, _, _, -, -, rfl⟩ | ⟨rfl, -⟩
  · rfl
  · rfl
  · -- a commit is not undone
    have hcommitted := run_granted (r := r) (v := (attempt.token.id, attempt.deviceId)) hlater
      (by rw [moved_self]; rfl)
    rw [hcommitted] at hungranted
    cases hungranted
  · rfl

/-! ### Two tills and one token -/

/-- A key as a till sends it. -/
def tillKey : List UInt8 :=
  [0xd7, 0x5a, 0x98, 0x01, 0x82, 0xb1, 0x0a, 0xb7, 0xd5, 0x4b, 0xfe, 0xd3, 0xc9, 0x64, 0x07, 0x3a,
   0x0e, 0xe1, 0x72, 0xf3, 0xda, 0xa6, 0x23, 0x25, 0xaf, 0x02, 0x1a, 0x68, 0xf7, 0x07, 0x51, 0x1a]

def tillText : String := "11qYAYKxCrfVS_7TyWQHOg7hcvPapiMlrwIaaPcHURo"

def tillFormat : KeyFormat where
  decode text := if text = tillText then some tillKey else none
  wellFormed key := key = tillKey
  isWeak _ := false

/-- The digest of the token `t`. -/
def tokenDigest : EventHash :=
  ⟨Fin.ofNat _ 0xe3b98a4da31a127d4bde6e43033f66ba274cab0eb7eb1c70ec41402bf6273dd8⟩

def tokenSha256 (bytes : List UInt8) : EventHash :=
  if bytes = Text.utf8 "t" then tokenDigest else .genesis

def issuedToken : EnrollmentToken := ⟨1, 2, tokenDigest, I64.lit 60000, none, none⟩

/-- One token has been issued. -/
def issued : EnrollDb where
  tokens := (∅ : UuidMap EnrollmentToken).insert 5 issuedToken
  devices := ∅
  unique := by
    intro id id' row row' h h' _
    rw [UuidMap.get_insert] at h h'
    split at h
    · split at h'
      · rename_i hid hid'
        exact hid.symm.trans hid'
      · cases h'
    · cases h
  references := by
    intro id row deviceId h hby
    rw [UuidMap.get_insert] at h
    split at h
    · cases h
      cases hby
    · cases h

/-- Both tills are typed the same token into. -/
def twoTills (till : Bool) : EnrollRequest :=
  ⟨if till then "t" else " t\n", tillText, if till then "Front" else "Back"⟩

/-- Both find the token usable, and the front till is the first to consume it. -/
def race : List (Bool × EnrollAction) :=
  [(true, .receive), (false, .receive), (true, .lookup), (false, .lookup),
   (true, .check (I64.lit 1000)), (false, .check (I64.lit 1000)), (false, .begin 8),
   (true, .begin 7), (true, .consume Timestamp.epoch), (true, .insert), (true, .commit true),
   (false, .consume Timestamp.epoch)]

/-- The front till is enrolled and the back till is refused. -/
theorem enroll_once_race : ∃ s, Enrollments.exec tillFormat tokenSha256 twoTills (.init issued)
      race = some s ∧ (s.phase true).response = some (.created 7 1 2) ∧
        (s.phase false).response = some .refused ∧
          EnrolsOnce tokenSha256 twoTills issued s := by
  have hrace : (Enrollments.exec tillFormat tokenSha256 twoTills (.init issued) race).any
      (fun s => decide ((s.phase true).response = some (.created 7 1 2)) &&
        decide ((s.phase false).response = some .refused)) = true := by
    decide +kernel
  obtain ⟨s, hs, hanswers⟩ := (Option.any_eq_true _ _).mp hrace
  obtain ⟨hfront, hback⟩ := Bool.and_eq_true_iff.mp hanswers
  have hissued : issued.Consistent := by
    intro id row h
    rw [show issued.tokens = (∅ : UuidMap EnrollmentToken).insert 5 issuedToken from rfl,
      UuidMap.get_insert] at h
    split at h
    · cases h
      rfl
    · cases h
  exact ⟨s, hs, of_decide_eq_true hfront, of_decide_eq_true hback,
    (enroll_once hissued (exec_run hs)).1⟩

end Sahl
