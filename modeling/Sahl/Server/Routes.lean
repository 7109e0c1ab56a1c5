import Mathlib.Tactic
import Sahl.Server.Push

/-! # The sync routes

    A request is authenticated, parsed and served in one database transaction, and answered with
    a status and a body. `Faults` are the points at which the database can fail. A fault while the
    request is authenticated is answered as a stranger is; a later one asks for another try. -/

namespace Sahl

/-! ## Section 1: Signed requests -/

/-- The lines a request is signed as. -/
structure SigningPayload where
  domain : String
  method : String
  path : String
  deviceId : Uuid
  timestampMillis : I64
  bodyDigest : EventHash
  deriving DecidableEq

/-- A signature scheme: what is signed with a key verifies under its public half. -/
structure SignatureScheme (Key : Type) where
  publicKey : Key → List UInt8
  wellFormed : List UInt8 → Bool
  sign : Key → SigningPayload → List UInt8
  verifyStrict : List UInt8 → SigningPayload → List UInt8 → Bool
  publicKey_wellFormed : ∀ key, wellFormed (publicKey key) = true
  sign_length : ∀ key payload, (sign key payload).length = 64
  verifyStrict_sign : ∀ key payload, verifyStrict (publicKey key) payload (sign key payload) = true

/-- How a push is written and read. -/
structure Codec (V : Type) where
  toVec : PushRequest V → Option (List UInt8)
  fromSlice : List UInt8 → Option (PushRequest V)

/-- A request can be written, and what is written is read back. -/
def Codec.RoundTrips {V : Type} (codec : Codec V) (request : PushRequest V) : Prop :=
  ∃ body, codec.toVec request = some body ∧ codec.fromSlice body = some request

inductive SignatureError where
  | revoked (deviceId : Uuid)
  | malformedPublicKey (deviceId : Uuid)
  | malformedSignature
  | timestampOutOfWindow (skewSeconds : Int) (allowedSeconds : I64)
  | rejected (deviceId : Uuid)
  deriving DecidableEq

/-- Prefix binding a signature to this scheme and version. -/
def signingDomain : String := "sahl-request-v1"

/-- The parts of a request that its signature covers. -/
structure SignedRequest where
  deviceId : Uuid
  method : String
  path : String
  timestampMillis : I64
  body : List UInt8

def SignedRequest.signingPayload (sha256 : List UInt8 → EventHash) (request : SignedRequest) :
    SigningPayload where
  domain := signingDomain
  method := request.method
  path := request.path
  deviceId := request.deviceId
  timestampMillis := request.timestampMillis
  bodyDigest := sha256 request.body

/-- A device's stored credentials. -/
structure DeviceCredentials where
  deviceId : Uuid
  publicKey : List UInt8
  revoked : Bool

/-- How far a request's clock is from the server's. -/
def skewMillis (serverNow timestamp : I64) : I64 :=
  (serverNow.saturatingSub timestamp).saturatingAbs

section Routes

variable {Key V : Type} (scheme : SignatureScheme Key) (sha256 : List UInt8 → EventHash)
  (codec : Codec V)

/-- Revocation, then freshness, then cryptography. -/
def verifyRequest (request : SignedRequest) (credentials : DeviceCredentials)
    (signature : List UInt8) (serverNow maxSkewSeconds : I64) : Except SignatureError Unit :=
  if credentials.revoked then .error (.revoked credentials.deviceId)
  else if maxSkewSeconds.saturatingMul (I64.lit 1000) <
      skewMillis serverNow request.timestampMillis then
    .error (.timestampOutOfWindow ((skewMillis serverNow request.timestampMillis).val / 1000)
      maxSkewSeconds)
  else if !scheme.wellFormed credentials.publicKey then
    .error (.malformedPublicKey credentials.deviceId)
  else if signature.length ≠ 64 then .error .malformedSignature
  else if scheme.verifyStrict credentials.publicKey (request.signingPayload sha256) signature then
    .ok ()
  else .error (.rejected credentials.deviceId)

/-! ## Section 2: Faults -/

/-- Which statements of a request fail in the database. -/
structure Faults (V : Type) where
  tenantOf : Bool
  beginForTenant : Bool
  loadDevice : Bool
  highWaterFor : Bool
  insert : EventEnvelope V → Bool
  updateTip : Bool
  select : Bool
  commit : Bool

/-- Nothing fails. -/
def Faults.none : Faults V where
  tenantOf := false
  beginForTenant := false
  loadDevice := false
  highWaterFor := false
  insert _ := false
  updateTip := false
  select := false
  commit := false

/-- A statement of the authentication fails. -/
def Faults.authentication (faults : Faults V) : Prop :=
  faults.tenantOf ∨ faults.beginForTenant ∨ faults.loadDevice

instance (faults : Faults V) : Decidable faults.authentication :=
  inferInstanceAs (Decidable (_ ∨ _ ∨ _))

/-- A statement that stores a batch under a plan fails, or the commit. -/
def Faults.storing (faults : Faults V) (plan : BatchPlan) (batch : List (EventEnvelope V)) :
    Prop :=
  (if plan.isNoop then faults.highWaterFor = true
    else (∃ event ∈ batch.drop plan.alreadyStored, faults.insert event) ∨ faults.updateTip) ∨
  faults.commit

/-- A statement that reads a page fails, or the commit. -/
def Faults.reading (faults : Faults V) : Prop := faults.select ∨ faults.commit

/-! ## Section 3: Authentication -/

/-- Why a request was not authenticated. -/
inductive AuthFailure where
  | missingHeaders
  | malformedHeaders
  | unknownDevice
  | revoked
  | badSignature
  | unavailable
  deriving DecidableEq

/-- A header: absent, unreadable, or its value. -/
inductive Header (α : Type) where
  | missing
  | malformed
  | value (a : α)

def Header.read {α : Type} : Header α → Except AuthFailure α
  | .missing => .error .missingHeaders
  | .malformed => .error .malformedHeaders
  | .value a => .ok a

structure Headers where
  device : Header Uuid
  timestamp : Header I64
  signature : Header (List UInt8)

/-- Shared handler state, and the public keys in the device table. -/
structure AppState where
  publicKey : Uuid → List UInt8
  maxSkewSeconds : I64
  /-- The longest body the web framework hands to a handler. -/
  bodyLimit : Nat

namespace AppState

variable (app : AppState) (faults : Faults V)

/-- Read a device's tenant so the request can be scoped. -/
def tenantOf (db : Db V) (deviceId : Uuid) : Except AuthFailure Uuid :=
  if faults.tenantOf then .error .unavailable
  else (Except.okOr (db.device deviceId) AuthFailure.unknownDevice).map (·.tenantId)

/-- The row of the device; whatever goes wrong, the device is unknown. -/
def loadDevice (db : Db V) (deviceId : Uuid) : Except AuthFailure DeviceRecord :=
  if faults.loadDevice then .error .unknownDevice
  else Except.okOr (db.device deviceId) .unknownDevice

/-- Verify a signed request; the device it is from. -/
def authenticate (db : Db V) (headers : Headers) (method path : String) (body : List UInt8)
    (now : I64) : Except AuthFailure Uuid := do
  let deviceId ← headers.device.read
  let timestamp ← headers.timestamp.read
  let signature ← headers.signature.read
  let _ ← tenantOf faults db deviceId
  if faults.beginForTenant then .error .unavailable
  else
    let device ← loadDevice faults db deviceId
    if device.revoked then .error .revoked
    else
      (verifyRequest scheme sha256 ⟨deviceId, method, path, timestamp, body⟩
        ⟨deviceId, app.publicKey deviceId, device.revoked⟩ signature now
        app.maxSkewSeconds).mapError fun _ => AuthFailure.badSignature
      .ok deviceId

end AppState

/-! ## Section 4: The routes -/

inductive StatusCode where
  | ok
  | unauthorized
  | payloadTooLarge
  | unprocessableEntity
  | serviceUnavailable
  deriving DecidableEq

def StatusCode.isSuccess : StatusCode → Bool
  | .ok => true
  | _ => false

def StatusCode.isServerError : StatusCode → Bool
  | .serviceUnavailable => true
  | _ => false

/-- What a body says: the answer, or why there is none; the framework's own are text. -/
inductive ReplyBody (α : Type) where
  | value (a : α)
  | rejection (rejection : SyncRejection)
  | text

structure Reply (α : Type) where
  status : StatusCode
  body : ReplyBody α

/-- Whether sending the same batch again could ever succeed. -/
def SyncRejection.isRetryable : SyncRejection → Bool
  | .unavailable => true
  | _ => false

/-- Every authentication failure looks identical from outside. -/
def unauthorised {α : Type} (_failure : AuthFailure) : Reply α :=
  ⟨.unauthorized, .rejection .notAuthorised⟩

/-- The framework's answer to a body that is too long. -/
def tooLarge {α : Type} : Reply α := ⟨.payloadTooLarge, .text⟩

def rejected {α : Type} (rejection : SyncRejection) : Reply α :=
  ⟨if rejection.isRetryable then .serviceUnavailable else .unprocessableEntity,
    .rejection rejection⟩

/-- Answer a request that was authenticated. -/
def answered {α : Type} : Except SyncRejection α → Reply α
  | .ok value => ⟨.ok, .value value⟩
  | .error rejection => rejected rejection

namespace Server

/-- Insert the next event of transaction `t`, by a statement that may fail. -/
def insertNextUnder (fails : EventEnvelope V → Bool) (s : Server V) (t : Nat) :
    Server V × Except SyncRejection Unit :=
  match s.insertNext t with
  | (s', .error rejection) => (s', .error rejection)
  | (s', .ok _) =>
    if ((s.txns t).bind (·.todo.head?)).any fails then
      (s'.abort t, .error IngestError.database.rejection)
    else (s', .ok ())

def insertAllUnder (fails : EventEnvelope V → Bool) (t : Nat) :
    Nat → Server V → Server V × Except SyncRejection Unit
  | 0, s => (s, .ok ())
  | n + 1, s =>
    match s.insertNextUnder fails t with
    | (s', .error rejection) => (s', .error rejection)
    | (s', .ok _) => insertAllUnder fails t n s'

/-- Serve one push with nothing in between, by statements that may fail. -/
def pushUnder (digest : HashFunction V) (faults : Faults V) (s : Server V) (t : Nat)
    (authenticated : Uuid) (request : PushRequest V) : Server V × Except SyncRejection PushResponse :=
  match s.beginPush digest t authenticated request with
  | (s', .error rejection) => (s', .error rejection)
  | (s', .ok (some response)) =>
    if faults.highWaterFor then (s', .error IngestError.database.rejection)
    else if faults.commit then (s', .error .unavailable)
    else (s', .ok response)
  | (s', .ok none) =>
    match insertAllUnder faults.insert t request.events.length s' with
    | (s'', .error rejection) => (s'', .error rejection)
    | (s'', .ok _) =>
      if faults.updateTip then (s''.abort t, .error IngestError.database.rejection)
      else if faults.commit then (s''.abort t, .error .unavailable)
      else s''.commit t

/-- Serve a pull, by statements that may fail. -/
def pullUnder (faults : Faults V) (db : Db V) (deviceId : Uuid) (cursor : Int) (limit : Nat) :
    Except SyncRejection (PullResponse V) :=
  if faults.select then .error IngestError.database.rejection
  else
    match servePull db deviceId cursor limit with
    | .error rejection => .error rejection
    | .ok page => if faults.commit then .error .unavailable else .ok page

end Server

def pushPath : String := "/v1/sync/push"

/-- The path a pull is signed under, its query included. -/
def pullPath (cursor : Int) (limit : Nat) : String :=
  "/v1/sync/pull?cursor=" ++ toString cursor ++ "&limit=" ++ toString limit

namespace AppState

variable (app : AppState) (digest : HashFunction V) (faults : Faults V)

/-- Accept a batch of events. The body is read before the handler is called. -/
def push (s : Server V) (t : Nat) (headers : Headers) (body : List UInt8) (now : I64) :
    Server V × Reply PushResponse :=
  if app.bodyLimit < body.length then (s, tooLarge)
  else
    match app.authenticate scheme sha256 faults s.db headers "POST" pushPath body now with
    | .error failure => (s, unauthorised failure)
    | .ok authenticated =>
      match codec.fromSlice body with
      | none => (s, rejected .invalid)
      | some request =>
        let (s', answer) := s.pushUnder digest faults t authenticated request
        (s', answered answer)

/-- Deliver events from the outlet's other devices. A GET has no body. -/
def pull (db : Db V) (headers : Headers) (cursor : Int) (limit : Nat) (now : I64) :
    Reply (PullResponse V) :=
  match app.authenticate scheme sha256 faults db headers "GET" (pullPath cursor limit) [] now with
  | .error failure => unauthorised failure
  | .ok authenticated => answered (Server.pullUnder faults db authenticated cursor limit)

end AppState

end Routes

/-! ## Section 5: What a fault is answered with -/

namespace Server

variable {V : Type} {digest : HashFunction V} {faults : Faults V}

/-- Where no statement fails, an event is inserted as it is without faults. -/
theorem insertNextUnder_eq {fails : EventEnvelope V → Bool} {s : Server V} {t : Nat}
    (h : ∀ event ∈ (s.txns t).bind (·.todo.head?), fails event = false) :
    s.insertNextUnder fails t = s.insertNext t := by
  have hnone : ((s.txns t).bind (·.todo.head?)).any fails = false := by
    cases hnext : (s.txns t).bind (·.todo.head?) with
    | none => rfl
    | some event => exact h event hnext
  unfold insertNextUnder
  rw [hnone]
  generalize s.insertNext t = result
  obtain ⟨s', answer⟩ := result
  cases answer with
  | error rejection => rfl
  | ok u => rfl

theorem insertAllUnder_none (t n : Nat) (s : Server V) :
    insertAllUnder (fun _ => false) t n s = insertAll t n s := by
  induction n generalizing s with
  | zero => rfl
  | succ n ih =>
    rw [insertAllUnder, insertAll, insertNextUnder_eq fun _ _ => rfl]
    generalize s.insertNext t = result
    obtain ⟨s', answer⟩ := result
    cases answer with
    | error rejection => rfl
    | ok u => exact ih s'

/-- Where nothing fails, a push is served as it is. -/
theorem pushUnder_none (s : Server V) (t : Nat) (d : Uuid) (request : PushRequest V) :
    s.pushUnder digest Faults.none t d request = s.push digest t d request := by
  unfold pushUnder push
  generalize s.beginPush digest t d request = begun
  obtain ⟨s', answer⟩ := begun
  match answer with
  | .error rejection => rfl
  | .ok (some response) => rfl
  | .ok none =>
    have hsame := insertAllUnder_none t request.events.length s'
    cases hinsert : insertAll t request.events.length s' with
    | mk s'' answer =>
      rw [hinsert] at hsame
      cases answer with
      | error rejection => simp [Faults.none, hsame, hinsert]
      | ok u => simp [Faults.none, hsame, hinsert]

/-- Inserting takes the event at the head, or refuses; where nothing is left, nothing happens. -/
theorem insertNext_open {s : Server V} {t : Nat} {txn : PushTxn V} (htxn : s.txns t = some txn) :
    (txn.todo = [] ∧ s.insertNext t = (s, .ok ())) ∨
    ∃ event rest, txn.todo = event :: rest ∧
      ((∃ error, scopeCheck txn event = .error error ∧
        s.insertNext t = (s.abort t, .error error.rejection)) ∨
      ∃ s' txn', s.insertNext t = (s', .ok ()) ∧ s'.txns t = some txn' ∧ txn'.todo = rest ∧
        txn'.record = txn.record ∧ txn'.deviceId = txn.deviceId) := by
  cases htodo : txn.todo with
  | nil => exact .inl ⟨rfl, by simp only [insertNext, htxn, htodo]⟩
  | cons event rest =>
    refine .inr ⟨event, rest, rfl, ?_⟩
    cases hscope : scopeCheck txn event with
    | error error => exact .inl ⟨error, rfl, by simp only [insertNext, htxn, htodo, hscope]⟩
    | ok u =>
      let txn' : PushTxn V :=
        { txn with todo := rest, rows := txn.rows ++ [⟨event, s.nextSeq⟩] }
      refine .inr ⟨⟨s.db, s.nextSeq + 1, s.setTxn t (some txn')⟩, txn', ?_, setTxn_self s t _, rfl,
        rfl, rfl⟩
      simp only [insertNext, htxn, htodo, hscope]
      rfl

/-- Inserting ends as it does without faults, or at the statement that fails. -/
theorem insertAllUnder_cases {fails : EventEnvelope V → Bool} {t : Nat} (n : Nat) {s : Server V}
    {txn : PushTxn V} (htxn : s.txns t = some txn) :
    (insertAllUnder fails t n s = insertAll t n s ∧
      ((insertAll t n s).2.isOkay → ∀ event ∈ txn.todo.take n, fails event = false)) ∨
    ∃ s', insertAllUnder fails t n s = (s', .error .unavailable) ∧
      ∃ event ∈ txn.todo.take n, fails event = true := by
  induction n generalizing s txn with
  | zero => exact .inl ⟨rfl, fun _ event hevent => absurd hevent (by simp)⟩
  | succ n ih =>
    rcases insertNext_open htxn with ⟨htodo, hnext⟩ |
      ⟨event, rest, htodo, ⟨error, -, hnext⟩ | ⟨s', txn', hnext, htxn', hrest, -, -⟩⟩
    · have hunder : s.insertNextUnder fails t = s.insertNext t := by
        refine insertNextUnder_eq fun event hevent => ?_
        rw [htxn, Option.bind_some, htodo] at hevent
        cases hevent
      rw [insertAllUnder, insertAll, hunder, hnext]
      rw [htodo, List.take_nil]
      have hrec := ih htxn
      rw [htodo, List.take_nil] at hrec
      exact hrec
    · -- a refused event reaches no statement
      refine .inl ⟨?_, fun hok => ?_⟩
      · rw [insertAllUnder, insertAll, insertNextUnder, hnext]
      · rw [insertAll, hnext] at hok
        cases hok
    · have hhead : (s.txns t).bind (·.todo.head?) = some event := by
        rw [htxn, Option.bind_some, htodo]
        rfl
      -- a statement that fails aborts the transaction; one that does not is the step without faults
      cases hfails : fails event with
      | true =>
        refine .inr ⟨s'.abort t, ?_, event, by simp [htodo], hfails⟩
        rw [insertAllUnder, insertNextUnder, hnext, hhead]
        simp only [Option.any_some, hfails, if_true]
        rfl
      | false =>
        have hunder : s.insertNextUnder fails t = s.insertNext t := by
          refine insertNextUnder_eq fun other hother => ?_
          rw [hhead] at hother
          cases hother
          exact hfails
        rw [insertAllUnder, insertAll, hunder, hnext, htodo, List.take_succ_cons]
        rcases ih htxn' with ⟨hsame, hnone⟩ | ⟨s'', hfailed, other, hother, hfails'⟩
        · rw [hrest] at hnone
          refine .inl ⟨hsame, fun hok other hother => ?_⟩
          rcases List.mem_cons.mp hother with rfl | hother
          · exact hfails
          · exact hnone hok other hother
        · rw [hrest] at hother
          exact .inr ⟨s'', hfailed, other, List.mem_cons_of_mem _ hother, hfails'⟩

/-- Inserting events of the device's own outlet is refused only for a fault of the server. -/
theorem insertAll_unavailable {t : Nat} (n : Nat) {s s' : Server V} {txn : PushTxn V}
    {rejection : SyncRejection} (htxn : s.txns t = some txn)
    (hscope : ∀ event ∈ txn.todo,
      event.tenantId = txn.record.tenantId ∧ event.outletId = txn.record.outletId)
    (h : insertAll t n s = (s', .error rejection)) : rejection = .unavailable := by
  induction n generalizing s txn with
  | zero => cases h
  | succ n ih =>
    rw [insertAll] at h
    rcases insertNext_open htxn with ⟨-, hnext⟩ |
      ⟨event, rest, htodo, ⟨error, herror, hnext⟩ | ⟨s', txn', hnext, htxn', hrest, hrecord, -⟩⟩
    · rw [hnext] at h
      exact ih htxn hscope h
    · rw [hnext] at h
      cases h
      -- the event is the outlet's own, so what is left to fail is the storage
      obtain ⟨htenant, houtlet⟩ := hscope event (htodo ▸ List.mem_cons_self)
      rw [scopeCheck, if_neg (by simp [htenant, houtlet])] at herror
      split at herror
      · cases herror
        rfl
      · cases herror
    · rw [hnext] at h
      refine ih htxn' (fun event hevent => ?_) h
      rw [hrecord]
      rw [hrest] at hevent
      exact hscope event (htodo ▸ List.mem_cons_of_mem _ hevent)

theorem commit_unavailable {t : Nat} {s s' : Server V} {rejection : SyncRejection}
    (h : s.commit t = (s', .error rejection)) : rejection = .unavailable := by
  unfold commit at h
  split at h
  · cases h
    rfl
  · split at h
    · cases h
      rfl
    · split at h
      · cases h
        rfl
      · cases h

variable {s : Server V} {t : Nat} {d : Uuid} {request : PushRequest V} {record : DeviceRecord}
  {plan : BatchPlan}

/-- A push that is planned is answered at once, or opens a transaction for what is fresh. -/
theorem beginPush_planned (hopen : openPush digest s.db d request = .ok (record, plan)) :
    (plan.isNoop = true ∧ ((∃ error, s.db.highWaterFor d = .error error ∧
        s.beginPush digest t d request = (s, .error error.rejection)) ∨
      ∃ response, s.beginPush digest t d request = (s, .ok (some response)))) ∨
    plan.isNoop = false ∧ ∃ s' txn, s.beginPush digest t d request = (s', .ok none) ∧
      s'.txns t = some txn ∧ txn.todo = request.events.drop plan.alreadyStored ∧
        txn.record = record := by
  unfold beginPush
  rw [hopen]
  cases hnoop : plan.isNoop with
  | true =>
    refine .inl ⟨rfl, ?_⟩
    cases hhigh : s.db.highWaterFor d with
    | error error => exact .inl ⟨error, rfl, by simp [hnoop]⟩
    | ok highWater => exact .inr ⟨_, by simp only [hnoop, if_true]; rfl⟩
  | false =>
    let txn : PushTxn V := ⟨d, record, plan, request.events.drop plan.alreadyStored, []⟩
    refine .inr ⟨rfl, { s with txns := s.setTxn t (some txn) }, txn, ?_, setTxn_self s t _, rfl,
      rfl⟩
    simp only [hnoop]
    rfl

/-- A push that is planned and in scope is refused only for a fault of the server; with faults it
    is answered exactly where it is without, and no statement it needs fails. -/
theorem pushUnder_planned (faults : Faults V)
    (hopen : openPush digest s.db d request = .ok (record, plan))
    (hscope : ∀ event ∈ request.events.drop plan.alreadyStored,
      event.tenantId = record.tenantId ∧ event.outletId = record.outletId) :
    (∀ rejection, (s.pushUnder digest faults t d request).2 = .error rejection →
      rejection = .unavailable) ∧
    ((s.pushUnder digest faults t d request).2.isOkay = true ↔
      ¬ faults.storing plan request.events ∧ (s.push digest t d request).2.isOkay = true) := by
  unfold pushUnder push Faults.storing
  rcases beginPush_planned hopen with
    ⟨hnoop, ⟨error, herror, hbegin⟩ | ⟨response, hbegin⟩⟩ | ⟨hnoop, s', txn, hbegin, htxn, htodo, hrecord⟩
  · rw [hbegin]
    -- a batch with nothing new still reads the high-water mark
    have hdatabase : error = .database := by
      unfold Db.highWaterFor Except.okOr at herror
      split at herror
      · cases herror
      · exact (Except.error.inj herror).symm
    subst hdatabase
    exact ⟨fun rejection h => (Except.error.inj h).symm, by simp [Except.isOkay]⟩
  · rw [hbegin, hnoop]
    cases faults.highWaterFor <;> cases faults.commit
    all_goals simp [Except.isOkay, IngestError.rejection]
  · rw [hbegin, hnoop]
    rw [← htodo] at hscope ⊢
    have hall : txn.todo.take request.events.length = txn.todo := by
      rw [List.take_of_length_le]
      rw [htodo, List.length_drop]
      omega
    simp only [Bool.false_eq_true, if_false]
    rcases @insertAllUnder_cases _ faults.insert t request.events.length _ _ htxn with
      ⟨hsame, hnone⟩ | ⟨s'', hfailed, event, hevent, hfails⟩
    · rw [hsame]
      rw [hall] at hnone
      cases hinsert : insertAll t request.events.length s' with
      | mk s'' answer =>
        rw [hinsert] at hnone
        cases answer with
        | error rejection =>
          obtain rfl := insertAll_unavailable _ htxn (hrecord ▸ hscope) hinsert
          exact ⟨fun rejection h => (Except.error.inj h).symm, by simp [Except.isOkay]⟩
        | ok u =>
          have hinserts : ¬ ∃ event ∈ txn.todo, faults.insert event = true := by
            rintro ⟨event, hevent, hfails⟩
            rw [hnone rfl event hevent] at hfails
            cases hfails
          simp only [hinserts, false_or]
          -- every event is inserted; the tip and the commit may still fail
          cases faults.updateTip with
          | true => exact ⟨fun rejection h => (Except.error.inj h).symm, by simp [Except.isOkay]⟩
          | false =>
            cases faults.commit with
            | true => exact ⟨fun rejection h => (Except.error.inj h).symm, by simp [Except.isOkay]⟩
            | false =>
              refine ⟨fun rejection h => ?_, by simp⟩
              exact commit_unavailable (s := s'') (Prod.ext rfl h)
    · rw [hall] at hevent
      rw [hfailed]
      have hinserts : ∃ event ∈ txn.todo, faults.insert event = true := ⟨event, hevent, hfails⟩
      exact ⟨fun rejection h => (Except.error.inj h).symm, by simp [Except.isOkay, hinserts]⟩

/-- A pull is refused exactly where a statement it needs fails, and only for that. -/
theorem pullUnder_cases (faults : Faults V) {db : Db V} (hdevice : db.device d = some record)
    (hrevoked : record.revoked = false) (cursor : Int) (limit : Nat) :
    (faults.reading ∧ pullUnder faults db d cursor limit = .error .unavailable) ∨
      ¬ faults.reading ∧ ∃ page, pullUnder faults db d cursor limit = .ok page := by
  obtain ⟨page, hpage⟩ : ∃ page, servePull db d cursor limit = .ok page := by
    simp only [servePull, pull, authenticate, hdevice, hrevoked, Except.okOr, bind, Except.bind]
    exact ⟨_, rfl⟩
  unfold pullUnder Faults.reading
  rw [hpage]
  cases faults.select with
  | true => exact .inl ⟨.inl rfl, rfl⟩
  | false =>
    cases faults.commit with
    | true => exact .inl ⟨.inr rfl, rfl⟩
    | false => exact .inr ⟨by simp, page, rfl⟩

end Server

/-! ## Section 6: Who is let in -/

section Genuine

variable {Key V : Type} {scheme : SignatureScheme Key} {sha256 : List UInt8 → EventHash}

/-- Saturation does not move a clock out of the window. -/
theorem skewMillis_le {serverNow timestamp maxSkewSeconds : I64}
    (h : |serverNow.val - timestamp.val| ≤ maxSkewSeconds.val * 1000) :
    skewMillis serverNow timestamp ≤ maxSkewSeconds.saturatingMul (I64.lit 1000) := by
  rw [SInt.le_def, skewMillis, I64.saturatingAbs_val, I64.saturatingSub_val,
    I64.saturatingMul_val, I64.lit_val]
  generalize serverNow.val - timestamp.val = skew at h ⊢
  -- what is held within the range is no larger
  have hheld : |max (-9223372036854775808) (min 9223372036854775807 skew)| ≤ |skew| := by
    rw [abs_le]
    rcases abs_cases skew with ⟨habs, _⟩ | ⟨habs, _⟩
    · rw [habs]
      omega
    · rw [habs]
      omega
  omega

/-- What a device signs with its own key, in time, verifies. -/
theorem verifyRequest_genuine {request : SignedRequest} {credentials : DeviceCredentials} {key : Key}
    {serverNow maxSkewSeconds : I64} (hrevoked : credentials.revoked = false)
    (hkey : credentials.publicKey = scheme.publicKey key)
    (hclock : |serverNow.val - request.timestampMillis.val| ≤ maxSkewSeconds.val * 1000) :
    verifyRequest scheme sha256 request credentials
      (scheme.sign key (request.signingPayload sha256)) serverNow maxSkewSeconds = .ok () := by
  unfold verifyRequest
  rw [if_neg (by simp [hrevoked]), if_neg (not_lt.mpr (skewMillis_le hclock)),
    hkey, scheme.publicKey_wellFormed, scheme.sign_length, scheme.verifyStrict_sign]
  rfl

/-- A device that is enrolled and in time is let in exactly where no statement of the
    authentication fails. -/
theorem AppState.authenticate_genuine {app : AppState} {db : Db V} {d : Uuid}
    {record : DeviceRecord} {key : Key} {timestamp now : I64} (faults : Faults V)
    (method path : String) (body : List UInt8) (hdevice : db.device d = some record)
    (hrevoked : record.revoked = false) (hkey : app.publicKey d = scheme.publicKey key)
    (hclock : |now.val - timestamp.val| ≤ app.maxSkewSeconds.val * 1000) :
    (faults.authentication ∧ ∃ failure, app.authenticate scheme sha256 faults db
      ⟨.value d, .value timestamp, .value (scheme.sign key
        (SignedRequest.signingPayload sha256 ⟨d, method, path, timestamp, body⟩))⟩
      method path body now = .error failure) ∨
    ¬ faults.authentication ∧ app.authenticate scheme sha256 faults db
      ⟨.value d, .value timestamp, .value (scheme.sign key
        (SignedRequest.signingPayload sha256 ⟨d, method, path, timestamp, body⟩))⟩
      method path body now = .ok d := by
  -- the three statements in the order they run; each ends the request where it fails
  unfold AppState.authenticate AppState.tenantOf AppState.loadDevice Faults.authentication
  simp only [Header.read, hdevice, Except.okOr, Except.map, bind, Except.bind]
  cases faults.tenantOf with
  | true => exact .inl ⟨.inl rfl, _, rfl⟩
  | false =>
    cases faults.beginForTenant with
    | true => exact .inl ⟨.inr (.inl rfl), _, rfl⟩
    | false =>
      cases faults.loadDevice with
      | true => exact .inl ⟨.inr (.inr rfl), _, rfl⟩
      | false =>
        refine .inr ⟨by simp, ?_⟩
        simp only [Bool.false_eq_true, if_false, hrevoked]
        rw [@verifyRequest_genuine _ scheme sha256 ⟨d, method, path, timestamp, body⟩
          ⟨d, app.publicKey d, false⟩ key now app.maxSkewSeconds rfl hkey hclock]
        rfl

end Genuine

end Sahl
