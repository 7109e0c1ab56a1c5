import Mathlib.Tactic
import Sahl.Core.EventTable
import Sahl.Sync.Plan

/-! # The server's ingest

    The server's tables, and the push and pull endpoints over them. A push runs in a database
    transaction: `beginPush` reads the device and plans against the tip it finds, `insertNext`
    inserts one event and is handed its `server_seq`, `commit` makes the rows visible and moves
    the tip. Several transactions may be open at once; `Server.step` interleaves them. A violated
    key aborts the transaction that brings it.

    `push` serves one request with nothing in between. -/

namespace Sahl

variable {V : Type}

/-! ## Section 1: Tables -/

/-- A device as the server knows it. -/
structure DeviceRecord where
  tenantId : Uuid
  outletId : Uuid
  revoked : Bool
  tip : ChainTip
  deriving DecidableEq

/-- A row of the server's event table. -/
structure EventRow (V : Type) where
  event : EventEnvelope V
  serverSeq : Int
  deriving DecidableEq

inductive IngestError where
  | database
  | unknownDevice (deviceId : Uuid)
  | revoked (deviceId : Uuid)
  | corruptDevice (deviceId : Uuid)
  | corruptEvent
  | scopeMismatch (deviceId eventId : Uuid)
  | rejected (error : SyncError)
  deriving DecidableEq

/-- The coarse reason handed back to the terminal. -/
def IngestError.rejection : IngestError → SyncRejection
  | .unknownDevice _ | .revoked _ => .notAuthorised
  | .scopeMismatch .. => .invalid
  | .database | .corruptDevice _ | .corruptEvent => .unavailable
  | .rejected error => .fromSyncError error

/-- The committed state of the database. -/
structure Db (V : Type) where
  device : Uuid → Option DeviceRecord
  table : EventTable V (EventRow V) EventRow.event

namespace Db

/-- The log of one device, in the order it was written. -/
def log (db : Db V) (d : Uuid) : List (EventEnvelope V) :=
  db.table.events.filter (·.deviceId = d)

/-- Move the tip of a device. -/
def setTip (db : Db V) (d : Uuid) (tip : ChainTip) : Uuid → Option DeviceRecord :=
  fun x => if x = d then (db.device d).map fun record => { record with tip } else db.device x

/-- The highest `server_seq` of a device; the query's NULL is not an integer. -/
def highWaterFor (db : Db V) (d : Uuid) : Except IngestError Int :=
  Except.okOr ((db.table.rows.filter (·.event.deviceId = d)).map (·.serverSeq)).max? .database

end Db

/-! ## Section 2: A push transaction -/

/-- An open push: what it read when it began, what it has still to insert, and the rows it
    holds that no one else can see. -/
structure PushTxn (V : Type) where
  deviceId : Uuid
  record : DeviceRecord
  plan : BatchPlan
  todo : List (EventEnvelope V)
  rows : List (EventRow V)

/-- The events the transaction is about: those inserted, then those to come. -/
def PushTxn.batch (txn : PushTxn V) : List (EventEnvelope V) :=
  txn.rows.map (·.event) ++ txn.todo

structure Server (V : Type) where
  db : Db V
  /-- What the next INSERT is handed. It is not rolled back. -/
  nextSeq : Int
  /-- The open transactions. -/
  txns : Nat → Option (PushTxn V)

namespace Server

def setTxn (s : Server V) (t : Nat) (txn : Option (PushTxn V)) : Nat → Option (PushTxn V) :=
  fun x => if x = t then txn else s.txns x

@[simp] theorem setTxn_self (s : Server V) (t : Nat) (txn : Option (PushTxn V)) :
    s.setTxn t txn t = txn := by
  simp [setTxn]

/-- Roll a transaction back. -/
def abort (s : Server V) (t : Nat) : Server V := { s with txns := s.setTxn t none }

/-- Load the device a request is signed by. -/
def authenticate (db : Db V) (deviceId : Uuid) : Except SyncRejection DeviceRecord := do
  let record ← Except.okOr (db.device deviceId) (IngestError.unknownDevice deviceId).rejection
  if record.revoked then .error (IngestError.revoked deviceId).rejection else .ok record

/-- The checks of the push route and the plan, against the committed state. -/
def openPush (digest : HashFunction V) (db : Db V) (authenticated : Uuid)
    (request : PushRequest V) : Except SyncRejection (DeviceRecord × BatchPlan) := do
  let record ← authenticate db authenticated
  if request.deviceId ≠ authenticated then .error .invalid
  else
    request.validate.mapError SyncRejection.fromSyncError
    if record.revoked then .error (IngestError.revoked authenticated).rejection
    else
      let plan ← (planBatch digest request.events record.tip authenticated).mapError
        fun error => (IngestError.rejected error).rejection
      .ok (record, plan)

/-- Open transaction `t` for a request. A request with nothing new is answered at once. -/
def beginPush (digest : HashFunction V) (s : Server V) (t : Nat) (authenticated : Uuid)
    (request : PushRequest V) : Server V × Except SyncRejection (Option PushResponse) :=
  match openPush digest s.db authenticated request with
  | .error rejection => (s, .error rejection)
  | .ok (record, plan) =>
    if plan.isNoop then
      match s.db.highWaterFor authenticated with
      | .error error => (s, .error error.rejection)
      | .ok highWater =>
        (s, .ok (some { accepted := 0, skipped := plan.alreadyStored, tip := record.tip,
                        highWater }))
    else
      let txn : PushTxn V :=
        { deviceId := authenticated, record, plan,
          todo := request.events.drop plan.alreadyStored, rows := [] }
      ({ s with txns := s.setTxn t (some txn) }, .ok none)

/-- The device row is the authority on tenant and outlet; a sequence number fits an `i64`. -/
def scopeCheck (txn : PushTxn V) (event : EventEnvelope V) : Except IngestError Unit :=
  if event.tenantId ≠ txn.record.tenantId ∨ event.outletId ≠ txn.record.outletId then
    .error (.scopeMismatch txn.deviceId event.eventId)
  else if 2 ^ 63 ≤ event.deviceSeq then .error (.corruptDevice txn.deviceId)
  else .ok ()

/-- Insert the next event of transaction `t`. -/
def insertNext (s : Server V) (t : Nat) : Server V × Except SyncRejection Unit :=
  match s.txns t with
  | none => (s, .error .unavailable)
  | some txn =>
    match txn.todo with
    | [] => (s, .ok ())
    | event :: rest =>
      match scopeCheck txn event with
      | .error error => (s.abort t, .error error.rejection)
      | .ok _ =>
        let txn' := { txn with todo := rest, rows := txn.rows ++ [⟨event, s.nextSeq⟩] }
        ({ s with nextSeq := s.nextSeq + 1, txns := s.setTxn t (some txn') }, .ok ())

/-- Commit transaction `t`: its rows become visible and the tip moves, unless a key is taken. -/
def commit (s : Server V) (t : Nat) : Server V × Except SyncRejection PushResponse :=
  match s.txns t with
  | none => (s, .error .unavailable)
  | some txn =>
    if txn.todo ≠ [] then (s, .error .unavailable)
    else
      match s.db.table.insert? txn.rows with
      | none => (s.abort t, .error IngestError.database.rejection)
      | some table =>
        ({ db := { device := s.db.setTip txn.deviceId txn.plan.resultingTip, table }
           nextSeq := s.nextSeq
           txns := s.setTxn t none },
         .ok { accepted := txn.plan.toInsert, skipped := txn.plan.alreadyStored,
               tip := txn.plan.resultingTip,
               highWater := (txn.rows.map (·.serverSeq)).foldl max 0 })

/-- Insert `n` events of transaction `t`, stopping at a refusal. -/
def insertAll (t : Nat) : Nat → Server V → Server V × Except SyncRejection Unit
  | 0, s => (s, .ok ())
  | n + 1, s =>
    match s.insertNext t with
    | (s', .error rejection) => (s', .error rejection)
    | (s', .ok _) => insertAll t n s'

/-- Serve one push with nothing in between. -/
def push (digest : HashFunction V) (s : Server V) (t : Nat) (authenticated : Uuid)
    (request : PushRequest V) : Server V × Except SyncRejection PushResponse :=
  match s.beginPush digest t authenticated request with
  | (s', .error rejection) => (s', .error rejection)
  | (s', .ok (some response)) => (s', .ok response)
  | (s', .ok none) =>
    match insertAll t request.events.length s' with
    | (s'', .error rejection) => (s'', .error rejection)
    | (s'', .ok _) => s''.commit t

/-! ## Section 3: Interleaved pushes -/

inductive Action (V : Type) where
  | beginPush (t : Nat) (authenticated : Uuid) (request : PushRequest V)
  | insertNext (t : Nat)
  | commit (t : Nat)
  | abort (t : Nat)

/-- One step of one transaction. -/
def step (digest : HashFunction V) (s : Server V) : Action V → Server V → Prop
  | .beginPush t authenticated request, s' =>
    s.txns t = none ∧ s' = (s.beginPush digest t authenticated request).1
  | .insertNext t, s' => s' = (s.insertNext t).1
  | .commit t, s' => s' = (s.commit t).1
  | .abort t, s' => s' = s.abort t

/-- A server that has stored nothing: its devices are enrolled, with their tips at genesis. -/
structure Fresh (s : Server V) : Prop where
  table : s.db.table = EventTable.empty
  tip : ∀ d record, s.db.device d = some record → record.tip = ChainTip.genesis
  nextSeq : s.nextSeq = 1
  txns : ∀ t, s.txns t = none

/-! ## Section 4: The pull endpoint -/

/-- The rows a pull reads, in the order of the outlet stream. -/
def pullRows (db : Db V) (deviceId : Uuid) (record : DeviceRecord) (cursor : Int) :
    List (EventRow V) :=
  (db.table.rows.filter fun row => row.event.outletId = record.outletId ∧
    row.event.deviceId ≠ deviceId ∧ cursor < row.serverSeq).insertionSort
      fun a b => a.serverSeq ≤ b.serverSeq

/-- Events from the outlet's other devices, above `cursor`, at most `limit` of them. -/
def pull (db : Db V) (deviceId : Uuid) (cursor : Int) (limit : Nat) :
    Except SyncRejection (PullResponse V) := do
  let record ← authenticate db deviceId
  let rows := pullRows db deviceId record cursor
  let page := rows.take limit
  .ok { events := page.map (·.event)
        cursor := (page.map (·.serverSeq)).getLastD cursor
        hasMore := limit < rows.length }

/-- The pull route: at most 500 events, whatever is asked for. -/
def servePull (db : Db V) (deviceId : Uuid) (cursor : Int) (limit : Nat) :
    Except SyncRejection (PullResponse V) :=
  pull db deviceId cursor (min limit 500)

end Server

end Sahl
