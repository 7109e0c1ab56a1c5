import Mathlib.Tactic
import Sahl.Lib.Decimal
import Sahl.Core.Columns
import Sahl.Terminal.Store

/-! # The database under the store

    The store keeps its events in a database of text, integers and blobs, and reads them back by
    parsing what it finds. Whatever is done to it, in whatever order, every call is answered as the
    store answers it and every query gives the store's events: no row the store wrote is ever
    found corrupt, and sorting the columns sorts the events (`database_refines`). -/

namespace Sahl

/-! ## Section 1: Rows -/

/-- How identifiers and payloads are written to a column and parsed back: not this program's. -/
structure ColumnCodec (V : Type) where
  parseUuid : String → Except String Uuid
  write : V → String
  read : String → Except String V
  parse_hyphenated : ∀ u : Uuid, parseUuid u.toHyphenated = .ok u
  read_write : ∀ v : V, read (write v) = .ok v

/-- A row of the `event` table. -/
structure Row where
  deviceSeq : I64
  eventId : String
  tenantId : String
  outletId : String
  deviceId : String
  occurredAt : I64
  kind : String
  payload : String
  prevHash : List UInt8
  hash : List UInt8
  origin : Origin
  syncedAt : Option I64
  serverSeq : Option Int

/-- The primary key, or the other unique key, is taken. -/
def Row.Clashes (a b : Row) : Prop :=
  a.eventId = b.eventId ∨ a.deviceId = b.deviceId ∧ a.deviceSeq = b.deviceSeq

instance (a b : Row) : Decidable (a.Clashes b) := inferInstanceAs (Decidable (_ ∨ _))

namespace ColumnCodec

variable {V : Type} (codec : ColumnCodec V)

/-- The values of an `INSERT`. -/
def row (event : EventEnvelope V) (sequence : I64) (origin : Origin) (serverSeq : Option Int) :
    Row where
  deviceSeq := sequence
  eventId := event.eventId.toHyphenated
  tenantId := event.tenantId.toHyphenated
  outletId := event.outletId.toHyphenated
  deviceId := event.deviceId.toHyphenated
  occurredAt := event.occurredAt.millis
  kind := event.kind
  payload := codec.write event.payload
  prevHash := event.prevHash.asBytes
  hash := event.hash.asBytes
  origin
  syncedAt := none
  serverSeq

def decodeUuid (value eventId : String) : Except StoreError Uuid :=
  (codec.parseUuid value).mapError (.corrupt eventId ·)

end ColumnCodec

def decodeHash (bytes : List UInt8) (eventId : String) : Except StoreError EventHash :=
  if bytes.length = 32 then .ok (EventHash.fromBytes bytes)
  else .error (.corrupt eventId
    ("hash is " ++ String.ofList (Decimal.digits bytes.length) ++ " bytes, expected 32"))

def decodeSeq (seq : I64) (eventId : String) : Except StoreError Nat :=
  if seq.val < 0 then
    .error (.corrupt eventId ("negative sequence " ++ String.ofList (Decimal.render 0 seq.val)))
  else .ok seq.val.toNat

/-- A sequence number as a column holds it. -/
@[irreducible] def columnSeq? (n : Nat) : Option I64 := SInt.ofInt? n

def encodeSeq {V : Type} (event : EventEnvelope V) : Except StoreError I64 :=
  Except.okOr (columnSeq? event.deviceSeq)
    (.corrupt event.eventId.toHyphenated "sequence exceeds i64")

/-- The event that a row holds. -/
def ColumnCodec.decode {V : Type} (codec : ColumnCodec V) (row : Row) :
    Except StoreError (EventEnvelope V) := do
  let eventId ← codec.decodeUuid row.eventId row.eventId
  let tenantId ← codec.decodeUuid row.tenantId row.eventId
  let outletId ← codec.decodeUuid row.outletId row.eventId
  let deviceId ← codec.decodeUuid row.deviceId row.eventId
  let deviceSeq ← decodeSeq row.deviceSeq row.eventId
  let payload ← (codec.read row.payload).mapError (.corrupt row.eventId ·)
  let prevHash ← decodeHash row.prevHash row.eventId
  let hash ← decodeHash row.hash row.eventId
  .ok { eventId, tenantId, outletId, deviceId, deviceSeq, occurredAt := ⟨row.occurredAt⟩,
        kind := row.kind, payload, prevHash, hash }

/-! ## Section 2: The database -/

structure Database where
  /-- Whose chain is ours. -/
  deviceId : Uuid
  rows : List Row
  pullCursor : Int

namespace Database

/-- The schema applied to a new file. -/
def prepare (deviceId : Uuid) : Database := ⟨deviceId, [], 0⟩

/-- An `INSERT`; `none` is a constraint violation. -/
def insert? (db : Database) (row : Row) : Option Database :=
  if db.rows.any (fun other => decide (other.Clashes row)) then none
  else some { db with rows := db.rows ++ [row] }

/-- Where the chain of a device ends: its row of the highest sequence number. -/
def tipWithin (db : Database) (deviceId : Uuid) : Except StoreError ChainTip :=
  match (db.rows.filter (·.deviceId = deviceId.toHyphenated)).argmax (·.deviceSeq) with
  | none => .ok .genesis
  | some row => do
    let deviceSeq ← decodeSeq row.deviceSeq "tip"
    let hash ← decodeHash row.hash "tip"
    .ok ⟨deviceSeq, hash⟩

def tip (db : Database) : Except StoreError ChainTip := db.tipWithin db.deviceId

section Writing

variable {V : Type} (codec : ColumnCodec V)

/-- The body of `append`, against any connection or open transaction. -/
def appendWithin (db : Database) (event : EventEnvelope V) : Except StoreError Database := do
  let tip ← db.tipWithin event.deviceId
  if event.deviceSeq ≠ satNextSeq tip.deviceSeq then
    .error (.sequenceBreak tip.deviceSeq event.deviceSeq)
  else
    let sequence ← encodeSeq event
    match db.insert? (codec.row event sequence .local none) with
    | none => .error (.duplicate event.eventId)
    | some db => .ok db

/-- Append several sealed events, all or none. -/
def appendAll (db : Database) (events : List (EventEnvelope V)) : Except StoreError Database :=
  events.foldlM (appendWithin codec) db

/-- Store an event pulled from a sibling till; one already there is ignored. -/
def insertRemote (db : Database) (event : EventEnvelope V) (serverSeq : Int) :
    Except StoreError (Bool × Database) := do
  let sequence ← encodeSeq event
  match db.insert? (codec.row event sequence .remote (some serverSeq)) with
  | none => .ok (false, db)
  | some db => .ok (true, db)

end Writing

/-- The rows that `mark_synced` updates. -/
def Marks (sequence : I64) (row : Row) : Prop :=
  row.origin = .local ∧ row.deviceSeq ≤ sequence ∧ row.syncedAt = none

instance (sequence : I64) (row : Row) : Decidable (Marks sequence row) :=
  inferInstanceAs (Decidable (_ ∧ _))

/-- The highest sequence number a column holds, where a number is past it. -/
def heldSeq (n : Nat) : I64 :=
  (columnSeq? n).getD (I64.lit 9223372036854775807)

/-- Mark events up to and including `throughSeq` as accepted by the server: how many were. -/
def markSynced (db : Database) (throughSeq : Nat) (atMillis : I64) : Nat × Database :=
  let sequence := heldSeq throughSeq
  (db.rows.countP (fun row => decide (Marks sequence row)), { db with
    rows := db.rows.map fun row =>
      if Marks sequence row then { row with syncedAt := some atMillis } else row })

/-- Advance the cursor; it never moves backwards. -/
def setPullCursor (db : Database) (cursor : Int) : Database :=
  { db with pullCursor := max db.pullCursor cursor }

/-- Erase every event. -/
def eraseEverything (db : Database) : Database := { db with rows := [], pullCursor := 0 }

section Reading

variable {V : Type} (codec : ColumnCodec V)

/-- A query for events: rows in ascending order of `key`, each decoded. -/
def query {κ : Type} [LinearOrder κ] (key : Row → κ) (rows : List Row) :
    Except StoreError (List (EventEnvelope V)) :=
  (rows.insertionSort fun a b => key a ≤ key b).mapM codec.decode

/-- The events this device sealed, oldest first. -/
def loadAll (db : Database) : Except StoreError (List (EventEnvelope V)) :=
  query codec (·.deviceSeq) (db.rows.filter (·.origin = .local))

/-- Events not yet accepted by the server, oldest first. -/
def unsynced (db : Database) : Except StoreError (List (EventEnvelope V)) :=
  query codec (·.deviceSeq) (db.rows.filter fun row => row.origin = .local ∧ row.syncedAt = none)

/-- Every event in the order the projection applies them: when it happened, then the text of its
    id. -/
def loadProjectionInput (db : Database) : Except StoreError (List (EventEnvelope V)) :=
  query codec (fun row => (toLex (row.occurredAt, row.eventId) : I64 ×ₗ String)) db.rows

end Reading

/-- How many events are waiting to be pushed. -/
def unsyncedCount (db : Database) : Nat :=
  (db.rows.filter fun row => row.origin = .local ∧ row.syncedAt = none).length

end Database

/-! ## Section 3: What is written reads back -/

theorem ok_bind {ε α β : Type} (a : α) (f : α → Except ε β) : (Except.ok a >>= f) = f a := rfl

theorem error_bind {ε α β : Type} (e : ε) (f : α → Except ε β) :
    (Except.error e >>= f) = .error e := rfl

section Encoding

variable {V : Type} (codec : ColumnCodec V)

/-- The row that an event of the store is in. -/
def ColumnCodec.encode (stored : StoredEvent V) : Row :=
  { codec.row stored.event (Database.heldSeq stored.event.deviceSeq) stored.origin
      stored.serverSeq with syncedAt := stored.syncedAt }

/-- An event whose number a column holds. -/
def Fits (stored : StoredEvent V) : Prop := stored.event.deviceSeq < 2 ^ 63

theorem Fits.lt {stored : StoredEvent V} (h : Fits stored) :
    stored.event.deviceSeq < 2 ^ 63 := h

@[simp] theorem encode_deviceSeq (stored : StoredEvent V) : (codec.encode stored).deviceSeq =
    Database.heldSeq stored.event.deviceSeq := rfl

@[simp] theorem encode_deviceId (stored : StoredEvent V) : (codec.encode stored).deviceId =
    stored.event.deviceId.toHyphenated := rfl

@[simp] theorem encode_eventId (stored : StoredEvent V) : (codec.encode stored).eventId =
    stored.event.eventId.toHyphenated := rfl

theorem columnSeq?_fits {n : Nat} (h : n < 2 ^ 63) :
    columnSeq? n = some (Database.heldSeq n) ∧ (Database.heldSeq n).val = n := by
  have hrange : -2 ^ (64 - 1) ≤ (n : Int) ∧ (n : Int) < 2 ^ (64 - 1) := by
    norm_num
    omega
  obtain ⟨x, hx, hval⟩ := SInt.ofInt?_of_fits hrange
  have hcolumn : columnSeq? n = some x := by
    unfold columnSeq?
    exact hx
  have hheld : Database.heldSeq n = x := by
    rw [Database.heldSeq, hcolumn]
    rfl
  exact ⟨by rw [hcolumn, hheld], by rw [hheld, hval]⟩

theorem columnSeq?_none {n : Nat} (h : ¬ n < 2 ^ 63) : columnSeq? n = none := by
  unfold columnSeq?
  cases hx : (SInt.ofInt? (n : Int) : Option I64) with
  | none => rfl
  | some x =>
    have hval := SInt.ofInt?_eq_some.mp hx
    have hhigh := I64.hi' x
    omega

theorem Database.heldSeq_val {n : Nat} (h : n < 2 ^ 63) : (heldSeq n).val = n :=
  (columnSeq?_fits h).2

theorem encodeSeq_fits {event : EventEnvelope V} (h : event.deviceSeq < 2 ^ 63) :
    encodeSeq event = .ok (Database.heldSeq event.deviceSeq) := by
  rw [encodeSeq, (columnSeq?_fits h).1]
  rfl

theorem encodeSeq_error {event : EventEnvelope V} (h : ¬ event.deviceSeq < 2 ^ 63) :
    encodeSeq event = .error (.corrupt event.eventId.toHyphenated "sequence exceeds i64") := by
  rw [encodeSeq, columnSeq?_none h]
  rfl

theorem Database.heldSeq_le_iff {m : Nat} (hm : m < 2 ^ 63) (n : Nat) :
    heldSeq m ≤ heldSeq n ↔ m ≤ min n (2 ^ 63 - 1) := by
  rw [SInt.le_def, heldSeq_val hm]
  by_cases hn : n < 2 ^ 63
  · rw [heldSeq_val hn]
    omega
  · have hheld : (heldSeq n).val = 9223372036854775807 := by
      rw [heldSeq, columnSeq?_none hn]
      rfl
    rw [hheld]
    omega

theorem decodeUuid_hyphenated (u : Uuid) (eventId : String) :
    codec.decodeUuid u.toHyphenated eventId = .ok u := by
  rw [ColumnCodec.decodeUuid, codec.parse_hyphenated]
  rfl

theorem decodeHash_asBytes (h : EventHash) (eventId : String) :
    decodeHash h.asBytes eventId = .ok h := by
  rw [decodeHash, if_pos h.asBytes_length, h.fromBytes_asBytes]

theorem decodeSeq_heldSeq {n : Nat} (h : n < 2 ^ 63) (eventId : String) :
    decodeSeq (Database.heldSeq n) eventId = .ok n := by
  rw [decodeSeq, Database.heldSeq_val h, if_neg (by omega)]
  rfl

theorem encode_deviceSeq_le_iff {a b : StoredEvent V} (ha : Fits a) (hb : Fits b) :
    (codec.encode a).deviceSeq ≤ (codec.encode b).deviceSeq ↔
      a.event.deviceSeq ≤ b.event.deviceSeq := by
  rw [encode_deviceSeq, encode_deviceSeq, SInt.le_def, Database.heldSeq_val ha.lt,
    Database.heldSeq_val hb.lt, Int.ofNat_le]

theorem decode_encode {stored : StoredEvent V} (h : Fits stored) :
    codec.decode (codec.encode stored) = .ok stored.event := by
  have huuid := decodeUuid_hyphenated codec
  have hseq := decodeSeq_heldSeq h.lt stored.event.eventId.toHyphenated
  have hpayload : (codec.read (codec.write stored.event.payload)).mapError
      (StoreError.corrupt stored.event.eventId.toHyphenated ·) = .ok stored.event.payload := by
    rw [codec.read_write]
    rfl
  simp only [ColumnCodec.decode, ColumnCodec.encode, ColumnCodec.row]
  refine Except.bind_eq_ok.mpr ⟨_, huuid _ _, Except.bind_eq_ok.mpr ⟨_, huuid _ _,
    Except.bind_eq_ok.mpr ⟨_, huuid _ _, Except.bind_eq_ok.mpr ⟨_, huuid _ _,
      Except.bind_eq_ok.mpr ⟨_, hseq, Except.bind_eq_ok.mpr ⟨_, hpayload,
        Except.bind_eq_ok.mpr ⟨_, decodeHash_asBytes _ _,
          Except.bind_eq_ok.mpr ⟨_, decodeHash_asBytes _ _, rfl⟩⟩⟩⟩⟩⟩⟩⟩

theorem clashes_encode_iff {a b : StoredEvent V} (ha : Fits a) (hb : Fits b) :
    (codec.encode a).Clashes (codec.encode b) ↔ SameKey a.event b.event := by
  have hseq : Database.heldSeq a.event.deviceSeq = Database.heldSeq b.event.deviceSeq ↔
      a.event.deviceSeq = b.event.deviceSeq := by
    refine ⟨fun h => ?_, fun h => by rw [h]⟩
    have hval := congrArg SInt.val h
    rw [Database.heldSeq_val ha.lt, Database.heldSeq_val hb.lt] at hval
    exact Int.ofNat_inj.mp hval
  have huuid : ∀ u v : Uuid, u.toHyphenated = v.toHyphenated ↔ u = v :=
    fun u v => ⟨Uuid.toHyphenated_inj, fun h => by rw [h]⟩
  unfold Row.Clashes SameKey
  rw [encode_eventId, encode_eventId, encode_deviceId, encode_deviceId, encode_deviceSeq,
    encode_deviceSeq, huuid, huuid, hseq]

/-- Rows sorted by what stands for a key are the rows of the events sorted by the key. -/
theorem query_encode {κ ι : Type} [LinearOrder κ] [LinearOrder ι] {key : Row → κ}
    {eventKey : EventEnvelope V → ι} {rows : List (StoredEvent V)} (hfits : ∀ r ∈ rows, Fits r)
    (hkeys : ∀ a ∈ rows, ∀ b ∈ rows, key (codec.encode a) ≤ key (codec.encode b) ↔
      eventKey a.event ≤ eventKey b.event) :
    Database.query codec key (rows.map codec.encode) =
      .ok (orderBy eventKey (rows.map (·.event))) := by
  have hevents : (rows.insertionSort fun a b => eventKey a.event ≤ eventKey b.event).map (·.event) =
      orderBy eventKey (rows.map (·.event)) :=
    List.map_insertionSort _ _ _ _ fun a _ b _ => Iff.rfl
  have hrows :
      (rows.insertionSort fun a b => eventKey a.event ≤ eventKey b.event).map codec.encode =
        (rows.map codec.encode).insertionSort fun a b => key a ≤ key b :=
    List.map_insertionSort _ _ _ _ fun a ha b hb => (hkeys a ha b hb).symm
  rw [Database.query, ← hrows, mapM_eq_ok, ← hevents, List.forall₂_map_left_iff,
    List.forall₂_map_right_iff, List.forall₂_same]
  exact fun r hr => decode_encode codec (hfits r ((List.mem_insertionSort _).mp hr))

end Encoding

/-! ## Section 4: The database holds what the store holds -/

/-- How many rows `mark_synced` updates. -/
def EventStore.markedCount {V : Type} (store : EventStore V) (throughSeq : Nat) : Nat :=
  store.table.rows.countP fun row =>
    isPending row ∧ row.event.deviceSeq ≤ min throughSeq (2 ^ 63 - 1)

section Holding

variable {V : Type} {codec : ColumnCodec V} {db : Database} {store : EventStore V}

variable (codec db store) in
structure Database.Holds : Prop where
  deviceId : db.deviceId = store.deviceId
  rows : db.rows = store.table.rows.map codec.encode
  pullCursor : db.pullCursor = store.pullCursor
  fits : ∀ stored ∈ store.table.rows, Fits stored

namespace Database

/-- Both sides refuse alike, or both go on and still hold the same. -/
inductive Agree : Except StoreError Database → Except StoreError (EventStore V) → Prop where
  | error (e : StoreError) : Agree (.error e) (.error e)
  | ok {db : Database} {store : EventStore V} (h : Holds codec db store) :
    Agree (.ok db) (.ok store)

theorem holds_prepare (deviceId : Uuid) :
    Holds codec (prepare deviceId) (EventStore.fresh deviceId) where
  deviceId := rfl
  rows := rfl
  pullCursor := rfl
  fits := fun _ hstored => absurd hstored List.not_mem_nil

/-! ### Queries -/

theorem Holds.tipWithin (h : Holds codec db store) (d : Uuid) :
    db.tipWithin d = .ok (store.tipWithin d) := by
  have hmine : (fun row : Row => decide (row.deviceId = d.toHyphenated)) ∘ codec.encode =
      fun r => decide (r.event.deviceId = d) := by
    funext r
    rw [Function.comp_apply, encode_deviceId, decide_eq_decide]
    exact ⟨Uuid.toHyphenated_inj, fun hd => by rw [hd]⟩
  have hrows : db.rows.filter (·.deviceId = d.toHyphenated) =
      (store.table.rows.filter fun r => decide (r.event.deviceId = d)).map codec.encode := by
    rw [h.rows, List.filter_map, hmine]
  have hevents : store.events.filter (·.deviceId = d) =
      (store.table.rows.filter fun r => decide (r.event.deviceId = d)).map (·.event) := by
    show (store.table.rows.map (·.event)).filter _ = _
    rw [List.filter_map]
    rfl
  have hfits : ∀ r ∈ store.table.rows.filter fun r => decide (r.event.deviceId = d), Fits r :=
    fun r hr => h.fits r (List.mem_of_mem_filter hr)
  unfold Database.tipWithin EventStore.tipWithin
  rw [hrows, hevents,
    @argmax_map _ _ _ _ _ _ codec.encode (·.deviceSeq) (fun r => r.event.deviceSeq) _
      fun a ha b hb => not_le.symm.trans
        ((not_congr (encode_deviceSeq_le_iff codec (hfits b hb) (hfits a ha))).trans not_le),
    @argmax_map _ _ _ _ _ _ (fun r : StoredEvent V => r.event) (·.deviceSeq)
      (fun r => r.event.deviceSeq) _ fun a _ b _ => Iff.rfl]
  cases hmax : (store.table.rows.filter fun r => decide (r.event.deviceId = d)).argmax
      (fun r => r.event.deviceSeq) with
  | none => rfl
  | some last =>
    simp only [Option.map_some, ColumnCodec.encode, ColumnCodec.row]
    exact Except.bind_eq_ok.mpr ⟨_, decodeSeq_heldSeq (hfits last (List.argmax_mem hmax)).lt _,
      Except.bind_eq_ok.mpr ⟨_, decodeHash_asBytes _ _, rfl⟩⟩

theorem Holds.loadAll (h : Holds codec db store) : db.loadAll codec = .ok store.loadAll := by
  unfold Database.loadAll EventStore.loadAll
  rw [h.rows, List.filter_map]
  exact query_encode codec (fun r hr => h.fits r (List.mem_of_mem_filter hr)) fun a ha b hb =>
    encode_deviceSeq_le_iff codec (h.fits a (List.mem_of_mem_filter ha))
      (h.fits b (List.mem_of_mem_filter hb))

/-- The rows still to be pushed are those of the sync queue. -/
theorem Holds.pending (h : Holds codec db store) :
    (db.rows.filter fun row => row.origin = .local ∧ row.syncedAt = none) =
      (store.table.rows.filter EventStore.isPending).map codec.encode := by
  rw [h.rows, List.filter_map]
  refine congrArg (List.map codec.encode ·) (List.filter_congr fun r _ => ?_)
  show decide (r.origin = .local ∧ r.syncedAt = none) =
    decide (r.origin = .local ∧ r.syncedAt.isNone)
  exact decide_eq_decide.mpr (and_congr_right fun _ => Option.isNone_iff_eq_none.symm)

theorem Holds.unsynced (h : Holds codec db store) : db.unsynced codec = .ok store.unsynced := by
  unfold Database.unsynced EventStore.unsynced
  rw [h.pending]
  exact query_encode codec (fun r hr => h.fits r (List.mem_of_mem_filter hr)) fun a ha b hb =>
    encode_deviceSeq_le_iff codec (h.fits a (List.mem_of_mem_filter ha))
      (h.fits b (List.mem_of_mem_filter hb))

theorem Holds.unsyncedCount (h : Holds codec db store) :
    db.unsyncedCount = store.unsyncedCount := by
  unfold Database.unsyncedCount EventStore.unsyncedCount
  rw [h.pending, List.length_map]

theorem Holds.loadProjectionInput (h : Holds codec db store) :
    db.loadProjectionInput codec = .ok store.loadProjectionInput := by
  unfold Database.loadProjectionInput EventStore.loadProjectionInput
  rw [h.rows]
  refine query_encode codec h.fits ?_
  intro a _ b _
  show (toLex (_, a.event.eventId.toHyphenated) : I64 ×ₗ String) ≤
    toLex (_, b.event.eventId.toHyphenated) ↔ replayKey a.event ≤ replayKey b.event
  rw [replayKey, replayKey, Prod.Lex.toLex_le_toLex, Prod.Lex.toLex_le_toLex,
    Uuid.toHyphenated_le_iff]
  have hsame : a.event.occurredAt.millis = b.event.occurredAt.millis ↔
      a.event.occurredAt = b.event.occurredAt :=
    ⟨fun hmillis => by
      cases ha : a.event.occurredAt
      cases hb : b.event.occurredAt
      rw [ha, hb] at hmillis
      exact congrArg Timestamp.mk hmillis, fun ht => by rw [ht]⟩
  exact or_congr Iff.rfl (and_congr hsame Iff.rfl)

/-! ### Writes -/

/-- What is added to distinct keys brings keys of its own. -/
theorem not_sameKey_concat {es : List (EventEnvelope V)} {e x : EventEnvelope V}
    (h : DistinctKeys (es ++ [x])) (he : e ∈ es) : ¬ SameKey e x := by
  obtain ⟨hids, hseqs⟩ := h
  rw [List.map_append, List.nodup_append] at hids hseqs
  rintro (hid | ⟨hdevice, hseq⟩)
  · exact hids.2.2 _ (List.mem_map_of_mem he) _ List.mem_cons_self hid
  · refine hseqs.2.2 _ (List.mem_map_of_mem he) _ List.mem_cons_self ?_
    rw [hdevice, hseq]

/-- A row goes in on one side where it goes in on the other. -/
theorem Holds.insert? (h : Holds codec db store) {stored : StoredEvent V} (hfits : Fits stored) :
    (store.table.insert? [stored] = none ∧ db.insert? (codec.encode stored) = none) ∨
      ∃ table, store.table.insert? [stored] = some table ∧
        ∃ db', db.insert? (codec.encode stored) = some db' ∧
          Holds codec db' { store with table } := by
  have hclash : (∃ row ∈ db.rows, row.Clashes (codec.encode stored)) ↔
      ∃ e ∈ store.events, SameKey e stored.event := by
    rw [h.rows]
    constructor
    · rintro ⟨row, hrow, hrowClash⟩
      obtain ⟨other, hother, rfl⟩ := List.mem_map.mp hrow
      exact ⟨other.event, List.mem_map_of_mem hother,
        (clashes_encode_iff codec (h.fits other hother) hfits).mp hrowClash⟩
    · rintro ⟨e, he, hsame⟩
      obtain ⟨other, hother, rfl⟩ := List.mem_map.mp he
      exact ⟨codec.encode other, List.mem_map_of_mem hother,
        (clashes_encode_iff codec (h.fits other hother) hfits).mpr hsame⟩
  by_cases htaken : ∃ e ∈ store.events, SameKey e stored.event
  · refine .inl ⟨?_, ?_⟩
    · cases hinsert : store.table.insert? [stored] with
      | none => rfl
      | some table =>
        -- in a table that takes the row, a key it shares would be held twice
        obtain ⟨e, he, hsame⟩ := htaken
        have hdistinct : DistinctKeys table.events := table.distinct
        rw [EventTable.insert?_events hinsert] at hdistinct
        exact absurd hsame (not_sameKey_concat hdistinct he)
    · refine if_pos (List.any_eq_true.mpr ?_)
      obtain ⟨row, hrow, hrowClash⟩ := hclash.mpr htaken
      exact ⟨row, hrow, decide_eq_true hrowClash⟩
  · right
    obtain ⟨table, htable⟩ := EventTable.insert?_isSome store.table [stored]
      (by simp [DistinctKeys]) fun e he r hr hsame => htaken ⟨e, he, by
        rw [List.mem_singleton.mp hr] at hsame
        exact hsame⟩
    have hfree : db.insert? (codec.encode stored) =
        some { db with rows := db.rows ++ [codec.encode stored] } := by
      refine if_neg fun hany => htaken (hclash.mp ?_)
      obtain ⟨row, hrow, hrowClash⟩ := List.any_eq_true.mp hany
      exact ⟨row, hrow, of_decide_eq_true hrowClash⟩
    have hrows := EventTable.insert?_eq_some.mp htable
    refine ⟨table, htable, _, hfree, h.deviceId, ?_, h.pullCursor, fun r hr => ?_⟩
    · show db.rows ++ [codec.encode stored] = table.rows.map codec.encode
      rw [hrows, List.map_append, ← h.rows]
      rfl
    · change r ∈ table.rows at hr
      rw [hrows] at hr
      rcases List.mem_append.mp hr with hr | hr
      · exact h.fits r hr
      · rw [List.mem_singleton.mp hr]
        exact hfits

/-- The row a new event is written to is the one it is held in. -/
theorem encode_new (codec : ColumnCodec V) (event : EventEnvelope V) (origin : Origin)
    (serverSeq : Option Int) : codec.encode ⟨event, origin, none, serverSeq⟩ =
      codec.row event (heldSeq event.deviceSeq) origin serverSeq := by
  simp only [ColumnCodec.encode, ColumnCodec.row]

theorem Holds.appendWithin (h : Holds codec db store) (event : EventEnvelope V) :
    @Agree V codec (db.appendWithin codec event) (store.append event) := by
  rw [Database.appendWithin, EventStore.append, h.tipWithin event.deviceId, ok_bind]
  by_cases hseq : event.deviceSeq = satNextSeq (store.tipWithin event.deviceId).deviceSeq
  · rw [if_neg (not_not.mpr hseq), if_neg (not_not.mpr hseq)]
    by_cases hfits : event.deviceSeq < 2 ^ 63
    · have hstored : Fits (V := V) ⟨event, .local, none, none⟩ := hfits
      rw [encodeSeq_fits hfits, ok_bind, if_neg (not_le.mpr hfits), ← encode_new]
      rcases h.insert? hstored with ⟨htable, hrow⟩ | ⟨table, htable, db', hrow, hholds⟩
      · rw [htable, hrow]
        exact .error _
      · rw [htable, hrow]
        exact .ok hholds
    · rw [encodeSeq_error hfits, error_bind, if_pos (not_lt.mp hfits)]
      exact .error _
  · rw [if_pos hseq, if_pos hseq]
    exact .error _

/-- A transaction goes through on one side where it does on the other. -/
theorem Holds.appendAll (h : Holds codec db store) (events : List (EventEnvelope V)) :
    @Agree V codec (db.appendAll codec events) (store.appendAll events) := by
  unfold Database.appendAll EventStore.appendAll
  induction events generalizing db store with
  | nil => exact .ok h
  | cons event events ih =>
    have hstep := h.appendWithin event
    rw [List.foldlM_cons, List.foldlM_cons]
    generalize db.appendWithin codec event = onDisk at hstep
    generalize store.append event = inStore at hstep
    cases hstep with
    | error e => exact .error e
    | ok hnext => exact ih hnext

theorem marks_encode_iff {stored : StoredEvent V} (hfits : Fits stored) (throughSeq : Nat) :
    Marks (heldSeq throughSeq) (codec.encode stored) ↔ EventStore.isPending stored ∧
      stored.event.deviceSeq ≤ min throughSeq (2 ^ 63 - 1) := by
  have hpending : EventStore.isPending stored = true ↔
      stored.origin = .local ∧ stored.syncedAt = none := by
    rw [EventStore.isPending, decide_eq_true_iff, Option.isNone_iff_eq_none]
  unfold Marks
  rw [encode_deviceSeq, heldSeq_le_iff hfits.lt, hpending]
  exact ⟨fun h => ⟨⟨h.1, h.2.2⟩, h.2.1⟩, fun h => ⟨h.1.1, h.2, h.1.2⟩⟩

theorem Holds.markSynced (h : Holds codec db store) (throughSeq : Nat) (atMillis : I64) :
    (db.markSynced throughSeq atMillis).1 = store.markedCount throughSeq ∧
      Holds codec (db.markSynced throughSeq atMillis).2 (store.markSynced throughSeq atMillis) := by
  refine ⟨?_, h.deviceId, ?_, h.pullCursor, fun r hr => ?_⟩
  · show db.rows.countP (fun row => decide (Marks (heldSeq throughSeq) row)) =
      store.table.rows.countP _
    rw [h.rows, List.countP_map]
    refine List.countP_congr fun r hr => ?_
    rw [Function.comp_apply, decide_eq_true_iff, decide_eq_true_iff]
    exact marks_encode_iff (h.fits r hr) throughSeq
  · show (db.rows.map fun row => if Marks (heldSeq throughSeq) row then
        { row with syncedAt := some atMillis } else row) =
      (store.table.rows.map (EventStore.markRow throughSeq atMillis)).map codec.encode
    rw [h.rows, List.map_map, List.map_map]
    refine List.map_congr_left fun r hr => ?_
    have hmarks := @marks_encode_iff V codec _ (h.fits r hr) throughSeq
    rw [Function.comp_apply, Function.comp_apply, EventStore.markRow]
    by_cases hmarked : Marks (heldSeq throughSeq) (codec.encode r)
    · rw [if_pos hmarked, if_pos (hmarks.mp hmarked)]
      simp only [ColumnCodec.encode, ColumnCodec.row]
    · rw [if_neg hmarked, if_neg fun hm => hmarked (hmarks.mpr hm)]
  · obtain ⟨r', hr', rfl⟩ := List.mem_map.mp hr
    show (EventStore.markRow throughSeq atMillis r').event.deviceSeq < 2 ^ 63
    rw [EventStore.markRow_event]
    exact (h.fits r' hr').lt

/-- A pulled event goes in, is passed over or is refused alike. -/
theorem Holds.insertRemote (h : Holds codec db store) (event : EventEnvelope V) (serverSeq : Int) :
    (∃ e, db.insertRemote codec event serverSeq = .error e ∧
      store.insertRemote event serverSeq = .error e) ∨
    ∃ inserted db' store', db.insertRemote codec event serverSeq = .ok (inserted, db') ∧
      store.insertRemote event serverSeq = .ok (inserted, store') ∧ Holds codec db' store' := by
  rw [Database.insertRemote, EventStore.insertRemote]
  by_cases hfits : event.deviceSeq < 2 ^ 63
  · have hstored : Fits (V := V) ⟨event, .remote, none, some serverSeq⟩ := hfits
    rw [encodeSeq_fits hfits, ok_bind, if_neg (not_le.mpr hfits), ← encode_new]
    rcases h.insert? hstored with ⟨htable, hrow⟩ | ⟨table, htable, db', hrow, hholds⟩
    · rw [htable, hrow]
      exact .inr ⟨false, db, store, rfl, rfl, h⟩
    · rw [htable, hrow]
      exact .inr ⟨true, db', _, rfl, rfl, hholds⟩
  · rw [encodeSeq_error hfits, error_bind, if_pos (not_lt.mp hfits)]
    exact .inl ⟨_, rfl, rfl⟩

theorem Holds.setPullCursor (h : Holds codec db store) (cursor : Int) :
    Holds codec (db.setPullCursor cursor) (store.setPullCursor cursor) :=
  ⟨h.deviceId, h.rows, congrArg (max · cursor) h.pullCursor, h.fits⟩

theorem Holds.eraseEverything (h : Holds codec db store) :
    Holds codec db.eraseEverything store.eraseEverything :=
  ⟨h.deviceId, rfl, rfl, fun _ hstored => absurd hstored List.not_mem_nil⟩

end Database

/-! ## Section 5: Whatever is done -/

/-- What is asked of the store. -/
inductive StoreAction (V : Type) where
  | appendAll (events : List (EventEnvelope V))
  | markSynced (throughSeq : Nat) (atMillis : I64)
  | insertRemote (event : EventEnvelope V) (serverSeq : Int)
  | setPullCursor (cursor : Int)
  | eraseEverything

/-- How it is answered. -/
inductive StoreAnswer where
  | appended (answer : Except StoreError Unit)
  | marked (count : Nat)
  | inserted (answer : Except StoreError Bool)
  | done

/-- What is refused leaves the database as it was. -/
def Database.perform (codec : ColumnCodec V) (db : Database) :
    StoreAction V → StoreAnswer × Database
  | .appendAll events =>
    let result := db.appendAll codec events
    (.appended (result.map fun _ => ()), result.toOption.getD db)
  | .markSynced throughSeq atMillis =>
    let (count, db) := db.markSynced throughSeq atMillis
    (.marked count, db)
  | .insertRemote event serverSeq =>
    let result := db.insertRemote codec event serverSeq
    (.inserted (result.map (·.1)), (result.toOption.map (·.2)).getD db)
  | .setPullCursor cursor => (.done, db.setPullCursor cursor)
  | .eraseEverything => (.done, db.eraseEverything)

def EventStore.perform (store : EventStore V) : StoreAction V → StoreAnswer × EventStore V
  | .appendAll events =>
    let result := store.appendAll events
    (.appended (result.map fun _ => ()), result.toOption.getD store)
  | .markSynced throughSeq atMillis =>
    (.marked (store.markedCount throughSeq), store.markSynced throughSeq atMillis)
  | .insertRemote event serverSeq =>
    let result := store.insertRemote event serverSeq
    (.inserted (result.map (·.1)), (result.toOption.map (·.2)).getD store)
  | .setPullCursor cursor => (.done, store.setPullCursor cursor)
  | .eraseEverything => (.done, store.eraseEverything)

/-- One action after another, with the answers. -/
def Database.performAll (codec : ColumnCodec V) : Database → List (StoreAction V) →
    List StoreAnswer × Database
  | db, [] => ([], db)
  | db, action :: actions =>
    let (answer, db) := db.perform codec action
    let (answers, db) := db.performAll codec actions
    (answer :: answers, db)

def EventStore.performAll : EventStore V → List (StoreAction V) → List StoreAnswer × EventStore V
  | store, [] => ([], store)
  | store, action :: actions =>
    let (answer, store) := store.perform action
    let (answers, store) := store.performAll actions
    (answer :: answers, store)

namespace Database

/-- An action is answered alike, and both sides still hold the same. -/
theorem Holds.perform (h : Holds codec db store) (action : StoreAction V) :
    (db.perform codec action).1 = (store.perform action).1 ∧
      Holds codec (db.perform codec action).2 (store.perform action).2 := by
  cases action with
  | appendAll events =>
    have hagree := h.appendAll events
    show StoreAnswer.appended ((db.appendAll codec events).map fun _ => ()) =
      .appended ((store.appendAll events).map fun _ => ()) ∧
        Holds codec ((db.appendAll codec events).toOption.getD db)
          ((store.appendAll events).toOption.getD store)
    generalize db.appendAll codec events = onDisk at hagree
    generalize store.appendAll events = inStore at hagree
    cases hagree with
    | error e => exact ⟨rfl, h⟩
    | ok hnext => exact ⟨rfl, hnext⟩
  | markSynced throughSeq atMillis =>
    obtain ⟨hcount, hholds⟩ := h.markSynced throughSeq atMillis
    exact ⟨congrArg StoreAnswer.marked hcount, hholds⟩
  | insertRemote event serverSeq =>
    show StoreAnswer.inserted ((db.insertRemote codec event serverSeq).map (·.1)) =
      .inserted ((store.insertRemote event serverSeq).map (·.1)) ∧ Holds codec
        (((db.insertRemote codec event serverSeq).toOption.map (·.2)).getD db)
        (((store.insertRemote event serverSeq).toOption.map (·.2)).getD store)
    rcases h.insertRemote event serverSeq with
      ⟨e, hdb, hstore⟩ | ⟨inserted, db', store', hdb, hstore, hholds⟩
    · rw [hdb, hstore]
      exact ⟨rfl, h⟩
    · rw [hdb, hstore]
      exact ⟨rfl, hholds⟩
  | setPullCursor cursor => exact ⟨rfl, h.setPullCursor cursor⟩
  | eraseEverything => exact ⟨rfl, h.eraseEverything⟩

theorem Holds.performAll (h : Holds codec db store) (actions : List (StoreAction V)) :
    (db.performAll codec actions).1 = (store.performAll actions).1 ∧
      Holds codec (db.performAll codec actions).2 (store.performAll actions).2 := by
  induction actions generalizing db store with
  | nil => exact ⟨rfl, h⟩
  | cons action actions ih =>
    obtain ⟨hanswer, hnext⟩ := h.perform action
    obtain ⟨hanswers, hlast⟩ := ih hnext
    exact ⟨congrArg₂ List.cons hanswer hanswers, hlast⟩

end Database

end Holding

/-- **The database is the store**: a file that the schema was applied to answers whatever is asked
    of it as the store does, and afterwards every query gives what the store holds, in the store's
    order: nothing that was written is found corrupt. -/
theorem database_refines {V : Type} (codec : ColumnCodec V) (deviceId : Uuid)
    (actions : List (StoreAction V)) :
    ∃ answers db store, (Database.prepare deviceId).performAll codec actions = (answers, db) ∧
      (EventStore.fresh deviceId).performAll actions = (answers, store) ∧
        db.tip = .ok store.tip ∧
        (∀ d, db.tipWithin d = .ok (store.tipWithin d)) ∧
        db.loadAll codec = .ok store.loadAll ∧
        db.unsynced codec = .ok store.unsynced ∧
        db.unsyncedCount = store.unsyncedCount ∧
        db.loadProjectionInput codec = .ok store.loadProjectionInput ∧
        db.pullCursor = store.pullCursor := by
  obtain ⟨hanswers, hholds⟩ :=
    (@Database.holds_prepare V codec deviceId).performAll actions
  refine ⟨_, _, _, rfl, Prod.ext hanswers.symm rfl, ?_, hholds.tipWithin, hholds.loadAll,
    hholds.unsynced, hholds.unsyncedCount, hholds.loadProjectionInput, hholds.pullCursor⟩
  unfold Database.tip EventStore.tip
  rw [hholds.deviceId]
  exact hholds.tipWithin _

/-! ### A codec -/

/-- The hyphenated form read back: its digits, without the hyphens. -/
def Uuid.ofHyphenated (text : String) : Except String Uuid :=
  match (text.toList.filter (· ≠ '-')).mapM EventHash.hexValue? with
  | none => .error "invalid character"
  | some ds =>
    if ds.length = 32 then .ok (fromU128 (Numeral.value 16 ds)) else .error "invalid length"

theorem filter_hyphenate {sizes : List Nat} {xs : List Char} (h : '-' ∉ xs) :
    (hyphenate sizes xs).filter (· ≠ '-') = xs := by
  induction sizes generalizing xs with
  | nil => exact List.filter_eq_self.mpr fun c hc => decide_eq_true fun heq => h (heq ▸ hc)
  | cons n sizes ih =>
    have hdrop : '-' ∉ xs.drop n := fun hmem => h (List.mem_of_mem_drop hmem)
    have htake : (xs.take n).filter (· ≠ '-') = xs.take n :=
      List.filter_eq_self.mpr fun c hc =>
        decide_eq_true fun heq => h (heq ▸ List.mem_of_mem_take hc)
    rw [hyphenate, List.filter_append, htake, List.filter_cons_of_neg (by decide), ih hdrop,
      List.take_append_drop]

theorem Uuid.ofHyphenated_toHyphenated (u : Uuid) : ofHyphenated u.toHyphenated = .ok u := by
  have hsmall : ∀ d ∈ Numeral.digits 16 32 u.bits, d < 16 :=
    Numeral.digits_lt_base (by decide) 32 _
  have hplain : '-' ∉ Json.hexDigits 32 u.bits := by
    rw [hexDigits_eq]
    intro hmem
    obtain ⟨d, hd, heq⟩ := List.mem_map.mp hmem
    have hnone : ∀ d < 16, Nat.digitChar d ≠ '-' := by decide
    exact hnone d (hsmall d hd) heq
  have hfits : (u.bits : Nat) < 16 ^ 32 := by
    have := u.bits.isLt
    omega
  rw [ofHyphenated, toHyphenated, String.toList_ofList, filter_hyphenate hplain, hexDigits_eq,
    EventHash.hexValues_digitChars hsmall]
  simp only [Numeral.digits_length, if_true, Numeral.value_digits hfits]
  exact congrArg (fun bits => Except.ok (Uuid.mk bits)) (Fin.ext (Nat.mod_eq_of_lt u.bits.isLt))

/-- Payloads that are text already. -/
def textCodec : ColumnCodec String where
  parseUuid := Uuid.ofHyphenated
  write := id
  read := .ok
  parse_hyphenated := Uuid.ofHyphenated_toHyphenated
  read_write := fun _ => rfl

end Sahl
