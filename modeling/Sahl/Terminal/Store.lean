import Mathlib.Tactic
import Mathlib.Data.List.MinMax
import Mathlib.Data.List.Sort
import Mathlib.Data.Prod.Lex
import Sahl.Core.EventTable
import Sahl.Core.EventChain

/-! # The local event store

    The till's event log: its own chain, and events pulled from sibling devices. The rows are
    kept in the order they were written; every query that returns events sorts them. -/

namespace Sahl

variable {V : Type}

/-! ## Section 1: Rows -/

/-- Whether this device sealed an event or pulled it. -/
inductive Origin where
  | «local»
  | remote
  deriving DecidableEq

/-- A row of the local event table. -/
structure StoredEvent (V : Type) where
  event : EventEnvelope V
  origin : Origin
  /-- Local only: when the server accepted it. This column is the whole sync queue. -/
  syncedAt : Option I64
  /-- Remote only: position in the outlet stream. -/
  serverSeq : Option Int

inductive StoreError where
  | database
  | corrupt (eventId reason : String)
  | duplicate (eventId : Uuid)
  | sequenceBreak (tip found : Nat)
  deriving DecidableEq

structure EventStore (V : Type) where
  deviceId : Uuid
  table : EventTable V (StoredEvent V) StoredEvent.event
  pullCursor : Int

/-- Events in ascending order of `key` (`ORDER BY`). -/
def orderBy {κ : Type} [LinearOrder κ] (key : EventEnvelope V → κ)
    (es : List (EventEnvelope V)) : List (EventEnvelope V) :=
  es.insertionSort fun a b => key a ≤ key b

/-- The order the projections replay in: when it happened, then by id. -/
def replayKey (e : EventEnvelope V) : Timestamp ×ₗ Uuid := toLex (e.occurredAt, e.eventId)

namespace EventStore

/-! ## Section 2: Operations -/

/-- A store that was never written to. -/
def fresh (deviceId : Uuid) : EventStore V := ⟨deviceId, EventTable.empty, 0⟩

def events (store : EventStore V) : List (EventEnvelope V) := store.table.events

/-- The tip of the events of `deviceId` (`ORDER BY device_seq DESC LIMIT 1`). -/
def tipWithin (store : EventStore V) (deviceId : Uuid) : ChainTip :=
  match (store.events.filter (·.deviceId = deviceId)).argmax (·.deviceSeq) with
  | some e => e.tip
  | none => ChainTip.genesis

/-- Where the chain currently ends. -/
def tip (store : EventStore V) : ChainTip := store.tipWithin store.deviceId

/-- Append a sealed event: it must follow the tip of its device. -/
def append (store : EventStore V) (event : EventEnvelope V) :
    Except StoreError (EventStore V) :=
  let tip := store.tipWithin event.deviceId
  if event.deviceSeq ≠ satNextSeq tip.deviceSeq then
    .error (.sequenceBreak tip.deviceSeq event.deviceSeq)
  else if 2 ^ 63 ≤ event.deviceSeq then
    .error (.corrupt event.eventId.toHyphenated "sequence exceeds i64")
  else
    match store.table.insert? [⟨event, .local, none, none⟩] with
    | none => .error (.duplicate event.eventId)
    | some table => .ok { store with table }

/-- Append several sealed events, all or none. -/
def appendAll (store : EventStore V) (events : List (EventEnvelope V)) :
    Except StoreError (EventStore V) :=
  events.foldlM append store

/-- The events this device sealed, oldest first. -/
def loadAll (store : EventStore V) : List (EventEnvelope V) :=
  orderBy (·.deviceSeq) ((store.table.rows.filter (·.origin = .local)).map (·.event))

/-- A row of the sync queue. -/
def isPending (row : StoredEvent V) : Bool := row.origin = .local ∧ row.syncedAt.isNone

/-- Events not yet accepted by the server, oldest first. -/
def unsynced (store : EventStore V) : List (EventEnvelope V) :=
  orderBy (·.deviceSeq) ((store.table.rows.filter isPending).map (·.event))

/-- How many events are waiting to be pushed. -/
def unsyncedCount (store : EventStore V) : Nat := (store.table.rows.filter isPending).length

/-- What `mark_synced` does to one row; the bound is held to an `i64`. -/
def markRow (throughSeq : Nat) (atMillis : I64) (row : StoredEvent V) : StoredEvent V :=
  if isPending row ∧ row.event.deviceSeq ≤ min throughSeq (2 ^ 63 - 1) then
    { row with syncedAt := some atMillis }
  else row

theorem markRow_event (throughSeq : Nat) (atMillis : I64) (row : StoredEvent V) :
    (markRow throughSeq atMillis row).event = row.event := by
  unfold markRow
  split <;> rfl

theorem markRow_origin (throughSeq : Nat) (atMillis : I64) (row : StoredEvent V) :
    (markRow throughSeq atMillis row).origin = row.origin := by
  unfold markRow
  split <;> rfl

/-- Mark events up to and including `throughSeq` as accepted by the server. -/
def markSynced (store : EventStore V) (throughSeq : Nat) (atMillis : I64) : EventStore V :=
  { store with
    table := store.table.update (markRow throughSeq atMillis) (markRow_event throughSeq atMillis) }

/-- Store an event pulled from a sibling till; one already there is ignored. -/
def insertRemote (store : EventStore V) (event : EventEnvelope V) (serverSeq : Int) :
    Except StoreError (Bool × EventStore V) :=
  if 2 ^ 63 ≤ event.deviceSeq then
    .error (.corrupt event.eventId.toHyphenated "sequence exceeds i64")
  else
    match store.table.insert? [⟨event, .remote, none, some serverSeq⟩] with
    | none => .ok (false, store)
    | some table => .ok (true, { store with table })

/-- Advance the cursor; it never moves backwards. -/
def setPullCursor (store : EventStore V) (cursor : Int) : EventStore V :=
  { store with pullCursor := max store.pullCursor cursor }

/-- Erase every event. -/
def eraseEverything (store : EventStore V) : EventStore V :=
  { store with table := .empty, pullCursor := 0 }

/-- Every event, local and remote, in the order the projection applies them. -/
def loadProjectionInput (store : EventStore V) : List (EventEnvelope V) :=
  orderBy replayKey store.events

/-! ## Section 3: What the operations do -/

@[simp] theorem fresh_events (d : Uuid) : (fresh d : EventStore V).events = [] := rfl

theorem append_eq_ok {store store' : EventStore V} {e : EventEnvelope V}
    (h : store.append e = .ok store') :
    e.deviceSeq = satNextSeq (store.tipWithin e.deviceId).deviceSeq ∧ e.deviceSeq < 2 ^ 63 ∧
      store'.deviceId = store.deviceId ∧ store'.pullCursor = store.pullCursor ∧
      store'.table.rows = store.table.rows ++ [⟨e, .local, none, none⟩] := by
  simp only [append] at h
  split at h
  · cases h
  rename_i hseq
  split at h
  · cases h
  rename_i hfits
  split at h
  · cases h
  rename_i table htable
  cases h
  exact ⟨not_not.mp hseq, not_le.mp hfits, rfl, rfl, EventTable.insert?_eq_some.mp htable⟩

theorem append_events {store store' : EventStore V} {e : EventEnvelope V}
    (h : store.append e = .ok store') : store'.events = store.events ++ [e] := by
  simp [events, EventTable.events, (append_eq_ok h).2.2.2.2]

@[simp] theorem markSynced_events (store : EventStore V) (n : Nat) (at' : I64) :
    (store.markSynced n at').events = store.events := by
  simp [events, markSynced]

@[simp] theorem setPullCursor_events (store : EventStore V) (c : Int) :
    (store.setPullCursor c).events = store.events := rfl

/-- A pulled event is in the store afterwards, or one of its keys was taken. -/
theorem insertRemote_eq_ok {store store' : EventStore V} {e : EventEnvelope V} {n : Int} {b : Bool}
    (h : store.insertRemote e n = .ok (b, store')) :
    store'.deviceId = store.deviceId ∧ store'.pullCursor = store.pullCursor ∧
      (store'.table.rows = store.table.rows ++ [⟨e, .remote, none, some n⟩] ∨
        store' = store ∧ ∃ a ∈ store.events, SameKey a e) := by
  simp only [insertRemote] at h
  split at h
  · cases h
  split at h
  · rename_i htable
    cases h
    refine ⟨rfl, rfl, .inr ⟨rfl, ?_⟩⟩
    by_contra hcon
    push Not at hcon
    obtain ⟨t, ht⟩ := EventTable.insert?_isSome store.table
      [(⟨e, .remote, none, some n⟩ : StoredEvent V)] (by simp [DistinctKeys])
      (fun a ha r hr => by rw [List.mem_singleton.mp hr]; exact hcon a ha)
    rw [ht] at htable
    cases htable
  · rename_i table htable
    cases h
    exact ⟨rfl, rfl, .inl (EventTable.insert?_eq_some.mp htable)⟩

/-! ### The tip -/

/-- The tip of a device's events once a higher one is added. -/
theorem argmax_concat {es : List (EventEnvelope V)} {e : EventEnvelope V}
    (h : ∀ a ∈ es, a.deviceSeq < e.deviceSeq) :
    (es ++ [e]).argmax (·.deviceSeq) = some e := by
  classical
  rw [List.argmax_eq_some_iff]
  refine ⟨by simp, fun a ha => ?_, fun a ha hle => ?_⟩
  · rcases List.mem_append.mp ha with ha | ha
    · exact (h a ha).le
    · rw [List.mem_singleton.mp ha]
  · rcases List.mem_append.mp ha with ha | ha
    · exact absurd (h a ha) (not_lt.mpr hle)
    · rw [List.mem_singleton.mp ha]

theorem tipWithin_of_max {store : EventStore V} {d : Uuid} {es : List (EventEnvelope V)}
    {e : EventEnvelope V} (hes : store.events.filter (·.deviceId = d) = es ++ [e])
    (h : ∀ a ∈ es, a.deviceSeq < e.deviceSeq) : store.tipWithin d = e.tip := by
  simp only [tipWithin, hes, argmax_concat h]

/-- No event of a device ranks above its tip. -/
theorem le_tipWithin {store : EventStore V} {d : Uuid} {e : EventEnvelope V}
    (he : e ∈ store.events) (hdevice : e.deviceId = d) :
    e.deviceSeq ≤ (store.tipWithin d).deviceSeq := by
  have hmem : e ∈ store.events.filter (·.deviceId = d) :=
    List.mem_filter.mpr ⟨he, by simpa using hdevice⟩
  unfold tipWithin
  cases hmax : (store.events.filter (·.deviceId = d)).argmax (·.deviceSeq) with
  | none => simp [List.argmax_eq_none.mp hmax] at hmem
  | some last => exact List.le_of_mem_argmax hmem hmax

/-- The next event of a device goes in, its id being new. -/
theorem append_isOkay {store : EventStore V} {e : EventEnvelope V}
    (hseq : e.deviceSeq = (store.tipWithin e.deviceId).deviceSeq + 1) (hfits : e.deviceSeq < 2 ^ 63)
    (hid : ∀ a ∈ store.events, a.eventId ≠ e.eventId) :
    ∃ store', store.append e = .ok store' ∧ store'.tipWithin e.deviceId = e.tip := by
  -- whatever the device has stored is numbered below
  have hlt : ∀ a ∈ store.events, a.deviceId = e.deviceId → a.deviceSeq < e.deviceSeq := by
    intro a ha hdevice
    have hle := le_tipWithin ha hdevice
    omega
  obtain ⟨table, htable⟩ := EventTable.insert?_isSome store.table
    [(⟨e, .local, none, none⟩ : StoredEvent V)] (by simp [DistinctKeys]) (fun a ha r hr => by
      rw [List.mem_singleton.mp hr]
      rintro (hsame | ⟨hdevice, hnumber⟩)
      · exact hid a ha hsame
      · exact absurd hnumber (hlt a ha hdevice).ne)
  have happend : store.append e = .ok { store with table } := by
    have hsat : satNextSeq (store.tipWithin e.deviceId).deviceSeq = e.deviceSeq := by
      rw [satNextSeq_of_lt (by omega), hseq]
    unfold append
    simp only [hsat, ne_eq, not_true_eq_false, if_false, if_neg (not_le.mpr hfits), htable]
  refine ⟨_, happend, ?_⟩
  have hfilter : ({ store with table } : EventStore V).events.filter (·.deviceId = e.deviceId) =
      store.events.filter (·.deviceId = e.deviceId) ++ [e] := by
    rw [append_events happend, List.filter_append]
    simp
  refine tipWithin_of_max hfilter fun a ha => ?_
  obtain ⟨ha, hdevice⟩ := List.mem_filter.mp ha
  exact hlt a ha (by simpa using hdevice)

/-- A run of events that follows the tip of its device goes in, its ids being new. -/
theorem appendAll_isOkay {digest : HashFunction V} {d : Uuid} {store : EventStore V}
    {es : List (EventEnvelope V)} (hchain : ChainFrom digest d (store.tipWithin d) es)
    (hfits : (store.tipWithin d).deviceSeq + es.length < 2 ^ 63)
    (hids : (es.map (·.eventId)).Nodup)
    (hnew : ∀ a ∈ store.events, ∀ e ∈ es, a.eventId ≠ e.eventId) :
    ∃ store', store.appendAll es = .ok store' := by
  induction es generalizing store with
  | nil => exact ⟨store, rfl⟩
  | cons e es ih =>
    obtain ⟨hfollows, hrest⟩ := hchain
    obtain ⟨hidHead, hidsRest⟩ := List.nodup_cons.mp hids
    rw [List.length_cons] at hfits
    have hdevice := hfollows.device
    have hseq : e.deviceSeq = (store.tipWithin d).deviceSeq + 1 := hfollows.seq
    obtain ⟨mid, happend, htip⟩ : ∃ mid, store.append e = .ok mid ∧ mid.tipWithin d = e.tip := by
      rw [← hdevice] at hseq ⊢
      refine append_isOkay hseq ?_ fun a ha => hnew a ha e List.mem_cons_self
      rw [hseq, hdevice]
      omega
    -- after the first event is in, the others are still new
    have hnewRest : ∀ a ∈ mid.events, ∀ f ∈ es, a.eventId ≠ f.eventId := by
      intro a ha f hf
      rw [append_events happend] at ha
      rcases List.mem_append.mp ha with ha | ha
      · exact hnew a ha f (List.mem_cons_of_mem _ hf)
      · rw [List.mem_singleton.mp ha]
        intro hsame
        exact hidHead (List.mem_map.mpr ⟨f, hf, hsame.symm⟩)
    rw [← htip] at hrest
    have hfitsRest : (mid.tipWithin d).deviceSeq + es.length < 2 ^ 63 := by
      rw [htip]
      show e.deviceSeq + es.length < 2 ^ 63
      omega
    obtain ⟨store', hstore'⟩ := ih hrest hfitsRest hidsRest hnewRest
    exact ⟨store', foldlM_cons_eq_ok.mpr ⟨mid, happend, hstore'⟩⟩

/-- Where a device's events are its chain from genesis, its tip is the end of it. -/
theorem tipWithin_of_chain {digest : HashFunction V} {store : EventStore V} {d : Uuid}
    (h : ChainFrom digest d ChainTip.genesis (store.events.filter (·.deviceId = d))) :
    store.tipWithin d = endTip ChainTip.genesis (store.events.filter (·.deviceId = d)) := by
  rcases List.eq_nil_or_concat (store.events.filter (·.deviceId = d)) with hnil | ⟨es, e, hes⟩
  · simp [tipWithin, hnil]
  · rw [List.concat_eq_append] at hes
    rw [hes, endTip_concat]
    rw [hes] at h
    refine tipWithin_of_max hes fun a ha => ?_
    obtain ⟨hchain, hfollows⟩ := chainFrom_concat.mp h
    obtain ⟨n, hn⟩ := List.getElem?_of_mem ha
    obtain ⟨hlt, _⟩ := List.getElem?_eq_some_iff.mp hn
    have hseq := (chainFrom_getElem hchain hn).1
    rw [hfollows.seq, endTip_deviceSeq hchain]
    omega

/-- The tip of a store that holds one device's chain from genesis is the end of it. -/
theorem tip_of_chain {digest : HashFunction V} {store : EventStore V}
    (h : ChainFrom digest store.deviceId ChainTip.genesis store.events) :
    store.tip = endTip ChainTip.genesis store.events := by
  have hall : store.events.filter (·.deviceId = store.deviceId) = store.events := by
    rw [List.filter_eq_self]
    intro e he
    simpa using (chainFrom_mem h he).2.1
  have htip := tipWithin_of_chain (hall.symm ▸ h)
  rw [hall] at htip
  exact htip

/-- Marking touches pending rows only, up to the bound. -/
theorem mem_markSynced {store : EventStore V} {n : Nat} {now : I64} {row : StoredEvent V}
    (h : row ∈ (store.markSynced n now).table.rows) :
    row ∈ store.table.rows ∨ row.event ∈ store.events ∧ row.event.deviceSeq ≤ n := by
  obtain ⟨old, hold, rfl⟩ := List.mem_map.mp h
  by_cases hmark : isPending old ∧ old.event.deviceSeq ≤ min n (2 ^ 63 - 1)
  · refine .inr ?_
    rw [markRow_event]
    exact ⟨List.mem_map_of_mem hold, hmark.2.trans (min_le_left _ _)⟩
  · rw [markRow, if_neg hmark]
    exact .inl hold

/-! ### What a load reads last -/

theorem mem_orderBy {κ : Type} [LinearOrder κ] {key : EventEnvelope V → κ}
    {es : List (EventEnvelope V)} {e : EventEnvelope V} : e ∈ orderBy key es ↔ e ∈ es :=
  (List.perm_insertionSort _ es).mem_iff

theorem mem_loadAll {store : EventStore V} {e : EventEnvelope V} : e ∈ store.loadAll ↔
    ∃ row ∈ store.table.rows, row.origin = .local ∧ row.event = e := by
  simp [loadAll, mem_orderBy, and_assoc]

/-- No two events that the till recorded have one id. -/
theorem loadAll_ids (store : EventStore V) : (store.loadAll.map (·.eventId)).Nodup := by
  have hsort : store.loadAll.Perm ((store.table.rows.filter (·.origin = .local)).map (·.event)) :=
    List.perm_insertionSort _ _
  exact (hsort.map _).nodup_iff.mpr
    (store.table.distinct.1.sublist ((List.filter_sublist.map _).map _))

/-- Rows of siblings' events change neither the device's own events nor the queue. -/
theorem unsynced_of_remote {store store' : EventStore V} {new : List (StoredEvent V)}
    (hrows : store'.table.rows = store.table.rows ++ new)
    (hremote : ∀ row ∈ new, row.origin = .remote) :
    store'.unsynced = store.unsynced ∧ store'.loadAll = store.loadAll := by
  have hnone : new.filter isPending = [] := by
    rw [List.filter_eq_nil_iff]
    intro row hrow
    simp [isPending, hremote row hrow]
  have hnoneLocal : new.filter (·.origin = .local) = [] := by
    rw [List.filter_eq_nil_iff]
    intro row hrow
    simp [hremote row hrow]
  rw [unsynced, unsynced, loadAll, loadAll, hrows, List.filter_append, List.filter_append, hnone,
    hnoneLocal, List.append_nil, List.append_nil]
  exact ⟨rfl, rfl⟩

/-- What the projections read last comes from the event that is last by `replayKey`. -/
theorem readLast_iff {β : Type} {store : EventStore V} {f : EventEnvelope V → Option β} {b : β} :
    (store.loadProjectionInput.filterMap f).getLast? = some b ↔
      ∃ e ∈ store.events, f e = some b ∧
        ∀ e' ∈ store.events, (f e').isSome → replayKey e' ≤ replayKey e := by
  have hmem : ∀ e, e ∈ store.loadProjectionInput ↔ e ∈ store.events := fun e => mem_orderBy
  have hsorted : store.loadProjectionInput.Pairwise fun a b => replayKey a ≤ replayKey b :=
    List.pairwise_insertionSort _ _
  constructor
  · intro h
    obtain ⟨e, he, hread, hlast⟩ := exists_of_getLast?_filterMap replayKey hsorted h
    exact ⟨e, (hmem e).mp he, hread, fun e' he' => hlast e' ((hmem e').mpr he')⟩
  · intro h
    obtain ⟨e, he, hread, hlast⟩ := h
    refine getLast?_filterMap_of_sorted replayKey hsorted ?_ ((hmem e).mpr he) hread
      fun e' he' => hlast e' ((hmem e').mp he')
    intro a ha b hb hkey
    have hid : a.eventId = b.eventId := congrArg (fun k => (ofLex k).2) hkey
    exact store.table.distinct.eventId_inj ((hmem a).mp ha) ((hmem b).mp hb) hid

/-! ### Where the events come from -/

/-- The events with their origin, in the order they were written. -/
def tagged (store : EventStore V) : List (EventEnvelope V × Origin) :=
  store.table.rows.map fun row => (row.event, row.origin)

theorem events_eq_tagged (store : EventStore V) : store.events = store.tagged.map (·.1) := by
  simp [events, EventTable.events, tagged]

theorem loadAll_eq_tagged (store : EventStore V) : store.loadAll =
    orderBy (·.deviceSeq) ((store.tagged.filter (·.2 = .local)).map (·.1)) := by
  simp [loadAll, tagged, List.filter_map, Function.comp_def]

theorem append_tagged {store store' : EventStore V} {e : EventEnvelope V}
    (h : store.append e = .ok store') : store'.tagged = store.tagged ++ [(e, .local)] := by
  simp [tagged, (append_eq_ok h).2.2.2.2]

@[simp] theorem markSynced_tagged (store : EventStore V) (n : Nat) (now : I64) :
    (store.markSynced n now).tagged = store.tagged := by
  unfold tagged markSynced EventTable.update
  rw [List.map_map]
  refine List.map_congr_left fun row _ => ?_
  rw [Function.comp_apply, markRow_event, markRow_origin]

theorem markSynced_loadAll (store : EventStore V) (n : Nat) (now : I64) :
    (store.markSynced n now).loadAll = store.loadAll := by
  rw [loadAll_eq_tagged, loadAll_eq_tagged, markSynced_tagged]

/-- Marking takes the events up to the bound off the queue. -/
theorem markSynced_unsynced (store : EventStore V) {n : Nat} (hn : n < 2 ^ 63) (now : I64) :
    (store.markSynced n now).unsynced = store.unsynced.filter (n < ·.deviceSeq) := by
  have hrows : ∀ rows : List (StoredEvent V),
      ((rows.map (markRow n now)).filter isPending).map (·.event) =
        ((rows.filter isPending).map (·.event)).filter (n < ·.deviceSeq) := by
    intro rows
    induction rows with
    | nil => rfl
    | cons row rows ih =>
      have hmin : min n (2 ^ 63 - 1) = n := min_eq_left (by omega)
      rw [List.map_cons]
      by_cases hpending : isPending row = true
      · rw [List.filter_cons_of_pos hpending, List.map_cons]
        by_cases hseq : row.event.deviceSeq ≤ n
        · -- a row at or below the bound leaves the queue
          have hmarked : isPending (markRow n now row) = false := by
            rw [markRow, if_pos ⟨hpending, hmin.symm ▸ hseq⟩]
            simp [isPending]
          rw [List.filter_cons_of_neg (by simp [hmarked]),
            List.filter_cons_of_neg (by simpa using hseq), ih]
        · have hkept : markRow n now row = row := by
            rw [markRow, if_neg fun h => hseq (hmin ▸ h.2)]
          rw [hkept, List.filter_cons_of_pos hpending, List.map_cons,
            List.filter_cons_of_pos (by simpa using hseq), ih]
      · have hkept : markRow n now row = row := by
          rw [markRow, if_neg fun h => hpending h.1]
        rw [hkept, List.filter_cons_of_neg hpending, List.filter_cons_of_neg hpending, ih]
  show orderBy _ (((store.table.rows.map (markRow n now)).filter isPending).map (·.event)) = _
  rw [hrows, unsynced, orderBy, orderBy, filter_insertionSort]

@[simp] theorem setPullCursor_tagged (store : EventStore V) (c : Int) :
    (store.setPullCursor c).tagged = store.tagged := rfl

/-- What a run of appends leaves: the events are at the end, each number following its tip. -/
theorem appendAll_tagged {store store' : EventStore V} {es : List (EventEnvelope V)}
    (h : store.appendAll es = .ok store') :
    store'.deviceId = store.deviceId ∧ store'.pullCursor = store.pullCursor ∧
      store'.tagged = store.tagged ++ es.map (·, .local) ∧
      ∀ e, es.head? = some e → e.deviceSeq = satNextSeq (store.tipWithin e.deviceId).deviceSeq := by
  induction es generalizing store with
  | nil =>
    cases h
    simp
  | cons e es ih =>
    obtain ⟨mid, hstep, hrest⟩ := foldlM_cons_eq_ok.mp h
    obtain ⟨hseq, _, hdevice, hcursor, _⟩ := append_eq_ok hstep
    obtain ⟨hdevice', hcursor', htagged, _⟩ := ih hrest
    refine ⟨hdevice'.trans hdevice, hcursor'.trans hcursor, ?_, ?_⟩
    · rw [htagged, append_tagged hstep]
      simp
    · intro a ha
      cases ha
      exact hseq

theorem appendAll_events {store store' : EventStore V} {es : List (EventEnvelope V)}
    (h : store.appendAll es = .ok store') : store'.events = store.events ++ es := by
  rw [events_eq_tagged, events_eq_tagged, (appendAll_tagged h).2.2.1, List.map_append,
    List.map_map, Function.comp_def, List.map_id']

end EventStore

end Sahl
