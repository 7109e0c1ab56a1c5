import Mathlib.Tactic
import Sahl.Sync.Plan
import Sahl.Terminal.Store

/-! # The sync engine

    One round pushes what the till has recorded, then pulls what its siblings have. How the
    server is reached is a parameter. A pulled page is applied event by event, each write on its
    own; what was written before a failure stays. -/

namespace Sahl

variable {V : Type}

structure SyncOutcome where
  pushed : Nat
  skipped : Nat
  pulled : Nat
  morePending : Bool
  deriving DecidableEq

/-- A round with nothing to do. -/
def SyncOutcome.default : SyncOutcome := ⟨0, 0, 0, false⟩

inductive SyncClientError where
  | store (error : StoreError)
  | refused (rejection : SyncRejection)
  | tipMismatch (ours theirs : Nat)
  deriving DecidableEq

/-- How the till reaches the server. -/
structure Transport (V : Type) where
  push : List (EventEnvelope V) → Except SyncRejection PushResponse
  pull : Int → Nat → Except SyncRejection (PullResponse V)

/-- Events requested per pull. -/
def pullPage : Nat := 200

namespace EventStore

/-! ## Push -/

/-- One bounded batch of the queue. -/
def nextBatch (store : EventStore V) : List (EventEnvelope V) := store.unsynced.take maxBatch

/-- Mark what the server confirmed, provided its tip covers what was sent. -/
def acknowledge (store : EventStore V) (batch : List (EventEnvelope V)) (response : PushResponse)
    (nowMillis : I64) : Except SyncClientError (EventStore V) :=
  let sentThrough := (batch.getLast?.map (·.deviceSeq)).getD store.tip.deviceSeq
  if response.tip.deviceSeq < sentThrough then
    .error (.tipMismatch sentThrough response.tip.deviceSeq)
  else .ok (store.markSynced response.tip.deviceSeq nowMillis)

def pushPending (store : EventStore V) (transport : Transport V) (nowMillis : I64) :
    Except SyncClientError (SyncOutcome × EventStore V) := do
  let pending := store.unsynced
  if pending.isEmpty then .ok (SyncOutcome.default, store)
  else
    let batch := store.nextBatch
    let response ← (transport.push batch).mapError .refused
    let store' ← store.acknowledge batch response nowMillis
    .ok (⟨response.accepted, response.skipped, 0, batch.length < pending.length⟩, store')

/-! ## Pull -/

/-- Verify a pulled event, then store it. -/
def applyPulled (digest : HashFunction V) (cursor : Int) (store : EventStore V)
    (event : EventEnvelope V) : Except SyncClientError (Bool × EventStore V) := do
  (event.verify digest).mapError fun _ => .refused .invalid
  (store.insertRemote event cursor).mapError .store

/-- Apply the events of a page in order, up to the first that is refused; with them the number
    of rows written. -/
def applyEvents (digest : HashFunction V) (cursor : Int) :
    List (EventEnvelope V) → Nat → EventStore V → Outcome SyncClientError (Nat × EventStore V)
  | [], applied, store => .done (applied, store)
  | event :: rest, applied, store =>
    match store.applyPulled digest cursor event with
    | .error error => .refused (applied, store) error
    | .ok (inserted, store') =>
      applyEvents digest cursor rest (if inserted then applied + 1 else applied) store'

/-- Apply a page, and advance the cursor once all of it is stored. -/
def applyPage (digest : HashFunction V) (store : EventStore V) (page : PullResponse V) :
    Outcome SyncClientError ((Nat × Bool) × EventStore V) :=
  let outcome := applyEvents digest page.cursor page.events 0 store
  let (applied, store') := outcome.state
  match outcome.answer with
  | .error error => .refused ((applied, page.hasMore), store') error
  | .ok _ => .done ((applied, page.hasMore), store'.setPullCursor page.cursor)

def pullNew (digest : HashFunction V) (store : EventStore V) (transport : Transport V) :
    Outcome SyncClientError ((Nat × Bool) × EventStore V) :=
  match transport.pull store.pullCursor pullPage with
  | .error rejection => .refused ((0, false), store) (.refused rejection)
  | .ok page => store.applyPage digest page

/-- Push everything outstanding, then pull everything new. -/
def syncOnce (digest : HashFunction V) (store : EventStore V) (transport : Transport V)
    (nowMillis : I64) : Outcome SyncClientError (SyncOutcome × EventStore V) :=
  match store.pushPending transport nowMillis with
  | .error error => .refused (SyncOutcome.default, store) error
  | .ok (outcome, store') =>
    let pull := store'.pullNew digest transport
    let ((pulled, more), store'') := pull.state
    ⟨({ outcome with pulled, morePending := outcome.morePending || more }, store''), pull.answer⟩

/-! ## What a round does to the store -/

/-- What is sent is in the store, and not yet accepted. -/
theorem mem_nextBatch {store : EventStore V} {e : EventEnvelope V} (h : e ∈ store.nextBatch) :
    ∃ row ∈ store.table.rows, isPending row = true ∧ row.event = e := by
  have hmem := mem_orderBy.mp (List.mem_of_mem_take h)
  obtain ⟨row, hrow, rfl⟩ := List.mem_map.mp hmem
  obtain ⟨hrow, hpending⟩ := List.mem_filter.mp hrow
  exact ⟨row, hrow, hpending, rfl⟩

/-- Acknowledging marks rows up to a sequence number that covers the batch. -/
theorem acknowledge_eq_ok {store store' : EventStore V} {batch : List (EventEnvelope V)}
    {response : PushResponse} {now : I64} (h : store.acknowledge batch response now = .ok store') :
    (∀ e, batch.getLast? = some e → e.deviceSeq ≤ response.tip.deviceSeq) ∧
      store' = store.markSynced response.tip.deviceSeq now := by
  simp only [acknowledge] at h
  split at h
  · cases h
  · rename_i hcovers
    cases h
    refine ⟨fun e he => ?_, rfl⟩
    simpa [he] using hcovers

/-- An answer that covers the batch is acknowledged. -/
theorem acknowledge_of_covers {store : EventStore V} {batch : List (EventEnvelope V)}
    {response : PushResponse} (now : I64) (hne : batch ≠ [])
    (hcovers : ∀ e, batch.getLast? = some e → e.deviceSeq ≤ response.tip.deviceSeq) :
    store.acknowledge batch response now = .ok (store.markSynced response.tip.deviceSeq now) := by
  obtain ⟨last, hlast⟩ := Option.isSome_iff_exists.mp (List.getLast?_isSome.mpr hne)
  unfold acknowledge
  rw [hlast]
  exact if_neg (not_lt.mpr (hcovers last hlast))

theorem nextBatch_ne_nil {store : EventStore V} (h : store.unsynced ≠ []) :
    store.nextBatch ≠ [] := by
  rw [nextBatch, Ne, List.take_eq_nil_iff, not_or]
  exact ⟨by decide, h⟩

theorem pushPending_of_empty {store : EventStore V} (transport : Transport V) (now : I64)
    (h : store.unsynced = []) :
    store.pushPending transport now = .ok (SyncOutcome.default, store) := by
  unfold pushPending
  rw [h]
  rfl

/-- A push that is answered and acknowledged. -/
theorem pushPending_of_answer {store store' : EventStore V} {transport : Transport V} {now : I64}
    {response : PushResponse} (hne : store.unsynced ≠ [])
    (hresponse : transport.push store.nextBatch = .ok response)
    (hacknowledged : store.acknowledge store.nextBatch response now = .ok store') :
    store.pushPending transport now = .ok (⟨response.accepted, response.skipped, 0,
      store.nextBatch.length < store.unsynced.length⟩, store') := by
  have hisEmpty : store.unsynced.isEmpty = false := by simpa using hne
  simp only [pushPending, hisEmpty, Bool.false_eq_true, if_false, hresponse, Except.mapError, bind,
    Except.bind, hacknowledged]

/-- What applying a run of pulled events leaves: the store grows by some of them. -/
structure Applied (store store' : EventStore V) (es : List (EventEnvelope V)) : Prop where
  deviceId : store'.deviceId = store.deviceId
  pullCursor : store'.pullCursor = store.pullCursor
  grows : ∀ e ∈ store.events, e ∈ store'.events
  only : ∀ e ∈ store'.events, e ∈ store.events ∨ e ∈ es

theorem Applied.refl (store : EventStore V) (es : List (EventEnvelope V)) :
    Applied store store es :=
  ⟨rfl, rfl, fun _ he => he, fun _ he => .inl he⟩

theorem Applied.cons {store store' store'' : EventStore V} {e : EventEnvelope V}
    {es : List (EventEnvelope V)} (h : Applied store store' [e]) (h' : Applied store' store'' es) :
    Applied store store'' (e :: es) where
  deviceId := h'.deviceId.trans h.deviceId
  pullCursor := h'.pullCursor.trans h.pullCursor
  grows := fun a ha => h'.grows a (h.grows a ha)
  only := fun a ha => by
    rcases h'.only a ha with ha | ha
    · exact (h.only a ha).imp_right fun ha => by simp_all
    · exact .inr (List.mem_cons_of_mem _ ha)

/-- A pulled event is written unless one of its keys is taken. -/
theorem applyPulled_eq_ok {digest : HashFunction V} {cursor : Int} {store store' : EventStore V}
    {e : EventEnvelope V} {b : Bool} (h : store.applyPulled digest cursor e = .ok (b, store')) :
    Applied store store' [e] ∧ (e ∈ store'.events ∨ ∃ a ∈ store.events, SameKey a e) := by
  simp only [applyPulled, Except.bind_eq_ok, Except.mapError_eq_ok] at h
  obtain ⟨_, _, h⟩ := h
  obtain ⟨hdevice, hcursor, hrows | ⟨rfl, hkept⟩⟩ := insertRemote_eq_ok h
  · have hevents : store'.events = store.events ++ [e] := by
      simp [events, EventTable.events, hrows]
    refine ⟨⟨hdevice, hcursor, fun a ha => ?_, fun a ha => ?_⟩, .inl ?_⟩
    · rw [hevents]
      exact List.mem_append_left _ ha
    · exact List.mem_append.mp (hevents ▸ ha)
    · rw [hevents]
      exact List.mem_append_right _ List.mem_cons_self
  · exact ⟨.refl _ _, .inr hkept⟩

theorem applyEvents_applied (digest : HashFunction V) (cursor : Int)
    (es : List (EventEnvelope V)) (n : Nat) (store : EventStore V) :
    Applied store (applyEvents digest cursor es n store).state.2 es := by
  induction es generalizing n store with
  | nil => exact .refl _ _
  | cons e es ih =>
    rw [applyEvents]
    split
    · exact .refl _ _
    · rename_i inserted store' hstep
      exact (applyPulled_eq_ok hstep).1.cons (ih _ store')

/-- A run of pulled events that is not refused is in the store afterwards, where no other event
    has one of their keys. -/
theorem applyEvents_held {digest : HashFunction V} {cursor : Int}
    {es : List (EventEnvelope V)} {n : Nat} {store : EventStore V}
    (hkeys : ∀ a, a ∈ store.events ∨ a ∈ es → ∀ e ∈ es, SameKey a e → a = e)
    (hok : (applyEvents digest cursor es n store).answer = .ok ()) :
    ∀ e ∈ es, e ∈ (applyEvents digest cursor es n store).state.2.events := by
  induction es generalizing n store with
  | nil => simp
  | cons e es ih =>
    rw [applyEvents] at hok ⊢
    split at hok
    · cases hok
    rename_i inserted store' hstep
    obtain ⟨happlied, hwritten⟩ := applyPulled_eq_ok hstep
    -- written, or already there: an event under one of its keys is this event
    have he : e ∈ store'.events := by
      rcases hwritten with he | ⟨a, ha, hkey⟩
      · exact he
      · exact happlied.grows e (hkeys a (.inl ha) e List.mem_cons_self hkey ▸ ha)
    have hkeys' : ∀ a, a ∈ store'.events ∨ a ∈ es → ∀ e ∈ es, SameKey a e → a = e := by
      intro a ha f hf hkey
      refine hkeys a ?_ f (List.mem_cons_of_mem _ hf) hkey
      rcases ha with ha | ha
      · exact (happlied.only a ha).imp_right fun ha => by simp_all
      · exact .inr (List.mem_cons_of_mem _ ha)
    intro f hf
    rcases List.mem_cons.mp hf with rfl | hf
    · exact (applyEvents_applied digest cursor es _ store').grows _ he
    · exact ih hkeys' hok f hf

/-- A page leaves the cursor, or has all its events stored and advances it. -/
theorem applyPage_cases (digest : HashFunction V) (store : EventStore V) (page : PullResponse V) :
    ∃ store', Applied store store' page.events ∧
      ((store.applyPage digest page).state.2 = store' ∨
        (store.applyPage digest page).state.2 = store'.setPullCursor page.cursor ∧
          ((∀ a, a ∈ store.events ∨ a ∈ page.events → ∀ e ∈ page.events, SameKey a e → a = e) →
            ∀ e ∈ page.events, e ∈ store'.events)) := by
  refine ⟨_, applyEvents_applied digest page.cursor page.events 0 store, ?_⟩
  unfold applyPage
  cases hanswer : (applyEvents digest page.cursor page.events 0 store).answer with
  | error error => exact .inl (by simp [hanswer])
  | ok u => exact .inr ⟨by simp [hanswer], fun hkeys => applyEvents_held hkeys hanswer⟩

/-! ## Where the events of a round come from -/

/-- `store'` is `store` with some of the events `es` pulled into it. -/
def PulledInto (store store' : EventStore V) (es : List (EventEnvelope V)) : Prop :=
  store'.deviceId = store.deviceId ∧
    ∃ new : List (EventEnvelope V), store'.tagged = store.tagged ++ new.map (·, .remote) ∧ ∀ e ∈ new, e ∈ es

theorem PulledInto.refl (store : EventStore V) (es : List (EventEnvelope V)) :
    PulledInto store store es :=
  ⟨rfl, [], by simp, by simp⟩

theorem applyPulled_rows {digest : HashFunction V} {cursor : Int}
    {store store' : EventStore V} {e : EventEnvelope V} {b : Bool}
    (h : store.applyPulled digest cursor e = .ok (b, store')) :
    ∃ new, store'.table.rows = store.table.rows ++ new ∧
      ∀ row ∈ new, row.origin = .remote ∧ row.event = e := by
  simp only [applyPulled, Except.bind_eq_ok, Except.mapError_eq_ok] at h
  obtain ⟨_, _, h⟩ := h
  obtain ⟨_, _, hrows | ⟨rfl, _⟩⟩ := insertRemote_eq_ok h
  · exact ⟨_, hrows, by simp⟩
  · exact ⟨[], by simp, by simp⟩

/-- Applying pulled events adds remote rows, and leaves those that were there. -/
theorem applyEvents_rows (digest : HashFunction V) (cursor : Int) (es : List (EventEnvelope V))
    (n : Nat) (store : EventStore V) :
    ∃ new, (applyEvents digest cursor es n store).state.2.table.rows = store.table.rows ++ new ∧
      ∀ row ∈ new, row.origin = .remote ∧ row.event ∈ es := by
  induction es generalizing n store with
  | nil => exact ⟨[], by simp [applyEvents], by simp⟩
  | cons e es ih =>
    rw [applyEvents]
    split
    · exact ⟨[], by simp [Outcome.refused], by simp⟩
    · rename_i inserted store' hstep
      obtain ⟨first, hfirst, hmemFirst⟩ := applyPulled_rows hstep
      obtain ⟨more, hmore, hmemMore⟩ := ih (if inserted then n + 1 else n) store'
      refine ⟨first ++ more, by rw [hmore, hfirst, List.append_assoc], ?_⟩
      intro row hrow
      rcases List.mem_append.mp hrow with hrow | hrow
      · obtain ⟨hremote, rfl⟩ := hmemFirst row hrow
        exact ⟨hremote, List.mem_cons_self⟩
      · obtain ⟨hremote, hevent⟩ := hmemMore row hrow
        exact ⟨hremote, List.mem_cons_of_mem _ hevent⟩

theorem applyEvents_pulledInto (digest : HashFunction V) (cursor : Int)
    (es : List (EventEnvelope V)) (n : Nat) (store : EventStore V) :
    PulledInto store (applyEvents digest cursor es n store).state.2 es := by
  obtain ⟨new, hrows, hnew⟩ := applyEvents_rows digest cursor es n store
  refine ⟨(applyEvents_applied digest cursor es n store).deviceId, new.map (·.event), ?_, ?_⟩
  · rw [tagged, hrows, List.map_append, List.map_map]
    refine congrArg _ (List.map_congr_left fun row hrow => ?_)
    rw [(hnew row hrow).1]
    rfl
  · intro e he
    obtain ⟨row, hrow, rfl⟩ := List.mem_map.mp he
    exact (hnew row hrow).2

/-- Events that verify, with numbers that fit, are applied without a refusal. -/
theorem applyEvents_isOkay {digest : HashFunction V} {cursor : Int} {es : List (EventEnvelope V)}
    (h : ∀ e ∈ es, e.verify digest = .ok () ∧ e.deviceSeq < 2 ^ 63) (n : Nat)
    (store : EventStore V) : (applyEvents digest cursor es n store).answer = .ok () := by
  induction es generalizing n store with
  | nil => rfl
  | cons e es ih =>
    obtain ⟨hverify, hfits⟩ := h e List.mem_cons_self
    -- taken or new, the key of the event is no reason to refuse it
    obtain ⟨b, store', hstep⟩ : ∃ b store', store.applyPulled digest cursor e = .ok (b, store') := by
      unfold applyPulled insertRemote
      rw [hverify, if_neg (not_le.mpr hfits)]
      cases store.table.insert? [⟨e, .remote, none, some cursor⟩] with
      | none => exact ⟨_, _, rfl⟩
      | some table => exact ⟨_, _, rfl⟩
    rw [applyEvents, hstep]
    exact ih (fun f hf => h f (List.mem_cons_of_mem _ hf)) _ store'

/-- A push leaves the events alone. -/
theorem pushPending_eq_ok {store store' : EventStore V} {transport : Transport V} {nowMillis : I64}
    {outcome : SyncOutcome} (h : store.pushPending transport nowMillis = .ok (outcome, store')) :
    store'.deviceId = store.deviceId ∧ store'.tagged = store.tagged := by
  unfold pushPending at h
  by_cases hempty : store.unsynced.isEmpty
  · simp only [hempty, if_true] at h
    cases h
    exact ⟨rfl, rfl⟩
  · simp only [hempty, Bool.false_eq_true, if_false, Except.bind_eq_ok] at h
    obtain ⟨response, -, marked, hmarked, h⟩ := h
    cases h
    rw [(acknowledge_eq_ok hmarked).2]
    exact ⟨rfl, markSynced_tagged _ _ _⟩

/-- A round adds pulled events, and nothing else. -/
theorem syncOnce_pulledInto (digest : HashFunction V) (store : EventStore V)
    (transport : Transport V) (nowMillis : I64) :
    ∃ es, PulledInto store (store.syncOnce digest transport nowMillis).state.2 es ∧
      ∀ e ∈ es, ∃ cursor page,
        transport.pull cursor pullPage = .ok page ∧ e ∈ page.events := by
  unfold syncOnce
  cases hpush : store.pushPending transport nowMillis with
  | error error => exact ⟨[], .refl _ _, by simp⟩
  | ok pushed =>
    obtain ⟨outcome, store'⟩ := pushed
    -- a push marks rows, and adds none
    have hkept := pushPending_eq_ok hpush
    simp only [pullNew]
    cases hpull : transport.pull store'.pullCursor pullPage with
    | error rejection =>
      exact ⟨[], ⟨hkept.1, [], by simp [Outcome.refused, hkept.2], by simp⟩, by simp⟩
    | ok page =>
      refine ⟨page.events, ?_, fun e he => ⟨_, page, hpull, he⟩⟩
      obtain ⟨hdevice, new, hnew, hmem⟩ :=
        applyEvents_pulledInto digest page.cursor page.events 0 store'
      have hpage : (store'.applyPage digest page).state.2.deviceId = store'.deviceId ∧
          (store'.applyPage digest page).state.2.tagged =
            store'.tagged ++ new.map (·, .remote) := by
        unfold applyPage
        cases hanswer : (applyEvents digest page.cursor page.events 0 store').answer with
        | error error =>
          simp only [hanswer]
          exact ⟨hdevice, hnew⟩
        | ok u =>
          simp only [hanswer]
          exact ⟨hdevice, hnew⟩
      refine ⟨hpage.1.trans hkept.1, new, ?_, hmem⟩
      rw [← hkept.2]
      exact hpage.2

/-- The count of a page is the number of rows it wrote. -/
theorem applyEvents_count (digest : HashFunction V) (cursor : Int) (es : List (EventEnvelope V))
    (n : Nat) (store : EventStore V) :
    (applyEvents digest cursor es n store).state.1 + store.tagged.length =
      n + (applyEvents digest cursor es n store).state.2.tagged.length := by
  induction es generalizing n store with
  | nil => rfl
  | cons e es ih =>
    rw [applyEvents]
    split
    · rfl
    · rename_i inserted store' hstep
      have hrest := ih (if inserted then n + 1 else n) store'
      -- an event that is inserted adds a row, one that was there already adds none
      have hgrown : store'.tagged.length = store.tagged.length + (if inserted then 1 else 0) := by
        simp only [applyPulled, Except.bind_eq_ok, Except.mapError_eq_ok, insertRemote] at hstep
        obtain ⟨_, -, hstep⟩ := hstep
        split at hstep
        · cases hstep
        · split at hstep
          · cases hstep
            simp
          · rename_i table htable
            cases hstep
            simp [tagged, EventTable.insert?_eq_some.mp htable]
      cases inserted with
      | true =>
        simp only [if_true] at hrest hgrown ⊢
        omega
      | false =>
        simp only [Bool.false_eq_true, if_false] at hrest hgrown ⊢
        omega

/-- A round that succeeds reports as many events as it wrote. -/
theorem syncOnce_count {digest : HashFunction V} {store : EventStore V} {transport : Transport V}
    {nowMillis : I64} (h : (store.syncOnce digest transport nowMillis).answer = .ok ()) :
    (store.syncOnce digest transport nowMillis).state.1.pulled + store.tagged.length =
      (store.syncOnce digest transport nowMillis).state.2.tagged.length := by
  unfold syncOnce at h ⊢
  cases hpush : store.pushPending transport nowMillis with
  | error error =>
    rw [hpush] at h
    cases h
  | ok pushed =>
    obtain ⟨outcome, store'⟩ := pushed
    rw [hpush] at h
    -- pushing marks rows and adds none
    have hkept := (pushPending_eq_ok hpush).2
    simp only [pullNew] at h ⊢
    cases hpull : transport.pull store'.pullCursor pullPage with
    | error rejection =>
      rw [hpull] at h
      cases h
    | ok page =>
      have hcount := applyEvents_count digest page.cursor page.events 0 store'
      rw [← hkept]
      simp only [applyPage]
      cases hanswer : (applyEvents digest page.cursor page.events 0 store').answer with
      | error error =>
        simp only [hpull, applyPage, hanswer] at h
        cases h
      | ok _ =>
        show (applyEvents digest page.cursor page.events 0 store').state.1 +
          store'.tagged.length = _
        rw [hcount, Nat.zero_add]
        rfl

end EventStore

end Sahl
