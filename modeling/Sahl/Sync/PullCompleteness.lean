import Mathlib.Tactic
import Sahl.Lib.Lists
import Sahl.Lib.Transition
import Sahl.Server.LogIntegrity
import Sahl.Sync.Engine

/-! # Pull completeness

    One device pulls while pushes of the outlet's devices overlap on the server. A `server_seq` is
    handed out at INSERT and seen at COMMIT, so a page can pass a number that is not yet visible;
    the cursor never comes back for it (`pull_incomplete`). Where no pull passes an open one, the
    device holds whatever is ever committed at or below its cursor (`pull_complete`). -/

namespace Sahl

variable {V : Type}

namespace Server

/-! ## Section 1: Sequence numbers -/

/-- A row that is committed, or inserted by an open transaction. -/
def InPlay (s : Server V) (row : EventRow V) : Prop :=
  row ∈ s.db.table.rows ∨ ∃ t txn, s.txns t = some txn ∧ row ∈ txn.rows

/-- Sequence numbers are handed out once, in order. -/
structure SeqInv (s : Server V) : Prop where
  below : ∀ row, s.InPlay row → row.serverSeq < s.nextSeq
  inj : ∀ row row', s.InPlay row → s.InPlay row' → row.serverSeq = row'.serverSeq → row = row'

/-- The outlet a device is enrolled in. -/
def Db.outletOf (db : Db V) (d : Uuid) : Option Uuid := (db.device d).map (·.outletId)

theorem outletOf_setTip (db : Db V) (d x : Uuid) (tip : ChainTip)
    (table : EventTable V (EventRow V) EventRow.event) :
    Db.outletOf ⟨db.setTip d tip, table⟩ x = Db.outletOf db x := by
  show (db.setTip d tip x).map _ = (db.device x).map _
  by_cases hx : x = d
  · subst hx
    cases hrecord : db.device x with
    | none => simp [Db.setTip, hrecord]
    | some record => simp [setTip_self tip hrecord]
  · rw [setTip_ne db tip hx]

/-- A step inserts one row under the next number, or only moves rows and drops them. -/
theorem step_inPlay {digest : HashFunction V} {s s' : Server V} {a : Action V}
    (h : step digest s a s') :
    (∀ x, Db.outletOf s'.db x = Db.outletOf s.db x) ∧
      ((s'.nextSeq = s.nextSeq ∧ ∀ row, s'.InPlay row → s.InPlay row) ∨
        (s'.nextSeq = s.nextSeq + 1 ∧ ∃ e, ∀ row, s'.InPlay row →
          s.InPlay row ∨ row = ⟨e, s.nextSeq⟩)) := by
  -- what is aborted leaves play, and nothing else enters
  have habort : ∀ t row, (s.abort t).InPlay row → s.InPlay row := by
    rintro t row (hrow | ⟨x, txn, htxn, hrow⟩)
    · exact .inl hrow
    · by_cases hx : x = t
      · simp [abort, setTxn, hx] at htxn
      · exact .inr ⟨x, txn, by simpa [abort, setTxn, hx] using htxn, hrow⟩
  cases a with
  | beginPush t d request =>
    obtain ⟨_, rfl⟩ := h
    rcases beginPush_cases digest s t d request with ⟨_, hs, _⟩ | ⟨_, _, _, _, hs⟩
    · rw [hs]
      exact ⟨fun _ => rfl, .inl ⟨rfl, fun _ h => h⟩⟩
    · rw [hs]
      refine ⟨fun _ => rfl, .inl ⟨rfl, ?_⟩⟩
      rintro row (hrow | ⟨x, txn, htxn, hrow⟩)
      · exact .inl hrow
      · by_cases hx : x = t
        · simp only [hx, setTxn_self, Option.some.injEq] at htxn
          simp [← htxn] at hrow
        · exact .inr ⟨x, txn, by simpa [setTxn, hx] using htxn, hrow⟩
  | insertNext t =>
    obtain rfl := h
    rcases insertNext_cases s t with hs | hs | ⟨txn, e, rest, htxn, _, _, hs⟩
    · rw [hs]
      exact ⟨fun _ => rfl, .inl ⟨rfl, fun _ h => h⟩⟩
    · rw [hs]
      exact ⟨fun _ => rfl, .inl ⟨rfl, habort t⟩⟩
    · rw [hs]
      -- only an insert brings a row into play, and gives it the next number
      refine ⟨fun _ => rfl, .inr ⟨rfl, e, ?_⟩⟩
      rintro row (hrow | ⟨x, txn', htxn', hrow⟩)
      · exact .inl (.inl hrow)
      · by_cases hx : x = t
        · simp only [hx, setTxn_self, Option.some.injEq] at htxn'
          subst htxn'
          rcases List.mem_append.mp hrow with hrow | hrow
          · exact .inl (.inr ⟨t, txn, htxn, hrow⟩)
          · exact .inr (List.mem_singleton.mp hrow)
        · exact .inl (.inr ⟨x, txn', by simpa [setTxn, hx] using htxn', hrow⟩)
  | commit t =>
    obtain rfl := h
    rcases commit_cases s t with hs | hs | ⟨txn, table, htxn, _, htable, hs⟩
    · rw [hs]
      exact ⟨fun _ => rfl, .inl ⟨rfl, fun _ h => h⟩⟩
    · rw [hs]
      exact ⟨fun _ => rfl, .inl ⟨rfl, habort t⟩⟩
    · rw [hs]
      refine ⟨fun x => outletOf_setTip _ _ _ _ _, .inl ⟨rfl, ?_⟩⟩
      rintro row (hrow | ⟨x, txn', htxn', hrow⟩)
      · rcases List.mem_append.mp (EventTable.insert?_eq_some.mp htable ▸ hrow) with hrow | hrow
        · exact .inl hrow
        · exact .inr ⟨t, txn, htxn, hrow⟩
      · by_cases hx : x = t
        · simp [setTxn, hx] at htxn'
        · exact .inr ⟨x, txn', by simpa [setTxn, hx] using htxn', hrow⟩
  | abort t =>
    obtain rfl := h
    exact ⟨fun _ => rfl, .inl ⟨rfl, habort t⟩⟩

theorem seqInv_fresh {s : Server V} (h : Fresh s) : SeqInv s := by
  have hnone : ∀ row, ¬ s.InPlay row := by
    rintro row (hrow | ⟨t, txn, htxn, _⟩)
    · simp [h.table] at hrow
    · simp [h.txns t] at htxn
  exact ⟨fun row hrow => absurd hrow (hnone row), fun row _ hrow => absurd hrow (hnone row)⟩

theorem seqInv_step {digest : HashFunction V} {s s' : Server V} {a : Action V} (hinv : SeqInv s)
    (h : step digest s a s') : SeqInv s' := by
  obtain ⟨_, ⟨hnext, hplay⟩ | ⟨hnext, e, hplay⟩⟩ := step_inPlay h
  · refine ⟨fun row hrow => ?_, fun row row' hrow hrow' => ?_⟩
    · rw [hnext]
      exact hinv.below row (hplay row hrow)
    · exact hinv.inj row row' (hplay row hrow) (hplay row' hrow')
  · refine ⟨fun row hrow => ?_, fun row row' hrow hrow' heq => ?_⟩
    · rw [hnext]
      rcases hplay row hrow with hold | rfl
      · exact (hinv.below row hold).trans (lt_add_one _)
      · exact lt_add_one _
    · rcases hplay row hrow with hold | rfl <;> rcases hplay row' hrow' with hold' | rfl
      · exact hinv.inj row row' hold hold' heq
      · exact absurd heq (hinv.below row hold).ne
      · exact absurd heq (hinv.below row' hold').ne'
      · rfl

/-! ## Section 2: A page -/

/-- An event of another device of the outlet of `d`. -/
def IsSibling (db : Db V) (d : Uuid) (e : EventEnvelope V) : Prop :=
  e.deviceId ≠ d ∧ Db.outletOf db d = some e.outletId

theorem mem_pullRows {db : Db V} {d : Uuid} {record : DeviceRecord} {cursor : Int}
    {row : EventRow V} : row ∈ pullRows db d record cursor ↔ row ∈ db.table.rows ∧
      row.event.outletId = record.outletId ∧ row.event.deviceId ≠ d ∧ cursor < row.serverSeq := by
  rw [pullRows, (List.perm_insertionSort _ _).mem_iff, List.mem_filter, decide_eq_true_eq]

theorem pullRows_sorted (db : Db V) (d : Uuid) (record : DeviceRecord) (cursor : Int) :
    (pullRows db d record cursor).Pairwise fun a b => a.serverSeq ≤ b.serverSeq := by
  have := List.pairwise_insertionSort (fun a b : EventRow V => a.serverSeq ≤ b.serverSeq)
  exact this _

/-- What a pull answers: the first rows above the cursor, and the number of the last. -/
theorem servePull_eq_ok {db : Db V} {d : Uuid} {cursor : Int} {limit : Nat}
    {page : PullResponse V} (h : servePull db d cursor limit = .ok page) :
    ∃ record, db.device d = some record ∧
      page.events = ((pullRows db d record cursor).take (min limit 500)).map (·.event) ∧
      page.cursor = (((pullRows db d record cursor).take (min limit 500)).map
        (·.serverSeq)).getLastD cursor ∧
      page.hasMore = decide (min limit 500 < (pullRows db d record cursor).length) := by
  simp only [servePull, pull, authenticate, Except.bind_eq_ok, Except.okOr_eq_ok] at h
  obtain ⟨record, ⟨record', hrecord, hauth⟩, h⟩ := h
  split at hauth
  · cases hauth
  cases hauth
  cases h
  exact ⟨record, hrecord, rfl, rfl, rfl⟩

/-- The cursor of a page is the one asked for, or the number of the last row. -/
theorem pageCursor_cases (page : List (EventRow V)) (cursor : Int) :
    (page = [] ∧ (page.map (·.serverSeq)).getLastD cursor = cursor) ∨
      ∃ last, page.getLast? = some last ∧
        (page.map (·.serverSeq)).getLastD cursor = last.serverSeq := by
  cases hlast : page.getLast? with
  | none =>
    have hnil := List.getLast?_eq_none_iff.mp hlast
    exact .inl ⟨hnil, by rw [hnil]; rfl⟩
  | some last =>
    refine .inr ⟨last, rfl, ?_⟩
    rw [List.getLastD_eq_getLast?, List.getLast?_map, hlast]
    rfl

/-- A page reaches every committed row up to its cursor that was above the cursor asked for. -/
theorem servePull_reaches {s : Server V} {d : Uuid} {cursor : Int} {limit : Nat}
    {page : PullResponse V} (hinv : SeqInv s)
    (h : servePull s.db d cursor limit = .ok page) {row : EventRow V} (hrow : row ∈ s.db.table.rows)
    (hsibling : IsSibling s.db d row.event) (habove : cursor < row.serverSeq)
    (hbelow : row.serverSeq ≤ page.cursor) : row.event ∈ page.events := by
  obtain ⟨record, hrecord, hevents, hcursor, _⟩ := servePull_eq_ok h
  have hmem : row ∈ pullRows s.db d record cursor := by
    refine mem_pullRows.mpr ⟨hrow, ?_, hsibling.1, habove⟩
    have := hsibling.2
    rw [Db.outletOf, hrecord] at this
    exact (Option.some.inj this).symm
  rw [hevents]
  refine List.mem_map_of_mem ?_
  rcases pageCursor_cases ((pullRows s.db d record cursor).take (min limit 500)) cursor with
    ⟨_, hsame⟩ | ⟨last, hlast, hlastSeq⟩
  · -- an empty page leaves the cursor where it was
    exact absurd (hbelow.trans_eq (hcursor.trans hsame)) (not_le.mpr habove)
  · refine mem_take_of_le (pullRows_sorted _ _ _ _) (fun a ha b hb => ?_) hlast hmem
      (hbelow.trans_eq (hcursor.trans hlastSeq))
    exact hinv.inj a b (.inl (mem_pullRows.mp ha).1) (.inl (mem_pullRows.mp hb).1)

end Server

/-! ## Section 3: One device pulling -/

/-- The server, the pulling device's store, and the pages it was answered. -/
structure PullState (V : Type) where
  server : Server V
  store : EventStore V
  pages : List (PullResponse V)

namespace PullState

/-- A server that has stored nothing, and a device that has pulled nothing. -/
structure Fresh (s : PullState V) : Prop where
  server : s.server.Fresh
  store : s.store = EventStore.fresh s.store.deviceId
  pages : s.pages = []

inductive Action (V : Type) where
  /-- A push transaction moves. -/
  | server (action : Server.Action V)
  /-- The device records an event of its own. -/
  | record (event : EventEnvelope V)
  /-- A pull round asks for the page above the cursor. -/
  | request
  /-- An answered page is applied, now, late, or again. -/
  | apply (page : PullResponse V)
  /-- The device stops after some events of a page. -/
  | crash (page : PullResponse V) (n : Nat)

def step (digest : HashFunction V) (s : PullState V) : Action V → PullState V → Prop
  | .server action, s' => s'.store = s.store ∧ s'.pages = s.pages ∧
      Server.step digest s.server action s'.server
  | .record event, s' => event.deviceId = s.store.deviceId ∧
      ∃ store, s.store.append event = .ok store ∧ s' = { s with store }
  | .request, s' => ∃ page,
      Server.servePull s.server.db s.store.deviceId s.store.pullCursor pullPage = .ok page ∧
        s' = { s with pages := s.pages ++ [page] }
  | .apply page, s' => page ∈ s.pages ∧
      s' = { s with store := (s.store.applyPage digest page).state.2 }
  | .crash page n, s' => page ∈ s.pages ∧
      s' = { s with store :=
        (EventStore.applyEvents digest page.cursor (page.events.take n) 0 s.store).state.2 }

/-- An event of another device of this device's outlet. -/
def IsSibling (s : PullState V) (e : EventEnvelope V) : Prop :=
  Server.IsSibling s.server.db s.store.deviceId e

/-- The runs a pull is complete in. A pull reads no row numbered past one that an open push of a
    sibling holds, of an event the device does not have; an applied page shares no event id with
    an event of the device's own. -/
def PassesNone (s : PullState V) : Action V → Prop
  | .request => ∀ record, s.server.db.device s.store.deviceId = some record →
      ∀ row ∈ (Server.pullRows s.server.db s.store.deviceId record s.store.pullCursor).take pullPage,
        ∀ t txn, s.server.txns t = some txn → ∀ held ∈ txn.rows, s.IsSibling held.event →
          held.event ∉ s.store.events → row.serverSeq < held.serverSeq
  | .apply page => ∀ e ∈ page.events, ∀ a ∈ s.store.events, a.deviceId = s.store.deviceId →
      a.eventId ≠ e.eventId
  | _ => True

/-! ## Section 4: The invariant -/

/-- Every sibling row up to `cursor`, committed or not, has its event among `held`, and no row
    is still to be numbered there. -/
structure Covered (s : PullState V) (cursor : Int) (held : EventEnvelope V → Prop) : Prop where
  next : cursor < s.server.nextSeq
  rows : ∀ row, s.server.InPlay row → s.IsSibling row.event → row.serverSeq ≤ cursor →
    held row.event

structure Inv (s : PullState V) : Prop where
  seq : s.server.SeqInv
  store : s.Covered s.store.pullCursor (· ∈ s.store.events)
  pages : ∀ page ∈ s.pages,
    s.Covered page.cursor fun e => e ∈ s.store.events ∨ e ∈ page.events
  /-- What is not the device's own came from the server. -/
  remote : ∀ e ∈ s.store.events, e.deviceId ≠ s.store.deviceId → e ∈ s.server.db.table.events
  pulled : ∀ page ∈ s.pages, ∀ e ∈ page.events,
    e.deviceId ≠ s.store.deviceId ∧ e ∈ s.server.db.table.events

theorem Covered.mono {s s' : PullState V} {cursor : Int} {held held' : EventEnvelope V → Prop}
    (h : s.Covered cursor held) (hserver : s'.server = s.server)
    (hdevice : s'.store.deviceId = s.store.deviceId) (hheld : ∀ e, held e → held' e) :
    s'.Covered cursor held' where
  next := hserver ▸ h.next
  rows := fun row hrow hsibling hle => by
    rw [hserver] at hrow
    rw [IsSibling, hserver, hdevice] at hsibling
    exact hheld _ (h.rows row hrow hsibling hle)

/-- What a push transaction does keeps a cover: new rows are numbered above it. -/
theorem Covered.server {digest : HashFunction V} {s s' : PullState V} {cursor : Int}
    {held : EventEnvelope V → Prop} {a : Server.Action V} (h : s.Covered cursor held)
    (hstore : s'.store = s.store) (hstep : Server.step digest s.server a s'.server) :
    s'.Covered cursor held := by
  obtain ⟨houtlet, hplay⟩ := Server.step_inPlay hstep
  have hsibling : ∀ e, s'.IsSibling e → s.IsSibling e := by
    intro e he
    rw [IsSibling, Server.IsSibling, houtlet, hstore] at he
    exact he
  rcases hplay with ⟨hnext, hplay⟩ | ⟨hnext, e, hplay⟩
  · exact ⟨hnext ▸ h.next, fun row hrow hsib hle => h.rows row (hplay row hrow) (hsibling _ hsib) hle⟩
  · refine ⟨hnext ▸ h.next.trans (lt_add_one _), fun row hrow hsib hle => ?_⟩
    rcases hplay row hrow with hold | rfl
    · exact h.rows row hold (hsibling _ hsib) hle
    · exact absurd hle (not_le.mpr h.next)

theorem inv_fresh {s : PullState V} (h : Fresh s) : Inv s := by
  have hevents : s.store.events = [] := by
    rw [h.store]
    rfl
  have hcursor : s.store.pullCursor = 0 := by
    rw [h.store]
    rfl
  have hseq := Server.seqInv_fresh h.server
  refine ⟨hseq, ⟨?_, fun row hrow => ?_⟩, by simp [h.pages], by simp [hevents], by simp [h.pages]⟩
  · rw [hcursor, h.server.nextSeq]
    exact zero_lt_one
  · rcases hrow with hrow | ⟨t, txn, htxn, _⟩
    · simp [h.server.table] at hrow
    · simp [h.server.txns t] at htxn

theorem inv_server {digest : HashFunction V} {s s' : PullState V} {a : Server.Action V}
    (h : Inv s) (hstep : step digest s (.server a) s') : Inv s' := by
  obtain ⟨hstore, hpages, hserver⟩ := hstep
  refine ⟨Server.seqInv_step h.seq hserver, ?_, ?_, ?_, ?_⟩
  · rw [hstore]
    exact h.store.server hstore hserver
  · rw [hstore, hpages]
    exact fun page hpage => (h.pages page hpage).server hstore hserver
  · rw [hstore]
    exact fun e he hne => Server.step_events hserver (h.remote e he hne)
  · rw [hstore, hpages]
    exact fun page hpage e he => ⟨(h.pulled page hpage e he).1,
      Server.step_events hserver (h.pulled page hpage e he).2⟩

/-- The invariant when only the store changes, keeping its device and its events. -/
theorem Inv.of_store {s : PullState V} {store : EventStore V} (h : Inv s)
    (hdevice : store.deviceId = s.store.deviceId) (hgrows : ∀ e ∈ s.store.events, e ∈ store.events)
    (hnew : ∀ e ∈ store.events, e ∈ s.store.events ∨ e.deviceId = s.store.deviceId ∨
      e ∈ s.server.db.table.events)
    (hcovered : Covered { s with store } store.pullCursor (· ∈ store.events)) :
    Inv { s with store } where
  seq := h.seq
  store := hcovered
  pages := fun page hpage => (h.pages page hpage).mono rfl hdevice fun e => Or.imp_left (hgrows e)
  remote := fun e he hne => by
    rcases hnew e he with hold | hown | hstored
    · exact h.remote e hold (hdevice ▸ hne)
    · exact absurd (hown.trans hdevice.symm) hne
    · exact hstored
  pulled := fun page hpage e he => ⟨hdevice ▸ (h.pulled page hpage e he).1,
    (h.pulled page hpage e he).2⟩

theorem inv_record {digest : HashFunction V} {s s' : PullState V} {e : EventEnvelope V}
    (h : Inv s) (hstep : step digest s (.record e) s') : Inv s' := by
  obtain ⟨hdevice, store, happend, rfl⟩ := hstep
  have hevents := EventStore.append_events happend
  obtain ⟨_, _, hdeviceId, hcursor, _⟩ := EventStore.append_eq_ok happend
  refine h.of_store hdeviceId (fun a ha => ?_) (fun a ha => ?_) ?_
  · rw [hevents]
    exact List.mem_append_left _ ha
  · rw [hevents, List.mem_append, List.mem_singleton] at ha
    exact ha.imp_right fun ha => .inl (by rw [ha, hdevice])
  · rw [hcursor]
    refine h.store.mono rfl hdeviceId fun a ha => ?_
    rw [hevents]
    exact List.mem_append_left _ ha

theorem inv_request {digest : HashFunction V} {s s' : PullState V} (h : Inv s)
    (hguard : PassesNone s .request) (hstep : step digest s .request s') : Inv s' := by
  obtain ⟨page, hpull, rfl⟩ := hstep
  obtain ⟨record, hrecord, hevents, hcursor, _⟩ := Server.servePull_eq_ok hpull
  have hread : ∀ row ∈ (Server.pullRows s.server.db s.store.deviceId record
      s.store.pullCursor).take pullPage, row ∈ s.server.db.table.rows ∧
        row.event.deviceId ≠ s.store.deviceId := fun row hrow =>
    have hrow := Server.mem_pullRows.mp (List.mem_of_mem_take hrow)
    ⟨hrow.1, hrow.2.2.1⟩
  -- the new cursor is the old one, or the number of a row that was read
  have hcursorCases : page.cursor = s.store.pullCursor ∨ ∃ row ∈ (Server.pullRows s.server.db
      s.store.deviceId record s.store.pullCursor).take pullPage,
      page.cursor = row.serverSeq := by
    rcases Server.pageCursor_cases ((Server.pullRows s.server.db s.store.deviceId record
      s.store.pullCursor).take (min pullPage 500)) s.store.pullCursor with
      ⟨_, hsame⟩ | ⟨last, hlast, hlastSeq⟩
    · exact .inl (hcursor.trans hsame)
    · exact .inr ⟨last, List.mem_of_getLast? hlast, hcursor.trans hlastSeq⟩
  have hcovered : s.Covered page.cursor fun e => e ∈ s.store.events ∨ e ∈ page.events := by
    refine ⟨?_, fun row hrow hsibling hle => ?_⟩
    · rcases hcursorCases with heq | ⟨last, hlast, heq⟩
      · exact heq ▸ h.store.next
      · exact heq ▸ h.seq.below last (.inl (hread last hlast).1)
    rcases le_or_gt row.serverSeq s.store.pullCursor with hold | habove
    · exact .inl (h.store.rows row hrow hsibling hold)
    rcases hrow with hrow | ⟨t, txn, htxn, hrow⟩
    · exact .inr (Server.servePull_reaches h.seq hpull hrow hsibling habove hle)
    · -- an open row: the pull read nothing at or past its number
      refine .inl (by_contra fun hnot => ?_)
      rcases hcursorCases with heq | ⟨last, hlast, heq⟩
      · exact absurd (heq ▸ hle) (not_le.mpr habove)
      · exact absurd (heq ▸ hle)
          (not_le.mpr (hguard record hrecord last hlast t txn htxn row hrow hsibling hnot))
  refine ⟨h.seq, h.store.mono rfl rfl fun _ he => he, fun p hp => ?_, h.remote, fun p hp e he => ?_⟩
  · rcases List.mem_append.mp hp with hp | hp
    · exact (h.pages p hp).mono rfl rfl fun _ he => he
    · obtain rfl := List.mem_singleton.mp hp
      exact hcovered.mono rfl rfl fun _ he => he
  · rcases List.mem_append.mp hp with hp | hp
    · exact h.pulled p hp e he
    · obtain rfl := List.mem_singleton.mp hp
      rw [hevents] at he
      obtain ⟨row, hrow, rfl⟩ := List.mem_map.mp he
      exact ⟨(hread row hrow).2, List.mem_map_of_mem (hread row hrow).1⟩

/-- Under the condition on event ids, an event of a page shares a key with none but itself. -/
theorem sameKey_page {s : PullState V} {page : PullResponse V} (h : Inv s)
    (hguard : PassesNone s (.apply page)) (hpage : page ∈ s.pages) :
    ∀ a, a ∈ s.store.events ∨ a ∈ page.events → ∀ e ∈ page.events, SameKey a e → a = e := by
  intro a ha e he hkey
  obtain ⟨hsibling, hstored⟩ := h.pulled page hpage e he
  have hdistinct := s.server.db.table.distinct
  rcases ha with ha | ha
  · by_cases hown : a.deviceId = s.store.deviceId
    · rcases hkey with hid | ⟨hdevice, _⟩
      · exact absurd hid (hguard e he a ha hown)
      · exact absurd (hdevice.symm.trans hown) hsibling
    · exact hdistinct.sameKey (h.remote a ha hown) hstored hkey
  · exact hdistinct.sameKey (h.pulled page hpage a ha).2 hstored hkey

theorem inv_apply {digest : HashFunction V} {s s' : PullState V} {page : PullResponse V}
    (h : Inv s) (hguard : PassesNone s (.apply page)) (hstep : step digest s (.apply page) s') :
    Inv s' := by
  obtain ⟨hpage, rfl⟩ := hstep
  obtain ⟨store', happlied, hstore | ⟨hstore, hheld⟩⟩ :=
    EventStore.applyPage_cases digest s.store page
  all_goals
    have hnew : ∀ e ∈ store'.events, e ∈ s.store.events ∨ e.deviceId = s.store.deviceId ∨
        e ∈ s.server.db.table.events := fun e he =>
      (happlied.only e he).imp_right fun he => .inr (h.pulled page hpage e he).2
    rw [hstore]
  · refine h.of_store happlied.deviceId happlied.grows hnew ?_
    rw [happlied.pullCursor]
    exact h.store.mono rfl happlied.deviceId happlied.grows
  · refine h.of_store happlied.deviceId happlied.grows hnew ?_
    -- up to the old cursor the store held it; up to the page's the page brought it
    show Covered _ (max store'.pullCursor page.cursor) _
    rw [happlied.pullCursor]
    rcases max_choice s.store.pullCursor page.cursor with hmax | hmax
    · rw [hmax]
      exact h.store.mono rfl happlied.deviceId happlied.grows
    · rw [hmax]
      refine (h.pages page hpage).mono rfl happlied.deviceId fun e he => ?_
      exact he.elim (happlied.grows e) (hheld (sameKey_page h hguard hpage) e)

theorem inv_crash {digest : HashFunction V} {s s' : PullState V} {page : PullResponse V} {n : Nat}
    (h : Inv s) (hstep : step digest s (.crash page n) s') : Inv s' := by
  obtain ⟨hpage, rfl⟩ := hstep
  have happlied := EventStore.applyEvents_applied digest page.cursor (page.events.take n) 0 s.store
  refine h.of_store happlied.deviceId happlied.grows (fun e he => ?_) ?_
  · exact (happlied.only e he).imp_right fun he =>
      .inr (h.pulled page hpage e (List.mem_of_mem_take he)).2
  · rw [happlied.pullCursor]
    exact h.store.mono rfl happlied.deviceId happlied.grows

theorem inv_step {digest : HashFunction V} {s s' : PullState V} {a : Action V} (h : Inv s)
    (hstep : Transition.Guarded (step digest) PassesNone s a s') : Inv s' := by
  obtain ⟨hguard, hstep⟩ := hstep
  cases a with
  | server action => exact inv_server h hstep
  | record event => exact inv_record h hstep
  | request => exact inv_request h hguard hstep
  | apply page => exact inv_apply h hguard hstep
  | crash page n => exact inv_crash h hstep

/-! ## Section 5: Completeness -/

/-- What is covered stays covered, whatever runs next. -/
theorem Covered.run {digest : HashFunction V} {s s' : PullState V} {as : List (Action V)}
    {cursor : Int} {held : EventEnvelope V → Prop} (h : s.Covered cursor held)
    (hrun : Transition.Run (step digest) s as s') :
    s'.Covered cursor held ∧ (∀ e, s'.IsSibling e ↔ s.IsSibling e) := by
  refine hrun.invariant (I := fun s' => s'.Covered cursor held ∧
    (∀ e, s'.IsSibling e ↔ s.IsSibling e)) ?_ ⟨h, fun _ => Iff.rfl⟩
  rintro s₁ a s₂ ⟨hcovered, hsibling⟩ hstep
  -- a step of the device leaves the server, and which device it is
  have hdevice : ∀ store pages, s₂ = ⟨s₁.server, store, pages⟩ →
      store.deviceId = s₁.store.deviceId →
      s₂.Covered cursor held ∧ (∀ e, s₂.IsSibling e ↔ s.IsSibling e) := by
    rintro store pages rfl hdevice
    refine ⟨hcovered.mono rfl hdevice fun _ he => he, fun e => ?_⟩
    rw [← hsibling, IsSibling, IsSibling, hdevice]
  cases a with
  | server action =>
    obtain ⟨hstore, _, hserver⟩ := hstep
    refine ⟨hcovered.server hstore hserver, fun e => ?_⟩
    rw [← hsibling, IsSibling, IsSibling, Server.IsSibling, Server.IsSibling, hstore,
      (Server.step_inPlay hserver).1]
  | record event =>
    obtain ⟨_, store, happend, rfl⟩ := hstep
    exact hdevice _ _ rfl (EventStore.append_eq_ok happend).2.2.1
  | request =>
    obtain ⟨page, _, rfl⟩ := hstep
    exact hdevice _ _ rfl rfl
  | apply page =>
    obtain ⟨_, rfl⟩ := hstep
    obtain ⟨store', happlied, hstore | ⟨hstore, _⟩⟩ :=
      EventStore.applyPage_cases digest s₁.store page
    all_goals exact hdevice _ _ rfl (by rw [hstore]; exact happlied.deviceId)
  | crash page n =>
    obtain ⟨_, rfl⟩ := hstep
    exact hdevice _ _ rfl (EventStore.applyEvents_applied digest page.cursor _ 0 s₁.store).deviceId

/-- **Pull completeness**: in a run whose pulls pass no open push, the device holds every event
    of its siblings that is ever committed, then or later, at or below its cursor. -/
theorem pull_complete {digest : HashFunction V} {s s' : PullState V} {as : List (Action V)}
    (h : Transition.Reachable Fresh (Transition.Guarded (step digest) PassesNone) s)
    (hrun : Transition.Run (step digest) s as s') {row : EventRow V}
    (hrow : row ∈ s'.server.db.table.rows) (hsibling : s.IsSibling row.event)
    (hseq : row.serverSeq ≤ s.store.pullCursor) : row.event ∈ s.store.events := by
  have hinv : Inv s := h.invariant (I := Inv) (fun _ => inv_fresh) fun _ _ _ => inv_step
  obtain ⟨hcovered, hsame⟩ := hinv.store.run hrun
  exact hcovered.rows row (.inl hrow) ((hsame _).mpr hsibling) hseq

/-! ### Two pushes that commit out of order -/

/-- Till 4, about to pull from the three tills' server. -/
def idleTill : PullState Unit := ⟨Server.threeTills, EventStore.fresh 4, []⟩

theorem idleTill_fresh : Fresh idleTill := ⟨Server.threeTills_fresh, rfl, rfl⟩

def siblingEvent (d : Uuid) : EventEnvelope Unit := Server.idEvent d d 1 EventHash.genesis

/-- Tills 5 and 6 have each opened a push. -/
def openedPushes : Server Unit :=
  ((Server.threeTills.beginPush Server.idDigest 0 5 ⟨5, [siblingEvent 5]⟩).1.beginPush
    Server.idDigest 1 6 ⟨6, [siblingEvent 6]⟩).1

/-- Till 5 has inserted its event as 1, till 6 its own as 2; only till 6 has committed. -/
def outOfOrder : Server Unit := (((openedPushes.insertNext 0).1.insertNext 1).1.commit 1).1

/-- Till 4 has applied the page it was answered with then. -/
def pulledPast : PullState Unit :=
  let page : PullResponse Unit := ⟨[siblingEvent 6], 2, false⟩
  ⟨outOfOrder, ((EventStore.fresh 4).applyPage Server.idDigest page).state.2, [page]⟩

theorem pulledPast_reachable : Transition.Reachable Fresh (step Server.idDigest) pulledPast := by
  let Reaches := Transition.Reachable Fresh (step Server.idDigest)
  have hfirst : Reaches ⟨(Server.threeTills.beginPush Server.idDigest 0 5
      ⟨5, [siblingEvent 5]⟩).1, EventStore.fresh 4, []⟩ :=
    .step (.server (.beginPush 0 5 ⟨5, [siblingEvent 5]⟩)) (.init idleTill_fresh)
      ⟨rfl, rfl, rfl, rfl⟩
  have hopened : Reaches ⟨openedPushes, EventStore.fresh 4, []⟩ :=
    .step (.server (.beginPush 1 6 ⟨6, [siblingEvent 6]⟩)) hfirst ⟨rfl, rfl, rfl, rfl⟩
  have hone : Reaches ⟨(openedPushes.insertNext 0).1, EventStore.fresh 4, []⟩ :=
    .step (.server (.insertNext 0)) hopened ⟨rfl, rfl, rfl⟩
  have hboth : Reaches ⟨((openedPushes.insertNext 0).1.insertNext 1).1, EventStore.fresh 4, []⟩ :=
    .step (.server (.insertNext 1)) hone ⟨rfl, rfl, rfl⟩
  have hcommitted : Reaches ⟨outOfOrder, EventStore.fresh 4, []⟩ :=
    .step (.server (.commit 1)) hboth ⟨rfl, rfl, rfl⟩
  have hanswered : Reaches ⟨outOfOrder, EventStore.fresh 4, [⟨[siblingEvent 6], 2, false⟩]⟩ :=
    .step .request hcommitted ⟨_, rfl, rfl⟩
  exact .step (.apply _) hanswered ⟨List.mem_cons_self, rfl⟩

/-- Till 5 commits below the cursor of a till that has pulled past it. -/
theorem pull_incomplete : ¬ ∀ (s s' : PullState Unit) (as : List (Action Unit))
    (row : EventRow Unit), Transition.Reachable Fresh (step Server.idDigest) s →
      Transition.Run (step Server.idDigest) s as s' → row ∈ s'.server.db.table.rows →
        s.IsSibling row.event → row.serverSeq ≤ s.store.pullCursor →
          row.event ∈ s.store.events := by
  intro h
  have hstep : step Server.idDigest pulledPast (.server (.commit 0))
      ⟨(outOfOrder.commit 0).1, pulledPast.store, pulledPast.pages⟩ := ⟨rfl, rfl, rfl⟩
  have hheld := h _ _ _ ⟨siblingEvent 5, 1⟩ pulledPast_reachable (.cons _ _ hstep (.nil _))
    (by decide) ⟨by decide, by decide⟩ (by decide)
  exact absurd hheld (by decide)

/-- Till 6 alone has pushed, and till 4 has pulled. -/
def inOrder : Server Unit :=
  (((Server.threeTills.beginPush Server.idDigest 1 6 ⟨6, [siblingEvent 6]⟩).1.insertNext 1).1.commit
    1).1

def pulledAll : PullState Unit :=
  let page : PullResponse Unit := ⟨[siblingEvent 6], 1, false⟩
  ⟨inOrder, ((EventStore.fresh 4).applyPage Server.idDigest page).state.2, [page]⟩

theorem pulledAll_reachable : Transition.Reachable Fresh
    (Transition.Guarded (step Server.idDigest) PassesNone) pulledAll := by
  let Reaches := Transition.Reachable Fresh
    (Transition.Guarded (step Server.idDigest) PassesNone)
  have hopened : Reaches ⟨(Server.threeTills.beginPush Server.idDigest 1 6
      ⟨6, [siblingEvent 6]⟩).1, EventStore.fresh 4, []⟩ :=
    .step (.server (.beginPush 1 6 ⟨6, [siblingEvent 6]⟩)) (.init idleTill_fresh)
      ⟨trivial, rfl, rfl, rfl, rfl⟩
  have hinserted : Reaches ⟨((Server.threeTills.beginPush Server.idDigest 1 6
      ⟨6, [siblingEvent 6]⟩).1.insertNext 1).1, EventStore.fresh 4, []⟩ :=
    .step (.server (.insertNext 1)) hopened ⟨trivial, rfl, rfl, rfl⟩
  have hcommitted : Reaches ⟨inOrder, EventStore.fresh 4, []⟩ :=
    .step (.server (.commit 1)) hinserted ⟨trivial, rfl, rfl, rfl⟩
  -- nothing is in flight when the till asks
  have hnone : ∀ t, inOrder.txns t = none := by
    intro t
    show (if t = 1 then none else if t = 1 then _ else if t = 1 then _ else none) = none
    split <;> rfl
  have hanswered : Reaches ⟨inOrder, EventStore.fresh 4, [⟨[siblingEvent 6], 1, false⟩]⟩ := by
    refine .step .request hcommitted ⟨?_, _, rfl, rfl⟩
    intro record _ row _ t txn htxn
    rw [hnone t] at htxn
    cases htxn
  refine .step (.apply _) hanswered ⟨?_, List.mem_cons_self, rfl⟩
  intro e _ a ha
  cases ha

theorem pull_complete_pulledAll : siblingEvent 6 ∈ pulledAll.store.events := by
  have hrow : ⟨siblingEvent 6, 1⟩ ∈ pulledAll.server.db.table.rows := by decide
  exact pull_complete pulledAll_reachable (.nil _) hrow ⟨by decide, by decide⟩ (by decide)

end PullState

end Sahl
