import Mathlib.Tactic
import Sahl.Core.SaleCash

/-! # A book, sale by sale

    A stream of events interleaves the histories of many sales. The entry of a sale in the book a
    stream leads to depends on that sale's own events only, whether the stream is refused at the
    first event that does not apply (`replay_isOkay_iff`) or such events are skipped
    (`gather_get`). -/

namespace Sahl

namespace SaleBook

/-! ## Section 1: Two ways to read a stream -/

/-- Rebuild from a full event stream; an event that does not apply refuses the stream. -/
def replay (events : List SaleEvent) : Except SaleError SaleBook :=
  events.foldlM (fun book event => (book.apply event).toExcept) .new

/-- What a stream comes to where an event that does not apply is skipped. -/
def gather (events : List SaleEvent) : SaleBook :=
  events.foldl (fun book event => (book.apply event).state) .new

/-- The completed sales, in the order of their ids. -/
def completed (book : SaleBook) : List Sale :=
  (book.sales.toList.map (·.2)).filter (·.status = .completed)

theorem mem_completed {book : SaleBook} {sale : Sale} :
    sale ∈ book.completed ↔ ∃ saleId : Uuid, book.sales[saleId]? = some sale ∧
      sale.status = .completed := by
  simp only [completed, List.mem_filter, List.mem_map, decide_eq_true_eq]
  constructor
  · rintro ⟨⟨⟨saleId, _⟩, hmem, rfl⟩, hstatus⟩
    exact ⟨saleId, Std.ExtTreeMap.mem_toList_iff_getElem?_eq_some.mp hmem, hstatus⟩
  · rintro ⟨saleId, hsale, hstatus⟩
    exact ⟨⟨(saleId, sale), Std.ExtTreeMap.mem_toList_iff_getElem?_eq_some.mpr hsale, rfl⟩, hstatus⟩

/-! ## Section 2: The events of one sale -/

/-- The events of a stream that are about one sale. -/
def history (saleId : Uuid) (events : List SaleEvent) : List SaleEvent :=
  events.filter (·.saleId = saleId)

/-- The events of one sale, among those read from a log, are read from its own records. -/
theorem history_filterMap {α : Type} (f : α → Option SaleEvent) (saleId : Uuid) (xs : List α) :
    history saleId (xs.filterMap f) =
      (xs.filter fun x => (f x).any (·.saleId = saleId)).filterMap f := by
  unfold history
  induction xs with
  | nil => rfl
  | cons x xs ih =>
    cases hread : f x with
    | none => simp [hread, ih]
    | some event =>
      by_cases hid : event.saleId = saleId
      · simp [hread, hid, ih]
      · simp [hread, hid, ih]

/-- What an event leaves of the entry of its sale. -/
def entryLeft (event : SaleEvent) : Option Sale → Option Sale
  | some sale => some (sale.apply event).state
  | none => (Sale.replay [event]).toOption

/-- An event touches the entry of its own sale only. -/
theorem apply_get (book : SaleBook) (event : SaleEvent) (saleId : Uuid) :
    (book.apply event).state.sales[saleId]? =
      if event.saleId = saleId then entryLeft event book.sales[saleId]?
      else book.sales[saleId]? := by
  unfold apply
  -- the source inserts a sale under the id of its event, or changes the one that is there
  cases hsale : book.sales[event.saleId]? with
  | some sale =>
    show (book.sales.insert event.saleId _)[saleId]? = _
    rw [UuidMap.get_insert]
    by_cases hid : event.saleId = saleId
    · subst hid
      rw [if_pos rfl, if_pos rfl, hsale]
      rfl
    · rw [if_neg hid, if_neg hid]
  | none =>
    cases hopened : Sale.replay [event] with
    | error error =>
      show book.sales[saleId]? = _
      by_cases hid : event.saleId = saleId
      · subst hid
        rw [if_pos rfl, hsale, entryLeft, hopened]
        rfl
      · rw [if_neg hid]
    | ok sale =>
      show (book.sales.insert event.saleId sale)[saleId]? = _
      rw [UuidMap.get_insert]
      by_cases hid : event.saleId = saleId
      · subst hid
        rw [if_pos rfl, if_pos rfl, hsale, entryLeft, hopened]
        rfl
      · rw [if_neg hid, if_neg hid]

theorem foldl_get (events : List SaleEvent) (book : SaleBook) (saleId : Uuid) :
    (events.foldl (fun book event => (book.apply event).state) book).sales[saleId]? =
      (history saleId events).foldl (fun entry event => entryLeft event entry)
        book.sales[saleId]? := by
  induction events generalizing book with
  | nil => rfl
  | cons event events ih =>
    rw [List.foldl_cons, ih, apply_get]
    unfold history
    by_cases hid : event.saleId = saleId
    · rw [if_pos hid, List.filter_cons_of_pos (by simpa using hid), List.foldl_cons]
    · rw [if_neg hid, List.filter_cons_of_neg (by simpa using hid)]

/-- The entry of a sale is what its own events make of it. -/
theorem gather_get (events : List SaleEvent) (saleId : Uuid) :
    (gather events).sales[saleId]? =
      (history saleId events).foldl (fun entry event => entryLeft event entry) none := by
  refine (foldl_get events .new saleId).trans ?_
  simp [new]

/-- Streams that tell every sale the same story lead to the same book. -/
theorem gather_congr {xs ys : List SaleEvent} (h : ∀ saleId, history saleId xs = history saleId ys) :
    gather xs = gather ys := by
  have hsales : (gather xs).sales = (gather ys).sales := by
    refine Std.ExtTreeMap.ext_getElem? fun saleId => ?_
    rw [gather_get, gather_get, h saleId]
  exact congrArg SaleBook.mk hsales

/-! ## Section 3: Streams that apply throughout -/

/-- A stream that is not refused leads where it leads with nothing skipped. -/
theorem replay_eq_gather {events : List SaleEvent} {book : SaleBook}
    (h : replay events = .ok book) : book = gather events :=
  (foldlM_toExcept_eq_ok h).symm

/-- The history of one sale can be replayed: it is empty, or it opens the sale and goes on. -/
def Replays (events : List SaleEvent) : Prop := events = [] ∨ (Sale.replay events).isOkay

theorem entries_isOkay_iff (events : List SaleEvent) :
    (events.foldlM (fun entry event => (saleAfter event entry).map some) none).isOkay ↔
      Replays events := by
  cases events with
  | nil => exact ⟨fun _ => .inl rfl, fun _ => rfl⟩
  | cons first rest =>
    -- after the first event there is a sale, and the entry is only wrapped
    have hgo : ∀ sale : Sale,
        (rest.foldlM (fun entry event => (saleAfter event entry).map some) (some sale)).isOkay ↔
          (rest.foldlM (fun (sale : Sale) event => (sale.apply event).toExcept) sale).isOkay := by
      intro sale
      refine (foldlM_isOkay_view _ some (fun sale event entry => ?_) rest sale).symm
      show (saleAfter event (some sale)).map some = .ok entry ↔ _
      exact Except.map_eq_ok
    rw [foldlM_cons_isOkay, Replays, Sale.replay, Except.bind_isOkay]
    simp only [List.cons_ne_nil, false_or]
    constructor
    · rintro ⟨entry, hentry, hrest⟩
      obtain ⟨sale, hsale, rfl⟩ := Except.map_eq_ok.mp hentry
      obtain ⟨fresh, hfresh, hsame⟩ := Except.bind_eq_ok.mp hsale
      cases hsame
      exact ⟨_, hfresh, (hgo _).mp hrest⟩
    · rintro ⟨fresh, hfresh, hrest⟩
      refine ⟨some fresh, Except.map_eq_ok.mpr ⟨fresh, ?_, rfl⟩, (hgo fresh).mpr hrest⟩
      exact Except.bind_eq_ok.mpr ⟨fresh, hfresh, rfl⟩

/-- A stream applies throughout exactly when the history of every sale does. -/
theorem replay_isOkay_iff (events : List SaleEvent) :
    (replay events).isOkay ↔ ∀ saleId, Replays (history saleId events) := by
  have hview : ∀ (book : SaleBook) (event : SaleEvent) (sales : UuidMap Sale),
      book.sales.alterM event.saleId (saleAfter event) = .ok sales ↔
        ∃ book', (book.apply event).toExcept = .ok book' ∧ book'.sales = sales := by
    intro book event sales
    constructor
    · intro h
      exact ⟨⟨sales⟩, apply_eq_ok.mpr h, rfl⟩
    · rintro ⟨book', happly, rfl⟩
      exact apply_eq_ok.mp happly
  unfold replay
  rw [foldlM_isOkay_view (fun m event => UuidMap.alterM m event.saleId (saleAfter event))
    SaleBook.sales hview, UuidMap.foldlM_alterM_isOkay]
  refine forall_congr' fun saleId => ?_
  have hnone : (SaleBook.new.sales : UuidMap Sale)[saleId]? = none := by simp [new]
  rw [hnone]
  exact entries_isOkay_iff (history saleId events)

/-- What is left of a book where only some sales are told of. -/
theorem gather_filter {xs ys : List SaleEvent} {told : Uuid → Bool}
    (h : ∀ saleId, history saleId ys = if told saleId then history saleId xs else []) :
    gather ys = ⟨(gather xs).sales.filter fun saleId _ => told saleId⟩ := by
  have hsales : (gather ys).sales = (gather xs).sales.filter fun saleId _ => told saleId := by
    refine Std.ExtTreeMap.ext_getElem? fun saleId => ?_
    rw [Std.ExtTreeMap.getElem?_filter', gather_get, gather_get, h saleId]
    by_cases htold : told saleId
    · rw [if_pos htold, htold]
      have hall : ∀ entry : Option Sale, entry = entry.filter fun _ => true := by
        intro entry
        cases entry <;> rfl
      exact hall _
    · simp [htold]
  exact congrArg SaleBook.mk hsales

/-! ## Section 4: Openings and ids -/

end SaleBook

/-- The event that starts a sale. -/
def SaleEvent.isOpening : SaleEvent → Bool
  | opened .. => true
  | _ => false

namespace Sale

theorem opened_id {event : SaleEvent} {sale : Sale} (h : opened event = .ok sale) :
    event.isOpening ∧ sale.id = event.saleId := by
  cases event with
  | «opened» =>
    cases h
    exact ⟨rfl, rfl⟩
  | _ => cases h

/-- A sale that is open already cannot be opened. -/
theorem apply_opening {sale sale' : Sale} {event : SaleEvent}
    (h : (sale.apply event).toExcept = .ok sale') : event.isOpening = false := by
  cases event with
  | «opened» =>
    unfold apply at h
    split at h
    · cases h
    · split at h
      all_goals cases h
  | _ => rfl

/-- A history that replays opens its sale first, and once. -/
theorem replay_opening {events : List SaleEvent} (h : (replay events).isOkay) :
    ∃ first rest, events = first :: rest ∧ first.isOpening ∧
      ∀ event ∈ rest, event.isOpening = false := by
  obtain ⟨sale, hsale⟩ := Except.isOkay_iff.mp h
  cases events with
  | nil => cases hsale
  | cons first rest =>
    obtain ⟨fresh, hfresh, hrest⟩ := Except.bind_eq_ok.mp hsale
    refine ⟨first, rest, rfl, (opened_id hfresh).1, ?_⟩
    refine foldlM_invariant (fun seen (_ : Sale) => ∀ event ∈ seen, event.isOpening = false)
      (fun seen s event s' hseen hstep => ?_) (fun _ hnil => absurd hnil List.not_mem_nil) hrest
    intro e he
    rcases List.mem_append.mp he with he | he
    · exact hseen e he
    · rw [List.mem_singleton.mp he]
      exact apply_opening hstep

/-- No transition moves a sale to another id. -/
theorem transition_id {sale sale' : Sale} {event : SaleEvent}
    (h : sale.transition event = .ok sale') : sale'.id = sale.id := by
  cases transition_moved h with
  | completed hcomplete => rw [(complete_eq_ok hcomplete).2.2.2.2]
  | _ => rfl

theorem apply_id (sale : Sale) (event : SaleEvent) : (sale.apply event).state.id = sale.id := by
  rcases sale.apply_state event with hsame | ⟨-, -, hmoved⟩
  · rw [hsame]
  · exact transition_id hmoved

end Sale

namespace SaleBook

/-- Every sale is filed under its own id. -/
theorem gather_id {events : List SaleEvent} {saleId : Uuid} {sale : Sale}
    (h : (gather events).sales[saleId]? = some sale) : sale.id = saleId := by
  rw [gather_get] at h
  -- over the history of one id, from an entry that is missing or has it
  have hkeep : ∀ (es : List SaleEvent) (entry : Option Sale),
      (∀ event ∈ es, event.saleId = saleId) → (∀ s, entry = some s → s.id = saleId) →
      ∀ s, es.foldl (fun entry event => entryLeft event entry) entry = some s → s.id = saleId := by
    intro es
    induction es with
    | nil => exact fun entry _ hentry => hentry
    | cons event es ih =>
      intro entry hevents hentry
      refine ih (entryLeft event entry) (fun e he => hevents e (List.mem_cons_of_mem _ he)) ?_
      intro s hs
      cases entry with
      | some before =>
        cases hs
        exact (before.apply_id event).trans (hentry before rfl)
      | none =>
        obtain ⟨fresh, hfresh, hsame⟩ := Except.bind_eq_ok.mp (Except.toOption_eq_some.mp hs)
        cases hsame
        exact (Sale.opened_id hfresh).2.trans (hevents event List.mem_cons_self)
  refine hkeep (history saleId events) none (fun event he => ?_) (fun _ hnone => ?_) sale h
  · simpa [history] using (List.mem_filter.mp he).2
  · cases hnone

/-- A sale that nothing was told of is not in the book. -/
theorem gather_none {events : List SaleEvent} {saleId : Uuid} (h : history saleId events = []) :
    (gather events).sales[saleId]? = none := by
  rw [gather_get, h]
  rfl

/-! ## Section 5: Two books compared -/

/-- The sales of a book that stand in another one just so. -/
def shared (book other : SaleBook) : SaleBook :=
  ⟨book.sales.filter fun saleId sale => decide (other.sales[saleId]? = some sale)⟩

/-- The sales of a book that are missing from another one, or stand otherwise there. -/
def besides (book other : SaleBook) : SaleBook :=
  ⟨book.sales.filter fun saleId sale => decide (other.sales[saleId]? ≠ some sale)⟩

@[simp] theorem shared_get {book other : SaleBook} {saleId : Uuid} {sale : Sale} :
    (book.shared other).sales[saleId]? = some sale ↔
      book.sales[saleId]? = some sale ∧ other.sales[saleId]? = some sale := by
  rw [shared, Std.ExtTreeMap.getElem?_filter', Option.filter_eq_some_iff]
  simp

@[simp] theorem besides_get {book other : SaleBook} {saleId : Uuid} {sale : Sale} :
    (book.besides other).sales[saleId]? = some sale ↔
      book.sales[saleId]? = some sale ∧ other.sales[saleId]? ≠ some sale := by
  rw [besides, Std.ExtTreeMap.getElem?_filter', Option.filter_eq_some_iff]
  simp

theorem shared_comm (book other : SaleBook) : book.shared other = other.shared book := by
  have hsales : (book.shared other).sales = (other.shared book).sales := by
    refine Std.ExtTreeMap.ext_getElem? fun saleId => Option.ext fun sale => ?_
    rw [shared_get, shared_get, and_comm]
  exact congrArg SaleBook.mk hsales

/-- A book lists what it shares with another one, and what it has besides. -/
theorem completed_perm (book other : SaleBook) :
    book.completed.Perm ((book.shared other).completed ++ (book.besides other).completed) := by
  have hlists := @UuidMap.toList_perm_flatMap Sale book.sales
    [(book.shared other).sales, (book.besides other).sales] ?_ ?_
  · unfold completed
    rw [← List.filter_append, ← List.map_append]
    refine ((hlists.trans (.of_eq ?_)).map _).filter _
    simp
  · refine List.pairwise_pair.mpr fun saleId hshared => ?_
    obtain ⟨sale, hsale⟩ := Option.isSome_iff_exists.mp hshared
    refine Option.eq_none_iff_forall_ne_some.mpr fun other' hbesides => ?_
    obtain ⟨hbook, hother⟩ := shared_get.mp hsale
    obtain ⟨hbook', hmissing⟩ := besides_get.mp hbesides
    rw [hbook] at hbook'
    cases hbook'
    exact hmissing hother
  · intro saleId sale
    simp only [List.mem_cons, List.not_mem_nil, or_false, exists_eq_or_imp, exists_eq_left,
      shared_get, besides_get]
    tauto

/-! ## Section 6: Interleavings -/

/-- A stream tells the story of every sale, each in its own order. -/
def Interleaves (story : Uuid → List SaleEvent) (events : List SaleEvent) : Prop :=
  ∀ saleId, history saleId events = story saleId

/-- Steps after the opening move the entry as they move the sale. -/
theorem foldl_entryLeft_some (events : List SaleEvent) (sale : Sale) :
    events.foldl (fun entry event => entryLeft event entry) (some sale) =
      some (events.foldl (fun sale event => (sale.apply event).state) sale) := by
  induction events generalizing sale with
  | nil => rfl
  | cons event events ih => exact ih _

/-- A story that replays ends as the entry it makes. -/
theorem entry_of_replay {events : List SaleEvent} {sale : Sale}
    (h : Sale.replay events = .ok sale) :
    events.foldl (fun entry event => entryLeft event entry) none = some sale := by
  cases events with
  | nil => cases h
  | cons first rest =>
    obtain ⟨fresh, hfresh, hrest⟩ := Except.bind_eq_ok.mp h
    have hentry : entryLeft first none = some fresh :=
      Except.toOption_eq_some.mpr (Except.bind_eq_ok.mpr ⟨fresh, hfresh, rfl⟩)
    rw [List.foldl_cons, hentry, foldl_entryLeft_some, foldlM_toExcept_eq_ok hrest]

/-- The book a stream replays to holds, for each sale, what the sale's own events replay to. -/
theorem replay_get {events : List SaleEvent} {book : SaleBook} (h : replay events = .ok book)
    (saleId : Uuid) (sale : Sale) :
    book.sales[saleId]? = some sale ↔ Sale.replay (history saleId events) = .ok sale := by
  rw [replay_eq_gather h, gather_get]
  have hreplays : Replays (history saleId events) :=
    (replay_isOkay_iff events).mp (Except.isOkay_iff.mpr ⟨book, h⟩) saleId
  rcases hreplays with hnil | hokay
  · rw [hnil]
    exact iff_of_false nofun nofun
  · obtain ⟨last, hlast⟩ := Except.isOkay_iff.mp hokay
    rw [entry_of_replay hlast, hlast, Option.some.injEq, Except.ok.injEq]

/-- Two streams that tell one story are taken or refused alike, and lead to one book. -/
theorem replay_congr {xs ys : List SaleEvent}
    (h : ∀ saleId, history saleId xs = history saleId ys) {book : SaleBook}
    (hbook : replay xs = .ok book) : replay ys = .ok book := by
  have hokay : (replay ys).isOkay := by
    refine (replay_isOkay_iff ys).mpr fun saleId => ?_
    rw [← h saleId]
    exact (replay_isOkay_iff xs).mp (Except.isOkay_iff.mpr ⟨book, hbook⟩) saleId
  obtain ⟨other, hother⟩ := Except.isOkay_iff.mp hokay
  rw [hother, replay_eq_gather hother, replay_eq_gather hbook, gather_congr h]

/-- A refused event leaves every other sale as it was. -/
theorem apply_refused_get {book : SaleBook} {event : SaleEvent} {saleId : Uuid}
    (hother : saleId ≠ event.saleId) :
    (book.apply event).state.sales[saleId]? = book.sales[saleId]? := by
  rw [apply_get, if_neg hother.symm]

/-- **Interleavings**: streams that tell one story are taken or refused alike and lead to one
    book, which holds for each sale what its own events replay to; and an event that is refused
    leaves every other sale untouched. -/
theorem replay_interleaved (story : Uuid → List SaleEvent) :
    (∀ {xs ys : List SaleEvent}, Interleaves story xs → Interleaves story ys →
      ((replay xs).isOkay ↔ (replay ys).isOkay) ∧
        (∀ book, replay xs = .ok book → replay ys = .ok book) ∧
        ∀ book, replay xs = .ok book → ∀ (saleId : Uuid) (sale : Sale),
          book.sales[saleId]? = some sale ↔ Sale.replay (story saleId) = .ok sale) ∧
    ∀ (book : SaleBook) (event : SaleEvent) (error : SaleError),
      (book.apply event).answer = .error error → ∀ saleId ≠ event.saleId,
        (book.apply event).state.sales[saleId]? = book.sales[saleId]? := by
  refine ⟨fun {xs ys} hxs hys => ⟨?_, fun book hbook => ?_, fun book hbook saleId sale => ?_⟩,
    fun book event error _ saleId hother => apply_refused_get hother⟩
  · rw [replay_isOkay_iff, replay_isOkay_iff]
    refine forall_congr' fun saleId => ?_
    rw [hxs saleId, hys saleId]
  · exact replay_congr (fun saleId => (hxs saleId).trans (hys saleId).symm) hbook
  · rw [replay_get hbook, hxs saleId]

/-! ### Two tickets -/

/-- Two tickets are opened and the first is given up. -/
def twoTickets : List SaleEvent :=
  [.opened 1 9 .bdt .taxInclusive .halfUp, .opened 2 9 .bdt .taxInclusive .halfUp, .abandoned 1 9]

/-- The same, with the second ticket opened first. -/
def twoTicketsTurned : List SaleEvent :=
  [.opened 2 9 .bdt .taxInclusive .halfUp, .opened 1 9 .bdt .taxInclusive .halfUp, .abandoned 1 9]

theorem twoTickets_interleaves :
    Interleaves (history · twoTickets) twoTickets ∧
      Interleaves (history · twoTickets) twoTicketsTurned := by
  refine ⟨fun saleId => rfl, fun saleId => ?_⟩
  by_cases h1 : (1 : Uuid) = saleId
  · subst h1
    decide
  · by_cases h2 : (2 : Uuid) = saleId
    · subst h2
      decide
    · simp [history, twoTickets, twoTicketsTurned, SaleEvent.saleId, h1, h2]

theorem replay_interleaved_twoTickets :
    (replay twoTickets).isOkay ∧ replay twoTickets = replay twoTicketsTurned ∧
      ((gather twoTickets).apply (.abandoned 1 9)).state.sales[(2 : Uuid)]? =
        (gather twoTickets).sales[(2 : Uuid)]? := by
  obtain ⟨hsame, hrefused⟩ := replay_interleaved (history · twoTickets)
  obtain ⟨-, hbook, -⟩ := hsame twoTickets_interleaves.1 twoTickets_interleaves.2
  have hokay : (replay twoTickets).isOkay := by decide
  obtain ⟨book, hreplay⟩ := Except.isOkay_iff.mp hokay
  refine ⟨hokay, hreplay.trans (hbook book hreplay).symm, ?_⟩
  have hanswer : ∃ error, ((gather twoTickets).apply (.abandoned 1 9)).answer = .error error :=
    ⟨_, rfl⟩
  obtain ⟨error, hanswer⟩ := hanswer
  exact hrefused _ _ error hanswer 2 (by decide)

end SaleBook

end Sahl
