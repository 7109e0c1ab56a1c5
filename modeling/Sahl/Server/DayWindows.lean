import Mathlib.Tactic
import Sahl.Server.Reports
import Sahl.Terminal.OwnLog

/-! # Splitting the time line

    Reports over windows that split the time line should count every completed sale once. They do
    where no sale is cut by a boundary, and only there (`countsOnce_iff`): what is left of a cut
    sale does not begin with its opening, and the window it falls in is not reported at all. -/

namespace Sahl

/-! ## Section 1: Windows -/

/-- Windows that split the time line: every instant is in one of them, and no instant in two. -/
structure Splits (windows : List DayWindow) : Prop where
  disjoint : windows.Pairwise fun v w => ∀ at', v.covers at' → ¬ w.covers at'
  covering : ∀ at', ∃ w ∈ windows, w.covers at'

theorem Splits.length_filter {windows : List DayWindow} (h : Splits windows) (at' : Timestamp) :
    (windows.filter (·.covers at')).length = 1 := by
  obtain ⟨w, hw, hcovers⟩ := h.covering at'
  have hmem : w ∈ windows.filter (·.covers at') := List.mem_filter.mpr ⟨hw, hcovers⟩
  match hfilter : windows.filter (·.covers at') with
  | [] => simp [hfilter] at hmem
  | [_] => rw [hfilter, List.length_singleton]
  | a :: b :: rest =>
    -- two windows of the list share the instant
    have hpair := h.disjoint.filter (·.covers at')
    rw [hfilter, List.pairwise_cons] at hpair
    have hmemOf : ∀ v ∈ a :: b :: rest, v.covers at' := by
      intro v hv
      rw [← hfilter] at hv
      exact (List.mem_filter.mp hv).2
    have ha : a.covers at' := hmemOf a (by simp)
    have hb : b.covers at' := hmemOf b (by simp)
    exact absurd hb (hpair.1 b List.mem_cons_self at' ha)

namespace Db

variable {db : Db Payload} {outlet : Uuid} {windows : List DayWindow}

/-- The completed sales a report counts. -/
def counted (db : Db Payload) (outlet : Uuid) (window : DayWindow) : List Sale :=
  match SaleBook.replay (db.saleEvents outlet window) with
  | .ok book => book.completed
  | .error _ => []

/-- Every window is reported, every completed sale is counted in one of them, and the figures of
    the windows add up to those of the whole time. -/
structure CountsOnce (db : Db Payload) (outlet : Uuid) (windows : List DayWindow) : Prop where
  answered : ∀ w ∈ windows, (db.day outlet w).isOkay
  once : ∀ sale ∈ db.counted outlet .unbounded,
    (windows.filter fun w => sale ∈ db.counted outlet w).length = 1
  sums : ∀ reports whole, windows.mapM (db.day outlet) = .ok reports →
    db.day outlet .unbounded = .ok whole → ∀ figure,
      (reports.map (·.day.figure figure)).sum = whole.day.figure figure

/-! ## Section 2: Sales that no boundary cuts -/

/-- The events of a sale with their times, in the order a report reads them. -/
def timedOf (db : Db Payload) (outlet saleId : Uuid) : List (Timestamp × SaleEvent) :=
  (db.timed outlet).filter (·.2.saleId = saleId)

/-- A window has all the events of a sale. -/
def holds (db : Db Payload) (outlet : Uuid) (window : DayWindow) (saleId : Uuid) : Bool :=
  (db.timedOf outlet saleId).all (window.covers ·.1)

/-- No sale has events in two windows. -/
def Uncut (db : Db Payload) (outlet : Uuid) (windows : List DayWindow) : Prop :=
  ∀ w ∈ windows, ∀ a ∈ db.timed outlet, ∀ b ∈ db.timed outlet, a.2.saleId = b.2.saleId →
    w.covers a.1 → w.covers b.1

/-- The sales of the whole time that have all their events in a window. -/
def within (db : Db Payload) (outlet : Uuid) (window : DayWindow) : SaleBook :=
  ⟨(SaleBook.gather (db.saleEvents outlet .unbounded)).sales.filter
    fun saleId _ => db.holds outlet window saleId⟩

theorem mem_timedOf {saleId : Uuid} {timed : Timestamp × SaleEvent} :
    timed ∈ db.timedOf outlet saleId ↔ timed ∈ db.timed outlet ∧ timed.2.saleId = saleId := by
  rw [timedOf, List.mem_filter, decide_eq_true_eq]

theorem history_unbounded (db : Db Payload) (outlet saleId : Uuid) :
    SaleBook.history saleId (db.saleEvents outlet .unbounded) =
      (db.timedOf outlet saleId).map (·.2) := by
  rw [history_window]
  refine congrArg _ (List.filter_eq_self.mpr fun timed _ => ?_)
  exact DayWindow.unbounded_covers timed.1

/-- A window tells all of the story of a sale that is not cut, or nothing of it. -/
theorem Uncut.history (h : db.Uncut outlet windows) {w : DayWindow} (hw : w ∈ windows)
    (saleId : Uuid) :
    SaleBook.history saleId (db.saleEvents outlet w) =
      if db.holds outlet w saleId then
        SaleBook.history saleId (db.saleEvents outlet .unbounded)
      else [] := by
  rw [history_window, history_unbounded]
  show ((db.timedOf outlet saleId).filter (w.covers ·.1)).map (·.2) = _
  by_cases hall : db.holds outlet w saleId
  · rw [if_pos hall, List.filter_eq_self.mpr (List.all_eq_true.mp hall)]
  · rw [if_neg hall, List.filter_eq_nil_iff.mpr, List.map_nil]
    intro a ha hcovers
    refine hall (List.all_eq_true.mpr fun b hb => ?_)
    obtain ⟨hmemA, hidA⟩ := mem_timedOf.mp ha
    obtain ⟨hmemB, hidB⟩ := mem_timedOf.mp hb
    exact h w hw a hmemA b hmemB (hidA.trans hidB.symm) hcovers

/-- What a window replays to, where no sale is cut. -/
theorem Uncut.replay (h : db.Uncut outlet windows)
    (hvalid : (SaleBook.replay (db.saleEvents outlet .unbounded)).isOkay) {w : DayWindow}
    (hw : w ∈ windows) :
    SaleBook.replay (db.saleEvents outlet w) = .ok (db.within outlet w) := by
  have hokay : (SaleBook.replay (db.saleEvents outlet w)).isOkay := by
    rw [SaleBook.replay_isOkay_iff]
    intro saleId
    rw [h.history hw saleId]
    split
    · exact (SaleBook.replay_isOkay_iff _).mp hvalid saleId
    · exact .inl rfl
  obtain ⟨book, hbook⟩ := Except.isOkay_iff.mp hokay
  rw [hbook, SaleBook.replay_eq_gather hbook, SaleBook.gather_filter (h.history hw)]
  rfl

theorem counted_of_replay {window : DayWindow} {book : SaleBook}
    (h : SaleBook.replay (db.saleEvents outlet window) = .ok book) :
    db.counted outlet window = book.completed := by
  rw [counted, h]

/-- A sale of the book has an event. -/
theorem exists_timedOf {saleId : Uuid} {sale : Sale}
    (h : (SaleBook.gather (db.saleEvents outlet .unbounded)).sales[saleId]? = some sale) :
    ∃ timed, timed ∈ db.timedOf outlet saleId := by
  by_contra hnone
  have hnil : db.timedOf outlet saleId = [] :=
    List.eq_nil_iff_forall_not_mem.mpr fun timed hmem => hnone ⟨timed, hmem⟩
  have hhistory := history_unbounded db outlet saleId
  rw [hnil, List.map_nil] at hhistory
  rw [SaleBook.gather_none hhistory] at h
  cases h

/-- The sales of the whole time are the sales of the windows. -/
theorem Uncut.counted_perm (hsplit : Splits windows) (h : db.Uncut outlet windows)
    (hvalid : (SaleBook.replay (db.saleEvents outlet .unbounded)).isOkay) :
    (db.counted outlet .unbounded).Perm (windows.flatMap (db.counted outlet)) := by
  obtain ⟨whole, hwhole⟩ := Except.isOkay_iff.mp hvalid
  have hpieces : windows.flatMap (db.counted outlet) =
      windows.flatMap fun w => (db.within outlet w).completed :=
    List.flatMap_congr fun w hw => counted_of_replay (h.replay hvalid hw)
  rw [hpieces, counted_of_replay hwhole, SaleBook.replay_eq_gather hwhole]
  -- windows that cut no sale deal the sales out, each to the one window that covers it
  have hentries : (SaleBook.gather (db.saleEvents outlet .unbounded)).sales.toList.Perm
      ((windows.map fun w => (db.within outlet w).sales).flatMap (·.toList)) := by
    refine UuidMap.toList_perm_flatMap ?_ ?_
    · refine List.pairwise_map.mpr (hsplit.disjoint.imp fun {v w} hdisjoint saleId hsome => ?_)
      simp only [within, Std.ExtTreeMap.getElem?_filter'] at hsome ⊢
      obtain ⟨sale, hsale⟩ := Option.isSome_iff_exists.mp hsome
      obtain ⟨hsale, hholds⟩ := Option.filter_eq_some_iff.mp hsale
      -- an event of the sale lies in one window only
      obtain ⟨timed, htimed⟩ := exists_timedOf hsale
      have hv := List.all_eq_true.mp hholds timed htimed
      rw [Option.filter_eq_none_iff]
      intro _ _ hholds'
      exact hdisjoint timed.1 hv (List.all_eq_true.mp hholds' timed htimed)
    · intro saleId sale
      constructor
      · intro hsale
        obtain ⟨timed, htimed⟩ := exists_timedOf hsale
        obtain ⟨w, hw, hcovers⟩ := hsplit.covering timed.1
        refine ⟨_, List.mem_map_of_mem hw, ?_⟩
        simp only [within, Std.ExtTreeMap.getElem?_filter']
        refine Option.filter_eq_some_iff.mpr ⟨hsale, List.all_eq_true.mpr fun other hother => ?_⟩
        obtain ⟨hmem, hid⟩ := mem_timedOf.mp htimed
        obtain ⟨hmem', hid'⟩ := mem_timedOf.mp hother
        exact h w hw timed hmem other hmem' (hid.trans hid'.symm) hcovers
      · rintro ⟨piece, hpiece, hsale⟩
        obtain ⟨w, -, rfl⟩ := List.mem_map.mp hpiece
        simp only [within, Std.ExtTreeMap.getElem?_filter'] at hsale
        exact (Option.filter_eq_some_iff.mp hsale).1
  unfold SaleBook.completed
  refine ((hentries.map _).filter _).trans (.of_eq ?_)
  rw [List.flatMap_map, List.map_flatMap, List.filter_flatMap]

/-! ## Section 3: Reports on the windows -/

/-- A sale that is not cut is counted in the window its first event is in. -/
theorem Uncut.counted_once (hsplit : Splits windows) (h : db.Uncut outlet windows)
    (hvalid : (SaleBook.replay (db.saleEvents outlet .unbounded)).isOkay) {sale : Sale}
    (hsale : sale ∈ db.counted outlet .unbounded) :
    (windows.filter fun w => sale ∈ db.counted outlet w).length = 1 := by
  obtain ⟨w, hw, hcounted⟩ := List.mem_flatMap.mp ((h.counted_perm hsplit hvalid).mem_iff.mp hsale)
  -- the window that counts the sale holds an event of it
  have hmem : ∀ v ∈ windows, sale ∈ db.counted outlet v ↔
      db.holds outlet v sale.id ∧ sale ∈ db.counted outlet .unbounded := by
    intro v hv
    obtain ⟨whole, hwhole⟩ := Except.isOkay_iff.mp hvalid
    rw [counted_of_replay (h.replay hvalid hv), counted_of_replay hwhole,
      SaleBook.replay_eq_gather hwhole, SaleBook.mem_completed, SaleBook.mem_completed]
    simp only [within, Std.ExtTreeMap.getElem?_filter', Option.filter_eq_some_iff]
    constructor
    · rintro ⟨saleId, ⟨hentry, hholds⟩, hstatus⟩
      have hid := SaleBook.gather_id hentry
      subst hid
      exact ⟨hholds, _, hentry, hstatus⟩
    · rintro ⟨hholds, saleId, hentry, hstatus⟩
      have hid := SaleBook.gather_id hentry
      subst hid
      exact ⟨_, ⟨hentry, hholds⟩, hstatus⟩
  obtain ⟨timed, htimed⟩ : ∃ timed, timed ∈ db.timedOf outlet sale.id := by
    obtain ⟨whole, hwhole⟩ := Except.isOkay_iff.mp hvalid
    rw [counted_of_replay hwhole, SaleBook.replay_eq_gather hwhole] at hsale
    obtain ⟨saleId, hentry, -⟩ := SaleBook.mem_completed.mp hsale
    have hid := SaleBook.gather_id hentry
    subst hid
    exact exists_timedOf hentry
  rw [← hsplit.length_filter timed.1]
  refine congrArg _ (List.filter_congr fun v hv => ?_)
  refine Bool.eq_iff_iff.mpr ?_
  rw [decide_eq_true_eq, hmem v hv, and_iff_left hsale]
  constructor
  · exact fun hholds => List.all_eq_true.mp hholds timed htimed
  · intro hcovers
    refine List.all_eq_true.mpr fun other hother => ?_
    obtain ⟨hmemA, hidA⟩ := mem_timedOf.mp htimed
    obtain ⟨hmemB, hidB⟩ := mem_timedOf.mp hother
    exact h v hv timed hmemA other hmemB (hidA.trans hidB.symm) hcovers

theorem day_figure {window : DayWindow} {report : DayReport}
    (h : db.day outlet window = .ok report) (figure : Day.Figure) :
    report.day.figure figure = ((db.counted outlet window).map figure.ofSale).sum := by
  obtain ⟨book, hbook, hday⟩ := day_eq_ok.mp ⟨report, h, rfl⟩
  rw [counted_of_replay hbook]
  exact Day.ofOwnCurrency_figure hday figure

/-- Reports that are all answered add up the sales of all windows. -/
theorem mapM_day_figure {reports : List DayReport} (h : windows.mapM (db.day outlet) = .ok reports)
    (figure : Day.Figure) :
    (reports.map (·.day.figure figure)).sum =
      ((windows.flatMap (db.counted outlet)).map figure.ofSale).sum := by
  have hall := mapM_eq_ok.mp h
  clear h
  induction hall with
  | nil => rfl
  | cons hday _ ih =>
    rw [List.map_cons, List.sum_cons, ih, List.flatMap_cons, List.map_append, List.sum_append,
      day_figure hday]

/-- Windows that are all answered cut no sale: what is left of one would not begin with its
    opening. -/
theorem uncut_of_answered (hsplit : Splits windows)
    (hvalid : (SaleBook.replay (db.saleEvents outlet .unbounded)).isOkay)
    (h : ∀ w ∈ windows, (db.day outlet w).isOkay) : db.Uncut outlet windows := by
  intro w hw a ha b hb hid hcovers
  obtain ⟨v, hv, hcoversB⟩ := hsplit.covering b.1
  -- in each of the two windows the sale is opened
  have hopened : ∀ u ∈ windows, ∀ timed ∈ db.timedOf outlet a.2.saleId, u.covers timed.1 →
      ∃ first ∈ db.timedOf outlet a.2.saleId, first.2.isOpening ∧ u.covers first.1 := by
    intro u hu timed htimed hcoversU
    obtain ⟨book, hbook, -⟩ := day_isOkay.mp (h u hu)
    have hreplays := (SaleBook.replay_isOkay_iff _).mp (Except.isOkay_iff.mpr ⟨book, hbook⟩)
      a.2.saleId
    rw [history_window] at hreplays
    have hmem : timed ∈ (db.timedOf outlet a.2.saleId).filter (u.covers ·.1) :=
      List.mem_filter.mpr ⟨htimed, hcoversU⟩
    rcases hreplays with hnil | hokay
    · rw [List.map_eq_nil_iff] at hnil
      have hmem' : timed ∈ ([] : List (Timestamp × SaleEvent)) := hnil ▸ hmem
      cases hmem'
    · obtain ⟨first, rest, hevents, hopening, -⟩ := Sale.replay_opening hokay
      have hfirst : first ∈ ((db.timedOf outlet a.2.saleId).filter (u.covers ·.1)).map (·.2) := by
        show first ∈ (((db.timed outlet).filter (·.2.saleId = a.2.saleId)).filter
          (u.covers ·.1)).map (·.2)
        rw [hevents]
        exact List.mem_cons_self
      obtain ⟨timed', hmem', rfl⟩ := List.mem_map.mp hfirst
      obtain ⟨hmemT, hcoversT⟩ := List.mem_filter.mp hmem'
      exact ⟨timed', hmemT, hopening, hcoversT⟩
  -- and over the whole time it is opened once
  have hunique : ∀ first ∈ db.timedOf outlet a.2.saleId, first.2.isOpening →
      ∀ second ∈ db.timedOf outlet a.2.saleId, second.2.isOpening → first = second := by
    have hreplays := (SaleBook.replay_isOkay_iff _).mp hvalid a.2.saleId
    rw [history_unbounded] at hreplays
    rcases hreplays with hnil | hokay
    · rw [List.map_eq_nil_iff] at hnil
      rw [hnil]
      exact fun first hfirst => absurd hfirst List.not_mem_nil
    · obtain ⟨_, _, hevents, -, hrest⟩ := Sale.replay_opening hokay
      obtain ⟨start, others, htimed, rfl, rfl⟩ := List.map_eq_cons_iff.mp hevents
      have hstart : ∀ first ∈ db.timedOf outlet a.2.saleId, first.2.isOpening → first = start := by
        intro first hfirst hopening
        rw [htimed] at hfirst
        rcases List.mem_cons.mp hfirst with rfl | hfirst
        · rfl
        · rw [hrest first.2 (List.mem_map_of_mem hfirst)] at hopening
          cases hopening
      intro first hfirst hopening second hsecond hopening'
      rw [hstart first hfirst hopening, hstart second hsecond hopening']
  have hmemA : a ∈ db.timedOf outlet a.2.saleId := mem_timedOf.mpr ⟨ha, rfl⟩
  have hmemB : b ∈ db.timedOf outlet a.2.saleId := mem_timedOf.mpr ⟨hb, hid.symm⟩
  obtain ⟨first, hfirst, hopening, hcoversFirst⟩ := hopened w hw a hmemA hcovers
  obtain ⟨second, hsecond, hopening', hcoversSecond⟩ := hopened v hv b hmemB hcoversB
  obtain rfl := hunique first hfirst hopening second hsecond hopening'
  by_contra hcut
  have hne : w ≠ v := by
    rintro rfl
    exact hcut hcoversB
  have hsymm : Std.Symm fun v w : DayWindow => ∀ at', v.covers at' → ¬ w.covers at' :=
    ⟨fun v w hvw at' hw hv => hvw at' hv hw⟩
  exact hsplit.disjoint.forall hw hv hne first.1 hcoversFirst hcoversSecond

/-- **Day windows partition the takings** exactly where no sale has events in two windows, and
    the sales of each window can be added up: each window is reported, each completed sale is
    counted in one of them, and the figures add up. -/
theorem countsOnce_iff (hsplit : Splits windows) (hvalid : (db.day outlet .unbounded).isOkay) :
    db.CountsOnce outlet windows ↔ db.Uncut outlet windows ∧
      ∀ w ∈ windows, (Day.ofOwnCurrency (db.within outlet w).completed).isOkay := by
  obtain ⟨whole, hwhole, -⟩ := day_isOkay.mp hvalid
  have hreplay : (SaleBook.replay (db.saleEvents outlet .unbounded)).isOkay :=
    Except.isOkay_iff.mpr ⟨whole, hwhole⟩
  constructor
  · intro h
    have huncut := uncut_of_answered hsplit hreplay h.answered
    refine ⟨huncut, fun w hw => ?_⟩
    obtain ⟨book, hbook, hokay⟩ := day_isOkay.mp (h.answered w hw)
    rw [huncut.replay hreplay hw] at hbook
    cases hbook
    exact hokay
  · rintro ⟨huncut, hfits⟩
    refine ⟨fun w hw => ?_, fun sale hsale => huncut.counted_once hsplit hreplay hsale, ?_⟩
    · exact day_isOkay.mpr ⟨_, huncut.replay hreplay hw, hfits w hw⟩
    · intro reports whole hreports hday figure
      rw [mapM_day_figure hreports, day_figure hday]
      exact ((huncut.counted_perm hsplit hreplay).map _).sum_eq.symm

end Db

/-! ### A ticket and a boundary -/

/-- The server's copy of a till's log. -/
def Db.holding (store : EventStore Payload) : Db Payload where
  device := fun _ => none
  table :=
    { rows := store.events.zipIdx.map fun entry => ⟨entry.1, entry.2 + 1⟩
      distinct := by
        have hsame : (store.events.zipIdx.map fun entry =>
            (⟨entry.1, entry.2 + 1⟩ : EventRow Payload)).map EventRow.event = store.events := by
          rw [List.map_map]
          exact List.zipIdx_map_fst 0 store.events
        rw [hsame]
        exact store.table.distinct }

/-- Up to an instant, and from the next one on. -/
def cutAfter (n : Fin 1000) : List DayWindow :=
  [⟨none, some (I64.lit n.val (I64.lit_small n))⟩,
    ⟨some (I64.lit (n.val + 1) (decide_eq_true (by omega))), none⟩]

theorem cutAfter_splits (n : Fin 1000) : Splits (cutAfter n) := by
  have hhi : ∀ at' : Timestamp, at'.millis.val < 9223372036854775808 := fun at' => at'.millis.hi'
  have hlo : ∀ at' : Timestamp, -9223372036854775808 ≤ at'.millis.val := fun at' => at'.millis.lo'
  constructor
  · simp only [cutAfter, List.pairwise_cons, List.mem_singleton, forall_eq, List.not_mem_nil,
      false_implies, implies_true, List.Pairwise.nil, and_true]
    intro at' hv hw
    simp only [DayWindow.covers, Option.getD_some, SInt.le_def, I64.lit_val,
      decide_eq_true_eq] at hv hw
    omega
  · intro at'
    by_cases hbefore : at'.millis.val ≤ n.val
    · refine ⟨_, List.mem_cons_self, ?_⟩
      simp only [DayWindow.covers, Option.getD_none, Option.getD_some, SInt.le_def, I64.lit_val,
        decide_eq_true_eq]
      exact ⟨hlo at', hbefore⟩
    · refine ⟨_, List.mem_cons_of_mem _ List.mem_cons_self, ?_⟩
      simp only [DayWindow.covers, Option.getD_none, Option.getD_some, SInt.le_def, I64.lit_val,
        decide_eq_true_eq]
      have := hhi at'
      omega

/-- A ticket opened and filled at one instant, and settled for nothing at another. -/
def openThenSettle (opened settled : Timestamp) : EventStore Payload :=
  (Terminal.till3.performAll Terminal.plainDigests
    [(true, opened, .record (.opened 20 7 .bdt .taxInclusive .halfUp) 100),
     (true, opened, .record (.lineAdded 20 11 12 "Bag" (Money.zero .bdt) Quantity.one .exempt [])
       101),
     (true, settled, .completeSale (.completed 20 (Money.zero .bdt) (Money.zero .bdt) settled) "vat"
       7 102 103)]).store

theorem countsOnce_iff_oneSide :
    let db := Db.holding (openThenSettle (Terminal.instant 5) (Terminal.instant 8))
    db.CountsOnce 2 (cutAfter 9) ↔ db.Uncut 2 (cutAfter 9) ∧
      ∀ w ∈ cutAfter 9, (Day.ofOwnCurrency (db.within 2 w).completed).isOkay :=
  Db.countsOnce_iff (cutAfter_splits 9) (by decide)

/-- A ticket opened before a boundary and settled after it: the report over the whole time counts
    it, the report after the boundary is refused. -/
theorem openedBefore_refused :
    ¬ ∀ (db : Db Payload) (outlet : Uuid) (windows : List DayWindow), Splits windows →
      (db.day outlet .unbounded).isOkay → db.CountsOnce outlet windows := by
  intro h
  have hcounts := h (Db.holding (openThenSettle (Terminal.instant 5) (Terminal.instant 15))) 2
    (cutAfter 9) (cutAfter_splits 9) (by decide)
  have hanswered := hcounts.answered _ (List.mem_cons_of_mem _ List.mem_cons_self)
  exact absurd hanswered (by decide)

end Sahl
