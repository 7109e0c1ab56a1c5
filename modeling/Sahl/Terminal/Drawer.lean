import Mathlib.Tactic
import Sahl.Core.ShiftReport
import Sahl.Terminal.Freshness

/-! # One drawer, and the sales of the outlet

    The report of the running shift adds up the completed sales of the outlet, and goes by the
    time they completed, not by where the cash was taken. What siblings did therefore shows in it
    where the sales they changed, as far as they settle while the shift runs, do not come to the
    same (`shiftReport_same_iff`). -/

namespace Sahl

/-! ## Section 1: Two books, one shift -/

namespace Shift

/-- Whether a report of the shift counts a sale. -/
def takes (shift : Shift) (sale : Sale) : Bool :=
  decide (sale.status = .completed) && sale.settledAt.any shift.covers

/-- Whether a report of the shift counts a sale of a book. -/
def settledIn (shift : Shift) (book : SaleBook) (saleId : Uuid) : Bool :=
  book.sales[saleId]?.any shift.takes

/-- What two books have each for itself comes to the same, as far as it settles in the shift, and
    to the same cash; and the shift can be reported on with both or with neither. -/
structure SettlesAlike (shift : Shift) (book other : SaleBook) : Prop where
  reportable : shift.Reportable book.completed ↔ shift.Reportable other.completed
  takings : shift.Reportable book.completed →
    shift.takingsOf (book.besides other).completed = shift.takingsOf (other.besides book).completed
  cash : shift.Reportable book.completed →
    shift.cashOf (book.besides other).completed = shift.cashOf (other.besides book).completed

variable {shift : Shift} {book other : SaleBook}

theorem mine_completed_perm (shift : Shift) (book other : SaleBook) :
    (shift.mine book.completed).Perm (shift.mine (book.shared other).completed ++
      shift.mine (book.besides other).completed) := by
  unfold mine
  rw [← List.filter_append]
  exact (SaleBook.completed_perm book other).filter _

theorem takingsOf_split (shift : Shift) (book other : SaleBook) :
    shift.takingsOf book.completed = shift.takingsOf (book.shared other).completed +
      shift.takingsOf (book.besides other).completed := by
  unfold takingsOf
  rw [((mine_completed_perm shift book other).map _).sum_eq, List.map_append, List.sum_append]

theorem cashOf_split (shift : Shift) (book other : SaleBook) :
    shift.cashOf book.completed = shift.cashOf (book.shared other).completed +
      shift.cashOf (book.besides other).completed := by
  unfold cashOf
  rw [((mine_completed_perm shift book other).map _).sum_eq, List.map_append, List.sum_append]

/-- With two books the reports of a shift say the same of the money exactly when the books come to
    the same in what they do not share. -/
theorem report_settlesAlike_iff :
    (shift.report book.completed).toOption.map (·.figures) =
        (shift.report other.completed).toOption.map (·.figures) ↔
      shift.SettlesAlike book other := by
  have hshared := SaleBook.shared_comm book other
  have htakings := takingsOf_split shift book other
  have htakings' := takingsOf_split shift other book
  -- what the books share is the same on both sides and falls out
  have hcash := cashOf_split shift book other
  have hcash' := cashOf_split shift other book
  rw [← hshared] at htakings' hcash'
  rw [report_same_iff]
  constructor
  · rintro ⟨hreportable, hsame⟩
    refine ⟨hreportable, fun hreport => ?_, fun hreport => ?_⟩
    · have := (hsame hreport).1
      omega
    · have := (hsame hreport).2
      omega
  · rintro ⟨hreportable, hsameTakings, hsameCash⟩
    refine ⟨hreportable, fun hreport => ⟨?_, ?_⟩⟩
    · have := hsameTakings hreport
      omega
    · have := hsameCash hreport
      omega

/-- The sales of a report are those of the book that the shift takes. -/
theorem mine_completed (shift : Shift) (book : SaleBook) :
    shift.mine book.completed =
      (book.sales.filter fun _ sale => shift.takes sale).toList.map (·.2) := by
  rw [Std.ExtTreeMap.toList_filter, mine, SaleBook.completed, List.filter_filter,
    List.filter_map]
  refine congrArg _ (List.filter_congr fun entry _ => ?_)
  exact Bool.and_comm _ _

/-- Books that differ only in sales the shift does not take give the same report. -/
theorem report_congr (h : ∀ saleId : Uuid, book.sales[saleId]? = other.sales[saleId]? ∨
    (¬ shift.settledIn book saleId ∧ ¬ shift.settledIn other saleId)) :
    shift.report book.completed = shift.report other.completed := by
  have htaken : (book.sales.filter fun _ sale => shift.takes sale) =
      other.sales.filter fun _ sale => shift.takes sale := by
    refine Std.ExtTreeMap.ext_getElem? fun saleId => ?_
    rw [Std.ExtTreeMap.getElem?_filter', Std.ExtTreeMap.getElem?_filter']
    rcases h saleId with hsame | ⟨hbook, hother⟩
    · rw [hsame]
    · have hnone : ∀ entry : Option Sale, ¬ entry.any shift.takes →
          entry.filter (fun sale => shift.takes sale) = none := by
        intro entry hentry
        cases entry with
        | none => rfl
        | some sale => simpa [Option.filter] using hentry
      rw [hnone _ hbook, hnone _ hother]
  have hmine : shift.mine book.completed = shift.mine other.completed := by
    rw [mine_completed, mine_completed, htaken]
  unfold report
  rw [hmine]

end Shift

/-! ## Section 2: The till -/

namespace Terminal

/-- The report of the running shift. -/
def shiftReport (t : Terminal) : Except TerminalError ShiftReport := do
  let shift ← Except.okOr t.shift .noOpenShift
  (shift.report t.book.completed).mapError TerminalError.shift

/-- What the report of the running shift says of the money, where there is one. -/
def shiftFigures (t : Terminal) : Option (Money × Money × Money × Option Variance) :=
  t.shiftReport.toOption.map (·.figures)

theorem shiftReport_eq {t : Terminal} {shift : Shift} (h : t.shift = some shift) :
    t.shiftReport = (shift.report t.book.completed).mapError TerminalError.shift := by
  unfold shiftReport
  rw [h]
  rfl

theorem shiftFigures_eq {t : Terminal} {shift : Shift} (h : t.shift = some shift) :
    t.shiftFigures = (shift.report t.book.completed).toOption.map (·.figures) := by
  unfold shiftFigures
  rw [shiftReport_eq h]
  cases shift.report t.book.completed <;> rfl

/-- Events that tell nothing of a sale leave its entry in a rebuilt book. -/
theorem bookWith_get {t : Terminal} {new : List (EventEnvelope Payload)} {saleId : Uuid}
    (hbook : new = [] → t.book = rebuildBook t.store)
    (hnew : ∀ event ∈ new.filterMap (·.asSale), event.saleId ≠ saleId) :
    (t.bookWith new).sales[saleId]? = (rebuildBook t.store).sales[saleId]? := by
  unfold bookWith
  by_cases hnone : new = []
  · rw [if_pos hnone, hbook hnone]
  · have hquiet : new.filter (fun e => e.asSale.any (·.saleId = saleId)) = [] := by
      refine List.filter_eq_nil_iff.mpr fun e he habout => ?_
      obtain ⟨event, hevent, hid⟩ := Option.any_eq_true _ _ |>.mp habout
      exact hnew event (List.mem_filterMap.mpr ⟨e, he, hevent⟩) (of_decide_eq_true hid)
    rw [if_neg hnone, rebuildBook_eq_gather, SaleBook.gather_get, SaleBook.gather_get,
      SaleBook.history_filterMap, SaleBook.history_filterMap, EventStore.loadProjectionInput]
    unfold orderBy
    rw [filter_insertionSort, filter_insertionSort, List.filter_append, hquiet, List.append_nil]

section Rounds

variable {digests : Digests} {t : Terminal} {shift : Shift} {a b : Transport Payload}
  {nowA nowB : I64} {outcomeA outcomeB : SyncOutcome} {newA newB : List (EventEnvelope Payload)}

/-- **What siblings did to this drawer**: of two sync rounds that a till with a running shift can
    go through, the reports of the shift afterwards say the same of the money exactly when the
    sales that the two books do not share, as far as they settle in the shift, come to the same
    and to the same cash. So they are the same where no new event is about a sale that settles in
    the shift. -/
theorem shiftReport_same_iff (hshift : t.shift = some shift)
    (hokA : (t.sync digests a nowA).2 = .ok outcomeA)
    (hokB : (t.sync digests b nowB).2 = .ok outcomeB)
    (hnewA : (t.sync digests a nowA).1.store.tagged = t.store.tagged ++ newA.map (·, .remote))
    (hnewB : (t.sync digests b nowB).1.store.tagged = t.store.tagged ++ newB.map (·, .remote)) :
    ((t.sync digests a nowA).1.shiftFigures = (t.sync digests b nowB).1.shiftFigures ↔
      shift.SettlesAlike (t.bookWith newA) (t.bookWith newB)) ∧
    ((newA = [] ∨ newB = [] → t.book = rebuildBook t.store) →
      (∀ event ∈ (newA ++ newB).filterMap (·.asSale),
        ¬ shift.settledIn (t.bookWith newA) event.saleId ∧
          ¬ shift.settledIn (t.bookWith newB) event.saleId) →
      (t.sync digests a nowA).1.shiftReport = (t.sync digests b nowB).1.shiftReport) := by
  have hshiftA := (sync_shift digests t a nowA).trans hshift
  have hshiftB := (sync_shift digests t b nowB).trans hshift
  have hbookA := (sync_sales hokA hnewA).2
  have hbookB := (sync_sales hokB hnewB).2
  constructor
  · rw [shiftFigures_eq hshiftA, shiftFigures_eq hshiftB, hbookA, hbookB]
    exact Shift.report_settlesAlike_iff
  · intro hbook hpass
    rw [shiftReport_eq hshiftA, shiftReport_eq hshiftB, hbookA, hbookB]
    refine congrArg _ (Shift.report_congr fun saleId => ?_)
    -- a sale that neither round brought an event of stands as it did
    by_cases habout : ∃ event ∈ (newA ++ newB).filterMap (·.asSale), event.saleId = saleId
    · obtain ⟨event, hevent, rfl⟩ := habout
      exact .inr (hpass event hevent)
    · replace habout : ∀ event ∈ newA.filterMap (·.asSale) ++ newB.filterMap (·.asSale),
          event.saleId ≠ saleId := by
        intro event hevent hid
        rw [← List.filterMap_append] at hevent
        exact habout ⟨event, hevent, hid⟩
      have hgetA : (t.bookWith newA).sales[saleId]? = (rebuildBook t.store).sales[saleId]? :=
        bookWith_get (fun hnone => hbook (.inl hnone))
          fun event hevent => habout event (List.mem_append_left _ hevent)
      have hgetB : (t.bookWith newB).sales[saleId]? = (rebuildBook t.store).sales[saleId]? :=
        bookWith_get (fun hnone => hbook (.inr hnone))
          fun event hevent => habout event (List.mem_append_right _ hevent)
      exact .inl (hgetA.trans hgetB.symm)

end Rounds

/-! ### A sale at the other counter -/

/-- The till of device 3, its drawer open with a float. -/
def drawer : Terminal :=
  till3.performAll plainDigests
    [(true, instant 1, .recordShift (.opened 50 7 .bdt ⟨I64.lit 1000, .bdt⟩ (instant 1)) 99)]

/-- The till of device 4 sells a bag for cash. -/
def otherCounter : Terminal :=
  (fresh ⟨1, 2, 4⟩).performAll plainDigests
    [(true, instant 10, .record (.opened 20 7 .bdt .taxInclusive .halfUp) 100),
     (true, instant 10, .record (.lineAdded 20 11 12 "Bag" ⟨I64.lit 300, .bdt⟩ Quantity.one
       .exempt []) 101),
     (true, instant 10, .record (.tenderRecorded 20 13 .cash ⟨I64.lit 500, .bdt⟩ none) 102),
     (true, instant 11, .completeSale (.completed 20 ⟨I64.lit 300, .bdt⟩ ⟨I64.lit 200, .bdt⟩
       (instant 11)) "vat" 7 103 104)]

/-- A ticket that stays open at the other counter does not show in the report. -/
theorem shiftReport_same_iff_openTicket :
    (drawer.sync plainDigests (taking ringing.store.loadAll) 0).1.shiftReport =
      (drawer.sync plainDigests (taking []) 0).1.shiftReport :=
  (@shiftReport_same_iff plainDigests drawer (drawer.shift.get (by decide))
      (taking ringing.store.loadAll) (taking []) 0 0 ⟨1, 0, 1, false⟩ ⟨1, 0, 0, false⟩
      ringing.store.loadAll [] (by decide) (by decide) (by decide) (by decide) (by decide)).2
    (by decide) (by decide)

/-- A cash sale there does: it is cash this drawer should hold. -/
theorem cashSale_leaks :
    ¬ ∀ (digests : Digests) (t : Terminal) (shift : Shift) (a b : Transport Payload)
        (nowA nowB : I64) (outcomeA outcomeB : SyncOutcome),
      Transition.Reachable Fresh (step digests) t → t.shift = some shift → shift.status = .open →
        ServesSiblings a t.identity.deviceId → ServesSiblings b t.identity.deviceId →
          (t.sync digests a nowA).2 = .ok outcomeA → (t.sync digests b nowB).2 = .ok outcomeB →
            (t.sync digests a nowA).1.shiftFigures = (t.sync digests b nowB).1.shiftFigures := by
  intro h
  have hreachable : Transition.Reachable Fresh (step plainDigests) drawer :=
    performAll_run _ (.init ⟨_, rfl⟩)
  have hserves : ServesSiblings (taking otherCounter.store.loadAll) drawer.identity.deviceId :=
    @serving_servesSiblings otherCounter.store.loadAll drawer.identity.deviceId (by decide)
  have hnothing : ServesSiblings (taking []) drawer.identity.deviceId :=
    @serving_servesSiblings [] drawer.identity.deviceId (by decide)
  have hsame := h plainDigests drawer (drawer.shift.get (by decide))
    (taking otherCounter.store.loadAll) (taking []) 0 0 ⟨1, 0, 5, false⟩ ⟨1, 0, 0, false⟩
    hreachable (by decide) (by decide) hserves hnothing (by decide) (by decide)
  exact absurd hsame (by decide)

end Terminal

end Sahl
