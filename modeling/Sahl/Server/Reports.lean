import Mathlib.Tactic
import Sahl.Core.Day
import Sahl.Core.Staff
import Sahl.Server.Ingest
import Sahl.Terminal.Payload
import Sahl.Terminal.Store

/-! # The dashboard's day

    The server totals the sales of an outlet from the events of a window of time. The window picks
    events, not sales: a sale that is opened before a boundary and settled after it is in neither
    report, and the later one is refused (`openedBefore_refused`). -/

namespace Sahl

/-! ## Section 1: The report -/

/-- The bounds of a report, both included; one that is not given does not bind. -/
structure DayWindow where
  first : Option I64
  last : Option I64

namespace DayWindow

def unbounded : DayWindow := ⟨none, none⟩

/-- Whether the window takes in what happened at an instant. -/
def covers (window : DayWindow) (at' : Timestamp) : Bool :=
  window.first.getD (I64.lit (-9223372036854775808)) ≤ at'.millis ∧
    at'.millis ≤ window.last.getD (I64.lit 9223372036854775807)

theorem unbounded_covers (at' : Timestamp) : unbounded.covers at' = true := by
  have hlo := at'.millis.lo'
  have hhi := at'.millis.hi'
  simp only [covers, unbounded, Option.getD_none, SInt.le_def, I64.lit_val, decide_eq_true_eq]
  omega

end DayWindow

structure StaffRow where
  id : Uuid
  name : String
  deriving DecidableEq

/-- A day, and the names of those it mentions. -/
structure DayReport where
  day : Day
  staff : List StaffRow
  deriving DecidableEq

inductive ReportRefusal where
  | unprocessable
  deriving DecidableEq

namespace Db

/-- The order a report reads in: when it happened, then by number. -/
def dayKey (e : EventEnvelope Payload) : Timestamp ×ₗ Nat := toLex (e.occurredAt, e.deviceSeq)

/-- The events of one family of an outlet, within a window. -/
def query (db : Db Payload) (outlet : Uuid) (family : Family) (window : DayWindow) :
    List (EventEnvelope Payload) :=
  orderBy dayKey (db.table.events.filter fun e =>
    (e.outletId = outlet ∧ Text.startsWith e.kind family.kindPrefix) ∧ window.covers e.occurredAt)

/-- The sale events a report replays; a payload that is not one is skipped. -/
def saleEvents (db : Db Payload) (outlet : Uuid) (window : DayWindow) : List SaleEvent :=
  (db.query outlet .sale window).filterMap (·.asSale)

/-- Everyone the log names, or no one where it does not replay. -/
def directory (db : Db Payload) (outlet : Uuid) : Directory :=
  ((Directory.replay ((db.query outlet .staff .unbounded).filterMap (·.asStaff))).toOption).getD
    .new

/-- A day, totalled from the log of an outlet. -/
def day (db : Db Payload) (outlet : Uuid) (window : DayWindow) : Except ReportRefusal DayReport :=
  match SaleBook.replay (db.saleEvents outlet window) with
  | .error _ => .error .unprocessable
  | .ok book =>
    match book.completed.head? with
    | none => .ok { day := .empty .bdt, staff := [] }
    | some first =>
      match Day.of book.completed first.currency with
      | .error _ => .error .unprocessable
      | .ok day =>
        .ok { day, staff := day.byCashier.map fun row =>
                { id := row.staffId,
                  name := ((db.directory outlet).members[row.staffId]?).elim "Unknown" (·.name) } }

/-- What is answered of the day itself. -/
theorem day_eq_ok {db : Db Payload} {outlet : Uuid} {window : DayWindow} {day : Day} :
    (∃ report, db.day outlet window = .ok report ∧ report.day = day) ↔
      ∃ book, SaleBook.replay (db.saleEvents outlet window) = .ok book ∧
        Day.ofOwnCurrency book.completed = .ok day := by
  unfold Db.day Day.ofOwnCurrency
  cases SaleBook.replay (db.saleEvents outlet window) with
  | error error => simp
  | ok book =>
    simp only [Except.ok.injEq, exists_eq_left']
    cases book.completed.head? with
    | none => simp
    | some first =>
      simp only
      cases Day.of book.completed first.currency with
      | error error => simp
      | ok found => simp

theorem day_isOkay {db : Db Payload} {outlet : Uuid} {window : DayWindow} :
    (db.day outlet window).isOkay ↔ ∃ book, SaleBook.replay (db.saleEvents outlet window) =
      .ok book ∧ (Day.ofOwnCurrency book.completed).isOkay := by
  rw [Except.isOkay_iff]
  constructor
  · rintro ⟨report, hreport⟩
    obtain ⟨book, hbook, hday⟩ := day_eq_ok.mp ⟨report, hreport, rfl⟩
    exact ⟨book, hbook, Except.isOkay_iff.mpr ⟨_, hday⟩⟩
  · rintro ⟨book, hbook, hokay⟩
    obtain ⟨day, hday⟩ := Except.isOkay_iff.mp hokay
    obtain ⟨report, hreport, -⟩ := day_eq_ok.mpr ⟨book, hbook, hday⟩
    exact ⟨report, hreport⟩

/-! ## Section 2: What a window picks -/

/-- The sale events of an outlet with their times, in the order a report reads them. -/
def timed (db : Db Payload) (outlet : Uuid) : List (Timestamp × SaleEvent) :=
  (db.query outlet .sale .unbounded).filterMap fun e => e.asSale.map (e.occurredAt, ·)

/-- A window picks its events out of those of the whole time, in their order. -/
theorem query_window (db : Db Payload) (outlet : Uuid) (family : Family) (window : DayWindow) :
    db.query outlet family window =
      (db.query outlet family .unbounded).filter (window.covers ·.occurredAt) := by
  unfold query orderBy
  rw [filter_insertionSort, List.filter_filter]
  refine congrArg _ (List.filter_congr fun e _ => ?_)
  simp [DayWindow.unbounded_covers, Bool.and_comm]

theorem saleEvents_window (db : Db Payload) (outlet : Uuid) (window : DayWindow) :
    db.saleEvents outlet window =
      ((db.timed outlet).filter (window.covers ·.1)).map (·.2) := by
  unfold saleEvents timed
  rw [query_window]
  induction db.query outlet .sale .unbounded with
  | nil => rfl
  | cons e es ih =>
    by_cases hcovers : window.covers e.occurredAt
    · cases hsale : e.asSale with
      | none => simp [hsale, hcovers, ih]
      | some event => simp [hsale, hcovers, ih]
    · cases hsale : e.asSale with
      | none => simp [hsale, hcovers, ih]
      | some event => simp [hsale, hcovers, ih]

/-- The story a window tells of a sale. -/
theorem history_window (db : Db Payload) (outlet : Uuid) (window : DayWindow) (saleId : Uuid) :
    SaleBook.history saleId (db.saleEvents outlet window) =
      (((db.timed outlet).filter (·.2.saleId = saleId)).filter (window.covers ·.1)).map (·.2) := by
  unfold SaleBook.history
  rw [saleEvents_window, List.filter_map, List.filter_filter, List.filter_filter]
  refine congrArg _ (List.filter_congr fun timed _ => ?_)
  simp [Bool.and_comm]

end Db

end Sahl
