import Mathlib.Tactic
import Sahl.Core.ShiftReport
import Sahl.Terminal.Terminal

/-! # Shifts run one after another

    A till holds the shift it recorded last; here every shift it ran is kept. A report goes by the
    instants at which the shift was opened and closed, and takes in both. Shifts that follow one
    another can therefore share an instant, and a sale settled at it is counted by both
    (`countedOnce_iff`). -/

namespace Sahl

namespace Shift

/-! ## Section 1: The shifts of a till -/

/-- The shifts of a till with one more event recorded: the opening of one starts the next, anything
    else is about the last. -/
def record (shifts : List Shift) (event : ShiftEvent) : Except TerminalError (List Shift) := do
  let shift ← Projections.shiftAfter shifts.getLast? event
  .ok (if event.isOpening then shifts ++ [shift] else shifts.dropLast ++ [shift])

/-- The shifts a till ran, oldest first. -/
def run (events : List ShiftEvent) : Except TerminalError (List Shift) :=
  events.foldlM record []

/-- Each shift was opened at or after the instant the one before it was closed. -/
def InTurn (shifts : List Shift) : Prop :=
  shifts.IsChain fun before shift => ∀ closed ∈ before.closedAt, closed ≤ shift.openedAt

/-- No shift was closed before the instant it was opened. -/
def ClockForward (shifts : List Shift) : Prop :=
  ∀ shift ∈ shifts, ∀ closed ∈ shift.closedAt, shift.openedAt ≤ closed

instance (shifts : List Shift) : Decidable (InTurn shifts) :=
  inferInstanceAs (Decidable (List.IsChain _ _))

instance (shifts : List Shift) : Decidable (ClockForward shifts) :=
  inferInstanceAs (Decidable (∀ _ ∈ _, _))

/-- Each sale is counted by at most one of the reports of the shifts. -/
def CountedOnce (shifts : List Shift) (sales : List Sale) : Prop :=
  ∀ sale ∈ sales, shifts.Pairwise fun earlier later =>
    ¬ (sale ∈ earlier.mine sales ∧ sale ∈ later.mine sales)

/-- Settled while both shifts ran: from the opening of the later one on, and not after the earlier
    one was closed. -/
def SettledInBoth (sale : Sale) (earlier later : Shift) : Prop :=
  ∃ at' ∈ sale.settledAt, ∃ closed ∈ earlier.closedAt,
    later.openedAt ≤ at' ∧ at' ≤ closed ∧ earlier.openedAt ≤ at' ∧
      ∀ end' ∈ later.closedAt, at' ≤ end'

/-- Settled at the very instant at which one shift was closed and a later one opened. -/
def SettledAtHandover (sale : Sale) (earlier later : Shift) : Prop :=
  ∃ at' ∈ sale.settledAt, earlier.closedAt = some at' ∧ later.openedAt = at'

/-! ## Section 2: Every shift but the last is closed -/

variable {shifts shifts' : List Shift} {sales : List Sale} {sale : Sale}

/-- A shift that is closed has the instant it was closed at. -/
def ClosedSometime (shift : Shift) : Prop :=
  shift.status = .closed → ∃ at', shift.closedAt = some at'

theorem closedSometime_apply {shift shift' : Shift} {event : ShiftEvent}
    (happly : shift.apply event = .ok shift') : shift'.ClosedSometime := by
  obtain ⟨-, hopen, -, -⟩ := apply_eq_ok happly
  unfold apply at happly
  split at happly
  · cases happly
  split at happly
  · cases happly
  -- the shift was open, so only its closing can have closed it
  intro hclosed
  cases event with
  | «opened» => cases happly
  | cashMoved =>
    cases happly
    rw [hopen] at hclosed
    cases hclosed
  | counted =>
    rw [transition] at happly
    split at happly <;> cases happly
    rw [hopen] at hclosed
    cases hclosed
  | closed _ _ _ at' =>
    rw [transition] at happly
    split at happly <;> cases happly
    exact ⟨at', rfl⟩

/-- What a till makes of its last shift: it goes on with one that runs, and starts the next where
    none does. -/
theorem shiftAfter_cases {last : Option Shift} {event : ShiftEvent} {shift : Shift}
    (h : Projections.shiftAfter last event = .ok shift) :
    (event.isOpening = true ∧ (∀ s ∈ last, s.status = .closed) ∧ shift.status = .open) ∨
      (event.isOpening = false ∧ ∃ s, last = some s ∧ s.apply event = .ok shift) := by
  unfold Projections.shiftAfter at h
  -- a shift runs where the last one is open
  cases hrunning : last.filter (·.status = .open) with
  | none =>
    rw [hrunning] at h
    cases event with
    | «opened» =>
      cases Except.mapError_eq_ok.mp h
      refine .inl ⟨rfl, fun s hs => ?_, rfl⟩
      cases hs
      cases hstatus : s.status with
      | closed => rfl
      | «open» => simp [Option.filter, hstatus] at hrunning
    | cashMoved => cases h
    | counted => cases h
    | closed => cases h
  | some running =>
    rw [hrunning] at h
    obtain ⟨hlast, -⟩ := Option.filter_eq_some_iff.mp hrunning
    cases event with
    | «opened» => cases h
    | cashMoved => exact .inr ⟨rfl, running, hlast, Except.mapError_eq_ok.mp h⟩
    | counted => exact .inr ⟨rfl, running, hlast, Except.mapError_eq_ok.mp h⟩
    | closed => exact .inr ⟨rfl, running, hlast, Except.mapError_eq_ok.mp h⟩

/-- Every shift but the last is closed. -/
structure Succession (shifts : List Shift) : Prop where
  closed : ∀ shift ∈ shifts.dropLast, ∃ at', shift.closedAt = some at'
  last : ∀ shift ∈ shifts.getLast?, shift.ClosedSometime

theorem succession_record {event : ShiftEvent} (h : Succession shifts)
    (hrecord : record shifts event = .ok shifts') : Succession shifts' := by
  obtain ⟨shift, hafter, hrecord⟩ := Except.bind_eq_ok.mp hrecord
  obtain ⟨hopening, hlast, hopen⟩ | ⟨hopening, last, hlast, happly⟩ := shiftAfter_cases hafter
  · rw [if_pos hopening] at hrecord
    cases hrecord
    constructor
    · intro before hbefore
      rw [List.dropLast_concat] at hbefore
      -- the one before is closed, or the next would not have been opened
      rcases shifts.eq_nil_or_concat with rfl | ⟨init, last, rfl⟩
      · cases hbefore
      rw [List.concat_eq_append] at *
      rcases List.mem_append.mp hbefore with hinit | hthis
      · exact h.closed before (by rwa [List.dropLast_concat])
      · obtain rfl := List.mem_singleton.mp hthis
        have hmem : before ∈ (init ++ [before]).getLast? := by simp
        exact h.last before hmem (hlast before hmem)
    · intro s hs
      rw [List.getLast?_concat] at hs
      cases hs
      intro hclosed
      rw [hopen] at hclosed
      cases hclosed
  · rw [if_neg (by simp [hopening])] at hrecord
    cases hrecord
    constructor
    · intro before hbefore
      rw [List.dropLast_concat] at hbefore
      exact h.closed before hbefore
    · intro s hs
      rw [List.getLast?_concat] at hs
      cases hs
      exact closedSometime_apply happly

theorem succession_run {events : List ShiftEvent} (hrun : run events = .ok shifts) :
    Succession shifts := by
  refine foldlM_invariant (fun _ shifts => Succession shifts) ?_ ⟨?_, ?_⟩ hrun
  · intro _ shifts event shifts' h hrecord
    exact succession_record h hrecord
  · intro shift hshift
    cases hshift
  · intro shift hshift
    cases hshift

/-- Of two shifts the earlier one is closed. -/
theorem Succession.pairwise (h : Succession shifts) :
    shifts.Pairwise fun earlier _ => ∃ at', earlier.closedAt = some at' := by
  rcases shifts.eq_nil_or_concat with rfl | ⟨init, last, rfl⟩
  · exact .nil
  have hclosed := h.closed
  rw [List.concat_eq_append, List.dropLast_concat] at hclosed
  rw [List.concat_eq_append, List.pairwise_append]
  refine ⟨List.pairwise_of_forall_mem_list fun earlier hearlier _ _ => hclosed earlier hearlier,
    List.pairwise_singleton _ _, fun earlier hearlier _ _ => hclosed earlier hearlier⟩

/-! ## Section 3: Which sales are counted twice -/

theorem mem_mine_iff {shift : Shift} (hsale : sale ∈ sales) :
    sale ∈ shift.mine sales ↔ ∃ at' ∈ sale.settledAt, shift.covers at' := by
  unfold mine
  rw [List.mem_filter]
  cases hsettled : sale.settledAt with
  | none => simp
  | some at' => simp [hsale]

/-- The shifts of a pair both count a sale where it settled while both ran. -/
theorem mine_both_iff {earlier later : Shift} (hsale : sale ∈ sales)
    (hclosed : ∃ at', earlier.closedAt = some at') :
    (sale ∈ earlier.mine sales ∧ sale ∈ later.mine sales) ↔
      SettledInBoth sale earlier later := by
  obtain ⟨closed, hclosed⟩ := hclosed
  rw [mem_mine_iff hsale, mem_mine_iff hsale]
  constructor
  · rintro ⟨⟨at', hsettled, hearlier⟩, ⟨again, hagain, hlater⟩⟩
    cases hsettled.symm.trans hagain
    obtain ⟨hfrom, hto⟩ := covers_iff.mp hearlier
    obtain ⟨hfromLater, htoLater⟩ := covers_iff.mp hlater
    exact ⟨at', hsettled, closed, hclosed, hfromLater, hto closed hclosed, hfrom, htoLater⟩
  · rintro ⟨at', hsettled, end', hend, hfromLater, hto, hfrom, htoLater⟩
    cases hclosed.symm.trans hend
    refine ⟨⟨at', hsettled, covers_iff.mpr ⟨hfrom, ?_⟩⟩,
      ⟨at', hsettled, covers_iff.mpr ⟨hfromLater, htoLater⟩⟩⟩
    intro other hother
    cases hclosed.symm.trans hother
    exact hto

/-- Where the clock only went forward, an earlier shift was closed by the time a later one was
    opened. -/
theorem InTurn.pairwise (hturn : InTurn shifts) (hforward : ClockForward shifts)
    (h : Succession shifts) :
    shifts.Pairwise fun earlier later => ∀ closed ∈ earlier.closedAt, closed ≤ later.openedAt := by
  induction shifts with
  | nil => exact .nil
  | cons first rest ih =>
    cases rest with
    | nil => exact List.pairwise_singleton _ _
    | cons second rest =>
      obtain ⟨hfirst, hrest⟩ := List.isChain_cons_cons.mp hturn
      have hpairs := ih hrest (fun s hs => hforward s (List.mem_cons_of_mem _ hs))
        ⟨fun s hs => h.closed s (by simp [hs]), fun s hs => h.last s (by simpa using hs)⟩
      refine List.pairwise_cons.mpr ⟨fun later hlater closed hclosed => ?_, hpairs⟩
      rcases List.mem_cons.mp hlater with rfl | hlater
      · exact hfirst closed hclosed
      -- the second shift lies between: it is closed, and not before it was opened
      obtain ⟨middle, hmiddle⟩ := h.closed second (by
        cases rest with
        | nil => cases hlater
        | cons => simp)
      calc closed
        _ ≤ second.openedAt := hfirst closed hclosed
        _ ≤ middle := hforward second (by simp) middle hmiddle
        _ ≤ later.openedAt := (List.pairwise_cons.mp hpairs).1 later hlater middle hmiddle

/-- Each sale is counted once exactly where none settles while two shifts run. Where no shift was
    closed before it was opened, that is where none settles at the very instant one shift was
    closed and a later one opened. -/
theorem countedOnce_iff {events : List ShiftEvent} (hrun : run events = .ok shifts)
    (hturn : InTurn shifts) :
    (CountedOnce shifts sales ↔
        ∀ sale ∈ sales, shifts.Pairwise fun earlier later => ¬ SettledInBoth sale earlier later) ∧
      (ClockForward shifts → (CountedOnce shifts sales ↔
        ∀ sale ∈ sales, shifts.Pairwise fun earlier later =>
          ¬ SettledAtHandover sale earlier later)) := by
  have hsuccession := succession_run hrun
  have hboth : CountedOnce shifts sales ↔
      ∀ sale ∈ sales, shifts.Pairwise fun earlier later => ¬ SettledInBoth sale earlier later := by
    refine forall₂_congr fun sale hsale => ?_
    constructor
    · intro hpairs
      exact (hpairs.and hsuccession.pairwise).imp fun ⟨hnot, hclosed⟩ hsettled =>
        hnot ((mine_both_iff hsale hclosed).mpr hsettled)
    · intro hpairs
      exact (hpairs.and hsuccession.pairwise).imp fun ⟨hnot, hclosed⟩ hmine =>
        hnot ((mine_both_iff hsale hclosed).mp hmine)
  refine ⟨hboth, fun hforward => hboth.trans (forall₂_congr fun sale hsale => ?_)⟩
  have hordered := hturn.pairwise hforward hsuccession
  constructor
  · intro hpairs
    refine hpairs.imp_of_mem fun {earlier later} hearlier hlater hnot hsettled => ?_
    obtain ⟨at', hat, hclosed, hopened⟩ := hsettled
    refine hnot ⟨at', hat, at', hclosed, hopened.le, le_rfl, hforward _ hearlier _ hclosed, ?_⟩
    intro end' hend
    exact hopened.ge.trans (hforward _ hlater _ hend)
  · intro hpairs
    refine (hpairs.and hordered).imp fun {earlier later} ⟨hnot, hbefore⟩ hsettled => ?_
    obtain ⟨at', hat, closed, hclosed, hfrom, hto, -, -⟩ := hsettled
    -- closed ≤ opened ≤ settled ≤ closed: all three are one instant
    have hopened : closed ≤ later.openedAt := hbefore closed hclosed
    have hsame : at' = closed := le_antisymm hto (hopened.trans hfrom)
    subst hsame
    exact hnot ⟨at', hat, hclosed, le_antisymm hfrom hopened⟩

/-! ## Section 4: A sale at the handover -/

/-- The first shift is counted and closed at 100, and the second opened in the same millisecond. -/
def handover : List ShiftEvent :=
  [.opened 1 7 .bdt ⟨I64.lit 0, .bdt⟩ .epoch,
   .counted 1 ⟨I64.lit 500, .bdt⟩ 7 ⟨I64.lit 90⟩,
   .closed 1 7 ⟨I64.lit 500, .bdt⟩ ⟨I64.lit 100⟩,
   .opened 2 8 .bdt ⟨I64.lit 0, .bdt⟩ ⟨I64.lit 100⟩]

/-- A sale paid in cash that completes at 100. -/
def atHandover : List SaleEvent :=
  [.opened 1 7 .bdt .taxInclusive .halfUp,
   .lineAdded 1 10 100 "rice" ⟨I64.lit 500, .bdt⟩ Quantity.one .exempt [],
   .tenderRecorded 1 20 .cash ⟨I64.lit 500, .bdt⟩ none,
   .completed 1 ⟨I64.lit 500, .bdt⟩ ⟨I64.lit 0, .bdt⟩ ⟨I64.lit 100⟩]

/-- What the till holds of both. -/
def handoverShifts : List Shift := ((run handover).toOption).getD []

theorem countedOnce_iff_handover :
    CountedOnce handoverShifts [Sale.replayed atHandover] ↔
      ∀ sale ∈ [Sale.replayed atHandover], handoverShifts.Pairwise
        fun earlier later => ¬ SettledAtHandover sale earlier later :=
  have hrun : run handover = .ok handoverShifts := by decide
  (countedOnce_iff hrun (by decide)).2 (by decide)

theorem sale_at_handover_counted_twice :
    ¬ ∀ (events : List ShiftEvent) (shifts : List Shift) (sales : List Sale),
      run events = .ok shifts → InTurn shifts → CountedOnce shifts sales := by
  intro h
  have honce := h handover handoverShifts [Sale.replayed atHandover] (by decide) (by decide)
    (Sale.replayed atHandover) List.mem_cons_self
  exact absurd honce (by decide)

end Shift
end Sahl
