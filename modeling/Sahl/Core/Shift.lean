import Mathlib.Tactic
import Sahl.Core.Sale

/-! # Shifts

    A till session, from taking the drawer to handing it back, rebuilt from its events. -/

namespace Sahl

/-! ## Section 1: Events -/

/-- Why cash moved in or out of the drawer outside a sale. -/
inductive CashMovementReason where
  | floatTopUp
  | skim
  | pettyCash
  | refund
  | correction
  deriving DecidableEq

/-- Everything that can happen to a till session. -/
inductive ShiftEvent where
  | opened (shiftId openedBy : Uuid) (currency : Currency) (openingFloat : Money)
      (at' : Timestamp)
  | cashMoved (shiftId movementId : Uuid) (amount : Money) (reason : CashMovementReason)
      (note : Option String) (authorizedBy : Uuid) (at' : Timestamp)
  | counted (shiftId : Uuid) (counted : Money) (countedBy : Uuid) (at' : Timestamp)
  | closed (shiftId closedBy : Uuid) (closingCash : Money) (at' : Timestamp)
  deriving DecidableEq

namespace ShiftEvent

def shiftId : ShiftEvent → Uuid
  | opened shiftId .. | cashMoved shiftId .. | counted shiftId .. | closed shiftId .. => shiftId

def kind : ShiftEvent → String
  | opened .. => "shift.opened"
  | cashMoved .. => "shift.cash_moved"
  | counted .. => "shift.counted"
  | closed .. => "shift.closed"

/-- The event that starts a shift. -/
def isOpening : ShiftEvent → Bool
  | opened .. => true
  | _ => false

/-- The event that ends one. -/
def isClosing : ShiftEvent → Bool
  | closed .. => true
  | _ => false

end ShiftEvent

/-- Why a shift rejected an event. -/
inductive ShiftError where
  | money (error : MoneyError)
  | sale (error : SaleError)
  | notOpenedFirst (found : String)
  | alreadyOpened
  | wrongShift (expected found : Uuid)
  | closed
  | negativeCount (counted : Money)
  | notCounted
  deriving DecidableEq

/-! ## Section 2: The shift -/

inductive ShiftStatus where
  | «open»
  | closed
  deriving DecidableEq

structure CashMovement where
  id : Uuid
  amount : Money
  reason : CashMovementReason
  note : Option String
  authorizedBy : Uuid
  at' : Timestamp
  deriving DecidableEq

structure DrawerCount where
  counted : Money
  countedBy : Uuid
  at' : Timestamp
  deriving DecidableEq

/-- A till session, reconstructed from its events. -/
structure Shift where
  id : Uuid
  status : ShiftStatus
  openedBy : Uuid
  currency : Currency
  openingFloat : Money
  openedAt : Timestamp
  closedAt : Option Timestamp
  movements : List CashMovement
  counts : List DrawerCount
  closingCash : Option Money
  deriving DecidableEq

namespace Shift

def opened : ShiftEvent → Except ShiftError Shift
  | .opened shiftId openedBy currency openingFloat at' =>
    .ok { id := shiftId, status := .open, openedBy, currency, openingFloat, openedAt := at',
          closedAt := none, movements := [], counts := [], closingCash := none }
  | event => .error (.notOpenedFirst event.kind)

/-- What an event makes of a shift that is still open. -/
def transition (shift : Shift) : ShiftEvent → Except ShiftError Shift
  | .opened .. => .error .alreadyOpened
  | .cashMoved _ movementId amount reason note authorizedBy at' =>
    .ok { shift with
      movements := shift.movements ++ [⟨movementId, amount, reason, note, authorizedBy, at'⟩] }
  | .counted _ counted countedBy at' =>
    if counted.isNegative then .error (.negativeCount counted)
    else
      -- a recount leaves both attempts on the record
      .ok { shift with counts := shift.counts ++ [⟨counted, countedBy, at'⟩] }
  | .closed _ _ closingCash at' =>
    if shift.counts.isEmpty then .error .notCounted
    else .ok { shift with closingCash := some closingCash, closedAt := some at',
                          status := .closed }

/-- Apply one event. -/
def apply (shift : Shift) (event : ShiftEvent) : Except ShiftError Shift :=
  if event.shiftId ≠ shift.id then .error (.wrongShift shift.id event.shiftId)
  else if shift.status = .closed then .error .closed
  else shift.transition event

/-- Rebuild a shift from its events. -/
def replay : List ShiftEvent → Except ShiftError Shift
  | [] => .error (.notOpenedFirst "nothing")
  | first :: rest => do
    let shift ← opened first
    rest.foldlM apply shift

/-! ## Section 3: What the operations do -/

theorem opened_eq_ok {event : ShiftEvent} {shift : Shift} (h : opened event = .ok shift) :
    event.isOpening ∧ shift.id = event.shiftId ∧ shift.status = .open := by
  cases event <;> cases h
  exact ⟨rfl, rfl, rfl⟩

theorem transition_id {shift shift' : Shift} {event : ShiftEvent}
    (h : shift.transition event = .ok shift') : ¬ event.isOpening ∧ shift'.id = shift.id := by
  cases event with
  | opened => cases h
  | cashMoved =>
    cases h
    exact ⟨by simp [ShiftEvent.isOpening], rfl⟩
  | counted =>
    rw [transition] at h
    split at h <;> cases h
    exact ⟨by simp [ShiftEvent.isOpening], rfl⟩
  | closed =>
    rw [transition] at h
    split at h <;> cases h
    exact ⟨by simp [ShiftEvent.isOpening], rfl⟩

/-- A shift takes its own events while it is open, and keeps its id. -/
theorem apply_eq_ok {shift shift' : Shift} {event : ShiftEvent}
    (h : shift.apply event = .ok shift') :
    event.shiftId = shift.id ∧ shift.status = .open ∧ ¬ event.isOpening ∧
      shift'.id = shift.id := by
  unfold apply at h
  split at h
  · cases h
  rename_i hid
  split at h
  · cases h
  rename_i hstatus
  obtain ⟨hopening, hkeeps⟩ := transition_id h
  refine ⟨not_not.mp hid, ?_, hopening, hkeeps⟩
  cases hs : shift.status with
  | «open» => rfl
  | closed => exact absurd hs hstatus

theorem replay_concat {events : List ShiftEvent} {shift shift' : Shift} {event : ShiftEvent}
    (h : replay events = .ok shift) (happly : shift.apply event = .ok shift') :
    replay (events ++ [event]) = .ok shift' := by
  cases events with
  | nil => cases h
  | cons first rest =>
    obtain ⟨start, hstart, hrest⟩ := Except.bind_eq_ok.mp h
    refine Except.bind_eq_ok.mpr ⟨start, hstart, ?_⟩
    exact foldlM_append_eq_ok.mpr ⟨shift, hrest, foldlM_cons_eq_ok.mpr ⟨shift', happly, rfl⟩⟩

/-! ### Which streams replay -/

/-- What may follow in an open shift: movements and counts, and at the end its closing, once the
    drawer has been counted. -/
def Follows : Bool → List ShiftEvent → Prop
  | _, [] => True
  | _, .opened .. :: _ => False
  | counted, .cashMoved .. :: rest => Follows counted rest
  | _, .counted _ counted .. :: rest => ¬ counted.isNegative ∧ Follows true rest
  | counted, .closed .. :: rest => counted = true ∧ rest = []

/-- The events of one shift: its opening first and once. -/
def OpenedFirst : List ShiftEvent → Prop
  | [] => False
  | first :: rest => first.isOpening ∧ Follows false rest

theorem follows_iff (events : List ShiftEvent) (shift : Shift) (hopen : shift.status = .open)
    (hid : ∀ event ∈ events, event.shiftId = shift.id) :
    (events.foldlM apply shift).isOkay ↔ Follows (! shift.counts.isEmpty) events := by
  induction events generalizing shift with
  | nil => simp [Follows, Except.isOkay, pure, Except.pure]
  | cons event events ih =>
    obtain ⟨hthis, hrest⟩ := List.forall_mem_cons.mp hid
    have happly : shift.apply event = shift.transition event := by
      unfold apply
      rw [if_neg (not_not.mpr hthis), if_neg (by rw [hopen]; simp)]
    rw [foldlM_cons_isOkay, happly]
    cases event with
    | opened => simp [transition, Follows]
    | cashMoved =>
      simp only [transition, Except.ok.injEq, exists_eq_left', Follows]
      exact ih _ hopen hrest
    | counted _ counted =>
      by_cases hnegative : counted.isNegative
      · simp [transition, Follows, hnegative]
      · simp only [transition, if_neg hnegative, Except.ok.injEq, exists_eq_left', Follows]
        rw [and_iff_right hnegative]
        refine Iff.trans (ih _ ?_ ?_) ?_
        · exact hopen
        · exact hrest
        · have hcounted : ∀ count, (! (shift.counts ++ [count]).isEmpty) = true := by simp
          rw [hcounted]
    | closed =>
      by_cases hcounts : shift.counts.isEmpty
      · simp [transition, Follows, hcounts]
      · simp only [transition, if_neg hcounts, Except.ok.injEq, exists_eq_left', Follows]
        rw [and_iff_right (by simpa using hcounts)]
        -- nothing is applied to a closed shift
        cases events with
        | nil => simp [Except.isOkay, pure, Except.pure]
        | cons next rest =>
          rw [foldlM_cons_isOkay]
          simp [apply, hrest next List.mem_cons_self]

/-- The events of one shift replay exactly when it is opened first, and once, and nothing follows
    its closing. -/
theorem replay_isOkay_iff {events : List ShiftEvent} {shiftId : Uuid}
    (hid : ∀ event ∈ events, event.shiftId = shiftId) :
    (replay events).isOkay ↔ OpenedFirst events := by
  cases events with
  | nil => simp [replay, OpenedFirst, Except.isOkay]
  | cons first rest =>
    obtain ⟨hfirst, hrest⟩ := List.forall_mem_cons.mp hid
    cases first with
    | opened openedId =>
      have hsame : openedId = shiftId := hfirst
      subst hsame
      simp only [OpenedFirst, ShiftEvent.isOpening, true_and]
      exact follows_iff rest _ rfl hrest
    | cashMoved | counted | closed =>
      simp [replay, opened, OpenedFirst, ShiftEvent.isOpening, bind, Except.bind, Except.isOkay]

/-! ### The shift that is left open -/

theorem apply_status {shift shift' : Shift} {event : ShiftEvent}
    (h : shift.apply event = .ok shift') : shift'.status = .closed ↔ event.isClosing := by
  obtain ⟨-, hopen, -, -⟩ := apply_eq_ok h
  unfold apply at h
  split at h
  · cases h
  split at h
  · cases h
  cases event with
  | opened => cases h
  | cashMoved =>
    cases h
    simp [hopen, ShiftEvent.isClosing]
  | counted =>
    rw [transition] at h
    split at h <;> cases h
    simp [hopen, ShiftEvent.isClosing]
  | closed =>
    rw [transition] at h
    split at h <;> cases h
    simp [ShiftEvent.isClosing]

/-- A replay ends with the opening itself, or with an event of the shift so far. -/
theorem replay_concat_eq_ok {events : List ShiftEvent} {shift : Shift} {event : ShiftEvent}
    (h : replay (events ++ [event]) = .ok shift) :
    (events = [] ∧ opened event = .ok shift) ∨
      ∃ before, replay events = .ok before ∧ before.apply event = .ok shift := by
  cases events with
  | nil =>
    obtain ⟨start, hstart, hnil⟩ := Except.bind_eq_ok.mp h
    cases hnil
    exact .inl ⟨rfl, hstart⟩
  | cons first rest =>
    obtain ⟨start, hstart, hrest⟩ := Except.bind_eq_ok.mp h
    obtain ⟨before, hbefore, hlast⟩ := foldlM_append_eq_ok.mp hrest
    obtain ⟨_, happly, hnil⟩ := foldlM_cons_eq_ok.mp hlast
    cases hnil
    exact .inr ⟨before, Except.bind_eq_ok.mpr ⟨start, hstart, hbefore⟩, happly⟩

/-- The last event is a closing, or there is none. -/
def EndsClosed (events : List ShiftEvent) : Prop := ∀ last ∈ events.getLast?, last.isClosing

instance (events : List ShiftEvent) : Decidable (EndsClosed events) :=
  inferInstanceAs (Decidable (∀ last ∈ events.getLast?, _))

theorem endsClosed_concat (events : List ShiftEvent) (event : ShiftEvent) :
    EndsClosed (events ++ [event]) ↔ event.isClosing := by
  simp [EndsClosed]

/-- A shift that replays is open unless its closing is the last of it. -/
theorem replay_open_iff {events : List ShiftEvent} {shift : Shift}
    (h : replay events = .ok shift) : shift.status = .open ↔ ¬ EndsClosed events := by
  have hstatus : shift.status = .open ↔ ¬ shift.status = .closed := by
    cases shift.status <;> simp
  rw [hstatus, not_iff_not]
  induction events using List.reverseRecOn with
  | nil => cases h
  | append_singleton events event =>
    rw [endsClosed_concat]
    rcases replay_concat_eq_ok h with ⟨-, hopened⟩ | ⟨before, -, happly⟩
    · cases event <;> cases hopened
      simp [ShiftEvent.isClosing]
    · exact apply_status happly

/-- The events since the last opening. -/
def sinceOpening (events : List ShiftEvent) : List ShiftEvent :=
  events.foldl (fun kept event => if event.isOpening then [event] else kept ++ [event]) []

theorem sinceOpening_concat (events : List ShiftEvent) (event : ShiftEvent) :
    sinceOpening (events ++ [event]) =
      if event.isOpening then [event] else sinceOpening events ++ [event] := by
  unfold sinceOpening
  rw [List.foldl_concat]

theorem getLast?_sinceOpening (events : List ShiftEvent) :
    (sinceOpening events).getLast? = events.getLast? := by
  cases events using List.reverseRecOn with
  | nil => rfl
  | append_singleton events event =>
    rw [sinceOpening_concat, List.getLast?_concat]
    split
    · rfl
    · rw [List.getLast?_concat]

theorem replay_ids {events : List ShiftEvent} {shift : Shift} (h : replay events = .ok shift) :
    ∀ event ∈ events, event.shiftId = shift.id := by
  induction events using List.reverseRecOn generalizing shift with
  | nil => simp
  | append_singleton events event ih =>
    simp only [List.forall_mem_append, List.forall_mem_singleton]
    rcases replay_concat_eq_ok h with ⟨rfl, hopened⟩ | ⟨before, hbefore, happly⟩
    · exact ⟨by simp, (opened_eq_ok hopened).2.1.symm⟩
    · obtain ⟨hid, -, -, hkept⟩ := apply_eq_ok happly
      rw [hkept]
      exact ⟨ih hbefore, hid⟩

/-- One shift at a time: an event opens a shift, or is of the shift of the event before. -/
inductive OneAtATime : List ShiftEvent → Prop where
  | nil : OneAtATime []
  | opening {events : List ShiftEvent} {event : ShiftEvent} (h : OneAtATime events)
      (hopening : event.isOpening = true) : OneAtATime (events ++ [event])
  | next {events : List ShiftEvent} {last event : ShiftEvent} (h : OneAtATime events)
      (hlast : last ∈ events.getLast?) (hopening : event.isOpening = false)
      (hsame : event.shiftId = last.shiftId) : OneAtATime (events ++ [event])

theorem OneAtATime.opened {events : List ShiftEvent} (h : OneAtATime events) :
    ∀ event ∈ events, ∃ opening ∈ events, opening.isOpening = true ∧
      opening.shiftId = event.shiftId := by
  induction h with
  | nil => simp
  | @opening events event _ hopening ih =>
    intro other hother
    rcases List.mem_append.mp hother with hother | hother
    · obtain ⟨first, hfirst, hopens⟩ := ih other hother
      exact ⟨first, List.mem_append_left _ hfirst, hopens⟩
    · cases List.mem_singleton.mp hother
      exact ⟨event, by simp, hopening, rfl⟩
  | @next events last event _ hlast hopening hsame ih =>
    intro other hother
    have hbefore : ∃ before ∈ events, before.shiftId = other.shiftId := by
      rcases List.mem_append.mp hother with hother | hother
      · exact ⟨other, hother, rfl⟩
      · cases List.mem_singleton.mp hother
        exact ⟨last, List.mem_of_mem_getLast? hlast, hsame.symm⟩
    obtain ⟨before, hbefore, hid⟩ := hbefore
    obtain ⟨first, hfirst, hopens, hfirstId⟩ := ih before hbefore
    exact ⟨first, List.mem_append_left _ hfirst, hopens, hfirstId.trans hid⟩

/-- Where no two openings have one id, the events of the last shift are those since its opening. -/
theorem OneAtATime.filter_eq {events : List ShiftEvent} (h : OneAtATime events)
    (hfresh : ((events.filter (·.isOpening)).map (·.shiftId)).Nodup) :
    ∀ last ∈ events.getLast?,
      events.filter (·.shiftId = last.shiftId) = sinceOpening events := by
  induction h with
  | nil => simp
  | @opening events event h hopening ih =>
    intro last hlast
    rw [List.getLast?_concat] at hlast
    cases hlast
    rw [sinceOpening_concat, if_pos hopening, List.filter_append]
    -- an earlier event of the shift would have an earlier opening
    have hnone : events.filter (·.shiftId = event.shiftId) = [] := by
      rw [List.filter_eq_nil_iff]
      intro other hother hsame
      obtain ⟨first, hfirst, hopens, hid⟩ := h.opened other hother
      rw [List.filter_append, List.map_append, List.nodup_append] at hfresh
      refine hfresh.2.2 first.shiftId ?_ event.shiftId ?_ (hid.trans (by simpa using hsame))
      · exact List.mem_map_of_mem (List.mem_filter.mpr ⟨hfirst, hopens⟩)
      · simp [hopening]
    simp [hnone]
  | @next events last event h hlast hopening hsame ih =>
    intro other hother
    rw [List.getLast?_concat] at hother
    cases hother
    rw [List.filter_append, List.map_append] at hfresh
    have hbefore := ih (List.nodup_append.mp hfresh).1 last hlast
    rw [sinceOpening_concat, if_neg (by simp [hopening]), List.filter_append, ← hbefore, hsame]
    simp [hsame]

/-- The shift these events opened last is still open, and this is what became of it. -/
def LeftOpen (events : List ShiftEvent) (shift : Shift) : Prop :=
  replay (sinceOpening events) = .ok shift ∧ shift.status = .open

theorem LeftOpen.not_endsClosed {events : List ShiftEvent} {shift : Shift}
    (h : LeftOpen events shift) : ¬ EndsClosed events := by
  have hopen := (replay_open_iff h.1).mp h.2
  cases events using List.reverseRecOn with
  | nil => exact hopen
  | append_singleton events event =>
    rw [sinceOpening_concat] at hopen
    rw [endsClosed_concat]
    split at hopen
    · exact (endsClosed_concat [] event).not.mp hopen
    · exact (endsClosed_concat _ event).not.mp hopen

theorem LeftOpen.getLast? {events : List ShiftEvent} {shift : Shift} (h : LeftOpen events shift) :
    ∃ last, last ∈ events.getLast? := by
  cases hlast : events.getLast? with
  | none =>
    have hreplay := h.1
    rw [List.getLast?_eq_none_iff.mp hlast] at hreplay
    cases hreplay
  | some last => exact ⟨last, rfl⟩

theorem LeftOpen.unique {events : List ShiftEvent} {shift shift' : Shift}
    (h : LeftOpen events shift) (h' : LeftOpen events shift') : shift = shift' :=
  Except.ok.inj (h.1.symm.trans h'.1)

end Shift

end Sahl
