import Mathlib.Tactic
import Sahl.Core.Money

/-! # Stock transfers between outlets

    A transfer is what its events replay to: goods are sent on its lines, arrive in parts, and the
    difference is frozen when the transfer is settled. What a line was sent and what arrived on it
    are both kept, so that the difference is a figure of the transfer and not an entry in it.

    The main result is `replay_accounts`. -/

namespace Sahl

/-! ## Section 1: Events -/

structure DispatchLine where
  lineId : Uuid
  productId : Uuid
  /-- The batch it came out of at the sending outlet. -/
  batchId : Uuid
  quantity : Quantity
  deriving DecidableEq

/-- Everything that happens to a transfer. -/
inductive TransferEvent where
  | dispatched (transferId fromOutlet toOutlet : Uuid) (lines : List DispatchLine)
      (at' : Timestamp) (dispatchedBy : Uuid)
  | received (transferId lineId batchId : Uuid) (quantity : Quantity) (at' : Timestamp)
      (receivedBy : Uuid)
  | settled (transferId : Uuid) (at' : Timestamp) (settledBy : Uuid)
  deriving DecidableEq

namespace TransferEvent

def transferId : TransferEvent → Uuid
  | dispatched transferId .. | received transferId .. | settled transferId .. => transferId

def isSettlement : TransferEvent → Bool
  | settled .. => true
  | _ => false

end TransferEvent

inductive TransferError where
  | money (error : MoneyError)
  | notDispatched (transferId : Uuid)
  | alreadyDispatched (transferId : Uuid)
  | unknownLine (transferId lineId : Uuid)
  | settled (transferId : Uuid)
  | nonPositiveReceipt (quantity : Quantity)
  | empty
  | sameOutlet
  deriving DecidableEq

/-! ## Section 2: The transfer -/

/-- A dispatched line and what turned up at the other end. -/
structure LineTransit where
  line : DispatchLine
  received : Quantity
  deriving DecidableEq

namespace LineTransit

/-- Sent minus received. -/
def shortfall (transit : LineTransit) : Except MoneyError Quantity := do
  let negated ← transit.received.checkedNeg
  transit.line.quantity.checkedAdd negated

/-- Whether everything sent has arrived. -/
def isArrived (transit : LineTransit) : Except MoneyError Bool := do
  let shortfall ← transit.shortfall
  .ok (¬ 0 < shortfall.milli.val)

end LineTransit

/-- Where a transfer has got to. -/
inductive TransferStatus where
  /-- Sent, nothing has arrived. -/
  | inTransit
  /-- Some of it has arrived. -/
  | partlyArrived
  /-- All of it has arrived, but nobody has settled the transfer. -/
  | arrived
  | settled (short : Bool)
  deriving DecidableEq

/-- One transfer between two outlets. -/
structure Transfer where
  transferId : Uuid
  fromOutlet : Uuid
  toOutlet : Uuid
  dispatchedAt : Timestamp
  dispatchedBy : Uuid
  lines : UuidMap LineTransit
  settled : Bool
  deriving DecidableEq

namespace Transfer

/-- The transfer its dispatch describes. -/
def dispatched : TransferEvent → Except TransferError Transfer
  | .dispatched transferId fromOutlet toOutlet lines at' dispatchedBy =>
    if lines.isEmpty then .error .empty
    else if fromOutlet = toOutlet then .error .sameOutlet
    else
      .ok { transferId, fromOutlet, toOutlet, dispatchedAt := at', dispatchedBy
            lines := lines.foldl
              (fun entries (line : DispatchLine) => entries.insert line.lineId
                ⟨line, Quantity.zero⟩) ∅
            settled := false }
  | other => .error (.notDispatched other.transferId)

/-- Apply one event. -/
def apply (transfer : Transfer) (event : TransferEvent) : Outcome TransferError Transfer :=
  if transfer.settled then .refused transfer (.settled transfer.transferId)
  else
    match event with
    | .dispatched transferId .. => .refused transfer (.alreadyDispatched transferId)
    | .received _ lineId _ quantity .. =>
      if quantity.milli.val ≤ 0 then .refused transfer (.nonPositiveReceipt quantity)
      else
        match transfer.lines[lineId]? with
        | none => .refused transfer (.unknownLine transfer.transferId lineId)
        | some transit =>
          match transit.received.checkedAdd quantity with
          | .error error => .refused transfer (.money error)
          | .ok received =>
            .done { transfer with lines := transfer.lines.insert lineId { transit with received } }
    | .settled .. => .done { transfer with settled := true }

/-- Rebuild from a stream of events for one transfer. -/
def replay : List TransferEvent → Except TransferError Transfer
  | [] => .error .empty
  | first :: rest => do
    let transfer ← dispatched first
    rest.foldlM (fun transfer event => (transfer.apply event).toExcept) transfer

/-- What the loop over the lines keeps: whether any holds goods, and whether all have arrived. -/
def seeLine (seen : Bool × Bool) (transit : LineTransit) : Except MoneyError (Bool × Bool) := do
  let (anyReceived, allArrived) := seen
  let arrived ← transit.isArrived
  .ok (anyReceived || ! transit.received.isZero, allArrived && arrived)

/-- Where the transfer has got to. -/
def status (transfer : Transfer) : Except MoneyError TransferStatus := do
  let (anyReceived, allArrived) ← transfer.lines.values.foldlM seeLine (false, true)
  if transfer.settled then .ok (.settled ! allArrived)
  else .ok (match anyReceived, allArrived with
    | _, true => .arrived
    | true, false => .partlyArrived
    | false, false => .inTransit)

end Transfer

/-! ## Section 3: One line -/

namespace LineTransit

variable {transit : LineTransit}

/-- Sent minus received, as the integer it is. -/
def missing (transit : LineTransit) : Int :=
  transit.line.quantity.milli.val - transit.received.milli.val

/-- The shortfall is what is missing where that fits, and overflows where it does not. -/
theorem shortfall_spec (hreceived : 0 ≤ transit.received.milli.val) :
    (I64.Fits transit.missing → ∃ short, transit.shortfall = .ok short ∧
        short.milli.val = transit.missing) ∧
      (¬ I64.Fits transit.missing → transit.shortfall = .error .overflow) := by
  have hneg : I64.Fits (-transit.received.milli.val) := by
    have := transit.received.milli.hi'
    exact ⟨by omega, by omega⟩
  obtain ⟨negated, hnegated⟩ := Quantity.fits_iff.mp hneg
  have hshort : transit.shortfall = transit.line.quantity.checkedAdd negated := by
    rw [shortfall, Quantity.checkedNeg_eq_ok.mpr hnegated]
    rfl
  have hsum : transit.line.quantity.milli.val + negated.milli.val = transit.missing := by
    rw [hnegated, missing]
    omega
  rw [hshort]
  constructor
  · intro hfits
    obtain ⟨short, hvalue⟩ := Quantity.fits_iff.mp hfits
    exact ⟨short, Quantity.checkedAdd_eq_ok.mpr (hvalue.trans hsum.symm), hvalue⟩
  · intro hfits
    refine Quantity.checkedAdd_eq_overflow ?_
    rwa [hsum]

theorem isArrived_spec (hreceived : 0 ≤ transit.received.milli.val) :
    (I64.Fits transit.missing → transit.isArrived = .ok (transit.missing ≤ 0)) ∧
      (¬ I64.Fits transit.missing → transit.isArrived = .error .overflow) := by
  obtain ⟨hok, herror⟩ := shortfall_spec hreceived
  constructor
  · intro hfits
    obtain ⟨short, hshort, hvalue⟩ := hok hfits
    rw [isArrived, hshort]
    simp [bind, Except.bind, hvalue]
  · intro hfits
    rw [isArrived, herror hfits]
    rfl

end LineTransit

/-! ## Section 4: What a transfer accounts for -/

namespace Transfer

variable {transfer transfer' : Transfer} {event : TransferEvent} {events : List TransferEvent}

/-- What arrived on a line in some events. -/
def arrivedOn (lineId : Uuid) (events : List TransferEvent) : Int :=
  (events.map fun
    | .received _ onLine _ quantity .. => if onLine = lineId then quantity.milli.val else 0
    | _ => 0).sum

/-- A transfer that holds, on exactly the lines dispatched, what arrived on each in some events,
    and is settled if one of the events settles it. -/
structure Holds (transfer : Transfer) (lines : List DispatchLine) (events : List TransferEvent) :
    Prop where
  line : ∀ (lineId : Uuid) (transit : LineTransit), transfer.lines[lineId]? = some transit →
    transit.line ∈ lines ∧ transit.line.lineId = lineId ∧
      transit.received.milli.val = arrivedOn lineId events ∧ 0 ≤ transit.received.milli.val
  present : ∀ line ∈ lines, ∃ transit, transfer.lines[line.lineId]? = some transit ∧
    transit.line = line
  settled : transfer.settled = true ↔ ∃ event ∈ events, event.isSettlement = true

/-- What one event does: it is refused and changes nothing, settles a transfer that is open, or
    adds what arrived to one of its lines. -/
theorem apply_cases (transfer : Transfer) (event : TransferEvent) :
    (∃ error, transfer.apply event = .refused transfer error) ∨
      (transfer.settled = false ∧ event.isSettlement = true ∧
        transfer.apply event = .done { transfer with settled := true }) ∨
      ∃ transferId lineId batchId quantity at' receivedBy transit received,
        event = .received transferId lineId batchId quantity at' receivedBy ∧
        transfer.settled = false ∧ 0 < quantity.milli.val ∧
        transfer.lines[lineId]? = some transit ∧
        received.milli.val = transit.received.milli.val + quantity.milli.val ∧
        transfer.apply event = .done { transfer with
          lines := transfer.lines.insert lineId { transit with received } } := by
  unfold apply
  by_cases hsettled : transfer.settled = true
  · rw [if_pos hsettled]
    exact .inl ⟨_, rfl⟩
  rw [if_neg hsettled]
  rw [Bool.not_eq_true] at hsettled
  cases event with
  | dispatched => exact .inl ⟨_, rfl⟩
  | settled => exact .inr (.inl ⟨hsettled, rfl, rfl⟩)
  | received transferId lineId batchId quantity at' receivedBy =>
    -- a receipt is refused for its quantity, for its line, or where the sum overflows
    by_cases hpositive : quantity.milli.val ≤ 0
    · exact .inl ⟨_, if_pos hpositive⟩
    simp only [if_neg hpositive]
    cases hline : transfer.lines[lineId]? with
    | none => exact .inl ⟨_, rfl⟩
    | some transit =>
      cases hadd : transit.received.checkedAdd quantity with
      | error error =>
        refine .inl ⟨.money error, ?_⟩
        simp only [hadd]
      | ok received =>
        refine .inr (.inr ⟨transferId, lineId, batchId, quantity, at', receivedBy, transit,
          received, rfl, hsettled, by omega, hline, Quantity.checkedAdd_eq_ok.mp hadd, ?_⟩)
        simp only [hadd]

/-- A refused event leaves the transfer as it was. -/
theorem apply_refused {error : TransferError} (h : (transfer.apply event).answer = .error error) :
    (transfer.apply event).state = transfer := by
  rcases apply_cases transfer event with ⟨_, happly⟩ | ⟨-, -, happly⟩ |
    ⟨_, _, _, _, _, _, _, _, -, -, -, -, -, happly⟩
  · rw [happly]
    rfl
  all_goals
    rw [happly] at h
    cases h

/-- Nothing follows a settlement. -/
theorem apply_settled (hsettled : transfer.settled = true) (event : TransferEvent) :
    transfer.apply event = .refused transfer (.settled transfer.transferId) := by
  unfold apply
  rw [if_pos hsettled]

theorem arrivedOn_concat (lineId : Uuid) (events : List TransferEvent) (event : TransferEvent) :
    arrivedOn lineId (events ++ [event]) = arrivedOn lineId events + arrivedOn lineId [event] := by
  simp [arrivedOn]

/-- A dispatch puts every line on its way, with nothing arrived. -/
theorem dispatched_holds {transferId fromOutlet toOutlet : Uuid} {lines : List DispatchLine}
    {at' : Timestamp} {dispatchedBy : Uuid} (hids : (lines.map (·.lineId)).Nodup)
    (h : dispatched (.dispatched transferId fromOutlet toOutlet lines at' dispatchedBy) =
      .ok transfer) : transfer.Holds lines [] := by
  simp only [dispatched] at h
  split at h
  · cases h
  split at h
  · cases h
  cases h
  -- the lines are entered one by one, and their ids are distinct
  have hget : ∀ (lineId : Uuid) (transit : LineTransit), (lines.foldl
      (fun (entries : UuidMap LineTransit) (line : DispatchLine) => entries.insert line.lineId
        ⟨line, Quantity.zero⟩) ∅)[lineId]? = some transit ↔
        ∃ line ∈ lines, line.lineId = lineId ∧ transit = ⟨line, Quantity.zero⟩ := by
    intro lineId transit
    rw [← List.foldl_map
      (f := fun line : DispatchLine => (line.lineId, (⟨line, Quantity.zero⟩ : LineTransit)))
      (g := fun (m : UuidMap LineTransit) e => m.insert e.1 e.2),
      UuidMap.foldl_insert_get_iff (by rwa [List.map_map]), List.mem_map]
    refine exists_congr fun line => and_congr_right fun _ => ?_
    rw [Prod.mk.injEq]
    exact and_congr_right fun _ => eq_comm
  refine ⟨?_, ?_, by simp⟩
  · intro lineId transit htransit
    obtain ⟨line, hline, hid, rfl⟩ := (hget lineId transit).mp htransit
    exact ⟨hline, hid, rfl, le_refl _⟩
  · intro line hline
    exact ⟨_, (hget line.lineId _).mpr ⟨line, hline, rfl, rfl⟩, rfl⟩

/-- What arrived on a line stays what its events add up to. -/
theorem Holds.step {lines : List DispatchLine} (h : transfer.Holds lines events)
    (happly : (transfer.apply event).toExcept = .ok transfer') :
    transfer'.Holds lines (events ++ [event]) := by
  rcases apply_cases transfer event with ⟨_, hcase⟩ | ⟨hopen, hsettles, hcase⟩ |
    ⟨transferId, lineId, batchId, quantity, at', receivedBy, transit, received, rfl, hopen,
      hpositive, hline, hsum, hcase⟩
  · rw [hcase] at happly
    cases happly
  · rw [hcase] at happly
    cases happly
    refine ⟨?_, h.present, by simp [hsettles]⟩
    intro lineId transit htransit
    obtain ⟨hmem, hid, harrived, hreceived⟩ := h.line lineId transit htransit
    have hnone : arrivedOn lineId [event] = 0 := by
      cases event with
      | settled => rfl
      | dispatched => cases hsettles
      | received => cases hsettles
    refine ⟨hmem, hid, ?_, hreceived⟩
    rw [arrivedOn_concat, hnone, harrived]
    omega
  · rw [hcase] at happly
    cases happly
    -- the line the goods came in on is longer by them, and every other is as it was
    have hget : ∀ (lineId' : Uuid), (transfer.lines.insert lineId
        { transit with received })[lineId']? =
          if lineId = lineId' then some { transit with received } else transfer.lines[lineId']? :=
      fun lineId' => UuidMap.get_insert _ _ _ _
    refine ⟨?_, ?_, ?_⟩
    · intro lineId' transit' htransit'
      replace htransit' := (hget lineId').symm.trans htransit'
      rw [arrivedOn_concat]
      split at htransit'
      · rename_i hsame
        cases htransit'
        subst hsame
        obtain ⟨hmem, hid, harrived, hreceived⟩ := h.line lineId transit hline
        refine ⟨hmem, hid, ?_, ?_⟩
        · simp [arrivedOn, hsum, harrived]
        · show 0 ≤ received.milli.val
          omega
      · rename_i hother
        obtain ⟨hmem, hid, harrived, hreceived⟩ := h.line lineId' transit' htransit'
        refine ⟨hmem, hid, ?_, hreceived⟩
        simp [arrivedOn, harrived, hother]
    · intro line hmem
      obtain ⟨found, hfound, hsame⟩ := h.present line hmem
      by_cases hid : lineId = line.lineId
      · rw [← hid, hline] at hfound
        cases hfound
        exact ⟨{ transit with received }, (hget line.lineId).trans (if_pos hid), hsame⟩
      · exact ⟨found, (hget line.lineId).trans ((if_neg hid).trans hfound), hsame⟩
    · refine h.settled.trans ?_
      simp [TransferEvent.isSettlement]

/-- A transfer that its events replay to holds what arrived in them. -/
theorem replay_holds {transferId fromOutlet toOutlet : Uuid} {lines : List DispatchLine}
    {at' : Timestamp} {dispatchedBy : Uuid} (hids : (lines.map (·.lineId)).Nodup)
    (h : replay (.dispatched transferId fromOutlet toOutlet lines at' dispatchedBy :: events) =
      .ok transfer) : transfer.Holds lines events := by
  obtain ⟨start, hstart, hrest⟩ := Except.bind_eq_ok.mp h
  refine foldlM_invariant (fun seen (transfer : Transfer) => transfer.Holds lines seen) ?_
    (dispatched_holds hids hstart) hrest
  exact fun _ _ _ _ hseen happly => hseen.step happly

/-! ## Section 5: The status -/

/-- The loop over the lines ends, unless the difference on one of them does not fit. -/
theorem foldlM_seeLine {transits : List LineTransit}
    (hreceived : ∀ transit ∈ transits, 0 ≤ transit.received.milli.val) (seen : Bool × Bool) :
    ((∀ transit ∈ transits, I64.Fits transit.missing) →
        transits.foldlM seeLine seen = .ok (seen.1 || transits.any (! ·.received.isZero),
          seen.2 && transits.all (·.missing ≤ 0))) ∧
      ((∃ transit ∈ transits, ¬ I64.Fits transit.missing) →
        transits.foldlM seeLine seen = .error .overflow) := by
  induction transits generalizing seen with
  | nil => exact ⟨fun _ => by simp [pure, Except.pure], fun h => by simp at h⟩
  | cons transit rest ih =>
    rw [List.forall_mem_cons] at hreceived
    obtain ⟨hok, herror⟩ := LineTransit.isArrived_spec hreceived.1
    rw [List.foldlM_cons, seeLine]
    -- the loop goes on to the rest, or ends at the first line that does not fit
    by_cases hfits : I64.Fits transit.missing
    · obtain ⟨ihok, iherror⟩ := ih hreceived.2
        (seen.1 || ! transit.received.isZero, seen.2 && decide (transit.missing ≤ 0))
      rw [hok hfits]
      constructor
      · intro h
        refine (ihok (List.forall_mem_cons.mp h).2).trans ?_
        simp [Bool.or_assoc, Bool.and_assoc]
      · rintro ⟨other, hmem, hother⟩
        rcases List.mem_cons.mp hmem with rfl | hmem
        · exact absurd hfits hother
        · exact iherror ⟨other, hmem, hother⟩
    · rw [herror hfits]
      exact ⟨fun h => absurd (h transit List.mem_cons_self) hfits, fun _ => rfl⟩

/-- What a status says of the lines a transfer was dispatched with and of what has happened to
    them. -/
def Describes (lines : List DispatchLine) (events : List TransferEvent) : TransferStatus → Prop
  | .inTransit =>
    (∀ event ∈ events, event.isSettlement = false) ∧
      (∃ line ∈ lines, arrivedOn line.lineId events < line.quantity.milli.val) ∧
      ∀ line ∈ lines, arrivedOn line.lineId events = 0
  | .partlyArrived =>
    (∀ event ∈ events, event.isSettlement = false) ∧
      (∃ line ∈ lines, arrivedOn line.lineId events < line.quantity.milli.val) ∧
      ∃ line ∈ lines, 0 < arrivedOn line.lineId events
  | .arrived =>
    (∀ event ∈ events, event.isSettlement = false) ∧
      ∀ line ∈ lines, line.quantity.milli.val ≤ arrivedOn line.lineId events
  | .settled short =>
    (∃ event ∈ events, event.isSettlement = true) ∧
      (short = true ↔ ∃ line ∈ lines, arrivedOn line.lineId events < line.quantity.milli.val)

/-- What is still missing on a line, by its events. -/
def missingOn (events : List TransferEvent) (line : DispatchLine) : Int :=
  line.quantity.milli.val - arrivedOn line.lineId events

/-- The lines a transfer holds are those dispatched, and hold what arrived on them. -/
theorem Holds.exists_values {lines : List DispatchLine} (h : transfer.Holds lines events)
    {p : Int → Int → Prop} :
    (∃ transit ∈ transfer.lines.values, p transit.received.milli.val transit.missing) ↔
      ∃ line ∈ lines, p (arrivedOn line.lineId events) (missingOn events line) := by
  constructor
  · intro hfound
    obtain ⟨transit, hmem, hp⟩ := hfound
    obtain ⟨lineId, hline⟩ := UuidMap.mem_values.mp hmem
    obtain ⟨hmem, rfl, harrived, -⟩ := h.line lineId transit hline
    refine ⟨transit.line, hmem, ?_⟩
    rw [LineTransit.missing, harrived] at hp
    exact hp
  · intro hfound
    obtain ⟨line, hmem, hp⟩ := hfound
    obtain ⟨transit, hline, rfl⟩ := h.present line hmem
    obtain ⟨-, -, harrived, -⟩ := h.line _ transit hline
    refine ⟨transit, UuidMap.mem_values.mpr ⟨_, hline⟩, ?_⟩
    rw [LineTransit.missing, harrived]
    exact hp

/-- Nothing comes in on a line by less than nothing. -/
theorem Holds.arrivedOn_nonneg {lines : List DispatchLine} (h : transfer.Holds lines events)
    {line : DispatchLine} (hmem : line ∈ lines) : 0 ≤ arrivedOn line.lineId events := by
  obtain ⟨transit, hline, -⟩ := h.present line hmem
  obtain ⟨-, -, harrived, hreceived⟩ := h.line _ transit hline
  omega

/-- A line has received something where something arrived on it. -/
theorem Holds.received_iff {lines : List DispatchLine} (h : transfer.Holds lines events) :
    transfer.lines.values.any (! ·.received.isZero) = true ↔
      ∃ line ∈ lines, arrivedOn line.lineId events ≠ 0 := by
  rw [List.any_eq_true, ← h.exists_values (p := fun received _ => received ≠ 0)]
  simp [Quantity.isZero]

/-- A line misses something where less arrived on it than was sent. -/
theorem Holds.missing_iff {lines : List DispatchLine} (h : transfer.Holds lines events) :
    transfer.lines.values.all (·.missing ≤ 0) = false ↔
      ∃ line ∈ lines, arrivedOn line.lineId events < line.quantity.milli.val := by
  have hpositive : (∃ line ∈ lines, 0 < missingOn events line) ↔
      ∃ line ∈ lines, arrivedOn line.lineId events < line.quantity.milli.val := by
    refine exists_congr fun line => and_congr_right fun _ => ?_
    rw [missingOn]
    omega
  rw [← hpositive, List.all_eq_false, ← h.exists_values (p := fun _ missing => 0 < missing)]
  simp

/-- The status is read off what the loop over the lines found. -/
theorem status_eq (transfer : Transfer) :
    transfer.status = (transfer.lines.values.foldlM seeLine (false, true)).bind fun seen =>
      if transfer.settled then .ok (.settled ! seen.2)
      else if seen.2 then .ok .arrived
      else if seen.1 then .ok .partlyArrived
      else .ok .inTransit := by
  unfold status
  refine congrArg (Except.bind _) (funext ?_)
  rintro ⟨anyReceived, allArrived⟩
  cases anyReceived <;> cases allArrived <;> rfl

/-- The status says of the transfer what is so, where no difference is too great to be told. -/
theorem Holds.status_spec {lines : List DispatchLine} (h : transfer.Holds lines events) :
    ((∀ line ∈ lines, I64.Fits (missingOn events line)) →
        ∃ status, transfer.status = .ok status ∧ Describes lines events status) ∧
      ((∃ line ∈ lines, ¬ I64.Fits (missingOn events line)) →
        transfer.status = .error .overflow) := by
  have hreceived : ∀ transit ∈ transfer.lines.values, 0 ≤ transit.received.milli.val := by
    intro transit hmem
    obtain ⟨lineId, hline⟩ := UuidMap.mem_values.mp hmem
    exact (h.line lineId transit hline).2.2.2
  obtain ⟨hok, herror⟩ := foldlM_seeLine hreceived (false, true)
  constructor
  · intro hfits
    have hwalk := hok fun transit hmem => by
      by_contra hnot
      obtain ⟨line, hline, hmissing⟩ :=
        (h.exists_values (p := fun _ missing => ¬ I64.Fits missing)).mp ⟨transit, hmem, hnot⟩
      exact hmissing (hfits line hline)
    simp only [Bool.false_or, Bool.true_and] at hwalk
    rw [status_eq, hwalk, Except.bind]
    -- the branches in the order of the code: settled, all arrived, some arrived, none
    by_cases hsettled : transfer.settled = true
    · exact ⟨_, if_pos hsettled, h.settled.mp hsettled, by rw [Bool.not_eq_true', h.missing_iff]⟩
    have hopen : ∀ event ∈ events, event.isSettlement = false := fun event hevent =>
      Bool.eq_false_iff.mpr fun hsettles => hsettled (h.settled.mpr ⟨event, hevent, hsettles⟩)
    by_cases harrived : transfer.lines.values.all (·.missing ≤ 0) = true
    · refine ⟨.arrived, by rw [if_neg hsettled, if_pos harrived], hopen, fun line hmem => ?_⟩
      by_contra hless
      rw [h.missing_iff.mpr ⟨line, hmem, by omega⟩] at harrived
      cases harrived
    have hless := h.missing_iff.mp (Bool.not_eq_true _ ▸ harrived)
    by_cases hsome : transfer.lines.values.any (! ·.received.isZero) = true
    · obtain ⟨line, hmem, hline⟩ := h.received_iff.mp hsome
      have := h.arrivedOn_nonneg hmem
      exact ⟨.partlyArrived, by rw [if_neg hsettled, if_neg harrived, if_pos hsome], hopen, hless,
        line, hmem, by omega⟩
    · refine ⟨.inTransit, by rw [if_neg hsettled, if_neg harrived, if_neg hsome], hopen, hless,
        fun line hmem => ?_⟩
      by_contra hline
      exact hsome (h.received_iff.mpr ⟨line, hmem, hline⟩)
  · intro hunfit
    obtain ⟨line, hmem, hline⟩ := hunfit
    have hwalk := herror
      ((h.exists_values (p := fun _ missing => ¬ I64.Fits missing)).mpr ⟨line, hmem, hline⟩)
    rw [status_eq, hwalk]
    rfl

/-! ## Section 6: At every point -/

/-- A transfer that accounts for what it was dispatched with: each line holds what arrived on it,
    and what is missing makes up the quantity sent; the status says what is so; a settled transfer
    takes nothing more; and what is refused changes nothing. -/
structure Accounts (transfer : Transfer) (lines : List DispatchLine)
    (events : List TransferEvent) : Prop where
  line : ∀ line ∈ lines, ∃ transit, transfer.lines[line.lineId]? = some transit ∧
    transit.line = line ∧ transit.received.milli.val = arrivedOn line.lineId events ∧
    (I64.Fits (missingOn events line) → ∃ short, transit.shortfall = .ok short ∧
      line.quantity.milli.val = transit.received.milli.val + short.milli.val) ∧
    (¬ I64.Fits (missingOn events line) → transit.shortfall = .error .overflow)
  noOther : ∀ (lineId : Uuid) (transit : LineTransit),
    transfer.lines[lineId]? = some transit → ∃ line ∈ lines, line.lineId = lineId
  status : (∀ line ∈ lines, I64.Fits (missingOn events line)) →
    ∃ status, transfer.status = .ok status ∧ Describes lines events status
  noStatus : (∃ line ∈ lines, ¬ I64.Fits (missingOn events line)) →
    transfer.status = .error .overflow
  settled : (∃ event ∈ events, event.isSettlement = true) → ∀ event,
    transfer.apply event = .refused transfer (.settled transfer.transferId)
  refused : ∀ event error, (transfer.apply event).answer = .error error →
    (transfer.apply event).state = transfer

theorem Holds.accounts {lines : List DispatchLine} (h : transfer.Holds lines events) :
    transfer.Accounts lines events where
  line := by
    intro line hmem
    obtain ⟨transit, hline, rfl⟩ := h.present line hmem
    obtain ⟨-, -, harrived, hreceived⟩ := h.line _ transit hline
    have hmissing : transit.missing = missingOn events transit.line := by
      rw [LineTransit.missing, missingOn, harrived]
    obtain ⟨hok, herror⟩ := LineTransit.shortfall_spec hreceived
    rw [hmissing] at hok herror
    refine ⟨transit, hline, rfl, harrived, fun hfits => ?_, herror⟩
    obtain ⟨short, hshort, hvalue⟩ := hok hfits
    refine ⟨short, hshort, ?_⟩
    rw [hvalue, missingOn, harrived]
    omega
  noOther := by
    intro lineId transit hline
    obtain ⟨hmem, hid, -⟩ := h.line lineId transit hline
    exact ⟨transit.line, hmem, hid⟩
  status := h.status_spec.1
  noStatus := h.status_spec.2
  settled := fun hsettled event => apply_settled (h.settled.mpr hsettled) event
  refused := fun _ _ => apply_refused

/-- Goods in transit are accounted for at every point of a transfer's events. -/
theorem replay_accounts {transferId fromOutlet toOutlet : Uuid} {lines : List DispatchLine}
    {at' : Timestamp} {dispatchedBy : Uuid} (hids : (lines.map (·.lineId)).Nodup)
    (h : (replay (.dispatched transferId fromOutlet toOutlet lines at' dispatchedBy ::
      events)).isOkay) :
    ∀ seen rest, events = seen ++ rest → ∃ transfer,
      replay (.dispatched transferId fromOutlet toOutlet lines at' dispatchedBy :: seen) =
        .ok transfer ∧ transfer.Accounts lines seen := by
  rintro seen rest rfl
  obtain ⟨last, hlast⟩ := Except.isOkay_iff.mp h
  obtain ⟨start, hstart, hrun⟩ := Except.bind_eq_ok.mp hlast
  obtain ⟨transfer, hseen, -⟩ := foldlM_append_eq_ok.mp hrun
  have hreplay : replay (.dispatched transferId fromOutlet toOutlet lines at' dispatchedBy ::
      seen) = .ok transfer := Except.bind_eq_ok.mpr ⟨start, hstart, hseen⟩
  exact ⟨transfer, hreplay, (replay_holds hids hreplay).accounts⟩

/-! ### A line sent at the least quantity -/

/-- A line, and the dispatch of it from one outlet to another. -/
def sentLine (quantity : Quantity) : DispatchLine := ⟨30, 12, 50, quantity⟩

def oneLine (quantity : Quantity) : TransferEvent :=
  .dispatched 40 1 2 [sentLine quantity] Timestamp.epoch 7

/-- One unit of it arrives. -/
def oneUnit : TransferEvent := .received 40 30 60 ⟨I64.lit 1000⟩ Timestamp.epoch 7

theorem oneLine_accounts : ∃ transfer,
    replay [oneLine ⟨I64.lit 3000⟩, oneUnit] = .ok transfer ∧
      transfer.Accounts [sentLine ⟨I64.lit 3000⟩] [oneUnit] :=
  replay_accounts (by simp) (show (replay [oneLine ⟨I64.lit 3000⟩, oneUnit]).isOkay by decide)
    [oneUnit] [] rfl

/-- A line sent at the least quantity there is has no shortfall once anything arrives on it, and
    its transfer has no status. -/
theorem leastLine_unaccounted : ∃ transfer transit,
    replay [oneLine ⟨I64.lit (-9223372036854775808)⟩, oneUnit] = .ok transfer ∧
      transfer.lines[(30 : Uuid)]? = some transit ∧
      transit.shortfall = .error .overflow ∧ transfer.status = .error .overflow := by
  obtain ⟨transfer, htransfer⟩ := Except.isOkay_iff.mp
    (show (replay [oneLine ⟨I64.lit (-9223372036854775808)⟩, oneUnit]).isOkay = true by decide)
  have hline : (replay [oneLine ⟨I64.lit (-9223372036854775808)⟩, oneUnit]).toOption.all
      (fun transfer => transfer.lines[(30 : Uuid)]?.any (·.shortfall = .error .overflow) &&
        transfer.status = .error .overflow) = true := by
    decide +kernel
  rw [htransfer] at hline
  obtain ⟨hshort, hstatus⟩ := Bool.and_eq_true_iff.mp hline
  obtain ⟨transit, htransit, hoverflow⟩ := (Option.any_eq_true _ _).mp hshort
  exact ⟨transfer, transit, htransfer, htransit, of_decide_eq_true hoverflow,
    of_decide_eq_true hstatus⟩

end Transfer

end Sahl
