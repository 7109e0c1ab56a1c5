import Mathlib.Tactic
import Sahl.Core.Authority
import Sahl.Core.Ringing
import Sahl.Core.SaleHistory

/-! # The audit trail

    The handful of lines an owner should read, out of the events of a log. A line whose actor
    approved their own action is judged by what their role and the thresholds allow, on the
    figures the events carry: the worth a line was rung up with, a fixed discount. The till judged
    the line as it stood and a percentage by its own limit, so the two may differ
    (`unapproved_judges_iff`). -/

namespace Sahl

/-! ## Section 1: Entries -/

/-- How much attention a line deserves. -/
inductive Severity where
  | routine
  | notable
  | alert
  deriving DecidableEq

/-- What happened, who did it, and who allowed it. -/
structure AuditEntry where
  at' : Timestamp
  severity : Severity
  kind : String
  /-- The person whose action it was. -/
  actor : Uuid
  approvedBy : Option Uuid
  amount : Option Money
  summary : String
  deriving DecidableEq

/-- Whether the person who did it also approved it. -/
def AuditEntry.isSelfApproved (entry : AuditEntry) : Bool := entry.approvedBy = some entry.actor

def voidLabel : VoidReason → String
  | .mistake => "rung in error"
  | .customerChanged => "customer changed their mind"
  | .damaged => "damaged"
  | .unavailable => "unavailable"

/-- A percentage has no fixed value until it meets a basket. -/
def discountAmount : Discount → Option Money
  | .amount amount => some amount
  | .percentage _ | .none => none

/-- The line an event rings up. -/
def SaleEvent.rungLine : SaleEvent → Option SaleLine
  | lineAdded _ lineId productId name unitPrice quantity taxClass modifiers =>
    some { id := lineId, productId, name, unitPrice, quantity, taxClass, discount := .none,
           modifiers, void := none }
  | _ => none

/-- What a line was worth when it was rung up; an option that overflows the price is left out. -/
def SaleLine.rungValue (line : SaleLine) : Option Money :=
  let price := line.modifiers.foldl (fun price modifier =>
    (price.checkedAdd modifier.priceDelta).toOption.getD price) line.unitPrice
  (price.mulRatio line.quantity.milli Quantity.milliPerUnit .halfUp).toOption

/-- Note what a line is worth, where it is worth anything. -/
def noteValue (values : UuidMap Money) (line : SaleLine) : UuidMap Money :=
  match line.rungValue with
  | some value => values.insert line.id value
  | none => values

/-- What each line was worth when it was rung up. -/
def lineValues (events : List SaleEvent) : UuidMap Money :=
  (events.filterMap SaleEvent.rungLine).foldl noteValue ∅

/-- The auditable line of a sale event, where it moved money without selling something. -/
def saleEntry (values : UuidMap Money) : SaleEvent × Timestamp × Uuid → Option AuditEntry
  | (.lineVoided _ lineId reason authorizedBy, at', actor) =>
    some { at', severity := .notable, kind := "sale.line_voided", actor,
           approvedBy := some authorizedBy, amount := values[lineId]?,
           summary := "Line voided (" ++ voidLabel reason ++ ")" }
  | (.orderDiscounted _ discount authorizedBy, at', actor) =>
    some { at', severity := .notable, kind := "sale.order_discounted", actor,
           approvedBy := some authorizedBy, amount := discountAmount discount,
           summary := "Discount applied to a whole sale" }
  | (.abandoned .., at', actor) =>
    some { at', severity := .routine, kind := "sale.abandoned", actor, approvedBy := none,
           amount := none, summary := "Ticket abandoned without payment" }
  | _ => none

/-- Extract auditable lines from sale events. -/
def fromSales (events : List (SaleEvent × Timestamp × Uuid)) : List AuditEntry :=
  events.filterMap (saleEntry (lineValues (events.map (·.1))))

/-- Whether a role carried the authority an entry of this kind needed; an amount that was never
    recorded falls back to the permission alone. -/
def permits (role : Role) (kind : String) (amount : Option Money) (policy : ApprovalPolicy) :
    Bool :=
  match kind with
  | "sale.line_voided" =>
    match amount with
    | none => role.can .voidLine
    | some value => authorizeVoid role value policy = .allowed
  | "sale.order_discounted" =>
    match amount with
    | none => role.can .applyDiscount
    | some value => authorizeDiscount role value policy = .allowed
  | "shift.cash_moved" => role.can .moveCash
  | _ => true

/-- Self-approved lines where the actor's own role did not carry that authority. -/
def unapproved (entries : List AuditEntry) (roleOf : Uuid → Option Role)
    (policy : ApprovalPolicy) : List AuditEntry :=
  (entries.filter (·.isSelfApproved)).filter fun entry =>
    (roleOf entry.actor).all fun role => !permits role entry.kind entry.amount policy

/-- Note who opened a sale. -/
def noteOpener (openers : UuidMap Uuid) : SaleEvent → UuidMap Uuid
  | .opened saleId openedBy .. => openers.insert saleId openedBy
  | _ => openers

/-- The events of a log's sales, each with the person who opened its sale; nobody where the
    opening is not in the log. -/
def attributed (openers : UuidMap Uuid) :
    List (SaleEvent × Timestamp) → List (SaleEvent × Timestamp × Uuid)
  | [] => []
  | (event, at') :: rest =>
    let openers := noteOpener openers event
    (event, at', openers.getD event.saleId .nil) :: attributed openers rest

/-! ## Section 2: What a stream says of a line -/

/-- A line was rung up as another: it sells the same, at the same price. -/
structure SaleLine.RungAs (line rung : SaleLine) : Prop where
  id : rung.id = line.id
  unitPrice : rung.unitPrice = line.unitPrice
  modifiers : rung.modifiers = line.modifiers

theorem SaleLine.RungAs.trans {line other rung : SaleLine} (h : line.RungAs other)
    (h' : other.RungAs rung) : line.RungAs rung :=
  ⟨h'.id.trans h.id, h'.unitPrice.trans h.unitPrice, h'.modifiers.trans h.modifiers⟩

namespace Sale

/-- Every line of a changed list was in the list, or is what the change made of one. -/
theorem updateLine_mem {lineId : Uuid} {f : SaleLine → Except SaleError SaleLine}
    {lines lines' : List SaleLine} (h : updateLine lineId f lines = .ok lines') :
    ∀ line' ∈ lines', line' ∈ lines ∨ ∃ line ∈ lines, f line = .ok line' := by
  induction lines generalizing lines' with
  | nil => cases h
  | cons line rest ih =>
    simp only [updateLine] at h
    split at h
    · obtain ⟨changed, hchanged, h⟩ := Except.bind_eq_ok.mp h
      cases h
      refine List.forall_mem_cons.mpr ⟨.inr ⟨line, List.mem_cons_self, hchanged⟩, ?_⟩
      intro other hother
      exact .inl (List.mem_cons_of_mem _ hother)
    · obtain ⟨rest', hrest, h⟩ := Except.bind_eq_ok.mp h
      cases h
      refine List.forall_mem_cons.mpr ⟨.inl List.mem_cons_self, ?_⟩
      intro other hother
      rcases ih hrest other hother with hkept | ⟨old, hold, hchanged⟩
      · exact .inl (List.mem_cons_of_mem _ hkept)
      · exact .inr ⟨old, List.mem_cons_of_mem _ hold, hchanged⟩

theorem transition_openedBy {sale sale' : Sale} {event : SaleEvent}
    (h : sale.transition event = .ok sale') : sale'.openedBy = sale.openedBy := by
  cases transition_moved h with
  | completed hcomplete => rw [(complete_eq_ok hcomplete).2.2.2.2]
  | _ => rfl

/-- A line is the one the event rings up, or one that was there, at the price it had. -/
theorem transition_lines {sale sale' : Sale} {event : SaleEvent}
    (h : sale.transition event = .ok sale') :
    ∀ line' ∈ sale'.lines, event.rungLine = some line' ∨ ∃ line ∈ sale.lines, line'.RungAs line := by
  have hkept : ∀ line ∈ sale.lines, ∃ other ∈ sale.lines, line.RungAs other :=
    fun line hline => ⟨line, hline, rfl, rfl, rfl⟩
  -- an update in place keeps who rang the line up, whatever it does to the rest
  have hchanged : ∀ {lineId f lines}, updateLine lineId f sale.lines = .ok lines →
      (∀ line line', f line = .ok line' → line'.RungAs line) →
      ∀ line' ∈ lines, ∃ line ∈ sale.lines, line'.RungAs line := by
    intro lineId f lines hlines hf line' hline'
    rcases updateLine_mem hlines line' hline' with hsame | ⟨line, hline, hmade⟩
    · exact hkept line' hsame
    · exact ⟨line, hline, hf line line' hmade⟩
  cases transition_moved h with
  | @lineAdded saleId line price hnew hdiscount hvoid =>
    intro line' hline'
    rcases List.mem_append.mp hline' with hline' | hline'
    · exact .inr (hkept line' hline')
    · cases List.mem_singleton.mp hline'
      -- the line added is the one the event rings up
      rw [SaleEvent.rungLine, ← hdiscount, ← hvoid]
      exact .inl rfl
  | lineQuantityChanged hlines | lineDiscounted hlines =>
    intro line' hline'
    refine .inr (hchanged hlines (fun line line' hmade => ?_) line' hline')
    cases hmade
    exact ⟨rfl, rfl, rfl⟩
  | lineVoided hlines =>
    intro line' hline'
    refine .inr (hchanged hlines (fun line line' hmade => ?_) line' hline')
    split at hmade
    · cases hmade
    · cases hmade
      exact ⟨rfl, rfl, rfl⟩
  | completed hcomplete =>
    rw [(complete_eq_ok hcomplete).2.2.2.2]
    exact fun line hline => .inr (hkept line hline)
  | orderDiscounted | tenderRecorded | ticketClaimed | ticketReleased | releaseIgnored | seated
  | linesFired | abandoned => exact fun line hline => .inr (hkept line hline)

end Sale

/-- What a stream says of the book it leads to: who opened a sale, and as what its lines were
    rung up. -/
structure ToldBy (events : List SaleEvent) (book : SaleBook) : Prop where
  opener : ∀ (saleId : Uuid) (sale : Sale), book.sales[saleId]? = some sale →
    (events.foldl noteOpener ∅)[saleId]? = some sale.openedBy
  rung : ∀ (saleId : Uuid) (sale : Sale), book.sales[saleId]? = some sale → ∀ line ∈ sale.lines,
    ∃ rung ∈ events.filterMap SaleEvent.rungLine, line.RungAs rung

theorem toldBy_step {events : List SaleEvent} {event : SaleEvent} {book book' : SaleBook}
    (h : ToldBy events book) (hstep : (book.apply event).toExcept = .ok book') :
    ToldBy (events ++ [event]) book' := by
  obtain ⟨after, hafter, hinsert⟩ := UuidMap.alterM_eq_ok.mp (SaleBook.apply_eq_ok.mp hstep)
  have hopeners : (events ++ [event]).foldl noteOpener ∅ =
      noteOpener (events.foldl noteOpener ∅) event := by
    rw [List.foldl_append]
    rfl
  have hlater : ∀ rung ∈ events.filterMap SaleEvent.rungLine,
      rung ∈ (events ++ [event]).filterMap SaleEvent.rungLine := by
    intro rung hrung
    rw [List.filterMap_append]
    exact List.mem_append_left _ hrung
  -- only an opening starts a sale, and only a later event finds one
  cases hentry : book.sales[event.saleId]? with
  | none =>
    rw [hentry] at hafter
    obtain ⟨fresh, hfresh, hrest⟩ := Except.bind_eq_ok.mp hafter
    cases hrest
    cases event with
    | «opened» saleId openedBy currency pricingMode rounding =>
      cases hfresh
      constructor
      · intro id sale hsale
        rw [hopeners, noteOpener, UuidMap.get_insert]
        rw [← hinsert, UuidMap.get_insert] at hsale
        split at hsale
        · rename_i hid
          cases hsale
          exact if_pos hid
        · rename_i hid
          exact (if_neg hid).trans (h.opener id sale hsale)
      · intro id sale hsale line hline
        rw [← hinsert, UuidMap.get_insert] at hsale
        split at hsale
        · cases hsale
          exact absurd hline List.not_mem_nil
        · obtain ⟨rung, hrung, hras⟩ := h.rung id sale hsale line hline
          exact ⟨rung, hlater rung hrung, hras⟩
    | _ => cases hfresh
  | some before =>
    rw [hentry] at hafter
    obtain ⟨-, htransition, -⟩ := Sale.apply_eq_ok hafter
    have hopening := Sale.apply_opening hafter
    -- no event of a sale that is there notes another opener
    have hsame : noteOpener (events.foldl noteOpener ∅) event = events.foldl noteOpener ∅ := by
      cases event with
      | «opened» => cases hopening
      | _ => rfl
    constructor
    · intro id sale hsale
      rw [hopeners, hsame]
      rw [← hinsert, UuidMap.get_insert] at hsale
      split at hsale
      · rename_i hid
        subst hid
        cases hsale
        rw [Sale.transition_openedBy htransition]
        exact h.opener _ before hentry
      · exact h.opener id sale hsale
    · intro id sale hsale line hline
      rw [← hinsert, UuidMap.get_insert] at hsale
      split at hsale
      · cases hsale
        -- a line of the sale was rung up by this event or by one before
        rcases Sale.transition_lines htransition line hline with hrung | ⟨old, hold, hras⟩
        · refine ⟨line, ?_, rfl, rfl, rfl⟩
          rw [List.filterMap_append, List.mem_append]
          exact .inr (List.mem_filterMap.mpr ⟨event, List.mem_singleton_self event, hrung⟩)
        · obtain ⟨rung, hrung, hras'⟩ := h.rung _ before hentry old hold
          exact ⟨rung, hlater rung hrung, hras.trans hras'⟩
      · obtain ⟨rung, hrung, hras⟩ := h.rung id sale hsale line hline
        exact ⟨rung, hlater rung hrung, hras⟩

theorem toldBy_replay {events : List SaleEvent} {book : SaleBook}
    (h : SaleBook.replay events = .ok book) : ToldBy events book := by
  refine foldlM_invariant ToldBy (fun _ _ _ _ => toldBy_step) ?_ h
  constructor
  · intro saleId sale hsale
    simp [SaleBook.new] at hsale
  · intro saleId sale hsale
    simp [SaleBook.new] at hsale

/-! ### What a feed notes of it -/

section Feed

variable {events before after : List (SaleEvent × Timestamp)} {event : SaleEvent}
  {at' : Timestamp} {openers : UuidMap Uuid}

theorem attributed_events (openers : UuidMap Uuid) (events : List (SaleEvent × Timestamp)) :
    (attributed openers events).map (·.1) = events.map (·.1) := by
  induction events generalizing openers with
  | nil => rfl
  | cons entry rest ih => exact congrArg (entry.1 :: ·) (ih _)

/-- An event that opens nothing goes with whoever opened its sale before. -/
theorem attributed_mem (hopening : event.isOpening = false) :
    (event, at', ((before.map (·.1)).foldl noteOpener openers).getD event.saleId .nil) ∈
      attributed openers (before ++ (event, at') :: after) := by
  induction before generalizing openers with
  | nil =>
    have hsame : noteOpener openers event = openers := by
      cases event with
      | «opened» => cases hopening
      | _ => rfl
    rw [List.nil_append, attributed, hsame]
    exact List.mem_cons_self
  | cons first rest ih => exact List.mem_cons_of_mem _ ih

/-- A line keeps its value while lines with other ids are noted. -/
theorem noteValue_other {rungs : List SaleLine} {values : UuidMap Money} {lineId : Uuid}
    (h : ∀ rung ∈ rungs, rung.id ≠ lineId) :
    (rungs.foldl noteValue values)[lineId]? = values[lineId]? := by
  induction rungs generalizing values with
  | nil => rfl
  | cons rung rungs ih =>
    obtain ⟨hrung, hrungs⟩ := List.forall_mem_cons.mp h
    rw [List.foldl_cons, ih hrungs, noteValue]
    split
    · rw [UuidMap.get_insert, if_neg hrung]
    · rfl

/-- Where no two lines share an id, a line has the value it was rung up with. -/
theorem noteValue_get {rungs : List SaleLine} {values : UuidMap Money}
    (hids : (rungs.map (·.id)).Nodup) {rung : SaleLine} (hrung : rung ∈ rungs)
    (hnew : values[rung.id]? = none) :
    (rungs.foldl noteValue values)[rung.id]? = rung.rungValue := by
  induction rungs generalizing values with
  | nil => cases hrung
  | cons first rungs ih =>
    rw [List.map_cons, List.nodup_cons] at hids
    rw [List.foldl_cons]
    -- noted here and not written over, or noted later
    rcases List.mem_cons.mp hrung with rfl | hlater
    · rw [noteValue_other, noteValue]
      · cases hvalue : rung.rungValue with
        | none => exact hnew
        | some value => exact (UuidMap.get_insert ..).trans (if_pos rfl)
      · intro other hother hsame
        exact hids.1 (List.mem_map.mpr ⟨other, hother, hsame⟩)
    · refine ih hids.2 hlater ?_
      have hother : first.id ≠ rung.id := by
        intro hsame
        exact hids.1 (List.mem_map.mpr ⟨rung, hlater, hsame.symm⟩)
      rw [noteValue]
      split
      · rw [UuidMap.get_insert, if_neg hother]
        exact hnew
      · exact hnew

/-- Where the options do not overflow the price, the feed values a line as the till does. -/
theorem SaleLine.rungValue_eq {line : SaleLine} {price : Money}
    (h : line.effectiveUnitPrice = .ok price) : line.rungValue = line.lineValue.toOption := by
  have hfold : ∀ (modifiers : List Modifier) (start price : Money),
      modifiers.foldlM (fun price modifier => price.checkedAdd modifier.priceDelta) start =
        Except.ok price →
      modifiers.foldl (fun price modifier =>
        (price.checkedAdd modifier.priceDelta).toOption.getD price) start = price := by
    intro modifiers
    induction modifiers with
    | nil =>
      intro start price hstart
      exact Except.ok.inj hstart
    | cons modifier modifiers ih =>
      intro start price hstart
      obtain ⟨next, hnext, hrest⟩ := foldlM_cons_eq_ok.mp hstart
      rw [List.foldl_cons, hnext]
      exact ih next price hrest
  rw [rungValue, hfold _ _ _ h, lineValue, h]
  rfl

end Feed

/-! ## Section 3: Judged as the till authorised -/

/-- The person an event names as its approver. -/
def SaleEvent.approver : SaleEvent → Option Uuid
  | lineVoided _ _ _ authorizedBy | orderDiscounted _ _ authorizedBy => some authorizedBy
  | _ => none

/-- A line is worth something, and no more than a limit. -/
def SaleLine.Within (line : SaleLine) (limit : Money) : Prop :=
  ∃ value, line.lineValue = .ok value ∧ value.minor ≤ limit.minor

/-- What the till answers somebody of a role who asks for an event, by the book it would be
    recorded in. -/
def SaleBook.verdict (book : SaleBook) (role : Role) (policy : ApprovalPolicy) :
    SaleEvent → Option Authorization
  | .lineVoided saleId lineId _ _ => do
    let sale ← book.sales[saleId]?
    let line ← sale.lines.find? (·.id = lineId)
    let value ← line.lineValue.toOption
    some (authorizeVoid role value policy)
  | .orderDiscounted _ (.amount amount) _ => some (authorizeDiscount role amount policy)
  | .orderDiscounted _ (.percentage rate) _ => some (authorizeDiscountRate role rate policy)
  | _ => none

/-- A void or an order discount in a stream, approved by the cashier of its sale: where it stands,
    the book it was recorded in, and the verdict of the till on it. -/
structure Occasion (events : List (SaleEvent × Timestamp)) (roleOf : Uuid → Option Role)
    (policy : ApprovalPolicy) where
  before : List (SaleEvent × Timestamp)
  event : SaleEvent
  at' : Timestamp
  after : List (SaleEvent × Timestamp)
  place : events = before ++ (event, at') :: after
  book : SaleBook
  replays : SaleBook.replay (before.map (·.1)) = .ok book
  sale : Sale
  entry : book.sales[event.saleId]? = some sale
  approver : event.approver = some sale.openedBy
  role : Role
  known : roleOf sale.openedBy = some role
  verdict : Authorization
  judged : book.verdict role policy event = some verdict

section Judged

variable {events : List (SaleEvent × Timestamp)} {roleOf : Uuid → Option Role}
  {policy : ApprovalPolicy}

/-- The feed returns the line of the event as one that was not approved. -/
def Occasion.Flagged (occasion : Occasion events roleOf policy) : Prop :=
  ∃ entry, saleEntry (lineValues (events.map (·.1)))
      (occasion.event, occasion.at', occasion.sale.openedBy) = some entry ∧
    entry ∈ unapproved (fromSales (attributed ∅ events)) roleOf policy

/-- The feed and the till measure the same: a role that needs no threshold, a line on the same
    side of the limit as when it was rung up, a fixed amount, or a percentage above the limit. -/
def Occasion.MeasuredAlike (occasion : Occasion events roleOf policy) : Prop :=
  match occasion.event with
  | .lineVoided _ lineId .. => occasion.role.can .voidLine ∨
      ∀ line, occasion.sale.lines.find? (·.id = lineId) = some line →
        ∀ rung ∈ (events.map (·.1)).filterMap SaleEvent.rungLine, line.RungAs rung →
          (rung.Within policy.voidLimit ↔ line.Within policy.voidLimit)
  | .orderDiscounted _ (.percentage rate) _ => occasion.role.can .applyDiscount ∨
      policy.discountRateLimit.basisPoints < rate.basisPoints
  | _ => True

theorem mem_unapproved {entries : List AuditEntry} {entry : AuditEntry} :
    entry ∈ unapproved entries roleOf policy ↔ entry ∈ entries ∧ entry.isSelfApproved ∧
      ∀ role ∈ roleOf entry.actor, permits role entry.kind entry.amount policy = false := by
  simp only [unapproved, List.mem_filter, and_assoc, Option.all_eq_true, Bool.not_eq_true']
  rfl

/-- An event is flagged exactly where the role does not permit what the feed noted of it. -/
theorem Occasion.flagged_iff (occasion : Occasion events roleOf policy) {entry : AuditEntry}
    (hentry : saleEntry (lineValues (events.map (·.1)))
      (occasion.event, occasion.at', occasion.sale.openedBy) = some entry)
    (hactor : entry.actor = occasion.sale.openedBy)
    (happroved : entry.approvedBy = some occasion.sale.openedBy) :
    occasion.Flagged ↔ permits occasion.role entry.kind entry.amount policy = false := by
  have hopening : occasion.event.isOpening = false := by
    have happrover := occasion.approver
    cases hevent : occasion.event with
    | «opened» =>
      rw [hevent] at happrover
      cases happrover
    | _ => rfl
  have hopener := (toldBy_replay occasion.replays).opener _ _ occasion.entry
  have hmem := @attributed_mem occasion.before occasion.after occasion.event occasion.at' ∅
    hopening
  rw [← occasion.place, Std.ExtTreeMap.getD_eq_getD_getElem?, hopener, Option.getD_some] at hmem
  -- the opener noted from the stream is the one the book has, so the entry is in the feed
  have hfeed : entry ∈ fromSales (attributed ∅ events) := by
    rw [fromSales, attributed_events]
    exact List.mem_filterMap.mpr ⟨_, hmem, hentry⟩
  have hself : entry.isSelfApproved = true := by
    rw [AuditEntry.isSelfApproved, happroved, hactor]
    exact decide_eq_true rfl
  constructor
  · intro h
    obtain ⟨other, hother, hflagged⟩ := h
    cases hother.symm.trans hentry
    have hall := (mem_unapproved.mp hflagged).2.2
    rw [hactor, occasion.known] at hall
    exact hall _ rfl
  · intro h
    refine ⟨entry, hentry, mem_unapproved.mpr ⟨hfeed, hself, ?_⟩⟩
    rw [hactor, occasion.known]
    intro role hrole
    cases hrole
    exact h

/-- A void is judged by what the line was worth when it was rung up. -/
theorem permits_void {role : Role} {line rung : SaleLine} {value : Money}
    (hvalue : line.lineValue = .ok value) (hrung : line.RungAs rung) :
    permits role "sale.line_voided" rung.rungValue policy = true ↔
      role.can .voidLine ∨ rung.Within policy.voidLimit := by
  obtain ⟨price, hprice, -⟩ := Except.bind_eq_ok.mp hvalue
  have hsame : rung.effectiveUnitPrice = line.effectiveUnitPrice := by
    rw [SaleLine.effectiveUnitPrice, SaleLine.effectiveUnitPrice, hrung.unitPrice,
      hrung.modifiers]
  rw [SaleLine.rungValue_eq (hsame.trans hprice)]
  unfold SaleLine.Within
  cases hrungValue : rung.lineValue with
  | error error => simp [permits, Except.toOption]
  | ok noted => simp [permits, Except.toOption, authorizeVoid_eq_allowed]

/-- The feed agrees with the till on an event exactly where both measure the same. -/
theorem Occasion.agrees_iff
    (hids : (((events.map (·.1)).filterMap SaleEvent.rungLine).map (·.id)).Nodup)
    (occasion : Occasion events roleOf policy) :
    (occasion.Flagged ↔ occasion.verdict ≠ .allowed) ↔ occasion.MeasuredAlike := by
  have happrover := occasion.approver
  have hjudged := occasion.judged
  have hflagged := @occasion.flagged_iff
  have hreplays := toldBy_replay occasion.replays
  have hentry := occasion.entry
  unfold MeasuredAlike
  cases hevent : occasion.event with
  | lineVoided saleId lineId reason authorizedBy =>
    rw [hevent] at happrover hjudged hflagged hentry
    cases happrover
    have hsale : occasion.book.sales[saleId]? = some occasion.sale := hentry
    simp only [SaleBook.verdict, hsale, Option.bind_eq_bind, Option.bind_some,
      Option.bind_eq_some_iff, Except.toOption_eq_some] at hjudged
    obtain ⟨line, hline, value, hvalue, hverdict⟩ := hjudged
    have hid : line.id = lineId := by simpa using List.find?_some hline
    obtain ⟨rung, hrung, hras⟩ := hreplays.rung _ _ hsale line (List.mem_of_find?_eq_some hline)
    have hrung' : rung ∈ (events.map (·.1)).filterMap SaleEvent.rungLine := by
      rw [occasion.place, List.map_append, List.filterMap_append]
      exact List.mem_append_left _ hrung
    have hnoted : (lineValues (events.map (·.1)))[lineId]? = rung.rungValue := by
      rw [← hid, ← hras.id]
      exact noteValue_get hids hrung' (by simp)
    -- ids do not repeat, so one event alone rang this line up
    have hone : ∀ other ∈ (events.map (·.1)).filterMap SaleEvent.rungLine, line.RungAs other →
        other = rung := by
      intro other hother hras'
      exact List.inj_on_of_nodup_map hids hother hrung' (hras'.id.trans hras.id.symm)
    -- the feed goes by the value rung up, the till by the value the line has now
    have hpermits : occasion.Flagged ↔
        permits occasion.role "sale.line_voided" rung.rungValue policy = false := by
      rw [← hnoted]
      exact hflagged rfl rfl rfl
    have hallowed : occasion.verdict = .allowed ↔
        occasion.role.can .voidLine ∨ line.Within policy.voidLimit := by
      rw [← Option.some.inj hverdict, authorizeVoid_eq_allowed, SaleLine.Within, hvalue]
      simp
    have halike : (∀ other, occasion.sale.lines.find? (·.id = lineId) = some other →
        ∀ rung' ∈ (events.map (·.1)).filterMap SaleEvent.rungLine, other.RungAs rung' →
          (rung'.Within policy.voidLimit ↔ other.Within policy.voidLimit)) ↔
        (rung.Within policy.voidLimit ↔ line.Within policy.voidLimit) := by
      constructor
      · intro h
        exact h line hline rung hrung' hras
      · intro h other hother rung' hrung'' hras'
        cases hline.symm.trans hother
        rw [hone rung' hrung'' hras']
        exact h
    simp only [halike]
    rw [hpermits, ← Bool.not_eq_true, permits_void hvalue hras, ne_eq, hallowed]
    by_cases hcan : occasion.role.can .voidLine = true
    · simp only [hcan, true_or]
    · simp only [hcan, Bool.false_eq_true, false_or, not_iff_not]
  | orderDiscounted saleId discount authorizedBy =>
    rw [hevent] at happrover hjudged hflagged
    cases happrover
    have hpermits := hflagged rfl rfl rfl
    cases discount with
    | none => cases hjudged
    | amount amount =>
      have hverdict : authorizeDiscount occasion.role amount policy = occasion.verdict :=
        Option.some.inj hjudged
      rw [hpermits, ← hverdict]
      simp [permits, discountAmount]
    | percentage rate =>
      have hverdict : authorizeDiscountRate occasion.role rate policy = occasion.verdict :=
        Option.some.inj hjudged
      rw [hpermits, ← hverdict, ne_eq, authorizeDiscountRate_eq_allowed]
      simp only [permits, discountAmount]
      rw [← Bool.not_eq_true, ← not_le]
      tauto
  | _ =>
    rw [hevent] at happrover
    cases happrover

/-- The feed returns what a cashier did unaided where they needed somebody, and only that. -/
def JudgesAsAuthorised (events : List (SaleEvent × Timestamp)) (roleOf : Uuid → Option Role)
    (policy : ApprovalPolicy) : Prop :=
  ∀ occasion : Occasion events roleOf policy, occasion.Flagged ↔ occasion.verdict ≠ .allowed

/-- **The audit feed**: in every stream of sale events, the feed judges the voids and discounts
    that cashiers approved themselves as the till authorised them exactly where it measures each
    as the till did. -/
theorem unapproved_judges_iff
    (hids : (((events.map (·.1)).filterMap SaleEvent.rungLine).map (·.id)).Nodup) :
    JudgesAsAuthorised events roleOf policy ↔
      ∀ occasion : Occasion events roleOf policy, occasion.MeasuredAlike :=
  forall_congr' (Occasion.agrees_iff hids)

end Judged

/-! ### A line that became smaller -/

/-- Ten are rung up at 10.00 and nine come off again; then the line is voided. -/
def nineComeOff : List (SaleEvent × Timestamp) :=
  [(.opened 20 2 .bdt .taxInclusive .halfUp, .epoch),
   (.lineAdded 20 11 12 "Rice" ⟨I64.lit 1000, .bdt⟩ ⟨I64.lit 10000⟩ (.standard ⟨I32.lit 1500⟩) [],
    .epoch),
   (.lineQuantityChanged 20 11 ⟨I64.lit 1000⟩, .epoch)]

/-- The void is the cashier's own. -/
def ownVoid : SaleEvent := .lineVoided 20 11 .mistake 2

/-- Everybody is a cashier. -/
def allCashiers : Uuid → Option Role := fun _ => some .cashier

/-- A cashier may void lines of up to 50.00. -/
def upToFifty : ApprovalPolicy :=
  { ApprovalPolicy.strictest .bdt with voidLimit := ⟨I64.lit 5000, .bdt⟩ }

theorem unapproved_judges_iff_nineComeOff :
    JudgesAsAuthorised (nineComeOff ++ [(ownVoid, .epoch)]) allCashiers upToFifty ↔
      ∀ occasion : Occasion (nineComeOff ++ [(ownVoid, .epoch)]) allCashiers upToFifty,
        occasion.MeasuredAlike :=
  unapproved_judges_iff (by decide)

/-- The line as it was rung up, and as it is left. -/
def riceLine (quantity : I64) : SaleLine :=
  { id := 11, productId := 12, name := "Rice", unitPrice := ⟨I64.lit 1000, .bdt⟩,
    quantity := ⟨quantity⟩, taxClass := .standard ⟨I32.lit 1500⟩, discount := .none,
    modifiers := [], void := none }

/-- The sale at the void. -/
def riceSale : Sale :=
  { id := 20, status := .open, openedBy := 2, currency := .bdt, pricingMode := .taxInclusive,
    rounding := .halfUp, lines := [riceLine (I64.lit 1000)], orderDiscount := .none, tenders := [],
    settledTotal := none, changeGiven := none, settledAt := none, lease := none, seating := none,
    fired := [], roundsFired := 0 }

/-- The void at the end of the stream. -/
def voidOccasion : Occasion (nineComeOff ++ [(ownVoid, .epoch)]) allCashiers upToFifty where
  before := nineComeOff
  event := ownVoid
  at' := .epoch
  after := []
  place := rfl
  book := ⟨(∅ : UuidMap Sale).insert 20 riceSale⟩
  replays := by rfl
  sale := riceSale
  entry := by rfl
  approver := rfl
  role := .cashier
  known := rfl
  verdict := .allowed
  judged := by rfl

/-- The till lets the cashier void a line of 10.00. The feed takes it for 100.00. -/
theorem unapproved_flagsAllowed :
    ¬ ∀ (events : List (SaleEvent × Timestamp)) (roleOf : Uuid → Option Role)
        (policy : ApprovalPolicy),
      (((events.map (·.1)).filterMap SaleEvent.rungLine).map (·.id)).Nodup →
        JudgesAsAuthorised events roleOf policy := by
  intro h
  have hagrees := h (nineComeOff ++ [(ownVoid, .epoch)]) allCashiers upToFifty (by decide)
    voidOccasion
  have halike := (voidOccasion.agrees_iff (by decide)).mp hagrees
  rcases halike with hcan | hlines
  · cases hcan
  · have hsame := hlines (riceLine (I64.lit 1000)) (by rfl) (riceLine (I64.lit 10000)) (by decide)
      ⟨rfl, rfl, rfl⟩
    obtain ⟨value, hvalue, hlimit⟩ := hsame.mpr ⟨⟨I64.lit 1000, .bdt⟩, by rfl, by decide⟩
    have hten : (riceLine (I64.lit 10000)).lineValue = .ok ⟨I64.lit 10000, .bdt⟩ := by rfl
    cases hten.symm.trans hvalue
    exact absurd hlimit (by decide)

end Sahl
