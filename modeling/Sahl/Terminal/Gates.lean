import Mathlib.Tactic
import Sahl.Lib.Transition
import Sahl.Terminal.Forms
import Sahl.Terminal.Importing

/-! # The gates of the till

    Some events name a person who answers for them. A command that records one asks for a PIN, or
    for the person at the till where the action is small enough. `gated_passes` follows runs of
    commands, sign-ins, restarts and syncs: what they record passed its gate, as long as nobody
    closes a shift whose role may not. -/

namespace Sahl

/-! ## Section 1: What is gated -/

/-- Who put a product where it is. -/
def CatalogueEvent.madeBy : CatalogueEvent → Uuid
  | productAdded _ _ _ by' | productUpdated _ _ _ by' | productWithdrawn _ _ by'
  | productRestored _ _ by' => by'

/-- Who put a table where it is. -/
def FloorEvent.madeBy : FloorEvent → Uuid
  | tableAdded _ _ _ by' | tableUpdated _ _ _ by' | tableRemoved _ _ by'
  | tableRestored _ _ by' => by'

/-- What an event needs, and whom it names as responsible. -/
def DomainEvent.gate : DomainEvent → Option (Permission × Uuid)
  | .sale (.lineVoided _ _ _ authorizedBy) => some (.voidLine, authorizedBy)
  | .sale (.orderDiscounted _ _ authorizedBy) => some (.applyDiscount, authorizedBy)
  | .shift (.cashMoved _ _ _ _ _ authorizedBy _) => some (.moveCash, authorizedBy)
  | .shift (.closed _ closedBy _ _) => some (.closeShift, closedBy)
  | .catalogue event => some (.editCatalogue, event.madeBy)
  | .floor event => some (.editCatalogue, event.madeBy)
  | .staff (.enrolled _ _ _ _ _ enrolledBy) => some (.manageStaff, enrolledBy)
  | .outlet (.configured _ _ _ configuredBy) => some (.manageStaff, configuredBy)
  | _ => none

/-- The event a call is about; a delivery is two, and neither is gated. -/
def Terminal.Call.event? : Terminal.Call → Option DomainEvent
  | .record event _ | .completeSale event .. => some (.sale event)
  | .recordShift event _ => some (.shift event)
  | .recordStock event _ => some (.inventory event)
  | .recordPurchase event _ => some (.purchase event)
  | .recordStaff event _ => some (.staff event)
  | .recordCatalogue event _ => some (.catalogue event)
  | .recordFloor event _ => some (.floor event)
  | .recordOutlet event _ => some (.outlet event)
  | .recordReceipt .. => none

/-! ## Section 2: The commands -/

/-- What a command finds: the time, whether the database takes the write, new ids, and the key
    derivation for a new PIN. -/
structure Moment where
  now : Timestamp
  writable : Bool
  eventId : Uuid
  newId : Uuid
  formIds : NewIds
  derive : String → Except PinError String

/-- What the screens may ask for. -/
inductive Request where
  | voidLine (saleId lineId : Uuid) (reason pin : String)
  | discountOrder (saleId : Uuid) (amountMinor : Option I64) (basisPoints : Option I32)
      (pin : String)
  | moveCash (amountMinor : I64) (reason : String) (note : Option String) (pin : String)
  | closeShift (closingCashMinor : I64)
  | saveProduct (productId : Option Uuid) (form : ProductForm) (pin : String)
  | setProductActive (productId : Uuid) (active : Bool) (pin : String)
  | saveTable (tableId : Option Uuid) (form : TableForm) (pin : String)
  | setTableActive (tableId : Uuid) (active : Bool) (pin : String)
  | enrolStaff (name role newPin pin : String)
  | configureOutlet (form : OutletForm) (pin : String)

/-- The PIN typed with a request. -/
def Request.pin : Request → Option String
  | voidLine _ _ _ pin | discountOrder _ _ _ pin | moveCash _ _ _ pin | saveProduct _ _ pin
  | setProductActive _ _ pin | saveTable _ _ pin | setTableActive _ _ pin | enrolStaff _ _ _ pin
  | configureOutlet _ pin => some pin
  | closeShift _ => none

namespace AttendedTerminal

section Commands

variable (verify : PinVerify) (t : AttendedTerminal) (at' : Moment)

/-- Authenticate an approver. -/
def authorize (permission : Permission) (pin : String) : Except RequestError Uuid :=
  (t.desk.approve verify permission pin).mapError .authority

/-- The person at the till, or a refusal. -/
def signedIn : Except RequestError Uuid :=
  Except.okOr ((t.desk.currentSession at'.now).map (·.staffId)) .notSignedIn

/-- Ask the till who authorises this. -/
def authorizeAtLimit (permission : Permission)
    (verdict : Role → ApprovalPolicy → Authorization) (pin : String) : Except RequestError Uuid :=
  (t.desk.authorizeFor verify t.approvalPolicy permission verdict pin at'.now).mapError .authority

def outletCurrency : Except RequestError Currency :=
  t.currency.mapError (RequestError.command ∘ CommandError.terminal)

/-- A sale of the till. -/
def askedSale (saleId : Uuid) : Except RequestError Sale :=
  (t.sale saleId).mapError (RequestError.command ∘ CommandError.terminal)

/-- The running shift. -/
def askedShift : Except RequestError Shift :=
  Except.okOr t.shift (.command (.terminal .noOpenShift))

/-- What a line is worth, for judging whether voiding it needs approval. -/
def lineValue (saleId lineId : Uuid) : Except RequestError Money := do
  let sale ← t.askedSale saleId
  let line ← Except.okOr (sale.lines.find? (·.id = lineId)) (.unknownLine lineId)
  line.lineValue.mapError (RequestError.command ∘ CommandError.money)

def voidLine (saleId lineId : Uuid) (reason pin : String) : Except RequestError Terminal.Call := do
  let reason ← voidReason reason
  let value ← t.lineValue saleId lineId
  let authorizedBy ← t.authorizeAtLimit verify at' .voidLine
    (fun role policy => authorizeVoid role value policy) pin
  .ok (.record (.lineVoided saleId lineId reason authorizedBy) at'.eventId)

/-- A discount given as exactly one of an amount and a percentage. -/
def orderDiscount (currency : Currency) :
    Option I64 → Option I32 → Except RequestError Discount
  | some minor, none => .ok (.amount ⟨minor, currency⟩)
  | none, some points => .ok (.percentage ⟨points⟩)
  | _, _ => .error .badDiscount

/-- Who authorises a discount; a percentage is judged before it meets a basket. -/
def authorizeOrderDiscount (discount : Discount) (pin : String) : Except RequestError Uuid :=
  match discount with
  | .percentage rate => t.authorizeAtLimit verify at' .applyDiscount
      (fun role policy => authorizeDiscountRate role rate policy) pin
  | .amount amount => t.authorizeAtLimit verify at' .applyDiscount
      (fun role policy => authorizeDiscount role amount policy) pin
  | .none => .error .badDiscount

def discountOrder (saleId : Uuid) (amountMinor : Option I64) (basisPoints : Option I32)
    (pin : String) : Except RequestError Terminal.Call := do
  let sale ← t.askedSale saleId
  let discount ← orderDiscount sale.currency amountMinor basisPoints
  let authorizedBy ← t.authorizeOrderDiscount verify at' discount pin
  .ok (.record (.orderDiscounted saleId discount authorizedBy) at'.eventId)

def moveCash (amountMinor : I64) (reason : String) (note : Option String) (pin : String) :
    Except RequestError Terminal.Call := do
  let reason ← cashReason reason
  let authorizedBy ← t.authorize verify .moveCash pin
  let shift ← t.askedShift
  let currency ← t.outletCurrency
  .ok (.recordShift (.cashMoved shift.id at'.newId ⟨amountMinor, currency⟩ reason note
    authorizedBy at'.now) at'.eventId)

/-- Closing asks who is at the till, and no more. -/
def closeShift (closingCashMinor : I64) : Except RequestError Terminal.Call := do
  let closedBy ← t.signedIn at'
  let shift ← t.askedShift
  let currency ← t.outletCurrency
  .ok (.recordShift (.closed shift.id closedBy ⟨closingCashMinor, currency⟩ at'.now) at'.eventId)

def saveProduct (productId : Option Uuid) (form : ProductForm) (pin : String) :
    Except RequestError Terminal.Call := do
  let unit ← (MeasureUnit.fromLabel form.unit).mapError fun _ => RequestError.badUnit form.unit
  let currency ← t.outletCurrency
  let details ← form.details unit currency at'.formIds
  let authorizedBy ← t.authorize verify .editCatalogue pin
  .ok (.recordCatalogue (match productId with
    | some productId => .productUpdated productId details at'.now authorizedBy
    | none => .productAdded at'.newId details at'.now authorizedBy) at'.eventId)

def setProductActive (productId : Uuid) (active : Bool) (pin : String) :
    Except RequestError Terminal.Call := do
  let authorizedBy ← t.authorize verify .editCatalogue pin
  .ok (.recordCatalogue (if active then .productRestored productId at'.now authorizedBy
    else .productWithdrawn productId at'.now authorizedBy) at'.eventId)

def saveTable (tableId : Option Uuid) (form : TableForm) (pin : String) :
    Except RequestError Terminal.Call := do
  let authorizedBy ← t.authorize verify .editCatalogue pin
  .ok (.recordFloor (match tableId with
    | some tableId => .tableUpdated tableId form.details at'.now authorizedBy
    | none => .tableAdded at'.newId form.details at'.now authorizedBy) at'.eventId)

/-- An open ticket sits at the table. -/
def tableOccupied (tableId : Uuid) : Bool :=
  t.book.sales.values.any fun sale => sale.status = .open ∧ sale.seating.any (·.tableId = tableId)

def setTableActive (tableId : Uuid) (active : Bool) (pin : String) :
    Except RequestError Terminal.Call := do
  let authorizedBy ← t.authorize verify .editCatalogue pin
  if !active ∧ t.tableOccupied tableId then .error .tableOccupied
  else .ok (.recordFloor (if active then .tableRestored tableId at'.now authorizedBy
    else .tableRemoved tableId at'.now authorizedBy) at'.eventId)

/-- Who enrols somebody: the first person is an owner nobody approves. -/
def enrolledBy (role : Role) (pin : String) : Except RequestError Uuid :=
  if t.staff.isEmpty then if role = .owner then .ok .nil else .error .firstMustBeOwner
  else t.authorize verify .manageStaff pin

def enrolStaff (name role newPin pin : String) : Except RequestError Terminal.Call := do
  let role ← staffRole role
  let enrolledBy ← t.enrolledBy verify role pin
  let pinHash ← (hashPin at'.derive newPin).mapError RequestError.badPin
  .ok (.recordStaff (.enrolled at'.newId (Text.trim name) role pinHash at'.now enrolledBy)
    at'.eventId)

/-- Who sets the outlet up: the first setup is nobody's to approve. -/
def configuredBy (pin : String) : Except RequestError Uuid :=
  if t.staff.isEmpty then .ok .nil else t.authorize verify .manageStaff pin

def configureOutlet (form : OutletForm) (pin : String) : Except RequestError Terminal.Call := do
  let profile ← profileOf form.profile
  let currency ← (Currency.fromCode form.currency).mapError RequestError.badCurrency
  let regime ← (FiscalRegime.fromLabel form.regime).mapError RequestError.badRegime
  let configuredBy ← t.configuredBy verify pin
  let settings ← form.settings profile currency regime
  .ok (.recordOutlet (.configured t.identity.outletId settings at'.now configuredBy) at'.eventId)

/-- The call a request comes to, once it is authorised. -/
def ask : Request → Except RequestError Terminal.Call
  | .voidLine saleId lineId reason pin => t.voidLine verify at' saleId lineId reason pin
  | .discountOrder saleId amountMinor basisPoints pin =>
    t.discountOrder verify at' saleId amountMinor basisPoints pin
  | .moveCash amountMinor reason note pin => t.moveCash verify at' amountMinor reason note pin
  | .closeShift closingCashMinor => t.closeShift at' closingCashMinor
  | .saveProduct productId form pin => t.saveProduct verify at' productId form pin
  | .setProductActive productId active pin => t.setProductActive verify at' productId active pin
  | .saveTable tableId form pin => t.saveTable verify at' tableId form pin
  | .setTableActive tableId active pin => t.setTableActive verify at' tableId active pin
  | .enrolStaff name role newPin pin => t.enrolStaff verify at' name role newPin pin
  | .configureOutlet form pin => t.configureOutlet verify at' form pin

/-- Ask, then record. -/
def request (digests : Digests) (asked : Request) :
    AttendedTerminal × Except RequestError (List (EventEnvelope Payload)) :=
  match t.ask verify at' asked with
  | .error error => (t, .error error)
  | .ok call =>
    let (terminal, answer) := t.toTerminal.perform digests at'.writable at'.now call
    ({ t with toTerminal := terminal },
      answer.mapError (RequestError.command ∘ CommandError.terminal))

end Commands

/-! ## Section 3: Whatever happens at a till -/

inductive Action where
  | request (at' : Moment) (asked : Request)
  | importFile (run : ImportRun) (text : String) (tabSeparated : Bool) (pin : String)
  /-- Any other command: it records nothing that is gated. -/
  | ungated (writable : Bool) (now : Timestamp) (call : Terminal.Call)
  | signIn (staffId : Uuid) (pin : String) (now : Timestamp)
  | signOut
  | restart
  | sync (transport : Transport Payload) (nowMillis : I64)

/-- The PIN typed with an action. -/
def Action.pin : Action → Option String
  | request _ asked => asked.pin
  | importFile _ _ _ pin => some pin
  | _ => none

/-- When an action asks who is at the till. -/
def Action.now : Action → Option Timestamp
  | request at' _ => some at'.now
  | _ => none

/-- A call about an event that nothing gates. -/
def Ungated (call : Terminal.Call) : Prop := ∀ event ∈ call.event?, event.gate = none

def step (digests : Digests) (verify : PinVerify) (t : AttendedTerminal) :
    Action → AttendedTerminal → Prop
  | .request at' asked, t' => t' = (t.request verify at' digests asked).1
  | .importFile run text tabSeparated pin, t' =>
    t' = (t.commitImport digests verify run text tabSeparated pin).1
  | .ungated writable now call, t' => Ungated call ∧
    t' = { t with toTerminal := (t.toTerminal.perform digests writable now call).1 }
  | .signIn staffId pin now, t' =>
    t' = { t with session := (t.desk.signIn verify staffId pin now).1.session }
  | .signOut, t' => t' = { t with session := t.desk.signOut.session }
  | .restart, t' => Terminal.load digests t.store t.identity = .ok t'.toTerminal ∧
    t'.session = .signedOut
  | .sync transport nowMillis, t' =>
    t' = { t with toTerminal := (t.toTerminal.sync digests transport nowMillis).1 }

/-! ## Section 4: Passing the gate -/

/-- The action of an event lies within what the policy lets the person at the till do. -/
def Within (t : AttendedTerminal) : DomainEvent → Prop
  | .sale (.lineVoided saleId lineId _ _) =>
    ∃ value, t.lineValue saleId lineId = .ok value ∧ value.minor ≤ t.approvalPolicy.voidLimit.minor
  | .sale (.orderDiscounted _ (.amount amount) _) =>
    amount.minor ≤ t.approvalPolicy.discountLimit.minor
  | .sale (.orderDiscounted _ (.percentage rate) _) =>
    rate.basisPoints ≤ t.approvalPolicy.discountRateLimit.basisPoints
  | _ => False

/-- Who may be named as responsible for an event. -/
inductive Entitled (verify : PinVerify) (t : AttendedTerminal) (action : Action)
    (permission : Permission) (event : DomainEvent) : Uuid → Prop where
  /-- Somebody who holds the permission now and typed their PIN. -/
  | typed : ∀ member ∈ t.staff.holders permission, ∀ pin ∈ action.pin,
      verify pin member.pinHash = .ok true → Entitled verify t action permission event member.id
  /-- The person at the till, who holds the permission now or does what the policy allows. -/
  | present : ∀ now ∈ action.now, ∀ session, t.desk.currentSession now = some session →
      session.role.can permission ∨ t.Within event →
        Entitled verify t action permission event session.staffId

/-- An action in this state records the event. -/
def Records (digests : Digests) (verify : PinVerify) (t : AttendedTerminal) (action : Action)
    (e : EventEnvelope Payload) : Prop :=
  ∃ t' es, step digests verify t action t' ∧ t'.recordedHere = t.recordedHere ++ es ∧ e ∈ es

/-- An event recorded by an action passed its gate, if it has one. -/
def Passes (verify : PinVerify) (t : AttendedTerminal) (action : Action)
    (e : EventEnvelope Payload) : Prop :=
  t.staff.isEmpty = false → ∀ event permission responsible, e.read = some event →
    event.gate = some (permission, responsible) →
      Entitled verify t action permission event responsible

/-- A shift is closed by somebody whose role may, or not at all: nothing is written, no outlet is
    set up, or no shift is open that was counted. -/
def ClosesEntitled (t : AttendedTerminal) : Action → Prop
  | .request at' (.closeShift _) =>
    (∀ session, t.desk.currentSession at'.now = some session → session.role.can .closeShift) ∨
      at'.writable = false ∨ t.outlet = none ∨
      ∀ shift, t.shift = some shift → shift.status = .closed ∨ shift.counts = []
  | _ => True

/-! ### Whom a request names -/

section Requests

variable {verify : PinVerify} {t : AttendedTerminal} {at' : Moment} {asked : Request}
  {permission : Permission} {event : DomainEvent} {responsible : Uuid} {pin : String}

theorem authorize_entitled {action : Action} (hpin : action.pin = some pin)
    (h : t.authorize verify permission pin = .ok responsible) :
    Entitled verify t action permission event responsible := by
  obtain ⟨member, hmember, rfl, hverify⟩ := Desk.approve_eq_ok (Except.mapError_eq_ok.mp h)
  exact .typed member hmember pin hpin hverify

/-- A verdict that lets the person at the till go ahead is about their role, or about what the
    policy allows. -/
theorem authorizeAtLimit_entitled {action : Action} (hpin : action.pin = some pin)
    (hnow : action.now = some at'.now) {verdict : Role → ApprovalPolicy → Authorization}
    (hverdict : ∀ role, verdict role t.approvalPolicy = .allowed →
      role.can permission ∨ t.Within event)
    (h : t.authorizeAtLimit verify at' permission verdict pin = .ok responsible) :
    Entitled verify t action permission event responsible := by
  rcases Desk.authorizeFor_eq_ok (Except.mapError_eq_ok.mp h) with
    ⟨session, hlive, rfl, hallowed⟩ | ⟨happroved, -⟩
  · exact .present at'.now hnow session hlive (hverdict _ hallowed)
  · obtain ⟨member, hmember, rfl, hverify⟩ := Desk.approve_eq_ok happroved
    exact .typed member hmember pin hpin hverify

variable {call : Terminal.Call} {action : Action}

/-- Whom a call names is entitled. -/
def Covers (verify : PinVerify) (t : AttendedTerminal) (action : Action)
    (call : Terminal.Call) : Prop :=
  ∀ event ∈ call.event?, ∀ permission responsible, event.gate = some (permission, responsible) →
    Entitled verify t action permission event responsible

/-- A call that names whoever approved it. -/
theorem authorize_covers (hpin : action.pin = some pin)
    (h : t.authorize verify permission pin = .ok responsible)
    (hgate : call.event?.bind DomainEvent.gate = some (permission, responsible)) :
    Covers verify t action call := by
  intro event hevent permission' responsible' hgate'
  rw [hevent, Option.bind_some, hgate'] at hgate
  cases hgate
  exact authorize_entitled hpin h

theorem voidLine_covers {saleId lineId : Uuid} {reason : String} (hpin : action.pin = some pin)
    (hnow : action.now = some at'.now)
    (h : t.voidLine verify at' saleId lineId reason pin = .ok call) :
    Covers verify t action call := by
  obtain ⟨reason, -, h⟩ := Except.bind_eq_ok.mp h
  obtain ⟨value, hvalue, h⟩ := Except.bind_eq_ok.mp h
  obtain ⟨authorizedBy, hauthorized, h⟩ := Except.bind_eq_ok.mp h
  cases h
  intro event hevent permission responsible hgate
  cases hevent
  cases hgate
  refine authorizeAtLimit_entitled hpin hnow ?_ hauthorized
  intro role hallowed
  rcases authorizeVoid_eq_allowed.mp hallowed with hcan | hlimit
  · exact .inl hcan
  · exact .inr ⟨value, hvalue, hlimit⟩

theorem discountOrder_covers {saleId : Uuid} {amountMinor : Option I64}
    {basisPoints : Option I32} (hpin : action.pin = some pin) (hnow : action.now = some at'.now)
    (h : t.discountOrder verify at' saleId amountMinor basisPoints pin = .ok call) :
    Covers verify t action call := by
  obtain ⟨sale, -, h⟩ := Except.bind_eq_ok.mp h
  obtain ⟨discount, -, h⟩ := Except.bind_eq_ok.mp h
  obtain ⟨authorizedBy, hauthorized, h⟩ := Except.bind_eq_ok.mp h
  cases h
  intro event hevent permission responsible hgate
  cases hevent
  cases hgate
  cases discount with
  | none => cases hauthorized
  | percentage rate =>
    refine authorizeAtLimit_entitled hpin hnow ?_ hauthorized
    intro role hallowed
    exact authorizeDiscountRate_eq_allowed.mp hallowed
  | amount amount =>
    refine authorizeAtLimit_entitled hpin hnow ?_ hauthorized
    intro role hallowed
    exact authorizeDiscount_eq_allowed.mp hallowed

theorem moveCash_covers {amountMinor : I64} {reason : String} {note : Option String}
    (hpin : action.pin = some pin)
    (h : t.moveCash verify at' amountMinor reason note pin = .ok call) :
    Covers verify t action call := by
  obtain ⟨reason, -, h⟩ := Except.bind_eq_ok.mp h
  obtain ⟨authorizedBy, hauthorized, h⟩ := Except.bind_eq_ok.mp h
  obtain ⟨shift, -, h⟩ := Except.bind_eq_ok.mp h
  obtain ⟨currency, -, h⟩ := Except.bind_eq_ok.mp h
  cases h
  exact authorize_covers hpin hauthorized rfl

/-- Where everybody at the till may close a shift, whoever closes one may. -/
theorem closeShift_covers {closingCashMinor : I64} (hnow : action.now = some at'.now)
    (hcan : ∀ session, t.desk.currentSession at'.now = some session →
      session.role.can .closeShift)
    (h : t.closeShift at' closingCashMinor = .ok call) : Covers verify t action call := by
  obtain ⟨closedBy, hclosedBy, h⟩ := Except.bind_eq_ok.mp h
  obtain ⟨shift, -, h⟩ := Except.bind_eq_ok.mp h
  obtain ⟨currency, -, h⟩ := Except.bind_eq_ok.mp h
  cases h
  intro event hevent permission responsible hgate
  cases hevent
  cases hgate
  obtain ⟨session, hsession, rfl⟩ := Option.map_eq_some_iff.mp (Except.okOr_eq_ok.mp hclosedBy)
  exact .present at'.now hnow session hsession (.inl (hcan session hsession))

theorem saveProduct_covers {productId : Option Uuid} {form : ProductForm}
    (hpin : action.pin = some pin)
    (h : t.saveProduct verify at' productId form pin = .ok call) :
    Covers verify t action call := by
  obtain ⟨unit, -, h⟩ := Except.bind_eq_ok.mp h
  obtain ⟨currency, -, h⟩ := Except.bind_eq_ok.mp h
  obtain ⟨details, -, h⟩ := Except.bind_eq_ok.mp h
  obtain ⟨authorizedBy, hauthorized, h⟩ := Except.bind_eq_ok.mp h
  cases h
  refine authorize_covers hpin hauthorized ?_
  cases productId <;> rfl

theorem setProductActive_covers {productId : Uuid} {active : Bool} (hpin : action.pin = some pin)
    (h : t.setProductActive verify at' productId active pin = .ok call) :
    Covers verify t action call := by
  obtain ⟨authorizedBy, hauthorized, h⟩ := Except.bind_eq_ok.mp h
  cases h
  refine authorize_covers hpin hauthorized ?_
  cases active <;> rfl

theorem saveTable_covers {tableId : Option Uuid} {form : TableForm} (hpin : action.pin = some pin)
    (h : t.saveTable verify at' tableId form pin = .ok call) : Covers verify t action call := by
  obtain ⟨authorizedBy, hauthorized, h⟩ := Except.bind_eq_ok.mp h
  cases h
  refine authorize_covers hpin hauthorized ?_
  cases tableId <;> rfl

theorem setTableActive_covers {tableId : Uuid} {active : Bool} (hpin : action.pin = some pin)
    (h : t.setTableActive verify at' tableId active pin = .ok call) :
    Covers verify t action call := by
  obtain ⟨authorizedBy, hauthorized, h⟩ := Except.bind_eq_ok.mp h
  split at h
  · cases h
  · cases h
    refine authorize_covers hpin hauthorized ?_
    cases active <;> rfl

/-- Once somebody works here, whoever enrols is approved. -/
theorem enrolStaff_covers (hstaffed : t.staff.isEmpty = false) {name role newPin : String}
    (hpin : action.pin = some pin)
    (h : t.enrolStaff verify at' name role newPin pin = .ok call) :
    Covers verify t action call := by
  obtain ⟨role, -, h⟩ := Except.bind_eq_ok.mp h
  obtain ⟨enrolledBy, hauthorized, h⟩ := Except.bind_eq_ok.mp h
  obtain ⟨pinHash, -, h⟩ := Except.bind_eq_ok.mp h
  cases h
  rw [AttendedTerminal.enrolledBy, hstaffed] at hauthorized
  exact authorize_covers hpin hauthorized rfl

theorem configureOutlet_covers (hstaffed : t.staff.isEmpty = false) {form : OutletForm}
    (hpin : action.pin = some pin) (h : t.configureOutlet verify at' form pin = .ok call) :
    Covers verify t action call := by
  obtain ⟨profile, -, h⟩ := Except.bind_eq_ok.mp h
  obtain ⟨currency, -, h⟩ := Except.bind_eq_ok.mp h
  obtain ⟨regime, -, h⟩ := Except.bind_eq_ok.mp h
  obtain ⟨configuredBy, hauthorized, h⟩ := Except.bind_eq_ok.mp h
  obtain ⟨settings, -, h⟩ := Except.bind_eq_ok.mp h
  cases h
  rw [AttendedTerminal.configuredBy, hstaffed] at hauthorized
  exact authorize_covers hpin hauthorized rfl

/-- Every request but that to close a shift names somebody who is entitled. -/
theorem ask_covers (hstaffed : t.staff.isEmpty = false)
    (hcloses : ∀ cash, asked = .closeShift cash → ∀ session,
      t.desk.currentSession at'.now = some session → session.role.can .closeShift)
    (h : t.ask verify at' asked = .ok call) : Covers verify t (.request at' asked) call := by
  cases asked with
  | voidLine => exact voidLine_covers rfl rfl h
  | discountOrder => exact discountOrder_covers rfl rfl h
  | moveCash => exact moveCash_covers rfl h
  | closeShift cash => exact closeShift_covers rfl (hcloses cash rfl) h
  | saveProduct => exact saveProduct_covers rfl h
  | setProductActive => exact setProductActive_covers rfl h
  | saveTable => exact saveTable_covers rfl h
  | setTableActive => exact setTableActive_covers rfl h
  | enrolStaff => exact enrolStaff_covers hstaffed rfl h
  | configureOutlet => exact configureOutlet_covers hstaffed rfl h

end Requests

/-! ### What each action records -/

section Steps

variable {digests : Digests} {verify : PinVerify} {t t' : AttendedTerminal}

theorem prepareOne_events {terminal : Terminal} {event : DomainEvent} {eventId : Uuid}
    {p : Prepared} (h : terminal.prepareOne event eventId = .ok p) :
    p.events = [(eventId, event)] := by
  obtain ⟨candidate, -, h⟩ := Except.bind_eq_ok.mp h
  cases h
  rfl

/-- What a call writes is the event it is about, or is not gated. -/
theorem prepare_gate {now : Timestamp} {terminal : Terminal} {call : Terminal.Call}
    {p : Prepared} (h : terminal.prepare digests now call = .ok p)
    {recorded : Uuid × DomainEvent} (hrecorded : recorded ∈ p.events) :
    recorded.2.gate = none ∨ call.event? = some recorded.2 := by
  have hone : ∀ {event eventId}, terminal.prepareOne event eventId = .ok p →
      recorded.2 = event := by
    intro event eventId hprepare
    rw [prepareOne_events hprepare, List.mem_singleton] at hrecorded
    rw [hrecorded]
  cases call with
  | record event eventId =>
    obtain ⟨_, -, h⟩ := Except.bind_eq_ok.mp h
    exact .inr (congrArg some (hone h).symm)
  | recordOutlet event eventId =>
    obtain ⟨config, -, h⟩ := Except.bind_eq_ok.mp h
    cases h
    rw [List.mem_singleton.mp hrecorded]
    exact .inr rfl
  | completeSale event regime issuedBy saleEventId fiscalEventId =>
    obtain ⟨_, -, h⟩ := Except.bind_eq_ok.mp h
    obtain ⟨candidate, -, h⟩ := Except.bind_eq_ok.mp h
    obtain ⟨sale, -, h⟩ := Except.bind_eq_ok.mp h
    obtain ⟨totals, -, h⟩ := Except.bind_eq_ok.mp h
    obtain ⟨invoice, -, h⟩ := Except.bind_eq_ok.mp h
    cases h
    -- the fiscal document is written beside the completion and has no gate
    rcases List.mem_pair.mp hrecorded with rfl | rfl
    · exact .inr rfl
    · exact .inl rfl
  | recordReceipt purchase stock purchaseEventId stockEventId =>
    obtain ⟨order, -, h⟩ := Except.bind_eq_ok.mp h
    obtain ⟨ordered, -, h⟩ := Except.bind_eq_ok.mp h
    obtain ⟨candidate, -, h⟩ := Except.bind_eq_ok.mp h
    cases h
    rcases List.mem_pair.mp hrecorded with rfl | rfl
    · exact .inl rfl
    · exact .inl rfl
  | recordShift event eventId => exact .inr (congrArg some (hone h).symm)
  | recordStock event eventId => exact .inr (congrArg some (hone h).symm)
  | recordPurchase event eventId => exact .inr (congrArg some (hone h).symm)
  | recordStaff event eventId => exact .inr (congrArg some (hone h).symm)
  | recordCatalogue event eventId => exact .inr (congrArg some (hone h).symm)
  | recordFloor event eventId => exact .inr (congrArg some (hone h).symm)

/-- What a call records passes, where whoever it names is entitled. -/
theorem perform_passes {action : Action} {writable : Bool} {now : Timestamp}
    {call : Terminal.Call}
    (hcovers : writable = true → t.staff.isEmpty = false →
      (t.toTerminal.prepare digests now call).isOkay → Covers verify t action call) :
    ∃ new, (t.toTerminal.perform digests writable now call).1.recordedHere =
        t.recordedHere ++ new ∧
      ∀ e ∈ new, Passes verify t action e := by
  obtain ⟨new, hnew, hall⟩ := Terminal.perform_recordedHere digests writable now t.toTerminal call
  refine ⟨new, hnew, ?_⟩
  intro e he hstaffed event permission responsible hread hgate
  obtain ⟨hwritable, p, hprepare, recorded, hrecorded, hcarries⟩ := hall e he
  cases hread.symm.trans hcarries
  rcases prepare_gate hprepare hrecorded with hnone | hevent
  · rw [hnone] at hgate
    cases hgate
  · exact hcovers hwritable hstaffed (Except.isOkay_iff.mpr ⟨p, hprepare⟩) _ hevent _ _ hgate

/-- The rows of an import are recorded in the name of whoever approved it. -/
theorem writeRows_passes {run : ImportRun} {addedBy : Uuid} {currency : Currency}
    {rows : List ImportRowView} {action : Action}
    (hentitled : ∀ event, Entitled verify t action .editCatalogue event addedBy) (written : Nat)
    (terminal : Terminal) :
    ∃ new, (terminal.writeRows digests run addedBy currency rows written).1.recordedHere =
        terminal.recordedHere ++ new ∧
      ∀ e ∈ new, Passes verify t action e := by
  induction rows generalizing written terminal with
  | nil => exact ⟨[], (List.append_nil _).symm, fun _ h => absurd h List.not_mem_nil⟩
  | cons row rows ih =>
    rw [Terminal.writeRows]
    cases hdetails : row.details currency with
    | error error => exact ⟨[], (List.append_nil _).symm, fun _ h => absurd h List.not_mem_nil⟩
    | ok details =>
      obtain ⟨new, hnew, hall⟩ := Terminal.perform_recordedHere digests (run.writable written)
        run.now terminal (.recordCatalogue (run.event addedBy details written)
          (run.eventId written))
      -- what a row records is the one event of the row
      have hpasses : ∀ e ∈ new, Passes verify t action e := by
        intro e he _ event permission responsible hread hgate
        obtain ⟨-, p, hprepare, recorded, hrecorded, hcarries⟩ := hall e he
        cases hread.symm.trans hcarries
        rw [prepareOne_events hprepare, List.mem_singleton] at hrecorded
        subst hrecorded
        cases hgate
        exact hentitled _
      have hrecord : (terminal.recordCatalogue digests (run.writable written) run.now
          (run.event addedBy details written) (run.eventId written)).1.recordedHere =
          terminal.recordedHere ++ new := hnew
      simp only
      generalize terminal.recordCatalogue digests (run.writable written) run.now
        (run.event addedBy details written) (run.eventId written) = result at hrecord ⊢
      obtain ⟨next, answer⟩ := result
      cases answer with
      | error error => exact ⟨new, hrecord, hpasses⟩
      | ok es =>
        obtain ⟨rest, hrest, hothers⟩ := ih (written + 1) next
        refine ⟨new ++ rest, ?_, ?_⟩
        · rw [← List.append_assoc, ← hrecord]
          exact hrest
        · intro e he
          rcases List.mem_append.mp he with he | he
          · exact hpasses e he
          · exact hothers e he

/-- What is closed is open, and was counted. -/
theorem shiftAfter_closed {shift : Option Shift} {shiftId closedBy : Uuid} {cash : Money}
    {now : Timestamp} {after : Shift}
    (h : Projections.shiftAfter shift (.closed shiftId closedBy cash now) = .ok after) :
    ∃ running, shift = some running ∧ running.status = .open ∧ running.counts ≠ [] := by
  unfold Projections.shiftAfter at h
  cases hrunning : shift.filter (·.status = .open) with
  | none =>
    rw [hrunning] at h
    cases h
  | some running =>
    rw [hrunning] at h
    obtain ⟨hshift, hopen⟩ := Option.filter_eq_some_iff.mp hrunning
    refine ⟨running, hshift, of_decide_eq_true hopen, ?_⟩
    intro huncounted
    have happly := Except.mapError_eq_ok.mp h
    simp only [Shift.apply, Shift.transition, huncounted, List.isEmpty_nil, if_true] at happly
    split at happly
    · cases happly
    · split at happly
      · cases happly
      · cases happly

/-- A shift is closed where an outlet is set up, and the shift is open and was counted. -/
theorem closeShift_recorded {at' : Moment} {cash : I64} {now : Timestamp} {call : Terminal.Call}
    (h : t.closeShift at' cash = .ok call)
    (hprepare : (t.toTerminal.prepare digests now call).isOkay) :
    t.outlet ≠ none ∧
      ∃ shift, t.shift = some shift ∧ shift.status = .open ∧ shift.counts ≠ [] := by
  obtain ⟨closedBy, -, h⟩ := Except.bind_eq_ok.mp h
  obtain ⟨shift, hshift, h⟩ := Except.bind_eq_ok.mp h
  obtain ⟨currency, hcurrency, h⟩ := Except.bind_eq_ok.mp h
  cases h
  obtain ⟨p, hp⟩ := Except.isOkay_iff.mp hprepare
  obtain ⟨candidate, hcandidate, -⟩ := Except.bind_eq_ok.mp hp
  obtain ⟨after, hafter, -⟩ := Except.bind_eq_ok.mp hcandidate
  obtain ⟨running, hrunning, hopen, hcounted⟩ := shiftAfter_closed hafter
  refine ⟨?_, running, hrunning, hopen, hcounted⟩
  intro hnone
  rw [outletCurrency, Terminal.currency, hnone] at hcurrency
  cases hcurrency

/-- What a step records passed its gate. -/
theorem step_passes {action : Action}
    (h : Transition.Guarded (step digests verify) ClosesEntitled t action t') :
    ∃ new, t'.recordedHere = t.recordedHere ++ new ∧ ∀ e ∈ new, Passes verify t action e := by
  obtain ⟨hcloses, hstep⟩ := h
  -- most steps record nothing at the till
  have hnothing : ∀ {terminal : Terminal}, terminal.recordedHere = t.recordedHere →
      ∃ new, terminal.recordedHere = t.recordedHere ++ new ∧
        ∀ e ∈ new, Passes verify t action e :=
    fun hkept => ⟨[], hkept.trans (List.append_nil _).symm, fun _ h => absurd h List.not_mem_nil⟩
  cases action with
  | request at' asked =>
    cases hstep
    rw [request]
    cases hask : t.ask verify at' asked with
    | error error => exact hnothing rfl
    | ok call =>
      refine perform_passes ?_
      intro hwritable hstaffed hprepare
      refine ask_covers hstaffed ?_ hask
      rintro cash rfl
      obtain ⟨houtlet, shift, hshift, hopen, hcounted⟩ := closeShift_recorded hask hprepare
      -- the close of a shift is entitled by the guard of the run, or was not recorded
      rcases hcloses with hcan | hreadOnly | hnone | hnoShift
      · exact hcan
      · rw [hwritable] at hreadOnly
        cases hreadOnly
      · exact absurd hnone houtlet
      · rcases hnoShift shift hshift with hclosed | huncounted
        · rw [hopen] at hclosed
          cases hclosed
        · exact absurd huncounted hcounted
  | importFile run text tabSeparated pin =>
    cases hstep
    rcases @commitImport_cases digests verify run t text tabSeparated pin with
      ⟨error, hcommit, -⟩ | ⟨addedBy, currency, rows, hcleared, hcommit⟩
    · rw [hcommit]
      exact hnothing rfl
    · rw [hcommit]
      refine writeRows_passes ?_ 0 t.toTerminal
      intro event
      obtain ⟨member, hmember, rfl, hverify⟩ := Desk.approve_eq_ok hcleared.approved
      exact .typed member hmember pin rfl hverify
  | ungated writable now call =>
    obtain ⟨hungated, rfl⟩ := hstep
    refine perform_passes ?_
    intro _ _ _ event hevent permission responsible hgate
    rw [hungated event hevent] at hgate
    cases hgate
  | signIn staffId pin now =>
    cases hstep
    exact hnothing rfl
  | signOut =>
    cases hstep
    exact hnothing rfl
  | restart =>
    obtain ⟨hload, -⟩ := hstep
    refine hnothing ?_
    rw [Terminal.recordedHere, Terminal.load_store hload, Terminal.recordedHere]
  | sync transport nowMillis =>
    cases hstep
    exact hnothing (Terminal.sync_recordedHere digests t.toTerminal transport nowMillis)

/-- **Gates**: in every run of commands, sign-ins, restarts and syncs in which a shift is only
    closed by somebody whose role may close it, every event the till records passed its gate when
    it was recorded. -/
theorem gated_passes {actions : List Action}
    (h : Transition.Run (Transition.Guarded (step digests verify) ClosesEntitled) t actions t') :
    ∃ new, t'.recordedHere = t.recordedHere ++ new ∧ ∀ e ∈ new, ∃ earlier action later before,
      actions = earlier ++ action :: later ∧
        Transition.Run (Transition.Guarded (step digests verify) ClosesEntitled) t earlier before ∧
        Records digests verify before action e ∧ Passes verify before action e := by
  refine @Transition.Run.added _ _ _ _ (fun t => t.recordedHere)
    (fun t action e => Records digests verify t action e ∧ Passes verify t action e) ?_ _ _ _ h
  intro t action t' hstep
  obtain ⟨new, hnew, hpasses⟩ := step_passes hstep
  refine ⟨new, hnew, ?_⟩
  intro e he
  exact ⟨⟨t', new, hstep.2, hnew, he⟩, hpasses e he⟩

/-- A run of one closing, by somebody whose role may not close, breaks the rule. -/
theorem closing_breaks {at' : Moment} {cash : I64} {session : Session} {event : ShiftEvent}
    (hstaffed : t.staff.isEmpty = false)
    (hlive : t.desk.currentSession at'.now = some session)
    (hrole : session.role.can .closeShift = false)
    (hgate : (DomainEvent.shift event).gate.map (·.1) = some .closeShift)
    (hrecorded : (t'.recordedHere.drop t.recordedHere.length).map EventEnvelope.read =
      [some (.shift event)]) :
    ¬ ∃ new, t'.recordedHere = t.recordedHere ++ new ∧ ∀ e ∈ new, ∃ earlier action later before,
      [Action.request at' (.closeShift cash)] = earlier ++ action :: later ∧
        Transition.Run (step digests verify) t earlier before ∧
        Records digests verify before action e ∧ Passes verify before action e := by
  intro h
  obtain ⟨new, hnew, hall⟩ := h
  rw [hnew, List.drop_left, List.map_eq_singleton_iff] at hrecorded
  obtain ⟨e, rfl, hread⟩ := hrecorded
  obtain ⟨earlier, action, later, before, hactions, hrun, -, hpasses⟩ :=
    hall e (List.mem_singleton_self e)
  -- in a run of one action the event was recorded by that action
  obtain ⟨rfl, hrest⟩ : earlier = [] ∧ action = Action.request at' (.closeShift cash) := by
    cases earlier with
    | nil =>
      cases hactions
      exact ⟨rfl, rfl⟩
    | cons first rest => simp at hactions
  cases hrun
  obtain ⟨⟨permission, responsible⟩, hgate, hpermission⟩ := Option.map_eq_some_iff.mp hgate
  obtain rfl : permission = .closeShift := hpermission
  -- nobody typed a pin, and the role of whoever is present does not cover it
  cases hpasses hstaffed _ _ _ hread hgate with
  | typed member hmember pin hpin =>
    rw [hrest] at hpin
    cases hpin
  | present now hnow other hother hmay =>
    rw [hrest] at hnow
    cases hnow
    obtain rfl := Option.some.inj (hother.symm.trans hlive)
    rcases hmay with hcan | hwithin
    · rw [hrole] at hcan
      cases hcan
    · exact hwithin

end Steps

/-! ### Closing without the permission -/

open Terminal (plainDigests instant till3)

/-- A shop with a manager and a cashier; a shift is open and counted. -/
def countedTill : Terminal :=
  till3.performAll plainDigests
    [(true, instant 1, .recordOutlet (.configured 2
        { name := "Shop", profile := .grocery, currency := .bdt, timezone := "Asia/Dhaka",
          regime := .none, taxRegistration := none, address := "Road 1", scale := none,
          approval := none } (instant 1) 7) 99),
     (true, instant 1, .recordStaff habibEnrolled 100),
     (true, instant 1, .recordStaff rumaEnrolled 101),
     (true, instant 2, .recordShift (.opened 30 2 .bdt ⟨0, .bdt⟩ (instant 2)) 102),
     (true, instant 3, .recordShift (.counted 30 ⟨0, .bdt⟩ 2 (instant 3)) 103)]

/-- The cashier is at the till. -/
def cashierTill : AttendedTerminal :=
  ⟨countedTill, .signedIn ⟨2, .cashier, instant 3, instant 3⟩⟩

/-- The manager is at the till. -/
def managerTill : AttendedTerminal :=
  ⟨countedTill, .signedIn ⟨1, .manager, instant 3, instant 3⟩⟩

/-- An instant at which the database takes the write. -/
def closingTime : Moment where
  now := instant 4
  writable := true
  eventId := 104
  newId := 105
  formIds := ⟨fun n => .fromU128 (200 + n), fun m n => .fromU128 (300 + 256 * m + n)⟩
  derive pin := .ok ("$argon2id$" ++ pin)

/-- The till after somebody at it closes the shift. -/
def afterClosing (t : AttendedTerminal) : AttendedTerminal :=
  (t.request plainVerify closingTime plainDigests (.closeShift 0)).1

theorem managerTill_closes : Transition.Run
    (Transition.Guarded (step plainDigests plainVerify) ClosesEntitled) managerTill
    [.request closingTime (.closeShift 0)] managerTill.afterClosing := by
  refine .cons _ [] ⟨.inl ?_, rfl⟩ (.nil _)
  have hall : (managerTill.desk.currentSession closingTime.now).all (·.role.can .closeShift) := by
    decide +kernel
  exact Option.all_eq_true _ _ |>.mp hall

theorem gated_passes_manager :
    ∃ new, managerTill.afterClosing.recordedHere = managerTill.recordedHere ++ new ∧
      ∀ e ∈ new, ∃ earlier action later before,
        [Action.request closingTime (.closeShift 0)] = earlier ++ action :: later ∧
          Transition.Run (Transition.Guarded (step plainDigests plainVerify) ClosesEntitled)
            managerTill earlier before ∧
          Records plainDigests plainVerify before action e ∧
          Passes plainVerify before action e :=
  gated_passes managerTill_closes

theorem cashierTill_closed :
    (cashierTill.afterClosing.recordedHere.drop cashierTill.recordedHere.length).map
      EventEnvelope.read = [some (.shift (.closed 30 2 ⟨0, .bdt⟩ (instant 4)))] := by
  decide +kernel

/-- A cashier closes the shift, which no cashier may. -/
theorem cashier_closesShift :
    ¬ ∀ (digests : Digests) (verify : PinVerify) (t t' : AttendedTerminal)
        (actions : List Action), Transition.Run (step digests verify) t actions t' →
      ∃ new, t'.recordedHere = t.recordedHere ++ new ∧ ∀ e ∈ new, ∃ earlier action later before,
        actions = earlier ++ action :: later ∧
          Transition.Run (step digests verify) t earlier before ∧
          Records digests verify before action e ∧ Passes verify before action e :=
  fun h => @closing_breaks plainDigests plainVerify cashierTill cashierTill.afterClosing
    closingTime 0 ⟨2, .cashier, instant 3, instant 3⟩ (.closed 30 2 ⟨0, .bdt⟩ (instant 4))
    (by decide +kernel) (by decide +kernel) rfl rfl cashierTill_closed
    (h plainDigests plainVerify cashierTill cashierTill.afterClosing
      [.request closingTime (.closeShift 0)] (.cons _ [] rfl (.nil _)))

end AttendedTerminal

end Sahl
