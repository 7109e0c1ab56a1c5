import Mathlib.Tactic
import Sahl.Server.Routes
import Sahl.Sync.PushSafety

/-! # The HTTP transport and the sync loop

    A request is signed and sent, and its reply decoded: a value, or a rejection that says whether
    trying again could help. The loop goes on after a rejection that is worth another try and stops
    for good after any other. A fault while the server authenticates, and a reply that is cut off
    within its body, stop it although another try would have succeeded (`goesOn_iff`). -/

namespace Sahl

/-! ## Section 1: The transport -/

/-- What becomes of a request on its way. -/
inductive Link where
  /-- It never arrives. -/
  | refused
  /-- It is served, and no reply arrives. -/
  | lost
  /-- The reply ends within its body. -/
  | cutOff
  | whole
  deriving DecidableEq

/-- A reply arrives, if only its head. -/
def Link.arrives : Link → Prop
  | .refused | .lost => False
  | .cutOff | .whole => True

/-- What happens around one request: the faults of the database, the connection, and what the
    clocks of till and server show. -/
structure Exchange (V : Type) where
  faults : Faults V
  link : Link
  tillNow : I64
  serverNow : I64

/-- Turn a reply into a value or a rejection. The status is read before the body. -/
def decode {α : Type} (readable : Bool) (reply : Reply α) : Except SyncRejection α :=
  if reply.status.isSuccess then
    match readable, reply.body with
    | true, .value value => .ok value
    | _, _ => .error .invalid
  else if reply.status = .unauthorized then .error .notAuthorised
  else if reply.status.isServerError then .error .unavailable
  else
    match readable, reply.body with
    | true, .rejection rejection => .error rejection
    | _, _ => .error .invalid

/-- What the till makes of a reply. -/
def Link.receive {α : Type} (link : Link) (reply : Reply α) : Except SyncRejection α :=
  match link with
  | .refused | .lost => .error .unavailable
  | .cutOff => decode false reply
  | .whole => decode true reply

/-- Talks to the sync endpoints, signing every request. -/
structure HttpTransport (Key : Type) where
  deviceId : Uuid
  key : Key

namespace HttpTransport

variable {Key V : Type} (scheme : SignatureScheme Key) (sha256 : List UInt8 → EventHash)
  (codec : Codec V) (transport : HttpTransport Key) (app : AppState) (digest : HashFunction V)
  (x : Exchange V)

def headers (now : I64) (method path : String) (body : List UInt8) : Headers where
  device := .value transport.deviceId
  timestamp := .value now
  signature := .value (scheme.sign transport.key
    (SignedRequest.signingPayload sha256 ⟨transport.deviceId, method, path, now, body⟩))

def push (s : Server V) (t : Nat) (events : List (EventEnvelope V)) :
    Server V × Except SyncRejection PushResponse :=
  match codec.toVec ⟨transport.deviceId, events⟩ with
  | none => (s, .error .invalid)
  | some body =>
    if x.link = .refused then (s, .error .unavailable)
    else
      let (s', reply) := app.push scheme sha256 codec digest x.faults s t
        (transport.headers scheme sha256 x.tillNow "POST" pushPath body) body x.serverNow
      (s', x.link.receive reply)

def pull (db : Db V) (cursor : Int) (limit : Nat) : Except SyncRejection (PullResponse V) :=
  x.link.receive (app.pull scheme sha256 x.faults db
    (transport.headers scheme sha256 x.tillNow "GET" (pullPath cursor limit) []) cursor limit
    x.serverNow)

end HttpTransport

/-! ## Section 2: The loop -/

/-- What the screen shows about syncing. -/
inductive SyncStatus where
  | upToDate (unsynced : Nat)
  | retrying (unsynced attempts : Nat)
  | stopped (reason : SyncClientError)
  deriving DecidableEq

/-- Whether retrying could never help. -/
def isTerminalFailure : SyncClientError → Bool
  | .refused rejection => !rejection.isRetryable
  | .tipMismatch .. => true
  | .store _ => false

/-- One turn of the loop: the failed attempts so far, if it goes on, and what is shown. -/
def turn (attempts unsynced : Nat) : Except SyncClientError SyncOutcome → Option Nat × SyncStatus
  | .ok _ => (some 0, .upToDate unsynced)
  | .error error =>
    if isTerminalFailure error then (none, .stopped error)
    else
      let attempts := min (attempts + 1) (2 ^ 32 - 1)
      (some attempts, .retrying unsynced attempts)

/-- Whatever the transport is refused with is worth another try, and the loop makes it. -/
def GoesOn {α : Type} (answer : Except SyncRejection α) : Prop :=
  ∀ rejection, answer = .error rejection → rejection.isRetryable ∧
    ∀ attempts unsynced, (turn attempts unsynced (.error (.refused rejection))).1.isSome

theorem goesOn_ok {α : Type} (value : α) : GoesOn (.ok value : Except SyncRejection α) := by
  intro rejection h
  cases h

theorem goesOn_error_iff {α : Type} {rejection : SyncRejection} :
    GoesOn (.error rejection : Except SyncRejection α) ↔ rejection = .unavailable := by
  constructor
  · intro h
    obtain ⟨hretryable, -⟩ := h rejection rfl
    cases rejection <;> first | rfl | cases hretryable
  · rintro rfl rejection h
    cases h
    exact ⟨rfl, fun _ _ => rfl⟩

/-! ## Section 3: Which faults the loop survives -/

/-- No reply arrives, or the request was let in and its answer, if there is one, is read whole. -/
def Exchange.Recoverable {V : Type} (x : Exchange V) (served : Prop) : Prop :=
  x.link.arrives → ¬ x.faults.authentication ∧ (x.link = .cutOff → ¬ served)

theorem recoverable_of_fault {V : Type} {x : Exchange V} (hfault : x.faults.authentication)
    (served : Prop) : x.Recoverable served ↔ ¬ x.link.arrives := by
  simp [Exchange.Recoverable, hfault]

theorem recoverable_of_letIn {V : Type} {x : Exchange V} (hnone : ¬ x.faults.authentication)
    (served : Prop) : x.Recoverable served ↔ (x.link = .cutOff → ¬ served) := by
  constructor
  · intro h hcut
    refine (h ?_).2 hcut
    rw [hcut]
    trivial
  · exact fun h _ => ⟨hnone, h⟩

section Survives

variable {Key V : Type} {scheme : SignatureScheme Key} {sha256 : List UInt8 → EventHash}
  {codec : Codec V} {transport : HttpTransport Key} {app : AppState} {digest : HashFunction V}
  {x : Exchange V}

/-- A device that is enrolled under its own key and not revoked. -/
structure Enrolled (scheme : SignatureScheme Key) (transport : HttpTransport Key) (app : AppState)
    (db : Db V) (record : DeviceRecord) : Prop where
  device : db.device transport.deviceId = some record
  live : record.revoked = false
  key : app.publicKey transport.deviceId = scheme.publicKey transport.key

/-- A push that the web framework reads whole. -/
def HttpTransport.Fits (codec : Codec V) (transport : HttpTransport Key) (app : AppState)
    (batch : List (EventEnvelope V)) : Prop :=
  ∀ body, codec.toVec ⟨transport.deviceId, batch⟩ = some body → body.length ≤ app.bodyLimit

/-- The clocks of till and server agree within the window. -/
def Exchange.InTime (app : AppState) (x : Exchange V) : Prop :=
  |x.serverNow.val - x.tillNow.val| ≤ app.maxSkewSeconds.val * 1000

/-- What a reply to a stranger is taken for. -/
theorem goesOn_unauthorised {α : Type} {link : Link} {failure : AuthFailure} :
    GoesOn (link.receive (unauthorised failure : Reply α)) ↔ ¬ link.arrives := by
  cases link with
  | refused => simp [Link.receive, Link.arrives, goesOn_error_iff]
  | lost => simp [Link.receive, Link.arrives, goesOn_error_iff]
  | cutOff => simp [Link.receive, Link.arrives, decode, unauthorised, goesOn_error_iff,
      StatusCode.isSuccess]
  | whole => simp [Link.receive, Link.arrives, decode, unauthorised, goesOn_error_iff,
      StatusCode.isSuccess]

/-- What the framework's answer to a long body is taken for. -/
theorem goesOn_tooLarge {α : Type} {link : Link} :
    GoesOn (link.receive (tooLarge : Reply α)) ↔ ¬ link.arrives := by
  cases link with
  | refused => simp [Link.receive, Link.arrives, goesOn_error_iff]
  | lost => simp [Link.receive, Link.arrives, goesOn_error_iff]
  | cutOff => simp [Link.receive, Link.arrives, decode, tooLarge, goesOn_error_iff,
      StatusCode.isSuccess, StatusCode.isServerError]
  | whole => simp [Link.receive, Link.arrives, decode, tooLarge, goesOn_error_iff,
      StatusCode.isSuccess, StatusCode.isServerError]

/-- An answer is worth another try unless it is cut off; a refusal, where it is one for a fault of
    the server. -/
theorem goesOn_answered {α : Type} {link : Link} {answer : Except SyncRejection α}
    (h : ∀ rejection, answer = .error rejection → rejection = .unavailable) :
    GoesOn (link.receive (answered answer)) ↔ (link = .cutOff → ¬ answer.isOkay) := by
  cases answer with
  | ok value =>
    cases link with
    | whole => simp [Link.receive, decode, answered, goesOn_ok, StatusCode.isSuccess]
    | _ => simp [Link.receive, decode, answered, goesOn_error_iff, StatusCode.isSuccess,
        Except.isOkay]
  | error rejection =>
    obtain rfl := h rejection rfl
    cases link
    all_goals simp [Link.receive, decode, answered, rejected, goesOn_error_iff, Except.isOkay,
      SyncRejection.isRetryable, StatusCode.isSuccess, StatusCode.isServerError]

variable {record : DeviceRecord}

/-- The loop survives a push as far as it is read whole and the exchange is recoverable. -/
theorem goesOn_push_iff {s : Server V} (t : Nat) {batch : List (EventEnvelope V)} {plan : BatchPlan}
    (henrolled : Enrolled scheme transport app s.db record) (hclock : x.InTime app)
    (hcodec : codec.RoundTrips ⟨transport.deviceId, batch⟩) (hsize : batch.length ≤ maxBatch)
    (hplan : planBatch digest batch record.tip transport.deviceId = .ok plan)
    (hscope : ∀ event ∈ batch.drop plan.alreadyStored,
      event.tenantId = record.tenantId ∧ event.outletId = record.outletId) :
    GoesOn (transport.push scheme sha256 codec app digest x s t batch).2 ↔
      (x.link.arrives → transport.Fits codec app batch) ∧
        x.Recoverable (¬ x.faults.storing plan batch ∧
          (s.push digest t transport.deviceId ⟨transport.deviceId, batch⟩).2.isOkay) := by
  obtain ⟨body, hbody, hread⟩ := hcodec
  have hfits : transport.Fits codec app batch ↔ body.length ≤ app.bodyLimit := by
    simp [HttpTransport.Fits, hbody]
  rw [hfits]
  unfold HttpTransport.push
  rw [hbody]
  by_cases hlink : x.link = .refused
  · simp [hlink, Exchange.Recoverable, Link.arrives, goesOn_error_iff]
  simp only [if_neg hlink]
  unfold AppState.push HttpTransport.headers
  by_cases hlong : app.bodyLimit < body.length
  · -- the handler is not called
    rw [if_pos hlong]
    constructor
    · intro hgoesOn
      have hnever := goesOn_tooLarge.mp hgoesOn
      exact ⟨fun harrives => absurd harrives hnever, fun harrives => absurd harrives hnever⟩
    · intro h
      exact goesOn_tooLarge.mpr fun harrives => not_lt.mpr (h.1 harrives) hlong
  rw [if_neg hlong, and_iff_right fun _ => not_lt.mp hlong]
  rcases AppState.authenticate_genuine x.faults "POST" pushPath body henrolled.device henrolled.live
    henrolled.key hclock with ⟨hfault, failure, hauth⟩ | ⟨hnone, hauth⟩
  · rw [hauth, recoverable_of_fault hfault]
    exact @goesOn_unauthorised _ _ failure
  · rw [hauth, hread, recoverable_of_letIn hnone]
    -- once the request is let in, the batch is the one that was planned
    have hopen : Server.openPush digest s.db transport.deviceId ⟨transport.deviceId, batch⟩ =
        .ok (record, plan) := by
      simp [Server.openPush, Server.authenticate, henrolled.device, henrolled.live,
        PushRequest.validate, not_lt.mpr hsize, hplan, Except.okOr, Except.mapError, bind,
        Except.bind]
    obtain ⟨hunavailable, hokay⟩ := Server.pushUnder_planned (t := t) x.faults hopen hscope
    rw [← hokay]
    exact goesOn_answered hunavailable

/-- The loop survives a pull as far as the exchange is recoverable. -/
theorem goesOn_pull_iff {db : Db V} (henrolled : Enrolled scheme transport app db record)
    (hclock : x.InTime app) (cursor : Int) (limit : Nat) :
    GoesOn (transport.pull scheme sha256 app x db cursor limit) ↔
      x.Recoverable (¬ x.faults.reading) := by
  unfold HttpTransport.pull AppState.pull HttpTransport.headers
  rcases AppState.authenticate_genuine x.faults "GET" (pullPath cursor limit) [] henrolled.device
    henrolled.live henrolled.key hclock with ⟨hfault, failure, hauth⟩ | ⟨hnone, hauth⟩
  · rw [hauth, recoverable_of_fault hfault]
    exact @goesOn_unauthorised _ _ failure
  · rw [hauth, recoverable_of_letIn hnone]
    show GoesOn (x.link.receive
      (answered (Server.pullUnder x.faults db transport.deviceId cursor limit))) ↔ _
    rcases Server.pullUnder_cases x.faults henrolled.device henrolled.live cursor limit with
      ⟨hreading, hpull⟩ | ⟨hreading, page, hpull⟩
    · rw [hpull, goesOn_answered fun rejection h => (Except.error.inj h).symm]
      simp [hreading, Except.isOkay]
    · rw [hpull, goesOn_answered fun rejection h => by cases h]
      simp [hreading, Except.isOkay]

end Survives

/-! ## Section 4: A round -/

theorem not_goesOn_of_terminal {α : Type} {rejection : SyncRejection}
    (h : isTerminalFailure (.refused rejection) = true) :
    ¬ GoesOn (.error rejection : Except SyncRejection α) := by
  intro hgoesOn
  rw [goesOn_error_iff] at hgoesOn
  subst hgoesOn
  cases h

section Stops

variable {V : Type} {digest : HashFunction V} {store : EventStore V} {transport : Transport V}
  {now : I64} {error : SyncClientError}

/-- A failed write is tried again; only an event that does not verify stops the loop in a page. -/
theorem applyEvents_stops {cursor : Int} {es : List (EventEnvelope V)} {n : Nat}
    (h : (EventStore.applyEvents digest cursor es n store).answer = .error error)
    (hstop : isTerminalFailure error) :
    ∃ event ∈ es, (event.verify digest).isOkay = false := by
  induction es generalizing n store with
  | nil => cases h
  | cons event rest ih =>
    rw [EventStore.applyEvents] at h
    split at h
    · rename_i refused hrefused
      cases h
      refine ⟨event, List.mem_cons_self, ?_⟩
      cases hverify : event.verify digest with
      | error reason => rfl
      | ok u =>
        simp only [EventStore.applyPulled, hverify] at hrefused
        -- a row that is not written is a failure of storage, which is tried again
        cases hinsert : store.insertRemote event cursor with
        | ok written =>
          rw [hinsert] at hrefused
          cases hrefused
        | error reason =>
          rw [hinsert] at hrefused
          cases hrefused
          cases hstop
    · obtain ⟨other, hother, hverify⟩ := ih h
      exact ⟨other, List.mem_cons_of_mem _ hother, hverify⟩

theorem pushPending_stops (h : store.pushPending transport now = .error error)
    (hstop : isTerminalFailure error) :
    ¬ GoesOn (transport.push store.nextBatch) ∨ ∃ ours theirs, error = .tipMismatch ours theirs := by
  simp only [EventStore.pushPending] at h
  split at h
  · cases h
  · cases hpush : transport.push store.nextBatch with
    | error rejection =>
      rw [hpush] at h
      cases h
      exact .inl (not_goesOn_of_terminal hstop)
    | ok response =>
      rw [hpush] at h
      cases hack : store.acknowledge store.nextBatch response now with
      | ok marked =>
        simp only [Except.mapError, bind, Except.bind, hack] at h
        cases h
      | error reason =>
        simp only [Except.mapError, bind, Except.bind, hack] at h
        cases h
        -- an answer stops the loop only where its tip does not cover what was sent
        simp only [EventStore.acknowledge] at hack
        split at hack
        · cases hack
          exact .inr ⟨_, _, rfl⟩
        · cases hack

/-- What stops the loop in a round is a refusal by the server that is final, a tip that does not
    cover what was sent, or a page with an event that does not verify. -/
theorem round_stops (h : (store.syncOnce digest transport now).answer = .error error)
    (hstop : isTerminalFailure error) :
    (¬ GoesOn (transport.push store.nextBatch) ∨
      ∃ cursor, ¬ GoesOn (transport.pull cursor pullPage)) ∨
    (∃ ours theirs, error = .tipMismatch ours theirs) ∨
    ∃ cursor page, transport.pull cursor pullPage = .ok page ∧
      ∃ event ∈ page.events, (event.verify digest).isOkay = false := by
  unfold EventStore.syncOnce at h
  -- a round ends in its push, in the pull after it, or in an event it applies
  cases hpush : store.pushPending transport now with
  | error reason =>
    rw [hpush] at h
    cases h
    rcases pushPending_stops hpush hstop with hfinal | hmismatch
    · exact .inl (.inl hfinal)
    · exact .inr (.inl hmismatch)
  | ok pushed =>
    obtain ⟨outcome, store'⟩ := pushed
    rw [hpush] at h
    change (store'.pullNew digest transport).answer = .error error at h
    unfold EventStore.pullNew at h
    cases hpull : transport.pull store'.pullCursor pullPage with
    | error rejection =>
      rw [hpull] at h
      cases h
      refine .inl (.inr ⟨store'.pullCursor, ?_⟩)
      rw [hpull]
      exact not_goesOn_of_terminal hstop
    | ok page =>
      rw [hpull] at h
      refine .inr (.inr ⟨_, page, hpull, ?_⟩)
      simp only [EventStore.applyPage] at h
      split at h
      · rename_i reason hanswer
        cases h
        exact applyEvents_stops hanswer hstop
      · cases h

end Stops

section Round

variable {Key V : Type} {scheme : SignatureScheme Key} {sha256 : List UInt8 → EventHash}
  {codec : Codec V} {transport : HttpTransport Key} {app : AppState} {digest : HashFunction V}
  {x y : Exchange V}

/-- The transport in a round: how the push and then the pull go. -/
def HttpTransport.during (scheme : SignatureScheme Key) (sha256 : List UInt8 → EventHash)
    (codec : Codec V) (transport : HttpTransport Key) (app : AppState) (digest : HashFunction V)
    (x y : Exchange V) (s : Server V) (t : Nat) (db : Db V) : Transport V where
  push batch := (transport.push scheme sha256 codec app digest x s t batch).2
  pull cursor limit := transport.pull scheme sha256 app y db cursor limit

/-- **A temporary fault never stops sync, except two**: for a device that is enrolled and in time,
    and a backlog that the server's tip accepts, the loop survives the faults of a push and of a
    pull exactly where none of them is met while the server authenticates, or within the body of an
    answer, and the push is one the web framework reads; then a round stops it only for a tip that
    does not cover what was sent or a page that does not verify. -/
theorem goesOn_iff {store : EventStore V} {s : Server V} (t : Nat) {db : Db V}
    {record record' : DeviceRecord} {plan : BatchPlan}
    (hpush : Enrolled scheme transport app s.db record)
    (hpull : Enrolled scheme transport app db record') (hx : x.InTime app) (hy : y.InTime app)
    (hcodec : codec.RoundTrips ⟨transport.deviceId, store.nextBatch⟩)
    (hplan : planBatch digest store.nextBatch record.tip transport.deviceId = .ok plan)
    (hscope : ∀ event ∈ store.nextBatch.drop plan.alreadyStored,
      event.tenantId = record.tenantId ∧ event.outletId = record.outletId) :
    let round := transport.during scheme sha256 codec app digest x y s t db
    let pushes := (x.link.arrives → transport.Fits codec app store.nextBatch) ∧
      x.Recoverable (¬ x.faults.storing plan store.nextBatch ∧
        (s.push digest t transport.deviceId ⟨transport.deviceId, store.nextBatch⟩).2.isOkay)
    let pulls := y.Recoverable (¬ y.faults.reading)
    (GoesOn (round.push store.nextBatch) ↔ pushes) ∧
      (∀ cursor limit, GoesOn (round.pull cursor limit) ↔ pulls) ∧
      (pushes → pulls → ∀ now error, (store.syncOnce digest round now).answer = .error error →
        isTerminalFailure error → (∃ ours theirs, error = .tipMismatch ours theirs) ∨
          ∃ cursor page, round.pull cursor pullPage = .ok page ∧
            ∃ event ∈ page.events, (event.verify digest).isOkay = false) := by
  have hsize : store.nextBatch.length ≤ maxBatch := List.length_take_le _ _
  have hpushed := @goesOn_push_iff _ _ scheme sha256 codec transport app digest x record s t
    store.nextBatch plan hpush hx hcodec hsize hplan hscope
  have hpulled := @goesOn_pull_iff _ _ scheme sha256 transport app y record' db hpull hy
  refine ⟨hpushed, hpulled, fun hpushes hpulls now error herror hstop => ?_⟩
  -- a round that stops was stopped by the push, by the pull, or by what came back
  rcases round_stops herror hstop with (hpush | ⟨cursor, hpull⟩) | hrest
  · exact absurd (hpushed.mpr hpushes) hpush
  · exact absurd ((hpulled cursor pullPage).mpr hpulls) hpull
  · exact hrest

end Round

/-! ### A till with one event to push -/

namespace HttpTransport

open PushState (storeOf firstOf)

/-- A signature repeats the key. -/
def repeatedKey : SignatureScheme UInt8 where
  publicKey key := [key]
  wellFormed _ := true
  sign key _ := List.replicate 64 key
  verifyStrict publicKey _ signature := signature = List.replicate 64 (publicKey.headD 0)
  publicKey_wellFormed _ := rfl
  sign_length _ _ := List.length_replicate
  verifyStrict_sign _ _ := decide_eq_true rfl

/-- Till 4 writes the one push it makes. -/
def onePush : Codec Unit where
  toVec _ := some [1]
  fromSlice _ := some ⟨4, [firstOf 10]⟩

def till4 : HttpTransport UInt8 := ⟨4, 7⟩

def shop : AppState := ⟨fun _ => [7], I64.lit 300, 2 ^ 21⟩

/-- A request at one instant. -/
def request (faults : Faults Unit) (link : Link) : Exchange Unit := ⟨faults, link, 0, 0⟩

/-- What till 4 is answered when it pushes its first event. -/
def answer (x : Exchange Unit) : Server Unit × Except SyncRejection PushResponse :=
  till4.push repeatedKey (fun _ => EventHash.genesis) onePush shop Server.idDigest x
    Server.threeTills 0 (storeOf 10 none).nextBatch

theorem till4_enrolled : Enrolled repeatedKey till4 shop Server.threeTills.db
    ⟨1, 2, false, ChainTip.genesis⟩ := ⟨rfl, rfl, rfl⟩

theorem request_inTime (faults : Faults Unit) (link : Link) :
    (request faults link).InTime shop := by
  show |(0 : Int) - 0| ≤ (I64.lit 300).val * 1000
  decide

theorem firstPush_planned : planBatch Server.idDigest (storeOf 10 none).nextBatch
    ChainTip.genesis till4.deviceId = .ok ⟨0, 1, (firstOf 10).tip⟩ := by
  decide

theorem goesOn_iff_commitFails :
    GoesOn (answer (request { Faults.none with commit := true } .cutOff)).2 := by
  have hcodec : onePush.RoundTrips ⟨till4.deviceId, (storeOf 10 none).nextBatch⟩ :=
    ⟨[1], rfl, rfl⟩
  have hscope : ∀ event ∈ (storeOf 10 none).nextBatch.drop 0,
      event.tenantId = (1 : Uuid) ∧ event.outletId = (2 : Uuid) := by decide
  have hiff := @goesOn_iff _ _ repeatedKey (fun _ => EventHash.genesis) onePush till4 shop
    Server.idDigest _ _ (storeOf 10 none) Server.threeTills 0 Server.threeTills.db
    ⟨1, 2, false, ChainTip.genesis⟩ _ _ till4_enrolled till4_enrolled
    (request_inTime { Faults.none with commit := true } .cutOff)
    (request_inTime Faults.none .whole) hcodec firstPush_planned hscope
  refine hiff.1.mpr ⟨fun _ body hbody => ?_, fun _ => ⟨by decide, fun _ hserved => ?_⟩⟩
  · cases hbody
    decide
  · exact hserved.1 (.inr rfl)

/-- The database is out of reach while the server authenticates, or the reply to a push that was
    stored is cut off: the till, enrolled and in time, gives up for good. -/
theorem temporary_fault_stops :
    (answer (request { Faults.none with tenantOf := true } .whole)).2 = .error .notAuthorised ∧
      (answer (request Faults.none .cutOff)).1.db.log 4 = [firstOf 10] ∧
      (answer (request Faults.none .cutOff)).2 = .error .invalid ∧
      ∀ rejection ∈ [SyncRejection.notAuthorised, .invalid], ∀ attempts unsynced,
        turn attempts unsynced (.error (.refused rejection)) = (none, .stopped (.refused rejection)) := by
  refine ⟨by decide, by decide, by decide, fun rejection h attempts unsynced => ?_⟩
  rcases List.mem_pair.mp h with rfl | rfl
  · rfl
  · rfl

end HttpTransport

end Sahl
