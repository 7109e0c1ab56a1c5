import Mathlib.Tactic
import Sahl.Server.Signing
import Sahl.Sync.Agreement
import Sahl.Sync.Http

/-! # Authenticity

    Anyone can send the server a request, in place of a till, after it, or instead of it. A till
    signs what it sends; its signatures can be copied and put under other bytes, but not made. An
    outlet whose server answers anyone goes through no state that it does not go through with a
    server only its tills can reach (`open_refines`), so what the server has of a device is a
    beginning of what that device recorded. -/

namespace Sahl

/-! ## Section 1: The push route -/

section Route

variable {Key V : Type} (ed25519 : ByteSignatures Key) (sha256 : List UInt8 → EventHash)
  (codec : Codec V) (app : AppState)

/-- The push route up to its transaction: who the request is from, and what it asks for. -/
def AppState.opensPush (faults : Faults V) (db : Db V) (headers : Headers) (body : List UInt8)
    (now : I64) : Option (Uuid × PushRequest V) :=
  if app.bodyLimit < body.length then none
  else
    match app.authenticate ed25519.scheme sha256 faults db headers "POST" pushPath body now with
    | .error _ => none
    | .ok authenticated => (codec.fromSlice body).map fun request => (authenticated, request)

/-- What the route does is what the transaction does, for whom it admits. -/
theorem AppState.push_opens (digest : HashFunction V) (faults : Faults V) (s : Server V) (t : Nat)
    (headers : Headers) (body : List UInt8) (now : I64) :
    (app.push ed25519.scheme sha256 codec digest faults s t headers body now).1 =
      match app.opensPush ed25519 sha256 codec faults s.db headers body now with
      | none => s
      | some (authenticated, request) => (s.pushUnder digest faults t authenticated request).1 := by
  unfold AppState.push AppState.opensPush
  split
  · rfl
  cases app.authenticate ed25519.scheme sha256 faults s.db headers "POST" pushPath body now with
  | error failure => rfl
  | ok authenticated =>
    cases codec.fromSlice body with
    | none => rfl
    | some request => rfl

/-- A request is let in with a signature that verifies under the key of its device. -/
theorem AppState.authenticate_signed {faults : Faults V} {db : Db V} {headers : Headers}
    {method path : String} {body : List UInt8} {now : I64} {d : Uuid}
    (h : app.authenticate ed25519.scheme sha256 faults db headers method path body now = .ok d) :
    ∃ timestamp signature, headers.signature = .value signature ∧
      ed25519.verifyStrict (app.publicKey d)
        (SignedRequest.signingPayload sha256 ⟨d, method, path, timestamp, body⟩).bytes
        signature = true := by
  simp only [authenticate, Except.bind_eq_ok] at h
  obtain ⟨deviceId, -, timestamp, -, signature, hsignature, tenant, -, h⟩ := h
  refine ⟨timestamp, signature, ?_, ?_⟩
  · cases hheader : headers.signature with
    | missing | malformed =>
      rw [hheader] at hsignature
      cases hsignature
    | value found =>
      rw [hheader] at hsignature
      cases hsignature
      rfl
  · obtain ⟨-, h⟩ := Except.ite_error_eq_ok.mp h
    obtain ⟨device, -, h⟩ := Except.bind_eq_ok.mp h
    obtain ⟨-, h⟩ := Except.ite_error_eq_ok.mp h
    obtain ⟨verified, hverified, h⟩ := Except.bind_eq_ok.mp h
    cases h
    exact verifyStrict_of_verifyRequest (Except.mapError_eq_ok.mp hverified)

end Route

/-! ## Section 2: Anyone sends -/

namespace OutletState

section Open

variable {Key V : Type} (ed25519 : ByteSignatures Key) (sha256 : List UInt8 → EventHash)
  (codec : Codec V) (app : AppState) (digest : HashFunction V)

/-- The requests a till has put its signature under, at whatever instant: pushes of the batches it
    sent, and pulls. -/
inductive Signs (s : OutletState V) (d : Uuid) : SignedRequest → Prop
  | push {batch : List (EventEnvelope V)} {body : List UInt8} (timestamp : I64)
      (hsent : batch ∈ (s.till d).sent) (hbody : codec.toVec ⟨d, batch⟩ = some body) :
      Signs s d ⟨d, "POST", pushPath, timestamp, body⟩
  | pull (timestamp : I64) (cursor : Int) (limit : Nat) :
      Signs s d ⟨d, "GET", pullPath cursor limit, timestamp, []⟩

/-- No signature on the request was made without the key: whatever it verifies as, under the key of
    a device, a holder of that key has signed. And its body is not one that collides with a body
    that was signed. -/
structure Unforged (s : OutletState V) (headers : Headers) (body : List UInt8) : Prop where
  signature : ∀ signature, headers.signature = .value signature → ∀ d message,
    ed25519.verifyStrict (app.publicKey d) message signature = true →
      ∃ holder request, app.publicKey holder = app.publicKey d ∧ s.Signs codec holder request ∧
        (request.signingPayload sha256).bytes = message
  digest : ∀ d request, s.Signs codec d request → sha256 request.body = sha256 body →
    request.body = body

/-- What can happen to an outlet whose server answers anyone. -/
inductive OpenAction (V : Type) where
  | outlet (action : Action V)
  /-- A push request arrives, from whomever. -/
  | request (t : Nat) (faults : Faults V) (headers : Headers) (body : List UInt8) (now : I64)

def openStep (s : OutletState V) : OpenAction V → OutletState V → Prop
  | .outlet (.server (.beginPush ..)), _ => False
  | .outlet action, s' => step digest s action s'
  | .request t faults headers body now, s' => s.server.txns t = none ∧
      match app.opensPush ed25519 sha256 codec faults s.server.db headers body now with
      | none => s' = s
      | some (authenticated, request) =>
        s'.server = (s.server.beginPush digest t authenticated request).1 ∧
          s'.till = s.answered (answerOf digest s.server (.beginPush t authenticated request))

/-- Runs on a network on which no signature is forged. -/
def OpenUnforged (s : OutletState V) : OpenAction V → Prop
  | .outlet _ => True
  | .request _ _ headers body _ => s.Unforged ed25519 sha256 codec app headers body

/-! ## Section 3: Only tills are heard -/

variable {ed25519 sha256 codec app digest}

/-- A request that is let in was signed by the device it is taken to be from. -/
theorem Unforged.signed {s : OutletState V} {faults : Faults V} {headers : Headers}
    {method path : String} {body : List UInt8} {now : I64} {d : Uuid}
    (h : s.Unforged ed25519 sha256 codec app headers body) (hmethod : '\n' ∉ method.toList)
    (hauthentic : app.authenticate ed25519.scheme sha256 faults s.server.db headers method path
      body now = .ok d) :
    ∃ request, s.Signs codec d request ∧ request.path = path ∧ request.body = body ∧
      Text.eqIgnoreAsciiCase request.method method = true := by
  obtain ⟨timestamp, signature, hheader, hverified⟩ :=
    AppState.authenticate_signed ed25519 sha256 app hauthentic
  obtain ⟨holder, request, -, hsigns, hbytes⟩ := h.signature signature hheader d _ hverified
  have hmethod' : '\n' ∉ request.method.toList := by
    cases hsigns with
    | push =>
      show '\n' ∉ "POST".toList
      decide
    | pull =>
      show '\n' ∉ "GET".toList
      decide
  have hsame := SignedRequest.sameAs_of_bytes hmethod' hmethod
    (fun hsha => h.digest holder request hsigns hsha) hbytes
  -- the payload names the device, whoever else holds its key
  have hholder : holder = d := by
    have hdevice := hsame.deviceId
    cases hsigns with
    | push => exact hdevice
    | pull => exact hdevice
  subst hholder
  exact ⟨request, hsigns, hsame.path, hsame.body, hsame.method⟩

/-- Whom the push route admits has sent what it brings. -/
theorem Unforged.brings {s : OutletState V} {faults : Faults V} {headers : Headers}
    {body : List UInt8} {now : I64} {d : Uuid} {request : PushRequest V} (t : Nat)
    (hcodec : ∀ request body, codec.toVec request = some body → codec.fromSlice body = some request)
    (h : s.Unforged ed25519 sha256 codec app headers body)
    (hopens : app.opensPush ed25519 sha256 codec faults s.server.db headers body now =
      some (d, request)) : s.Brings (.beginPush t d request) := by
  unfold AppState.opensPush at hopens
  split at hopens
  · cases hopens
  cases hauthentic : app.authenticate ed25519.scheme sha256 faults s.server.db headers "POST"
      pushPath body now with
  | error failure =>
    rw [hauthentic] at hopens
    cases hopens
  | ok authenticated =>
    rw [hauthentic] at hopens
    obtain ⟨read, hread, hpair⟩ := Option.map_eq_some_iff.mp hopens
    cases hpair
    obtain ⟨signed, hsigns, -, hbody, hmethod⟩ := h.signed (by decide) hauthentic
    cases hsigns with
    | push timestamp hsent hwritten =>
      subst hbody
      rw [hcodec _ _ hwritten] at hread
      cases hread
      exact hsent
    | pull =>
      -- a signed pull is no push
      have hno : Text.eqIgnoreAsciiCase "GET" "POST" = false := by decide
      exact absurd (hno.symm.trans hmethod) Bool.false_ne_true

/-- An open step is a step among the tills, or nothing. -/
theorem openStep_cases {s s' : OutletState V} {a : OpenAction V}
    (hcodec : ∀ request body, codec.toVec request = some body → codec.fromSlice body = some request)
    (hunforged : s.OpenUnforged ed25519 sha256 codec app a)
    (hstep : s.openStep ed25519 sha256 codec app digest a s') :
    s' = s ∨ ∃ action, s.step digest action s' := by
  cases a with
  | outlet action =>
    refine .inr ⟨action, ?_⟩
    cases action with
    | server action =>
      cases action with
      | beginPush => exact absurd hstep id
      | insertNext | commit | abort => exact hstep
    | record | send | acknowledge | request | apply | crash => exact hstep
  | request t faults headers body now =>
    obtain ⟨hfree, hstep⟩ := hstep
    cases hopens : app.opensPush ed25519 sha256 codec faults s.server.db headers body now with
    | none =>
      rw [hopens] at hstep
      exact .inl hstep
    | some admitted =>
      rw [hopens] at hstep
      obtain ⟨authenticated, request⟩ := admitted
      obtain ⟨hserver, htill⟩ := hstep
      refine .inr ⟨.server (.beginPush t authenticated request), ?_⟩
      exact ⟨Unforged.brings t hcodec hunforged hopens, ⟨hfree, hserver⟩, htill⟩

/-- **Only tills are heard**: where no signature is forged, an outlet whose server answers anyone
    goes through no state that it would not go through if its tills alone could reach the server;
    and what the server has of a device is a beginning of what that device recorded, in the order it
    recorded it. -/
theorem open_refines {s : OutletState V}
    (hcodec : ∀ request body, codec.toVec request = some body → codec.fromSlice body = some request)
    (h : Transition.Reachable Fresh (Transition.Guarded
      (openStep ed25519 sha256 codec app digest) (OpenUnforged ed25519 sha256 codec app)) s) :
    Transition.Reachable Fresh (step digest) s ∧
      ∀ d, s.server.db.log d <+: (s.till d).store.loadAll := by
  have hreachable : Transition.Reachable Fresh (step digest) s :=
    h.refines id (fun _ hfresh => hfresh) fun s a s' hstep =>
      openStep_cases hcodec hstep.1 hstep.2
  exact ⟨hreachable, (sound_reachable hreachable).log_recorded⟩

end Open

/-! ### A push that someone else delivers -/

open PushState (storeOf firstOf)

/-- The batch till 4 sends, as it is written. -/
def writtenOnce : Codec Unit where
  toVec request := if request.deviceId = 4 ∧ request.events = [firstOf 10] then some [1] else none
  fromSlice body := if body = [1] then some ⟨4, [firstOf 10]⟩ else none

def firstPush : SignedRequest := ⟨4, "POST", pushPath, 0, [1]⟩

/-- Signatures that tell that push from any other message. -/
def pushSignatures : ByteSignatures Unit := tagSignatures (firstPush.signingPayload lengthSha).bytes

/-- What was overheard of till 4. -/
def overheard : Headers := ⟨.value 4, .value 0, .value (List.replicate 64 1)⟩

/-- Till 4 has recorded an event and sent it; nothing arrived. -/
def fourSent : OutletState Unit :=
  withFour Server.threeTills ⟨storeOf 10 none, [[firstOf 10]], [], []⟩

abbrev OpenReaches : OutletState Unit → Prop :=
  Transition.Reachable Fresh (Transition.Guarded
    (openStep pushSignatures lengthSha writtenOnce HttpTransport.shop Server.idDigest)
    (OpenUnforged pushSignatures lengthSha writtenOnce HttpTransport.shop))

theorem fourSent_reachable : OpenReaches fourSent := by
  have hrecorded : OpenReaches (withFour Server.threeTills ⟨storeOf 10 none, [], [], []⟩) := by
    exact .step (.outlet (.record 4 (PushState.idHeader 10) ⟨"sale.started", .ok ()⟩))
      (.init opening_fresh) ⟨trivial, _, _, _, rfl, rfl, rfl⟩
  refine .step (.outlet (.send 4)) hrecorded ⟨trivial, by decide, ?_⟩
  rw [fourSent, withFour, withFour, setTill_again]
  rfl

theorem overheard_admitted : HttpTransport.shop.authenticate pushSignatures.scheme lengthSha
    Faults.none Server.threeTills.db overheard "POST" pushPath [1] 0 = .ok 4 := by
  decide +kernel

theorem overheard_unforged :
    fourSent.Unforged pushSignatures lengthSha writtenOnce HttpTransport.shop overheard [1] := by
  refine ⟨fun signature hsignature d message hverified => ?_, fun d request hsigns hsha => ?_⟩
  · cases hsignature
    refine ⟨4, firstPush, rfl, .push 0 (List.mem_singleton_self [firstOf 10]) rfl, ?_⟩
    exact (tagSignatures_binds hverified).symm
  · cases hsigns with
    | push timestamp hsent hbody =>
      obtain ⟨-, hone⟩ := Option.ite_none_right_eq_some.mp hbody
      exact (Option.some.inj hone).symm
    | pull =>
      have hlengths : lengthSha [] ≠ lengthSha [1] := by decide
      exact absurd hsha hlengths

/-- The server once the push is stored. -/
def overheardStored : OutletState Unit :=
  withFour PushState.storedFirst
    ⟨storeOf 10 none, [[firstOf 10]], [⟨1, 0, (firstOf 10).tip, 1⟩], []⟩

theorem overheardStored_reachable : OpenReaches overheardStored := by
  let opened := (Server.threeTills.beginPush Server.idDigest 0 4 ⟨4, [firstOf 10]⟩).1
  have hopened : OpenReaches (withFour opened ⟨storeOf 10 none, [[firstOf 10]], [], []⟩) := by
    refine .step (.request 0 Faults.none overheard [1] 0) fourSent_reachable
      ⟨overheard_unforged, rfl, ?_⟩
    unfold AppState.opensPush
    rw [if_neg (by decide), show fourSent.server.db = Server.threeTills.db from rfl, overheard_admitted]
    exact ⟨rfl, rfl⟩
  have hinserted : OpenReaches
      (withFour (opened.insertNext 0).1 ⟨storeOf 10 none, [[firstOf 10]], [], []⟩) :=
    .step (.outlet (.server (.insertNext 0))) hopened ⟨trivial, trivial, rfl, rfl⟩
  refine .step (.outlet (.server (.commit 0))) hinserted ⟨trivial, trivial, rfl, ?_⟩
  show opening.setTill 4 _ = OutletState.setTill ⟨_, opening.setTill 4 _⟩ 4 _
  rw [setTill_again]
  rfl

theorem open_refines_overheard : overheardStored.server.db.log 4 = [firstOf 10] ∧
    ∀ d, overheardStored.server.db.log d <+: (overheardStored.till d).store.loadAll := by
  refine ⟨by decide, (open_refines (fun request body hbody => ?_) overheardStored_reachable).2⟩
  obtain ⟨⟨hdevice, hevents⟩, hone⟩ := Option.ite_none_right_eq_some.mp hbody
  cases hone
  obtain ⟨deviceId, events⟩ := request
  cases hdevice
  cases hevents
  rfl

end OutletState

end Sahl
