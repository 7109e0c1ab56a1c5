import Mathlib.Tactic
import Sahl.Lib.Decimal
import Sahl.Core.EventChain
import Sahl.Server.Routes

/-! # What a signature covers

    A request is signed as a text of lines, and only its path may hold line ends of its own. Read
    from both ends the text gives every field back, so two requests signed as one text are one
    request (`signingPayload_covers`). -/

namespace Sahl

/-! ## Section 1: The text -/

/-- The exact text signed and verified. -/
def SigningPayload.text (payload : SigningPayload) : List Char :=
  payload.domain.toList ++ '\n' :: (Text.toAsciiUppercase payload.method.toList ++ '\n' ::
    (payload.path.toList ++ '\n' :: (payload.deviceId.toHyphenated.toList ++ '\n' ::
      (Decimal.render 0 payload.timestampMillis.val ++ '\n' ::
        payload.bodyDigest.toHex.toList))))

def SigningPayload.bytes (payload : SigningPayload) : List UInt8 :=
  Text.utf8 (String.ofList payload.text)

/-- A signature scheme over bytes. -/
structure ByteSignatures (Key : Type) where
  publicKey : Key → List UInt8
  wellFormed : List UInt8 → Bool
  sign : Key → List UInt8 → List UInt8
  verifyStrict : List UInt8 → List UInt8 → List UInt8 → Bool
  publicKey_wellFormed : ∀ key, wellFormed (publicKey key) = true
  sign_length : ∀ key message, (sign key message).length = 64
  verifyStrict_sign : ∀ key message, verifyStrict (publicKey key) message (sign key message) = true

/-- Requests are signed as their bytes. -/
def ByteSignatures.scheme {Key : Type} (ed25519 : ByteSignatures Key) : SignatureScheme Key where
  publicKey := ed25519.publicKey
  wellFormed := ed25519.wellFormed
  sign key payload := ed25519.sign key payload.bytes
  verifyStrict publicKey payload signature :=
    ed25519.verifyStrict publicKey payload.bytes signature
  publicKey_wellFormed := ed25519.publicKey_wellFormed
  sign_length key payload := ed25519.sign_length key payload.bytes
  verifyStrict_sign key payload := ed25519.verifyStrict_sign key payload.bytes

/-! ## Section 2: The fields -/

theorem newline_notMem_hexDigits (width n : Nat) : '\n' ∉ Json.hexDigits width n := by
  have hdigit : ∀ d < 16, Nat.digitChar d ≠ '\n' := by decide
  induction width generalizing n with
  | zero => exact List.not_mem_nil
  | succ width ih =>
    intro hmem
    rcases List.mem_append.mp hmem with hhigh | hlow
    · exact ih _ hhigh
    · exact hdigit _ (Nat.mod_lt n (by decide)) (List.mem_singleton.mp hlow).symm

theorem newline_notMem_hyphenate {sizes : List Nat} {digits : List Char} (h : '\n' ∉ digits) :
    '\n' ∉ hyphenate sizes digits := by
  induction sizes generalizing digits with
  | nil => exact h
  | cons n sizes ih =>
    intro hmem
    rcases List.mem_append.mp hmem with htaken | hrest
    · exact h (List.mem_of_mem_take htaken)
    · rcases List.mem_cons.mp hrest with hhyphen | hdropped
      · exact absurd hhyphen (by decide)
      · exact ih (fun hdigit => h (List.mem_of_mem_drop hdigit)) hdropped

theorem newline_notMem_toHyphenated (id : Uuid) : '\n' ∉ id.toHyphenated.toList := by
  rw [Uuid.toHyphenated, String.toList_ofList]
  exact newline_notMem_hyphenate (newline_notMem_hexDigits _ _)

theorem newline_notMem_toHex (hash : EventHash) : '\n' ∉ hash.toHex.toList := by
  rw [EventHash.toHex, String.toList_ofList]
  exact newline_notMem_hexDigits _ _

/-- A signed text gives its fields back, the method in upper case. -/
theorem SigningPayload.text_inj {a b : SigningPayload} (hdomain : a.domain = b.domain)
    (ha : '\n' ∉ a.method.toList) (hb : '\n' ∉ b.method.toList) (h : a.text = b.text) :
    Text.toAsciiUppercase a.method.toList = Text.toAsciiUppercase b.method.toList ∧
      a.path = b.path ∧ a.deviceId = b.deviceId ∧ a.timestampMillis = b.timestampMillis ∧
      a.bodyDigest = b.bodyDigest := by
  unfold text at h
  rw [hdomain] at h
  -- from the front, up to the path
  have h := (List.cons.inj (List.append_cancel_left h)).2
  obtain ⟨hmethod, h⟩ := Text.append_first_inj (Text.newline_notMem_toAsciiUppercase ha)
    (Text.newline_notMem_toAsciiUppercase hb) h
  -- from the back, down to the path
  simp only [← List.cons_append, ← List.append_assoc] at h
  obtain ⟨h, hdigest⟩ := Text.append_last_inj (newline_notMem_toHex _) (newline_notMem_toHex _) h
  obtain ⟨h, htimestamp⟩ := Text.append_last_inj (Decimal.newline_notMem_render _)
    (Decimal.newline_notMem_render _) h
  obtain ⟨hpath, hdevice⟩ := Text.append_last_inj (newline_notMem_toHyphenated _)
    (newline_notMem_toHyphenated _) h
  refine ⟨hmethod, String.toList_inj.mp hpath, ?_, ?_, ?_⟩
  · exact Uuid.toHyphenated_inj (String.toList_inj.mp hdevice)
  · exact SInt.ext (Decimal.render_injective 0 htimestamp)
  · exact EventHash.toHex_inj (String.toList_inj.mp hdigest)

/-! ## Section 3: One signature, one request -/

/-- Two requests are one, but for the case of the method. -/
structure SignedRequest.SameAs (a b : SignedRequest) : Prop where
  deviceId : a.deviceId = b.deviceId
  timestampMillis : a.timestampMillis = b.timestampMillis
  path : a.path = b.path
  body : a.body = b.body
  method : Text.eqIgnoreAsciiCase a.method b.method = true

theorem SignedRequest.sameAs_of_bytes {sha256 : List UInt8 → EventHash} {a b : SignedRequest}
    (ha : '\n' ∉ a.method.toList) (hb : '\n' ∉ b.method.toList)
    (hsha : sha256 a.body = sha256 b.body → a.body = b.body)
    (h : (a.signingPayload sha256).bytes = (b.signingPayload sha256).bytes) : a.SameAs b := by
  have htext := String.ofList_injective (Text.utf8_injective h)
  obtain ⟨hmethod, hpath, hdevice, htimestamp, hdigest⟩ :=
    @SigningPayload.text_inj (a.signingPayload sha256) (b.signingPayload sha256) rfl ha hb htext
  exact ⟨hdevice, htimestamp, hpath, hsha hdigest, Text.eqIgnoreAsciiCase_of_uppercase hmethod⟩

/-- A request that is verified has a signature of its bytes. -/
theorem verifyStrict_of_verifyRequest {Key : Type} {scheme : SignatureScheme Key}
    {sha256 : List UInt8 → EventHash} {request : SignedRequest} {credentials : DeviceCredentials}
    {signature : List UInt8} {now maxSkewSeconds : I64}
    (h : verifyRequest scheme sha256 request credentials signature now maxSkewSeconds = .ok ()) :
    scheme.verifyStrict credentials.publicKey (request.signingPayload sha256) signature =
      true := by
  unfold verifyRequest at h
  obtain ⟨-, h⟩ := Except.ite_error_eq_ok.mp h
  obtain ⟨-, h⟩ := Except.ite_error_eq_ok.mp h
  obtain ⟨-, h⟩ := Except.ite_error_eq_ok.mp h
  obtain ⟨-, h⟩ := Except.ite_error_eq_ok.mp h
  by_contra hrejected
  rw [if_neg hrejected] at h
  cases h

/-- **A signature covers one request.** Requests whose methods hold no line end and whose bodies
    do not collide are signed as the same bytes only if they are one request, whatever their paths
    carry; so a signature that verifies for one message alone is accepted for no other request. -/
theorem signingPayload_covers {sha256 : List UInt8 → EventHash} {a b : SignedRequest}
    (ha : '\n' ∉ a.method.toList) (hb : '\n' ∉ b.method.toList)
    (hsha : sha256 a.body = sha256 b.body → a.body = b.body) :
    ((a.signingPayload sha256).bytes = (b.signingPayload sha256).bytes → a.SameAs b) ∧
    ∀ {Key : Type} (ed25519 : ByteSignatures Key) (credentials other : DeviceCredentials)
      (signature : List UInt8) (now later maxSkewSeconds : I64),
      other.publicKey = credentials.publicKey →
      (∀ message message', ed25519.verifyStrict credentials.publicKey message signature = true →
        ed25519.verifyStrict credentials.publicKey message' signature = true →
          message = message') →
      verifyRequest ed25519.scheme sha256 a credentials signature now maxSkewSeconds = .ok () →
      verifyRequest ed25519.scheme sha256 b other signature later maxSkewSeconds = .ok () →
        a.SameAs b := by
  refine ⟨SignedRequest.sameAs_of_bytes ha hb hsha, ?_⟩
  intro Key ed25519 credentials other signature now later maxSkewSeconds hkey hbinds hfirst hsecond
  have hsecond := verifyStrict_of_verifyRequest hsecond
  rw [hkey] at hsecond
  exact SignedRequest.sameAs_of_bytes ha hb hsha
    (hbinds _ _ (verifyStrict_of_verifyRequest hfirst) hsecond)

/-- The digest of no bytes at all. -/
def emptyDigest : EventHash :=
  ⟨0xe3b0c44298fc1c149afbf4c8996fb92427ae41e4649b934ca495991b7852b855⟩

/-- Signatures that tell one message from all others. -/
def tagSignatures (first : List UInt8) : ByteSignatures Unit where
  publicKey _ := [7]
  wellFormed _ := true
  sign _ message := List.replicate 64 (if message = first then 1 else 0)
  verifyStrict _ message signature :=
    signature = List.replicate 64 (if message = first then 1 else 0)
  publicKey_wellFormed _ := rfl
  sign_length _ _ := List.length_replicate
  verifyStrict_sign _ _ := decide_eq_true rfl

/-- The tag of that one message verifies for no other. -/
theorem tagSignatures_binds {first message : List UInt8}
    (h : (tagSignatures first).verifyStrict [7] message (List.replicate 64 1) = true) :
    message = first := by
  by_contra hother
  have htag := of_decide_eq_true h
  rw [if_neg hother] at htag
  exact absurd htag (by decide)

/-- A till asks for what follows a cursor. -/
def pullAfter (query : String) : SignedRequest :=
  ⟨1, "GET", "/v1/sync/pull?" ++ query, I64.lit 1753000000000, []⟩

/-- Signatures of the pull whose query holds a line end. -/
def splitSignatures : ByteSignatures Unit :=
  tagSignatures ((pullAfter "after=0\n1").signingPayload fun _ => emptyDigest).bytes

/-- The server's check of that signature on a request. -/
def verifiedAs (request : SignedRequest) : Except SignatureError Unit :=
  verifyRequest splitSignatures.scheme (fun _ => emptyDigest) request ⟨1, [7], false⟩
    (List.replicate 64 1) (I64.lit 1753000000000) (I64.lit 300)

/-- A line end in the query makes another text of it, and what was signed with one is not accepted
    without. -/
theorem signingPayload_covers_pull :
    ((pullAfter "after=0\n1").signingPayload fun _ => emptyDigest).bytes ≠
        ((pullAfter "after=0").signingPayload fun _ => emptyDigest).bytes ∧
      verifiedAs (pullAfter "after=0\n1") = .ok () ∧ verifiedAs (pullAfter "after=0") ≠ .ok () := by
  obtain ⟨hbytes, hsigned⟩ := @signingPayload_covers (fun _ => emptyDigest)
    (pullAfter "after=0\n1") (pullAfter "after=0") (by decide) (by decide) (fun _ => rfl)
  have hpath : ¬ (pullAfter "after=0\n1").SameAs (pullAfter "after=0") := fun hsame =>
    absurd hsame.path (by decide)
  have haccepted : verifiedAs (pullAfter "after=0\n1") = .ok () := by decide +kernel
  refine ⟨fun hequal => hpath (hbytes hequal), haccepted, fun hmoved => ?_⟩
  refine hpath (hsigned splitSignatures ⟨1, [7], false⟩ ⟨1, [7], false⟩ _ _ _ _ rfl ?_ haccepted
    hmoved)
  exact fun message message' h h' => (tagSignatures_binds h).trans (tagSignatures_binds h').symm

end Sahl
