import Mathlib
import Sahl.Core.Event

/-! # What a verified chain says

    `ChainFrom` is what `verify_chain` establishes, read off the events alone. Sealing keeps it
    (`appendRun_verifies`), and under a collision-free digest it leaves one run for each start
    and tip (`verifyChain_unique`). -/

namespace Sahl

variable {V : Type}

/-! ## Section 1: Chains of events -/

/-- `e` is the next event of device `d` after `tip`. -/
structure Follows (digest : HashFunction V) (d : Uuid) (tip : ChainTip) (e : EventEnvelope V) :
    Prop where
  device : e.deviceId = d
  seq : e.deviceSeq = tip.deviceSeq + 1
  fits : e.deviceSeq < 2 ^ 64
  link : e.prevHash = tip.hash
  hash : digest e.hashInput = .ok e.hash

/-- An unbroken chain of device `d` from `start`. -/
def ChainFrom (digest : HashFunction V) (d : Uuid) : ChainTip → List (EventEnvelope V) → Prop
  | _, [] => True
  | start, e :: es => Follows digest d start e ∧ ChainFrom digest d e.tip es

/-- The tip after a run of events. -/
def endTip (start : ChainTip) (es : List (EventEnvelope V)) : ChainTip :=
  (es.getLast?.map (·.tip)).getD start

@[simp] theorem endTip_nil (start : ChainTip) : endTip start ([] : List (EventEnvelope V)) = start :=
  rfl

@[simp] theorem endTip_concat (start : ChainTip) (es : List (EventEnvelope V))
    (e : EventEnvelope V) : endTip start (es ++ [e]) = e.tip := by
  simp [endTip]

theorem endTip_cons (start : ChainTip) (e : EventEnvelope V) (es : List (EventEnvelope V)) :
    endTip start (e :: es) = endTip e.tip es := by
  cases es with
  | nil => rfl
  | cons a es => simp [endTip, List.getLast?_cons]

theorem endTip_append (start : ChainTip) (es fs : List (EventEnvelope V)) :
    endTip start (es ++ fs) = endTip (endTip start es) fs := by
  induction es generalizing start with
  | nil => rfl
  | cons e es ih => rw [List.cons_append, endTip_cons, endTip_cons, ih]

section Chain

variable {digest : HashFunction V} {d : Uuid}

theorem chainFrom_append {start : ChainTip} {es fs : List (EventEnvelope V)} :
    ChainFrom digest d start (es ++ fs) ↔
      ChainFrom digest d start es ∧ ChainFrom digest d (endTip start es) fs := by
  induction es generalizing start with
  | nil => simp [ChainFrom]
  | cons e es ih => rw [List.cons_append, ChainFrom, ChainFrom, ih, endTip_cons, and_assoc]

theorem chainFrom_concat {start : ChainTip} {es : List (EventEnvelope V)} {e : EventEnvelope V} :
    ChainFrom digest d start (es ++ [e]) ↔
      ChainFrom digest d start es ∧ Follows digest d (endTip start es) e := by
  rw [chainFrom_append]
  simp [ChainFrom]

theorem chainFrom_take {start : ChainTip} {es : List (EventEnvelope V)}
    (h : ChainFrom digest d start es) (n : Nat) : ChainFrom digest d start (es.take n) := by
  rw [← List.take_append_drop n es] at h
  exact (chainFrom_append.mp h).1

/-- The events of a chain are numbered on from its start. -/
theorem chainFrom_getElem {start : ChainTip} {es : List (EventEnvelope V)}
    (h : ChainFrom digest d start es) {n : Nat} {e : EventEnvelope V} (he : es[n]? = some e) :
    e.deviceSeq = start.deviceSeq + n + 1 ∧ e.deviceId = d ∧ digest e.hashInput = .ok e.hash := by
  induction es generalizing start n with
  | nil => simp at he
  | cons a es ih =>
    obtain ⟨ha, hrest⟩ := h
    cases n with
    | zero =>
      simp only [List.getElem?_cons_zero, Option.some.injEq] at he
      subst he
      exact ⟨ha.seq, ha.device, ha.hash⟩
    | succ n =>
      obtain ⟨hseq, hdevice, hhash⟩ := ih hrest (by simpa using he)
      refine ⟨?_, hdevice, hhash⟩
      simp only [EventEnvelope.tip, ha.seq] at hseq
      omega

theorem chainFrom_mem {start : ChainTip} {es : List (EventEnvelope V)}
    (h : ChainFrom digest d start es) {e : EventEnvelope V} (he : e ∈ es) :
    start.deviceSeq < e.deviceSeq ∧ e.deviceId = d ∧ digest e.hashInput = .ok e.hash := by
  obtain ⟨n, hn⟩ := List.getElem?_of_mem he
  obtain ⟨hseq, hrest⟩ := chainFrom_getElem h hn
  exact ⟨by omega, hrest⟩

/-- In a chain from genesis an event stands where its number says. -/
theorem chainFrom_genesis_getElem {es : List (EventEnvelope V)}
    (h : ChainFrom digest d ChainTip.genesis es) {e : EventEnvelope V} (he : e ∈ es) :
    ∃ n, e.deviceSeq = n + 1 ∧ es[n]? = some e := by
  obtain ⟨n, hn⟩ := List.getElem?_of_mem he
  exact ⟨n, by simpa [ChainTip.genesis] using (chainFrom_getElem h hn).1, hn⟩

theorem chainFrom_range {start : ChainTip}
    {es : List (EventEnvelope V)} (h : ChainFrom digest d start es) :
    es.map (·.deviceSeq) = List.range' (start.deviceSeq + 1) es.length := by
  refine List.ext_getElem (by simp) fun n hn _ => ?_
  rw [List.length_map] at hn
  rw [List.getElem_map, List.getElem_range',
    (chainFrom_getElem h (List.getElem?_eq_getElem hn)).1]
  omega

theorem endTip_deviceSeq {start : ChainTip} {es : List (EventEnvelope V)}
    (h : ChainFrom digest d start es) :
    (endTip start es).deviceSeq = start.deviceSeq + es.length := by
  induction es generalizing start with
  | nil => rfl
  | cons e es ih =>
    obtain ⟨he, hrest⟩ := h
    rw [endTip_cons, ih hrest, List.length_cons]
    simp only [EventEnvelope.tip, he.seq]
    omega

/-- The events of a chain above a number are its last ones. -/
theorem chainFrom_filter_lt {start : ChainTip} {es : List (EventEnvelope V)}
    (h : ChainFrom digest d start es) (n : Nat) :
    es.filter (n < ·.deviceSeq) = es.drop (n - start.deviceSeq) := by
  induction es generalizing start with
  | nil => simp
  | cons e es ih =>
    obtain ⟨he, hrest⟩ := h
    have hseq : e.tip.deviceSeq = start.deviceSeq + 1 := he.seq
    by_cases hn : n < e.deviceSeq
    · -- the rest of the chain stands higher still
      rw [List.filter_cons_of_pos (by simpa using hn), ih hrest]
      have hnone : n - start.deviceSeq = 0 := by
        have hfirst := he.seq
        omega
      have hnoneRest : n - e.tip.deviceSeq = 0 := by omega
      rw [hnone, hnoneRest, List.drop_zero, List.drop_zero]
    · rw [List.filter_cons_of_neg (by simpa using hn), ih hrest]
      have hsucc : n - start.deviceSeq = n - e.tip.deviceSeq + 1 := by
        have hfirst := he.seq
        omega
      rw [hsucc, List.drop_succ_cons]

theorem chainFrom_linked {start : ChainTip} {es : List (EventEnvelope V)}
    (h : ChainFrom digest d start es) :
    HashChain.Linked EventEnvelope.prevHash EventEnvelope.hash start.hash es := by
  induction es generalizing start with
  | nil => trivial
  | cons e es ih => exact ⟨h.1.link, ih h.2⟩

theorem endTip_hash (start : ChainTip) (es : List (EventEnvelope V)) :
    (endTip start es).hash = HashChain.lastHash EventEnvelope.hash start.hash es := by
  induction es generalizing start with
  | nil => rfl
  | cons e es ih =>
    rw [endTip_cons, ih]
    rfl

end Chain

/-- Chains from genesis that agree on a digest at one number agree up to it. -/
theorem chainFrom_genesis_take_eq {digest : HashFunction V} {d : Uuid}
    {as bs : List (EventEnvelope V)} {a b : EventEnvelope V}
    (hcommit : HashChain.Committing EventEnvelope.hash as bs)
    (has : ChainFrom digest d ChainTip.genesis as) (hbs : ChainFrom digest d ChainTip.genesis bs)
    (ha : a ∈ as) (hb : b ∈ bs) (hseq : a.deviceSeq = b.deviceSeq) (hhash : a.hash = b.hash) :
    as.take a.deviceSeq = bs.take a.deviceSeq := by
  obtain ⟨n, hn, hat⟩ := chainFrom_genesis_getElem has ha
  obtain ⟨m, hm, hbt⟩ := chainFrom_genesis_getElem hbs hb
  obtain rfl : n = m := by omega
  rw [hn]
  exact HashChain.linked_take_eq hcommit (chainFrom_linked has) (chainFrom_linked hbs) hat hbt hhash

/-! ## Section 2: What the verifier establishes -/

theorem nextSeq_eq_some {n m : Nat} : nextSeq n = some m ↔ m = n + 1 ∧ m < 2 ^ 64 := by
  unfold nextSeq
  split <;> simp <;> omega

theorem satNextSeq_of_lt {n : Nat} (h : n < 2 ^ 63) : satNextSeq n = n + 1 := by
  rw [satNextSeq, min_eq_left (by omega)]

theorem verify_eq_ok {digest : HashFunction V} {e : EventEnvelope V} :
    e.verify digest = .ok () ↔ digest e.hashInput = .ok e.hash := by
  simp only [EventEnvelope.verify, EventEnvelope.recomputeHash, Except.bind_eq_ok]
  constructor
  · rintro ⟨computed, hcomputed, h⟩
    split at h
    · rename_i heq
      rw [hcomputed, heq]
    · cases h
  · intro h
    exact ⟨e.hash, h, by simp⟩

theorem verifyStep_eq_ok {digest : HashFunction V} {d : Uuid} {tip tip' : ChainTip}
    {e : EventEnvelope V} :
    verifyStep digest d tip e = .ok tip' ↔ Follows digest d tip e ∧ tip' = e.tip := by
  unfold verifyStep
  constructor
  · intro h
    split at h
    · cases h
    rename_i hdevice
    simp only [Except.bind_eq_ok, Except.okOr_eq_ok, nextSeq_eq_some] at h
    -- then number, link and hash, each a refusal of its own
    obtain ⟨expected, ⟨hexpected, hfits⟩, h⟩ := h
    split at h
    · cases h
    rename_i hseq
    split at h
    · cases h
    rename_i hlink
    simp only [Except.bind_eq_ok] at h
    obtain ⟨_, hverify, h⟩ := h
    cases h
    have hseq := not_not.mp hseq
    exact ⟨⟨not_not.mp hdevice, hseq.trans hexpected, hseq ▸ hfits, not_not.mp hlink,
      verify_eq_ok.mp hverify⟩, rfl⟩
  · rintro ⟨h, rfl⟩
    have hnext : nextSeq tip.deviceSeq = some e.deviceSeq := nextSeq_eq_some.mpr ⟨h.seq, h.fits⟩
    have hverify : e.verify digest = .ok () := verify_eq_ok.mpr h.hash
    simp [h.device, hnext, Except.okOr, h.link, hverify, bind, Except.bind, EventEnvelope.tip]

theorem foldlM_verifyStep_eq_ok {digest : HashFunction V} {d : Uuid} {start tip : ChainTip}
    {es : List (EventEnvelope V)} :
    es.foldlM (verifyStep digest d) start = .ok tip ↔
      ChainFrom digest d start es ∧ tip = endTip start es := by
  induction es generalizing start with
  | nil =>
    rw [List.foldlM_nil, Except.pure_eq_ok]
    simp [ChainFrom, eq_comm]
  | cons e es ih =>
    rw [foldlM_cons_eq_ok, ChainFrom, endTip_cons]
    constructor
    · rintro ⟨next, hnext, hrest⟩
      obtain ⟨hfollows, rfl⟩ := verifyStep_eq_ok.mp hnext
      obtain ⟨hchain, htip⟩ := ih.mp hrest
      exact ⟨⟨hfollows, hchain⟩, htip⟩
    · rintro ⟨⟨hfollows, hchain⟩, htip⟩
      exact ⟨e.tip, verifyStep_eq_ok.mpr ⟨hfollows, rfl⟩, ih.mpr ⟨hchain, htip⟩⟩

/-- `verify_chain` answers exactly on unbroken chains of one device, with their last tip. -/
theorem verifyChain_eq_ok {digest : HashFunction V} {start tip : ChainTip}
    {es : List (EventEnvelope V)} :
    verifyChain digest es start = .ok tip ↔
      (∃ d, ChainFrom digest d start es) ∧ tip = endTip start es := by
  match es with
  | [] =>
    simp [verifyChain, ChainFrom, eq_comm]
  | e :: es =>
    rw [verifyChain, foldlM_verifyStep_eq_ok]
    constructor
    · rintro ⟨hchain, htip⟩
      exact ⟨⟨_, hchain⟩, htip⟩
    · rintro ⟨⟨d, hchain⟩, htip⟩
      obtain rfl := hchain.1.device
      exact ⟨hchain, htip⟩

/-- A chain from genesis passes the verifier that demands one. -/
theorem chainFrom_verifies {digest : HashFunction V} {d : Uuid} {es : List (EventEnvelope V)}
    (h : ChainFrom digest d ChainTip.genesis es) :
    verifyChainFromGenesis digest es = .ok (endTip ChainTip.genesis es) := by
  have hverify := verifyChain_eq_ok.mpr ⟨⟨d, h⟩, rfl⟩
  match es with
  | [] => exact hverify
  | e :: es =>
    have hfirst : e.deviceSeq = 1 := h.1.seq
    have hprev : e.prevHash = EventHash.genesis := h.1.link
    rw [verifyChainFromGenesis, if_neg]
    · exact hverify
    · simp [hfirst, hprev, EventHash.isGenesis]

/-! ## Section 3: Sealing -/

/-- What a successful append seals, and where it leaves the chain. -/
theorem append_eq_ok {digest : HashFunction V} {chain chain' : EventChain} {header : EventHeader}
    {payload : EventPayload V} {e : EventEnvelope V}
    (h : chain.append digest header payload = .ok (e, chain')) :
    Follows digest chain.deviceId chain.tip e ∧
      chain' = { chain with tip := e.tip } ∧
      e.eventId = header.eventId ∧ e.outletId = header.outletId ∧
      e.tenantId = header.tenantId ∧ e.occurredAt = header.occurredAt ∧
      e.kind = payload.kind ∧ payload.toValue = .ok e.payload := by
  unfold EventChain.append at h
  split at h
  · cases h
  rename_i hdevice
  simp only [EventEnvelope.sealEvent, Except.bind_eq_ok, Except.okOr_eq_ok, nextSeq_eq_some] at h
  obtain ⟨seq, ⟨rfl, hfits⟩, event, ⟨value, hvalue, hash, hhash, hevent⟩, h⟩ := h
  cases hevent
  cases h
  exact ⟨⟨not_not.mp hdevice, rfl, hfits, rfl, hhash⟩, rfl, rfl, rfl, rfl, rfl, rfl, hvalue⟩

/-- An append succeeds when the header is the device's, the sequence fits, and what is hashed has
    a digest. -/
theorem append_of_digest {digest : HashFunction V} {chain : EventChain} {header : EventHeader}
    {payload : EventPayload V} {value : V} {seq : Nat} {hash : EventHash}
    (hdevice : header.deviceId = chain.deviceId) (hseq : nextSeq chain.tip.deviceSeq = some seq)
    (hvalue : payload.toValue = .ok value)
    (hdigest : digest ⟨header.eventId, header.tenantId, header.outletId, header.deviceId, seq,
      header.occurredAt, payload.kind, value, chain.tip.hash⟩ = .ok hash) :
    chain.append digest header payload =
      .ok (⟨header.eventId, header.tenantId, header.outletId, header.deviceId, seq,
        header.occurredAt, payload.kind, value, chain.tip.hash, hash⟩,
        { chain with tip := ⟨seq, hash⟩ }) := by
  unfold EventChain.append
  rw [if_neg (not_not.mpr hdevice)]
  simp only [EventEnvelope.sealEvent, Except.bind_eq_ok, Except.okOr_eq_ok]
  exact ⟨seq, hseq, _, ⟨value, hvalue, hash, hdigest, rfl⟩, rfl⟩

/-- A run of successful appends from one chain to another, and the events it sealed. -/
inductive AppendRun (digest : HashFunction V) (start : EventChain) :
    List (EventEnvelope V) → EventChain → Prop where
  | nil : AppendRun digest start [] start
  | append : ∀ {es chain chain' e} header payload, AppendRun digest start es chain →
      chain.append digest header payload = .ok (e, chain') →
      AppendRun digest start (es ++ [e]) chain'

theorem appendRun_chainFrom {digest : HashFunction V} {start chain : EventChain}
    {es : List (EventEnvelope V)} (h : AppendRun digest start es chain) :
    chain.deviceId = start.deviceId ∧ ChainFrom digest start.deviceId start.tip es ∧
      chain.tip = endTip start.tip es := by
  induction h with
  | nil => exact ⟨rfl, trivial, rfl⟩
  | append header payload _ happend ih =>
    obtain ⟨hdevice, hchain, htip⟩ := ih
    obtain ⟨hfollows, rfl, _⟩ := append_eq_ok happend
    rw [hdevice, htip] at hfollows
    exact ⟨hdevice, chainFrom_concat.mpr ⟨hchain, hfollows⟩, (endTip_concat _ _ _).symm⟩

/-- Every run a chain seals verifies, to the tip of the chain. -/
theorem appendRun_verifies {digest : HashFunction V} {start chain : EventChain}
    {es : List (EventEnvelope V)} (h : AppendRun digest start es chain) :
    verifyChain digest es start.tip = .ok chain.tip := by
  obtain ⟨_, hchain, htip⟩ := appendRun_chainFrom h
  exact verifyChain_eq_ok.mpr ⟨⟨_, hchain⟩, htip⟩

/-! ## Section 4: One run for each start and tip -/

/-- Two verified runs with one start and one tip are one run, where records with one digest are
    one record. -/
theorem verifyChain_unique {digest : HashFunction V} {start tip : ChainTip}
    {as bs : List (EventEnvelope V)} (hcommit : HashChain.Committing EventEnvelope.hash as bs)
    (has : verifyChain digest as start = .ok tip) (hbs : verifyChain digest bs start = .ok tip) :
    as = bs := by
  obtain ⟨⟨d, hchainA⟩, htipA⟩ := verifyChain_eq_ok.mp has
  obtain ⟨⟨d', hchainB⟩, htipB⟩ := verifyChain_eq_ok.mp hbs
  have hends : endTip start as = endTip start bs := htipA.symm.trans htipB
  have hseqA := endTip_deviceSeq hchainA
  have hseqB := endTip_deviceSeq hchainB
  refine HashChain.linked_commit hcommit (chainFrom_linked hchainA) (chainFrom_linked hchainB) ?_ ?_
  · rw [hends] at hseqA
    omega
  · rw [← endTip_hash, ← endTip_hash, hends]

/-! ## Section 5: The canonical bytes determine the event -/

theorem rejectFloats_eq_ok {v : Json.Value} {u : Unit} : rejectFloats v = .ok u ↔ v.firstFloat = none := by
  unfold rejectFloats
  split <;> simp_all

theorem canonicalBytes_inj {v w : Json.Value} {bytes : ByteArray}
    (hv : canonicalBytes v = .ok bytes) (hw : canonicalBytes w = .ok bytes) : v = w := by
  simp only [canonicalBytes, Except.bind_eq_ok, rejectFloats_eq_ok] at hv hw
  obtain ⟨_, hfloatV, hv⟩ := hv
  obtain ⟨_, hfloatW, hw⟩ := hw
  have htext : v.write = w.write := by
    have h := (Except.ok.inj hv).trans (Except.ok.inj hw).symm
    exact String.ofList_injective (String.toByteArray_inj.mp h)
  have hends : Json.Ends [] := by simp [Json.Ends]
  exact (Json.Value.write_unique hfloatV hfloatW hends hends (by rw [htext])).1

theorem hyphenate_inj {sizes : List Nat} {xs ys : List Char} (hlength : xs.length = ys.length)
    (h : hyphenate sizes xs = hyphenate sizes ys) : xs = ys := by
  induction sizes generalizing xs ys with
  | nil => exact h
  | cons n sizes ih =>
    obtain ⟨htake, hrest⟩ := List.append_inj h (by simp [hlength])
    have hdrop := ih (by simp [hlength]) (List.cons.inj hrest).2
    rw [← List.take_append_drop n xs, htake, hdrop, List.take_append_drop]

theorem Uuid.toHyphenated_inj {a b : Uuid} (h : a.toHyphenated = b.toHyphenated) : a = b := by
  have hdigits := hyphenate_inj (by simp) (String.ofList_injective h)
  have hbits := Json.hexDigits_inj (by have := a.bits.isLt; omega)
    (by have := b.bits.isLt; omega) hdigits
  cases a
  cases b
  simpa using Fin.ext hbits

theorem EventHash.toHex_inj {a b : EventHash} (h : a.toHex = b.toHex) : a = b := by
  have hbits := Json.hexDigits_inj (by have := a.bits.isLt; omega)
    (by have := b.bits.isLt; omega) (String.ofList_injective h)
  cases a
  cases b
  simpa using Fin.ext hbits

/-- The hash input with its keys in order: every field, each under its own key. -/
theorem HashInput.toValue_eq (i : HashInput Json.Value) : i.toValue = .object [
    ("device_id", i.deviceId.toValue),
    ("device_seq", .integer i.deviceSeq),
    ("event_id", i.eventId.toValue),
    ("kind", .string i.kind),
    ("occurred_at", .integer i.occurredAt.millis.val),
    ("outlet_id", i.outletId.toValue),
    ("payload", i.payload),
    ("prev_hash", .string i.prevHash.toHex),
    ("tenant_id", i.tenantId.toValue)] := by
  simp [HashInput.toValue, jsonObject]

theorem HashInput.toValue_inj {i j : HashInput Json.Value} (h : i.toValue = j.toValue) :
    i = j := by
  simp only [HashInput.toValue_eq, Json.Value.object.injEq, List.cons.injEq, Prod.mk.injEq,
    true_and, and_true, Json.Value.integer.injEq, Json.Value.string.injEq, Uuid.toValue,
    Nat.cast_inj] at h
  obtain ⟨hdevice, hseq, hevent, hkind, hat, houtlet, hpayload, hprev, htenant⟩ := h
  have hdevice := Uuid.toHyphenated_inj hdevice
  have hevent := Uuid.toHyphenated_inj hevent
  have houtlet := Uuid.toHyphenated_inj houtlet
  have htenant := Uuid.toHyphenated_inj htenant
  have hprev := EventHash.toHex_inj hprev
  have hat : i.occurredAt = j.occurredAt := by
    have := SInt.ext hat
    cases hi : i.occurredAt
    cases hj : j.occurredAt
    simp_all
  cases i
  cases j
  simp_all

theorem EventEnvelope.ext_hashInput {a b : EventEnvelope V} (hinput : a.hashInput = b.hashInput)
    (hhash : a.hash = b.hash) : a = b := by
  cases a
  cases b
  simp_all [EventEnvelope.hashInput]

/-- The bytes hashed for the events of a run. -/
def hashedBytes (es : List (EventEnvelope Json.Value)) : Set ByteArray :=
  {bytes | ∃ e ∈ es, canonicalBytes e.hashInput.toValue = .ok bytes}

theorem jsonDigest_eq_ok {sha256 : ByteArray → EventHash} {i : HashInput Json.Value}
    {h : EventHash} :
    jsonDigest sha256 i = .ok h ↔
      ∃ bytes, canonicalBytes i.toValue = .ok bytes ∧ sha256 bytes = h := by
  simp only [jsonDigest, Except.bind_eq_ok, Except.ok.injEq]

/-- Where `sha256` does not collide on what the two runs hash, events with one digest are one
    event. -/
theorem jsonDigest_committing {sha256 : ByteArray → EventHash}
    {as bs : List (EventEnvelope Json.Value)}
    (hfree : Set.InjOn sha256 (hashedBytes as ∪ hashedBytes bs))
    (has : ∀ a ∈ as, jsonDigest sha256 a.hashInput = .ok a.hash)
    (hbs : ∀ b ∈ bs, jsonDigest sha256 b.hashInput = .ok b.hash) :
    HashChain.Committing EventEnvelope.hash as bs := by
  intro a ha b hb hhash
  obtain ⟨bytesA, hbytesA, hshaA⟩ := jsonDigest_eq_ok.mp (has a ha)
  obtain ⟨bytesB, hbytesB, hshaB⟩ := jsonDigest_eq_ok.mp (hbs b hb)
  have hbytes : bytesA = bytesB := hfree (.inl ⟨a, ha, hbytesA⟩) (.inr ⟨b, hb, hbytesB⟩)
    (by rw [hshaA, hshaB, hhash])
  subst hbytes
  exact EventEnvelope.ext_hashInput
    (HashInput.toValue_inj (canonicalBytes_inj hbytesA hbytesB)) hhash

/-- **Tamper evidence**: what a chain seals verifies to its tip, and no other run of events does,
    as long as `sha256` does not collide on what the two runs hash. -/
theorem eventChain_tamper_evident (sha256 : ByteArray → EventHash) :
    (∀ {start chain : EventChain} {es : List (EventEnvelope Json.Value)},
      AppendRun (jsonDigest sha256) start es chain →
        verifyChain (jsonDigest sha256) es start.tip = .ok chain.tip) ∧
    (∀ {start tip : ChainTip} {as bs : List (EventEnvelope Json.Value)},
      Set.InjOn sha256 (hashedBytes as ∪ hashedBytes bs) →
      verifyChain (jsonDigest sha256) as start = .ok tip →
      verifyChain (jsonDigest sha256) bs start = .ok tip → as = bs) := by
  refine ⟨appendRun_verifies, fun {start tip as bs} hfree has hbs => ?_⟩
  obtain ⟨⟨_, hchainA⟩, _⟩ := verifyChain_eq_ok.mp has
  obtain ⟨⟨_, hchainB⟩, _⟩ := verifyChain_eq_ok.mp hbs
  exact verifyChain_unique (jsonDigest_committing hfree
    (fun a ha => (chainFrom_mem hchainA ha).2.2) (fun b hb => (chainFrom_mem hchainB hb).2.2))
    has hbs

/-! ### Two sealed sales -/

/-- The first event of device 4: sale 7 completed at 100.00. -/
def saleCompletedInput : HashInput Json.Value where
  eventId := 1
  tenantId := 2
  outletId := 3
  deviceId := 4
  deviceSeq := 1
  occurredAt := ⟨I64.lit 1753000000000⟩
  kind := "sale.completed"
  payload := .object [("sale_id", .integer 7), ("total_minor", .integer 10000)]
  prevHash := EventHash.genesis

def saleCompleted : EventEnvelope Json.Value :=
  { saleCompletedInput with
    hash := ⟨0x20d1ddf485dd38252d113501d2b2f9ab263fc648b5cbd2d6e97da1ed014cffe1⟩ }

/-- The event after it, a minute later: sale 8 completed at 25.00. -/
def nextCompletedInput : HashInput Json.Value where
  eventId := 5
  tenantId := 2
  outletId := 3
  deviceId := 4
  deviceSeq := 2
  occurredAt := ⟨I64.lit 1753000060000⟩
  kind := "sale.completed"
  payload := .object [("sale_id", .integer 8), ("total_minor", .integer 2500)]
  prevHash := saleCompleted.hash

def nextCompleted : EventEnvelope Json.Value :=
  { nextCompletedInput with
    hash := ⟨0x3d232dc81e485818596e62f88223e617e9088270af1fbaea1d96482c0107ad7d⟩ }

/-- What is hashed of an event without floats. -/
def writtenBytes (i : HashInput Json.Value) : ByteArray := (String.ofList i.toValue.write).toUTF8

/-- SHA-256 on the canonical bytes of those events. -/
def saleCompletedSha (bytes : ByteArray) : EventHash :=
  if bytes = writtenBytes saleCompletedInput then saleCompleted.hash
  else if bytes = writtenBytes nextCompletedInput then nextCompleted.hash
  else EventHash.genesis

theorem canonicalBytes_written {i : HashInput Json.Value} (h : i.payload.firstFloat = none) :
    canonicalBytes i.toValue = .ok (writtenBytes i) := by
  have hfloat : i.toValue.firstFloat = none := by
    rw [HashInput.toValue_eq]
    simp [Json.Value.firstFloat, Json.Value.firstFloatEntries, Uuid.toValue, h]
  have hreject : rejectFloats i.toValue = .ok () := rejectFloats_eq_ok.mpr hfloat
  rw [canonicalBytes, hreject]
  rfl

theorem saleCompleted_canonical :
    canonicalBytes saleCompletedInput.toValue = .ok (writtenBytes saleCompletedInput) :=
  canonicalBytes_written rfl

theorem nextCompleted_canonical :
    canonicalBytes nextCompletedInput.toValue = .ok (writtenBytes nextCompletedInput) :=
  canonicalBytes_written rfl

theorem writtenBytes_ne : writtenBytes nextCompletedInput ≠ writtenBytes saleCompletedInput := by
  intro hbytes
  have hnext := nextCompleted_canonical
  rw [hbytes] at hnext
  have hinputs := HashInput.toValue_inj (canonicalBytes_inj hnext saleCompleted_canonical)
  exact absurd (congrArg HashInput.deviceSeq hinputs) (by decide)

theorem saleCompletedSha_next :
    saleCompletedSha (writtenBytes nextCompletedInput) = nextCompleted.hash :=
  (if_neg writtenBytes_ne).trans (if_pos rfl)

theorem saleCompleted_appendRun :
    AppendRun (jsonDigest saleCompletedSha) (EventChain.new 4) [saleCompleted, nextCompleted]
      ⟨4, ⟨2, nextCompleted.hash⟩⟩ := by
  have hfirst := @append_of_digest Json.Value (jsonDigest saleCompletedSha) (EventChain.new 4)
    ⟨1, 2, 3, 4, ⟨I64.lit 1753000000000⟩⟩ ⟨"sale.completed", .ok saleCompletedInput.payload⟩
    saleCompletedInput.payload 1 saleCompleted.hash rfl (by decide) rfl
    (jsonDigest_eq_ok.mpr ⟨_, saleCompleted_canonical, if_pos rfl⟩)
  have hnext := @append_of_digest Json.Value (jsonDigest saleCompletedSha)
    ⟨4, ⟨1, saleCompleted.hash⟩⟩ ⟨5, 2, 3, 4, ⟨I64.lit 1753000060000⟩⟩
    ⟨"sale.completed", .ok nextCompletedInput.payload⟩ nextCompletedInput.payload 2
    nextCompleted.hash rfl (by decide) rfl
    (jsonDigest_eq_ok.mpr ⟨_, nextCompleted_canonical, saleCompletedSha_next⟩)
  exact .append _ _ (.append _ _ .nil hfirst) hnext

/-- The bytes of the two events do not collide. -/
theorem saleCompletedSha_injOn {es : List (EventEnvelope Json.Value)}
    (hes : ∀ e ∈ es, e = saleCompleted ∨ e = nextCompleted) :
    Set.InjOn saleCompletedSha (hashedBytes es) := by
  have hbytes : ∀ bytes ∈ hashedBytes es,
      (bytes = writtenBytes saleCompletedInput ∧ saleCompletedSha bytes = saleCompleted.hash) ∨
        bytes = writtenBytes nextCompletedInput ∧ saleCompletedSha bytes = nextCompleted.hash := by
    rintro bytes ⟨e, he, hbytes⟩
    rcases hes e he with rfl | rfl
    · rw [show saleCompleted.hashInput = saleCompletedInput from rfl,
        saleCompleted_canonical] at hbytes
      obtain rfl := Except.ok.inj hbytes
      exact .inl ⟨rfl, if_pos rfl⟩
    · rw [show nextCompleted.hashInput = nextCompletedInput from rfl,
        nextCompleted_canonical] at hbytes
      obtain rfl := Except.ok.inj hbytes
      exact .inr ⟨rfl, saleCompletedSha_next⟩
  have hne : saleCompleted.hash ≠ nextCompleted.hash := by decide
  intro a ha b hb hsame
  rcases hbytes a ha with ⟨ha, hsha⟩ | ⟨ha, hsha⟩ <;>
    rcases hbytes b hb with ⟨hb, hsha'⟩ | ⟨hb, hsha'⟩ <;> rw [hsha, hsha'] at hsame
  · exact ha.trans hb.symm
  · exact absurd hsame hne
  · exact absurd hsame.symm hne
  · exact ha.trans hb.symm

/-- Two sales verify to the tip after them, and without the first of them do not. -/
theorem eventChain_tamper_evident_saleCompleted :
    verifyChain (jsonDigest saleCompletedSha) [saleCompleted, nextCompleted] ChainTip.genesis =
        .ok ⟨2, nextCompleted.hash⟩ ∧
      verifyChain (jsonDigest saleCompletedSha) [nextCompleted] ChainTip.genesis ≠
        .ok ⟨2, nextCompleted.hash⟩ := by
  have hverify := (eventChain_tamper_evident saleCompletedSha).1 saleCompleted_appendRun
  refine ⟨hverify, fun htampered => ?_⟩
  have hfree : Set.InjOn saleCompletedSha
      (hashedBytes [saleCompleted, nextCompleted] ∪ hashedBytes [nextCompleted]) := by
    refine (@saleCompletedSha_injOn [saleCompleted, nextCompleted] fun e he =>
      List.mem_pair.mp he).mono ?_
    rintro bytes (hbytes | ⟨e, he, hbytes⟩)
    · exact hbytes
    · exact ⟨e, .tail _ he, hbytes⟩
  exact absurd ((eventChain_tamper_evident saleCompletedSha).2 hfree hverify htampered)
    (by simp)

end Sahl
