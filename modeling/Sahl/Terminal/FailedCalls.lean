import Mathlib.Tactic
import Sahl.Terminal.OwnLog

/-! # What a failed call leaves

    A call that is refused before anything is sealed leaves the till as it was. A call that seals
    and is then refused by the store does not: the chain in memory has moved on, and nothing the
    till seals afterwards follows what it has stored (`reusedId_loses_step`). -/

namespace Sahl

namespace Terminal

/-! ## Section 1: Calls that fail cleanly -/

/-- The next event cannot be sealed: it has no digest, or the numbers have run out. -/
def Unsealable (digests : Digests) (occurredAt : Timestamp) (t : Terminal)
    (recorded : Uuid × DomainEvent) : Prop :=
  ∃ error, t.chain.append digests.event (header t.identity recorded.1 occurredAt)
    recorded.2.payload = .error error

/-- Nothing is sealed: validation refuses the call, or its first event cannot be sealed. -/
def SealsNothing (digests : Digests) (occurredAt : Timestamp) (t : Terminal) (call : Call) :
    Prop :=
  ∀ p, t.prepare digests occurredAt call = .ok p →
    ∀ recorded, p.events.head? = some recorded → Unsealable digests occurredAt t recorded

/-- Everything the call seals can be stored: all its events have digests, the database takes the
    write, the ids are new, and the numbers fit the column. -/
def Storable (digests : Digests) (writable : Bool) (occurredAt : Timestamp) (t : Terminal)
    (call : Call) : Prop :=
  ∀ p, t.prepare digests occurredAt call = .ok p →
    writable = true ∧
    (∃ chain es, sealAll digests.event t.identity occurredAt p.events t.chain = (chain, .ok es)) ∧
    (p.events.map (·.1)).Nodup ∧
    (∀ a ∈ t.store.events, a.eventId ∉ p.events.map (·.1)) ∧
    t.store.tip.deviceSeq + p.events.length < 2 ^ 63

/-- A call that seals nothing, or nothing that is lost. -/
def LosesNoSeal (digests : Digests) (writable : Bool) (occurredAt : Timestamp) (t : Terminal)
    (call : Call) : Prop :=
  SealsNothing digests occurredAt t call ∨ Storable digests writable occurredAt t call

/-- The runs in which no call loses a seal. -/
def NoSealLost (digests : Digests) (t : Terminal) : Action → Prop
  | .call writable occurredAt call => LosesNoSeal digests writable occurredAt t call
  | _ => True

/-- The till `t'` is what a failed call should leave of `t`. -/
structure Untouched (digests : Digests) (t t' : Terminal) : Prop where
  chain : t'.chain.tip = t.chain.tip
  fiscal : t'.fiscal = t.fiscal
  projections : t'.toProjections = t.toProjections
  outlet : t'.outlet = t.outlet
  inStep : t'.chain.tip = t'.store.tip
  /-- What would have succeeded without the failed call still succeeds, at once or later on. -/
  later : ∀ between writable occurredAt call,
    ((t.performAll digests between).perform digests writable occurredAt call).2.isOkay →
      ((t'.performAll digests between).perform digests writable occurredAt call).2.isOkay

/-! ## Section 2: One call -/

/-- A call that seals nothing leaves the whole till as it was. -/
theorem perform_of_sealsNothing {digests : Digests} {occurredAt : Timestamp} {t : Terminal}
    {call : Call} (writable : Bool) (h : SealsNothing digests occurredAt t call) :
    (t.perform digests writable occurredAt call).1 = t := by
  rw [perform_eq_commit]
  cases hprepare : t.prepare digests occurredAt call with
  | error error => rfl
  | ok p =>
    have hnonempty := (prepare_adopts hprepare).nonempty
    match hevents : p.events with
    | [] => exact absurd hevents hnonempty
    | recorded :: rest =>
      obtain ⟨error, happend⟩ := h p hprepare recorded (by rw [hevents]; rfl)
      have hseal : sealAll digests.event t.identity occurredAt p.events t.chain =
          (t.chain, .error error) := by
        simp only [hevents, sealAll, happend]
      unfold commit
      simp only [hseal]

/-- A call whose events can be stored fails only where it seals nothing. -/
theorem storable_cases {digests : Digests} {writable : Bool} {occurredAt : Timestamp}
    {t : Terminal} {call : Call} (hinv : Inv digests t) (htip : t.chain.tip = t.store.tip)
    (h : Storable digests writable occurredAt t call) :
    SealsNothing digests occurredAt t call ∨
      ∃ p chain es store, t.prepare digests occurredAt call = .ok p ∧
        sealAll digests.event t.identity occurredAt p.events t.chain = (chain, .ok es) ∧
        t.store.appendAll es = .ok store ∧
        t.perform digests writable occurredAt call = ({ p.adopted with store, chain }, .ok es) := by
  cases hprepare : t.prepare digests occurredAt call with
  | error error => exact .inl fun p hp => by rw [hprepare] at hp; cases hp
  | ok p =>
    obtain ⟨hwritable, ⟨chain, es, hseal⟩, hnodup, hnew, hfits⟩ := h p hprepare
    obtain ⟨-, hchain, -, hcarries⟩ := sealAll_eq_ok hseal
    have hids := Carries.ids hcarries
    have hlength : es.length = p.events.length := hcarries.length_eq.symm
    -- what is sealed follows the tip of the store, so the store takes it
    have hfollows : ChainFrom digests.event t.store.deviceId
        (t.store.tipWithin t.store.deviceId) es := by
      rw [hinv.chainDevice, ← hinv.storeDevice, htip] at hchain
      exact hchain
    obtain ⟨store, hstore⟩ : ∃ store, t.store.appendAll es = .ok store := by
      refine EventStore.appendAll_isOkay hfollows ?_ (hids ▸ hnodup) ?_
      · rw [hlength]
        exact hfits
      · intro a ha e he hsame
        refine hnew a ha ?_
        rw [← hids, hsame]
        exact List.mem_map_of_mem he
    refine .inr ⟨p, chain, es, store, rfl, hseal, hstore, ?_⟩
    rw [perform_eq_commit, hprepare]
    unfold commit write
    simp only [hseal, hwritable, if_true, hstore]

/-- A failed call that moved the chain is not to be undone. -/
theorem sealsNothing_of_untouched {digests : Digests} {writable : Bool} {occurredAt : Timestamp}
    {t : Terminal} {call : Call} {error : TerminalError}
    (hfails : (t.perform digests writable occurredAt call).2 = .error error)
    (h : Untouched digests t (t.perform digests writable occurredAt call).1) :
    SealsNothing digests occurredAt t call := by
  intro p hprepare recorded hhead
  by_contra hsealable
  have hsealed : ∃ envelope chain, t.chain.append digests.event
      (header t.identity recorded.1 occurredAt) recorded.2.payload = .ok (envelope, chain) := by
    cases happend : t.chain.append digests.event (header t.identity recorded.1 occurredAt)
        recorded.2.payload with
    | error error => exact absurd ⟨error, happend⟩ hsealable
    | ok sealed => exact ⟨sealed.1, sealed.2, rfl⟩
  obtain ⟨envelope, mid, happend⟩ := hsealed
  -- the first event sealed moves the chain on, and sealing more never moves it back
  have hmoved : t.chain.tip.deviceSeq < (sealAll digests.event t.identity occurredAt p.events
      t.chain).1.tip.deviceSeq := by
    match hevents : p.events, hhead with
    | _ :: rest, rfl =>
      obtain ⟨hfollows, rfl, -⟩ := append_eq_ok happend
      have hfirst : t.chain.tip.deviceSeq < envelope.tip.deviceSeq := by
        rw [EventEnvelope.tip, hfollows.seq]
        exact Nat.lt_succ_self _
      simp only [sealAll, happend]
      rcases (sealAll_tip digests.event t.identity occurredAt rest
        { t.chain with tip := envelope.tip }).2 with hkept | hfurther
      · rw [hkept]
        exact hfirst
      · exact hfirst.trans hfurther
  have hchain := h.chain
  rw [perform_eq_commit] at hfails hchain
  rcases commit_cases digests writable occurredAt t (t.prepare digests occurredAt call) with
    ⟨_, hrefused, -⟩ | ⟨q, chain, _, hq, hseal, hcommit⟩ | ⟨_, _, _, _, -, -, -, -, hcommit⟩
  · rw [hprepare] at hrefused
    cases hrefused
  · rw [hprepare] at hq
    cases hq
    rw [hcommit, hseal] at hchain
    exact absurd (congrArg ChainTip.deviceSeq hchain) hmoved.ne'
  · rw [hcommit] at hfails
    cases hfails

/-! ## Section 3: Every run -/

theorem inStep_step {digests : Digests} {t t' : Terminal} {a : Action} (hinv : Inv digests t)
    (htip : t.chain.tip = t.store.tip)
    (hstep : Transition.Guarded (step digests) (NoSealLost digests) t a t') :
    t'.chain.tip = t'.store.tip := by
  obtain ⟨hguard, hstep⟩ := hstep
  cases a with
  | call writable occurredAt call =>
    cases hstep
    -- where nothing is sealed nothing moves; what is sealed is stored, by the guard
    have hcases : SealsNothing digests occurredAt t call ∨ _ :=
      hguard.elim .inl (storable_cases hinv htip)
    rcases hcases with hnothing | ⟨p, chain, es, store, hprepare, hseal, hstore, hperform⟩
    · rw [perform_of_sealsNothing writable hnothing]
      exact htip
    · rw [hperform]
      exact (inv_stored hinv (prepare_adopts hprepare) hseal hstore).2.1
  | restart =>
    obtain ⟨loaded, shift, -, -, rfl⟩ := hinv.load_eq_ok.mp hstep
    rfl
  | sync transport nowMillis =>
    obtain ⟨hkept, hinv'⟩ := inv_sync hinv hstep
    obtain ⟨-, rfl⟩ := hstep
    rw [hinv'.tip_eq, hkept, ← hinv.tip_eq, (sync_keeps digests t transport nowMillis).2.1]
    exact htip

theorem inStep_reachable {digests : Digests} {t : Terminal}
    (h : Transition.Reachable Fresh
      (Transition.Guarded (step digests) (NoSealLost digests)) t) :
    Inv digests t ∧ t.chain.tip = t.store.tip := by
  refine h.invariant (I := fun t => Inv digests t ∧ t.chain.tip = t.store.tip) ?_ ?_
  · intro t hfresh
    refine ⟨inv_fresh hfresh, ?_⟩
    obtain ⟨identity, rfl⟩ := hfresh
    rfl
  · intro t a t' ht hstep
    exact ⟨inv_step ht.1 hstep.2, inStep_step ht.1 ht.2 hstep⟩

/-- **Failed calls**: in every run in which no call loses a seal, the chain in memory ends where
    the stored log ends; and there a call that fails, for whatever reason, leaves the till as it
    was exactly when it loses no seal either. -/
theorem failed_call_untouched {digests : Digests} {t : Terminal}
    (hreach : Transition.Reachable Fresh
      (Transition.Guarded (step digests) (NoSealLost digests)) t) :
    t.chain.tip = t.store.tip ∧
      ∀ writable occurredAt call error,
        (t.perform digests writable occurredAt call).2 = .error error →
          (Untouched digests t (t.perform digests writable occurredAt call).1 ↔
            LosesNoSeal digests writable occurredAt t call) := by
  obtain ⟨hinv, htip⟩ := inStep_reachable hreach
  refine ⟨htip, fun writable occurredAt call error hfails => ?_⟩
  constructor
  · intro h
    exact .inl (sealsNothing_of_untouched hfails h)
  · intro h
    have hcases : SealsNothing digests occurredAt t call ∨ _ :=
      h.elim .inl (storable_cases hinv htip)
    rcases hcases with hnothing | ⟨p, chain, es, store, -, -, -, hperform⟩
    · rw [perform_of_sealsNothing writable hnothing]
      exact ⟨rfl, rfl, rfl, rfl, htip, fun _ _ _ _ hok => hok⟩
    · rw [hperform] at hfails
      cases hfails

/-! ### An event id used twice -/

def openSale : SaleEvent := .opened 20 7 .bdt .taxInclusive .halfUp

def addRice : SaleEvent :=
  .lineAdded 20 11 12 "Rice 5kg" ⟨I64.lit 48000, .bdt⟩ Quantity.one (.standard ⟨I32.lit 1500⟩) []

/-- The till once sale 20 is opened, under event id 100. -/
def openedTill : Terminal := (till3.perform plainDigests true (instant 0) (.record openSale 100)).1

theorem openedTill_reachable : Transition.Reachable Fresh
    (Transition.Guarded (step plainDigests) (NoSealLost plainDigests)) openedTill := by
  refine .step (.call true (instant 0) (.record openSale 100)) (.init ⟨_, rfl⟩) ⟨.inr ?_, rfl⟩
  intro p hprepare
  cases hprepare
  exact ⟨rfl, ⟨_, _, rfl⟩, by decide, by simp [fresh], by decide⟩

/-- Opening the sale again is refused, and the till is as it was. -/
theorem failed_call_untouched_openedAgain :
    openedTill.chain.tip = openedTill.store.tip ∧ Untouched plainDigests openedTill
      (openedTill.perform plainDigests true (instant 1) (.record openSale 101)).1 := by
  obtain ⟨htip, hiff⟩ := failed_call_untouched openedTill_reachable
  refine ⟨htip, (hiff true (instant 1) (.record openSale 101) (.sale .alreadyOpened) rfl).mpr ?_⟩
  refine .inl fun p hprepare => ?_
  cases hprepare

/-- A line recorded under the id of the opening: the store refuses it, the chain in memory has
    moved on, and the same line under a new id is refused from then on. -/
theorem reusedId_loses_step :
    let failed := (openedTill.perform plainDigests true (instant 1) (.record addRice 100)).1
    Transition.Reachable Fresh (step plainDigests) openedTill ∧
      (openedTill.perform plainDigests true (instant 1) (.record addRice 100)).2 =
        .error (.store (.duplicate 100)) ∧
      failed.chain.tip ≠ openedTill.chain.tip ∧ failed.chain.tip ≠ failed.store.tip ∧
      (openedTill.perform plainDigests true (instant 2) (.record addRice 101)).2.isOkay ∧
      (failed.perform plainDigests true (instant 2) (.record addRice 101)).2 =
        .error (.store (.sequenceBreak 1 3)) ∧
      ¬ Untouched plainDigests openedTill failed := by
  have hmoved : (openedTill.perform plainDigests true (instant 1) (.record addRice 100)).1.chain.tip
      ≠ openedTill.chain.tip := by decide
  exact ⟨openedTill_reachable.of_guarded, rfl, hmoved, by decide, by decide, rfl,
    fun h => hmoved h.chain⟩

end Terminal

end Sahl
