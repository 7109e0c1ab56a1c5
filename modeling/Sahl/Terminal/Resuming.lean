import Mathlib.Tactic
import Sahl.Terminal.Booting

/-! # The shift a restart resumes

    A load takes up the shift of the last shift event it reads, whichever device recorded it. It is
    the shift this device left open exactly where the two shifts are one, or neither is open
    (`resumes_iff`): a shift opened later at another counter is taken for this one's
    (`sibling_shift_resumed`). -/

namespace Sahl

/-! ## Section 1: The shift events of a till -/

/-- The shift event among the events a till records. -/
def DomainEvent.shift? : DomainEvent → Option ShiftEvent
  | .shift event => some event
  | _ => none

theorem EventEnvelope.shiftEvent_eq (e : EventEnvelope Payload) :
    e.shiftEvent = e.read.bind DomainEvent.shift? := by
  unfold shiftEvent
  cases e.read with
  | none => rfl
  | some event => cases event <;> rfl

namespace Terminal

/-- What this device did to its shifts, in the order it did it. -/
def ownShiftEvents (t : Terminal) : List ShiftEvent := t.own.filterMap (·.shiftEvent)

/-- What every device did to its shifts, in the order a load reads it. -/
def allShiftEvents (t : Terminal) : List ShiftEvent :=
  t.store.loadProjectionInput.filterMap (·.shiftEvent)

/-- The shift of a till is the one its device left open, if it left one open. -/
def ResumesOwn (t t' : Terminal) : Prop :=
  ∀ shift, t'.shift = some shift ↔ Shift.LeftOpen t.ownShiftEvents shift

/-- The shift read last is this device's: both were closed, or the events of it, from every
    device, come to what this device did since its last opening. -/
def LastShiftOwn (t : Terminal) : Prop :=
  (Shift.EndsClosed t.allShiftEvents ∧ Shift.EndsClosed t.ownShiftEvents) ∨
    ∃ last ∈ t.allShiftEvents.getLast?, last.isClosing = false ∧
      Shift.replay (t.allShiftEvents.filter (·.shiftId = last.shiftId)) =
        Shift.replay (Shift.sinceOpening t.ownShiftEvents)

instance (t : Terminal) : Decidable t.LastShiftOwn :=
  inferInstanceAs (Decidable (_ ∨ ∃ last ∈ t.allShiftEvents.getLast?, _))

/-- Nobody else wrote to the shift read last; this device opened each of its shifts under an id of
    its own, and its events are read in the order it recorded them. -/
structure LastShiftKept (t : Terminal) : Prop where
  alone : ∀ last ∈ t.allShiftEvents.getLast?, ∀ e ∈ t.store.events, ∀ event ∈ e.shiftEvent,
    event.shiftId = last.shiftId → e.deviceId = t.identity.deviceId
  fresh : ((t.ownShiftEvents.filter (·.isOpening)).map (·.shiftId)).Nodup
  inOrder : t.own.Pairwise fun a b => replayKey a ≤ replayKey b

/-- A restart is made where the shift read last is this device's. -/
def RestartsOnOwn (t : Terminal) : Action → Prop
  | .restart => t.LastShiftOwn
  | _ => True

/-- A running shift is what the device did since its last opening; without one, the last thing it
    did was to close one. It did so one shift at a time. -/
structure Tracks (shift : Option Shift) (events : List ShiftEvent) : Prop where
  single : Shift.OneAtATime events
  running : ∀ s, shift.filter (·.status = .open) = some s → Shift.LeftOpen events s
  idle : shift.filter (·.status = .open) = none → Shift.EndsClosed events

/-! ## Section 2: One action -/

theorem Tracks.leftOpen {shift : Option Shift} {events : List ShiftEvent} (h : Tracks shift events)
    (hopen : ¬ Shift.EndsClosed events) : ∃ s, Shift.LeftOpen events s := by
  cases hshift : shift.filter (·.status = .open) with
  | none => exact absurd (h.idle hshift) hopen
  | some s => exact ⟨s, h.running s hshift⟩

theorem tracks_replayed {events : List ShiftEvent} {shift : Shift}
    (hsingle : Shift.OneAtATime events)
    (h : Shift.replay (Shift.sinceOpening events) = .ok shift) : Tracks (some shift) events := by
  have hopen := Shift.replay_open_iff h
  refine ⟨hsingle, fun s hs => ?_, fun hs => ?_⟩
  · obtain ⟨hsame, hstatus⟩ := Option.filter_eq_some_iff.mp hs
    cases hsame
    exact ⟨h, by simpa using hstatus⟩
  · rw [Shift.EndsClosed, ← Shift.getLast?_sinceOpening, ← Shift.EndsClosed]
    by_contra hends
    rw [Option.filter_some_pos (by simpa using hopen.mpr hends)] at hs
    cases hs

/-- What the till does to its shift is what it records of it. -/
theorem tracks_shiftAfter {shift : Option Shift} {events : List ShiftEvent} {event : ShiftEvent}
    {shift' : Shift} (h : Tracks shift events)
    (hafter : Projections.shiftAfter shift event = .ok shift') :
    Tracks (some shift') (events ++ [event]) := by
  unfold Projections.shiftAfter at hafter
  -- with no shift open the event is an opening; else it is not, and applies to the open one
  cases hrunning : shift.filter (·.status = .open) with
  | none =>
    rw [hrunning] at hafter
    cases event with
    | opened shiftId openedBy currency openingFloat at' =>
      have hopening : (ShiftEvent.opened shiftId openedBy currency openingFloat at').isOpening :=
        rfl
      refine tracks_replayed (.opening h.single hopening) ?_
      rw [Shift.sinceOpening_concat, if_pos hopening]
      exact Except.mapError_eq_ok.mp hafter
    | cashMoved => cases hafter
    | counted => cases hafter
    | closed => cases hafter
  | some running =>
    rw [hrunning] at hafter
    have happly : running.apply event = .ok shift' := by
      cases event with
      | opened => cases hafter
      | cashMoved => exact Except.mapError_eq_ok.mp hafter
      | counted => exact Except.mapError_eq_ok.mp hafter
      | closed => exact Except.mapError_eq_ok.mp hafter
    obtain ⟨hid, -, hopening, -⟩ := Shift.apply_eq_ok happly
    obtain ⟨hreplay, hopen⟩ := h.running running hrunning
    refine tracks_replayed ?_ ?_
    · -- the event before is of the running shift as well
      obtain ⟨last, hlast⟩ := Shift.LeftOpen.getLast? ⟨hreplay, hopen⟩
      refine .next h.single hlast (by simpa using hopening) (hid.trans ?_)
      rw [Option.mem_def, ← Shift.getLast?_sinceOpening] at hlast
      exact (Shift.replay_ids hreplay last (List.mem_of_getLast? hlast)).symm
    · rw [Shift.sinceOpening_concat, if_neg hopening]
      exact Shift.replay_concat hreplay happly

theorem apply_shift {p p' : Projections} {event : DomainEvent} (h : p.apply event = .ok p') :
    (∃ recorded shift, event.shift? = some recorded ∧
      Projections.shiftAfter p.shift recorded = .ok shift ∧ p'.shift = some shift) ∨
      (event.shift? = none ∧ p'.shift = p.shift) := by
  cases event with
  | shift event =>
    obtain ⟨shift, hshift, h⟩ := Except.bind_eq_ok.mp h
    cases h
    exact .inl ⟨event, shift, rfl, hshift, rfl⟩
  | sale | inventory | staff | catalogue | floor | purchase =>
    obtain ⟨_, -, h⟩ := Except.bind_eq_ok.mp h
    cases h
    exact .inr ⟨rfl, rfl⟩
  | outlet | fiscal =>
    cases h
    exact .inr ⟨rfl, rfl⟩

theorem tracks_events {events : List DomainEvent} {p p' : Projections} {log : List ShiftEvent}
    (h : Tracks p.shift log) (hfold : events.foldlM Projections.apply p = .ok p') :
    Tracks p'.shift (log ++ events.filterMap DomainEvent.shift?) := by
  refine foldlM_invariant (fun seen q => Tracks q.shift (log ++ seen.filterMap DomainEvent.shift?))
    ?_ (by simpa using h) hfold
  intro seen q event q' hq happly
  rw [List.filterMap_append, ← List.append_assoc]
  rcases apply_shift happly with ⟨recorded, shift, hrecorded, hafter, hshift⟩ | ⟨hnone, hshift⟩
  · rw [hshift, List.filterMap_cons, hrecorded]
    exact tracks_shiftAfter hq hafter
  · rw [hshift, List.filterMap_cons, hnone]
    simpa using hq

theorem tracks_call {digests : Digests} {t : Terminal} (hinv : Inv digests t)
    (h : Tracks t.shift t.ownShiftEvents) (writable : Bool) (occurredAt : Timestamp) (call : Call) :
    Tracks (t.perform digests writable occurredAt call).1.shift
      (t.perform digests writable occurredAt call).1.ownShiftEvents := by
  rw [perform_eq_commit]
  rcases commit_cases digests writable occurredAt t (t.prepare digests occurredAt call) with
    ⟨error, -, hcommit⟩ | ⟨p, chain, error, -, -, hcommit⟩ |
    ⟨p, chain, es, store, hprepare, -, hseal, hstore, hcommit⟩
  · rw [hcommit]
    exact h
  · rw [hcommit]
    exact h
  · have hadopts := prepare_adopts hprepare
    obtain ⟨-, hown⟩ := own_stored hinv hadopts hseal hstore
    have hrecorded : es.filterMap (·.shiftEvent) =
        (p.events.map (·.2)).filterMap DomainEvent.shift? := by
      rw [← Carries.filterMap_read (sealAll_eq_ok hseal).2.2.2]
      exact List.filterMap_congr fun e _ => e.shiftEvent_eq
    rw [hcommit]
    show Tracks p.adopted.shift (List.filterMap _ (Terminal.own _))
    rw [hown, List.filterMap_append, hrecorded]
    exact tracks_events h hadopts.projections

/-! ## Section 3: One restart -/

/-- A load resumes no shift, the last event of one being its closing; or the shift of the last
    event. -/
theorem latestOpenShift_eq_ok {events : List ShiftEvent} {shift : Option Shift}
    (h : latestOpenShift events = .ok shift) :
    (Shift.EndsClosed events ∧ shift = none) ∨
      ∃ last ∈ events.getLast?, ∃ resumed, last.isClosing = false ∧ shift = some resumed ∧
        resumed.status = .open ∧
        Shift.replay (events.filter (·.shiftId = last.shiftId)) = .ok resumed := by
  unfold latestOpenShift at h
  cases hlast : events.getLast? with
  | none =>
    rw [hlast] at h
    cases h
    exact .inl ⟨by simp [Shift.EndsClosed, hlast], rfl⟩
  | some last =>
    rw [hlast] at h
    obtain ⟨replayed, hreplay, h⟩ := Except.bind_eq_ok.mp h
    -- the events of the last event's shift end with that event
    have hends : Shift.EndsClosed (events.filter (·.shiftId = last.shiftId)) ↔ last.isClosing := by
      obtain ⟨before, rfl⟩ := List.getLast?_eq_some_iff.mp hlast
      rw [List.filter_append, List.filter_cons_of_pos (by simp), List.filter_nil,
        Shift.endsClosed_concat]
    have hopen := Shift.replay_open_iff hreplay
    rw [hends] at hopen
    by_cases hclosing : last.isClosing = true
    · rw [if_neg (fun hstatus => hopen.mp hstatus hclosing)] at h
      cases h
      refine .inl ⟨?_, rfl⟩
      intro other hother
      rw [hlast] at hother
      cases hother
      exact hclosing
    · rw [if_pos (hopen.mpr hclosing)] at h
      cases h
      exact .inr ⟨last, rfl, replayed, Bool.not_eq_true _ ▸ hclosing, rfl, hopen.mpr hclosing,
        hreplay⟩

/-- A till whose shift is what its device did resumes it exactly where the shift read last is its
    own. -/
theorem resumesOwn_iff {digests : Digests} {t t' : Terminal} (hinv : Inv digests t)
    (h : Tracks t.shift t.ownShiftEvents) (hload : load digests t.store t.identity = .ok t') :
    t.ResumesOwn t' ↔ t.LastShiftOwn := by
  obtain ⟨loaded, shift, hloaded, hlatest, rfl⟩ := hinv.load_eq_ok.mp hload
  rw [Loading.foldlM_shiftEvents hloaded] at hlatest
  show (∀ s, shift = some s ↔ _) ↔ _
  rcases latestOpenShift_eq_ok hlatest with
    ⟨hends, rfl⟩ | ⟨last, hlast, resumed, hclosing, rfl, hopen, hreplay⟩
  · constructor
    · intro hresumes
      refine .inl ⟨hends, ?_⟩
      by_contra hown
      obtain ⟨s, hs⟩ := h.leftOpen hown
      cases (hresumes s).mpr hs
    · rintro (⟨-, hown⟩ | ⟨last, hlast, hclosing, -⟩) s
      · constructor
        · exact fun hnone => absurd hnone (Option.some_ne_none s).symm
        · exact fun hs => absurd hown hs.not_endsClosed
      · have hlast' := hends last hlast
        rw [hclosing] at hlast'
        cases hlast'
  · constructor
    · -- a shift is resumed: it is the one its own events replay to
      intro hresumes
      refine .inr ⟨last, hlast, hclosing, ?_⟩
      have hown := (hresumes resumed).mp rfl
      exact hreplay.trans hown.1.symm
    · rintro (⟨hends, -⟩ | ⟨last', hlast', -, hsame⟩) s
      · have hlast' := hends last hlast
        rw [hclosing] at hlast'
        cases hlast'
      · cases Option.some.inj (hlast.symm.trans hlast')
        have hown : Shift.LeftOpen t.ownShiftEvents resumed :=
          ⟨hsame.symm.trans hreplay, hopen⟩
        -- no shift is resumed: the last one read is closed
        constructor
        · intro hs
          cases hs
          exact hown
        · exact fun hs => congrArg some (hown.unique hs)

/-- A shift that is this device's alone is read as this device recorded it. -/
theorem LastShiftKept.lastShiftOwn {t : Terminal} (hkept : t.LastShiftKept)
    (h : Shift.OneAtATime t.ownShiftEvents) : t.LastShiftOwn := by
  have hread : (t.store.loadProjectionInput.filter
      (·.deviceId = t.identity.deviceId)).filterMap (·.shiftEvent) = t.ownShiftEvents := by
    rw [EventStore.loadProjectionInput, orderBy, filter_insertionSort, ← own,
      hkept.inOrder.insertionSort_eq, ownShiftEvents]
  cases hlast : t.allShiftEvents.getLast? with
  | none =>
    have hnone : t.ownShiftEvents = [] := by
      rw [← hread]
      refine List.eq_nil_of_sublist_nil ?_
      rw [← List.getLast?_eq_none_iff.mp hlast]
      exact List.filter_sublist.filterMap _
    refine .inl ⟨?_, ?_⟩
    · simp [Shift.EndsClosed, hlast]
    · simp [Shift.EndsClosed, hnone]
  | some last =>
    have halone : ∀ e ∈ t.store.loadProjectionInput, ∀ event, e.shiftEvent = some event →
        event.shiftId = last.shiftId → e.deviceId = t.identity.deviceId :=
      fun e he => hkept.alone last hlast e (EventStore.mem_orderBy.mp he)
    -- what is read last is what this device did last, and with it goes its whole shift
    have hown : t.ownShiftEvents.getLast? = some last := by
      rw [← hread]
      exact getLast?_filterMap_filter hlast fun e he hevent => by
        simpa using halone e he last hevent rfl
    have hsame : t.allShiftEvents.filter (·.shiftId = last.shiftId) =
        Shift.sinceOpening t.ownShiftEvents := by
      rw [← h.filter_eq hkept.fresh last hown, ← hread]
      exact filter_filterMap_filter fun e he event hevent hid => by
        simpa using halone e he event hevent (by simpa using hid)
    by_cases hclosing : last.isClosing = true
    · refine .inl ⟨fun other hother => ?_, fun other hother => ?_⟩
      · rw [hlast] at hother
        cases hother
        exact hclosing
      · rw [hown] at hother
        cases hother
        exact hclosing
    · exact .inr ⟨last, hlast, by simpa using hclosing, congrArg Shift.replay hsame⟩

theorem tracks_restart {digests : Digests} {t t' : Terminal} (hinv : Inv digests t)
    (h : Tracks t.shift t.ownShiftEvents) (hguard : t.LastShiftOwn)
    (hload : load digests t.store t.identity = .ok t') : Tracks t'.shift t'.ownShiftEvents := by
  have hresumes := (resumesOwn_iff hinv h hload).mpr hguard
  obtain ⟨loaded, shift, hloaded, hlatest, rfl⟩ := hinv.load_eq_ok.mp hload
  show Tracks shift t.ownShiftEvents
  have hopen : ∀ s, shift.filter (·.status = .open) = some s ↔ shift = some s := by
    intro s
    rw [Option.filter_eq_some_iff]
    refine and_iff_left_of_imp fun hs => ?_
    have hown := (hresumes s).mp hs
    simpa using hown.2
  refine ⟨h.single, fun s hs => (hresumes s).mp ((hopen s).mp hs), fun hnone => ?_⟩
  by_contra hends
  obtain ⟨s, hs⟩ := h.leftOpen hends
  rw [(hopen s).mpr ((hresumes s).mpr hs)] at hnone
  cases hnone

/-! ## Section 4: Every run -/

theorem tracks_reachable {digests : Digests} {t : Terminal}
    (h : Transition.Reachable Fresh (Transition.Guarded (step digests) RestartsOnOwn) t) :
    Inv digests t ∧ Tracks t.shift t.ownShiftEvents := by
  refine h.invariant (I := fun t => Inv digests t ∧ Tracks t.shift t.ownShiftEvents) ?_ ?_
  · intro t hfresh
    refine ⟨inv_fresh hfresh, ?_⟩
    obtain ⟨identity, rfl⟩ := hfresh
    exact ⟨.nil, fun s hs => (by cases hs), fun _ last hlast => (by cases hlast)⟩
  · intro t a t' ht hstep
    refine ⟨inv_step ht.1 hstep.2, ?_⟩
    obtain ⟨hguard, hstep⟩ := hstep
    cases a with
    | call writable occurredAt call =>
      cases hstep
      exact tracks_call ht.1 ht.2 writable occurredAt call
    | restart => exact tracks_restart ht.1 ht.2 hguard hstep
    | sync transport nowMillis =>
      obtain ⟨hown, -⟩ := inv_sync ht.1 hstep
      obtain ⟨-, rfl⟩ := hstep
      rw [ownShiftEvents, hown, sync_shift]
      exact ht.2

/-- **Restarts**: in every run of a till that restarts only where the shift read last is its own,
    whatever its siblings send, the next restart resumes the shift this device left open, if it
    left one open, exactly where the shift read last is again its own. It is where nobody else
    wrote to that shift and the clock of this device kept its order. -/
theorem resumes_iff {digests : Digests} {t t' : Terminal}
    (h : Transition.Reachable Fresh (Transition.Guarded (step digests) RestartsOnOwn) t)
    (hload : load digests t.store t.identity = .ok t') :
    (t.ResumesOwn t' ↔ t.LastShiftOwn) ∧ (t.LastShiftKept → t.ResumesOwn t') := by
  obtain ⟨hinv, htracks⟩ := tracks_reachable h
  have hiff := resumesOwn_iff hinv htracks hload
  exact ⟨hiff, fun hkept => hiff.mpr (hkept.lastShiftOwn htracks.single)⟩

/-! ### Two counters -/

/-- A shift is opened at one instant. -/
def openShift (shiftId eventId : Uuid) (at' : Timestamp) : Bool × Timestamp × Call :=
  (true, at', .recordShift (.opened shiftId 7 .bdt (Money.zero .bdt) at') eventId)

/-- The till of device 3 has opened shift 60, and pulls the opening of shift 61 by device 4. -/
def twoCounters (at' : Timestamp) : Terminal :=
  let other := (fresh ⟨1, 2, 4⟩).performAll plainDigests [openShift 61 161 at']
  ((till3.performAll plainDigests [openShift 60 160 (instant 20)]).sync plainDigests
    (taking other.store.loadAll) 0).1

theorem twoCounters_reachable {at' : Timestamp}
    (hother : ∀ e ∈ ((fresh ⟨1, 2, 4⟩).performAll plainDigests
      [openShift 61 161 at']).store.loadAll, e.deviceId ≠ 3) :
    Transition.Reachable Fresh (Transition.Guarded (step plainDigests) RestartsOnOwn)
      (twoCounters at') := by
  refine .step (.sync _ 0) (performAll_reachable (fun _ _ _ => trivial) (.init ⟨_, rfl⟩))
    ⟨trivial, ?_, rfl⟩
  intro cursor page hpage e he
  cases hpage
  exact hother e he

/-- Opened before this device's, the other shift is left alone. -/
theorem resumes_iff_openedBefore :
    (twoCounters (instant 10)).ResumesOwn (twoCounters (instant 10)).restarted ∧
      (twoCounters (instant 10)).LastShiftOwn ∧
      (twoCounters (instant 10)).restarted.shift.map (·.id) = some 60 := by
  have hrestarts := resumes_iff (@twoCounters_reachable (instant 10) (by decide))
    (load_restarted (by decide))
  have hresumes := hrestarts.2 ⟨by decide, by decide, by decide⟩
  exact ⟨hresumes, hrestarts.1.mp hresumes, by decide⟩

/-- Opened after it, the restart takes it for this device's. -/
theorem sibling_shift_resumed :
    Transition.Reachable Fresh (Transition.Guarded (step plainDigests) RestartsOnOwn)
        (twoCounters (instant 30)) ∧
      load plainDigests (twoCounters (instant 30)).store (twoCounters (instant 30)).identity =
        .ok (twoCounters (instant 30)).restarted ∧
      (twoCounters (instant 30)).restarted.shift.map (·.id) = some 61 ∧
      ¬ (twoCounters (instant 30)).ResumesOwn (twoCounters (instant 30)).restarted := by
  have hload := @load_restarted (twoCounters (instant 30)) (by decide)
  obtain ⟨hinv, htracks⟩ := tracks_reachable (@twoCounters_reachable (instant 30) (by decide))
  refine ⟨twoCounters_reachable (by decide), hload, by decide, ?_⟩
  rw [resumesOwn_iff hinv htracks hload]
  decide

end Terminal

end Sahl
