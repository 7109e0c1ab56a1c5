import Mathlib.Tactic
import Sahl.Terminal.Book
import Sahl.Terminal.Booting

/-! # Projections after a sync

    A sync that pulls events rebuilds the book of sales and nothing else. What a till holds of
    stock, staff, catalogue, floor, orders and settings is therefore what a load would rebuild
    only where it was what the log gives with the pulled events in it (`sync_current_iff`). -/

namespace Sahl

/-! ## Section 1: Events that bear on sales only -/

/-- Whether a load makes nothing of an event but a sale or an invoice. -/
def EventEnvelope.sparesRest (e : EventEnvelope Payload) : Bool :=
  match e.read with
  | none | some (.sale _) | some (.fiscal _) => true
  | _ => false

namespace Terminal

namespace Loading

/-- Two loads that differ in their sales and the fiscal tip only. -/
def SameRest (l l' : Loading) : Prop := ∃ book fiscalTip, l' = { l with book, fiscalTip }

theorem SameRest.refl (l : Loading) : SameRest l l := ⟨l.book, l.fiscalTip, rfl⟩

theorem SameRest.symm {l l' : Loading} (h : SameRest l l') : SameRest l' l := by
  obtain ⟨book, fiscalTip, rfl⟩ := h
  exact ⟨l.book, l.fiscalTip, rfl⟩

theorem SameRest.trans {l l' l'' : Loading} (h : SameRest l l') (h' : SameRest l' l'') :
    SameRest l l'' := by
  obtain ⟨book, fiscalTip, rfl⟩ := h
  obtain ⟨book', fiscalTip', rfl⟩ := h'
  exact ⟨book', fiscalTip', rfl⟩

/-- An event that bears on sales only leaves the rest of a load as it was. -/
theorem step_spares {e : EventEnvelope Payload} (h : e.sparesRest = true) (own : Uuid)
    (l : Loading) : ∃ l', l.step own e = .ok l' ∧ SameRest l l' := by
  unfold EventEnvelope.sparesRest at h
  rw [step]
  cases hread : e.read with
  | none => exact ⟨l, rfl, .refl l⟩
  | some event =>
    rw [hread] at h
    cases event with
    | sale event => exact ⟨_, rfl, _, l.fiscalTip, rfl⟩
    | fiscal event =>
      obtain ⟨invoice, content, at', issuedBy⟩ := event
      simp only
      split
      · exact ⟨_, rfl, l.book, _, rfl⟩
      · exact ⟨l, rfl, .refl l⟩
    | _ => cases h

/-- What an event makes of the rest does not depend on the sales. -/
theorem step_sameRest {own : Uuid} {e : EventEnvelope Payload} {l m l' : Loading}
    (h : SameRest l m) (hstep : l.step own e = .ok l') :
    ∃ m', m.step own e = .ok m' ∧ SameRest l' m' := by
  obtain ⟨book, fiscalTip, rfl⟩ := h
  rw [step] at hstep ⊢
  cases hread : e.read with
  | none =>
    rw [hread] at hstep
    cases hstep
    exact ⟨_, rfl, book, fiscalTip, rfl⟩
  | some event =>
    rw [hread] at hstep
    cases event with
    | inventory event | staff event =>
      obtain ⟨next, hnext, hstep⟩ := Except.bind_eq_ok.mp hstep
      cases hstep
      exact ⟨_, Except.bind_eq_ok.mpr ⟨next, hnext, rfl⟩, book, fiscalTip, rfl⟩
    | fiscal event =>
      obtain ⟨invoice, content, at', issuedBy⟩ := event
      simp only at hstep ⊢
      split at hstep
      · cases hstep
        rename_i hown
        rw [if_pos hown]
        exact ⟨_, rfl, book, _, rfl⟩
      · cases hstep
        rename_i hother
        rw [if_neg hother]
        exact ⟨_, rfl, book, fiscalTip, rfl⟩
    | sale event =>
      cases hstep
      exact ⟨_, rfl, _, fiscalTip, rfl⟩
    | outlet event =>
      cases hstep
      -- for any settings, so that those at hand are not checked here
      have houtlet : ∀ config : Option OutletConfig,
          Loading.SameRest { l with outlet := config.or l.outlet }
            { l with book, fiscalTip, outlet := config.or l.outlet } :=
        fun _ => ⟨book, fiscalTip, rfl⟩
      exact ⟨_, rfl, houtlet _⟩
    | shift | catalogue | floor | purchase =>
      cases hstep
      exact ⟨_, rfl, book, fiscalTip, rfl⟩

/-- Of a log, the events that bear on sales only can be left out of what the rest comes to. -/
theorem foldlM_spared {own : Uuid} {es : List (EventEnvelope Payload)} {l m l' : Loading}
    (h : SameRest l m) (hfold : es.foldlM (step own) l = .ok l') :
    ∃ m', (es.filter (! ·.sparesRest)).foldlM (step own) m = .ok m' ∧ SameRest l' m' := by
  induction es generalizing l m with
  | nil =>
    cases hfold
    exact ⟨m, rfl, h⟩
  | cons e es ih =>
    obtain ⟨next, hstep, hrest⟩ := foldlM_cons_eq_ok.mp hfold
    by_cases hspares : e.sparesRest = true
    · rw [List.filter_cons_of_neg (by simpa using hspares)]
      obtain ⟨next', hstep', hsame⟩ := step_spares hspares own l
      rw [hstep] at hstep'
      cases hstep'
      exact ih (hsame.symm.trans h) hrest
    · rw [List.filter_cons_of_pos (by simpa using hspares)]
      obtain ⟨next', hstep', hsame⟩ := step_sameRest h hstep
      obtain ⟨m', hm', hsame'⟩ := ih hsame hrest
      exact ⟨m', foldlM_cons_eq_ok.mpr ⟨next', hstep', hm'⟩, hsame'⟩

/-- And put back in. -/
theorem foldlM_unspared {own : Uuid} {es : List (EventEnvelope Payload)} {l m m' : Loading}
    (h : SameRest l m) (hfold : (es.filter (! ·.sparesRest)).foldlM (step own) m = .ok m') :
    ∃ l', es.foldlM (step own) l = .ok l' ∧ SameRest l' m' := by
  induction es generalizing l m with
  | nil =>
    cases hfold
    exact ⟨l, rfl, h⟩
  | cons e es ih =>
    by_cases hspares : e.sparesRest = true
    · rw [List.filter_cons_of_neg (by simpa using hspares)] at hfold
      obtain ⟨next, hstep, hsame⟩ := step_spares hspares own l
      obtain ⟨l', hl', hsame'⟩ := ih (hsame.symm.trans h) hfold
      exact ⟨l', foldlM_cons_eq_ok.mpr ⟨next, hstep, hl'⟩, hsame'⟩
    · rw [List.filter_cons_of_pos (by simpa using hspares)] at hfold
      obtain ⟨next, hstep, hrest⟩ := foldlM_cons_eq_ok.mp hfold
      obtain ⟨next', hstep', hsame⟩ := step_sameRest h.symm hstep
      obtain ⟨l', hl', hsame'⟩ := ih hsame.symm hrest
      exact ⟨l', foldlM_cons_eq_ok.mpr ⟨next', hstep', hl'⟩, hsame'⟩

/-- Events that bear on sales only, wherever they fall in the order, leave the rest of a load. -/
theorem load_spared {own : Uuid} {es new : List (EventEnvelope Payload)} {loaded : Loading}
    (hnew : ∀ e ∈ new, e.sparesRest = true)
    (h : (orderBy replayKey es).foldlM (step own) .empty = .ok loaded) :
    ∃ loaded', (orderBy replayKey (es ++ new)).foldlM (step own) .empty = .ok loaded' ∧
      SameRest loaded loaded' := by
  obtain ⟨kept, hkept, hsame⟩ := foldlM_spared (.refl _) h
  have hfilter : (orderBy replayKey (es ++ new)).filter (! ·.sparesRest) =
      (orderBy replayKey es).filter (! ·.sparesRest) := by
    unfold orderBy
    have hnone : new.filter (! ·.sparesRest) = [] :=
      List.filter_eq_nil_iff.mpr fun e he => by simp [hnew e he]
    rw [filter_insertionSort, filter_insertionSort, List.filter_append, hnone, List.append_nil]
  rw [← hfilter] at hkept
  obtain ⟨loaded', hloaded', hsame'⟩ := foldlM_unspared (.refl _) hkept
  exact ⟨loaded', hloaded', hsame.trans hsame'.symm⟩

end Loading

/-! ## Section 2: What a till holds next to its sales -/

/-- The same, in all that the log of the outlet is kept for but the sales. -/
structure SameSetup (t l : Terminal) : Prop where
  stock : t.stock = l.stock
  staff : t.staff = l.staff
  catalogue : t.catalogue = l.catalogue
  floor : t.floor = l.floor
  orders : t.orders = l.orders
  outlet : t.outlet = l.outlet

/-- What the till holds is what a load of its store would give. -/
def Current (digests : Digests) (t : Terminal) : Prop :=
  ∃ l, load digests t.store t.identity = .ok l ∧ t.book = l.book ∧ t.SameSetup l

/-- What the till holds next to its sales is what some events replay to, in the order of a load. -/
def HoldsSetup (t : Terminal) (es : List (EventEnvelope Payload)) : Prop :=
  ∃ loaded shift,
    (orderBy replayKey es).foldlM (Loading.step t.identity.deviceId) .empty = .ok loaded ∧
    latestOpenShift loaded.shiftEvents = .ok shift ∧
    t.SameSetup (loaded.till t.store t.identity shift)

/-- The sales some events come to, in the order of a load. -/
def salesOf (es : List (EventEnvelope Payload)) : SaleBook :=
  .gather ((orderBy replayKey es).filterMap (·.readSale))

/-- Every sale event is filed under a kind of sales. -/
def SalesFiled (es : List (EventEnvelope Payload)) : Prop :=
  ∀ e ∈ es, e.asSale.isSome → e.readSale.isSome

instance (es : List (EventEnvelope Payload)) : Decidable (SalesFiled es) :=
  inferInstanceAs (Decidable (∀ e ∈ es, _ → _))

theorem SameSetup.of_sameRest {t : Terminal} {loaded loaded' : Loading}
    {store : EventStore Payload} {shift shift' : Option Shift}
    (h : t.SameSetup (loaded.till store t.identity shift)) (hsame : Loading.SameRest loaded loaded') :
    t.SameSetup (loaded'.till store t.identity shift') := by
  obtain ⟨book, fiscalTip, rfl⟩ := hsame
  exact ⟨h.stock, h.staff, h.catalogue, h.floor, h.orders, h.outlet⟩

/-- Events that bear on sales only change nothing else that a till has to hold. -/
theorem HoldsSetup.spared {t : Terminal} {es new : List (EventEnvelope Payload)}
    (h : t.HoldsSetup es) (hnew : ∀ e ∈ new, e.sparesRest = true) : t.HoldsSetup (es ++ new) := by
  obtain ⟨loaded, shift, hloaded, hshift, hsetup⟩ := h
  obtain ⟨loaded', hloaded', hsame⟩ := Loading.load_spared hnew hloaded
  refine ⟨loaded', shift, hloaded', ?_, hsetup.of_sameRest hsame⟩
  obtain ⟨book, fiscalTip, rfl⟩ := hsame
  exact hshift

/-- Where sale events are filed as such, the two rebuilds read the same ones. -/
theorem SalesFiled.readSale_eq {es : List (EventEnvelope Payload)} (h : SalesFiled es) :
    es.filterMap (·.asSale) = es.filterMap (·.readSale) := by
  refine List.filterMap_congr fun e he => ?_
  cases hsale : e.asSale with
  | none =>
    refine (Option.eq_none_iff_forall_ne_some.mpr fun event hread => ?_).symm
    have hfiled := (EventEnvelope.read_eq_sale.mp (EventEnvelope.readSale_eq_some.mp hread)).2
    rw [hsale] at hfiled
    cases hfiled
  | some event =>
    have hread := h e he (by rw [hsale]; rfl)
    obtain ⟨event', hevent'⟩ := Option.isSome_iff_exists.mp hread
    have hfiled := (EventEnvelope.read_eq_sale.mp (EventEnvelope.readSale_eq_some.mp hevent')).2
    rw [hevent', ← hfiled, hsale]

/-- The sales a till has after a round: those it had, where nothing is new, and else what the sale
    payloads of its events come to. -/
def bookWith (t : Terminal) (new : List (EventEnvelope Payload)) : SaleBook :=
  if new = [] then t.book
  else .gather ((orderBy replayKey (t.store.events ++ new)).filterMap (·.asSale))

/-- A till is current where both its sales and the rest are what its events replay to. -/
theorem Inv.current_iff {digests : Digests} {t : Terminal} (h : Inv digests t) :
    Current digests t ↔ t.HoldsSetup t.store.events ∧ t.book = salesOf t.store.events := by
  constructor
  · rintro ⟨l, hload, hbook, hsetup⟩
    have hsales := load_book hload
    obtain ⟨loaded, shift, hloaded, hshift, rfl⟩ := h.load_eq_ok.mp hload
    exact ⟨⟨loaded, shift, hloaded, hshift, hsetup⟩, hbook.trans hsales⟩
  · rintro ⟨⟨loaded, shift, hloaded, hshift, hsetup⟩, hbook⟩
    have hload := h.load_eq_ok.mpr ⟨loaded, shift, hloaded, hshift, rfl⟩
    exact ⟨_, hload, hbook.trans (load_book hload).symm, hsetup⟩

/-! ## Section 3: One sync round -/

section Round

variable {digests : Digests} {t : Terminal} {transport : Transport Payload} {nowMillis : I64}
  {outcome : SyncOutcome} {new : List (EventEnvelope Payload)}

/-- A round leaves what is held next to the sales. -/
theorem sync_setup (es : List (EventEnvelope Payload)) :
    (t.sync digests transport nowMillis).1.HoldsSetup es ↔ t.HoldsSetup es := by
  have hkept : ∀ loaded : Loading, ∀ store store' identity shift,
      SameSetup (t.sync digests transport nowMillis).1 (loaded.till store identity shift) ↔
        t.SameSetup (loaded.till store' identity shift) := by
    intro loaded store store' identity shift
    simp only [sync]
    split
    · constructor <;> exact fun h => ⟨h.stock, h.staff, h.catalogue, h.floor, h.orders, h.outlet⟩
    · split
      all_goals
        constructor <;> exact fun h => ⟨h.stock, h.staff, h.catalogue, h.floor, h.orders, h.outlet⟩
  unfold HoldsSetup
  rw [(sync_keeps digests t transport nowMillis).2.2.2]
  simp only [hkept _ _ t.store]

/-- A round that succeeds rebuilds the sales where it pulled something, and only there. -/
theorem sync_sales (hok : (t.sync digests transport nowMillis).2 = .ok outcome)
    (hnew : (t.sync digests transport nowMillis).1.store.tagged =
      t.store.tagged ++ new.map (·, .remote)) :
    (t.sync digests transport nowMillis).1.store.events = t.store.events ++ new ∧
      (t.sync digests transport nowMillis).1.book = t.bookWith new := by
  have hevents : (t.sync digests transport nowMillis).1.store.events = t.store.events ++ new := by
    rw [EventStore.events_eq_tagged, hnew, List.map_append, List.map_map, Function.comp_def,
      List.map_id', EventStore.events_eq_tagged]
  have hrebuilt : rebuildBook (t.sync digests transport nowMillis).1.store =
      .gather ((orderBy replayKey (t.store.events ++ new)).filterMap (·.asSale)) := by
    rw [rebuildBook_eq_gather, EventStore.loadProjectionInput, hevents]
  have hcount := @EventStore.syncOnce_count _ digests.event t.store transport nowMillis
  refine ⟨hevents, ?_⟩
  unfold bookWith
  rw [← hrebuilt]
  rw [(sync_keeps digests t transport nowMillis).1] at hnew
  simp only [sync] at hok ⊢
  split at hok
  · cases hok
  · rename_i hanswer
    -- the count that decides over the rebuild is the number of new events
    have hpulled := hcount hanswer
    rw [hnew, List.length_append, List.length_map] at hpulled
    by_cases hnone : new = []
    · rw [if_pos hnone, if_neg (by subst hnone; simpa using hpulled)]
    · have hlength := List.length_pos_iff.mpr hnone
      have hpos : 0 < (t.store.syncOnce digests.event transport nowMillis).state.1.pulled := by
        omega
      rw [if_neg hnone, if_pos hpos]

/-- **Fresh after a sync**: in every run of a till, a sync round that succeeds leaves it with what
    a load would rebuild exactly when what it held next to its sales, which no round rebuilds, is
    what its log gives with the new events in it, and the sales are read alike: those it held,
    where nothing is new, and else those of every sale payload. So a till that was current stays
    current where all that is new bears on sales only and every sale event is filed as such. -/
theorem sync_current_iff (h : Transition.Reachable Fresh (step digests) t)
    (hserves : ServesSiblings transport t.identity.deviceId)
    (hok : (t.sync digests transport nowMillis).2 = .ok outcome)
    (hnew : (t.sync digests transport nowMillis).1.store.tagged =
      t.store.tagged ++ new.map (·, .remote)) :
    (Current digests (t.sync digests transport nowMillis).1 ↔
      t.HoldsSetup (t.store.events ++ new) ∧ t.bookWith new = salesOf (t.store.events ++ new)) ∧
    (Current digests t → (∀ e ∈ new, e.sparesRest = true) →
      SalesFiled (t.store.events ++ new) →
        Current digests (t.sync digests transport nowMillis).1) := by
  have hinv := inv_reachable h
  have hinv' : Inv digests (t.sync digests transport nowMillis).1 :=
    (@inv_sync digests t _ transport nowMillis hinv ⟨hserves, rfl⟩).2
  obtain ⟨hevents, hsales⟩ := sync_sales hok hnew
  have hiff : Current digests (t.sync digests transport nowMillis).1 ↔
      t.HoldsSetup (t.store.events ++ new) ∧
        t.bookWith new = salesOf (t.store.events ++ new) := by
    rw [hinv'.current_iff, hevents, sync_setup, hsales]
  refine ⟨hiff, ?_⟩
  intro hcurrent hspares hfiled
  obtain ⟨hsetup, hbook⟩ := hinv.current_iff.mp hcurrent
  refine hiff.mpr ⟨hsetup.spared hspares, ?_⟩
  unfold bookWith
  by_cases hnone : new = []
  · subst hnone
    rw [if_pos rfl, List.append_nil]
    exact hbook
  · -- every sale event is filed as one, in whatever order they are read
    have hread : SalesFiled (orderBy replayKey (t.store.events ++ new)) := by
      intro e he
      exact hfiled e (EventStore.mem_orderBy.mp he)
    rw [if_neg hnone, hread.readSale_eq]
    rfl

end Round

/-! ### A sibling's sales, and a sibling's batch -/

/-- The till of device 4 opens a ticket. -/
def ringing : Terminal :=
  (fresh ⟨1, 2, 4⟩).performAll plainDigests
    [(true, instant 10, .record (.opened 20 7 .bdt .taxInclusive .halfUp) 100)]

/-- A till that pulls a sibling's ticket has what a restart would give it. -/
theorem sync_current_iff_ticket : Current plainDigests (pulled ringing.store.loadAll).1 :=
  (@sync_current_iff plainDigests till3 (serving ringing.store.loadAll) 0 ⟨0, 0, 1, false⟩
      ringing.store.loadAll (.init ⟨_, rfl⟩) (serving_servesSiblings (by decide)) (by decide)
      (by decide)).2
    ⟨_, rfl, rfl, ⟨rfl, rfl, rfl, rfl, rfl, rfl⟩⟩ (by decide) (by decide)

/-- One that pulls a sibling's batch has not: the stock a restart would give is missing. -/
theorem sync_stockStale :
    ¬ ∀ (digests : Digests) (t : Terminal) (transport : Transport Payload) (nowMillis : I64)
        (outcome : SyncOutcome), Transition.Reachable Fresh (step digests) t →
      ServesSiblings transport t.identity.deviceId →
        (t.sync digests transport nowMillis).2 = .ok outcome →
          Current digests (t.sync digests transport nowMillis).1 := by
  intro h
  obtain ⟨l, hload, -, hsetup⟩ := h plainDigests till3 (serving sibling.store.loadAll) 0
    ⟨0, 0, 2, false⟩ (.init ⟨_, rfl⟩) (serving_servesSiblings (by decide)) (by decide)
  change load plainDigests (pulled sibling.store.loadAll).1.store ⟨1, 2, 3⟩ = .ok l at hload
  have hstock : ((load plainDigests (pulled sibling.store.loadAll).1.store ⟨1, 2, 3⟩).toOption.map
      (·.stock)) ≠ some (pulled sibling.store.loadAll).1.stock := by decide
  refine hstock ?_
  rw [Except.toOption_eq_some.mpr hload]
  exact congrArg some hsetup.stock.symm

end Terminal

end Sahl
