import Mathlib.Tactic
import Sahl.Server.DayWindows
import Sahl.Terminal.Book

/-! # The day on the till and on the dashboard

    Both total the sales of the same events, but read them in different orders, treat an event
    that does not apply differently, and take the currency from different places. They say the
    same where none of the three shows (`day_agrees_iff`). -/

namespace Sahl

/-! ## Section 1: The till's day -/

namespace Terminal

/-- What this till has taken, totalled. -/
def day (t : Terminal) : Except TerminalError Day := do
  let currency ← t.currency
  (Day.of t.book.completed currency).mapError TerminalError.sale

end Terminal

/-! ## Section 2: One sale, read in two orders -/

/-- Sorting by either of two keys gives the same, where they rank no two records differently. -/
theorem orderBy_eq {κ κ' : Type} [LinearOrder κ] [LinearOrder κ'] {key : EventEnvelope Payload → κ}
    {key' : EventEnvelope Payload → κ'} {xs ys : List (EventEnvelope Payload)}
    (hperm : xs.Perm ys)
    (hagree : ∀ a ∈ xs, ∀ b ∈ xs, key a ≤ key b → key' b ≤ key' a → a = b) :
    orderBy key xs = orderBy key' ys := by
  have hxs : (orderBy key xs).Perm xs := List.perm_insertionSort _ _
  have hys : (orderBy key' ys).Perm xs := (List.perm_insertionSort _ _).trans hperm.symm
  have hsorted : (orderBy key' ys).Pairwise fun a b => key a ≤ key b := by
    refine List.Pairwise.imp_of_mem ?_ (List.pairwise_insertionSort (key' · ≤ key' ·) ys)
    intro a b ha hb hle
    by_contra hcon
    have hsame := hagree b (hys.mem_iff.mp hb) a (hys.mem_iff.mp ha) (not_le.mp hcon).le hle
    exact hcon (by rw [hsame])
  refine List.Perm.eq_of_pairwise ?_ (List.pairwise_insertionSort (key · ≤ key ·) xs) hsorted
    (hxs.trans hys.symm)
  intro a b ha hb hab hba
  have hmemA := hxs.mem_iff.mp ha
  have hmemB := hys.mem_iff.mp hb
  rcases le_total (key' b) (key' a) with hle | hle
  · exact hagree a hmemA b hmemB hab hle
  · exact (hagree b hmemB a hmemA hba hle).symm

/-- Of two events of one sale at one instant, the one with the lower id has the lower number. -/
def TiesAgree (es : List (EventEnvelope Payload)) : Prop :=
  ∀ a ∈ es, ∀ b ∈ es, a.readSale.isSome →
    a.readSale.map (·.saleId) = b.readSale.map (·.saleId) → a.occurredAt = b.occurredAt →
      a.eventId < b.eventId → a.deviceSeq < b.deviceSeq

instance (es : List (EventEnvelope Payload)) : Decidable (TiesAgree es) :=
  inferInstanceAs (Decidable (∀ a ∈ es, ∀ b ∈ es, _ → _))

/-- Whether an event is about a sale. -/
def EventEnvelope.isAbout (saleId : Uuid) (e : EventEnvelope Payload) : Bool :=
  e.readSale.any (·.saleId = saleId)

theorem history_readSale (saleId : Uuid) (es : List (EventEnvelope Payload)) :
    SaleBook.history saleId (es.filterMap (·.readSale)) =
      (es.filter (·.isAbout saleId)).filterMap (·.readSale) :=
  SaleBook.history_filterMap _ saleId es

/-- Where ties agree, both orders tell every sale the same story. -/
theorem TiesAgree.history_eq {es fs : List (EventEnvelope Payload)} (h : TiesAgree es)
    (hids : (es.map (·.eventId)).Nodup) (hperm : fs.Perm es) (saleId : Uuid) :
    SaleBook.history saleId ((orderBy Db.dayKey fs).filterMap (·.readSale)) =
      SaleBook.history saleId ((orderBy replayKey es).filterMap (·.readSale)) := by
  rw [history_readSale, history_readSale]
  unfold orderBy
  rw [filter_insertionSort, filter_insertionSort]
  refine congrArg _ (orderBy_eq (hperm.filter _) ?_)
  intro a ha b hb hday hreplay
  obtain ⟨hmemA, haboutA⟩ := List.mem_filter.mp ha
  obtain ⟨hmemB, haboutB⟩ := List.mem_filter.mp hb
  obtain ⟨x, hx, hidA⟩ := Option.any_eq_true _ _ |>.mp haboutA
  obtain ⟨y, hy, hidB⟩ := Option.any_eq_true _ _ |>.mp haboutB
  have hsale : b.readSale.map (·.saleId) = a.readSale.map (·.saleId) := by
    rw [hx, hy, Option.map_some, Option.map_some, of_decide_eq_true hidA, of_decide_eq_true hidB]
  obtain ⟨hat, hseq⟩ := Prod.Lex.toLex_le_toLex'.mp hday
  obtain ⟨hat', hid⟩ := Prod.Lex.toLex_le_toLex'.mp hreplay
  have hinstant : a.occurredAt = b.occurredAt := le_antisymm hat hat'
  replace hmemA := hperm.mem_iff.mp hmemA
  replace hmemB := hperm.mem_iff.mp hmemB
  -- one instant, and opposite orders of number and id: a tie that does not agree
  rcases (hid hinstant.symm).lt_or_eq with hlt | heq
  · have hcon := h b hmemB a hmemA (by rw [hy]; rfl) hsale hinstant.symm hlt
    exact absurd (hseq hinstant) (not_le.mpr hcon)
  · exact List.inj_on_of_nodup_map hids hmemA hmemB heq.symm

/-- The sale events of a report over the whole time, as a load would read them. -/
theorem Db.saleEvents_unbounded (db : Db Payload) (outlet : Uuid) :
    db.saleEvents outlet .unbounded =
      (orderBy Db.dayKey (db.table.events.filter (·.outletId = outlet))).filterMap (·.readSale) := by
  have hread : ∀ e : EventEnvelope Payload, e.readSale =
      if Text.startsWith e.kind Family.sale.kindPrefix then e.asSale else none := by
    intro e
    refine Option.ext fun event => ?_
    rw [EventEnvelope.readSale_eq_some, EventEnvelope.read_eq_sale]
    split
    · rename_i hkind
      rw [and_iff_right hkind]
    · rename_i hkind
      simp [hkind]
  have hquery : db.query outlet .sale .unbounded =
      (orderBy Db.dayKey (db.table.events.filter (·.outletId = outlet))).filter
        fun e => Text.startsWith e.kind Family.sale.kindPrefix := by
    unfold query orderBy
    rw [filter_insertionSort, List.filter_filter]
    refine congrArg _ (List.filter_congr fun e _ => ?_)
    simp [DayWindow.unbounded_covers, Bool.and_comm]
  rw [saleEvents, hquery, List.filterMap_filter]
  exact List.filterMap_congr fun e _ => (hread e).symm

/-! ## Section 3: Both sides -/

/-- The currency a report without configuration is in. -/
def ownCurrency (sales : List Sale) : Currency := (sales.head?.map (·.currency)).getD .bdt

/-- The server and the till give the same day, or both refuse. -/
def DaysAgree (db : Db Payload) (t : Terminal) : Prop :=
  (db.day t.identity.outletId .unbounded).toOption.map (·.day) = t.day.toOption

/-- Every sale event of an outlet applies, in the order the server reads them. -/
def EventsApply (db : Db Payload) (outlet : Uuid) : Prop :=
  ∀ saleId, SaleBook.Replays (SaleBook.history saleId (db.saleEvents outlet .unbounded))

theorem ofOwnCurrency_eq (sales : List Sale) :
    Day.ofOwnCurrency sales = Day.of sales (ownCurrency sales) := by
  unfold Day.ofOwnCurrency ownCurrency
  cases hfirst : sales.head? with
  | none =>
    obtain rfl := List.head?_eq_none_iff.mp hfirst
    rfl
  | some first => rfl

namespace Terminal

theorem day_eq_ok {t : Terminal} {day : Day} : t.day = .ok day ↔
    ∃ currency, t.currency = .ok currency ∧ Day.of t.book.completed currency = .ok day := by
  unfold Terminal.day
  rw [Except.bind_eq_ok]
  simp only [Except.mapError_eq_ok]

section Loaded

variable {digests : Digests} {store : EventStore Payload} {identity : DeviceIdentity}
  {t : Terminal} {db : Db Payload}

theorem load_identity (h : load digests store identity = .ok t) : t.identity = identity := by
  simp only [load, Except.bind_eq_ok] at h
  obtain ⟨_, -, loaded, -, shift, -, h⟩ := h
  cases h
  rfl

/-- Where the events apply, the server comes to the book the till loads. -/
theorem replay_saleEvents (hload : load digests store identity = .ok t)
    (hheld : (db.table.events.filter (·.outletId = identity.outletId)).Perm store.events)
    (hties : TiesAgree store.events) (happly : EventsApply db identity.outletId) :
    SaleBook.replay (db.saleEvents identity.outletId .unbounded) = .ok t.book := by
  obtain ⟨book, hbook⟩ := Except.isOkay_iff.mp ((SaleBook.replay_isOkay_iff _).mpr happly)
  rw [hbook, SaleBook.replay_eq_gather hbook, load_book hload]
  refine congrArg _ (SaleBook.gather_congr fun saleId => ?_)
  rw [Db.saleEvents_unbounded]
  exact hties.history_eq store.table.distinct.1 hheld saleId

/-- What the server answers of the day. -/
theorem server_day_eq (hload : load digests store identity = .ok t)
    (hheld : (db.table.events.filter (·.outletId = identity.outletId)).Perm store.events)
    (hties : TiesAgree store.events) {day : Day} :
    (db.day identity.outletId .unbounded).toOption.map (·.day) = some day ↔
      EventsApply db identity.outletId ∧
        Day.of t.book.completed (ownCurrency t.book.completed) = .ok day := by
  have hreport : (db.day identity.outletId .unbounded).toOption.map (·.day) = some day ↔
      ∃ report, db.day identity.outletId .unbounded = .ok report ∧ report.day = day := by
    simp only [Option.map_eq_some_iff, Except.toOption_eq_some]
  rw [hreport, Db.day_eq_ok, ← ofOwnCurrency_eq]
  constructor
  · rintro ⟨book, hbook, hday⟩
    have happly : EventsApply db identity.outletId :=
      (SaleBook.replay_isOkay_iff _).mp (Except.isOkay_iff.mpr ⟨book, hbook⟩)
    rw [replay_saleEvents hload hheld hties happly] at hbook
    cases hbook
    exact ⟨happly, hday⟩
  · rintro ⟨happly, hday⟩
    exact ⟨t.book, replay_saleEvents hload hheld hties happly, hday⟩

/-- **Dashboard and till**: where no two events of a sale are read in different orders, the
    server's day over the whole time and that of the loaded till agree exactly when every sale
    event applies and the outlet trades in the currency of its completed sales, or neither side
    can answer. -/
theorem day_agrees_iff (hload : load digests store identity = .ok t)
    (hheld : (db.table.events.filter (·.outletId = identity.outletId)).Perm store.events)
    (hties : TiesAgree store.events) :
    DaysAgree db t ↔
      (EventsApply db identity.outletId ∧ t.currency = .ok (ownCurrency t.book.completed)) ∨
        (¬ (EventsApply db identity.outletId ∧
            (Day.of t.book.completed (ownCurrency t.book.completed)).isOkay) ∧
          ¬ ∃ currency, t.currency = .ok currency ∧ (Day.of t.book.completed currency).isOkay) := by
  have hserver : ∀ day, (db.day identity.outletId .unbounded).toOption.map (·.day) = some day ↔
      EventsApply db identity.outletId ∧
        Day.of t.book.completed (ownCurrency t.book.completed) = .ok day :=
    fun _ => server_day_eq hload hheld hties
  have htill : ∀ day, t.day.toOption = some day ↔
      ∃ currency, t.currency = .ok currency ∧ Day.of t.book.completed currency = .ok day := by
    intro day
    rw [Except.toOption_eq_some, day_eq_ok]
  unfold DaysAgree
  rw [load_identity hload]
  constructor
  · intro hsame
    cases hday : t.day.toOption with
    | some day =>
      obtain ⟨currency, hcurrency, hof⟩ := (htill day).mp hday
      obtain ⟨happly, hown⟩ := (hserver day).mp (hsame.trans hday)
      -- a day is in the currency it was asked for in
      have heq : currency = ownCurrency t.book.completed :=
        (Day.of_eq_ok hof).1.symm.trans (Day.of_eq_ok hown).1
      exact .inl ⟨happly, heq ▸ hcurrency⟩
    | none =>
      refine .inr ⟨?_, ?_⟩
      · rintro ⟨happly, hokay⟩
        obtain ⟨day, hof⟩ := Except.isOkay_iff.mp hokay
        rw [(hserver day).mpr ⟨happly, hof⟩, hday] at hsame
        cases hsame
      · rintro ⟨currency, hcurrency, hokay⟩
        obtain ⟨day, hof⟩ := Except.isOkay_iff.mp hokay
        rw [(htill day).mpr ⟨currency, hcurrency, hof⟩] at hday
        cases hday
  · rintro (⟨happly, hcurrency⟩ | ⟨hserverRefuses, htillRefuses⟩)
    · refine Option.ext fun day => ?_
      rw [hserver day, htill day, and_iff_right happly]
      constructor
      · exact fun hof => ⟨_, hcurrency, hof⟩
      · rintro ⟨currency, hcurrency', hof⟩
        rw [hcurrency] at hcurrency'
        cases hcurrency'
        exact hof
    · have hnone : ∀ day, (db.day identity.outletId .unbounded).toOption.map (·.day) ≠ some day := by
        intro day hday
        obtain ⟨happly, hof⟩ := (hserver day).mp hday
        exact hserverRefuses ⟨happly, Except.isOkay_iff.mpr ⟨day, hof⟩⟩
      have hnone' : ∀ day, t.day.toOption ≠ some day := by
        intro day hday
        obtain ⟨currency, hcurrency, hof⟩ := (htill day).mp hday
        exact htillRefuses ⟨currency, hcurrency, Except.isOkay_iff.mpr ⟨day, hof⟩⟩
      rw [Option.eq_none_iff_forall_ne_some.mpr hnone, Option.eq_none_iff_forall_ne_some.mpr hnone']

end Loaded

/-! ### A ticket paid, and a ticket given up -/

/-- A shop that trades in taka. -/
def takaSettings : OutletEvent :=
  .configured 2
    { name := "Shop", profile := .cafe, currency := .bdt, timezone := "Asia/Dhaka",
      regime := .none, taxRegistration := none, address := "Road 1", scale := none,
      approval := none } (instant 1) 7

/-- A till set up in taka, and a ticket of one line paid in cash. -/
def paidTicket : EventStore Payload :=
  (till3.performAll plainDigests
    [(true, instant 1, .recordOutlet takaSettings 99),
     (true, instant 10, .record (.opened 20 7 .bdt .taxInclusive .halfUp) 100),
     (true, instant 11, .record
        (.lineAdded 20 30 40 "rice" ⟨I64.lit 100, .bdt⟩ Quantity.one .exempt []) 101),
     (true, instant 12, .record (.tenderRecorded 20 50 .cash ⟨I64.lit 100, .bdt⟩ none) 102),
     (true, instant 13, .record
        (.completed 20 ⟨I64.lit 100, .bdt⟩ ⟨I64.lit 0, .bdt⟩ (instant 13)) 103)]).store

/-- A till set up in taka, a ticket opened at one instant and abandoned at another. -/
def openThenAbandon (opened abandoned : Timestamp) : EventStore Payload :=
  (till3.performAll plainDigests
    [(true, instant 1, .recordOutlet takaSettings 99),
     (true, opened, .record (.opened 20 7 .bdt .taxInclusive .halfUp) 100),
     (true, abandoned, .record (.abandoned 20 7) 101)]).store

/-- The till that a store loads into, where it loads. -/
def loadedFrom (store : EventStore Payload) : Terminal :=
  restarted { till3 with store }

/-- The paid ticket is one sale of 100 on the till, and on the dashboard. -/
theorem day_agrees_iff_clockKept :
    (loadedFrom paidTicket).day.toOption.map (fun day => (day.sales, day.takings.minor.val)) =
        some (1, 100) ∧
      DaysAgree (Db.holding paidTicket) (loadedFrom paidTicket) := by
  have hload : load plainDigests paidTicket ⟨1, 2, 3⟩ = .ok (loadedFrom paidTicket) :=
    load_restarted (by decide +kernel)
  have happly : EventsApply (Db.holding paidTicket) 2 :=
    (SaleBook.replay_isOkay_iff _).mp (by decide +kernel)
  refine ⟨by decide +kernel, (day_agrees_iff hload (.of_eq (by decide +kernel))
    (by decide +kernel)).mpr (.inl ⟨happly, by decide +kernel⟩)⟩

/-- The clock goes back between the two: the event that gives the ticket up is read first and
    does not apply. The till skips it and reports a day without sales, the server refuses. -/
theorem clockBack_daysDiffer :
    ¬ ∀ (digests : Digests) (store : EventStore Payload) (identity : DeviceIdentity)
        (t : Terminal) (db : Db Payload), load digests store identity = .ok t →
      (db.table.events.filter (·.outletId = identity.outletId)).Perm store.events →
        DaysAgree db t := by
  intro h
  have hagree := h plainDigests (openThenAbandon (instant 20) (instant 10)) ⟨1, 2, 3⟩
    (loadedFrom (openThenAbandon (instant 20) (instant 10)))
    (Db.holding (openThenAbandon (instant 20) (instant 10))) (load_restarted (by decide))
    (.of_eq (by decide))
  exact absurd hagree (by unfold DaysAgree; decide)

end Terminal

end Sahl
