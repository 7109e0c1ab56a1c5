import Mathlib.Tactic
import Sahl.Core.SaleHistory
import Sahl.Terminal.Loading

/-! # The sale book of a till

    Actions, restarts and sync rounds change the book by sale events only: whatever happens, the
    sales in it are ones that were opened and then given events (`book_reached`). -/

namespace Sahl

/-! ## Section 1: One event -/

/-- Of the events, only those of sales touch the book. -/
theorem Projections.apply_book {p p' : Projections} {event : DomainEvent}
    (h : p.apply event = .ok p') :
    p'.book = p.book ∨ ∃ sale, event = .sale sale ∧ (p.book.apply sale).toExcept = .ok p'.book := by
  cases event with
  | sale event =>
    simp only [apply, Except.bind_eq_ok, Except.mapError_eq_ok] at h
    obtain ⟨book, hbook, h⟩ := h
    cases h
    exact .inr ⟨event, rfl, hbook⟩
  | shift | inventory | staff | catalogue | floor | purchase =>
    obtain ⟨_, -, h⟩ := Except.bind_eq_ok.mp h
    cases h
    exact .inl rfl
  | outlet | fiscal =>
    cases h
    exact .inl rfl

theorem Projections.foldlM_book_reached {events : List DomainEvent} {p p' : Projections}
    (hp : p.book.Reached) (h : events.foldlM Projections.apply p = .ok p') : p'.book.Reached := by
  refine foldlM_invariant (fun _ q => q.book.Reached) (fun _ q event q' hq happly => ?_) hp h
  rcases Projections.apply_book happly with hsame | ⟨sale, -, hsale⟩
  · rw [hsame]
    exact hq
  · rw [← (Outcome.toExcept_eq_ok.mp hsale).2]
    exact SaleBook.reached_apply hq sale

/-! ## Section 2: Runs -/

namespace Terminal

theorem rebuildBook_reached (store : EventStore Payload) : (rebuildBook store).Reached := by
  unfold rebuildBook
  refine List.foldlRecOn _ _ SaleBook.reached_new fun book hbook e _ => ?_
  split
  · exact SaleBook.reached_apply hbook _
  · exact hbook

theorem load_book_reached {digests : Digests} {store : EventStore Payload}
    {identity : DeviceIdentity} {t : Terminal} (h : load digests store identity = .ok t) :
    t.book.Reached := by
  simp only [load, Except.bind_eq_ok, Except.mapError_eq_ok] at h
  obtain ⟨_, -, loaded, hloaded, shift, -, h⟩ := h
  cases h
  refine foldlM_invariant (fun _ (l : Loading) => l.book.Reached) (fun _ l e l' hl hstep => ?_)
    SaleBook.reached_new hloaded
  rw [(Loading.step_eq_ok hstep).book]
  exact List.foldlRecOn _ _ hl fun book hbook event _ => SaleBook.reached_apply hbook event

/-- A sync round keeps the book or rebuilds it. -/
theorem sync_book (digests : Digests) (t : Terminal) (transport : Transport Payload)
    (nowMillis : I64) :
    (t.sync digests transport nowMillis).1.book = t.book ∨
      (t.sync digests transport nowMillis).1.book =
        rebuildBook (t.sync digests transport nowMillis).1.store := by
  simp only [sync]
  split
  · exact .inl rfl
  · split
    · exact .inr rfl
    · exact .inl rfl

theorem book_reached_step {digests : Digests} {t t' : Terminal} {a : Action}
    (h : t.book.Reached) (hstep : step digests t a t') : t'.book.Reached := by
  cases a with
  | call writable occurredAt call =>
    cases hstep
    rw [perform_eq_commit]
    -- the book changes only where the events are stored
    rcases commit_cases digests writable occurredAt t (t.prepare digests occurredAt call) with
      ⟨error, -, hcommit⟩ | ⟨p, chain, error, -, -, hcommit⟩ |
      ⟨p, chain, es, store, hprepare, -, -, -, hcommit⟩
    · rw [hcommit]
      exact h
    · rw [hcommit]
      exact h
    · rw [hcommit]
      exact Projections.foldlM_book_reached h (prepare_adopts hprepare).projections
  | restart => exact load_book_reached hstep
  | sync transport nowMillis =>
    obtain ⟨-, rfl⟩ := hstep
    rcases sync_book digests t transport nowMillis with hsame | hrebuilt
    · rw [hsame]
      exact h
    · rw [hrebuilt]
      exact rebuildBook_reached _

/-- In every run, the sales in the book are reached ones. -/
theorem book_reached {digests : Digests} {t : Terminal}
    (h : Transition.Reachable Fresh (step digests) t) : t.book.Reached := by
  refine h.invariant (I := fun t => t.book.Reached) (fun s hs => ?_)
    fun _ _ _ => book_reached_step
  obtain ⟨identity, rfl⟩ := hs
  exact SaleBook.reached_new

/-! ## Section 3: What the book is rebuilt from -/

/-- A load gathers the sale events it reads. -/
theorem load_book {digests : Digests} {store : EventStore Payload} {identity : DeviceIdentity}
    {t : Terminal} (h : load digests store identity = .ok t) :
    t.book = .gather (store.loadProjectionInput.filterMap (·.readSale)) := by
  simp only [load, Except.bind_eq_ok, Except.mapError_eq_ok] at h
  obtain ⟨_, -, loaded, hloaded, shift, -, h⟩ := h
  cases h
  refine foldlM_invariant (fun seen (l : Loading) =>
    l.book = .gather (seen.filterMap (·.readSale))) (fun seen l e l' hl hstep => ?_) rfl hloaded
  rw [(Loading.step_eq_ok hstep).book, hl, List.filterMap_append, filterMap_cons_toList]
  unfold SaleBook.gather
  rw [List.foldl_append]
  simp

/-- A sync gathers every payload that is a sale event. -/
theorem rebuildBook_eq_gather (store : EventStore Payload) :
    rebuildBook store = .gather (store.loadProjectionInput.filterMap (·.asSale)) := by
  unfold rebuildBook SaleBook.gather EventEnvelope.asSale
  generalize SaleBook.new = start
  induction store.loadProjectionInput generalizing start with
  | nil => rfl
  | cons e es ih =>
    rw [List.foldl_cons, ih]
    cases hpayload : e.payload with
    | unknown text => simp [hpayload]
    | known domain => cases domain <;> simp [hpayload]

end Terminal

end Sahl
