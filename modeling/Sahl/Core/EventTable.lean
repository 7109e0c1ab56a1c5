import Mathlib.Tactic
import Sahl.Core.Event

/-! # Tables of events

    Both ends keep events in a table whose primary key is the event id and whose device and
    sequence number are unique together. The table carries the two constraints, so no value of
    it breaks them. -/

namespace Sahl

variable {V : Type}

/-- The two unique keys of an event table. -/
def DistinctKeys (es : List (EventEnvelope V)) : Prop :=
  (es.map (·.eventId)).Nodup ∧ (es.map fun e => (e.deviceId, e.deviceSeq)).Nodup

instance (es : List (EventEnvelope V)) : Decidable (DistinctKeys es) :=
  inferInstanceAs (Decidable (_ ∧ _))

theorem DistinctKeys.eventId_inj {es : List (EventEnvelope V)} (h : DistinctKeys es)
    {a b : EventEnvelope V} (ha : a ∈ es) (hb : b ∈ es) (hid : a.eventId = b.eventId) : a = b :=
  List.inj_on_of_nodup_map h.1 ha hb hid

theorem DistinctKeys.seq_inj {es : List (EventEnvelope V)} (h : DistinctKeys es)
    {a b : EventEnvelope V} (ha : a ∈ es) (hb : b ∈ es) (hdevice : a.deviceId = b.deviceId)
    (hseq : a.deviceSeq = b.deviceSeq) : a = b :=
  List.inj_on_of_nodup_map h.2 ha hb (by rw [hdevice, hseq])

/-- An event is the only one under its id. -/
theorem DistinctKeys.filter_eventId {es : List (EventEnvelope V)} (h : DistinctKeys es)
    {e : EventEnvelope V} (he : e ∈ es) : es.filter (·.eventId = e.eventId) = [e] := by
  obtain ⟨before, after, rfl⟩ := List.append_of_mem he
  have hids := h.1
  rw [List.map_append, List.map_cons, List.nodup_append, List.nodup_cons] at hids
  obtain ⟨_, ⟨hafter, _⟩, hbefore⟩ := hids
  have hnoneBefore : before.filter (·.eventId = e.eventId) = [] := by
    rw [List.filter_eq_nil_iff]
    intro a ha
    simpa using hbefore _ (List.mem_map_of_mem ha) _ List.mem_cons_self
  have hnoneAfter : after.filter (·.eventId = e.eventId) = [] := by
    rw [List.filter_eq_nil_iff]
    intro a ha
    have hne : a.eventId ≠ e.eventId := fun hsame => hafter (hsame ▸ List.mem_map_of_mem ha)
    simpa using hne
  rw [List.filter_append, List.filter_cons_of_pos (by simp), hnoneBefore, hnoneAfter,
    List.nil_append]

/-- One of the two keys of a table is shared. -/
def SameKey (a b : EventEnvelope V) : Prop :=
  a.eventId = b.eventId ∨ a.deviceId = b.deviceId ∧ a.deviceSeq = b.deviceSeq

theorem DistinctKeys.sameKey {es : List (EventEnvelope V)} (h : DistinctKeys es)
    {a b : EventEnvelope V} (ha : a ∈ es) (hb : b ∈ es) (hkey : SameKey a b) : a = b :=
  hkey.elim (h.eventId_inj ha hb) fun hkey => h.seq_inj ha hb hkey.1 hkey.2

/-- A table of rows that each hold one event. -/
structure EventTable (V ρ : Type) (eventOf : ρ → EventEnvelope V) where
  rows : List ρ
  distinct : DistinctKeys (rows.map eventOf)

namespace EventTable

variable {ρ : Type} {eventOf : ρ → EventEnvelope V}

def empty : EventTable V ρ eventOf := ⟨[], by simp [DistinctKeys]⟩

/-- The events of the table, in the order they went in. -/
def events (t : EventTable V ρ eventOf) : List (EventEnvelope V) := t.rows.map eventOf

/-- Insert rows, all or none: `none` is a violated constraint. -/
def insert? (t : EventTable V ρ eventOf) (new : List ρ) : Option (EventTable V ρ eventOf) :=
  if h : DistinctKeys ((t.rows ++ new).map eventOf) then some ⟨t.rows ++ new, h⟩ else none

/-- Update rows in place, leaving their events alone. -/
def update (t : EventTable V ρ eventOf) (f : ρ → ρ) (hf : ∀ r, eventOf (f r) = eventOf r) :
    EventTable V ρ eventOf :=
  ⟨t.rows.map f, by
    have : (t.rows.map f).map eventOf = t.rows.map eventOf := by simp [hf]
    exact this ▸ t.distinct⟩

@[ext] theorem ext {t u : EventTable V ρ eventOf} (h : t.rows = u.rows) : t = u := by
  cases t
  cases u
  simp_all

@[simp] theorem empty_rows : (empty : EventTable V ρ eventOf).rows = [] := rfl

@[simp] theorem empty_events : (empty : EventTable V ρ eventOf).events = [] := rfl

theorem insert?_eq_some {t t' : EventTable V ρ eventOf} {new : List ρ} :
    t.insert? new = some t' ↔ t'.rows = t.rows ++ new := by
  unfold insert?
  constructor
  · intro h
    split at h
    · cases h
      rfl
    · cases h
  · intro h
    have hdistinct := t'.distinct
    rw [h] at hdistinct
    rw [dif_pos hdistinct]
    exact congrArg some (ext h.symm)

theorem insert?_events {t t' : EventTable V ρ eventOf} {new : List ρ}
    (h : t.insert? new = some t') : t'.events = t.events ++ new.map eventOf := by
  simp only [events, insert?_eq_some.mp h, List.map_append]

@[simp] theorem update_events (t : EventTable V ρ eventOf) (f : ρ → ρ)
    (hf : ∀ r, eventOf (f r) = eventOf r) : (t.update f hf).events = t.events := by
  simp [events, update, hf]

/-- Rows that bring no key already taken go in. -/
theorem insert?_isSome (t : EventTable V ρ eventOf) (new : List ρ)
    (hnew : DistinctKeys (new.map eventOf))
    (hkeys : ∀ e ∈ t.events, ∀ r ∈ new, ¬ SameKey e (eventOf r)) :
    ∃ t', t.insert? new = some t' := by
  have hdistinct : DistinctKeys ((t.rows ++ new).map eventOf) := by
    rw [List.map_append]
    refine ⟨?_, ?_⟩
    · rw [List.map_append, List.nodup_append]
      refine ⟨t.distinct.1, hnew.1, fun a ha b hb => ?_⟩
      obtain ⟨e, he, rfl⟩ := List.mem_map.mp ha
      obtain ⟨f, hf, rfl⟩ := List.mem_map.mp hb
      obtain ⟨r, hr, rfl⟩ := List.mem_map.mp hf
      exact fun heq => hkeys e he r hr (.inl heq)
    · rw [List.map_append, List.nodup_append]
      refine ⟨t.distinct.2, hnew.2, fun a ha b hb => ?_⟩
      obtain ⟨e, he, rfl⟩ := List.mem_map.mp ha
      obtain ⟨f, hf, rfl⟩ := List.mem_map.mp hb
      obtain ⟨r, hr, rfl⟩ := List.mem_map.mp hf
      intro heq
      exact hkeys e he r hr (.inr (Prod.mk.inj heq))
  exact ⟨_, dif_pos hdistinct⟩

end EventTable

end Sahl
