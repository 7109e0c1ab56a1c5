import Mathlib.Tactic
import Sahl.Lib.Replay
import Sahl.Terminal.Terminal

/-! # Events that do not depend on each other

    An event acts on the part of the projections its family has. Events of two families, and
    those of one family that are about two sales, batches, people or orders, can be applied in
    either order (`Independent.swappable`). -/

namespace Sahl

/-! ## Section 1: The parts of the projections -/

namespace Projections

/-- What the events of a family act on. -/
abbrev Part : Family → Type
  | .sale => SaleBook
  | .shift => Option Shift
  | .inventory => InventoryBook
  | .catalogue => Catalogue
  | .floor => Floor
  | .staff => Directory
  | .purchase => UuidMap PurchaseOrder
  | .outlet | .fiscal => Unit

def part (p : Projections) : (family : Family) → Part family
  | .sale => p.book
  | .shift => p.shift
  | .inventory => p.stock
  | .catalogue => p.catalogue
  | .floor => p.floor
  | .staff => p.staff
  | .purchase => p.orders
  | .outlet | .fiscal => ()

def setPart (p : Projections) : (family : Family) → Part family → Projections
  | .sale, book => { p with book }
  | .shift, shift => { p with shift }
  | .inventory, stock => { p with stock }
  | .catalogue, catalogue => { p with catalogue }
  | .floor, floor => { p with floor }
  | .staff, staff => { p with staff }
  | .purchase, orders => { p with orders }
  | .outlet, _ | .fiscal, _ => p

theorem part_setPart_of_ne {f g : Family} (h : f ≠ g) (p : Projections) (v : Part f) :
    (p.setPart f v).part g = p.part g := by
  cases f <;> cases g <;> first | rfl | exact absurd rfl h

theorem setPart_comm {f g : Family} (h : f ≠ g) (p : Projections) (v : Part f) (w : Part g) :
    (p.setPart f v).setPart g w = (p.setPart g w).setPart f v := by
  cases f <;> cases g <;> first | rfl | exact absurd rfl h

theorem part_setPart (f : Family) (p : Projections) (v : Part f) : (p.setPart f v).part f = v := by
  cases f <;> rfl

theorem setPart_setPart (f : Family) (p : Projections) (v w : Part f) :
    (p.setPart f v).setPart f w = p.setPart f w := by
  cases f <;> rfl

end Projections

/-- What an event makes of the part its family has. -/
def DomainEvent.act :
    (event : DomainEvent) → Projections.Part event.family →
      Except TerminalError (Projections.Part event.family)
  | .sale event, part => (SaleBook.apply part event).toExcept.mapError .sale
  | .shift event, part => (Projections.shiftAfter part event).map some
  | .inventory event, part => (InventoryBook.apply part event).mapError .inventory
  | .catalogue event, part => (Catalogue.apply part event).mapError .catalogue
  | .floor event, part => (Floor.apply part event).mapError .floor
  | .staff event, part => (Directory.apply part event).mapError .directory
  | .purchase event, part =>
    UuidMap.alterM part event.orderId (Projections.orderAfter event)
  | .outlet _, part | .fiscal _, part => .ok part

namespace Projections

theorem apply_eq_act (p : Projections) (event : DomainEvent) :
    p.apply event = (event.act (p.part event.family)).map (p.setPart event.family) := by
  have hmap : ∀ {α : Type} (x : Except TerminalError α) (f : α → Projections),
      (x >>= fun a => .ok (f a)) = x.map f := by
    intro α x f
    cases x <;> rfl
  cases event with
  | sale | inventory | catalogue | floor | staff | purchase => exact hmap _ _
  | shift event =>
    show p.apply (.shift event) =
      ((shiftAfter p.shift event).map some).map (p.setPart .shift)
    rw [apply]
    cases shiftAfter p.shift event <;> rfl
  | outlet | fiscal =>
    rw [apply]
    rfl

theorem apply_eq_ok {p q : Projections} {event : DomainEvent} :
    p.apply event = .ok q ↔
      ∃ v, event.act (p.part event.family) = .ok v ∧ p.setPart event.family v = q := by
  rw [apply_eq_act]
  exact Except.map_eq_ok

/-- Events of two families can be applied in either order. -/
theorem swappable_of_family {a b : DomainEvent} (h : a.family ≠ b.family) :
    Replay.Swappable apply a b := by
  intro p q r ha hb
  obtain ⟨v, hv, rfl⟩ := apply_eq_ok.mp ha
  obtain ⟨w, hw, rfl⟩ := apply_eq_ok.mp hb
  rw [part_setPart_of_ne h] at hw
  refine ⟨_, apply_eq_ok.mpr ⟨w, hw, rfl⟩, apply_eq_ok.mpr ⟨v, ?_, ?_⟩⟩
  · rw [part_setPart_of_ne h.symm]
    exact hv
  · exact (setPart_comm h p v w).symm

/-- Events of one family can be applied in either order where they can be to its part. -/
theorem swappable_of_part (f : Family) {a b : DomainEvent}
    {g h : Part f → Except TerminalError (Part f)}
    (hg : ∀ p : Projections, p.apply a = (g (p.part f)).map (p.setPart f))
    (hh : ∀ p : Projections, p.apply b = (h (p.part f)).map (p.setPart f))
    (hswap : ∀ v w x, g v = .ok w → h w = .ok x → ∃ v', h v = .ok v' ∧ g v' = .ok x) :
    Replay.Swappable apply a b := by
  intro p q r ha hb
  obtain ⟨w, hw, rfl⟩ := Except.map_eq_ok.mp ((hg p).symm.trans ha)
  obtain ⟨x, hx, rfl⟩ := Except.map_eq_ok.mp ((hh _).symm.trans hb)
  rw [part_setPart] at hx
  obtain ⟨v', hv', hx'⟩ := hswap _ w x hw hx
  refine ⟨p.setPart f v', ?_, ?_⟩
  · rw [hh, hv']
    rfl
  · rw [hg, part_setPart, hx', setPart_setPart]
    exact congrArg _ (setPart_setPart f p v' x)

end Projections

/-! ## Section 2: Independent events -/

/-- What an event of a book kept by id is about. Events of the other families are about the whole
    of their part. -/
def DomainEvent.subject : DomainEvent → Option Uuid
  | .sale event => some event.saleId
  | .inventory event => some event.batchId
  | .staff event => some event.staffId
  | .purchase event => some event.orderId
  | _ => none

/-- Whether an event is a count, which leaves its variance in the order of the counts. -/
def DomainEvent.isCount : DomainEvent → Bool
  | .inventory event => event.isCount
  | _ => false

/-- Events of two families, or about two subjects of one family, two counts aside. -/
def Independent (a b : DomainEvent) : Prop :=
  a.family ≠ b.family ∨
    (∃ x y, a.subject = some x ∧ b.subject = some y ∧ x ≠ y) ∧ ¬ (a.isCount ∧ b.isCount)

/-- Independent events can be applied in either order. -/
theorem Independent.swappable {a b : DomainEvent} (h : Independent a b) :
    Replay.Swappable Projections.apply a b := by
  by_cases hfamily : a.family = b.family
  · -- events of one family are about different aggregates, which its book keeps apart
    obtain ⟨⟨x, y, hx, hy, hne⟩, hcount⟩ := h.resolve_left (not_not.mpr hfamily)
    cases a with
    | sale a =>
      cases b <;> cases hfamily
      rename_i b
      cases hx
      cases hy
      refine Projections.swappable_of_part .sale (Projections.apply_eq_act · (.sale a))
        (Projections.apply_eq_act · (.sale b)) fun v w x hv hw => ?_
      obtain ⟨mid, hmid, hlast⟩ := SaleBook.apply_swap hne (Except.mapError_eq_ok.mp hv)
        (Except.mapError_eq_ok.mp hw)
      exact ⟨mid, Except.mapError_eq_ok.mpr hmid, Except.mapError_eq_ok.mpr hlast⟩
    | inventory a =>
      cases b <;> cases hfamily
      rename_i b
      cases hx
      cases hy
      refine Projections.swappable_of_part .inventory (Projections.apply_eq_act · (.inventory a))
        (Projections.apply_eq_act · (.inventory b)) fun v w x hv hw => ?_
      obtain ⟨mid, hmid, hlast⟩ := InventoryBook.apply_swap hne hcount
        (Except.mapError_eq_ok.mp hv) (Except.mapError_eq_ok.mp hw)
      exact ⟨mid, Except.mapError_eq_ok.mpr hmid, Except.mapError_eq_ok.mpr hlast⟩
    | staff a =>
      cases b <;> cases hfamily
      rename_i b
      cases hx
      cases hy
      refine Projections.swappable_of_part .staff (Projections.apply_eq_act · (.staff a))
        (Projections.apply_eq_act · (.staff b)) fun v w x hv hw => ?_
      obtain ⟨mid, hmid, hlast⟩ := Directory.apply_swap hne (Except.mapError_eq_ok.mp hv)
        (Except.mapError_eq_ok.mp hw)
      exact ⟨mid, Except.mapError_eq_ok.mpr hmid, Except.mapError_eq_ok.mpr hlast⟩
    | purchase a =>
      cases b <;> cases hfamily
      rename_i b
      cases hx
      cases hy
      refine Projections.swappable_of_part .purchase (Projections.apply_eq_act · (.purchase a))
        (Projections.apply_eq_act · (.purchase b)) fun v w x hv hw => ?_
      exact UuidMap.alterM_swap hne hv hw
    | shift | catalogue | floor | outlet | fiscal => cases hx
  · -- events of two families write to different parts
    exact Projections.swappable_of_family hfamily

end Sahl
