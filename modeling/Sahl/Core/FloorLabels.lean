import Mathlib.Tactic
import Sahl.Lib.Lists
import Sahl.Core.Floor

/-! # A label names one table

    Setting a table up asks that its label is free, and so does changing it. Putting a table back
    does not, and its label may have been given away meanwhile. The labels stay unique exactly
    where every table that is put back finds its label free (`uniqueLabels_iff`). -/

namespace Sahl

/-- Two tables in service of one section have one label. -/
def Table.Clashes (table other : Table) : Prop :=
  table.active ∧ other.active ∧ other.sectionName = table.sectionName ∧
    Text.eqIgnoreAsciiCase other.label table.label

theorem Table.clashes_symm (table other : Table) (h : table.Clashes other) :
    other.Clashes table := by
  obtain ⟨hactive, hother, hsection, hlabel⟩ := h
  refine ⟨hother, hactive, hsection.symm, ?_⟩
  simpa [Text.eqIgnoreAsciiCase, eq_comm] using hlabel

namespace Floor

/-! ## Section 1: The plan, event by event -/

def setActiveInPlace (tableId : Uuid) (active : Bool) : Method FloorError Floor Unit := do
  let floor ← get
  let table ← Method.check (Except.okOr floor.tables[tableId]? (.unknown tableId))
  modify fun floor => ⟨floor.tables.insert tableId { table with active }⟩

/-- The changes of one event, in the order they are made. -/
def applyInPlace (event : FloorEvent) : Method FloorError Floor Unit :=
  match event with
  | .tableAdded tableId .. => do
    let floor ← get
    Method.refuseIf (floor.tables.contains tableId) (.duplicate tableId)
    let table ← Method.check (event.toTable true)
    Method.check (floor.assertLabelFree table)
    modify fun floor => ⟨floor.tables.insert tableId table⟩
  | .tableUpdated tableId .. => do
    let floor ← get
    let existing ← Method.check (Except.okOr floor.tables[tableId]? (.unknown tableId))
    let table ← Method.check (event.toTable existing.active)
    Method.check (floor.assertLabelFree table)
    modify fun floor => ⟨floor.tables.insert tableId table⟩
  | .tableRemoved tableId .. => setActiveInPlace tableId false
  | .tableRestored tableId .. => setActiveInPlace tableId true

theorem on_setActiveInPlace (tableId : Uuid) (active : Bool) (floor : Floor) :
    (setActiveInPlace tableId active).on floor =
      .ofExcept floor (floor.setActive tableId active) := by
  unfold setActiveInPlace setActive
  rw [Method.on_get_bind]
  exact Method.on_check_bind fun table => rfl

/-- Every check of an event stands before its change. -/
theorem applyInPlace_eq (floor : Floor) (event : FloorEvent) :
    (applyInPlace event).on floor = .ofExcept floor (floor.apply event) := by
  cases event with
  | tableAdded tableId details at' addedBy =>
    rw [applyInPlace, Method.on_get_bind, apply]
    refine Method.on_refuseIf_bind ?_
    exact Method.on_check_bind fun table => Method.on_check_bind fun _ => rfl
  | tableUpdated tableId details at' updatedBy =>
    rw [applyInPlace, Method.on_get_bind, apply]
    refine Method.on_check_bind fun existing => ?_
    exact Method.on_check_bind fun table => Method.on_check_bind fun _ => rfl
  | tableRemoved tableId => exact on_setActiveInPlace tableId false floor
  | tableRestored tableId => exact on_setActiveInPlace tableId true floor

/-- The plan any events lead to; one that is refused leaves it as it was. -/
def reached (events : List FloorEvent) : Floor :=
  events.foldl (fun floor event => ((applyInPlace event).on floor).state) .new

/-- No two tables in service of one section have one label. -/
def UniqueLabels (floor : Floor) : Prop := floor.tables.Apart Table.Clashes

/-- A table that is put back finds its label free. -/
def RestoresFree (floor : Floor) : FloorEvent → Prop
  | .tableRestored tableId .. =>
    ∀ table ∈ floor.tables[tableId]?, floor.assertLabelFree table = .ok ()
  | _ => True

/-- Every table stands under its own id. -/
def Filed (floor : Floor) : Prop :=
  ∀ (tableId : Uuid) (table : Table), floor.tables[tableId]? = some table → table.id = tableId

/-! ## Section 2: One event -/

variable {floor floor' : Floor} {event : FloorEvent}

theorem toTable_id {active : Bool} {table : Table} (h : event.toTable active = .ok table) :
    table.id = event.tableId ∧ table.active = active := by
  cases event with
  | tableAdded | tableUpdated =>
    obtain ⟨_, -, h⟩ := Except.bind_eq_ok.mp h
    cases h
    exact ⟨rfl, rfl⟩
  | tableRemoved | tableRestored => cases h

/-- A label is free where no table in service of the section has it, the table itself apart. -/
theorem assertLabelFree_eq_ok (hfiled : floor.Filed) {table : Table} :
    floor.assertLabelFree table = .ok () ↔
      ∀ (b : Uuid) (other : Table), table.id ≠ b → floor.tables[b]? = some other →
        ¬ Table.Clashes { table with active := true } other := by
  unfold assertLabelFree Table.Clashes
  rw [ite_eq_right_iff]
  simp only [reduceCtorEq, imp_false, List.any_eq_true, decide_eq_true_eq, not_exists, not_and,
    UuidMap.mem_values, forall_exists_index]
  constructor
  · intro hfree b other hother hget _ hactive hsection hlabel
    refine hfree other b hget ?_ hactive hsection hlabel
    rw [hfiled b other hget]
    exact hother.symm
  · intro hfree other b hget hother hactive hsection hlabel
    rw [hfiled b other hget] at hother
    exact hfree b other hother.symm hget trivial hactive hsection hlabel

/-- A plan with a table put under its id: the labels stay unique where its label is free, or it is
    out of service. -/
theorem uniqueLabels_insert_iff (hfiled : floor.Filed) (hunique : floor.UniqueLabels)
    {tableId : Uuid} {table : Table} (hid : table.id = tableId) :
    UniqueLabels ⟨floor.tables.insert tableId table⟩ ↔
      (table.active → floor.assertLabelFree table = .ok ()) := by
  rw [assertLabelFree_eq_ok hfiled, hid]
  refine (UuidMap.apart_insert_iff Table.clashes_symm hunique tableId table).trans ?_
  constructor
  · intro hapart hactive b other hother hget hclash
    exact hapart b other hother hget ⟨hactive, hclash.2⟩
  · intro hfree b other hother hget hclash
    exact hfree hclash.1 b other hother hget ⟨rfl, hclash.2⟩

theorem place_eq_ok {active : Bool} (h : floor.place event active = .ok floor') :
    ∃ table, table.id = event.tableId ∧ floor.assertLabelFree table = .ok () ∧
      floor' = ⟨floor.tables.insert event.tableId table⟩ := by
  obtain ⟨table, htable, h⟩ := Except.bind_eq_ok.mp h
  obtain ⟨_, hfree, h⟩ := Except.bind_eq_ok.mp h
  cases h
  exact ⟨table, (toTable_id htable).1, hfree, rfl⟩

/-- What an accepted event does: one table is put under its id, and may be in service exactly where
    the event does not put it back on a label that is taken. -/
theorem apply_eq_ok (hfiled : floor.Filed) (h : floor.apply event = .ok floor') :
    ∃ table, table.id = event.tableId ∧ floor' = ⟨floor.tables.insert event.tableId table⟩ ∧
      ((table.active → floor.assertLabelFree table = .ok ()) ↔ floor.RestoresFree event) := by
  cases event with
  | tableAdded tableId details at' addedBy =>
    rw [apply] at h
    split at h
    · cases h
    obtain ⟨table, hid, hfree, hfloor⟩ := place_eq_ok h
    exact ⟨table, hid, hfloor, iff_of_true (fun _ => hfree) trivial⟩
  | tableUpdated tableId details at' updatedBy =>
    obtain ⟨existing, -, h⟩ := Except.bind_eq_ok.mp h
    obtain ⟨table, hid, hfree, hfloor⟩ := place_eq_ok h
    exact ⟨table, hid, hfloor, iff_of_true (fun _ => hfree) trivial⟩
  | tableRemoved tableId at' removedBy =>
    obtain ⟨table, htable, h⟩ := Except.bind_eq_ok.mp h
    cases h
    have hid : table.id = tableId := hfiled tableId table (Except.okOr_eq_ok.mp htable)
    exact ⟨{ table with active := false }, hid, rfl, iff_of_true nofun trivial⟩
  | tableRestored tableId at' restoredBy =>
    obtain ⟨table, htable, h⟩ := Except.bind_eq_ok.mp h
    cases h
    rw [Except.okOr_eq_ok] at htable
    have hid : table.id = tableId := hfiled tableId table htable
    refine ⟨{ table with active := true }, hid, rfl, ?_⟩
    -- whether a label is free does not depend on whether the table is in service
    have hsame : floor.assertLabelFree { table with active := true } =
        floor.assertLabelFree table := rfl
    rw [hsame, RestoresFree, htable]
    simp

theorem step_state (floor : Floor) (event : FloorEvent) :
    ((applyInPlace event).on floor).state = (floor.apply event).toOption.getD floor := by
  rw [applyInPlace_eq]
  cases floor.apply event <;> rfl

theorem filed_step (hfiled : floor.Filed) (event : FloorEvent) :
    ((applyInPlace event).on floor).state.Filed := by
  rw [step_state]
  cases happly : floor.apply event with
  | error error => exact hfiled
  | ok floor' =>
    obtain ⟨table, hid, rfl, -⟩ := apply_eq_ok hfiled happly
    intro tableId other hother
    simp only [Except.toOption, Option.getD_some, UuidMap.get_insert] at hother
    split at hother
    · rename_i hkey
      cases hother
      exact hid.trans hkey
    · exact hfiled tableId other hother

/-- One event keeps the labels unique exactly where it does not put a table back on a label that
    is taken. -/
theorem uniqueLabels_step_iff (hfiled : floor.Filed) (hunique : floor.UniqueLabels)
    (event : FloorEvent) :
    ((applyInPlace event).on floor).state.UniqueLabels ↔ floor.RestoresFree event := by
  rw [step_state]
  cases happly : floor.apply event with
  | error error =>
    refine iff_of_true hunique ?_
    cases event with
    | tableRestored tableId =>
      intro table htable
      rw [Option.mem_def] at htable
      simp [apply, setActive, htable, Except.okOr, bind, Except.bind] at happly
    | _ => trivial
  | ok floor' =>
    obtain ⟨table, hid, rfl, hiff⟩ := apply_eq_ok hfiled happly
    exact (uniqueLabels_insert_iff hfiled hunique hid).trans hiff

/-! ## Section 3: Every plan reached -/

/-- **A label names one table** in every plan a sequence of events leads through, exactly where
    every table that is put back finds its label free. -/
theorem uniqueLabels_iff (events : List FloorEvent) :
    (∀ before, before <+: events → (reached before).UniqueLabels) ↔
      ∀ before event, before ++ [event] <+: events → (reached before).RestoresFree event := by
  refine foldl_prefix_iff (P := UniqueLabels) ?_ (fun floor event h => filed_step h event)
    (UuidMap.apart_empty _)
    (fun floor event hfiled hunique => uniqueLabels_step_iff hfiled hunique event) events
  intro tableId table htable
  simp at htable

/-- Table 4 goes, another table 4 comes, and the first is put back. -/
def twoFours : List FloorEvent :=
  [.tableAdded 1 ⟨"4", none, 2⟩ .epoch 9, .tableRemoved 1 .epoch 9,
   .tableAdded 2 ⟨"4", none, 4⟩ .epoch 9, .tableRestored 1 .epoch 9]

theorem twoFours_share_label : ¬ ∀ events : List FloorEvent, (reached events).UniqueLabels := by
  intro h
  have htables : (reached twoFours).tables[(1 : Uuid)]? = some ⟨1, "4", none, 2, true⟩ ∧
      (reached twoFours).tables[(2 : Uuid)]? = some ⟨2, "4", none, 4, true⟩ := by decide
  exact h twoFours 1 2 _ _ (by decide) htables.1 htables.2 ⟨rfl, rfl, rfl, by decide⟩

end Floor

end Sahl
