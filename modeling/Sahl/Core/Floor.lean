import Mathlib.Tactic
import Sahl.Lib.Text
import Sahl.Core.Ids

/-! # The floor plan

    The tables an outlet has, rebuilt from floor events. Within a section no two tables in
    service share a label when one of them is set up. -/

namespace Sahl

/-! ## Section 1: Tables and events -/

inductive FloorError where
  | unknown (tableId : Uuid)
  | duplicate (tableId : Uuid)
  | blank
  | duplicateLabel (label : String)
  | badSeats (seats : U32)
  deriving DecidableEq

/-- The most people one table can seat. -/
def maxSeats : U32 := 30

/-- A table on the floor. -/
structure Table where
  id : Uuid
  label : String
  sectionName : Option String
  seats : U32
  active : Bool
  deriving DecidableEq

def Table.validate (table : Table) : Except FloorError Unit :=
  if Text.isBlank table.label then .error .blank
  else if table.seats = 0 ∨ maxSeats < table.seats then .error (.badSeats table.seats)
  else .ok ()

/-- The editable facts about a table. -/
structure TableDetails where
  label : String
  sectionName : Option String
  seats : U32
  deriving DecidableEq

/-- Everything that happens to the floor plan. -/
inductive FloorEvent where
  | tableAdded (tableId : Uuid) (details : TableDetails) (at' : Timestamp) (addedBy : Uuid)
  | tableUpdated (tableId : Uuid) (details : TableDetails) (at' : Timestamp) (updatedBy : Uuid)
  | tableRemoved (tableId : Uuid) (at' : Timestamp) (removedBy : Uuid)
  | tableRestored (tableId : Uuid) (at' : Timestamp) (restoredBy : Uuid)
  deriving DecidableEq

namespace FloorEvent

def tableId : FloorEvent → Uuid
  | tableAdded tableId .. | tableUpdated tableId .. | tableRemoved tableId ..
  | tableRestored tableId .. => tableId

def kind : FloorEvent → String
  | tableAdded .. => "floor.table_added"
  | tableUpdated .. => "floor.table_updated"
  | tableRemoved .. => "floor.table_removed"
  | tableRestored .. => "floor.table_restored"

/-- The table these details describe. -/
def toTable (event : FloorEvent) (active : Bool) : Except FloorError Table :=
  match event with
  | tableAdded tableId details .. | tableUpdated tableId details .. => do
    let table : Table :=
      { id := tableId, label := Text.trim details.label, sectionName := details.sectionName,
        seats := details.seats, active }
    table.validate
    .ok table
  | tableRemoved tableId .. | tableRestored tableId .. => .error (.unknown tableId)

end FloorEvent

/-! ## Section 2: The floor -/

/-- Every table the outlet has. -/
structure Floor where
  tables : UuidMap Table
  deriving DecidableEq

namespace Floor

def new : Floor := ⟨∅⟩

/-- Refuse a label in use on another table in service of the same section. -/
def assertLabelFree (floor : Floor) (table : Table) : Except FloorError Unit :=
  if floor.tables.values.any fun other =>
      other.id ≠ table.id ∧ other.active ∧ other.sectionName = table.sectionName ∧
        Text.eqIgnoreAsciiCase other.label table.label then
    .error (.duplicateLabel table.label)
  else .ok ()

/-- Put a table under its id, its label being free. -/
def place (floor : Floor) (event : FloorEvent) (active : Bool) : Except FloorError Floor := do
  let table ← event.toTable active
  floor.assertLabelFree table
  .ok ⟨floor.tables.insert event.tableId table⟩

/-- Take a table out of service, or put it back. -/
def setActive (floor : Floor) (tableId : Uuid) (active : Bool) : Except FloorError Floor := do
  let table ← Except.okOr floor.tables[tableId]? (.unknown tableId)
  .ok ⟨floor.tables.insert tableId { table with active }⟩

/-- Apply one event. -/
def apply (floor : Floor) (event : FloorEvent) : Except FloorError Floor :=
  match event with
  | .tableAdded tableId .. =>
    if floor.tables.contains tableId then .error (.duplicate tableId)
    else floor.place event true
  | .tableUpdated tableId .. => do
    let existing ← Except.okOr floor.tables[tableId]? (.unknown tableId)
    floor.place event existing.active
  | .tableRemoved tableId .. => floor.setActive tableId false
  | .tableRestored tableId .. => floor.setActive tableId true

end Floor

end Sahl
