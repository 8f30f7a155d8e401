/-
This file holds tables of names and IDs. A table is kept twice, by name and by
ID, and an insertion changes the two one after the other. It is one to one: a
name has one ID and an ID has one name, and a later entry for either takes the
place of the earlier one.
-/

import BehaviourScript.Assoc
import BehaviourScript.Bytes

namespace BehaviourScript

/-- The assets that scripts refer to. -/
inductive Capability where
  | graph | stateGraph | globalObject
  deriving DecidableEq

namespace Capability

/-- The name of a kind of asset in messages. -/
def text : Capability → String
  | graph => "graph"
  | stateGraph => "state graph"
  | globalObject => "global object"

/-- The format of the IDs of a kind of asset. -/
def format : Capability → IntFormat
  | graph => .u32
  | stateGraph => .i16
  | globalObject => .u16

end Capability

namespace SymbolMap

/-- Names with their IDs and IDs with their names, each in the order in which they
came. -/
structure Tables where
  byName : IndexMap String Int
  byId : IndexMap Int String
  deriving DecidableEq

namespace Tables

/-- Tables without entries. -/
def empty : Tables := ⟨.empty, .empty⟩

/-- Adds an entry. First the name gets its ID, and the ID that it had loses its
name. Then the ID gets its name, and another name that it had is removed. -/
def insert (tables : Tables) (name : String) (id : Int) : Tables :=
  let (oldId?, byName) := tables.byName.insert name id
  let (oldName?, byId) := (tables.byId.discard oldId?).insert id name
  ⟨byName.discard (oldName?.filter (· ≠ name)), byId⟩

/-- The tables of entries that are added one after the other. -/
def ofList (entries : List (String × Int)) : Tables :=
  entries.foldl (fun tables entry => tables.insert entry.1 entry.2) empty

/-- The ID of a name. -/
def id? (tables : Tables) (name : String) : Option Int := tables.byName.get? name

/-- The name of an ID. -/
def name? (tables : Tables) (id : Int) : Option String := tables.byId.get? id

/-- The entries by name. -/
def entries (tables : Tables) : List (String × Int) := tables.byName.entries

/-- How many entries there are. -/
def size (tables : Tables) : Nat := tables.byName.size

/-- Whether there are no entries. -/
def isEmpty (tables : Tables) : Bool := tables.byName.isEmpty

/-- The ID of a name, if it is one that the kind of asset can have. -/
def resolve (tables : Tables) (capability : Capability) (name : String) : Option Int :=
  (tables.id? name).filter capability.format.holds

/-- Either table says what the other one does. -/
def Mirrored (tables : Tables) : Prop :=
  ∀ name id, tables.id? name = some id ↔ tables.name? id = some name

variable {tables : Tables}

theorem name?_insert (tables : Tables) (name : String) (id other : Int) :
    (tables.insert name id).name? other =
      if other = id then some name
      else if tables.id? name = some other then none else tables.name? other := by
  simp only [insert, name?, id?, IndexMap.fst_insert, IndexMap.get?_discard, IndexMap.get?_insert]
  congr

theorem id?_insert (tables : Tables) (name other : String) (id : Int) :
    (tables.insert name id).id? other =
      if (if tables.id? name = some id then none else tables.name? id).filter (· ≠ name) = some other
      then none else if other = name then some id else tables.id? other := by
  simp only [insert, name?, id?, IndexMap.fst_insert, IndexMap.get?_discard, IndexMap.get?_insert]
  congr

/-- Each table loses what has the name or the ID of the new entry, and gets the entry. -/
theorem Mirrored.id?_insert_iff (mirrored : tables.Mirrored) {name other : String} {id value : Int} :
    (tables.insert name id).id? other = some value ↔
      other = name ∧ value = id ∨ other ≠ name ∧ value ≠ id ∧ tables.id? other = some value := by
  have owner := mirrored name id
  have rival := mirrored other id
  simp only [id?_insert, Option.filter_eq_some_iff, decide_eq_true_eq]
  grind

theorem Mirrored.name?_insert_iff (mirrored : tables.Mirrored) {name value : String} {id other : Int} :
    (tables.insert name id).name? other = some value ↔
      value = name ∧ other = id ∨ value ≠ name ∧ other ≠ id ∧ tables.name? other = some value := by
  have owner := mirrored name other
  rw [name?_insert]
  grind

/-- An insertion keeps the tables alike. -/
theorem Mirrored.insert (mirrored : tables.Mirrored) (name : String) (id : Int) :
    (tables.insert name id).Mirrored := by
  intro otherName otherId
  rw [mirrored.id?_insert_iff, mirrored.name?_insert_iff, mirrored otherName otherId]

end Tables

end SymbolMap

/-- Names and IDs, one to one. -/
structure SymbolMap extends SymbolMap.Tables where
  mirrored : toTables.Mirrored
  deriving DecidableEq

namespace SymbolMap

/-- A table without entries. -/
def empty : SymbolMap := ⟨.empty, fun _ _ => ⟨nofun, nofun⟩⟩

/-- Adds an entry. -/
def insert (map : SymbolMap) (name : String) (id : Int) : SymbolMap :=
  ⟨map.toTables.insert name id, map.mirrored.insert name id⟩

/-- The table of entries that are added one after the other. -/
def ofList (entries : List (String × Int)) : SymbolMap :=
  entries.foldl (fun map entry => map.insert entry.1 entry.2) empty

end SymbolMap

end BehaviourScript
