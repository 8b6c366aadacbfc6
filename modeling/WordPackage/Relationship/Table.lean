import Std.Data.HashMap
import WordPackage.Relationship.Registry

/-!
# Tables of relationships

How the relationships of a part are kept while they are registered one after
another: the identifier of each key in a map, the keys in the order in which they
were first registered, and the number that the next new key gets. The number has
32 bits and starts over when they are used up.
-/

namespace WordPackage

deriving instance Hashable for TargetMode
deriving instance Hashable for RelationshipKey

/-- The relationships of one part with what is needed to register further ones. -/
structure RelationshipTable where
  ids : Std.HashMap RelationshipKey String := ∅
  order : Array RelationshipKey := #[]
  next : UInt32 := 1

namespace RelationshipTable

def empty : RelationshipTable := {}

/-- The identifier of a key that is registered. -/
def get? (table : RelationshipTable) (key : RelationshipKey) : Option String :=
  table.ids[key]?

/-- Register a key, and give its identifier: the one it has, or the next one. -/
def add (table : RelationshipTable) (key : RelationshipKey) : String × RelationshipTable :=
  match table.ids[key]? with
  | some id => (id, table)
  | none =>
      let id := Registry.identifier table.next.toNat
      (id, { ids := table.ids.insert key id
             order := table.order.push key
             next := table.next + 1 })

def addImage (table : RelationshipTable) (target : String) : String × RelationshipTable :=
  table.add { target, kind := RelationshipType.image }

def addFont (table : RelationshipTable) (target : String) : String × RelationshipTable :=
  table.add { target, kind := RelationshipType.font }

/-- The table in which keys were registered one after another. -/
def ofKeys (keys : List RelationshipKey) : RelationshipTable :=
  keys.foldl (fun table key => (table.add key).2) empty

/-- The table of the main document: styles, web settings and font table come first. -/
def document : RelationshipTable := ofKeys Registry.document.keys

/-- The table of the package itself. -/
def package : RelationshipTable := ofKeys Registry.package.keys

/-- The identifiers with their keys, in the order of registration. A key that has no
identifier is passed over. -/
def entries (table : RelationshipTable) : List (String × RelationshipKey) :=
  table.order.toList.filterMap fun key => table.ids[key]?.map fun id => (id, key)

/-- The relationships in the order of registration. -/
def relationships (table : RelationshipTable) : List Relationship :=
  table.entries.map fun (id, key) =>
    { id, kind := key.kind, target := key.target, mode := key.mode }

def size (table : RelationshipTable) : Nat :=
  table.order.size

theorem add_of_some {table : RelationshipTable} {key : RelationshipKey} {id : String}
    (known : table.ids[key]? = some id) : table.add key = (id, table) := by
  simp only [add, known]

theorem add_of_none {table : RelationshipTable} {key : RelationshipKey}
    (new : table.ids[key]? = none) :
    table.add key = (Registry.identifier table.next.toNat,
      { ids := table.ids.insert key (Registry.identifier table.next.toNat)
        order := table.order.push key
        next := table.next + 1 }) := by
  simp only [add, new]

end RelationshipTable

end WordPackage
