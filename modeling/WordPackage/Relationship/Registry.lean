import WordPackage.Vocabulary

/-!
# Relationships and their registry

A part that refers to others keeps a registry of its relationships. A
relationship is determined by its target, type and mode. The registry numbers
the distinct ones from 1 in the order of first registration, so that a
relationship registered again has the identifier it had before. Its numbers go on
without end. `RelationshipTable` counts in 32 bits and starts over from 0.
-/

namespace WordPackage

/-- Whether a target is an entry of the package or a resource outside it. -/
inductive TargetMode where
  | internal
  | external
  deriving DecidableEq, Repr

def TargetMode.name : TargetMode → String
  | .internal => "Internal"
  | .external => "External"

/-- What determines a relationship within one part. -/
structure RelationshipKey where
  /-- The target: a path relative to the part's directory, or an address. -/
  target : String
  kind : String
  mode : TargetMode := .internal
  deriving DecidableEq, Repr

/-- A relationship as a relationship part lists it. -/
structure Relationship where
  id : String
  kind : String
  target : String
  mode : TargetMode
  deriving DecidableEq, Repr

/-- The relationships of one part. -/
structure Registry where
  /-- The distinct keys, in the order of first registration. -/
  keys : List RelationshipKey := []
  deriving DecidableEq, Repr

namespace Registry

/-- The identifier with a number. -/
def identifier (number : Nat) : String :=
  "rId" ++ toString number

def empty : Registry := {}

/-- The identifier of a key that is registered. -/
def get? (registry : Registry) (key : RelationshipKey) : Option String :=
  if key ∈ registry.keys then some (identifier (registry.keys.idxOf key + 1)) else none

/-- The registry after a key is registered. -/
def register (registry : Registry) (key : RelationshipKey) : Registry :=
  if key ∈ registry.keys then registry else { keys := registry.keys ++ [key] }

/-- Register a key, and give its identifier: the one it has, or the next one. -/
def add (registry : Registry) (key : RelationshipKey) : String × Registry :=
  (identifier (registry.keys.idxOf key + 1), registry.register key)

def addImage (registry : Registry) (target : String) : String × Registry :=
  registry.add { target, kind := RelationshipType.image }

def addFont (registry : Registry) (target : String) : String × Registry :=
  registry.add { target, kind := RelationshipType.font }

def registerAll (registry : Registry) (keys : List RelationshipKey) : Registry :=
  keys.foldl register registry

/-- The registry of the main document: styles, web settings and font table come first. -/
def document : Registry :=
  empty.registerAll [
    { target := "styles.xml", kind := RelationshipType.styles },
    { target := "webSettings.xml", kind := RelationshipType.webSettings },
    { target := "fontTable.xml", kind := RelationshipType.fontTable }]

/-- The registry of the package itself. -/
def package : Registry :=
  empty.registerAll [
    { target := "word/document.xml", kind := RelationshipType.document },
    { target := "docProps/core.xml", kind := RelationshipType.coreProperties },
    { target := "docProps/app.xml", kind := RelationshipType.extendedProperties }]

/-- The identifiers with their keys, in the order of registration. -/
def entries (registry : Registry) : List (String × RelationshipKey) :=
  registry.keys.zipIdx.map fun (key, position) => (identifier (position + 1), key)

/-- The relationships in the order of registration. -/
def relationships (registry : Registry) : List Relationship :=
  registry.entries.map fun (id, key) =>
    { id, kind := key.kind, target := key.target, mode := key.mode }

theorem mem_keys_register (registry : Registry) (key : RelationshipKey) :
    key ∈ (registry.register key).keys := by
  by_cases known : key ∈ registry.keys <;> simp [register, known]

@[simp] theorem register_of_mem {registry : Registry} {key : RelationshipKey}
    (known : key ∈ registry.keys) : registry.register key = registry := by
  simp [register, known]

end Registry

end WordPackage
