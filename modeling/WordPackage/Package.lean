import WordPackage.Archive.Entry
import WordPackage.Archive.Opened
import WordPackage.ContentType.Manifest
import WordPackage.Relationship.Part

/-!
# Packages

A package as it is read: the entries of an archive by name, in archive order. An
entry of an archive that was opened from bytes is read when it is asked for, and
may turn out to be unreadable then.
-/

namespace WordPackage

/-- What a package holds for an entry. -/
inductive Content where
  | plain (bytes : ByteArray)
  | archived (archive : ByteArray) (header : Archive.Header)

/-- The bytes that stand for a content. -/
def Content.read : Content → Except Failure ByteArray
  | .plain bytes => .ok bytes
  | .archived archive header =>
      match Archive.read archive header with
      | .ok bytes => .ok bytes
      | .error (.archive fault) => .error (.archive fault)
      | .error (.storage fault) => .error (.storage fault)

/-- A package that is open for reading. -/
structure Package where
  entries : Assignments String Content

namespace Package

/-- The package of an archive that was put together in memory. -/
def ofEntries (entries : List Archive.Entry) : Package where
  entries := .ofList (entries.map fun entry => (entry.name, .plain entry.data))

/-- Open a package from the bytes of its archive. Of several entries with one
name the last is meant, in the place of the first. -/
def ofBytes (bytes : ByteArray) : Except Failure Package :=
  match Archive.headers bytes with
  | .error fault => .error (.archive fault)
  | .ok headers =>
      .ok ⟨.ofList (headers.map fun header => (header.name, .archived bytes header))⟩

def names (package : Package) : List String :=
  package.entries.keys

def contains (package : Package) (path : String) : Bool :=
  path ∈ package.names

/-- The bytes of an entry. -/
def readBytes (package : Package) (path : String) : Except Failure ByteArray :=
  match package.entries.get? path with
  | none => .error (.missingPart path)
  | some content => content.read

/-- The text of an entry. -/
def readText (package : Package) (path : String) : Except Failure String := do
  let bytes ← package.readBytes path
  match Text.decode bytes with
  | .ok text => return text
  | .error fault => throw (.encoding fault)

/-- The relationships that a part lists. -/
def relationships (package : Package) (path : String) : Except Failure (List Relationship) := do
  Relationship.parse (← package.readText path)

def manifest (package : Package) : Except Failure Manifest := do
  Manifest.parse (← package.readText PartName.contentTypes)

end Package

end WordPackage
