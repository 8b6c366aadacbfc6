import WordPackage.Storage.Fault
import WordPackage.Assignments
import WordPackage.Text.Segments

/-!
# Trees of files

The files and directories below a working directory, and the operations on them
that packages and settings need. A path is followed segment by segment, and each
segment must lead from an existing directory. An operation that fails keeps what
it changed before it failed.
-/

namespace WordPackage.Storage

/-- What stands at a place in a tree. -/
inductive Node where
  | directory
  | file (bytes : ByteArray)

/-- Files and directories by the names that lead to them from the working
directory, which is not listed. -/
structure Tree where
  /-- The places in the order in which they came into being. -/
  nodes : Assignments (List String) Node := []

/-- A path as it is followed. -/
structure Path where
  text : String
  deriving DecidableEq, Repr

namespace Path

/-- The segments to follow, without empty ones. -/
def segments (path : Path) : List String :=
  (Text.segments '/' path.text).filter (· ≠ "")

/-- Whether a path ends with a slash, so that it can only be a directory. -/
def onlyDirectory (path : Path) : Bool :=
  path.text.toList.getLast? = some '/'

/-- Why a path is not followed at all, whatever there is. -/
def refusal? (path : Path) : Option Fault :=
  if path.text = "" then some .notFound
  else if '\x00' ∈ path.text.toList then some .zeroInPath
  else if 4096 ≤ path.text.utf8ByteSize then some .nameTooLong
  else none

/-- The path of the directory that holds what a path leads to; none for a path
that has no segment. Segments at the end that stay in place are passed over. -/
def parent? (path : Path) : Option Path :=
  let staysInPlace (segment : String) : Bool := segment = "" || segment = "."
  match (Text.segments '/' path.text).reverse.dropWhile staysInPlace with
  | [] => if path.segments.isEmpty then none else some ⟨""⟩
  | _ :: before => some ⟨Text.joinSegments '/' (before.dropWhile staysInPlace).reverse⟩

end Path

namespace Tree

/-- What stands at a place. -/
def node? (tree : Tree) : List String → Option Node
  | [] => some .directory
  | place => tree.nodes.get? place

/-- Follow one segment from a place. -/
def follow (tree : Tree) (place : List String) (segment : String) :
    Except Fault (List String) :=
  match tree.node? place with
  | none => .error .notFound
  | some (.file _) => .error .notDirectory
  | some .directory =>
      if segment = "." then .ok place
      else if segment = ".." then .ok place.dropLast
      else if 255 < segment.utf8ByteSize then .error .nameTooLong
      else .ok (place ++ [segment])

/-- The place that a path leads to, whether or not something stands there. -/
def locate (tree : Tree) (path : Path) : Except Fault (List String) :=
  match path.refusal? with
  | some fault => .error fault
  | none => path.segments.foldlM tree.follow []

/-- The directory from which a path takes its last segment. -/
def locateDirectory (tree : Tree) (path : Path) : Except Fault (List String) :=
  match path.refusal? with
  | some fault => .error fault
  | none => do
      let place ← path.segments.dropLast.foldlM tree.follow []
      tree.follow place "."

/-- What stands where a path leads to. -/
def find (tree : Tree) (path : Path) : Except Fault Node := do
  let place ← tree.locate path
  match tree.node? place with
  | none => throw .notFound
  | some .directory => return .directory
  | some (.file bytes) => if path.onlyDirectory then throw .notDirectory else return .file bytes

/-- Whether something stands where a path leads to. -/
def hasNode (tree : Tree) (path : Path) : Bool :=
  match tree.find path with
  | .ok _ => true
  | .error _ => false

/-- Whether a path leads to a directory. -/
def hasDirectory (tree : Tree) (path : Path) : Bool :=
  match tree.find path with
  | .ok .directory => true
  | _ => false

/-- The bytes of the file that a path leads to. -/
def fileBytes (tree : Tree) (path : Path) : Except Fault ByteArray := do
  match ← tree.find path with
  | .directory => throw .isDirectory
  | .file bytes => return bytes

/-- The tree after the file that a path leads to is written, anew or again. A path
that can only be a directory is none to write to, whatever its last segment. -/
def writeFile (tree : Tree) (path : Path) (bytes : ByteArray) : Except Fault Tree :=
  if path.onlyDirectory then do
    let _ ← tree.locateDirectory path
    throw .isDirectory
  else do
    let place ← tree.locate path
    match tree.node? place with
    | some .directory => throw .isDirectory
    | _ => return { nodes := tree.nodes.set place (.file bytes) }

/-- The tree after a directory is made where a path leads to. -/
def makeDirectory (tree : Tree) (path : Path) : Except Fault Tree := do
  let place ← tree.locate path
  match tree.node? place with
  | some _ => throw .alreadyExists
  | none => return { nodes := tree.nodes.set place .directory }

end Tree

/-- An operation on a tree that may fail. What it changed stays changed. -/
abbrev Action (α : Type) := ExceptT Fault (StateM Tree) α

/-- Perform a step that changes the tree unless it fails. -/
def Action.change (step : Tree → Except Fault Tree) : Action Unit := do
  match step (← get) with
  | .ok tree => set tree
  | .error fault => throw fault

/-- Make a directory, unless it is there, after all that is missing above it. The
first argument bounds the number of directories above. -/
def makeDirectoriesUpTo : Nat → Path → Action Unit
  | 0, _ => return
  | bound + 1, path => do
      if path.segments.isEmpty then return
      match (← get).makeDirectory path with
      | .ok tree => set tree
      | .error .notFound =>
          match path.parent? with
          | none => return
          | some parent =>
              makeDirectoriesUpTo bound parent
              match (← get).makeDirectory path with
              | .ok tree => set tree
              | .error fault => if (← get).hasDirectory path then return else throw fault
      | .error fault => if (← get).hasDirectory path then return else throw fault

/-- Make a directory, unless it is there, after all that is missing above it. -/
def makeDirectories (path : Path) : Action Unit :=
  makeDirectoriesUpTo (path.segments.length + 1) path

/-- Write a file. -/
def writeFile (path : Path) (bytes : ByteArray) : Action Unit :=
  Action.change fun tree => tree.writeFile path bytes

end WordPackage.Storage
