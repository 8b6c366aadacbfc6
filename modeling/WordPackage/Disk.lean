import WordPackage.Draft.Writing
import WordPackage.Package
import WordPackage.Settings
import WordPackage.Storage.Tree

/-!
# Packages and settings on disk

Settings are kept in a file of indented JSON. A missing file, and a file whose
text is no settings, stand for the default settings. A package is written to a
file together with the directories above it. What was written before a failure
stays as an archive of the entries up to there.
-/

namespace WordPackage

open Storage

/-- The settings of a file. -/
def Settings.load (tree : Tree) (path : String) : Except Failure Settings :=
  if tree.hasNode ⟨path⟩ then
    match tree.fileBytes ⟨path⟩ with
    | .error fault => .error (.storage fault)
    | .ok bytes =>
        match String.fromUTF8? bytes with
        | none => .error (.storage .notText)
        | some text =>
            match Settings.ofJson text with
            | .ok settings => .ok settings
            | .error _ => .ok {}
  else .ok {}

/-- Keep settings in a file, making the directories above it. -/
def Settings.save (settings : Settings) (path : String) : Action Unit := do
  if let some parent := Path.parent? ⟨path⟩ then
    makeDirectories parent
  writeFile ⟨path⟩ settings.toJson.indented.toUTF8

/-- Write a draft to a file at an instant. The file is emptied before the first
source is read. -/
def Draft.writeTo (draft : Draft) (now : Instant) (path : String) : Action Written := do
  if let some parent := Path.parent? ⟨path⟩ then
    if parent.text ≠ "" && !(← get).hasNode parent then
      makeDirectories parent
  writeFile ⟨path⟩ .empty
  let written := draft.write now (← get) .unrestricted
  writeFile ⟨path⟩ (Archive.toBytes written.entries)
  return written

/-- Open the package of a file. -/
def Package.openFile (tree : Tree) (path : String) : Except Failure Package :=
  match tree.find ⟨path⟩ with
  | .error .notFound => .error (.storage (.missingFile path))
  | .error fault => .error (.storage fault)
  | .ok .directory => .error (.archive .unreadable)
  | .ok (.file bytes) => Package.ofBytes bytes

end WordPackage
