import WordPackage.Failure
import WordPackage.Part

/-!
# Targets of resources

An embedded resource is named by its target, a path below the word-processing
directory. Slashes at the start are ignored. A target with an empty segment or
with a segment that stays in place or leads upward is refused, and so is one
that names a part.
-/

namespace WordPackage

/-- A target that an embedded resource may have. -/
structure ResourceTarget where
  /-- The path relative to the word-processing directory, as relationships give it. -/
  target : String
  deriving DecidableEq, Repr

namespace ResourceTarget

/-- The name of the entry of a resource. -/
def path (resource : ResourceTarget) : String :=
  PartName.wordDirectory ++ resource.target

/-- Whether a segment leads nowhere or elsewhere. -/
def isImproper (segment : String) : Bool :=
  segment = "" || segment = "." || segment = ".."

/-- The target that is meant by a text. -/
def parse (given : String) : Except Failure ResourceTarget :=
  let resource : ResourceTarget := ⟨Text.dropLeading '/' given⟩
  if (Text.segments '/' resource.target).any isImproper then
    .error (.defective (.malformedTarget given))
  else if resource.path ∈ reservedNames then
    .error (.defective (.reservedTarget given))
  else .ok resource

end ResourceTarget

end WordPackage
