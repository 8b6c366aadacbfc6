import WordPackage.Package

/-!
# Integrity of packages

A sound package has no reference that leads nowhere: internal relationships lead
to entries, identifiers are unique within a part, overrides name entries, every
entry has a content type, and no extension is declared twice. The targets of a
relationship part are relative to the directory that holds its `_rels` directory.
-/

namespace WordPackage

/-- A reference of a package that does not resolve, or resolves twice. -/
inductive Issue where
  | danglingRelationship (part id target : String)
  | duplicateRelationshipId (part id : String)
  | overrideWithoutPart (partName : String)
  | missingContentType (entry : String)
  | duplicateDefaultExtension (extension : String)
  deriving DecidableEq, Repr

def Issue.message : Issue → String
  | .danglingRelationship part id target =>
      part ++ ": relationship " ++ id ++ " targets missing entry " ++ target
  | .duplicateRelationshipId part id => part ++ ": duplicate relationship id " ++ id
  | .overrideWithoutPart partName => "override for missing part " ++ partName
  | .missingContentType entry => "no content type for " ++ entry
  | .duplicateDefaultExtension extension => "duplicate default for extension " ++ extension

/-- The directory that the targets of a relationship part are relative to, with
its slash: what stands before the last `_rels/` of the part's name. -/
def baseDirectory (part : String) : String :=
  .ofList ((Text.beforeLastMark "_rels/".toList part.toList).getD [])

/-- The segments passed so far, the last one first, after one more segment. -/
def passSegment (passed : List String) (segment : String) : List String :=
  if segment = "" ∨ segment = "." then passed
  else if segment = ".." then passed.drop 1
  else segment :: passed

/-- The name of the entry that a target leads to from a directory. A target with
a leading slash starts from the root, and nothing leads above the root. -/
def resolveTarget (base target : String) : String :=
  let joined :=
    if target.toList.head? = some '/' then String.ofList (target.toList.drop 1)
    else base ++ target
  Text.joinSegments '/' ((Text.segments '/' joined).foldl passSegment []).reverse

/-- The issues of the relationships of a part, given the identifiers that occurred
in it before and the entries of the package. -/
def relationshipIssues (part : String) (names : List String) :
    List String → List Relationship → List Issue
  | _, [] => []
  | seen, relationship :: later =>
      let target := resolveTarget (baseDirectory part) relationship.target
      (if relationship.id ∈ seen then [.duplicateRelationshipId part relationship.id] else [])
        ++ (if relationship.mode = .internal ∧ target ∉ names then
              [.danglingRelationship part relationship.id target] else [])
        ++ relationshipIssues part names (relationship.id :: seen) later

/-- The issues of a manifest, given the entries of the package. -/
def manifestIssues (manifest : Manifest) (names : List String) : List Issue :=
  manifest.duplicates.map .duplicateDefaultExtension
    ++ (((manifest.overrides.keys.mergeSort fun left right => left ≤ right).filter
          fun partName => Text.dropLeading '/' partName ∉ names).map .overrideWithoutPart)
    ++ (names.filter fun entry =>
          entry ≠ PartName.contentTypes && !Text.endsWith entry "/"
            && (manifest.contentTypeFor entry).isNone).map .missingContentType

namespace Package

/-- The names of the relationship parts in archive order. -/
def relationshipParts (package : Package) : List String :=
  package.names.filter fun name => Text.endsWith name ".rels"

/-- The issues of relationship parts, one after another. -/
def issuesOfParts (package : Package) : List String → Except Failure (List Issue)
  | [] => return []
  | part :: later => do
      let listed ← package.relationships part
      let rest ← package.issuesOfParts later
      return relationshipIssues part package.names [] listed ++ rest

/-- The issues of a package: those of its relationship parts in archive order,
then those of its manifest. A part that cannot be read is a failure. -/
def issues (package : Package) : Except Failure (List Issue) := do
  let ofParts ← package.issuesOfParts package.relationshipParts
  let manifest ← package.manifest
  return ofParts ++ manifestIssues manifest package.names

end Package

end WordPackage
