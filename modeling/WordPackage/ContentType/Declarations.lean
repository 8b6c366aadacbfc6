import WordPackage.ContentType.Mime
import WordPackage.Markup.Layout

/-!
# Declarations of content types

The manifest of a package declares content types in two ways: overrides name
one part each, defaults hold for an extension. Declarations are collected so
that no part and no extension, whatever its ASCII case, is declared twice. An
extension that was looked up in vain is not looked up again.
-/

namespace WordPackage

/-- One declaration of the manifest. -/
inductive Declaration where
  | default (extension contentType : String)
  | override (partName contentType : String)
  deriving DecidableEq, Repr

/-- Extensions that every package declares with the content type of the lookup. -/
def guessedExtensions : List String :=
  ["png", "gif", "jpeg", "jpg", "svg", "xml"]

/-- Extensions that every package declares with a fixed content type. -/
def fixedDefaults : List (String × String) :=
  [("rels", ContentType.relationships), ("odttf", ContentType.obfuscatedFont)]

/-- The name of a part as the manifest writes it, with a leading slash. -/
def rooted (path : String) : String :=
  if path.toList.head? = some '/' then path else "/" ++ path

/-- The declarations collected for a manifest. -/
structure Declarations where
  defaults : List (String × String) := []
  overrides : Assignments String String := []
  /-- The extensions considered so far, in small letters. -/
  considered : List String := []
  deriving DecidableEq, Repr

namespace Declarations

/-- Declare the content type of a part, replacing an earlier one. -/
def addOverride (declarations : Declarations) (partName contentType : String) : Declarations :=
  { declarations with overrides := declarations.overrides.set (rooted partName) contentType }

/-- Whether an extension was considered already. -/
def hasConsidered (declarations : Declarations) (extension : String) : Bool :=
  Text.foldAscii extension ∈ declarations.considered

/-- Note that an extension was considered. -/
def consider (declarations : Declarations) (extension : String) : Declarations :=
  { declarations with considered := Text.foldAscii extension :: declarations.considered }

/-- Declare the content type of an extension unless it was considered already.
The flag says whether a declaration was added. -/
def addDefault (declarations : Declarations) (extension contentType : String) :
    Bool × Declarations :=
  if declarations.hasConsidered extension then (false, declarations)
  else
    (true,
      { declarations.consider extension with
        defaults := declarations.defaults ++ [(extension, contentType)] })

/-- Declare the content type that a lookup gives for an extension. -/
def addExtension (declarations : Declarations) (extension : String) (mime : MimeLookup) :
    Bool × Declarations :=
  if declarations.hasConsidered extension then (false, declarations)
  else
    match mime extension with
    | some contentType => declarations.addDefault extension contentType
    | none => (false, declarations.consider extension)

/-- Declare the content type of the extension of a resource. -/
def addResource (declarations : Declarations) (name : String) (mime : MimeLookup) :
    Bool × Declarations :=
  declarations.addExtension (extensionOf name) mime

/-- The declarations of a package with the given parts and resources. -/
def forPackage (parts : List (String × String)) (resources : List String) (mime : MimeLookup) :
    Declarations :=
  let withParts := parts.foldl
    (fun declarations part => declarations.addOverride part.1 part.2) ({} : Declarations)
  let withGuessed := guessedExtensions.foldl
    (fun declarations extension => (declarations.addExtension extension mime).2) withParts
  let withFixed := fixedDefaults.foldl
    (fun declarations fixed => (declarations.addDefault fixed.1 fixed.2).2) withGuessed
  resources.foldl (fun declarations name => (declarations.addResource name mime).2) withFixed

/-- All declarations, defaults first. -/
def entries (declarations : Declarations) : List Declaration :=
  (declarations.defaults.map fun pair => .default pair.1 pair.2)
    ++ declarations.overrides.map fun pair => .override pair.1 pair.2

end Declarations

/-- The element of a declaration. -/
def Declaration.element : Declaration → Markup.Element
  | .default extension contentType =>
      .withAttributes "Default" [("Extension", extension), ("ContentType", contentType)]
  | .override partName contentType =>
      .withAttributes "Override" [("PartName", partName), ("ContentType", contentType)]

/-- The root element of the manifest. -/
def Declarations.element (declarations : Declarations) : Markup.Element :=
  { Markup.Element.withAttributes "Types" [("xmlns", Namespace.contentTypes)] with
    children := declarations.entries.map Declaration.element }

/-- The manifest as a part. -/
def Declarations.part (declarations : Declarations) (layout : Markup.Layout) : String :=
  declarations.element.document layout

end WordPackage
