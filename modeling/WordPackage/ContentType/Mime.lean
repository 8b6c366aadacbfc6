import WordPackage.Assignments
import WordPackage.Text.Segments
import WordPackage.Vocabulary

/-!
# Content types by extension

A lookup says which content type files of an extension have. The standard
lookup knows the common extensions, in any ASCII case, and takes further ones.
-/

namespace WordPackage

/-- Says which content type an extension has, if it knows the extension. -/
abbrev MimeLookup := String → Option String

/-- The content types of the common extensions, which are given in small letters. -/
def builtinMimeType (extension : String) : Option String :=
  match extension with
  | "png" => some "image/png"
  | "gif" => some "image/gif"
  | "jpg" | "jpeg" | "jpe" => some "image/jpeg"
  | "svg" => some "image/svg+xml"
  | "bmp" => some "image/bmp"
  | "tif" | "tiff" => some "image/tiff"
  | "webp" => some "image/webp"
  | "ico" => some "image/vnd.microsoft.icon"
  | "emf" => some "image/x-emf"
  | "wmf" => some "image/x-wmf"
  | "xml" => some "application/xml"
  | "rels" => some ContentType.relationships
  | "odttf" => some ContentType.obfuscatedFont
  | "ttf" => some "font/ttf"
  | "otf" => some "font/otf"
  | "woff" => some "font/woff"
  | "woff2" => some "font/woff2"
  | "txt" => some "text/plain"
  | "css" => some "text/css"
  | "htm" | "html" => some "text/html"
  | _ => none

/-- The common extensions and those added to them. -/
structure MimeTable where
  /-- Content types of added extensions in small letters. They precede the common ones. -/
  added : Assignments String String := []
  deriving DecidableEq, Repr

namespace MimeTable

/-- Add an extension, or replace its content type. -/
def withType (table : MimeTable) (extension contentType : String) : MimeTable :=
  { added := table.added.set (Text.foldAscii extension) contentType }

/-- The lookup of a table. -/
def lookup (table : MimeTable) : MimeLookup := fun extension =>
  let folded := Text.foldAscii extension
  (table.added.get? folded).or (builtinMimeType folded)

end MimeTable

/-- The extension of a name: what stands after its last dot. A name without a
dot counts as a whole, so that a lookup simply does not know it. -/
def extensionOf (name : String) : String :=
  (Text.afterLast? '.' name).getD name

end WordPackage
