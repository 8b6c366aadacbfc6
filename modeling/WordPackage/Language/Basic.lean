/-!
# Languages of a document

Language tags come in many spellings. A canonicalizer recognizes a tag and gives
its canonical code, and knows which codes have a code of two letters.
-/

namespace WordPackage

/-- How language tags are recognized. -/
structure LanguageCanonicalizer where
  canonicalize : String → Option String
  twoLetterCode : String → Option String

namespace LanguageCanonicalizer

/-- The language written for a tag: the code of two letters, else the canonical
code, else the tag itself. -/
def languageValue (canonicalizer : LanguageCanonicalizer) (tag : String) : String :=
  match canonicalizer.canonicalize tag with
  | some code => (canonicalizer.twoLetterCode code).getD code
  | none => tag

end LanguageCanonicalizer

end WordPackage
