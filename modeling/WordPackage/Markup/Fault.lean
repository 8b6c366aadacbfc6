/-!
# Faults of markup

The ways in which a text fails to be a document, and in which the attributes of
a tag fail to be attributes. Positions count bytes from the name of the tag.
-/

namespace WordPackage.Markup

/-- A fault among the attributes of a tag. -/
inductive AttributeFault where
  /-- No equals sign follows the key that ends before the position. -/
  | missingEquals (position : Nat)
  /-- The key at the position stands in the tag already. -/
  | duplicate (position previous : Nat)
  /-- The value at the position has no quotation mark before it. -/
  | unquoted (position : Nat)
  | missingValue (position : Nat)
  /-- The value runs to the end of the tag without its closing quotation mark. -/
  | missingQuote (position : Nat) (mark : Char)
  deriving DecidableEq, Repr

def AttributeFault.message : AttributeFault → String
  | .missingEquals position =>
      "position " ++ toString position
        ++ ": attribute key must be directly followed by `=` or space"
  | .duplicate position previous =>
      "position " ++ toString position
        ++ ": duplicated attribute, previous declaration at position " ++ toString previous
  | .unquoted position =>
      "position " ++ toString position
        ++ ": attribute value must be enclosed in `\"` or `'`"
  | .missingValue position =>
      "position " ++ toString position ++ ": `=` must be followed by an attribute value"
  | .missingQuote position mark =>
      "position " ++ toString position ++ ": missing closing quote `" ++ mark.toString
        ++ "` in attribute value"

/-- A fault of a document. -/
inductive Fault where
  | unclosedTag
  | unclosedComment
  | unclosedCharacterData
  | unclosedDoctype
  | unclosedInstruction
  | unknownMarkup
  | mismatchedEnd (expected found : String)
  | unmatchedEnd (name : String)
  | namelessDoctype
  | attributes (fault : AttributeFault)
  deriving DecidableEq, Repr

def Fault.message : Fault → String
  | .unclosedTag => "syntax error: tag not closed: `>` not found before end of input"
  | .unclosedComment => "syntax error: comment not closed: `-->` not found before end of input"
  | .unclosedCharacterData =>
      "syntax error: CDATA not closed: `]]>` not found before end of input"
  | .unclosedDoctype => "syntax error: DOCTYPE not closed: `>` not found before end of input"
  | .unclosedInstruction =>
      "syntax error: processing instruction or xml declaration not closed: "
        ++ "`?>` not found before end of input"
  | .unknownMarkup => "syntax error: unknown or missed symbol in markup"
  | .mismatchedEnd expected found =>
      "ill-formed document: expected `</" ++ expected ++ ">`, but `</" ++ found ++ ">` was found"
  | .unmatchedEnd name =>
      "ill-formed document: close tag `</" ++ name ++ ">` does not match any open tag"
  | .namelessDoctype =>
      "ill-formed document: `<!DOCTYPE>` declaration does not contain a name of a document type"
  | .attributes fault => "Attribute error: " ++ fault.message

end WordPackage.Markup
