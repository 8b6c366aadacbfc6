/-!
# Width in bytes

Positions in a document and the ends of a text are counted in bytes of UTF-8,
although texts are read character by character.
-/

namespace WordPackage.Text

/-- Number of bytes that characters take in UTF-8. -/
def width : List Char → Nat
  | [] => 0
  | char :: rest => char.utf8Size + width rest

end WordPackage.Text
