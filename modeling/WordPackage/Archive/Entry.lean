/-!
# Entries of archives

An archive is a list of named entries. Each entry keeps its bytes as they are
or compressed, which changes nothing about the bytes that are read back.
-/

namespace WordPackage

/-- How the bytes of an entry are kept. -/
inductive Compression where
  | stored
  | deflated
  deriving DecidableEq, Repr

def Compression.name : Compression → String
  | .stored => "stored"
  | .deflated => "deflated"

namespace Archive

/-- An entry of an archive. -/
structure Entry where
  name : String
  data : ByteArray
  compression : Compression

end Archive

end WordPackage
