import WordPackage.Storage.Tree

/-!
# Sources of resources

An embedded image is registered as a source, and its bytes are read when the
package is written. A source may hold its bytes, name a file, or be a promise of
bytes that someone else keeps or breaks.
-/

namespace WordPackage

/-- Where the bytes of a resource come from. -/
inductive ResourceSource where
  | held (bytes : ByteArray)
  | file (path : String)
  /-- A promise, named by a label, and what becomes of it when it is called in. -/
  | promised (label : String) (outcome : Except Storage.Fault ByteArray)

namespace ResourceSource

instance : Inhabited ResourceSource := ⟨.held .empty⟩

/-- The bytes of a source, given the files there are. -/
def read (tree : Storage.Tree) : ResourceSource → Except Storage.Fault ByteArray
  | .held bytes => .ok bytes
  | .file path => tree.fileBytes ⟨path⟩
  | .promised _ outcome => outcome

/-- The label of a promise. -/
def label? : ResourceSource → Option String
  | .promised label _ => some label
  | _ => none

end ResourceSource

end WordPackage
