/-!
# Segments of a text

Cutting a text at a separator, and the small searches that go with it: what
stands after the last separator, what stands before the last occurrence of a
longer mark, and ASCII letter case.
-/

namespace WordPackage.Text

/-- The pieces of a text between the occurrences of a separator. A text with `n`
separators has `n + 1` pieces, some of them possibly empty. -/
def segments (separator : Char) (text : String) : List String :=
  (text.toList.splitOn separator).map .ofList

/-- The pieces joined again with the separator between them. -/
def joinSegments (separator : Char) (pieces : List String) : String :=
  .ofList ([separator].intercalate (pieces.map String.toList))

@[simp] theorem joinSegments_segments (separator : Char) (text : String) :
    joinSegments separator (segments separator text) = text := by
  have same : (String.toList ∘ String.ofList : List Char → List Char) = id := by
    funext chars
    exact String.toList_ofList
  rw [joinSegments, segments, List.map_map, same, List.map_id, List.intercalate_splitOn,
    String.ofList_toList]

/-- What stands after the last occurrence of a separator, if it occurs. -/
def afterLast? (separator : Char) (text : String) : Option String :=
  if separator ∈ text.toList then
    some (.ofList (text.toList.reverse.takeWhile (· != separator)).reverse)
  else
    none

/-- What stands before the last occurrence of a mark, if it occurs. -/
def beforeLastMark (mark : List Char) : List Char → Option (List Char)
  | [] => if mark = [] then some [] else none
  | char :: rest =>
      match beforeLastMark mark rest with
      | some front => some (char :: front)
      | none => if mark.isPrefixOf (char :: rest) then some [] else none

/-- A text without the given character at its start, however often it stands there. -/
def dropLeading (char : Char) (text : String) : String :=
  .ofList (text.toList.dropWhile (· == char))

@[simp] theorem toList_dropLeading (char : Char) (text : String) :
    (dropLeading char text).toList = text.toList.dropWhile (· == char) :=
  String.toList_ofList

/-- A text with the ASCII capitals replaced by small letters. -/
def foldAscii (text : String) : String :=
  .ofList (text.toList.map Char.toLower)

@[simp] theorem toList_foldAscii (text : String) :
    (foldAscii text).toList = text.toList.map Char.toLower :=
  String.toList_ofList

def endsWith (text ending : String) : Bool :=
  ending.toList.isSuffixOf text.toList

end WordPackage.Text
