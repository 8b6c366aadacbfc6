import WordPackage.Markup.Fault
import WordPackage.Text.Width

/-!
# Attributes of a tag

The content of a tag is what stands between its angle brackets. It is a name,
then attributes. A faulty attribute is reported where it stands and reading
goes on behind it, so one tag may have good attributes before and after a fault.
Values are kept as written: entities are not resolved.
-/

namespace WordPackage.Markup

/-- The blanks of markup: space, tab, carriage return and line feed. -/
def isSpace (char : Char) : Bool :=
  char = ' ' || char = '\t' || char = '\r' || char = '\n'

/-- An attribute as it is read: its key and its value as written. -/
structure Attribute where
  key : String
  value : String
  deriving DecidableEq, Repr

namespace Attribute

/-- What is left of the content of a tag. -/
structure Remainder where
  position : Nat
  chars : List Char
  deriving DecidableEq, Repr

/-- What is left behind the first characters that are dropped. -/
def Remainder.dropWhile (drops : Char → Bool) (remainder : Remainder) : Remainder where
  position := remainder.position + Text.width (remainder.chars.takeWhile drops)
  chars := remainder.chars.dropWhile drops

/-- The first attribute, good or faulty, of what is left of a tag. -/
structure Found where
  outcome : Except AttributeFault Attribute
  /-- The keys read so far that were followed by an equals sign, and where each starts. -/
  seen : List (List Char × Nat)
  rest : Remainder

/-- Whether a character goes on with a key. -/
def isKeyChar (char : Char) : Bool :=
  char ≠ '=' && !isSpace char

/-- Whether a character stands before the next blank. -/
def isNotSpace (char : Char) : Bool :=
  !isSpace char

/-- Read the value of an attribute from behind its equals sign. -/
def findValue (seen : List (List Char × Nat)) (key : List Char) (afterEquals : Remainder) :
    Found :=
  let begun := afterEquals.dropWhile isSpace
  match begun.chars with
  | [] => ⟨.error (.missingValue begun.position), seen, begun⟩
  | mark :: rest =>
      if mark = '"' || mark = '\'' then
        let closing := Remainder.dropWhile (· != mark) ⟨begun.position + 1, rest⟩
        match closing.chars with
        | [] => ⟨.error (.missingQuote closing.position mark), seen, closing⟩
        | _ :: next =>
            ⟨.ok ⟨.ofList key, .ofList (rest.takeWhile (· != mark))⟩, seen,
              ⟨closing.position + 1, next⟩⟩
      else ⟨.error (.unquoted begun.position), seen, begun.dropWhile isNotSpace⟩

/-- Read the first attribute of what is left of a tag. A key is at least one
character long, whatever that character is. -/
def find (seen : List (List Char × Nat)) (remainder : Remainder) : Option Found :=
  let begun := remainder.dropWhile isSpace
  match begun.chars with
  | [] => none
  | first :: more =>
      let key := first :: more.takeWhile isKeyChar
      let keyTail : Remainder := ⟨begun.position + first.utf8Size, more⟩
      let behind := (keyTail.dropWhile isKeyChar).dropWhile isSpace
      match behind.chars with
      | '=' :: rest =>
          let afterEquals : Remainder := ⟨behind.position + 1, rest⟩
          match seen.lookup key with
          | some previous =>
              some ⟨.error (.duplicate begun.position previous), seen,
                afterEquals.dropWhile isNotSpace⟩
          | none => some (findValue ((key, begun.position) :: seen) key afterEquals)
      | _ => some ⟨.error (.missingEquals behind.position), seen, behind⟩

theorem length_dropWhile_le (drops : Char → Bool) (chars : List Char) :
    (chars.dropWhile drops).length ≤ chars.length :=
  (List.dropWhile_sublist drops).length_le

/-- Reading goes on no earlier than behind the equals sign. -/
theorem length_findValue_le (seen : List (List Char × Nat)) (key : List Char)
    (afterEquals : Remainder) :
    (findValue seen key afterEquals).rest.chars.length ≤ afterEquals.chars.length := by
  have blanks := length_dropWhile_le isSpace afterEquals.chars
  simp only [findValue, Remainder.dropWhile]
  split
  · rename_i ended
    simp [ended]
  · rename_i mark rest begun
    rw [begun, List.length_cons] at blanks
    split
    · have value := length_dropWhile_le (· != mark) rest
      split
      · rename_i ended
        simp [ended]
      · rename_i next closed
        rw [closed, List.length_cons] at value
        simp only
        omega
    · have skipped := length_dropWhile_le isNotSpace (mark :: rest)
      rw [List.length_cons] at skipped
      simp only [begun]
      omega

/-- Each attribute, good or faulty, takes at least one character. -/
theorem length_find_lt {seen : List (List Char × Nat)} {remainder : Remainder} {found : Found}
    (reads : find seen remainder = some found) :
    found.rest.chars.length < remainder.chars.length := by
  have blanks := length_dropWhile_le isSpace remainder.chars
  simp only [find, Remainder.dropWhile] at reads
  split at reads
  · simp at reads
  · rename_i first more begun
    rw [begun, List.length_cons] at blanks
    have keys := length_dropWhile_le isKeyChar more
    have gap := length_dropWhile_le isSpace (more.dropWhile isKeyChar)
    split at reads
    · rename_i rest behind
      rw [behind, List.length_cons] at gap
      split at reads
      · cases reads
        have skipped := length_dropWhile_le isNotSpace rest
        simp only
        omega
      · cases reads
        refine Nat.lt_of_le_of_lt (length_findValue_le _ _ _) ?_
        simp only
        omega
    · cases reads
      simp only
      omega

/-- The attributes, good and faulty, of what is left of a tag. -/
def collect (seen : List (List Char × Nat)) (remainder : Remainder) :
    List (Except AttributeFault Attribute) :=
  match _reads : find seen remainder with
  | none => []
  | some found => found.outcome :: collect found.seen found.rest
termination_by remainder.chars.length
decreasing_by exact length_find_lt _reads

end Attribute

/-- The content of a start tag or of an empty tag. -/
structure Tag where
  /-- What stands between the brackets, without the slash of an empty tag. -/
  content : List Char
  deriving DecidableEq, Repr

namespace Tag

/-- The name of a tag: what stands before the first blank, possibly nothing. -/
def name (tag : Tag) : List Char :=
  tag.content.takeWhile Attribute.isNotSpace

/-- The attributes of a tag, good and faulty, in order. -/
def attributes (tag : Tag) : List (Except AttributeFault Attribute) :=
  Attribute.collect [] (Attribute.Remainder.dropWhile Attribute.isNotSpace ⟨0, tag.content⟩)

/-- The value of the first good attribute with the given key. -/
def attribute? (tag : Tag) (key : String) : Option String :=
  tag.attributes.findSome? fun
    | .ok found => if found.key = key then some found.value else none
    | .error _ => none

/-- The first fault among the attributes. -/
def fault? (tag : Tag) : Option AttributeFault :=
  tag.attributes.findSome? fun
    | .ok _ => none
    | .error fault => some fault

end Tag

/-- Whether a name is the expected local name, with or without a qualifier before it. -/
def hasLocalName (name expected : List Char) : Bool :=
  name == expected || (':' :: expected).isSuffixOf name

/-- Whether a name given as bytes is the expected local name. Bytes that are no
UTF-8 stand for the empty name. -/
def bytesHaveLocalName (name : ByteArray) (expected : String) : Bool :=
  hasLocalName ((String.fromUTF8? name).getD "").toList expected.toList

/-- Whether a tag has the expected local name. -/
def Tag.isNamed (tag : Tag) (expected : String) : Bool :=
  hasLocalName tag.name expected.toList

end WordPackage.Markup
