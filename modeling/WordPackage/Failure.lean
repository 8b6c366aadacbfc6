import WordPackage.Archive.Fault
import WordPackage.Markup.Fault
import WordPackage.Storage.Fault
import WordPackage.Text.Encoding
import WordPackage.Text.Quoted

/-!
# Failures

Why an operation on a package fails. A failure names its cause; the wording is
in one function.
-/

namespace WordPackage

/-- A defect of what a package is asked to hold or found to hold. -/
inductive Defect where
  | relationshipWithout (key : String)
  | malformedTarget (target : String)
  | reservedTarget (target : String)
  | targetOfFont (target : String)
  | targetOfImage (target : String)
  deriving DecidableEq, Repr

def Defect.message : Defect → String
  | .relationshipWithout key => "Relationship missing " ++ key
  | .malformedTarget target => "invalid resource target: " ++ Text.quote target
  | .reservedTarget target => "resource target " ++ target ++ " collides with a package part"
  | .targetOfFont target => "image target " ++ target ++ " is already registered as a font"
  | .targetOfImage target => "font target " ++ target ++ " is already registered as an image"

/-- Why an operation on a package fails. -/
inductive Failure where
  | storage (fault : Storage.Fault)
  | archive (fault : Archive.Fault)
  | unreadResource (name : String) (fault : Storage.Fault)
  | unwrittenEntry (entry : String) (fault : Storage.Fault)
  | markup (fault : Markup.Fault)
  | missingPart (path : String)
  | defective (defect : Defect)
  | encoding (fault : Text.EncodingFault)
  deriving DecidableEq, Repr

def Failure.message : Failure → String
  | .storage fault => "IO error: " ++ fault.message
  | .archive fault => "ZIP error: " ++ fault.message
  | .unreadResource name fault => "Failed to read resource " ++ name ++ ": " ++ fault.message
  | .unwrittenEntry entry fault => "Failed to write entry " ++ entry ++ ": " ++ fault.message
  | .markup fault => "XML error: " ++ fault.message
  | .missingPart path => "Missing required part: " ++ path
  | .defective defect => "Invalid package structure: " ++ defect.message
  | .encoding fault => "UTF-8 encoding error: " ++ fault.message

end WordPackage
