/-!
# Faults of storage

Why bytes cannot be read from where they are kept or written to where they
belong: the file system refuses, or what is stored is damaged.
-/

namespace WordPackage.Storage

/-- A fault of reading or writing bytes. -/
inductive Fault where
  | notFound
  | alreadyExists
  | notDirectory
  | isDirectory
  | nameTooLong
  | zeroInPath
  | notText
  | missingFile (path : String)
  | checksum
  | damagedStream
  | cutStream
  | other (description : String)
  deriving DecidableEq, Repr

def Fault.message : Fault → String
  | .notFound => "No such file or directory (os error 2)"
  | .alreadyExists => "File exists (os error 17)"
  | .notDirectory => "Not a directory (os error 20)"
  | .isDirectory => "Is a directory (os error 21)"
  | .nameTooLong => "File name too long (os error 36)"
  | .zeroInPath => "file name contained an unexpected NUL byte"
  | .notText => "stream did not contain valid UTF-8"
  | .missingFile path => "File not found: " ++ path
  | .checksum => "Invalid checksum"
  | .damagedStream => "corrupt deflate stream"
  | .cutStream => "incomplete deflate stream"
  | .other description => description

end WordPackage.Storage
