/-!
# AvroSwagger.Files.Error

**Why a file cannot be read or written.**
-/

namespace AvroSwagger.Files

/-- The causes for which an operation on files fails. -/
inductive FileError where
  | notFound
  | alreadyExists
  | notADirectory
  | isADirectory
  | nameTooLong
  /-- A file that is read as text holds bytes that are none. -/
  | notText
  /-- A path with a null character in it. -/
  | nullInPath
  /-- Any other cause, in the system's words. -/
  | other (text : String)
  deriving DecidableEq

namespace FileError

/-- The system's number for a cause, the name of its kind and its words. -/
def system? : FileError → Option (Nat × String × String)
  | .notFound => some (2, "NotFound", "No such file or directory")
  | .alreadyExists => some (17, "AlreadyExists", "File exists")
  | .notADirectory => some (20, "NotADirectory", "Not a directory")
  | .isADirectory => some (21, "IsADirectory", "Is a directory")
  | .nameTooLong => some (36, "InvalidFilename", "File name too long")
  | .notText => none
  | .nullInPath => none
  | .other _ => none

/-- The words for a cause that the system has no number for. -/
def plainText : FileError → String
  | .notText => "stream did not contain valid UTF-8"
  | .nullInPath => "file name contained an unexpected NUL byte"
  | .other text => text
  | _ => ""

/-- The cause in words. -/
def message (e : FileError) : String :=
  match e.system? with
  | some (number, _, text) => text ++ " (os error " ++ toString number ++ ")"
  | none => e.plainText

end FileError

end AvroSwagger.Files
