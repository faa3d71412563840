import AvroSwagger.Files.Error
import AvroSwagger.Generation.Error
import AvroSwagger.Manifest
import AvroSwagger.Text.Quoted

/-!
# AvroSwagger.Publication.Error

**Why nothing is published.**
-/

namespace AvroSwagger

open AvroSwagger.Files (FileError)

/-- The causes for which a publication fails. -/
inductive PublicationError where
  | manifestUnreadable (path : String) (cause : FileError)
  | schemaUnreadable (path : String) (cause : FileError)
  /-- The manifest's text does not read as a manifest. -/
  | badManifest (form : DocumentFormat)
  | generation (cause : GenerationError)
  /-- The document has no text in YAML. -/
  | noText
  /-- The output cannot be written. -/
  | output (cause : FileError)

/-- What an unreadable file is for, where it is and why it cannot be read. -/
def describeUnreadable (purpose path : String) (cause : FileError) : String :=
  "Failed to read " ++ purpose ++ " " ++ Text.quoted path ++ ": " ++ cause.message

/-- The cause in words.  The texts about bad manifests, missing texts and output files are left
to their libraries and to the system. -/
def PublicationError.message : PublicationError → String
  | .manifestUnreadable path cause =>
    "General Error: " ++ describeUnreadable "manifest" path cause
  | .schemaUnreadable path cause => "General Error: " ++ describeUnreadable "schema" path cause
  | .badManifest .json => "JSON Error"
  | .badManifest .yaml => "YAML Error"
  | .generation cause => cause.message
  | .noText => "YAML Error"
  | .output cause => cause.message

end AvroSwagger
