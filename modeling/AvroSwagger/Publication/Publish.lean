import AvroSwagger.Generation.Document
import AvroSwagger.Json.Printer
import AvroSwagger.Publication.Load

/-!
# AvroSwagger.Publication.Publish

**From a manifest to a written document.**

Everything that can fail before the output is touched comes first: loading,
then generation, then rendering; the one write is the last step.
-/

namespace AvroSwagger

open AvroSwagger.Files (FileAccess)

/-- The text of a document: indented JSON, or what the library writes. -/
def render? (yaml : YamlLibrary) : DocumentFormat → Json → Option String
  | .json, document => some document.pretty
  | .yaml, document => yaml.text? document

/-- The form of a document: that of its file's extension, or JSON when there is no file. -/
def outputFormat (output : Option String) : DocumentFormat :=
  match output with
  | none => .json
  | some path => .ofPath path

variable {m : Type → Type} [Monad m]

/-- The document of a manifest. -/
def documentOf (yaml : YamlLibrary) (files : FileAccess m) (manifest : String)
    (policy : CollisionPolicy) : m (Except PublicationError Json) := do
  match ← loadManifest yaml files manifest with
  | .error e => return .error e
  | .ok loaded =>
    return (generateDocument loaded.template loaded.routes policy).mapError .generation

/-- **Publishes a manifest**: writes the document to a file, or gives back the text when there
is no file. -/
def publish (yaml : YamlLibrary) (files : FileAccess m) (manifest : String)
    (output : Option String) (policy : CollisionPolicy) :
    m (Except PublicationError (Option String)) := do
  match ← documentOf yaml files manifest policy with
  | .error e => return .error e
  | .ok document =>
    match render? yaml (outputFormat output) document with
    | none => return .error .noText
    | some text =>
      match output with
      | none => return .ok (some text)
      | some path =>
        match ← files.writeBelow path text.toUTF8 with
        | .error e => return .error (.output e)
        | .ok () => return .ok none

end AvroSwagger
