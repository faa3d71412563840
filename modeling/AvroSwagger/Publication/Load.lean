import AvroSwagger.Files.Access
import AvroSwagger.Generation.Collector
import AvroSwagger.Publication.Error
import AvroSwagger.Schema.Resolve

/-!
# AvroSwagger.Publication.Load

**Reading a manifest and every schema it names.**

Schemas are read in the order of the routes, and the first that fails ends the
loading.  Files are named from the directory of the manifest.  The identity
labels of the records run on from one route to the next.
-/

namespace AvroSwagger

open AvroSwagger.Files (FileAccess)

/-- A manifest with its template as a value and every schema read. -/
structure LoadedManifest where
  template : Json
  routes : RouteMap

variable {m : Type → Type} [Monad m]

/-- The schema of a route and the next free label. -/
def loadSchema (files : FileAccess m) (directory : String) (firstId : Nat) (source : RouteSource) :
    m (Except PublicationError (Schema × Nat)) := do
  match source with
  | .inline v =>
    return (Schema.ofJson firstId v).mapError fun e => .generation (.schema e)
  | .file name =>
    let path := Files.join directory name
    match ← files.readText path with
    | .error e => return .error (.schemaUnreadable path e)
    | .ok text => return (Schema.ofText firstId text).mapError fun e => .generation (.schema e)

/-- The schemas of routes, one after the other. -/
def loadRoutes (files : FileAccess m) (directory : String) (firstId : Nat) :
    List (String × RouteSource) → m (Except PublicationError (List (String × Schema)))
  | [] => return .ok []
  | (route, source) :: rest => do
    match ← loadSchema files directory firstId source with
    | .error e => return .error e
    | .ok (schema, nextId) =>
      match ← loadRoutes files directory nextId rest with
      | .error e => return .error e
      | .ok routes => return .ok ((route, schema) :: routes)

/-- **Loads a manifest.** -/
def loadManifest (yaml : YamlLibrary) (files : FileAccess m) (path : String) :
    m (Except PublicationError LoadedManifest) := do
  match ← files.readText path with
  | .error e => return .error (.manifestUnreadable path e)
  | .ok text =>
    let form := DocumentFormat.ofPath path
    match Manifest.parse? yaml form text with
    | none => return .error (.badManifest form)
    | some manifest =>
      match ← loadRoutes files ((Files.parent? path).getD ".") 0 manifest.routes with
      | .error e => return .error e
      | .ok routes => return .ok ⟨manifest.template.toJson, routes⟩

end AvroSwagger
