import AvroSwagger.Generation.Paths
import AvroSwagger.Json.Merge

/-!
# AvroSwagger.Generation.Document

**The published document: defaults, generated parts, and the template on top.**
-/

namespace AvroSwagger

open Swagger

/-- A document with a template laid over it.  The template is an object, or `null` for
none. -/
def assemble (document : Document) (template : Json) : Except GenerationError Json :=
  match template with
  | .null => .ok document.toJson
  | .obj members => .ok (document.toJson.merge (.obj members))
  | other => .error (.templateNotObject other)

/-- **The document of all routes.**  Faults of the paths come before faults of the
definitions, and those before a template of the wrong kind. -/
def generateDocument (template : Json) (routes : RouteMap) (policy : CollisionPolicy) :
    Except GenerationError Json := do
  let paths ← generatePaths routes
  let definitions ← generateDefinitions routes policy
  assemble (Document.around paths definitions) template

end AvroSwagger
