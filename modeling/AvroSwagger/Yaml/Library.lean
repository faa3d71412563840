import AvroSwagger.Manifest
import AvroSwagger.Yaml.Value
import AvroSwagger.Yaml.Writer

/-!
# AvroSwagger.Yaml.Library

**Manifests and documents in YAML, as the program reads and writes them.**

The same parts are read as in JSON, with the meaning that nodes have at their
places.

Main definitions: `Manifest.ofNode?`, `Yaml.library`.
-/

namespace AvroSwagger

open Swagger
open AvroSwagger.Yaml (Node)

/-- The first node under a name. -/
def namedNode? (name : String) (members : List (String × Node)) : Option Node :=
  OrderedMap.find? members name

/-- Whether each of the names is written at most once. -/
def writtenOnce (names : List String) (members : List (String × Node)) : Bool :=
  names.all fun name => (members.countP fun m => m.1 == name) ≤ 1

/-- Reads a template. -/
def Swagger.Template.ofNode? (n : Node) : Option Template := do
  let members ← n.namedMembers?
  if !writtenOnce Template.knownKeys members then none
  let info ← Node.optional? Node.object? (namedNode? "info" members)
  let host ← Node.optional? Node.text? (namedNode? "host" members)
  let basePath ← Node.optional? Node.text? (namedNode? "basePath" members)
  let schemes ← Node.optional? (Node.listOf? Node.text?) (namedNode? "schemes" members)
  let others := members.filter fun m => !Template.knownKeys.contains m.1
  let extra ← others.mapM fun (key, v) => do
    let v ← v.toJson? true
    some (key, v)
  some ⟨info, host, basePath, schemes, OrderedMap.ofList extra⟩

/-- Reads the routes of a manifest. -/
def routesOfNode? (n : Node) : Option (OrderedMap RouteSource) := do
  let members ← n.namedMembers?
  let routes ← members.mapM fun (route, v) => do
    let v ← v.toJson? true
    some (route, RouteSource.ofJson v)
  some (OrderedMap.ofList routes)

/-- The names of a manifest's parts. -/
def manifestNames : List String := ["template", "routes"]

/-- The template and the routes of a manifest, given as a mapping or as a list of the two. -/
def manifestParts? : Node → Option (Option Node × Option Node)
  | .sequence [] _ => some (none, none)
  | .sequence [template] _ => some (some template, none)
  | .sequence [template, routes] _ => some (some template, some routes)
  | .sequence _ _ => none
  | n => do
    let members ← n.namedMembers?
    if !writtenOnce manifestNames members then none
    some (namedNode? "template" members, namedNode? "routes" members)

/-- Reads a manifest. -/
def Manifest.ofNode? (n : Node) : Option Manifest := do
  let (template, routes) ← manifestParts? n
  let template ← match template with
    | none => some Template.empty
    | some t => Template.ofNode? t
  let routes ← routesOfNode? (← routes)
  some ⟨template, routes⟩

/-- **The library that the program runs with.** -/
def Yaml.library : YamlLibrary where
  manifest? text := (Node.parse? manifestNames text).bind Manifest.ofNode?
  text? document := some (Yaml.document document)

end AvroSwagger
