import AvroSwagger.Files.Path
import AvroSwagger.Json.Reader
import AvroSwagger.Swagger.Template

/-!
# AvroSwagger.Manifest

**The file that names what to publish: a template and a schema for each route.**

A manifest is written in YAML when its name ends in `.yaml` or `.yml`, else in
JSON.  A route bound to a string names a file with a schema; bound to anything
else it holds the schema itself.  The template may be missing, the routes may
not, and neither may be given twice.

JSON is read here.  YAML is left to a library, and whatever reads a manifest
takes that library as an argument.
-/

namespace AvroSwagger

open Swagger
open AvroSwagger.Json (Source)

/-- Where the schema of a route comes from. -/
inductive RouteSource where
  /-- A file, by its path from the manifest's directory. -/
  | file (path : String)
  /-- The schema itself. -/
  | inline (schema : Json)

/-- A manifest as written. -/
structure Manifest where
  template : Template
  routes : OrderedMap RouteSource

/-- The two notations of a document. -/
inductive DocumentFormat where
  | json
  | yaml
  deriving DecidableEq

/-- **The notation that a path's extension stands for.** -/
def DocumentFormat.ofPath (path : String) : DocumentFormat :=
  if Files.extension path = "yaml" ∨ Files.extension path = "yml" then .yaml else .json

/-- A route is bound to a file by a string and to a schema by any other value. -/
def RouteSource.ofJson : Json → RouteSource
  | .str path => .file path
  | v => .inline v

/-! ## §1. Manifests in JSON. -/

/-- Reads a manifest. -/
def Manifest.ofSource? (s : Source) : Option Manifest := do
  match ← Source.parts? ["template", "routes"] s with
  | [template, routes] =>
    let template ← match template with
      | none => some Template.empty
      | some t => Template.ofSource? t
    let routes ← Source.required? (Source.mapOf? Source.toJson?) routes
    some ⟨template, routes.map fun (route, v) => (route, RouteSource.ofJson v)⟩
  | _ => none

/-! ## §2. Manifests as texts. -/

/-- **A library of YAML**, as far as the program calls one: it decodes manifests, and it writes
values.  A text may be no manifest, and a value may have no text. -/
structure YamlLibrary where
  manifest? : String → Option Manifest
  text? : Json → Option String

/-- **The manifest of a text** in the given notation. -/
def Manifest.parse? (yaml : YamlLibrary) (form : DocumentFormat) (text : String) :
    Option Manifest :=
  match form with
  | .json => (Source.parse? text).bind Manifest.ofSource?
  | .yaml => yaml.manifest? text

end AvroSwagger
