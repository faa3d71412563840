import AvroSwagger.Swagger.Operation

/-!
# AvroSwagger.Swagger.Document

**A Swagger 2.0 document before any template is laid over it.**
-/

namespace AvroSwagger.Swagger

open AvroSwagger.Json (Source)
open SchemaObject (stringList)

/-- Path items by path. -/
abbrev Paths : Type := OrderedMap PathItem

/-- Schema fragments by definition name. -/
abbrev Definitions : Type := OrderedMap SchemaObject

/-- A document. -/
structure Document where
  swagger : String
  info : OrderedMap Json
  host : String
  basePath : String
  schemes : List String
  consumes : List String
  produces : List String
  paths : Paths
  definitions : Definitions

namespace Document

/-- The document around generated paths and definitions: version 2.0, no information about
the service, secure transport, JSON in and out. -/
def around (paths : Paths) (definitions : Definitions) : Document where
  swagger := "2.0"
  info := []
  host := ""
  basePath := ""
  schemes := ["https"]
  consumes := ["application/json"]
  produces := ["application/json"]
  paths := paths
  definitions := definitions

/-- The document as a JSON object. -/
def toJson (d : Document) : Json :=
  .obj [("swagger", .str d.swagger), ("info", .obj d.info), ("host", .str d.host),
    ("basePath", .str d.basePath), ("schemes", stringList d.schemes),
    ("consumes", stringList d.consumes), ("produces", stringList d.produces),
    ("paths", mapToJson PathItem.toJson d.paths),
    ("definitions", mapToJson SchemaObject.toJson d.definitions)]

/-- Reads a document. -/
def ofSource? (s : Source) : Option Document := do
  match ← Source.parts? ["swagger", "info", "host", "basePath", "schemes", "consumes",
      "produces", "paths", "definitions"] s with
  | [swagger, info, host, basePath, schemes, consumes, produces, paths, definitions] =>
    let strings := Source.listOf? Source.string?
    let swagger ← Source.required? Source.string? swagger
    let info ← Source.required? Source.object? info
    let host ← Source.required? Source.string? host
    let basePath ← Source.required? Source.string? basePath
    let schemes ← Source.required? strings schemes
    let consumes ← Source.required? strings consumes
    let produces ← Source.required? strings produces
    let paths ← Source.required? (Source.mapOf? PathItem.ofSource?) paths
    let definitions ← Source.required? (Source.mapOf? SchemaObject.ofSource?) definitions
    some ⟨swagger, info, host, basePath, schemes, consumes, produces, paths, definitions⟩
  | _ => none

/-- Equality up to the order of map keys. -/
def same (a b : Document) : Bool :=
  a.swagger == b.swagger && OrderedMap.sameBindings Json.same a.info b.info
    && a.host == b.host && a.basePath == b.basePath && a.schemes == b.schemes
    && a.consumes == b.consumes && a.produces == b.produces
    && OrderedMap.sameBindings PathItem.same a.paths b.paths
    && OrderedMap.sameBindings SchemaObject.same a.definitions b.definitions

end Document

end AvroSwagger.Swagger
