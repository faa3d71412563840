import AvroSwagger.Swagger.SchemaObject

/-!
# AvroSwagger.Swagger.Operation

**What can be posted to a path: parameters, responses, operations, path items.**

Each part of a document is written as an object with its keys in a fixed order
and read from an object with the same keys in any order, or from a list of its
parts.  A part without value is left out when writing and may be absent or
`null` when reading.
-/

namespace AvroSwagger.Swagger

open AvroSwagger.Json (Source)
open SchemaObject (optionalMember stringList)

/-! ## §1. Maps of parts. -/

/-- Equality of lists item by item under a comparison. -/
def sameLists {α : Type} (eqv : α → α → Bool) : List α → List α → Bool
  | [], [] => true
  | a :: as, b :: bs => eqv a b && sameLists eqv as bs
  | _, _ => false

/-- Equality of optional values under a comparison. -/
def sameOptions {α : Type} (eqv : α → α → Bool) : Option α → Option α → Bool
  | none, none => true
  | some a, some b => eqv a b
  | _, _ => false

/-- A map as an object, each value written by `write`. -/
def mapToJson {α : Type} (write : α → Json) (m : OrderedMap α) : Json :=
  .obj (m.map fun kv => (kv.1, write kv.2))

/-! ## §2. Parameters. -/

/-- A parameter of an operation. -/
structure Parameter where
  name : String
  /-- Where the parameter is sent, such as `body`. -/
  location : String
  description : Option String
  required : Bool
  schema : SchemaObject

namespace Parameter

/-- The parameter as a JSON object. -/
def toJson (p : Parameter) : Json :=
  .obj ([("name", .str p.name), ("in", .str p.location)]
    ++ optionalMember "description" (p.description.map .str)
    ++ [("required", .bool p.required), ("schema", p.schema.toJson)])

/-- Reads a parameter. -/
def ofSource? (s : Source) : Option Parameter := do
  match ← Source.parts? ["name", "in", "description", "required", "schema"] s with
  | [name, location, description, required, schema] =>
    let name ← Source.required? Source.string? name
    let location ← Source.required? Source.string? location
    let description ← Source.optional? Source.string? description
    let required ← Source.required? Source.bool? required
    let schema ← Source.required? SchemaObject.ofSource? schema
    some ⟨name, location, description, required, schema⟩
  | _ => none

/-- Equality up to the order of properties. -/
def same (a b : Parameter) : Bool :=
  a.name == b.name && a.location == b.location && a.description == b.description
    && a.required == b.required && a.schema.same b.schema

end Parameter

/-! ## §3. Responses. -/

/-- A response of an operation. -/
structure ResponseObject where
  description : String
  schema : Option SchemaObject

namespace ResponseObject

/-- The response as a JSON object. -/
def toJson (r : ResponseObject) : Json :=
  .obj (("description", .str r.description) ::
    optionalMember "schema" (r.schema.map SchemaObject.toJson))

/-- Reads a response. -/
def ofSource? (s : Source) : Option ResponseObject := do
  match ← Source.parts? ["description", "schema"] s with
  | [description, schema] =>
    let description ← Source.required? Source.string? description
    let schema ← Source.optional? SchemaObject.ofSource? schema
    some ⟨description, schema⟩
  | _ => none

/-- Equality up to the order of properties. -/
def same (a b : ResponseObject) : Bool :=
  a.description == b.description && sameOptions SchemaObject.same a.schema b.schema

end ResponseObject

/-! ## §4. Operations and path items. -/

/-- An operation on a path. -/
structure Operation where
  description : String
  operationId : String
  parameters : List Parameter
  /-- Responses by status code or `default`. -/
  responses : OrderedMap ResponseObject

namespace Operation

/-- The operation as a JSON object. -/
def toJson (o : Operation) : Json :=
  .obj [("description", .str o.description), ("operationId", .str o.operationId),
    ("parameters", .arr (o.parameters.map Parameter.toJson)),
    ("responses", mapToJson ResponseObject.toJson o.responses)]

/-- Reads an operation. -/
def ofSource? (s : Source) : Option Operation := do
  match ← Source.parts? ["description", "operationId", "parameters", "responses"] s with
  | [description, operationId, parameters, responses] =>
    let description ← Source.required? Source.string? description
    let operationId ← Source.required? Source.string? operationId
    let parameters ← Source.required? (Source.listOf? Parameter.ofSource?) parameters
    let responses ← Source.required? (Source.mapOf? ResponseObject.ofSource?) responses
    some ⟨description, operationId, parameters, responses⟩
  | _ => none

/-- Equality up to the order of map keys. -/
def same (a b : Operation) : Bool :=
  a.description == b.description && a.operationId == b.operationId
    && sameLists Parameter.same a.parameters b.parameters
    && OrderedMap.sameBindings ResponseObject.same a.responses b.responses

end Operation

/-- What a path offers: one operation, by `POST`. -/
structure PathItem where
  post : Operation

namespace PathItem

/-- The path item as a JSON object. -/
def toJson (p : PathItem) : Json := .obj [("post", p.post.toJson)]

/-- Reads a path item. -/
def ofSource? (s : Source) : Option PathItem := do
  match ← Source.parts? ["post"] s with
  | [post] =>
    let post ← Source.required? Operation.ofSource? post
    some ⟨post⟩
  | _ => none

/-- Equality up to the order of map keys. -/
def same (a b : PathItem) : Bool := a.post.same b.post

end PathItem

end AvroSwagger.Swagger
