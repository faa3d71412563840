import AvroSwagger.OrderedMap
import AvroSwagger.Json.Source

/-!
# AvroSwagger.Swagger.SchemaObject

**Schema fragments of a Swagger document: references, scalars, arrays, objects.**

A fragment is written as an object with the keys `$ref`, `type`, `items`,
`properties`, `required`, in this order, absent parts left out.  It is read from
an object that holds these keys in any order and once each, whatever else it
holds, or from a list of its parts in order.

Two fragments are the `same` when they agree up to the order of properties; the
order of `required` counts.
-/

namespace AvroSwagger.Swagger

open AvroSwagger.Json (Source)

/-! ## §1. Types. -/

/-- The types a fragment can name. -/
inductive DataType where
  | boolean
  | integer
  | number
  | byte
  | string
  | array
  | object
  deriving DecidableEq

namespace DataType

/-- The type's name in a document. -/
def name : DataType → String
  | .boolean => "boolean"
  | .integer => "integer"
  | .number => "number"
  | .byte => "byte"
  | .string => "string"
  | .array => "array"
  | .object => "object"

/-- The type of a name. -/
def ofName? : String → Option DataType
  | "boolean" => some .boolean
  | "integer" => some .integer
  | "number" => some .number
  | "byte" => some .byte
  | "string" => some .string
  | "array" => some .array
  | "object" => some .object
  | _ => none

theorem ofName?_name (t : DataType) : ofName? t.name = some t := by cases t <;> rfl

/-- A type is read from its name, or from an object with the name as its only key and
`null` under it. -/
def ofSource? : Source → Option DataType
  | .str s => ofName? s
  | .obj [(some key, .null)] => ofName? key
  | _ => none

end DataType

/-- The place of the definitions inside a document, as references write it. -/
def definitionsRoot : String := "#/definitions/"

/-- The reference to the definition of a name. -/
def definitionRef (name : String) : String := definitionsRoot ++ name

/-- **A schema fragment.** -/
structure SchemaObject where
  /-- The definition referred to. -/
  ref : Option String
  type : Option DataType
  /-- The items of an array. -/
  items : Option SchemaObject
  /-- The properties of an object. -/
  properties : Option (List (String × SchemaObject))
  /-- The names of the properties that have to be there. -/
  required : Option (List String)

namespace SchemaObject

/-! ## §2. Building fragments. -/

/-- The fragment with no part. -/
def empty : SchemaObject := ⟨none, none, none, none, none⟩

instance : Inhabited SchemaObject := ⟨empty⟩

/-- A scalar of the given type. -/
def scalar (type : DataType) : SchemaObject := { empty with type := some type }

/-- An array of the given items. -/
def arrayOf (items : SchemaObject) : SchemaObject :=
  { empty with type := some .array, items := some items }

/-- A reference to the definition of a name. -/
def reference (name : String) : SchemaObject := { empty with ref := some (definitionRef name) }

/-- An object with the given properties.  All of them are required; the list of required
names is left out when there are none. -/
def object (properties : OrderedMap SchemaObject) : SchemaObject :=
  { empty with
    type := some .object
    properties := some properties
    required := if properties.isEmpty then none else some properties.keys }

/-! ## §3. Comparison. -/

mutual

/-- Equality up to the order of properties. -/
def same : SchemaObject → SchemaObject → Bool
  | ⟨ref, type, items, properties, required⟩, other =>
    ref == other.ref && type == other.type && sameOptional items other.items
      && sameProperties properties other.properties && required == other.required

/-- Equality of item parts. -/
def sameOptional : Option SchemaObject → Option SchemaObject → Bool
  | none, none => true
  | some a, some b => a.same b
  | _, _ => false

/-- Equality of property parts. -/
def sameProperties :
    Option (List (String × SchemaObject)) → Option (List (String × SchemaObject)) → Bool
  | none, none => true
  | some a, some b => a.length == b.length && propertiesIn a b
  | _, _ => false

/-- Whether each property of the first list is in the second with an equal fragment. -/
def propertiesIn : List (String × SchemaObject) → OrderedMap SchemaObject → Bool
  | [], _ => true
  | (name, a) :: rest, other =>
    (match other.find? name with
      | some b => a.same b
      | none => false) && propertiesIn rest other

end

/-! ## §4. Writing. -/

/-- A member that is written only when it has a value. -/
def optionalMember (key : String) (value : Option Json) : List (String × Json) :=
  match value with
  | some v => [(key, v)]
  | none => []

/-- A list of strings as a value. -/
def stringList (items : List String) : Json := .arr (items.map .str)

mutual

/-- The fragment as a JSON object. -/
def toJson : SchemaObject → Json
  | ⟨ref, type, items, properties, required⟩ =>
    .obj (optionalMember "$ref" (ref.map .str)
      ++ optionalMember "type" (type.map fun t => .str t.name)
      ++ optionalMember "items" (optionalToJson items)
      ++ optionalMember "properties" (propertiesToJson? properties)
      ++ optionalMember "required" (required.map stringList))

/-- The item part as a value. -/
def optionalToJson : Option SchemaObject → Option Json
  | none => none
  | some o => some o.toJson

/-- The property part as a value. -/
def propertiesToJson? : Option (List (String × SchemaObject)) → Option Json
  | none => none
  | some ps => some (.obj (propertiesToJson ps))

/-- The properties as members. -/
def propertiesToJson : List (String × SchemaObject) → List (String × Json)
  | [] => []
  | (name, o) :: rest => (name, o.toJson) :: propertiesToJson rest

end

/-! ## §5. Reading. -/

/-- The names of the parts, in order. -/
def fieldNames : List String := ["$ref", "type", "items", "properties", "required"]

/-- The parts of a fragment that are not fragments themselves. -/
def ofParts? (parts : List (Option Source)) (items : Option SchemaObject)
    (properties : Option (OrderedMap SchemaObject)) : Option SchemaObject :=
  match parts with
  | [ref, type, _, _, required] => do
    let ref ← Source.optional? Source.string? ref
    let type ← Source.optional? DataType.ofSource? type
    let required ← Source.optional? (Source.listOf? Source.string?) required
    some ⟨ref, type, items, properties, required⟩
  | _ => none

mutual

/-- **Reads a fragment.** -/
def ofSource? : Source → Option SchemaObject
  | .obj members => do
    let parts ← Source.parts? fieldNames (.obj members)
    let items ← itemsMember? members
    let properties ← propertiesMember? members
    ofParts? parts items properties
  | .arr parts => do
    let names ← Source.parts? fieldNames (.arr parts)
    let items ← itemsAt? 2 parts
    let properties ← propertiesAt? 3 parts
    ofParts? names items properties
  | _ => none

/-- Reads the item part of an object; `null` counts as absent. -/
def itemsMember? : List (Option String × Source) → Option (Option SchemaObject)
  | [] => some none
  | (key, v) :: rest =>
    if key = some "items" then
      match v with
      | .null => some none
      | _ => (ofSource? v).map some
    else itemsMember? rest

/-- Reads the item part of a list of parts, at the given place. -/
def itemsAt? : Nat → List Source → Option (Option SchemaObject)
  | _, [] => some none
  | 0, v :: _ =>
    match v with
    | .null => some none
    | _ => (ofSource? v).map some
  | n + 1, _ :: rest => itemsAt? n rest

/-- Reads the property part of an object; `null` counts as absent. -/
def propertiesMember? :
    List (Option String × Source) → Option (Option (OrderedMap SchemaObject))
  | [] => some none
  | (key, v) :: rest =>
    if key = some "properties" then
      match v with
      | .null => some none
      | .obj members => (propertiesOf? members).map fun ps => some (OrderedMap.ofList ps)
      | _ => none
    else propertiesMember? rest

/-- Reads the property part of a list of parts, at the given place. -/
def propertiesAt? : Nat → List Source → Option (Option (OrderedMap SchemaObject))
  | _, [] => some none
  | 0, v :: _ =>
    match v with
    | .null => some none
    | .obj members => (propertiesOf? members).map fun ps => some (OrderedMap.ofList ps)
    | _ => none
  | n + 1, _ :: rest => propertiesAt? n rest

/-- Reads every property. -/
def propertiesOf? : List (Option String × Source) → Option (List (String × SchemaObject))
  | [] => some []
  | (key, v) :: rest => do
    let key ← key
    let o ← ofSource? v
    let rest ← propertiesOf? rest
    some ((key, o) :: rest)

end

end SchemaObject

end AvroSwagger.Swagger
