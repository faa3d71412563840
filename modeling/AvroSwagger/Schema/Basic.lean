import AvroSwagger.Schema.Name

/-!
# AvroSwagger.Schema.Basic

**Avro schemas as trees whose records carry an identity.**

A record that is named several times in one document is one object.  The label
`id` stands for that identity: two occurrences with the same label are the same
object.  Labels decide nothing about what a schema says; `same` compares
schemas without them.

A use of a record inside its own definition cannot be a subtree and is the leaf
`named`.
-/

namespace AvroSwagger

/-- A named part of a record. -/
structure Field (α : Type) where
  name : String
  doc : Option String
  type : α

/-- A record over a type of field types. -/
structure RecordOf (α : Type) where
  /-- The identity of the record object. -/
  id : Nat
  fullName : String
  doc : Option String
  fields : List (Field α)

/-- **An Avro schema.** -/
inductive Schema where
  | null
  | boolean
  | int
  | long
  | float
  | double
  | bytes
  | string
  | array (items : Schema)
  | map (values : Schema)
  | union (branches : List Schema)
  | enum (fullName : String)
  | fixed (fullName : String)
  | record (record : RecordOf Schema)
  /-- A record that is still being defined where it is used. -/
  | named (fullName : String)

/-- A record of schemas. -/
abbrev Record : Type := RecordOf Schema

namespace RecordOf

/-- The record's name without its namespace. -/
def shortName {α : Type} (r : RecordOf α) : String := AvroSwagger.shortName r.fullName

/-- Whether two occurrences are one and the same record object. -/
def isSameObject {α : Type} (a b : RecordOf α) : Bool := a.id == b.id

end RecordOf

namespace Schema

instance : Inhabited Schema := ⟨.null⟩

/-! ## §1. Names of types. -/

/-- The schema of a primitive name. -/
def primitive? : String → Option Schema
  | "null" => some .null
  | "boolean" => some .boolean
  | "int" => some .int
  | "long" => some .long
  | "float" => some .float
  | "double" => some .double
  | "bytes" => some .bytes
  | "string" => some .string
  | _ => none

/-- The kind of a schema; a use of an open record counts as a record. -/
def typeName : Schema → String
  | .null => "null"
  | .boolean => "boolean"
  | .int => "int"
  | .long => "long"
  | .float => "float"
  | .double => "double"
  | .bytes => "bytes"
  | .string => "string"
  | .array _ => "array"
  | .map _ => "map"
  | .union _ => "union"
  | .enum _ => "enum"
  | .fixed _ => "fixed"
  | .record _ => "record"
  | .named _ => "record"

mutual

/-- The schema in one line: container kinds around their parts, named types by full name. -/
def display : Schema → String
  | .array items => "array<" ++ items.display ++ ">"
  | .map values => "map<" ++ values.display ++ ">"
  | .union branches => "union<" ++ ", ".intercalate (displayBranches branches) ++ ">"
  | .enum name => "enum:" ++ name
  | .fixed name => "fixed:" ++ name
  | .record r => "record:" ++ r.fullName
  | .named name => "record:" ++ name
  | .null => "null"
  | .boolean => "boolean"
  | .int => "int"
  | .long => "long"
  | .float => "float"
  | .double => "double"
  | .bytes => "bytes"
  | .string => "string"

/-- The branches in one line each. -/
def displayBranches : List Schema → List String
  | [] => []
  | b :: rest => b.display :: displayBranches rest

end

/-- The record of a schema that is one. -/
def record? : Schema → Option Record
  | .record r => some r
  | _ => none

/-! ## §2. Equality without identities. -/

mutual

/-- Equality of what two schemas say; labels do not count. -/
def same : Schema → Schema → Bool
  | .null, .null => true
  | .boolean, .boolean => true
  | .int, .int => true
  | .long, .long => true
  | .float, .float => true
  | .double, .double => true
  | .bytes, .bytes => true
  | .string, .string => true
  | .array a, .array b => a.same b
  | .map a, .map b => a.same b
  | .union a, .union b => sameBranches a b
  | .enum a, .enum b => a == b
  | .fixed a, .fixed b => a == b
  | .record a, .record b => sameRecord a b
  | .named a, .named b => a == b
  | _, _ => false

/-- Equality of branch lists. -/
def sameBranches : List Schema → List Schema → Bool
  | [], [] => true
  | a :: as, b :: bs => a.same b && sameBranches as bs
  | _, _ => false

/-- Equality of records: name, documentation and fields. -/
def sameRecord : RecordOf Schema → RecordOf Schema → Bool
  | ⟨_, name, doc, fields⟩, other =>
    name == other.fullName && doc == other.doc && sameFields fields other.fields

/-- Equality of field lists, in order. -/
def sameFields : List (Field Schema) → List (Field Schema) → Bool
  | [], [] => true
  | ⟨name, doc, type⟩ :: fs, g :: gs =>
    name == g.name && doc == g.doc && type.same g.type && sameFields fs gs
  | _, _ => false

end

/-! ## §3. Size. -/

mutual

/-- The number of record occurrences in the full tree of a schema. -/
def recordCount : Schema → Nat
  | .array items => items.recordCount
  | .map values => values.recordCount
  | .union branches => recordCountBranches branches
  | .record r => recordCountRecord r
  | _ => 0

/-- The number of record occurrences below a union. -/
def recordCountBranches : List Schema → Nat
  | [] => 0
  | b :: rest => b.recordCount + recordCountBranches rest

/-- The number of record occurrences in a record, itself included. -/
def recordCountRecord : RecordOf Schema → Nat
  | ⟨_, _, _, fields⟩ => 1 + recordCountFields fields

/-- The number of record occurrences in the types of fields. -/
def recordCountFields : List (Field Schema) → Nat
  | [] => 0
  | ⟨_, _, type⟩ :: rest => type.recordCount + recordCountFields rest

end

end Schema

/-- The number of record occurrences in the full tree of a record, itself included. -/
def RecordOf.recordCount (r : RecordOf Schema) : Nat := Schema.recordCountRecord r

end AvroSwagger
