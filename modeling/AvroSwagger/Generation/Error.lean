import AvroSwagger.Schema.Error

/-!
# AvroSwagger.Generation.Error

**Why no document is generated.**
-/

namespace AvroSwagger

/-- A field of a record, by name. -/
structure FieldPlace where
  field : String
  record : String

/-- The causes for which the generation of a document fails. -/
inductive GenerationError where
  /-- A record has the short name of the record that every operation answers with. -/
  | reservedName (name : String)
  /-- A type, described in one line, that no schema fragment expresses, and the field in
  which it stands. -/
  | unsupportedType (type : String) (place : Option FieldPlace)
  /-- Two different definitions share a short name. -/
  | definitionCollision (name existing incoming : String)
  | schema (cause : SchemaError)
  /-- The template is neither an object nor `null`. -/
  | templateNotObject (template : Json)

namespace GenerationError

/-- An unsupported type and its place, if it has one. -/
def describeType (type : String) : Option FieldPlace → String
  | none => type
  | some place => type ++ " (field '" ++ place.field ++ "' of '" ++ place.record ++ "')"

/-- A template of the wrong kind. -/
def describeTemplate (template : Json) : String :=
  "Expected a JSON object, found " ++ template.compact

/-- The cause in words. -/
def message : GenerationError → String
  | .reservedName name =>
    "Schema record name clashes with the generated response record name " ++ name
  | .unsupportedType type place => "Unsupported field type: " ++ describeType type place
  | .definitionCollision name existing incoming =>
    "Definition '" ++ name ++ "' is produced by both '" ++ existing ++ "' and '" ++ incoming ++ "'"
  | .schema cause => "Invalid Schema: " ++ cause.message
  | .templateNotObject template => "Invalid Template: " ++ describeTemplate template

end GenerationError

end AvroSwagger
