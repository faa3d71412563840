import AvroSwagger.Json.Printer

/-!
# AvroSwagger.Schema.Error

**Why a schema is refused.**
-/

namespace AvroSwagger

/-- The causes for which a schema, or a route's schema, is refused. -/
inductive SchemaError where
  /-- The text is not JSON. -/
  | notJson
  /-- A value that is neither a name, a list of branches nor an object. -/
  | unexpectedValue (value : Json)
  /-- A name that is no primitive and that nothing before it defines. -/
  | undefinedType (name : String)
  /-- An object without a type. -/
  | untypedObject
  | arrayWithoutItems
  | mapWithoutValues
  /-- A definition whose name is missing, empty or not a string. -/
  | unnamedDefinition
  /-- A second definition of a full name. -/
  | duplicateType (fullName : String)
  /-- A record whose fields are missing or not a list. -/
  | recordWithoutFields (fullName : String)
  | duplicateField (field record : String)
  | fieldNotObject (record : String)
  | unnamedField (record : String)
  | untypedField (record field : String)
  /-- A route bound to something that is not a record. -/
  | routeNotRecord (route typeName : String)

/-- The cause in words. -/
def SchemaError.message : SchemaError → String
  | .notJson => "Failed to parse Avro JSON"
  | .unexpectedValue v => "Unexpected schema value: " ++ v.compact
  | .undefinedType name => "Undefined type: " ++ name
  | .untypedObject => "Schema object has no 'type'"
  | .arrayWithoutItems => "Array schema has no 'items'"
  | .mapWithoutValues => "Map schema has no 'values'"
  | .unnamedDefinition => "Named type has no 'name'"
  | .duplicateType name => "Duplicate type name: " ++ name
  | .recordWithoutFields name => "Record '" ++ name ++ "' has no 'fields' array"
  | .duplicateField field record =>
    "Duplicate field '" ++ field ++ "' in record '" ++ record ++ "'"
  | .fieldNotObject record => "Field of record '" ++ record ++ "' is not an object"
  | .unnamedField record => "Field of record '" ++ record ++ "' has no name"
  | .untypedField record field => "Field '" ++ record ++ "." ++ field ++ "' has no type"
  | .routeNotRecord route typeName =>
    "Route '" ++ route ++ "' must be bound to a record, found '" ++ typeName ++ "'"

end AvroSwagger
