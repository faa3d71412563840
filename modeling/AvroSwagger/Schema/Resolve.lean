import AvroSwagger.Schema.Outline
import AvroSwagger.Json.Reader

/-!
# AvroSwagger.Schema.Resolve

**From the outline of a schema to the schema: names are looked up front to back.**

Reading a document keeps a `Scope`: the definitions that are complete, the
records whose fields are being read, and the next free identity label.  A name
means, in this order, a primitive, a complete definition under the qualified
name, one under the name as written, an open record under the qualified name,
an open record under the name as written.  A reference to a complete record
gives the record with its label, so the record is shared; each record
definition takes a fresh label.

Main definitions: `Outline.resolve`, and `Schema.ofJson`, `Schema.ofText` on
top of it.
-/

namespace AvroSwagger

/-- What is known at a place in a document. -/
structure Scope where
  /-- The complete definitions by full name, latest first. -/
  completed : OrderedMap Schema
  /-- The full names of the records that are being read, innermost first. -/
  openRecords : List String
  /-- The identity label of the next record. -/
  nextId : Nat

namespace Scope

/-- The scope in which a document starts. -/
def start (firstId : Nat) : Scope := ⟨[], [], firstId⟩

/-- The schema that a name stands for. -/
def lookup (scope : Scope) (name : String) (space : Option String) : Except SchemaError Schema :=
  match Schema.primitive? name with
  | some primitive => .ok primitive
  | none =>
    -- complete definitions win over open records, the qualified name over the written one
    let fullName := qualify name space
    match (scope.completed.find? fullName).or (scope.completed.find? name) with
    | some found => .ok found
    | none =>
      if fullName ∈ scope.openRecords then .ok (.named fullName)
      else if name ∈ scope.openRecords then .ok (.named name)
      else .error (.undefinedType name)

/-- Whether a definition of that full name is complete. -/
def isCompleted (scope : Scope) (fullName : String) : Bool :=
  (scope.completed.find? fullName).isSome

/-- Adds a complete definition; a full name may be completed once. -/
def define (scope : Scope) (fullName : String) (schema : Schema) :
    Except SchemaError (Schema × Scope) :=
  if scope.isCompleted fullName then .error (.duplicateType fullName)
  else .ok (schema, { scope with completed := (fullName, schema) :: scope.completed })

/-- The scope for the fields of a record. -/
def enter (scope : Scope) (fullName : String) : Scope :=
  { scope with openRecords := fullName :: scope.openRecords }

/-- Closes the record opened last and completes it under a fresh label. -/
def completeRecord (scope : Scope) (fullName : String) (doc : Option String)
    (fields : List (Field Schema)) : Except SchemaError (Schema × Scope) :=
  let record : Schema := .record ⟨scope.nextId, fullName, doc, fields⟩
  define { scope with openRecords := scope.openRecords.drop 1, nextId := scope.nextId + 1 }
    fullName record

end Scope

namespace Outline

mutual

/-- **The schema of an outline** inside a namespace, and the scope behind it. -/
def resolve (space : Option String) (scope : Scope) : Outline → Except SchemaError (Schema × Scope)
  | .malformed fault => .error fault
  | .reference name => do
    let schema ← scope.lookup name space
    .ok (schema, scope)
  | .union branches => do
    let (schemas, scope) ← resolveAll space scope branches
    .ok (.union schemas, scope)
  | .array items => do
    let (schema, scope) ← resolve space scope items
    .ok (.array schema, scope)
  | .map values => do
    let (schema, scope) ← resolve space scope values
    .ok (.map schema, scope)
  | .enum decl =>
    let fullName := decl.fullNameIn space
    scope.define fullName (.enum fullName)
  | .fixed decl =>
    let fullName := decl.fullNameIn space
    scope.define fullName (.fixed fullName)
  | .record decl doc fields => do
    let fullName := decl.fullNameIn space
    -- the name is claimed before the fields are looked at, and completed behind them
    if scope.isCompleted fullName || fullName ∈ scope.openRecords then
      .error (.duplicateType fullName)
    else
      let (fields, scope) ← resolveBody fullName (decl.scopeIn space) (scope.enter fullName) fields
      scope.completeRecord fullName doc fields

/-- The schemas of a list of outlines, read one after the other. -/
def resolveAll (space : Option String) (scope : Scope) :
    List Outline → Except SchemaError (List Schema × Scope)
  | [] => .ok ([], scope)
  | o :: rest => do
    let (schema, scope) ← resolve space scope o
    let (schemas, scope) ← resolveAll space scope rest
    .ok (schema :: schemas, scope)

/-- The fields of a record, if it has a list of them. -/
def resolveBody (record : String) (space : Option String) (scope : Scope) :
    Option (List (FieldShape Outline)) → Except SchemaError (List (Field Schema) × Scope)
  | none => .error (.recordWithoutFields record)
  | some shapes => resolveFields record space scope [] shapes

/-- The fields of a list, read one after the other; `seen` lists the names before them. -/
def resolveFields (record : String) (space : Option String) (scope : Scope) (seen : List String) :
    List (FieldShape Outline) → Except SchemaError (List (Field Schema) × Scope)
  | [] => .ok ([], scope)
  | shape :: rest => do
    let (field, scope) ← resolveField record space scope shape
    if field.name ∈ seen then .error (.duplicateField field.name record)
    else
      let (fields, scope) ← resolveFields record space scope (field.name :: seen) rest
      .ok (field :: fields, scope)

/-- One field. -/
def resolveField (record : String) (space : Option String) (scope : Scope) :
    FieldShape Outline → Except SchemaError (Field Schema × Scope)
  | .notObject => .error (.fieldNotObject record)
  | .unnamed => .error (.unnamedField record)
  | .untyped name => .error (.untypedField record name)
  | .typed ⟨name, doc, type⟩ => do
    let (schema, scope) ← resolve space scope type
    .ok (⟨name, doc, schema⟩, scope)

end

end Outline

namespace Schema

/-- **The schema of a JSON value.**  Its records take labels from `firstId` on; the second
part is the first label left over. -/
def ofJson (firstId : Nat) (v : Json) : Except SchemaError (Schema × Nat) := do
  let (schema, scope) ← (Outline.ofJson v).resolve none (Scope.start firstId)
  .ok (schema, scope.nextId)

/-- The schema of a JSON text. -/
def ofText (firstId : Nat) (text : String) : Except SchemaError (Schema × Nat) :=
  match Json.parse? text with
  | some v => ofJson firstId v
  | none => .error .notJson

end Schema

end AvroSwagger
