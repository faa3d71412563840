import AvroSwagger.Schema.Basic
import AvroSwagger.Schema.Error

/-!
# AvroSwagger.Schema.Outline

**What a JSON value says as a schema, before any name is looked up.**

An outline is the syntax of a schema: references by name, containers, and
definitions with the name and namespace they are written with.  Whatever is
missing or misplaced is kept as a fault at its place, because a schema is read
from the front and an earlier fault hides a later one.

An outline depends on seven keys only (`type`, `name`, `namespace`, `doc`,
`fields`, `items`, `values`) and not on the order in which an object lists them.
-/

namespace AvroSwagger

/-- The name of a definition as written. -/
structure Declaration where
  name : String
  /-- The definition's own namespace, if it states one. -/
  space : Option String

namespace Declaration

/-- The namespace that the definition's parts inherit: the one before the last dot of a
dotted name, else its own or the inherited one; the empty namespace counts as none. -/
def scopeIn (d : Declaration) (inherited : Option String) : Option String :=
  if isDotted d.name then some (namespaceOf d.name)
  else (d.space.or inherited).filter fun ns => !ns.isEmpty

/-- The full name: a dotted name as written, any other qualified by its namespace. -/
def fullNameIn (d : Declaration) (inherited : Option String) : String :=
  if isDotted d.name then d.name else qualify d.name (d.scopeIn inherited)

end Declaration

/-- What stands at a place in a list of fields. -/
inductive FieldShape (α : Type) where
  | notObject
  | unnamed
  | untyped (name : String)
  | typed (field : Field α)

/-- **The syntax of a schema.** -/
inductive Outline where
  | malformed (fault : SchemaError)
  | reference (name : String)
  | union (branches : List Outline)
  | array (items : Outline)
  | map (values : Outline)
  | enum (decl : Declaration)
  | fixed (decl : Declaration)
  | record (decl : Declaration) (doc : Option String) (fields : Option (List (FieldShape Outline)))

namespace Outline

instance : Inhabited Outline := ⟨.reference ""⟩

/-- The declaration in an object: its name has to be a string that is not empty. -/
def declaration? (members : OrderedMap Json) : Option Declaration :=
  match Json.stringMember? members "name" with
  | some name =>
    if name.isEmpty then none else some ⟨name, Json.stringMember? members "namespace"⟩
  | none => none

mutual

/-- **The outline of a value.** -/
def ofJson : Json → Outline
  | .str name => .reference name
  | .arr branches => .union (ofItems branches)
  | .obj members =>
    match OrderedMap.find? members "type" with
    | none => .malformed .untypedObject
    | some (.str "record") => recordOf members
    | some (.str "error") => recordOf members
    | some (.str "enum") =>
      match declaration? members with
      | some decl => .enum decl
      | none => .malformed .unnamedDefinition
    | some (.str "fixed") =>
      match declaration? members with
      | some decl => .fixed decl
      | none => .malformed .unnamedDefinition
    | some (.str "array") =>
      match ofMember? "items" members with
      | some items => .array items
      | none => .malformed .arrayWithoutItems
    | some (.str "map") =>
      match ofMember? "values" members with
      | some values => .map values
      | none => .malformed .mapWithoutValues
    | some (.str name) => .reference name
    | some _ =>
      match ofMember? "type" members with
      | some nested => nested
      | none => .malformed .untypedObject
  | v => .malformed (.unexpectedValue v)

/-- The outline of a record definition. -/
def recordOf (members : List (String × Json)) : Outline :=
  match declaration? members with
  | some decl => .record decl (Json.stringMember? members "doc") (fieldsOf? members)
  | none => .malformed .unnamedDefinition

/-- The outlines of a list of values. -/
def ofItems : List Json → List Outline
  | [] => []
  | v :: rest => ofJson v :: ofItems rest

/-- The outline of the value under a key. -/
def ofMember? (key : String) : List (String × Json) → Option Outline
  | [] => none
  | (k, v) :: rest => if k = key then some (ofJson v) else ofMember? key rest

/-- The field list under `fields`, if a list is there. -/
def fieldsOf? : List (String × Json) → Option (List (FieldShape Outline))
  | [] => none
  | (k, v) :: rest =>
    if k = "fields" then
      match v with
      | .arr items => some (shapesOf items)
      | _ => none
    else fieldsOf? rest

/-- The fields of a list, each as it stands. -/
def shapesOf : List Json → List (FieldShape Outline)
  | [] => []
  | v :: rest => shapeOf v :: shapesOf rest

/-- One field as it stands. -/
def shapeOf : Json → FieldShape Outline
  | .obj members =>
    match Json.stringMember? members "name" with
    | none => .unnamed
    | some name =>
      match ofMember? "type" members with
      | none => .untyped name
      | some type => .typed ⟨name, Json.stringMember? members "doc", type⟩
  | _ => .notObject

end

end Outline

end AvroSwagger
