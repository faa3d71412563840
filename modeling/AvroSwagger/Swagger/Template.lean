import AvroSwagger.Swagger.Document

/-!
# AvroSwagger.Swagger.Template

**What a caller wants a document to say: four typed parts and everything else.**

A template is an object.  The parts `info`, `host`, `basePath` and `schemes`
have types; every other member is kept as it stands, in order.  Written out,
the four parts come first.
-/

namespace AvroSwagger.Swagger

open AvroSwagger.Json (Source)
open SchemaObject (optionalMember stringList)

/-- A template. -/
structure Template where
  info : Option (OrderedMap Json)
  host : Option String
  basePath : Option String
  schemes : Option (List String)
  /-- The members under other keys. -/
  extra : OrderedMap Json

namespace Template

/-- The template that says nothing. -/
def empty : Template := ⟨none, none, none, none, []⟩

/-- The keys of the typed parts. -/
def knownKeys : List String := ["info", "host", "basePath", "schemes"]

/-- The template as a JSON object. -/
def toJson (t : Template) : Json :=
  .obj (optionalMember "info" (t.info.map .obj)
    ++ optionalMember "host" (t.host.map .str)
    ++ optionalMember "basePath" (t.basePath.map .str)
    ++ optionalMember "schemes" (t.schemes.map stringList)
    ++ t.extra)

/-- Reads a template from an object that writes each of the four known keys at most once;
all other members must have values. -/
def ofSource? : Source → Option Template
  | .obj members => do
    if !Source.unrepeated knownKeys members then none
    let info ← Source.optional? Source.object? (Source.lookup? "info" members)
    let host ← Source.optional? Source.string? (Source.lookup? "host" members)
    let basePath ← Source.optional? Source.string? (Source.lookup? "basePath" members)
    let schemes ←
      Source.optional? (Source.listOf? Source.string?) (Source.lookup? "schemes" members)
    let others := members.filter fun kv => !knownKeys.contains (kv.1.getD "")
    let extra ← Source.readMembers? Source.toJson? others
    some ⟨info, host, basePath, schemes, OrderedMap.ofList extra⟩
  | _ => none

/-- Equality up to the order of map keys. -/
def same (a b : Template) : Bool :=
  sameOptions (OrderedMap.sameBindings Json.same) a.info b.info && a.host == b.host
    && a.basePath == b.basePath && a.schemes == b.schemes
    && OrderedMap.sameBindings Json.same a.extra b.extra

end Template

end AvroSwagger.Swagger
