import AvroSwagger.Yaml.Node

/-!
# AvroSwagger.Yaml.Value

**Reading typed parts out of a YAML document.**

Where a string is wanted every scalar gives its text; where a map is wanted
nothing written counts as the empty map; where a value may be missing an
unquoted null does; where any value may stand unquoted scalars have their
meaning, and those with a tag the meaning that the tag gives them.
-/

namespace AvroSwagger.Yaml.Node

open AvroSwagger.Json (Number)

/-! ## §1. Single parts. -/

/-- Whether a part is missing because it is null: nothing, an unquoted null, or an unquoted scalar
with the tag of null, which has to be one. -/
def isNull? : Node → Option Bool
  | .scalar text true none => some (nullSpellings.contains text)
  | .scalar text true (some .null) => if isNullWord text then some true else none
  | _ => some false

/-- A part that may be missing or null. -/
def optional? {α : Type} (read : Node → Option α) : Option Node → Option (Option α)
  | none => some none
  | some n => do if ← n.isNull? then some none else (read n).map some

/-- The members of a mapping; nothing written is the empty mapping. -/
def members? : Node → Option (List (Node × Node))
  | .mapping members _ => some members
  | .scalar "" true _ => some []
  | _ => none

/-- The items of a list; nothing written is the empty list. -/
def items? : Node → Option (List Node)
  | .sequence items _ => some items
  | .scalar "" true _ => some []
  | _ => none

/-- A list whose items all read. -/
def listOf? {α : Type} (read : Node → Option α) (n : Node) : Option (List α) := do
  let items ← n.items?
  items.mapM read

/-- Members whose keys are scalars, by the text of the key. -/
def namedMembers? (n : Node) : Option (List (String × Node)) := do
  let members ← n.members?
  members.mapM fun (key, v) => do
    let key ← key.text?
    some (key, v)

/-! ## §2. Any value. -/

/-- The value of an integer; one of more than 64 bits has none. -/
def intValue? (n : Int) : Option Json := (Number.ofInt? n).map .num

/-- The value of an unquoted scalar. -/
def plainValue? (text : String) : Option Json :=
  match meaning text with
  | .null => some .null
  | .bool b => some (.bool b)
  | .int n => intValue? n
  | .float x => some (.num (.float x))
  | .special => some .null
  | .text => some (.str text)

/-- **The value of a scalar.**  A tag says what it is, and the text has to be a spelling of that;
a tag of the author's own has no value. -/
def scalarValue? (text : String) (plain : Bool) : Option Tag → Option Json
  | none => if plain then plainValue? text else some (.str text)
  | some .null => if isNullWord text then some .null else none
  | some .bool => (boolOf? text).map .bool
  | some .int => (intOf? text.toList).bind intValue?
  | some .float => if specialSpellings.contains text then some .null
    else (finite? text.toList).map fun x => .num (.float x)
  | some .other => some (.str text)
  | some .nonspecific => none
  | some .custom => none

/-- Whether a collection with a tag has a value. -/
def isPlainTag : Option Tag → Bool
  | some .nonspecific => false
  | some .custom => false
  | _ => true

/-- The text of a key.  Where keys have a meaning of their own it must be a string. -/
def keyText? (meaningful : Bool) : Node → Option String
  | .scalar text plain tag =>
    if meaningful then (scalarValue? text plain tag).bind Json.string? else some text
  | _ => none

mutual

/-- **The value of a node.**  `meaningful` says whether keys have a meaning of their own; of a
repeated key the first place and the last value count. -/
def toJson? (meaningful : Bool) : Node → Option Json
  | .scalar text plain tag => scalarValue? text plain tag
  | .sequence items tag =>
    if isPlainTag tag then (itemsToJson? meaningful items).map .arr else none
  | .mapping members tag =>
    if isPlainTag tag then
      (membersToJson? meaningful members).map fun ms => .obj (OrderedMap.ofList ms)
    else none
  | .anchored _ _ => none
  | .aliasOf _ => none

/-- The values of the items. -/
def itemsToJson? (meaningful : Bool) : List Node → Option (List Json)
  | [] => some []
  | n :: rest => do
    let v ← n.toJson? meaningful
    let rest ← itemsToJson? meaningful rest
    some (v :: rest)

/-- The members with their values, repeats kept. -/
def membersToJson? (meaningful : Bool) : List (Node × Node) → Option (List (String × Json))
  | [] => some []
  | (key, n) :: rest => do
    let key ← key.keyText? meaningful
    let v ← n.toJson? meaningful
    let rest ← membersToJson? meaningful rest
    some ((key, v) :: rest)

end

/-- A mapping of arbitrary values whose keys are taken as they are written. -/
def object? (n : Node) : Option (OrderedMap Json) := do
  let members ← n.members?
  let ms ← membersToJson? false members
  some (OrderedMap.ofList ms)

end AvroSwagger.Yaml.Node
