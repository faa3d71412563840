import AvroSwagger.Json.Basic

/-!
# AvroSwagger.Json.Source

**JSON as written: what a text says before anyone asks for a value.**

Between a text and its value lies the source tree.  It keeps every member of an
object, repeats included, and it marks as `undefined` the parts that are
grammatical but denote nothing: a number out of range, a string with half a
surrogate pair, a container nested too deeply.  A reader that wants the whole
value (`toJson?`) refuses an undefined part anywhere; one that reads a typed
object may pass over the members it does not know, whatever they hold.
-/

namespace AvroSwagger.Json

/-- The written form of a value.  A member key is `none` when it has no value. -/
inductive Source where
  | undefined
  | null
  | bool (value : Bool)
  | num (value : Number)
  | str (value : String)
  | arr (items : List Source)
  | obj (members : List (Option String × Source))

instance : Inhabited Source := ⟨.undefined⟩

namespace Source

/-! ## §1. The value of a source. -/

mutual

/-- The value that is written, if every part has one; of a repeated key the first place and
the last value count. -/
def toJson? : Source → Option Json
  | .undefined => none
  | .null => some .null
  | .bool b => some (.bool b)
  | .num n => some (.num n)
  | .str s => some (.str s)
  | .arr items => (itemsToJson? items).map .arr
  | .obj members => (membersToJson? members).map fun ms => .obj (OrderedMap.ofList ms)

/-- The values of the items. -/
def itemsToJson? : List Source → Option (List Json)
  | [] => some []
  | v :: rest => do
    let v ← v.toJson?
    let rest ← itemsToJson? rest
    some (v :: rest)

/-- The members with their values, repeats kept. -/
def membersToJson? : List (Option String × Source) → Option (List (String × Json))
  | [] => some []
  | (k, v) :: rest => do
    let k ← k
    let v ← v.toJson?
    let rest ← membersToJson? rest
    some ((k, v) :: rest)

end

/-! ## §2. The source of a value. -/

mutual

/-- A value as a source. -/
def ofJson : Json → Source
  | .null => .null
  | .bool b => .bool b
  | .num n => .num n
  | .str s => .str s
  | .arr items => .arr (ofItems items)
  | .obj members => .obj (ofMembers members)

/-- Values as sources. -/
def ofItems : List Json → List Source
  | [] => []
  | v :: rest => ofJson v :: ofItems rest

/-- Members as sources. -/
def ofMembers : List (String × Json) → List (Option String × Source)
  | [] => []
  | (k, v) :: rest => (some k, ofJson v) :: ofMembers rest

end

/-! ## §3. Reading typed objects. -/

/-- A string. -/
def string? : Source → Option String
  | .str s => some s
  | _ => none

/-- A truth value. -/
def bool? : Source → Option Bool
  | .bool b => some b
  | _ => none

/-- An array whose items all read. -/
def listOf? {α : Type} (read : Source → Option α) : Source → Option (List α)
  | .arr items => items.mapM read
  | _ => none

/-- Members whose keys and values all read. -/
def readMembers? {α : Type} (read : Source → Option α) :
    List (Option String × Source) → Option (List (String × α))
  | [] => some []
  | (k, v) :: rest => do
    let k ← k
    let v ← read v
    let rest ← readMembers? read rest
    some ((k, v) :: rest)

/-- An object read as a map; of a repeated key the first place and the last value count. -/
def mapOf? {α : Type} (read : Source → Option α) : Source → Option (OrderedMap α)
  | .obj members => (readMembers? read members).map OrderedMap.ofList
  | _ => none

/-- An object of arbitrary values. -/
def object? : Source → Option (OrderedMap Json) := mapOf? toJson?

/-- How often a key is written. -/
def occurrences (key : String) (members : List (Option String × Source)) : Nat :=
  members.countP fun kv => kv.1 == some key

/-- Whether every key has a value and each of the known keys is written at most once. -/
def unrepeated (known : List String) (members : List (Option String × Source)) : Bool :=
  members.all (fun kv => kv.1.isSome) && known.all fun key => occurrences key members ≤ 1

/-- The first value under a key. -/
def lookup? (key : String) : List (Option String × Source) → Option Source
  | [] => none
  | (k, v) :: rest => if k = some key then some v else lookup? key rest

/-- **The parts of a typed object with the given field names**, in the order of the names.

An object gives the values under the names and may hold other members under any proper
keys, but no known name twice; an array gives the first values in order and may not be longer
than the list. -/
def parts? (names : List String) : Source → Option (List (Option Source))
  | .obj members =>
    if unrepeated names members then some (names.map fun name => lookup? name members) else none
  | .arr items =>
    if items.length ≤ names.length then
      some (items.map some ++ List.replicate (names.length - items.length) none)
    else none
  | _ => none

/-- A part that has to be there. -/
def required? {α : Type} (read : Source → Option α) (part : Option Source) : Option α :=
  part.bind read

/-- A part that may be absent or `null`; both read as no value. -/
def optional? {α : Type} (read : Source → Option α) : Option Source → Option (Option α)
  | none => some none
  | some .null => some none
  | some v => (read v).map some

end Source

end AvroSwagger.Json
