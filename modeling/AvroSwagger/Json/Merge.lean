import AvroSwagger.Json.Basic

/-!
# AvroSwagger.Json.Merge

**Laying one value over another.**

Objects merge key by key and arrays index by index, at every depth; where the
two kinds differ, or a value is neither object nor array, the upper value
replaces the lower one.  Keys of the lower object keep their places, and keys
and items that only the upper value has follow at the end.
-/

namespace AvroSwagger.Json

mutual

/-- **`target` with `source` laid over it.** -/
def merge (target : Json) : Json → Json
  | .obj source =>
    match target with
    | .obj members => .obj (mergeMembers members source)
    | _ => .obj source
  | .arr source =>
    match target with
    | .arr items => .arr (mergeItems items source)
    | _ => .arr source
  | .null => .null
  | .bool b => .bool b
  | .num n => .num n
  | .str s => .str s

/-- Lays members over an object, one after the other. -/
def mergeMembers (target : OrderedMap Json) : List (String × Json) → OrderedMap Json
  | [] => target
  | (key, value) :: rest =>
    let merged := match target.find? key with
      | some existing => existing.merge value
      | none => value
    mergeMembers (target.insert key merged) rest

/-- Lays items over an array, index by index. -/
def mergeItems (target : List Json) : List Json → List Json
  | [] => target
  | value :: rest =>
    match target with
    | existing :: others => existing.merge value :: mergeItems others rest
    | [] => value :: mergeItems [] rest

end

end AvroSwagger.Json
