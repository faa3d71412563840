import AvroSwagger.OrderedMap
import AvroSwagger.Json.Number

/-!
# AvroSwagger.Json.Basic

**JSON values whose objects remember the order of their keys.**

An object is the list of its members; `WellFormed` says that no object in a
value lists a key twice, which every value that was read satisfies.  Two values
are `same` when they agree up to the order of keys.
-/

namespace AvroSwagger

open Json (Number)

/-- A JSON value. -/
inductive Json where
  | null
  | bool (value : Bool)
  | num (value : Number)
  | str (value : String)
  | arr (items : List Json)
  | obj (members : List (String × Json))

namespace Json

instance : Inhabited Json := ⟨.null⟩

/-! ## §1. Access. -/

/-- The value of a string. -/
def string? : Json → Option String
  | .str s => some s
  | _ => none

/-- The members of an object, as an ordered map. -/
def members? : Json → Option (OrderedMap Json)
  | .obj members => some members
  | _ => none

/-- Whether the value is `null`. -/
def isNull : Json → Bool
  | .null => true
  | _ => false

/-- The value under a key; `none` if the value is no object or lacks the key. -/
def member? (v : Json) (key : String) : Option Json :=
  match v with
  | .obj members => OrderedMap.find? members key
  | _ => none

/-- The string under a key of an object's member list; anything else counts as absent. -/
def stringMember? (members : OrderedMap Json) (key : String) : Option String :=
  (members.find? key).bind string?

/-! ## §2. Well-formed values. -/

mutual

/-- No object in the value lists a key twice. -/
def WellFormed : Json → Prop
  | .arr items => WellFormedItems items
  | .obj members => (OrderedMap.keys members).Nodup ∧ WellFormedMembers members
  | _ => True

/-- Every item of the list is well formed. -/
def WellFormedItems : List Json → Prop
  | [] => True
  | v :: rest => v.WellFormed ∧ WellFormedItems rest

/-- Every member value is well formed. -/
def WellFormedMembers : List (String × Json) → Prop
  | [] => True
  | (_, v) :: rest => v.WellFormed ∧ WellFormedMembers rest

end

theorem wellFormedItems_iff {items : List Json} :
    WellFormedItems items ↔ ∀ v ∈ items, v.WellFormed := by
  induction items with
  | nil => simp [WellFormedItems]
  | cons v rest ih => simp [WellFormedItems, ih]

theorem wellFormedMembers_iff {members : List (String × Json)} :
    WellFormedMembers members ↔ ∀ kv ∈ members, kv.2.WellFormed := by
  induction members with
  | nil => simp [WellFormedMembers]
  | cons kv rest ih => obtain ⟨k, v⟩ := kv; simp [WellFormedMembers, ih]

/-! ## §3. Equality up to the order of keys. -/

mutual

/-- Equality of values, the order of keys ignored at every depth. -/
def same : Json → Json → Bool
  | .null, .null => true
  | .bool a, .bool b => a == b
  | .num a, .num b => a.sameValue b
  | .str a, .str b => a == b
  | .arr a, .arr b => sameItems a b
  | .obj a, .obj b => a.length == b.length && sameMembers a b
  | _, _ => false

/-- Equality of lists item by item. -/
def sameItems : List Json → List Json → Bool
  | [], [] => true
  | v :: rest, w :: rest' => v.same w && sameItems rest rest'
  | _, _ => false

/-- Whether each member of the first list is in the second with an equal value. -/
def sameMembers : List (String × Json) → OrderedMap Json → Bool
  | [], _ => true
  | (k, v) :: rest, other =>
    (match other.find? k with
      | some w => v.same w
      | none => false) && sameMembers rest other

end

end Json

end AvroSwagger
