import AvroSwagger.Schema.Basic
import AvroSwagger.Swagger.SchemaObject
import AvroSwagger.Generation.Error

/-!
# AvroSwagger.Generation.Fragment

**The schema fragment of a field type and the definition of a record.**

Scalars become scalars, arrays become arrays, and a record becomes a reference
to the definition of its short name; the record itself is listed among the
`references` of the record whose field it is, once for each field, in field
order.  `null`, maps, unions, enums and fixed types have no fragment.

Main statement: `recordCount_references_lt`, the records a record refers to are
together smaller than the record, so following references always ends.
-/

namespace AvroSwagger

open Swagger

namespace Schema

/-- The fragment of a type; the type inside its arrays that has none otherwise. -/
def fragment : Schema → Except Schema SchemaObject
  | .boolean => .ok (.scalar .boolean)
  | .int => .ok (.scalar .integer)
  | .long => .ok (.scalar .integer)
  | .float => .ok (.scalar .number)
  | .double => .ok (.scalar .number)
  | .bytes => .ok (.scalar .byte)
  | .string => .ok (.scalar .string)
  | .array items => do
    let items ← items.fragment
    .ok (.arrayOf items)
  | .record r => .ok (.reference r.shortName)
  | .named fullName => .ok (.reference (AvroSwagger.shortName fullName))
  | .null => .error .null
  | .map values => .error (.map values)
  | .union branches => .error (.union branches)
  | .enum fullName => .error (.enum fullName)
  | .fixed fullName => .error (.fixed fullName)

/-- The record that the fragment of a type refers to and that is part of the type. -/
def referenced : Schema → List Record
  | .array items => items.referenced
  | .record r => [r]
  | _ => []

end Schema

namespace RecordOf

/-- The properties of fields, written one after the other into a map: a repeated name keeps
its first place and takes the last fragment.  The first field type without fragment ends it. -/
def propertiesFrom (record : String) (written : OrderedMap SchemaObject) :
    List (Field Schema) → Except GenerationError (OrderedMap SchemaObject)
  | [] => .ok written
  | f :: rest =>
    match f.type.fragment with
    | .ok fragment => propertiesFrom record (written.insert f.name fragment) rest
    | .error type => .error (.unsupportedType type.display (some ⟨f.name, record⟩))

/-- **The definition of a record**: an object with a property for each field name. -/
def definition (r : Record) : Except GenerationError SchemaObject := do
  let properties ← propertiesFrom r.fullName [] r.fields
  .ok (.object properties)

/-- The records that fields refer to, up to the first field type without fragment. -/
def referencesOf : List (Field Schema) → List Record
  | [] => []
  | f :: rest =>
    match f.type.fragment with
    | .ok _ => f.type.referenced ++ referencesOf rest
    | .error _ => []

/-- The records that a record's definition refers to, in field order. -/
def references (r : Record) : List Record := referencesOf r.fields

end RecordOf

/-! ## Following references ends. -/

/-- The number of record occurrences in the full trees of a list of records. -/
def totalRecordCount : List Record → Nat
  | [] => 0
  | r :: rest => r.recordCount + totalRecordCount rest

theorem totalRecordCount_append (as bs : List Record) :
    totalRecordCount (as ++ bs) = totalRecordCount as + totalRecordCount bs := by
  induction as with
  | nil => simp [totalRecordCount]
  | cons r rest ih => simp only [List.cons_append, totalRecordCount, ih]; omega

theorem totalRecordCount_reverse (rs : List Record) :
    totalRecordCount rs.reverse = totalRecordCount rs := by
  induction rs with
  | nil => rfl
  | cons r rest ih =>
    simp only [List.reverse_cons, totalRecordCount_append, totalRecordCount, ih]; omega

/-- The record inside a type is part of the type. -/
theorem recordCount_referenced_le (s : Schema) :
    totalRecordCount s.referenced ≤ s.recordCount := by
  fun_induction Schema.referenced s with
  | case1 items ih => simpa [Schema.recordCount] using ih
  | case2 r => simp [totalRecordCount, RecordOf.recordCount, Schema.recordCount]
  | case3 s h1 h2 => simp [totalRecordCount]

theorem recordCount_referencesOf_le (fields : List (Field Schema)) :
    totalRecordCount (RecordOf.referencesOf fields) ≤ Schema.recordCountFields fields := by
  induction fields with
  | nil => simp [RecordOf.referencesOf, totalRecordCount]
  | cons f rest ih =>
    obtain ⟨name, doc, type⟩ := f
    have htype := recordCount_referenced_le type
    simp only [RecordOf.referencesOf, Schema.recordCountFields]
    split
    · rw [totalRecordCount_append]; omega
    · simp [totalRecordCount]

/-- **The records a record refers to are together smaller than the record.** -/
theorem recordCount_references_lt (r : Record) :
    totalRecordCount r.references < r.recordCount := by
  obtain ⟨id, fullName, doc, fields⟩ := r
  have h := recordCount_referencesOf_le fields
  simp only [RecordOf.references, RecordOf.recordCount, Schema.recordCountRecord]
  omega

end AvroSwagger
