import AvroSwagger.Schema.Basic
import Mathlib.Data.List.Basic

/-!
# AvroSwagger.Proofs.Parts

**What stands inside a schema, at any depth and in any container.**

Main statements: `IsPart.trans`, and `IsPart.records_subset`: the records of a
part are records of the whole.
-/

namespace AvroSwagger

/-! ## §1. Parts. -/

/-- **A schema stands somewhere inside another one.** -/
inductive Schema.IsPart : Schema → Schema → Prop
  | self (s : Schema) : IsPart s s
  | items {s t : Schema} (h : IsPart s t) : IsPart s (.array t)
  | values {s t : Schema} (h : IsPart s t) : IsPart s (.map t)
  | branch {s t : Schema} {branches : List Schema} (ht : t ∈ branches) (h : IsPart s t) :
      IsPart s (.union branches)
  | field {s : Schema} {f : Field Schema} {r : Record} (hf : f ∈ r.fields)
      (h : IsPart s f.type) : IsPart s (.record r)

namespace Schema

theorem IsPart.trans {s t u : Schema} (hst : s.IsPart t) (htu : t.IsPart u) : s.IsPart u := by
  induction htu with
  | self => exact hst
  | items _ ih => exact .items ih
  | values _ ih => exact .values ih
  | branch ht _ ih => exact .branch ht ih
  | field hf _ ih => exact .field hf ih

theorem isPart_array_iff {s t : Schema} : s.IsPart (.array t) ↔ s = .array t ∨ s.IsPart t := by
  constructor
  · intro h
    cases h with
    | self => exact Or.inl rfl
    | items h => exact Or.inr h
  · rintro (rfl | h)
    · exact .self _
    · exact .items h

theorem isPart_record_iff {s : Schema} {r : Record} :
    s.IsPart (.record r) ↔ s = .record r ∨ ∃ f ∈ r.fields, s.IsPart f.type := by
  constructor
  · intro h
    cases h with
    | self => exact Or.inl rfl
    | field hf h => exact Or.inr ⟨_, hf, h⟩
  · rintro (rfl | ⟨f, hf, h⟩)
    · exact .self _
    · exact .field hf h

/-! ## §2. Records. -/

mutual

/-- The record occurrences in a schema, from the front. -/
def records : Schema → List Record
  | .array items => items.records
  | .map values => values.records
  | .union branches => recordsOfBranches branches
  | .record r => r :: recordsOfRecord r
  | _ => []

/-- The record occurrences in the branches of a union. -/
def recordsOfBranches : List Schema → List Record
  | [] => []
  | b :: rest => b.records ++ recordsOfBranches rest

/-- The record occurrences inside a record. -/
def recordsOfRecord : RecordOf Schema → List Record
  | ⟨_, _, _, fields⟩ => recordsOfFields fields

/-- The record occurrences in the types of fields. -/
def recordsOfFields : List (Field Schema) → List Record
  | [] => []
  | ⟨_, _, type⟩ :: rest => type.records ++ recordsOfFields rest

end

theorem mem_recordsOfBranches {branches : List Schema} {r : Record} :
    r ∈ recordsOfBranches branches ↔ ∃ t ∈ branches, r ∈ t.records := by
  induction branches with
  | nil => simp [recordsOfBranches]
  | cons t rest ih => simp [recordsOfBranches, ih]

theorem mem_recordsOfRecord {x r : Record} :
    r ∈ recordsOfRecord x ↔ ∃ f ∈ x.fields, r ∈ f.type.records := by
  have hof : ∀ fields : List (Field Schema),
      r ∈ recordsOfFields fields ↔ ∃ f ∈ fields, r ∈ f.type.records := by
    intro fields
    induction fields with
    | nil => simp [recordsOfFields]
    | cons f rest ih =>
      obtain ⟨name, doc, type⟩ := f
      simp [recordsOfFields, ih]
  obtain ⟨id, name, doc, fields⟩ := x
  rw [recordsOfRecord, hof]

/-- The records of a part are records of the whole. -/
theorem IsPart.records_subset {s t : Schema} (h : s.IsPart t) : s.records ⊆ t.records := by
  intro r hr
  induction h with
  | self => exact hr
  | items _ ih => simpa [records] using ih
  | values _ ih => simpa [records] using ih
  | branch ht _ ih =>
    rw [records, mem_recordsOfBranches]
    exact ⟨_, ht, ih⟩
  | field hf _ ih =>
    rw [records, List.mem_cons, mem_recordsOfRecord]
    exact Or.inr ⟨_, hf, ih⟩

end Schema

end AvroSwagger
