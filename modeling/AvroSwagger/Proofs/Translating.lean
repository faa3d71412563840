import AvroSwagger.Proofs.Representation
import Mathlib.Data.List.TakeWhile

/-!
# AvroSwagger.Proofs.Translating

**What the translation of a record gives, and what it leaves on the stack.**

The fields of a record are translated one after the other until one has a type
without a fragment.  The records referred to by the fields in front of that one are on
the stack by then and stay there, whatever becomes of the record.

Main statements:
  * `propertiesFrom_eq_error`, `referencesOf_eq`: the first field type without fragment, and the
    fields in front of it;
  * `properties_spec`: the properties of a record all of whose fields have fragments;
  * `definition_spec`: result and stack, in either case.
-/

namespace AvroSwagger

open Swagger

/-! ## §1. Types. -/

namespace Schema

/-- Whether a type has no fragment, because the type inside its arrays has none. -/
def isOffending (s : Schema) : Bool := !s.core.isMappable

/-- A type without fragment fails with the type inside its arrays. -/
theorem fragment_of_isOffending {s : Schema} (h : s.isOffending = true) :
    s.fragment = .error s.core := by
  unfold isOffending at h
  fun_induction Schema.core s with
  | case1 items ih =>
    rw [fragment, ih h]
    rfl
  | case2 s hs =>
    cases s with
    | array items => exact absurd rfl (hs items)
    | null | map _ | union _ | enum _ | fixed _ => rfl
    | _ => exact absurd h (by simp [isMappable])

/-- The record that a type refers to, if there is one inside its arrays. -/
theorem referenced_eq (s : Schema) : s.referenced = s.core.record?.toList := by
  fun_induction Schema.core s with
  | case1 items ih => rw [referenced, ih]
  | case2 s hs =>
    cases s with
    | array items => exact absurd rfl (hs items)
    | _ => rfl

end Schema

/-! ## §2. Fields. -/

namespace RecordOf

/-- The records that the types of fields refer to, in field order and once for each field. -/
def recordsIn (fields : List (Field Schema)) : List Record :=
  fields.filterMap fun f => f.type.core.record?

/-- The first field whose type has no fragment. -/
def offending? (fields : List (Field Schema)) : Option (Field Schema) :=
  fields.find? fun f => f.type.isOffending

/-- The fields in front of the first one whose type has no fragment. -/
def inFront (fields : List (Field Schema)) : List (Field Schema) :=
  fields.takeWhile fun f => !f.type.isOffending

variable {fields : List (Field Schema)}

theorem offending?_eq_none_iff :
    offending? fields = none ↔ ∀ f ∈ fields, f.type.core.isMappable = true := by
  rw [offending?, List.find?_eq_none]
  simp [Schema.isOffending]

/-- Where every type has a fragment, all fields are in front. -/
theorem inFront_of_offending?_eq_none (h : offending? fields = none) : inFront fields = fields := by
  rw [offending?, List.find?_eq_none] at h
  exact List.takeWhile_eq_self_iff.mpr fun f hf => by simpa using h f hf

/-- **The references are those of the fields in front of the first offending one.** -/
theorem referencesOf_eq (fields : List (Field Schema)) :
    referencesOf fields = recordsIn (inFront fields) := by
  induction fields with
  | nil => rfl
  | cons f rest ih =>
    rw [referencesOf, inFront, List.takeWhile_cons]
    cases hf : f.type.isOffending with
    | true =>
      rw [Schema.fragment_of_isOffending hf]
      rfl
    | false =>
      obtain ⟨v, hv⟩ :=
        (Schema.fragment_isOk_iff f.type).mpr (by simpa [Schema.isOffending] using hf)
      rw [hv]
      show f.type.referenced ++ referencesOf rest = recordsIn (f :: inFront rest)
      rw [Schema.referenced_eq, ih, recordsIn, recordsIn, List.filterMap_cons]
      cases f.type.core.record? <;> rfl

/-- **The first offending field ends the translation**, whatever was written before. -/
theorem propertiesFrom_eq_error {record : String} {written : OrderedMap SchemaObject}
    {f : Field Schema} (h : offending? fields = some f) :
    propertiesFrom record written fields
      = .error (.unsupportedType f.type.core.display (some ⟨f.name, record⟩)) := by
  induction fields generalizing written with
  | nil => exact absurd h (by simp [offending?])
  | cons g rest ih =>
    rw [offending?, List.find?_cons] at h
    cases hg : g.type.isOffending with
    | true =>
      rw [hg] at h
      injection h with h
      rw [propertiesFrom, Schema.fragment_of_isOffending hg, h]
    | false =>
      rw [hg] at h
      obtain ⟨v, hv⟩ :=
        (Schema.fragment_isOk_iff g.type).mpr (by simpa [Schema.isOffending] using hg)
      rw [propertiesFrom, hv]
      exact ih h

/-! ## §3. Properties. -/

/-- The writes of fields carry the names of the fields. -/
theorem map_fst_of_fieldWrites {pairs : List (String × SchemaObject)}
    (h : FieldWrites fields pairs) : pairs.map Prod.fst = fields.map Field.name := by
  induction h with
  | nil => rfl
  | cons hf _ ih => rw [List.map_cons, List.map_cons, hf.1, ih]

/-- The last write under a name is the fragment of the last field of that name. -/
theorem find?_of_fieldWrites {pairs : List (String × SchemaObject)}
    (h : FieldWrites fields pairs) (name : String) :
    (pairs.find? fun kv => kv.1 = name).map Prod.snd
      = (fields.find? fun f => f.name = name).bind fun f => f.type.fragment.toOption := by
  induction h with
  | nil => rfl
  | @cons f kv _ _ hf _ ih =>
    rw [List.find?_cons, List.find?_cons, hf.1]
    by_cases hn : f.name = name
    · simp [hn, hf.2, Except.toOption]
    · simpa [hn] using ih

/-- An object requires its properties, if it has any. -/
theorem required_object (ps : OrderedMap SchemaObject) :
    (SchemaObject.object ps).required = if ps.keys = [] then none else some ps.keys := by
  cases ps <;> rfl

/-- **The properties of a record all of whose fields have fragments.** -/
theorem properties_spec {r : Record} (h : offending? r.fields = none) :
    ∃ ps : OrderedMap SchemaObject, r.definition = .ok (.object ps)
      ∧ ps.keys = (r.fields.map Field.name).eraseDups
      ∧ (∀ name, ps.find? name = (r.fields.reverse.find? fun f => f.name = name).bind
          fun f => f.type.fragment.toOption)
      ∧ (SchemaObject.object ps).required = if r.fields = [] then none else some ps.keys := by
  obtain ⟨value, hvalue⟩ := r.definition_isOk_iff.mpr (offending?_eq_none_iff.mp h)
  obtain ⟨pairs, hpairs, rfl⟩ := definition_eq_ok_iff.mp hvalue
  have hkeys : (OrderedMap.ofList pairs).keys = (r.fields.map Field.name).eraseDups := by
    rw [OrderedMap.keys_ofList, map_fst_of_fieldWrites hpairs]
  have hempty : (OrderedMap.ofList pairs).keys = [] ↔ r.fields = [] := by
    rw [hkeys]
    cases r.fields <;> simp [List.eraseDups_cons]
  refine ⟨OrderedMap.ofList pairs, hvalue, hkeys, fun name => ?_, ?_⟩
  · have hback : FieldWrites r.fields.reverse pairs.reverse := List.rel_reverse hpairs
    rw [OrderedMap.find?_ofList, find?_of_fieldWrites hback]
  · rw [required_object]
    simp only [hempty]

end RecordOf

/-! ## §4. The stack. -/

namespace Collector

/-- The records on the stack from the bottom to the top, which is visited next. -/
def stack (c : Collector) : List Record := c.pending.reverse

theorem stack_push (c : Collector) (records : List Record) :
    (c.push records).stack = c.stack ++ records := by
  rw [stack, stack, push, List.reverse_append, List.reverse_reverse]

/-- A visit that translates its record leaves the references on the stack and nothing else. -/
theorem stack_collectRecord {c : Collector} {r : Record} (hname : r.shortName ≠ responseName)
    (hk : c.known? r = none) : (c.collectRecord r).1.stack = (c.push r.references).stack := by
  have hvisit := visit_collectRecord c r
  generalize c.collectRecord r = outcome at hvisit ⊢
  cases hvisit with
  | reserved hres => exact absurd hres hname
  | known _ hknown => exact absurd (hk.symm.trans hknown) (by simp)
  | untranslated | bound | admitted | collided => rfl

/-- **What the translation of a record gives and leaves on the stack.**  It succeeds exactly when
every field type has a fragment.  Then the properties are named after the fields, each name at its
first field and with the fragment of its last one; all names are required; and the records of all
fields are on top of the stack, in field order and once for each field.  Otherwise the first field
type without a fragment is reported, as the type inside its arrays, with its field and its record;
and the records of the fields in front of it are on top of the stack. -/
theorem definition_spec (c : Collector) (r : Record) :
    ((∃ value, r.definition = .ok value) ↔ r.Translatable)
      ∧ (r.shortName ≠ responseName → c.known? r = none →
          (c.collectRecord r).1.stack = (c.push r.references).stack)
      ∧ match RecordOf.offending? r.fields with
        | none => ∃ ps : OrderedMap SchemaObject, r.definition = .ok (.object ps)
            ∧ ps.keys = (r.fields.map Field.name).eraseDups
            ∧ (∀ name, ps.find? name = (r.fields.reverse.find? fun f => f.name = name).bind
                fun f => f.type.fragment.toOption)
            ∧ (SchemaObject.object ps).required = (if r.fields = [] then none else some ps.keys)
            ∧ (c.push r.references).stack = c.stack ++ RecordOf.recordsIn r.fields
        | some f => r.definition
              = .error (.unsupportedType f.type.core.display (some ⟨f.name, r.fullName⟩))
            ∧ (c.push r.references).stack
              = c.stack ++ RecordOf.recordsIn (RecordOf.inFront r.fields) := by
  refine ⟨r.definition_isOk_iff, stack_collectRecord, ?_⟩
  rw [stack_push, RecordOf.references, RecordOf.referencesOf_eq]
  cases hoff : RecordOf.offending? r.fields with
  | none =>
    obtain ⟨ps, hdef, hkeys, hfind, hrequired⟩ := RecordOf.properties_spec hoff
    exact ⟨ps, hdef, hkeys, hfind, hrequired, by rw [RecordOf.inFront_of_offending?_eq_none hoff]⟩
  | some f =>
    refine ⟨?_, rfl⟩
    rw [RecordOf.definition, RecordOf.propertiesFrom_eq_error hoff]
    rfl

end Collector

end AvroSwagger
