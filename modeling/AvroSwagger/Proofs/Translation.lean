import AvroSwagger.Generation.Fragment
import AvroSwagger.Proofs.OrderedMap
import Mathlib.Data.List.Forall2

/-!
# AvroSwagger.Proofs.Translation

**What the definition of a record depends on and what it refers to.**

A type has a fragment exactly when it is, its arrays stripped, a scalar, a
record or a use of an open record; the fragment holds at most one reference, to
the short name of that record.  So a record has a definition exactly when it is
`Translatable`, and every reference in the definition comes from a field.

Main statements:
  * `definition_isOk_iff`: which records have a definition;
  * `mem_references_iff`: which records a translatable record refers to;
  * `exists_field_of_mem_refs`: where a reference of a definition comes from.
-/

namespace AvroSwagger

open Swagger

/-! ## §1. Types without their arrays. -/

namespace Schema

/-- A type without the arrays around it. -/
def core : Schema → Schema
  | .array items => items.core
  | s => s

/-- Whether a type that is no array has a fragment. -/
def isMappable : Schema → Bool
  | .boolean => true
  | .int => true
  | .long => true
  | .float => true
  | .double => true
  | .bytes => true
  | .string => true
  | .record _ => true
  | .named _ => true
  | _ => false

/-- The short name that the fragment of a type refers to. -/
def referredName? (s : Schema) : Option String :=
  match s.core with
  | .record r => some r.shortName
  | .named fullName => some (AvroSwagger.shortName fullName)
  | _ => none

@[simp] theorem referredName?_array (items : Schema) :
    (Schema.array items).referredName? = items.referredName? := rfl

/-- The fragment of an array is made from the fragment of its items. -/
theorem fragment_array_eq_ok_iff {items : Schema} {v : SchemaObject} :
    (Schema.array items).fragment = .ok v ↔ ∃ w, items.fragment = .ok w ∧ v = .arrayOf w := by
  rw [fragment]
  cases items.fragment with
  | error e => simp [bind, Except.bind]
  | ok w =>
    simp only [bind, Except.bind, Except.ok.injEq, exists_eq_left']
    exact eq_comm

/-- **A type has a fragment exactly when it is mappable without its arrays.** -/
theorem fragment_isOk_iff (s : Schema) :
    (∃ v, s.fragment = .ok v) ↔ s.core.isMappable = true := by
  fun_induction Schema.core s with
  | case1 items ih =>
    rw [← ih]
    simp only [fragment_array_eq_ok_iff]
    constructor
    · rintro ⟨_, w, hw, _⟩
      exact ⟨w, hw⟩
    · rintro ⟨w, hw⟩
      exact ⟨_, w, hw, rfl⟩
  | case2 s hs =>
    cases s with
    | array items => exact absurd rfl (hs items)
    | _ => simp [fragment, isMappable]

/-- The record that a type refers to is the record inside its arrays. -/
theorem mem_referenced_iff {s : Schema} {r : Record} :
    r ∈ s.referenced ↔ s.core = .record r := by
  fun_induction Schema.core s with
  | case1 items ih => rw [referenced, ih]
  | case2 s hs =>
    cases s with
    | array items => exact absurd rfl (hs items)
    | record x =>
      simp only [referenced, List.mem_singleton, Schema.record.injEq]
      exact eq_comm
    | _ => simp [referenced]

end Schema

/-! ## §2. Fragments and what they refer to. -/

namespace Swagger.SchemaObject

mutual

/-- The references in a fragment, at every depth. -/
def refs : SchemaObject → List String
  | ⟨ref, _, items, properties, _⟩ => ref.toList ++ refsOfItems items ++ refsOfProperties? properties

/-- The references in the item part. -/
def refsOfItems : Option SchemaObject → List String
  | none => []
  | some o => o.refs

/-- The references in the property part. -/
def refsOfProperties? : Option (List (String × SchemaObject)) → List String
  | none => []
  | some ps => refsOfProperties ps

/-- The references in a list of properties. -/
def refsOfProperties : List (String × SchemaObject) → List String
  | [] => []
  | (_, o) :: rest => o.refs ++ refsOfProperties rest

end

@[simp] theorem refs_reference (name : String) : (reference name).refs = [definitionRef name] := rfl

@[simp] theorem refs_arrayOf (items : SchemaObject) : (arrayOf items).refs = items.refs := by
  simp [arrayOf, empty, refs, refsOfItems, refsOfProperties?]

theorem mem_refsOfProperties {ps : List (String × SchemaObject)} {ref : String} :
    ref ∈ refsOfProperties ps ↔ ∃ kv ∈ ps, ref ∈ kv.2.refs := by
  induction ps with
  | nil => simp [refsOfProperties]
  | cons hd rest ih => simp [refsOfProperties, ih]

theorem mem_refs_object {ps : OrderedMap SchemaObject} {ref : String} :
    ref ∈ (object ps).refs ↔ ∃ kv ∈ ps, ref ∈ kv.2.refs := by
  rw [← mem_refsOfProperties]
  simp [object, empty, refs, refsOfItems, refsOfProperties?]

/-- What a type can be translated to: a scalar, a reference, or an array of such. -/
inductive IsFragment : SchemaObject → Prop
  | scalar (t : DataType) : IsFragment (.scalar t)
  | reference (name : String) : IsFragment (.reference name)
  | arrayOf {items : SchemaObject} (h : IsFragment items) : IsFragment (.arrayOf items)

end Swagger.SchemaObject

open Swagger.SchemaObject (IsFragment)

theorem isFragment_of_fragment {s : Schema} {v : SchemaObject} (h : s.fragment = .ok v) :
    IsFragment v := by
  fun_induction Schema.core s generalizing v with
  | case1 items ih =>
    obtain ⟨w, hw, hv⟩ := Schema.fragment_array_eq_ok_iff.mp h
    rw [hv]
    exact .arrayOf (ih hw)
  | case2 s hs =>
    cases s with
    | array items => exact absurd rfl (hs items)
    | record r =>
      injection h with h
      exact h ▸ .reference _
    | named fullName =>
      injection h with h
      exact h ▸ .reference _
    | null => simp [Schema.fragment] at h
    | map values => simp [Schema.fragment] at h
    | union branches => simp [Schema.fragment] at h
    | enum fullName => simp [Schema.fragment] at h
    | fixed fullName => simp [Schema.fragment] at h
    | _ =>
      injection h with h
      exact h ▸ .scalar _

/-- **The fragment of a type refers to the record inside its arrays and to nothing else.** -/
theorem refs_of_fragment {s : Schema} {v : SchemaObject} (h : s.fragment = .ok v) :
    v.refs = s.referredName?.toList.map definitionRef := by
  fun_induction Schema.core s generalizing v with
  | case1 items ih =>
    obtain ⟨w, hw, hv⟩ := Schema.fragment_array_eq_ok_iff.mp h
    rw [hv, SchemaObject.refs_arrayOf, ih hw, Schema.referredName?_array]
  | case2 s hs =>
    cases s with
    | array items => exact absurd rfl (hs items)
    | null => simp [Schema.fragment] at h
    | map values => simp [Schema.fragment] at h
    | union branches => simp [Schema.fragment] at h
    | enum fullName => simp [Schema.fragment] at h
    | fixed fullName => simp [Schema.fragment] at h
    | _ =>
      injection h with h
      rw [← h]
      rfl

/-! ## §3. Definitions. -/

/-- A member of one side of a pairing has a partner on the other side. -/
theorem exists_left_of_forall₂ {α β : Type} {R : α → β → Prop} {as : List α} {bs : List β}
    (h : List.Forall₂ R as bs) : ∀ b ∈ bs, ∃ a ∈ as, R a b := by
  induction h with
  | nil => simp
  | cons hab _ ih =>
    intro b hb
    rcases List.mem_cons.mp hb with rfl | hb
    · exact ⟨_, List.mem_cons_self, hab⟩
    · obtain ⟨a, ha, hr⟩ := ih b hb
      exact ⟨a, List.mem_cons_of_mem _ ha, hr⟩

namespace RecordOf

/-- Whether every field type of a record, its arrays stripped, has a fragment. -/
def Translatable (r : Record) : Prop := ∀ f ∈ r.fields, f.type.core.isMappable = true

/-- One write for each field: the field's name and the fragment of its type. -/
def FieldWrites : List (Field Schema) → List (String × SchemaObject) → Prop :=
  List.Forall₂ fun f kv => kv.1 = f.name ∧ f.type.fragment = .ok kv.2

/-- The properties of fields are what one write for each field leaves behind. -/
theorem propertiesFrom_eq_ok_iff {record : String} {fields : List (Field Schema)}
    {written ps : OrderedMap SchemaObject} :
    propertiesFrom record written fields = .ok ps
      ↔ ∃ pairs, FieldWrites fields pairs ∧ ps = written.insertAll pairs := by
  unfold FieldWrites
  induction fields generalizing written with
  | nil =>
    simp only [propertiesFrom, List.forall₂_nil_left_iff, exists_eq_left, Except.ok.injEq]
    exact eq_comm
  | cons f rest ih =>
    cases hf : f.type.fragment with
    | error type => simp [propertiesFrom, List.forall₂_cons_left_iff, hf]
    | ok v =>
      simp only [propertiesFrom, hf, ih, List.forall₂_cons_left_iff, Except.ok.injEq]
      constructor
      · rintro ⟨pairs, hpairs, hps⟩
        exact ⟨(f.name, v) :: pairs, ⟨(f.name, v), pairs, ⟨rfl, rfl⟩, hpairs, rfl⟩, hps⟩
      · rintro ⟨_, ⟨⟨name, w⟩, pairs, ⟨hname, hw⟩, hpairs, rfl⟩, hps⟩
        simp only at hname hw
        rw [hname, ← hw] at hps
        exact ⟨pairs, hpairs, hps⟩

/-- A definition is the object of one write for each field. -/
theorem definition_eq_ok_iff {r : Record} {v : SchemaObject} :
    r.definition = .ok v
      ↔ ∃ pairs, FieldWrites r.fields pairs ∧ v = .object (OrderedMap.ofList pairs) := by
  have hdef : r.definition = .ok v
      ↔ ∃ ps, propertiesFrom r.fullName [] r.fields = .ok ps ∧ v = .object ps := by
    unfold definition
    cases propertiesFrom r.fullName [] r.fields with
    | error e => simp [bind, Except.bind]
    | ok ps =>
      simp only [bind, Except.bind, Except.ok.injEq, exists_eq_left']
      exact eq_comm
  rw [hdef]
  simp only [propertiesFrom_eq_ok_iff]
  constructor
  · rintro ⟨ps, ⟨pairs, hpairs, hps⟩, hv⟩
    exact ⟨pairs, hpairs, by rw [hv, hps, OrderedMap.ofList]⟩
  · rintro ⟨pairs, hpairs, hv⟩
    exact ⟨_, ⟨pairs, hpairs, rfl⟩, by rw [hv, OrderedMap.ofList]⟩

/-- **A record has a definition exactly when every field type has a fragment.** -/
theorem definition_isOk_iff (r : Record) : (∃ v, r.definition = .ok v) ↔ r.Translatable := by
  have hwrites : ∀ fields : List (Field Schema),
      (∃ pairs, FieldWrites fields pairs) ↔ ∀ f ∈ fields, f.type.core.isMappable = true := by
    intro fields
    unfold FieldWrites
    induction fields with
    | nil => simp
    | cons f rest ih =>
      rw [List.forall_mem_cons, ← ih, ← Schema.fragment_isOk_iff]
      simp only [List.forall₂_cons_left_iff]
      constructor
      · rintro ⟨_, kv, pairs, ⟨-, hkv⟩, hpairs, -⟩
        exact ⟨⟨kv.2, hkv⟩, pairs, hpairs⟩
      · rintro ⟨⟨v, hv⟩, pairs, hpairs⟩
        exact ⟨_, (f.name, v), pairs, ⟨rfl, hv⟩, hpairs, rfl⟩
  unfold Translatable
  rw [← hwrites]
  simp only [definition_eq_ok_iff]
  constructor
  · rintro ⟨_, pairs, hpairs, -⟩
    exact ⟨pairs, hpairs⟩
  · rintro ⟨pairs, hpairs⟩
    exact ⟨_, pairs, hpairs, rfl⟩

/-- A definition fails for a field type without fragment and for nothing else. -/
theorem exists_unsupportedType_of_definition {r : Record} {e : GenerationError}
    (h : r.definition = .error e) : ∃ type place, e = .unsupportedType type place := by
  have hof : ∀ (fields : List (Field Schema)) (written : OrderedMap SchemaObject),
      propertiesFrom r.fullName written fields = .error e →
        ∃ type place, e = .unsupportedType type place := by
    intro fields
    induction fields with
    | nil =>
      intro written hw
      exact absurd hw (by simp [propertiesFrom])
    | cons f rest ih =>
      intro written hw
      rw [propertiesFrom] at hw
      cases hf : f.type.fragment with
      | ok fragment =>
        rw [hf] at hw
        exact ih _ hw
      | error type =>
        rw [hf] at hw
        injection hw with hw
        exact ⟨_, _, hw.symm⟩
  unfold definition at h
  cases hp : propertiesFrom r.fullName [] r.fields with
  | error e' =>
    rw [hp] at h
    injection h with h
    apply hof r.fields []
    rw [hp, h]
  | ok ps =>
    rw [hp] at h
    exact absurd h (by simp [bind, Except.bind])

/-- The properties of a definition have distinct names and stem from the fields. -/
theorem properties_of_definition {r : Record} {v : SchemaObject} (h : r.definition = .ok v) :
    ∃ ps : OrderedMap SchemaObject, v = .object ps ∧ ps.keys.Nodup
      ∧ ∀ kv ∈ ps, ∃ f ∈ r.fields, f.type.fragment = .ok kv.2 := by
  obtain ⟨pairs, hpairs, hv⟩ := definition_eq_ok_iff.mp h
  refine ⟨OrderedMap.ofList pairs, hv, OrderedMap.nodup_keys_ofList pairs, ?_⟩
  intro kv hkv
  rcases OrderedMap.mem_of_mem_insertAll hkv with hkv | hkv
  · simp at hkv
  · obtain ⟨f, hf, -, hfrag⟩ := exists_left_of_forall₂ hpairs kv hkv
    exact ⟨f, hf, hfrag⟩

/-- **Every reference in a definition comes from a field.** -/
theorem exists_field_of_mem_refs {r : Record} {v : SchemaObject} (h : r.definition = .ok v)
    {ref : String} (href : ref ∈ v.refs) :
    ∃ f ∈ r.fields, ∃ name, f.type.referredName? = some name ∧ ref = definitionRef name := by
  obtain ⟨ps, rfl, -, hps⟩ := properties_of_definition h
  obtain ⟨kv, hkv, hin⟩ := SchemaObject.mem_refs_object.mp href
  obtain ⟨f, hf, hfrag⟩ := hps kv hkv
  rw [refs_of_fragment hfrag, List.mem_map] at hin
  obtain ⟨name, hname, hrefn⟩ := hin
  exact ⟨f, hf, name, Option.mem_toList.mp hname, hrefn.symm⟩

/-! ## §4. The records a record refers to. -/

/-- A reference of a record stands in one of its fields. -/
theorem exists_field_of_mem_references {r s : Record} (h : s ∈ r.references) :
    ∃ f ∈ r.fields, f.type.core = .record s := by
  have hof : ∀ fields : List (Field Schema), s ∈ referencesOf fields →
      ∃ f ∈ fields, f.type.core = .record s := by
    intro fields hs
    induction fields with
    | nil => simp [referencesOf] at hs
    | cons f rest ih =>
      simp only [referencesOf] at hs
      split at hs
      next =>
        rcases List.mem_append.mp hs with hs | hs
        · exact ⟨f, List.mem_cons_self, Schema.mem_referenced_iff.mp hs⟩
        · obtain ⟨g, hg, hcore⟩ := ih hs
          exact ⟨g, List.mem_cons_of_mem _ hg, hcore⟩
      next => simp at hs
  exact hof r.fields h

/-- **A translatable record refers to all records in its fields.** -/
theorem mem_references_iff {r s : Record} (htr : r.Translatable) :
    s ∈ r.references ↔ ∃ f ∈ r.fields, f.type.core = .record s := by
  refine ⟨exists_field_of_mem_references, ?_⟩
  have hof : ∀ fields : List (Field Schema), (∀ f ∈ fields, f.type.core.isMappable = true) →
      ∀ f ∈ fields, f.type.core = .record s → s ∈ referencesOf fields := by
    intro fields hall f hf hcore
    induction fields with
    | nil => simp at hf
    | cons g rest ih =>
      obtain ⟨v, hv⟩ := (Schema.fragment_isOk_iff g.type).mpr (hall g List.mem_cons_self)
      simp only [referencesOf, hv, List.mem_append]
      rcases List.mem_cons.mp hf with rfl | hf
      · exact Or.inl (Schema.mem_referenced_iff.mpr hcore)
      · exact Or.inr (ih (fun x hx => hall x (List.mem_cons_of_mem _ hx)) hf)
  rintro ⟨f, hf, hcore⟩
  exact hof r.fields htr f hf hcore

/-- A referenced record is smaller than the record that refers to it. -/
theorem recordCount_lt_of_mem_references {r s : Record} (h : s ∈ r.references) :
    s.recordCount < r.recordCount := by
  have hle : ∀ rs : List Record, s ∈ rs → s.recordCount ≤ totalRecordCount rs := by
    intro rs hs
    induction rs with
    | nil => simp at hs
    | cons x rest ih =>
      rw [totalRecordCount]
      rcases List.mem_cons.mp hs with rfl | hs
      · omega
      · have := ih hs
        omega
  have h1 := hle r.references h
  have h2 := recordCount_references_lt r
  omega

end RecordOf

end AvroSwagger
