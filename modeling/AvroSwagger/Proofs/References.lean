import AvroSwagger.Json.Merge
import AvroSwagger.Swagger.Document
import AvroSwagger.Proofs.Translation

/-!
# AvroSwagger.Proofs.References

**The references that a JSON value holds: the strings under `$ref`, at every depth.**

A fragment writes its references under `$ref` and nothing else; a property that
is called `$ref` holds an object and no string.  Laying a value without any such
key over another one takes references away at most.

Main statements:
  * `Swagger.SchemaObject.refStrings_toJson`: the references of a fragment;
  * `Json.refStrings_merge_subset`: the references of a merged value;
  * `Json.find?_mergeMembers_of_objects`: an object that is merged keeps its keys.
-/

namespace AvroSwagger

namespace Json

/-! ## §1. References and keys of a value. -/

mutual

/-- The strings under `$ref` in a value, at every depth. -/
def refStrings : Json → List String
  | .arr items => refStringsOfItems items
  | .obj members => refStringsOfMembers members
  | _ => []

/-- The strings under `$ref` in the items of an array. -/
def refStringsOfItems : List Json → List String
  | [] => []
  | v :: rest => v.refStrings ++ refStringsOfItems rest

/-- The strings under `$ref` in the members of an object. -/
def refStringsOfMembers : List (String × Json) → List String
  | [] => []
  | (key, v) :: rest =>
    (if key = "$ref" then v.string?.toList else []) ++ v.refStrings ++ refStringsOfMembers rest

end

mutual

/-- The keys of the objects in a value, at every depth. -/
def allKeys : Json → List String
  | .arr items => allKeysOfItems items
  | .obj members => allKeysOfMembers members
  | _ => []

/-- The keys in the items of an array. -/
def allKeysOfItems : List Json → List String
  | [] => []
  | v :: rest => v.allKeys ++ allKeysOfItems rest

/-- The keys in the members of an object. -/
def allKeysOfMembers : List (String × Json) → List String
  | [] => []
  | (key, v) :: rest => key :: (v.allKeys ++ allKeysOfMembers rest)

end

@[simp] theorem refStrings_str (s : String) : (str s).refStrings = [] := by rw [refStrings] <;> simp

theorem refStrings_obj (members : List (String × Json)) :
    (obj members).refStrings = refStringsOfMembers members := by rw [refStrings]

theorem mem_refStringsOfItems {items : List Json} {ref : String} :
    ref ∈ refStringsOfItems items ↔ ∃ v ∈ items, ref ∈ v.refStrings := by
  induction items with
  | nil => simp [refStringsOfItems]
  | cons v rest ih => simp [refStringsOfItems, ih]

theorem mem_refStringsOfMembers {members : List (String × Json)} {ref : String} :
    ref ∈ refStringsOfMembers members
      ↔ ∃ kv ∈ members, (kv.1 = "$ref" ∧ kv.2.string? = some ref) ∨ ref ∈ kv.2.refStrings := by
  induction members with
  | nil => simp [refStringsOfMembers]
  | cons kv rest ih =>
    obtain ⟨key, v⟩ := kv
    rw [refStringsOfMembers, List.mem_append, List.mem_append, ih]
    by_cases hkey : key = "$ref"
    · simp [hkey]
    · simp [hkey]

theorem refStringsOfMembers_append (as bs : List (String × Json)) :
    refStringsOfMembers (as ++ bs) = refStringsOfMembers as ++ refStringsOfMembers bs := by
  induction as with
  | nil => simp [refStringsOfMembers]
  | cons kv rest ih =>
    obtain ⟨key, v⟩ := kv
    simp [refStringsOfMembers, ih]

mutual

/-- A value without the key holds no reference. -/
theorem refStrings_eq_nil : ∀ v : Json, "$ref" ∉ v.allKeys → v.refStrings = []
  | .arr items, h => by
    rw [refStrings]
    exact refStringsOfItems_eq_nil items (by rwa [allKeys] at h)
  | .obj members, h => by
    rw [refStrings]
    exact refStringsOfMembers_eq_nil members (by rwa [allKeys] at h)
  | .null, _ | .bool _, _ | .num _, _ | .str _, _ => by simp [refStrings]

/-- Items without the key hold no reference. -/
theorem refStringsOfItems_eq_nil :
    ∀ items : List Json, "$ref" ∉ allKeysOfItems items → refStringsOfItems items = []
  | [], _ => by rw [refStringsOfItems]
  | v :: rest, h => by
    rw [allKeysOfItems, List.mem_append, not_or] at h
    rw [refStringsOfItems, refStrings_eq_nil v h.1, refStringsOfItems_eq_nil rest h.2]
    rfl

/-- Members without the key hold no reference. -/
theorem refStringsOfMembers_eq_nil :
    ∀ members : List (String × Json), "$ref" ∉ allKeysOfMembers members →
      refStringsOfMembers members = []
  | [], _ => by rw [refStringsOfMembers]
  | (key, v) :: rest, h => by
    rw [allKeysOfMembers, List.mem_cons, List.mem_append, not_or, not_or] at h
    rw [refStringsOfMembers, if_neg (Ne.symm h.1), refStrings_eq_nil v h.2.1,
      refStringsOfMembers_eq_nil rest h.2.2]
    rfl

end

/-! ## §2. Merged values. -/

mutual

/-- **Laying a value without the key over another one adds no reference.** -/
theorem refStrings_merge_subset : ∀ (source target : Json), "$ref" ∉ source.allKeys →
    (target.merge source).refStrings ⊆ target.refStrings
  | .obj source, target, h => by
    cases target with
    | obj members =>
      rw [merge]
      show refStringsOfMembers (mergeMembers members source) ⊆ refStringsOfMembers members
      exact refStringsOfMembers_mergeMembers_subset source members (by rwa [allKeys] at h)
    | _ =>
      intro ref href
      simp [merge, refStrings_eq_nil (.obj source) h] at href
  | .arr source, target, h => by
    cases target with
    | arr items =>
      rw [merge]
      show refStringsOfItems (mergeItems items source) ⊆ refStringsOfItems items
      exact refStringsOfItems_mergeItems_subset source items (by rwa [allKeys] at h)
    | _ =>
      intro ref href
      simp [merge, refStrings_eq_nil (.arr source) h] at href
  | .null, target, _ | .bool _, target, _ | .num _, target, _ | .str _, target, _ => by
    rw [merge]
    simp [refStrings]

/-- Laying members without the key over an object adds no reference. -/
theorem refStringsOfMembers_mergeMembers_subset :
    ∀ (source : List (String × Json)) (target : OrderedMap Json),
      "$ref" ∉ allKeysOfMembers source →
        refStringsOfMembers (mergeMembers target source) ⊆ refStringsOfMembers target
  | [], target, _ => by
    rw [mergeMembers]
    exact fun _ h => h
  | (key, value) :: rest, target, h => by
    rw [allKeysOfMembers, List.mem_cons, List.mem_append, not_or, not_or] at h
    rw [mergeMembers]
    intro ref href
    have hinsert := refStringsOfMembers_mergeMembers_subset rest _ h.2.2 href
    obtain ⟨kv, hkv, hin⟩ := mem_refStringsOfMembers.mp hinsert
    rcases OrderedMap.mem_of_mem_insert hkv with rfl | hkv
    · rcases hin with ⟨hkey, -⟩ | hin
      · exact absurd hkey.symm h.1
      · -- the references of the merged value are those of the value it was laid over
        cases hfind : target.find? key with
        | none =>
          simp only [hfind, refStrings_eq_nil value h.2.1, List.not_mem_nil] at hin
        | some existing =>
          simp only [hfind] at hin
          exact mem_refStringsOfMembers.mpr ⟨(key, existing),
            OrderedMap.mem_of_find?_eq_some hfind,
            Or.inr (refStrings_merge_subset value existing h.2.1 hin)⟩
    · exact mem_refStringsOfMembers.mpr ⟨kv, hkv, hin⟩

/-- Laying items without the key over an array adds no reference. -/
theorem refStringsOfItems_mergeItems_subset :
    ∀ (source target : List Json), "$ref" ∉ allKeysOfItems source →
      refStringsOfItems (mergeItems target source) ⊆ refStringsOfItems target
  | [], target, _ => by
    rw [mergeItems]
    exact fun _ h => h
  | value :: rest, target, h => by
    rw [allKeysOfItems, List.mem_append, not_or] at h
    cases target with
    | nil =>
      have hrest := refStringsOfItems_mergeItems_subset rest [] h.2
      simpa only [mergeItems, refStringsOfItems, refStrings_eq_nil value h.1, List.nil_append]
        using hrest
    | cons existing others =>
      rw [mergeItems, refStringsOfItems, refStringsOfItems]
      have hrest := refStringsOfItems_mergeItems_subset rest others h.2
      have hfirst := refStrings_merge_subset value existing h.1
      intro ref href
      rw [List.mem_append] at href ⊢
      exact href.imp (fun hin => hfirst hin) (fun hin => hrest hin)

end

/-- A key stays when members are laid over an object. -/
theorem mem_keys_mergeMembers {target : OrderedMap Json} {source : List (String × Json)}
    {key : String} (h : key ∈ target.keys) : key ∈ OrderedMap.keys (mergeMembers target source) := by
  induction source generalizing target with
  | nil =>
    rw [mergeMembers]
    exact h
  | cons kv rest ih =>
    obtain ⟨k, value⟩ := kv
    rw [mergeMembers]
    refine ih ?_
    rw [OrderedMap.keys_insert]
    split
    · exact h
    · exact List.mem_append_left _ h

/-- **An object over which only objects are laid keeps its keys.** -/
theorem find?_mergeMembers_of_objects {target : OrderedMap Json} {source : List (String × Json)}
    {key : String} {members : OrderedMap Json} (htarget : target.find? key = some (.obj members))
    (hsource : ∀ v, (key, v) ∈ source → ∃ ms, v = .obj ms) :
    ∃ merged : OrderedMap Json, (mergeMembers target source).find? key = some (.obj merged)
      ∧ members.keys ⊆ merged.keys := by
  induction source generalizing target members with
  | nil =>
    rw [mergeMembers]
    exact ⟨members, htarget, fun _ h => h⟩
  | cons kv rest ih =>
    obtain ⟨k, value⟩ := kv
    have hrest : ∀ v, (key, v) ∈ rest → ∃ ms, v = .obj ms :=
      fun v hv => hsource v (List.mem_cons_of_mem _ hv)
    by_cases hk : k = key
    · obtain ⟨ms, rfl⟩ := hsource value (hk ▸ List.mem_cons_self)
      rw [hk, mergeMembers, htarget]
      show ∃ merged : OrderedMap Json,
        (mergeMembers (target.insert key (merge (.obj members) (.obj ms))) rest).find? key
          = some (.obj merged) ∧ members.keys ⊆ merged.keys
      have hstep : (target.insert key (merge (.obj members) (.obj ms))).find? key
          = some (.obj (mergeMembers members ms)) := by
        rw [OrderedMap.find?_insert, if_pos rfl, merge]
      obtain ⟨merged, hmerged, hsub⟩ := ih hstep hrest
      exact ⟨merged, hmerged, fun name hname => hsub (mem_keys_mergeMembers hname)⟩
    · rw [mergeMembers]
      refine ih ?_ hrest
      rw [OrderedMap.find?_insert, if_neg hk, htarget]

end Json

namespace Swagger

open Json
open SchemaObject (optionalMember optionalToJson propertiesToJson? propertiesToJson)

/-! ## §3. Written values. -/

/-- A member that is left out holds no reference. -/
theorem refStringsOfMembers_optionalMember {key : String} (hkey : key ≠ "$ref")
    (value : Option Json) :
    refStringsOfMembers (optionalMember key value) = (value.map Json.refStrings).getD [] := by
  cases value with
  | none => simp [optionalMember, refStringsOfMembers]
  | some v => simp [optionalMember, refStringsOfMembers, hkey]

@[simp] theorem refStrings_stringList (items : List String) :
    (SchemaObject.stringList items).refStrings = [] := by
  rw [SchemaObject.stringList, refStrings]
  induction items with
  | nil => simp [refStringsOfItems]
  | cons s rest ih => simp [refStringsOfItems, refStrings, ih]

/-- A fragment is not written as a string. -/
theorem SchemaObject.string?_toJson (o : SchemaObject) : o.toJson.string? = none := by
  cases o
  rw [toJson]
  rfl

mutual

/-- **The references that a fragment writes are its references.** -/
theorem SchemaObject.refStrings_toJson : ∀ o : SchemaObject, o.toJson.refStrings = o.refs
  | ⟨ref, type, items, properties, required⟩ => by
    have href : refStringsOfMembers (optionalMember "$ref" (ref.map .str)) = ref.toList := by
      cases ref <;> simp [optionalMember, refStringsOfMembers, Json.string?, refStrings]
    have htype : refStringsOfMembers (optionalMember "type" (type.map fun t => .str t.name))
        = [] := by
      cases type <;> simp [optionalMember, refStringsOfMembers, refStrings]
    have hitems : refStringsOfMembers (optionalMember "items" (optionalToJson items))
        = refsOfItems items := by
      rw [refStringsOfMembers_optionalMember (by decide)]
      exact refStrings_optionalToJson items
    have hproperties :
        refStringsOfMembers (optionalMember "properties" (propertiesToJson? properties))
          = refsOfProperties? properties := by
      rw [refStringsOfMembers_optionalMember (by decide)]
      exact refStrings_propertiesToJson? properties
    have hrequired : refStringsOfMembers
        (optionalMember "required" (required.map SchemaObject.stringList)) = [] := by
      cases required <;> simp [optionalMember, refStringsOfMembers]
    rw [toJson, refStrings, refStringsOfMembers_append, refStringsOfMembers_append,
      refStringsOfMembers_append, refStringsOfMembers_append, href, htype, hitems, hproperties,
      hrequired, refs]
    simp

/-- The references that an item part writes. -/
theorem SchemaObject.refStrings_optionalToJson : ∀ items : Option SchemaObject,
    ((optionalToJson items).map Json.refStrings).getD [] = refsOfItems items
  | none => by simp [optionalToJson, refsOfItems]
  | some o => by
    rw [optionalToJson, refsOfItems]
    exact SchemaObject.refStrings_toJson o

/-- The references that a property part writes. -/
theorem SchemaObject.refStrings_propertiesToJson? :
    ∀ properties : Option (List (String × SchemaObject)),
      ((propertiesToJson? properties).map Json.refStrings).getD [] = refsOfProperties? properties
  | none => by simp [propertiesToJson?, refsOfProperties?]
  | some ps => by
    rw [propertiesToJson?, refsOfProperties?]
    show refStrings (.obj (propertiesToJson ps)) = _
    rw [refStrings]
    exact SchemaObject.refStringsOfMembers_propertiesToJson ps

/-- The references that properties write. -/
theorem SchemaObject.refStringsOfMembers_propertiesToJson :
    ∀ ps : List (String × SchemaObject),
      refStringsOfMembers (propertiesToJson ps) = refsOfProperties ps
  | [] => by simp [propertiesToJson, refsOfProperties, refStringsOfMembers]
  | (name, o) :: rest => by
    rw [propertiesToJson, refStringsOfMembers, refsOfProperties,
      SchemaObject.refStrings_toJson o, SchemaObject.refStringsOfMembers_propertiesToJson rest]
    -- a property called `$ref` holds an object
    simp [SchemaObject.string?_toJson]

end

/-- The references that a map of parts writes, where no part is written as a string. -/
theorem mem_refStrings_mapToJson {α : Type} {write : α → Json}
    (hwrite : ∀ a, (write a).string? = none) {m : OrderedMap α} {ref : String} :
    ref ∈ (mapToJson write m).refStrings ↔ ∃ kv ∈ m, ref ∈ (write kv.2).refStrings := by
  rw [mapToJson, refStrings, mem_refStringsOfMembers]
  constructor
  · rintro ⟨kv, hkv, h⟩
    obtain ⟨part, hpart, rfl⟩ := List.mem_map.mp hkv
    rcases h with ⟨-, hstr⟩ | hin
    · simp only [hwrite] at hstr
      exact absurd hstr (by simp)
    · exact ⟨part, hpart, hin⟩
  · rintro ⟨part, hpart, hin⟩
    exact ⟨_, List.mem_map_of_mem hpart, Or.inr hin⟩

theorem Parameter.refStrings_toJson (p : Parameter) : p.toJson.refStrings = p.schema.refs := by
  have hdescription :
      refStringsOfMembers (optionalMember "description" (p.description.map .str)) = [] := by
    cases p.description <;> simp [optionalMember, refStringsOfMembers, refStrings]
  rw [Parameter.toJson, refStrings, refStringsOfMembers_append, refStringsOfMembers_append,
    hdescription, ← SchemaObject.refStrings_toJson]
  simp [refStringsOfMembers, refStrings]

theorem ResponseObject.refStrings_toJson (r : ResponseObject) :
    r.toJson.refStrings = (r.schema.map SchemaObject.refs).getD [] := by
  rw [ResponseObject.toJson, refStrings, refStringsOfMembers,
    refStringsOfMembers_optionalMember (by decide)]
  cases r.schema with
  | none => simp [refStrings]
  | some o => simp [refStrings, SchemaObject.refStrings_toJson]

/-- The references of an operation are those of its parameters and responses. -/
theorem Operation.mem_refStrings_toJson {o : Operation} {ref : String} :
    ref ∈ o.toJson.refStrings
      ↔ (∃ p ∈ o.parameters, ref ∈ p.schema.refs)
        ∨ ∃ kv ∈ o.responses, ∃ schema, kv.2.schema = some schema ∧ ref ∈ schema.refs := by
  have hparameters : ref ∈ (Json.arr (o.parameters.map Parameter.toJson)).refStrings
      ↔ ∃ p ∈ o.parameters, ref ∈ p.schema.refs := by
    rw [refStrings, mem_refStringsOfItems]
    constructor
    · rintro ⟨v, hv, hin⟩
      obtain ⟨p, hp, rfl⟩ := List.mem_map.mp hv
      exact ⟨p, hp, by rwa [Parameter.refStrings_toJson] at hin⟩
    · rintro ⟨p, hp, hin⟩
      exact ⟨_, List.mem_map_of_mem hp, by rwa [Parameter.refStrings_toJson]⟩
  have hresponses : ref ∈ (mapToJson ResponseObject.toJson o.responses).refStrings
      ↔ ∃ kv ∈ o.responses, ∃ schema, kv.2.schema = some schema ∧ ref ∈ schema.refs := by
    rw [mem_refStrings_mapToJson (fun _ => rfl)]
    refine exists_congr fun kv => and_congr_right fun _ => ?_
    rw [ResponseObject.refStrings_toJson]
    cases kv.2.schema <;> simp
  rw [← hparameters, ← hresponses, Operation.toJson, refStrings_obj]
  simp [refStringsOfMembers]

/-- The references of a document are those of its information, its paths and its definitions. -/
theorem Document.mem_refStrings_toJson {d : Document} {ref : String} :
    ref ∈ d.toJson.refStrings
      ↔ ref ∈ (Json.obj d.info).refStrings
        ∨ (∃ kv ∈ d.paths, ref ∈ kv.2.post.toJson.refStrings)
        ∨ ∃ kv ∈ d.definitions, ref ∈ kv.2.refs := by
  have hpaths : ref ∈ (mapToJson PathItem.toJson d.paths).refStrings
      ↔ ∃ kv ∈ d.paths, ref ∈ kv.2.post.toJson.refStrings := by
    rw [mem_refStrings_mapToJson (fun _ => rfl)]
    refine exists_congr fun kv => and_congr_right fun _ => ?_
    rw [PathItem.toJson, refStrings]
    simp [refStringsOfMembers]
  have hdefinitions : ref ∈ (mapToJson SchemaObject.toJson d.definitions).refStrings
      ↔ ∃ kv ∈ d.definitions, ref ∈ kv.2.refs := by
    rw [mem_refStrings_mapToJson SchemaObject.string?_toJson]
    simp only [SchemaObject.refStrings_toJson]
  rw [← hpaths, ← hdefinitions, Document.toJson, refStrings_obj]
  simp [refStringsOfMembers]

end Swagger

end AvroSwagger
