import AvroSwagger.Swagger.Template
import AvroSwagger.Proofs.Values
import Mathlib.Data.List.Nodup

/-!
# AvroSwagger.Proofs.RoundTrip

**What a model writes reads back as the model.**

A writer lists the parts of a typed object that are there; a reader looks each part up
under its name and passes over the rest.  So a model is restored when its parts are
restored, each part is written under the name it is looked up by, and no part is
written as `null`, which would count as absent.  An empty part is written and found
empty.

Maps are read by writing their pairs one after the other.  This gives the map back, in
its order, because it lists no key twice.

Main statements:
  * `Json.Source.parts?_ofJson`: what is found in an object that was written;
  * `Json.Source.restores_list`, `Json.Source.restores_map`: lists and maps of restored values;
  * `Swagger.SchemaObject.restores`: fragments, at any depth;
  * `Swagger.ofSource?_toJson`: all models.
-/

namespace AvroSwagger

namespace Json.Source

/-! ## §1. Restored values. -/

/-- **A value is restored**: the reader gets it back from what is written of it. -/
def Restores {α : Type} (read : Source → Option α) (write : α → Json) (a : α) : Prop :=
  read (ofJson (write a)) = some a

theorem restores_string (s : String) : Restores string? .str s := by
  rw [Restores, ofJson, string?]

theorem restores_bool (b : Bool) : Restores bool? .bool b := by
  rw [Restores, ofJson, bool?]

/-- A list is restored with its items, in their order. -/
theorem restores_list {α : Type} {read : Source → Option α} {write : α → Json} {items : List α}
    (h : ∀ a ∈ items, Restores read write a) :
    Restores (listOf? read) (fun as => .arr (as.map write)) items := by
  rw [Restores, ofJson, listOf?]
  induction items with
  | nil =>
    rw [List.map_nil, ofItems]
    rfl
  | cons a rest ih =>
    have hfirst : read (ofJson (write a)) = some a := h a List.mem_cons_self
    have hrest := ih fun b hb => h b (List.mem_cons_of_mem _ hb)
    rw [List.map_cons, ofItems, List.mapM_cons, hfirst, hrest]
    rfl

theorem restores_stringList (items : List String) :
    Restores (listOf? string?) Swagger.SchemaObject.stringList items :=
  restores_list fun s _ => restores_string s

/-- Members whose values are restored read as they are. -/
theorem readMembers?_map {α : Type} {read : Source → Option α} {write : α → Json}
    {m : OrderedMap α} (h : ∀ kv ∈ m, Restores read write kv.2) :
    readMembers? read (ofMembers (m.map fun kv => (kv.1, write kv.2))) = some m := by
  induction m with
  | nil =>
    rw [List.map_nil, ofMembers, readMembers?]
  | cons kv rest ih =>
    have hfirst : read (ofJson (write kv.2)) = some kv.2 := h kv List.mem_cons_self
    have hrest := ih fun other hin => h other (List.mem_cons_of_mem _ hin)
    rw [List.map_cons, ofMembers, readMembers?, hfirst, hrest]
    rfl

/-- A map without repeated keys is restored with its values, in its order. -/
theorem restores_map {α : Type} {read : Source → Option α} {write : α → Json} {m : OrderedMap α}
    (hnodup : m.keys.Nodup) (h : ∀ kv ∈ m, Restores read write kv.2) :
    Restores (mapOf? read) (Swagger.mapToJson write) m := by
  rw [Restores, Swagger.mapToJson, ofJson, mapOf?, readMembers?_map h, Option.map_some,
    OrderedMap.ofList_of_nodup hnodup]

/-- An object of well-formed values is restored. -/
theorem restores_object {members : OrderedMap Json} (h : (Json.obj members).WellFormed) :
    Restores object? .obj members := by
  rw [WellFormed, wellFormedMembers_iff] at h
  rw [Restores, ofJson, object?, mapOf?, readMembers?_toJson?, membersToJson?_ofMembers _ h.2,
    Option.map_some, OrderedMap.ofList_of_nodup h.1]

/-! ## §2. Parts of a typed object. -/

/-- Where no key is written twice, no known key is. -/
theorem unrepeated_ofMembers (known : List String) {members : OrderedMap Json}
    (h : members.keys.Nodup) : unrepeated known (ofMembers members) = true := by
  have hcount : ∀ key, occurrences key (ofMembers members) ≤ 1 := by
    intro key
    have hkeys : occurrences key (ofMembers members) = members.keys.count key := by
      rw [occurrences, ofMembers_eq_map, List.countP_map, OrderedMap.keys, List.count,
        List.countP_map]
      rfl
    rw [hkeys]
    exact List.nodup_iff_count_le_one.mp h key
  have hsome : (ofMembers members).all (fun kv => kv.1.isSome) = true := by
    rw [ofMembers_eq_map, List.all_map]
    exact List.all_eq_true.mpr fun _ _ => rfl
  rw [unrepeated, hsome, Bool.true_and]
  exact List.all_eq_true.mpr fun key _ => decide_eq_true (hcount key)

/-- **What is found in an object that was written** with some of the names, in their order: under
each name its member. -/
theorem parts?_ofJson {names : List String} {members : OrderedMap Json}
    (h : members.keys.Sublist names) (hnames : names.Nodup) :
    parts? names (ofJson (.obj members))
      = some (names.map fun name => (members.find? name).map ofJson) := by
  rw [ofJson, parts?, if_pos (unrepeated_ofMembers names (h.nodup hnames))]
  simp only [lookup?_ofMembers]

/-- A part that has to be there is restored. -/
theorem required?_some {α : Type} {read : Source → Option α} {write : α → Json} {a : α}
    (h : Restores read write a) : required? read (some (ofJson (write a))) = some a := h

/-- **A part that may be absent is restored**, if it is not written as `null`. -/
theorem optional?_map {α : Type} {read : Source → Option α} {write : α → Json}
    {value : Option α} (hnull : ∀ a, write a ≠ .null)
    (h : ∀ a, value = some a → Restores read write a) :
    optional? read ((value.map write).map ofJson) = some value := by
  cases value with
  | none => rfl
  | some a =>
    have hread : read (ofJson (write a)) = some a := h a rfl
    show optional? read (some (ofJson (write a))) = _
    unfold optional?
    split
    · contradiction
    next hwritten =>
      -- only `null` is written as `null`
      injection hwritten with hwritten
      cases hvalue : write a <;> rw [hvalue] at hwritten <;> simp [ofJson] at hwritten
      exact absurd hvalue (hnull a)
    next v _ hwritten =>
      injection hwritten with hwritten
      rw [← hwritten, hread]
      rfl

end Json.Source

namespace Swagger

open AvroSwagger.Json (Source)
open AvroSwagger.Json.Source
open SchemaObject (optionalMember)

/-- A member that may be left out is found under its own key only. -/
theorem find?_optionalMember (key : String) (value : Option Json) (other : String) :
    OrderedMap.find? (optionalMember key value) other = if key = other then value else none := by
  cases value <;> simp [optionalMember, OrderedMap.find?_cons]

theorem keys_optionalMember_sublist (key : String) (value : Option Json) :
    (OrderedMap.keys (optionalMember key value)).Sublist [key] := by
  cases value with
  | none => exact List.nil_sublist _
  | some v => exact List.Sublist.refl _

theorem keys_append_sublist {front back : OrderedMap Json} {first rest : List String}
    (h : front.keys.Sublist first) (h' : back.keys.Sublist rest) :
    (OrderedMap.keys (front ++ back)).Sublist (first ++ rest) := by
  rw [OrderedMap.keys, List.map_append]
  exact h.append h'

/-! ## §3. Fragments. -/

mutual

/-- No property part in the fragment lists a name twice. -/
def SchemaObject.WellFormed : SchemaObject → Prop
  | ⟨_, _, items, properties, _⟩ =>
    SchemaObject.WellFormedItems items ∧ SchemaObject.WellFormedProperties? properties

/-- The item part is well formed. -/
def SchemaObject.WellFormedItems : Option SchemaObject → Prop
  | none => True
  | some o => o.WellFormed

/-- The property part lists no name twice, and its fragments are well formed. -/
def SchemaObject.WellFormedProperties? : Option (List (String × SchemaObject)) → Prop
  | none => True
  | some ps => (OrderedMap.keys ps).Nodup ∧ SchemaObject.WellFormedProperties ps

/-- The fragment of every property is well formed. -/
def SchemaObject.WellFormedProperties : List (String × SchemaObject) → Prop
  | [] => True
  | (_, o) :: rest => o.WellFormed ∧ SchemaObject.WellFormedProperties rest

end

namespace SchemaObject

theorem wellFormed_empty : empty.WellFormed := by
  simp [empty, WellFormed, WellFormedItems, WellFormedProperties?]

/-- The item part is looked up under its name. -/
theorem itemsMember?_eq (members : List (Option String × Source)) :
    itemsMember? members = optional? ofSource? (lookup? "items" members) := by
  induction members with
  | nil => rfl
  | cons kv rest ih =>
    obtain ⟨key, v⟩ := kv
    by_cases hkey : key = some "items"
    · cases v <;> simp [itemsMember?, lookup?, optional?, hkey]
    · cases v <;> simp [itemsMember?, lookup?, hkey, ih]

/-- The properties are read like the members of a map. -/
theorem propertiesOf?_eq (members : List (Option String × Source)) :
    propertiesOf? members = readMembers? ofSource? members := by
  induction members with
  | nil => rfl
  | cons kv rest ih =>
    obtain ⟨key, v⟩ := kv
    rw [propertiesOf?, readMembers?, ih]

/-- The property part is looked up under its name and read as a map. -/
theorem propertiesMember?_eq (members : List (Option String × Source)) :
    propertiesMember? members
      = optional? (mapOf? ofSource?) (lookup? "properties" members) := by
  induction members with
  | nil => rfl
  | cons kv rest ih =>
    obtain ⟨key, v⟩ := kv
    by_cases hkey : key = some "properties"
    · cases v <;> simp [propertiesMember?, lookup?, optional?, mapOf?, propertiesOf?_eq, hkey]
      rfl
    · cases v <;> simp [propertiesMember?, lookup?, hkey, ih]

theorem restores_type (type : DataType) :
    Restores DataType.ofSource? (fun t => .str t.name) type := by
  rw [Restores, ofJson, DataType.ofSource?, DataType.ofName?_name]

theorem toJson_ne_null (o : SchemaObject) : o.toJson ≠ .null := by
  cases o
  rw [toJson]
  simp

/-- The names of the members of a fragment, in order and once each. -/
theorem keys_members_sublist (ref type items properties required : Option Json) :
    (OrderedMap.keys (optionalMember "$ref" ref ++ optionalMember "type" type
      ++ optionalMember "items" items ++ optionalMember "properties" properties
      ++ optionalMember "required" required)).Sublist fieldNames := by
  have href := keys_optionalMember_sublist "$ref" ref
  have htype := keys_optionalMember_sublist "type" type
  have hitems := keys_optionalMember_sublist "items" items
  have hproperties := keys_optionalMember_sublist "properties" properties
  have hrequired := keys_optionalMember_sublist "required" required
  exact keys_append_sublist (keys_append_sublist (keys_append_sublist
    (keys_append_sublist href htype) hitems) hproperties) hrequired

mutual

/-- **Fragments are restored**, at any depth. -/
theorem restores : ∀ o : SchemaObject, o.WellFormed → Restores ofSource? toJson o
  | ⟨ref, type, items, properties, required⟩, h => by
    rw [WellFormed] at h
    have hitems := restores_optionalToJson items h.1
    have hproperties := restores_propertiesToJson? properties h.2
    have href : optional? string? ((ref.map Json.str).map ofJson) = some ref :=
      optional?_map (by simp) fun s _ => restores_string s
    have htype : optional? DataType.ofSource? ((type.map fun t => Json.str t.name).map ofJson)
        = some type := optional?_map (by simp) fun t _ => restores_type t
    have hrequired : optional? (listOf? string?) ((required.map stringList).map ofJson)
        = some required := optional?_map (by simp [stringList]) fun names _ =>
          restores_stringList names
    have hparts := parts?_ofJson
      (keys_members_sublist (ref.map .str) (type.map fun t => .str t.name)
        (optionalToJson items) (propertiesToJson? properties) (required.map stringList))
      (by decide)
    rw [ofJson] at hparts
    -- items and properties are read apart from the other parts, but looked up in the same way
    rw [Restores, toJson, ofJson, ofSource?, hparts, itemsMember?_eq, propertiesMember?_eq,
      lookup?_ofMembers, lookup?_ofMembers]
    simp only [fieldNames, List.map_cons, List.map_nil, OrderedMap.find?_append,
      find?_optionalMember, String.reduceEq, if_true, if_false, Option.or_none, Option.none_or,
      Option.bind_eq_bind, Option.bind_some, ofParts?, href, htype, hitems, hproperties,
      hrequired]

/-- The item part is restored. -/
theorem restores_optionalToJson : ∀ items : Option SchemaObject, WellFormedItems items →
    optional? ofSource? ((optionalToJson items).map ofJson) = some items
  | none, _ => by
    rw [optionalToJson]
    rfl
  | some o, h => by
    rw [WellFormedItems] at h
    have hread := restores o h
    rw [optionalToJson]
    have hsome : optional? ofSource? (((some o).map toJson).map ofJson) = some (some o) :=
      optional?_map toJson_ne_null fun _ ha => Option.some.inj ha ▸ hread
    exact hsome

/-- The property part is restored. -/
theorem restores_propertiesToJson? : ∀ properties : Option (List (String × SchemaObject)),
    WellFormedProperties? properties →
      optional? (mapOf? ofSource?) ((propertiesToJson? properties).map ofJson) = some properties
  | none, _ => by
    rw [propertiesToJson?]
    rfl
  | some ps, h => by
    rw [WellFormedProperties?] at h
    have hread := readMembers?_propertiesToJson ps h.2
    rw [propertiesToJson?]
    show optional? (mapOf? ofSource?) (some (ofJson (.obj (propertiesToJson ps)))) = _
    rw [ofJson, optional?, mapOf?, hread, Option.map_some, OrderedMap.ofList_of_nodup h.1]
    · rfl
    · simp

/-- The properties are restored, in their order. -/
theorem readMembers?_propertiesToJson : ∀ ps : List (String × SchemaObject),
    WellFormedProperties ps → readMembers? ofSource? (ofMembers (propertiesToJson ps)) = some ps
  | [], _ => by
    rw [propertiesToJson, ofMembers, readMembers?]
  | (name, o) :: rest, h => by
    rw [WellFormedProperties] at h
    have hfirst : ofSource? (ofJson o.toJson) = some o := restores o h.1
    have hrest := readMembers?_propertiesToJson rest h.2
    rw [propertiesToJson, ofMembers, readMembers?, hfirst, hrest]
    rfl

end

end SchemaObject

/-! ## §4. Parameters, responses, operations, path items. -/

namespace Parameter

/-- The fragment of the parameter is well formed. -/
def WellFormed (p : Parameter) : Prop := p.schema.WellFormed

theorem restores {p : Parameter} (h : p.WellFormed) : Restores ofSource? toJson p := by
  have hdescription :
      optional? string? ((p.description.map Json.str).map ofJson) = some p.description :=
    optional?_map (by simp) fun s _ => restores_string s
  rw [Restores, toJson, ofSource?, parts?_ofJson]
  · simp only [List.map_cons, List.map_nil, OrderedMap.find?_append, OrderedMap.find?_cons,
      OrderedMap.find?_nil, find?_optionalMember, String.reduceEq, if_true, if_false,
      Option.or_none, Option.none_or, Option.map_some, Option.bind_eq_bind, Option.bind_some,
      required?_some (restores_string _), required?_some (restores_bool _),
      required?_some (p.schema.restores h), hdescription]
  · exact keys_append_sublist (keys_append_sublist (List.Sublist.refl _)
      (keys_optionalMember_sublist "description" _)) (List.Sublist.refl _)
  · decide

end Parameter

namespace ResponseObject

/-- The fragment of the response, if there is one, is well formed. -/
def WellFormed (r : ResponseObject) : Prop := ∀ schema, r.schema = some schema → schema.WellFormed

theorem restores {r : ResponseObject} (h : r.WellFormed) : Restores ofSource? toJson r := by
  have hschema :
      optional? SchemaObject.ofSource? ((r.schema.map SchemaObject.toJson).map ofJson)
        = some r.schema :=
    optional?_map SchemaObject.toJson_ne_null fun schema hs => schema.restores (h schema hs)
  rw [Restores, toJson, ofSource?, parts?_ofJson]
  · simp only [List.map_cons, List.map_nil, OrderedMap.find?_cons, find?_optionalMember,
      String.reduceEq, if_true, if_false, Option.map_some, Option.bind_eq_bind,
      Option.bind_some, required?_some (restores_string _), hschema]
  · exact (keys_optionalMember_sublist "schema" _).cons_cons "description"
  · decide

end ResponseObject

namespace Operation

/-- No status code has two responses, and the parameters and responses are well formed. -/
structure WellFormed (o : Operation) : Prop where
  parameters : ∀ p ∈ o.parameters, p.WellFormed
  nodup_responses : o.responses.keys.Nodup
  responses : ∀ kv ∈ o.responses, kv.2.WellFormed

theorem restores {o : Operation} (h : o.WellFormed) : Restores ofSource? toJson o := by
  have hparameters : Restores (listOf? Parameter.ofSource?)
      (fun ps => .arr (ps.map Parameter.toJson)) o.parameters :=
    restores_list fun p hp => Parameter.restores (h.parameters p hp)
  have hresponses : Restores (mapOf? ResponseObject.ofSource?)
      (mapToJson ResponseObject.toJson) o.responses :=
    restores_map h.nodup_responses fun kv hkv => ResponseObject.restores (h.responses kv hkv)
  rw [Restores, toJson, ofSource?, parts?_ofJson]
  · simp only [List.map_cons, List.map_nil, OrderedMap.find?_cons, OrderedMap.find?_nil,
      String.reduceEq, if_true, if_false, Option.map_some, Option.bind_eq_bind, Option.bind_some,
      required?_some (restores_string _), required?_some hparameters, required?_some hresponses]
  · exact List.Sublist.refl _
  · decide

end Operation

namespace PathItem

/-- The operation is well formed. -/
def WellFormed (p : PathItem) : Prop := p.post.WellFormed

theorem restores {p : PathItem} (h : p.WellFormed) : Restores ofSource? toJson p := by
  rw [Restores, toJson, ofSource?, parts?_ofJson]
  · simp only [List.map_cons, List.map_nil, OrderedMap.find?_cons, if_true, Option.map_some,
      Option.bind_eq_bind, Option.bind_some, required?_some (Operation.restores h)]
  · exact List.Sublist.refl _
  · decide

end PathItem

/-! ## §5. Documents and templates. -/

namespace Document

/-- No map of the document lists a key twice. -/
structure WellFormed (d : Document) : Prop where
  info : (Json.obj d.info).WellFormed
  nodup_paths : d.paths.keys.Nodup
  paths : ∀ kv ∈ d.paths, kv.2.WellFormed
  nodup_definitions : d.definitions.keys.Nodup
  definitions : ∀ kv ∈ d.definitions, kv.2.WellFormed

theorem restores {d : Document} (h : d.WellFormed) : Restores ofSource? toJson d := by
  have hpaths : Restores (mapOf? PathItem.ofSource?) (mapToJson PathItem.toJson) d.paths :=
    restores_map h.nodup_paths fun kv hkv => PathItem.restores (h.paths kv hkv)
  have hdefinitions : Restores (mapOf? SchemaObject.ofSource?) (mapToJson SchemaObject.toJson)
      d.definitions :=
    restores_map h.nodup_definitions fun kv hkv => kv.2.restores (h.definitions kv hkv)
  rw [Restores, toJson, ofSource?, parts?_ofJson]
  · simp only [List.map_cons, List.map_nil, OrderedMap.find?_cons, OrderedMap.find?_nil,
      String.reduceEq, if_true, if_false, Option.map_some, Option.bind_eq_bind, Option.bind_some,
      required?_some (restores_string _), required?_some (restores_stringList _),
      required?_some (restores_object h.info), required?_some hpaths, required?_some hdefinitions]
  · exact List.Sublist.refl _
  · decide

end Document

namespace Template

/-- The values kept in the template list no key twice, and no other member has the name of a typed
part. -/
structure WellFormed (t : Template) : Prop where
  info : ∀ info, t.info = some info → (Json.obj info).WellFormed
  extra : (Json.obj t.extra).WellFormed
  extra_unknown : ∀ key ∈ knownKeys, key ∉ t.extra.keys

/-- The members of the typed parts. -/
def typedMembers (t : Template) : OrderedMap Json :=
  optionalMember "info" (t.info.map .obj) ++ optionalMember "host" (t.host.map .str)
    ++ optionalMember "basePath" (t.basePath.map .str)
    ++ optionalMember "schemes" (t.schemes.map SchemaObject.stringList)

/-- The typed members are written first, in the order of their names. -/
theorem toJson_eq (t : Template) : t.toJson = .obj (t.typedMembers ++ t.extra) := rfl

theorem keys_typedMembers_sublist (t : Template) : t.typedMembers.keys.Sublist knownKeys := by
  have hinfo := keys_optionalMember_sublist "info" (t.info.map .obj)
  have hhost := keys_optionalMember_sublist "host" (t.host.map .str)
  have hbasePath := keys_optionalMember_sublist "basePath" (t.basePath.map .str)
  have hschemes := keys_optionalMember_sublist "schemes" (t.schemes.map SchemaObject.stringList)
  exact keys_append_sublist (keys_append_sublist (keys_append_sublist hinfo hhost) hbasePath)
    hschemes

/-- Each typed part is found under its name. -/
theorem find?_typedMembers (t : Template) :
    t.typedMembers.find? "info" = t.info.map .obj
      ∧ t.typedMembers.find? "host" = t.host.map .str
      ∧ t.typedMembers.find? "basePath" = t.basePath.map .str
      ∧ t.typedMembers.find? "schemes" = t.schemes.map SchemaObject.stringList := by
  simp [typedMembers, OrderedMap.find?_append, find?_optionalMember]

/-- What is written of a template lists no key twice. -/
theorem WellFormed.nodup_keys {t : Template} (h : t.WellFormed) :
    (OrderedMap.keys (t.typedMembers ++ t.extra)).Nodup := by
  have hextra := h.extra
  rw [Json.WellFormed] at hextra
  rw [OrderedMap.keys, List.map_append, List.nodup_append]
  refine ⟨t.keys_typedMembers_sublist.nodup (by decide), hextra.1, ?_⟩
  rintro key htyped _ hother rfl
  exact h.extra_unknown key (t.keys_typedMembers_sublist.subset htyped) hother

/-- A known name is looked up among the typed members. -/
theorem WellFormed.find? {t : Template} (h : t.WellFormed) {key : String}
    (hkey : key ∈ knownKeys) :
    OrderedMap.find? (t.typedMembers ++ t.extra) key = t.typedMembers.find? key := by
  rw [OrderedMap.find?_append, OrderedMap.find?_eq_none_iff.mpr (h.extra_unknown key hkey),
    Option.or_none]

/-- The members under other names are the extra ones. -/
theorem WellFormed.filter_eq_extra {t : Template} (h : t.WellFormed) :
    (t.typedMembers ++ t.extra).filter (fun kv => !knownKeys.contains kv.1) = t.extra := by
  have hnone : t.typedMembers.filter (fun kv => !knownKeys.contains kv.1) = [] := by
    refine List.filter_eq_nil_iff.mpr fun kv hkv => ?_
    have hknown : kv.1 ∈ knownKeys := t.keys_typedMembers_sublist.subset (List.mem_map_of_mem hkv)
    simp [hknown]
  have hall : t.extra.filter (fun kv => !knownKeys.contains kv.1) = t.extra := by
    refine List.filter_eq_self.mpr fun kv hkv => ?_
    have hunknown : kv.1 ∉ knownKeys := fun hknown =>
      h.extra_unknown _ hknown (List.mem_map_of_mem hkv)
    simp [hunknown]
  rw [List.filter_append, hnone, hall, List.nil_append]

theorem restores {t : Template} (h : t.WellFormed) : Restores ofSource? toJson t := by
  have hinfo : optional? object? ((t.info.map Json.obj).map ofJson) = some t.info :=
    optional?_map (by simp) fun info hi => restores_object (h.info info hi)
  have hhost : optional? string? ((t.host.map Json.str).map ofJson) = some t.host :=
    optional?_map (by simp) fun s _ => restores_string s
  have hbasePath : optional? string? ((t.basePath.map Json.str).map ofJson) = some t.basePath :=
    optional?_map (by simp) fun s _ => restores_string s
  have hschemes : optional? (listOf? string?) ((t.schemes.map SchemaObject.stringList).map ofJson)
      = some t.schemes :=
    optional?_map (by simp [SchemaObject.stringList]) fun names _ => restores_stringList names
  have hextra := h.extra
  rw [Json.WellFormed, Json.wellFormedMembers_iff] at hextra
  -- no other member has a known name, so the two kinds of members are found apart
  have hothers : readMembers? toJson?
      ((ofMembers (t.typedMembers ++ t.extra)).filter fun kv =>
        !knownKeys.contains (kv.1.getD "")) = some t.extra := by
    rw [filter_ofMembers fun key => !knownKeys.contains key, h.filter_eq_extra,
      readMembers?_toJson?, membersToJson?_ofMembers _ hextra.2]
  have hfind : ∀ key ∈ knownKeys, lookup? key (ofMembers (t.typedMembers ++ t.extra))
      = (t.typedMembers.find? key).map ofJson := by
    intro key hkey
    rw [lookup?_ofMembers, h.find? hkey]
  obtain ⟨hinfo', hhost', hbasePath', hschemes'⟩ := t.find?_typedMembers
  rw [Restores, toJson_eq, ofJson, ofSource?, unrepeated_ofMembers knownKeys h.nodup_keys,
    hfind "info" (by decide), hfind "host" (by decide), hfind "basePath" (by decide),
    hfind "schemes" (by decide), hinfo', hhost', hbasePath', hschemes', hinfo, hhost, hbasePath,
    hschemes]
  simp only [hothers, Bool.not_true, Bool.false_eq_true, if_false, Option.bind_eq_bind,
    Option.bind_some, OrderedMap.ofList_of_nodup hextra.1]

end Template

/-! ## §6. All models. -/

/-- **Every model reads back from what is written of it**, as it was: no part is lost or comes up
anew, and lists and maps keep their order.  The only demand is that no map lists a key twice and,
for a template, that its other members do not have the names of typed parts. -/
theorem ofSource?_toJson :
    (∀ o : SchemaObject, o.WellFormed →
        SchemaObject.ofSource? (Source.ofJson o.toJson) = some o)
      ∧ (∀ p : Parameter, p.WellFormed → Parameter.ofSource? (Source.ofJson p.toJson) = some p)
      ∧ (∀ r : ResponseObject, r.WellFormed →
          ResponseObject.ofSource? (Source.ofJson r.toJson) = some r)
      ∧ (∀ o : Operation, o.WellFormed → Operation.ofSource? (Source.ofJson o.toJson) = some o)
      ∧ (∀ p : PathItem, p.WellFormed → PathItem.ofSource? (Source.ofJson p.toJson) = some p)
      ∧ (∀ d : Document, d.WellFormed → Document.ofSource? (Source.ofJson d.toJson) = some d)
      ∧ ∀ t : Template, t.WellFormed → Template.ofSource? (Source.ofJson t.toJson) = some t :=
  ⟨SchemaObject.restores, fun _ h => Parameter.restores h, fun _ h => ResponseObject.restores h,
    fun _ h => Operation.restores h, fun _ h => PathItem.restores h,
    fun _ h => Document.restores h, fun _ h => Template.restores h⟩

/-- A fragment with empty parts, and with properties that are called like parts. -/
def partNamesFragment : SchemaObject where
  ref := some ""
  type := some .object
  items := some .empty
  properties := some [("type", .reference "A"), ("items", .arrayOf (.object [])),
    ("$ref", .scalar .byte)]
  required := some []

/-- A parameter without a description. -/
def bareParameter : Parameter := ⟨"body", "body", none, true, partNamesFragment⟩

/-- A response with a fragment that says nothing. -/
def bareResponse : ResponseObject := ⟨"", some .empty⟩

/-- An operation with a response that has no fragment. -/
def bareOperation : Operation where
  description := ""
  operationId := "bare"
  parameters := [bareParameter]
  responses := [("default", ⟨"none", none⟩), ("200", bareResponse)]

/-- A document with `null` in its information. -/
def bareDocument : Document where
  swagger := "2.0"
  info := [("title", .null), ("contact", .obj [("name", .arr [])])]
  host := ""
  basePath := ""
  schemes := []
  consumes := ["application/json", "application/json"]
  produces := []
  paths := [("/bare", ⟨bareOperation⟩)]
  definitions := [("B", partNamesFragment), ("A", .empty)]

/-- A template with empty typed parts and a `null` among the other members. -/
def bareTemplate : Template where
  info := some []
  host := some ""
  basePath := none
  schemes := some []
  extra := [("paths", .null), ("definitions", .obj [("A", .null)])]

theorem wellFormed_partNamesFragment : partNamesFragment.WellFormed := by
  simp [partNamesFragment, SchemaObject.WellFormed, SchemaObject.WellFormedItems,
    SchemaObject.WellFormedProperties?, SchemaObject.WellFormedProperties, SchemaObject.empty,
    SchemaObject.reference, SchemaObject.arrayOf, SchemaObject.object, SchemaObject.scalar]

theorem wellFormed_bareResponse : bareResponse.WellFormed := by
  intro schema hs
  rw [← Option.some.inj hs]
  exact SchemaObject.wellFormed_empty

theorem wellFormed_bareOperation : bareOperation.WellFormed where
  parameters := by
    intro p hp
    rw [List.mem_singleton.mp hp]
    exact wellFormed_partNamesFragment
  nodup_responses := by decide
  responses := by
    intro kv hkv
    simp only [bareOperation, List.mem_cons, List.not_mem_nil, or_false] at hkv
    rcases hkv with rfl | rfl
    · exact fun schema hs => absurd hs (by simp)
    · exact wellFormed_bareResponse

theorem wellFormed_bareDocument : bareDocument.WellFormed where
  info := by simp [bareDocument, Json.WellFormed, Json.WellFormedMembers, Json.WellFormedItems]
  nodup_paths := by decide
  paths := by
    intro kv hkv
    rw [List.mem_singleton.mp hkv]
    exact wellFormed_bareOperation
  nodup_definitions := by decide
  definitions := by
    intro kv hkv
    simp only [bareDocument, List.mem_cons, List.not_mem_nil, or_false] at hkv
    rcases hkv with rfl | rfl
    · exact wellFormed_partNamesFragment
    · exact SchemaObject.wellFormed_empty

theorem wellFormed_bareTemplate : bareTemplate.WellFormed where
  info := by
    intro info hinfo
    rw [← Option.some.inj hinfo]
    simp [Json.WellFormed, Json.WellFormedMembers]
  extra := by simp [bareTemplate, Json.WellFormed, Json.WellFormedMembers]
  extra_unknown := by decide

/-- Models with empty parts and confusing names are restored. -/
theorem ofSource?_toJson_bare :
    (partNamesFragment.WellFormed
        ∧ SchemaObject.ofSource? (Source.ofJson partNamesFragment.toJson)
          = some partNamesFragment)
      ∧ (bareParameter.WellFormed
        ∧ Parameter.ofSource? (Source.ofJson bareParameter.toJson) = some bareParameter)
      ∧ (bareResponse.WellFormed
        ∧ ResponseObject.ofSource? (Source.ofJson bareResponse.toJson) = some bareResponse)
      ∧ (bareOperation.WellFormed
        ∧ Operation.ofSource? (Source.ofJson bareOperation.toJson) = some bareOperation)
      ∧ (PathItem.WellFormed ⟨bareOperation⟩
        ∧ PathItem.ofSource? (Source.ofJson (PathItem.toJson ⟨bareOperation⟩))
          = some ⟨bareOperation⟩)
      ∧ (bareDocument.WellFormed
        ∧ Document.ofSource? (Source.ofJson bareDocument.toJson) = some bareDocument)
      ∧ bareTemplate.WellFormed
      ∧ Template.ofSource? (Source.ofJson bareTemplate.toJson) = some bareTemplate := by
  obtain ⟨hfragment, hparameter, hresponse, hoperation, hpath, hdocument, htemplate⟩ :=
    ofSource?_toJson
  exact ⟨⟨wellFormed_partNamesFragment, hfragment _ wellFormed_partNamesFragment⟩,
    ⟨wellFormed_partNamesFragment, hparameter _ wellFormed_partNamesFragment⟩,
    ⟨wellFormed_bareResponse, hresponse _ wellFormed_bareResponse⟩,
    ⟨wellFormed_bareOperation, hoperation _ wellFormed_bareOperation⟩,
    ⟨wellFormed_bareOperation, hpath _ wellFormed_bareOperation⟩,
    ⟨wellFormed_bareDocument, hdocument _ wellFormed_bareDocument⟩,
    wellFormed_bareTemplate, htemplate _ wellFormed_bareTemplate⟩

end Swagger

end AvroSwagger
