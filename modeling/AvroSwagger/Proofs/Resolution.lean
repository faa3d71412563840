import AvroSwagger.Generation.Document
import AvroSwagger.Proofs.Reachability
import AvroSwagger.Proofs.Reading
import AvroSwagger.Proofs.References

/-!
# AvroSwagger.Proofs.Resolution

**Every reference of a published document leads to one of its definitions.**

A reference stems from a record inside a field type or from an open name.  The
record is reachable, and so is every record in the schemas of a route map that
has definitions, because maps and unions have no fragment; where the schemas
were read from documents, an open name is that of such a record.  A template
without references takes no definition away, as long as it lays an object over
the definitions.

Main statement: `exists_definition_of_mem_refStrings`.
-/

namespace AvroSwagger

open Swagger

variable {routes : RouteMap} {policy : CollisionPolicy} {defs : Definitions}

/-- **Every schema of a route map was read from a document.** -/
def ReadFromDocuments (routes : RouteMap) : Prop :=
  ∀ route schema, (route, schema) ∈ routes →
    ∃ firstId v next, Schema.ofJson firstId v = .ok (schema, next)

/-! ## §1. Records in translatable schemas. -/

/-- A type that has a fragment and whose record, if it has one, is reachable. -/
def Covered (routes : RouteMap) (s : Schema) : Prop :=
  s.core.isMappable = true ∧ ∀ r, s.core = .record r → Reachable routes r

/-- Everything inside a covered type is covered as long as reachable records are translatable. -/
theorem covered_of_isPart (htr : ∀ r, Reachable routes r → r.Translatable) {s t : Schema}
    (hpart : s.IsPart t) (ht : Covered routes t) : Covered routes s := by
  induction hpart with
  | self => exact ht
  | items _ ih => exact ih ht
  | values _ _ =>
    -- maps and unions have no fragment, so they are not covered
    have hmap := ht.1
    simp [Schema.core, Schema.isMappable] at hmap
  | branch _ _ _ =>
    have hunion := ht.1
    simp [Schema.core, Schema.isMappable] at hunion
  | @field f r hf _ ih =>
    have hr : Reachable routes r := ht.2 r rfl
    exact ih ⟨htr r hr f hf, fun x hx => .field hr hf hx⟩

/-- A record that occurs is reachable. -/
theorem reachable_of_occursIn (hroot : ∀ route schema, (route, schema) ∈ routes →
      schema.record?.isSome) (htr : ∀ r, Reachable routes r → r.Translatable) {r : Record}
    (h : OccursIn routes r) : Reachable routes r := by
  obtain ⟨route, schema, hin, hpart⟩ := h
  have hsome := hroot route schema hin
  cases schema with
  | record root =>
    have hcovered : Covered routes (.record root) := by
      refine ⟨rfl, fun x hx => ?_⟩
      have hx : Schema.record root = .record x := hx
      injection hx with hx
      exact hx ▸ .root hin
    exact (covered_of_isPart htr hpart hcovered).2 r rfl
  | _ => simp [Schema.record?] at hsome

/-! ## §2. References of definitions and paths. -/

/-- **A reference of a reachable record leads to a definition.** -/
theorem exists_key_of_mem_refs (hid : LabelsFaithful routes) (hread : ReadFromDocuments routes)
    (h : generateDefinitions routes policy = .ok defs) {r : Record} (hr : Reachable routes r)
    {v : SchemaObject} (hv : r.definition = .ok v) {ref : String} (href : ref ∈ v.refs) :
    ∃ name ∈ defs.keys, ref = definitionRef name := by
  obtain ⟨bound, hacc⟩ := exists_acceptRoutes_of_generateDefinitions hid h
  have htr : ∀ x, Reachable routes x → x.Translatable := by
    intro x hx
    obtain ⟨-, w, hw, -⟩ := accepted_iff.mp (accepted_of_reachable hacc hx)
    exact x.definition_isOk_iff.mp ⟨w, hw⟩
  obtain ⟨f, hf, name, hname, heq⟩ := RecordOf.exists_field_of_mem_refs hv href
  refine ⟨name, (mem_keys_iff hid h name).mpr (Or.inr ?_), heq⟩
  cases hcore : f.type.core with
  | record s =>
    rw [Schema.referredName?, hcore] at hname
    injection hname with hname
    exact ⟨s, .field hr hf hcore, hname⟩
  | named fullName =>
    rw [Schema.referredName?, hcore] at hname
    injection hname with hname
    -- the record behind an open name occurs in the schema in which the name stands
    obtain ⟨route, schema, hin, hrpart⟩ := hr.occursIn
    have hpart : (Schema.named fullName).IsPart schema := by
      rw [← hcore]
      exact f.type.core_isPart.trans ((Schema.IsPart.field hf (.self _)).trans hrpart)
    obtain ⟨firstId, json, next, hjson⟩ := hread route schema hin
    obtain ⟨s, hs, hfull⟩ := Schema.exists_record_of_named_isPart hjson hpart
    refine ⟨s, reachable_of_occursIn (acceptRoutes_eq_ok_iff.mp hacc).1 htr
      ⟨route, schema, hin, hs⟩, ?_⟩
    rw [← hname, RecordOf.shortName, hfull]
  | _ =>
    rw [Schema.referredName?, hcore] at hname
    exact absurd hname (by simp)

/-- A path item belongs to a route and its record. -/
theorem exists_route_of_mem_paths {paths : Paths} (h : generatePaths routes = .ok paths)
    {kv : String × PathItem} (hkv : kv ∈ paths) :
    ∃ route root, (route, Schema.record root) ∈ routes ∧ kv.2 = pathItem route root := by
  have hfrom : ∀ (rest : List (String × Schema)) (written : Paths),
      pathsFrom written rest = .ok paths →
        kv ∈ written ∨ ∃ route root, (route, Schema.record root) ∈ rest
          ∧ kv.2 = pathItem route root := by
    intro rest
    induction rest with
    | nil =>
      intro written hw
      injection hw with hw
      exact Or.inl (hw ▸ hkv)
    | cons hd rest ih =>
      obtain ⟨route, schema⟩ := hd
      intro written hw
      rw [pathsFrom, bind_eq_ok_iff] at hw
      obtain ⟨root, hroot, hw⟩ := hw
      have hschema : schema = .record root := by
        rw [routeRecord_eq_ok_iff] at hroot
        cases schema with
        | record x =>
          injection hroot with hroot
          rw [hroot]
        | _ => simp [Schema.record?] at hroot
      rcases ih _ hw with hin | ⟨route', root', hin, heq⟩
      · rcases OrderedMap.mem_of_mem_insert hin with heq | hin
        · exact Or.inr ⟨route, root, by rw [hschema]; exact List.mem_cons_self, by rw [heq]⟩
        · exact Or.inl hin
      · exact Or.inr ⟨route', root', List.mem_cons_of_mem _ hin, heq⟩
  rcases hfrom routes [] h with hnil | hfound
  · simp at hnil
  · exact hfound

/-- A path item refers to the route's record and to the answering record. -/
theorem mem_refs_of_pathItem {route : String} {root : Record} {ref : String}
    (h : ref ∈ (pathItem route root).post.toJson.refStrings) :
    ref = definitionRef root.shortName ∨ ref = definitionRef responseName := by
  rcases Operation.mem_refStrings_toJson.mp h with ⟨p, hp, hin⟩ | ⟨kv, hkv, schema, hs, hin⟩
  · simp only [pathItem, List.mem_singleton] at hp
    rw [hp, SchemaObject.refs_reference, List.mem_singleton] at hin
    exact Or.inl hin
  · simp only [pathItem, List.mem_cons, List.not_mem_nil, or_false] at hkv
    rcases hkv with rfl | rfl
    · injection hs with hs
      rw [← hs, SchemaObject.refs_reference, List.mem_singleton] at hin
      exact Or.inr hin
    · exact absurd hs (by simp)

/-! ## §3. The document. -/

/-- **Every reference of a generated document leads to one of its definitions.** -/
theorem exists_key_of_mem_refStrings_around (hid : LabelsFaithful routes)
    (hread : ReadFromDocuments routes) {paths : Paths} (hpaths : generatePaths routes = .ok paths)
    (hdefs : generateDefinitions routes policy = .ok defs) {ref : String}
    (href : ref ∈ (Document.around paths defs).toJson.refStrings) :
    ∃ name ∈ defs.keys, ref = definitionRef name := by
  rcases Document.mem_refStrings_toJson.mp href with hinfo | ⟨kv, hkv, hin⟩ | ⟨kv, hkv, hin⟩
  · simp [Document.around, Json.refStrings_obj, Json.refStringsOfMembers] at hinfo
  · obtain ⟨route, root, hroute, heq⟩ := exists_route_of_mem_paths hpaths hkv
    rw [heq] at hin
    rcases mem_refs_of_pathItem hin with hroot | hresponse
    · exact ⟨root.shortName, (mem_keys_iff hid hdefs _).mpr (Or.inr ⟨root, .root hroute, rfl⟩),
        hroot⟩
    · exact ⟨responseName, (mem_keys_iff hid hdefs _).mpr (Or.inl rfl), hresponse⟩
  · rcases exists_reachable_of_mem hid hdefs hkv with hresponse | ⟨r, hr, hdef⟩
    · rw [hresponse, refs_responseDefinition] at hin
      exact absurd hin (by simp)
    · exact exists_key_of_mem_refs hid hread hdefs hr hdef hin

/-- **Every reference of a published document leads to one of its definitions.** -/
theorem exists_definition_of_mem_refStrings {template document : Json}
    (hid : LabelsFaithful routes) (hread : ReadFromDocuments routes)
    (hkeys : "$ref" ∉ template.allKeys)
    (hobject : ∀ members v, template = .obj members → ("definitions", v) ∈ members →
      ∃ ms, v = .obj ms)
    (h : generateDocument template routes policy = .ok document) :
    ∃ published : OrderedMap Json, document.member? "definitions" = some (.obj published)
      ∧ ∀ ref ∈ document.refStrings, ∃ name ∈ published.keys, ref = definitionRef name := by
  rw [generateDocument, bind_eq_ok_iff] at h
  obtain ⟨paths, hpaths, h⟩ := h
  rw [bind_eq_ok_iff] at h
  obtain ⟨defs, hdefs, h⟩ := h
  have hresolve : ∀ ref ∈ (Document.around paths defs).toJson.refStrings,
      ∃ name ∈ defs.keys, ref = definitionRef name :=
    fun ref href => exists_key_of_mem_refStrings_around hid hread hpaths hdefs href
  have hwritten : (Document.around paths defs).toJson.member? "definitions"
      = some (mapToJson SchemaObject.toJson defs) := rfl
  have hnames : OrderedMap.keys (defs.map fun kv => (kv.1, kv.2.toJson)) = defs.keys := by
    simp [OrderedMap.keys]
  unfold assemble at h
  split at h
  next =>
    injection h with h
    rw [← h]
    refine ⟨_, hwritten, fun ref href => ?_⟩
    rw [hnames]
    exact hresolve ref href
  next members =>
    injection h with h
    have hmerged := Json.refStrings_merge_subset (.obj members)
      (Document.around paths defs).toJson hkeys
    rw [h] at hmerged
    have hkept : ∃ published : OrderedMap Json,
        document.member? "definitions" = some (.obj published)
          ∧ OrderedMap.keys (defs.map fun kv => (kv.1, kv.2.toJson)) ⊆ published.keys := by
      rw [← h, Document.toJson, Json.merge]
      exact Json.find?_mergeMembers_of_objects hwritten fun v hv => hobject members v rfl hv
    obtain ⟨published, hpublished, hsub⟩ := hkept
    refine ⟨published, hpublished, fun ref href => ?_⟩
    obtain ⟨name, hname, heq⟩ := hresolve ref (hmerged href)
    rw [← hnames] at hname
    exact ⟨name, hsub hname, heq⟩
  next => exact absurd h (by simp)

/-- A tree: a record with a list of trees. -/
def treeSource : Json :=
  .obj [("type", .str "record"), ("name", .str "Tree"), ("fields", .arr [.obj
    [("name", .str "children"), ("type", .obj [("type", .str "array"), ("items", .str "Tree")])]])]

/-- The record of a tree. -/
def treeRecord : Record := ⟨0, "Tree", none, [⟨"children", none, .array (.named "Tree")⟩]⟩

/-- A template that names a host and adds a title to a definition. -/
def titleTemplate : Json :=
  .obj [("host", .str "localhost"),
    ("definitions", .obj [("Tree", .obj [("title", .str "A tree")])])]

/-- A route to a tree. -/
def treeRoutes : RouteMap := [("Tree", .record treeRecord)]

theorem ofJson_treeSource : Schema.ofJson 0 treeSource = .ok (.record treeRecord, 1) := by
  have houtline : Outline.ofJson treeSource = .record ⟨"Tree", none⟩ none
      (some [.typed ⟨"children", none, .array (.reference "Tree")⟩]) := by
    simp [treeSource, Outline.ofJson, Outline.recordOf, Outline.declaration?, Outline.fieldsOf?,
      Outline.shapesOf, Outline.shapeOf, Outline.ofMember?, Json.stringMember?, OrderedMap.find?,
      Json.string?]
  rw [Schema.ofJson, houtline]
  simp [Outline.resolve, Outline.resolveBody, Outline.resolveFields, Outline.resolveField,
    Scope.start, Scope.lookup, Scope.enter, Scope.define, Scope.completeRecord, Scope.isCompleted,
    Declaration.fullNameIn, Declaration.scopeIn, isDotted, qualify, Schema.primitive?, bind,
    Except.bind, treeRecord]

theorem readFromDocuments_treeRoutes : ReadFromDocuments treeRoutes := by
  intro route schema hin
  rw [treeRoutes, List.mem_singleton] at hin
  injection hin with _ hschema
  exact ⟨0, treeSource, 1, hschema ▸ ofJson_treeSource⟩

theorem labelsFaithful_treeRoutes : LabelsFaithful treeRoutes := by
  have hin : ∀ kv ∈ treeRoutes, kv.2.records ⊆ [treeRecord] := by
    intro kv hkv
    rw [List.mem_singleton.mp hkv]
    exact fun _ h => h
  exact labelsFaithful_of_objects hin (by decide)

/-- The reference of a tree to itself leads to a definition. -/
theorem exists_definition_of_mem_refStrings_tree :
    LabelsFaithful treeRoutes ∧ ReadFromDocuments treeRoutes ∧ "$ref" ∉ titleTemplate.allKeys
      ∧ (∀ members v, titleTemplate = .obj members → ("definitions", v) ∈ members →
        ∃ ms, v = .obj ms)
      ∧ ∃ document, generateDocument titleTemplate treeRoutes .reject = .ok document
        ∧ ∃ published : OrderedMap Json, document.member? "definitions" = some (.obj published)
          ∧ ∀ ref ∈ document.refStrings, ∃ name ∈ published.keys, ref = definitionRef name := by
  have hkeys : "$ref" ∉ titleTemplate.allKeys := by decide +kernel
  have hobject : ∀ members v, titleTemplate = .obj members → ("definitions", v) ∈ members →
      ∃ ms, v = .obj ms := by
    intro members v htemplate hin
    injection htemplate with hmembers
    rw [← hmembers] at hin
    simp only [List.mem_cons, Prod.mk.injEq, List.not_mem_nil, or_false] at hin
    rcases hin with ⟨hkey, -⟩ | ⟨-, hv⟩
    · exact absurd hkey (by decide)
    · exact ⟨_, hv⟩
  have hok : (generateDocument titleTemplate treeRoutes .reject).isOk = true := by
    decide +kernel
  obtain ⟨document, hdocument⟩ := exists_eq_ok_of_isOk hok
  exact ⟨labelsFaithful_treeRoutes, readFromDocuments_treeRoutes, hkeys, hobject, document,
    hdocument, exists_definition_of_mem_refStrings labelsFaithful_treeRoutes
      readFromDocuments_treeRoutes hkeys hobject hdocument⟩

end AvroSwagger
