import AvroSwagger.Proofs.Collection
import AvroSwagger.Proofs.Parts
import Mathlib.Data.List.Nodup

/-!
# AvroSwagger.Proofs.Reachability

**The records of a route map: those that occur anywhere, and those that fields reach.**

A record occurs in a route map if it stands anywhere in a schema, also inside
maps and unions.  It is `Reachable` if it is the record of a route or the type
of a field of a reachable record, arrays stripped.  As long as every record
on the way has a definition, the reachable records are those of the full walk.

Identity labels stand for objects: where two occurrences carry one label, they
are one record.

Main statements: `reachable_of_mem_unfolding`, `mem_unfolding_of_reachable`,
`LabelsFaithful.identify`, `mem_keys_iff`, `exists_reachable_of_mem`.
-/

namespace AvroSwagger

open Swagger

/-! ## §1. Records that occur. -/

/-- A type without its arrays stands inside the type. -/
theorem Schema.core_isPart (s : Schema) : s.core.IsPart s := by
  fun_induction Schema.core s with
  | case1 items ih => exact .items ih
  | case2 s hs => exact .self s

/-- A record occurs in a schema of a route map. -/
def OccursIn (routes : RouteMap) (r : Record) : Prop :=
  ∃ route schema, (route, schema) ∈ routes ∧ (Schema.record r).IsPart schema

/-- **Labels stand for objects**: two occurrences in the schemas of a route map that carry one
label are one record.  An object is the same record wherever it is met, so every route map that
is made of objects is of this kind. -/
def LabelsFaithful (routes : RouteMap) : Prop :=
  ∀ a b : Record, OccursIn routes a → OccursIn routes b → a.id = b.id → a = b

/-- The records that occur in a route map are the records of its schemas. -/
theorem OccursIn.mem_of_subset {routes : RouteMap} {objects : List Record}
    (hin : ∀ kv ∈ routes, kv.2.records ⊆ objects) {r : Record} (hr : OccursIn routes r) :
    r ∈ objects := by
  obtain ⟨route, schema, hroute, hpart⟩ := hr
  refine hin (route, schema) hroute (hpart.records_subset ?_)
  rw [Schema.records]
  exact List.mem_cons_self

/-- Labels stand for objects where some objects with distinct labels are all the records. -/
theorem labelsFaithful_of_objects {routes : RouteMap} {objects : List Record}
    (hin : ∀ kv ∈ routes, kv.2.records ⊆ objects) (hnd : (objects.map RecordOf.id).Nodup) :
    LabelsFaithful routes :=
  fun _ _ ha hb hlabel =>
    List.inj_on_of_nodup_map hnd (ha.mem_of_subset hin) (hb.mem_of_subset hin) hlabel

/-- An item in a line. -/
def itemRecord (label : Nat) : Record := ⟨label, "Item", none, [⟨"price", none, .double⟩]⟩

/-- A line that holds an item. -/
def lineRecord (label itemLabel : Nat) : Record :=
  ⟨label, "Line", none, [⟨"item", none, .record (itemRecord itemLabel)⟩]⟩

/-- An order with a first line and further ones. -/
def orderRecord (first further : Record) : Record :=
  ⟨0, "Order", none,
    [⟨"first", none, .record first⟩, ⟨"further", none, .array (.record further)⟩]⟩

/-- An order whose lines are one object. -/
def sharedLines : RouteMap :=
  [("Order", .record (orderRecord (lineRecord 1 2) (lineRecord 1 2)))]

/-- The objects of an order with shared lines. -/
theorem records_sharedLines_subset : ∀ kv ∈ sharedLines,
    kv.2.records ⊆ [orderRecord (lineRecord 1 2) (lineRecord 1 2), lineRecord 1 2, itemRecord 2] := by
  intro kv hkv
  rw [List.mem_singleton.mp hkv]
  show [_, lineRecord 1 2, itemRecord 2, lineRecord 1 2, itemRecord 2] ⊆ _
  simp

theorem labelsFaithful_sharedLines : LabelsFaithful sharedLines :=
  labelsFaithful_of_objects records_sharedLines_subset (by decide)

/-! ## §2. Reachable records. -/

/-- **A record that routes reach through fields and arrays.** -/
inductive Reachable (routes : RouteMap) : Record → Prop
  | root {route : String} {r : Record} (h : (route, .record r) ∈ routes) : Reachable routes r
  | field {r s : Record} {f : Field Schema} (hr : Reachable routes r) (hf : f ∈ r.fields)
      (hs : f.type.core = .record s) : Reachable routes s

variable {routes : RouteMap}

theorem mem_rootRecords_iff {r : Record} :
    r ∈ rootRecords routes ↔ ∃ route, (route, .record r) ∈ routes := by
  rw [rootRecords, List.mem_filterMap]
  constructor
  · rintro ⟨⟨route, schema⟩, hin, hr⟩
    cases schema with
    | record x =>
      injection hr with hr
      exact ⟨route, hr ▸ hin⟩
    | _ => simp [Schema.record?] at hr
  · rintro ⟨route, hin⟩
    exact ⟨(route, .record r), hin, rfl⟩

/-- Reachable records occur in the schemas. -/
theorem Reachable.occursIn {r : Record} (h : Reachable routes r) : OccursIn routes r := by
  induction h with
  | @root route r h => exact ⟨route, .record r, h, .self _⟩
  | @field r s f _ hf hs ih =>
    obtain ⟨route, schema, hin, hpart⟩ := ih
    refine ⟨route, schema, hin, Schema.IsPart.trans (.field hf ?_) hpart⟩
    rw [← hs]
    exact f.type.core_isPart

/-- **What the full walk meets is reachable.** -/
theorem reachable_of_mem_unfolding {r : Record} (h : r ∈ unfolding (rootRecords routes)) :
    Reachable routes r := by
  have hof : ∀ rs : List Record, (∀ x ∈ rs, Reachable routes x) →
      ∀ x ∈ unfolding rs, Reachable routes x := by
    intro rs hrs
    fun_induction unfolding rs with
    | case1 => simp
    | case2 x rest ih1 ih2 =>
      have hx := hrs x List.mem_cons_self
      intro y hy
      rw [List.mem_cons, List.mem_append] at hy
      rcases hy with rfl | hy | hy
      · exact hx
      · refine ih1 (fun s hs => ?_) y hy
        obtain ⟨f, hf, hcore⟩ :=
          RecordOf.exists_field_of_mem_references (List.mem_reverse.mp hs)
        exact .field hx hf hcore
      · exact ih2 (fun s hs => hrs s (List.mem_cons_of_mem _ hs)) y hy
  refine hof _ (fun x hx => ?_) r h
  obtain ⟨route, hin⟩ := mem_rootRecords_iff.mp hx
  exact .root hin

/-- **The full walk meets what is reachable**, as long as every record in it has a definition. -/
theorem mem_unfolding_of_reachable
    (htr : ∀ x ∈ unfolding (rootRecords routes), x.Translatable) {r : Record}
    (h : Reachable routes r) : r ∈ unfolding (rootRecords routes) := by
  induction h with
  | root h => exact mem_unfolding_of_mem (mem_rootRecords_iff.mpr ⟨_, h⟩)
  | field _ hf hs ih =>
    exact references_subset_unfolding ih
      ((RecordOf.mem_references_iff (htr _ ih)).mpr ⟨_, hf, hs⟩)

/-- Faithful labels tell the records of the walk apart. -/
theorem LabelsFaithful.identify (h : LabelsFaithful routes) :
    LabelsIdentify [] (rootRecords routes) := by
  intro a ha b hb hlabel
  rw [List.nil_append] at ha
  exact h a b (reachable_of_mem_unfolding ha).occursIn (reachable_of_mem_unfolding hb).occursIn
    hlabel

/-! ## §3. Accepted walks and their definitions. -/

variable {policy : CollisionPolicy} {bound : OrderedMap Binding}

/-- Every record of an accepted walk has a definition. -/
theorem translatable_of_acceptRoutes (h : acceptRoutes policy [] routes = .ok bound) :
    ∀ x ∈ unfolding (rootRecords routes), x.Translatable := by
  intro x hx
  have hacc := accepted_of_acceptAll (acceptRoutes_eq_ok_iff.mp h).2 x hx
  obtain ⟨-, value, hdef, -⟩ := accepted_iff.mp hacc
  exact (x.definition_isOk_iff).mp ⟨value, hdef⟩

/-- **Every reachable record is accepted.** -/
theorem accepted_of_reachable (h : acceptRoutes policy [] routes = .ok bound) {r : Record}
    (hr : Reachable routes r) : Accepted policy bound r :=
  accepted_of_acceptAll (acceptRoutes_eq_ok_iff.mp h).2 r
    (mem_unfolding_of_reachable (translatable_of_acceptRoutes h) hr)

/-- **Which definitions an accepted route map has**, name by name; the first one is that of the
answering record. -/
theorem generateDefinitions_of_acceptRoutes (hid : LabelsFaithful routes)
    (h : acceptRoutes policy [] routes = .ok bound) :
    ∃ defs, generateDefinitions routes policy = .ok defs
      ∧ defs.keys.head? = some responseName
      ∧ ∀ name, defs.find? name = if name = responseName then some responseDefinition
        else (bound.find? name).map Binding.value := by
  have hspec := generateDefinitions_spec routes policy hid.identify
  rw [h] at hspec
  obtain ⟨c, hfollows, hdefs⟩ := hspec
  refine ⟨_, hdefs, OrderedMap.head?_keys_ofList_cons _ _,
    find?_definitionsOf hfollows (fun r hr => ?_)⟩
  have hin := visits_subset_unfolding _ _ hr
  exact (accepted_iff.mp (accepted_of_acceptAll (acceptRoutes_eq_ok_iff.mp h).2 r hin)).1

/-- **A route map has definitions only if it is accepted.** -/
theorem exists_acceptRoutes_of_generateDefinitions (hid : LabelsFaithful routes)
    {defs : Definitions} (h : generateDefinitions routes policy = .ok defs) :
    ∃ bound, acceptRoutes policy [] routes = .ok bound := by
  have hspec := generateDefinitions_spec routes policy hid.identify
  cases hacc : acceptRoutes policy [] routes with
  | error e =>
    rw [hacc] at hspec
    have hspec : generateDefinitions routes policy = .error e := hspec
    rw [h] at hspec
    exact absurd hspec (by simp)
  | ok bound => exact ⟨bound, rfl⟩

/-- The definitions, name by name. -/
theorem find?_of_generateDefinitions (hid : LabelsFaithful routes) {defs : Definitions}
    (h : generateDefinitions routes policy = .ok defs)
    (hacc : acceptRoutes policy [] routes = .ok bound) (name : String) :
    defs.find? name = if name = responseName then some responseDefinition
      else (bound.find? name).map Binding.value := by
  obtain ⟨defs', hdefs', -, hfind⟩ := generateDefinitions_of_acceptRoutes hid hacc
  rw [h] at hdefs'
  injection hdefs' with hdefs'
  rw [hdefs', hfind]

/-- Definitions come from the entries of the walk. -/
theorem exists_entries_of_generateDefinitions (hid : LabelsFaithful routes) {defs : Definitions}
    (h : generateDefinitions routes policy = .ok defs) :
    ∃ entries, List.Forall₂ Entry.IsFor entries (visits [] (rootRecords routes))
      ∧ defs = definitionsOf entries := by
  obtain ⟨bound, hacc⟩ := exists_acceptRoutes_of_generateDefinitions hid h
  have hspec := generateDefinitions_spec routes policy hid.identify
  rw [hacc] at hspec
  obtain ⟨c, hfollows, hdefs⟩ := hspec
  rw [h] at hdefs
  injection hdefs with hdefs
  exact ⟨c.entries, hfollows.entries, hdefs⟩

/-- No name is listed twice. -/
theorem nodup_keys_of_generateDefinitions (hid : LabelsFaithful routes) {defs : Definitions}
    (h : generateDefinitions routes policy = .ok defs) : defs.keys.Nodup := by
  obtain ⟨entries, -, hdefs⟩ := exists_entries_of_generateDefinitions hid h
  rw [hdefs]
  exact OrderedMap.nodup_keys_ofList _

/-- The answering record stands under its name. -/
theorem find?_responseName (hid : LabelsFaithful routes) {defs : Definitions}
    (h : generateDefinitions routes policy = .ok defs) :
    defs.find? responseName = some responseDefinition := by
  obtain ⟨bound, hacc⟩ := exists_acceptRoutes_of_generateDefinitions hid h
  rw [find?_of_generateDefinitions hid h hacc, if_pos rfl]

/-- A name is bound exactly when a reachable record has it. -/
theorem find?_bound_isSome_iff (h : acceptRoutes policy [] routes = .ok bound) (name : String) :
    (bound.find? name).isSome ↔ ∃ r, Reachable routes r ∧ r.shortName = name := by
  constructor
  · intro hsome
    obtain ⟨b, hb⟩ := Option.isSome_iff_exists.mp hsome
    rcases exists_mem_of_find?_acceptAll (acceptRoutes_eq_ok_iff.mp h).2 hb with
      hnil | ⟨x, hx, hname, -, -⟩
    · simp at hnil
    · exact ⟨x, reachable_of_mem_unfolding hx, hname⟩
  · rintro ⟨r, hr, rfl⟩
    obtain ⟨-, _, -, b, hb, -⟩ := accepted_iff.mp (accepted_of_reachable h hr)
    rw [hb]
    rfl

/-- **The names are those of the answering record and of the reachable records.** -/
theorem mem_keys_iff (hid : LabelsFaithful routes) {defs : Definitions}
    (h : generateDefinitions routes policy = .ok defs) (name : String) :
    name ∈ defs.keys ↔ name = responseName ∨ ∃ r, Reachable routes r ∧ r.shortName = name := by
  obtain ⟨bound, hacc⟩ := exists_acceptRoutes_of_generateDefinitions hid h
  rw [← OrderedMap.find?_isSome_iff, find?_of_generateDefinitions hid h hacc,
    ← find?_bound_isSome_iff hacc]
  by_cases hname : name = responseName
  · simp [hname]
  · simp [hname]

/-- **Every definition is that of a reachable record**, the first one apart. -/
theorem exists_reachable_of_mem (hid : LabelsFaithful routes) {defs : Definitions}
    (h : generateDefinitions routes policy = .ok defs) {kv : String × SchemaObject}
    (hkv : kv ∈ defs) :
    kv.2 = responseDefinition ∨ ∃ r, Reachable routes r ∧ r.definition = .ok kv.2 := by
  obtain ⟨bound, hacc⟩ := exists_acceptRoutes_of_generateDefinitions hid h
  have hfind : defs.find? kv.1 = some kv.2 :=
    OrderedMap.find?_eq_some_of_mem (nodup_keys_of_generateDefinitions hid h) hkv
  rw [find?_of_generateDefinitions hid h hacc] at hfind
  split at hfind
  next =>
    injection hfind with hfind
    exact Or.inl hfind.symm
  next =>
    obtain ⟨b, hb, hv⟩ := Option.map_eq_some_iff.mp hfind
    rcases exists_mem_of_find?_acceptAll (acceptRoutes_eq_ok_iff.mp hacc).2 hb with
      hnil | ⟨x, hx, -, -, hdef⟩
    · simp at hnil
    · exact Or.inr ⟨x, reachable_of_mem_unfolding hx, by rw [hdef, hv]⟩

end AvroSwagger
