import AvroSwagger.Proofs.Reachability

/-!
# AvroSwagger.Proofs.Sharing

**Which records are one object does not matter to the definitions.**

The full walk looks at no identity, and it comes to the same bindings or the same
failure as the walk of the collector.  So route maps that say the same have the
same definitions, up to the order of the names, or fail with the same cause,
however their record objects are shared or copied.

Main statement: `generateDefinitions_of_same`.
-/

namespace AvroSwagger

open Swagger

variable {policy : CollisionPolicy} {bound : OrderedMap Binding}

/-- Route maps with the same routes in the same order and equal schemas. -/
def SameRoutes : RouteMap → RouteMap → Prop :=
  List.Forall₂ fun a b => a.1 = b.1 ∧ a.2.same b.2 = true

/-! ## §1. The full walk over equal records. -/

/-- The full walks over equal records meet equal records. -/
theorem unfolding_of_same {rs rs' : List Record} (h : List.Forall₂ RecordOf.Same rs rs') :
    List.Forall₂ RecordOf.Same (unfolding rs) (unfolding rs') := by
  fun_induction unfolding rs generalizing rs' with
  | case1 =>
    cases h
    simp
  | case2 r rest ih1 ih2 =>
    cases h with
    | cons hr hrest =>
      rw [unfolding_cons]
      exact .cons hr (List.rel_append (ih1 (List.rel_reverse hr.references)) (ih2 hrest))

/-- An equal record is accepted alike. -/
theorem accept_of_same {r s : Record} (h : r.Same s) :
    accept policy bound r = accept policy bound s := by
  unfold accept
  rw [h.shortName_eq, h.definition_eq, (RecordOf.same_iff.mp h).1]

/-- Equal records are accepted alike. -/
theorem acceptAll_of_same {rs rs' : List Record} (h : List.Forall₂ RecordOf.Same rs rs') :
    acceptAll policy bound rs = acceptAll policy bound rs' := by
  induction h generalizing bound with
  | nil => rfl
  | cons hr _ ih =>
    rw [acceptAll_cons, acceptAll_cons, accept_of_same hr]
    cases accept policy bound _ with
    | error e => rfl
    | ok mid => exact ih

/-! ## §2. Equal routes. -/

/-- Equal schemas have the same kind. -/
theorem Schema.typeName_of_same {s t : Schema} (h : s.same t = true) :
    s.typeName = t.typeName := by
  cases s <;> cases t <;> simp_all [Schema.same, Schema.typeName]

/-- Equal schemas are bound to equal records, or refused alike. -/
theorem routeRecord_of_same (route : String) {s t : Schema} (h : s.same t = true) :
    (∃ r r', routeRecord route s = .ok r ∧ routeRecord route t = .ok r' ∧ r.Same r')
      ∨ ∃ e, routeRecord route s = .error e ∧ routeRecord route t = .error e := by
  have hname := Schema.typeName_of_same h
  cases s with
  | record r =>
    cases t with
    | record r' =>
      rw [Schema.same] at h
      exact Or.inl ⟨r, r', rfl, rfl, h⟩
    | _ => simp [Schema.same] at h
  | _ =>
    refine Or.inr ⟨_, rfl, ?_⟩
    cases t with
    | record r' => simp [Schema.same] at h
    | _ => simp only [routeRecord, Schema.record?, hname]

/-- Equal routes are accepted alike. -/
theorem acceptRoutes_of_same {routes routes' : RouteMap} (h : SameRoutes routes routes') :
    acceptRoutes policy bound routes = acceptRoutes policy bound routes' := by
  unfold SameRoutes at h
  induction h generalizing bound with
  | nil => rfl
  | @cons a b rest rest' hab _ ih =>
    obtain ⟨route, schema⟩ := a
    obtain ⟨route', schema'⟩ := b
    obtain ⟨rfl, hschema⟩ : route = route' ∧ schema.same schema' = true := hab
    rcases routeRecord_of_same route hschema with ⟨r, r', hr, hr', hsame⟩ | ⟨e, he, he'⟩
    · have hwalk : acceptAll policy bound (unfolding [r]) = acceptAll policy bound (unfolding [r']) :=
        acceptAll_of_same (unfolding_of_same (.cons hsame .nil))
      simp only [acceptRoutes, hr, hr', hwalk, bind, Except.bind]
      cases acceptAll policy bound (unfolding [r']) with
      | error e => rfl
      | ok mid => exact ih
    · simp only [acceptRoutes, he, he', bind, Except.bind]

/-! ## §3. The definitions. -/

/-- **Route maps that say the same have the same definitions or fail with the same cause**,
however their record objects are shared. -/
theorem generateDefinitions_of_same {routes routes' : RouteMap} (hid : LabelsFaithful routes)
    (hid' : LabelsFaithful routes') (hsame : SameRoutes routes routes')
    (policy : CollisionPolicy) :
    (∃ e, generateDefinitions routes policy = .error e
        ∧ generateDefinitions routes' policy = .error e)
      ∨ ∃ defs defs', generateDefinitions routes policy = .ok defs
        ∧ generateDefinitions routes' policy = .ok defs'
        ∧ (∀ name, name ∈ defs.keys ↔ name ∈ defs'.keys)
        ∧ ∀ name, defs.find? name = defs'.find? name := by
  have hacc : acceptRoutes policy [] routes = acceptRoutes policy [] routes' :=
    acceptRoutes_of_same hsame
  cases h : acceptRoutes policy [] routes with
  | error e =>
    have hspec := generateDefinitions_spec routes policy hid.identify
    have hspec' := generateDefinitions_spec routes' policy hid'.identify
    rw [h] at hspec
    rw [← hacc, h] at hspec'
    exact Or.inl ⟨e, hspec, hspec'⟩
  | ok bound =>
    obtain ⟨defs, hdefs, -, hfind⟩ := generateDefinitions_of_acceptRoutes hid h
    obtain ⟨defs', hdefs', -, hfind'⟩ := generateDefinitions_of_acceptRoutes hid' (hacc ▸ h)
    have heq : ∀ name, defs.find? name = defs'.find? name := by
      intro name
      rw [hfind, hfind']
    refine Or.inr ⟨defs, defs', hdefs, hdefs', fun name => ?_, heq⟩
    rw [← OrderedMap.find?_isSome_iff, ← OrderedMap.find?_isSome_iff, heq]

/-- The same order with lines that are two objects. -/
def copiedLines : RouteMap :=
  [("Order", .record (orderRecord (lineRecord 1 2) (lineRecord 3 4)))]

theorem labelsFaithful_copiedLines : LabelsFaithful copiedLines := by
  have hin : ∀ kv ∈ copiedLines, kv.2.records
      ⊆ [orderRecord (lineRecord 1 2) (lineRecord 3 4), lineRecord 1 2, itemRecord 2,
        lineRecord 3 4, itemRecord 4] := by
    intro kv hkv
    rw [List.mem_singleton.mp hkv]
    exact fun _ h => h
  exact labelsFaithful_of_objects hin (by decide)

theorem sameRoutes_sharedLines_copiedLines : SameRoutes sharedLines copiedLines := by
  refine .cons ⟨rfl, ?_⟩ .nil
  simp [orderRecord, lineRecord, itemRecord, Schema.same, Schema.sameRecord, Schema.sameFields]

/-- The lines of an order may be one object or two copies. -/
theorem generateDefinitions_sharedLines_copiedLines :
    LabelsFaithful sharedLines ∧ LabelsFaithful copiedLines ∧ SameRoutes sharedLines copiedLines
      ∧ ((∃ e, generateDefinitions sharedLines .reject = .error e
            ∧ generateDefinitions copiedLines .reject = .error e)
          ∨ ∃ defs defs', generateDefinitions sharedLines .reject = .ok defs
            ∧ generateDefinitions copiedLines .reject = .ok defs'
            ∧ (∀ name, name ∈ defs.keys ↔ name ∈ defs'.keys)
            ∧ ∀ name, defs.find? name = defs'.find? name) :=
  ⟨labelsFaithful_sharedLines, labelsFaithful_copiedLines, sameRoutes_sharedLines_copiedLines,
    generateDefinitions_of_same labelsFaithful_sharedLines labelsFaithful_copiedLines
      sameRoutes_sharedLines_copiedLines .reject⟩

end AvroSwagger
