import AvroSwagger.Proofs.Reachability

/-!
# AvroSwagger.Proofs.Exactness

**Exactly which route maps have definitions when collisions are rejected, and
exactly which definitions these are.**

A route map is `Consistent` if every route is bound to a record, every reachable
record has a definition and a name that is not reserved, and reachable records
with one short name have one definition.  The walk stops at the first record in
whose way one of these stands, and it meets every reachable record and no
others; so it succeeds on consistent route maps only, and then leaves nothing
out and adds nothing.

Main statement: `generateDefinitions_reject_iff`.
-/

namespace AvroSwagger

open Swagger

/-- **What a route map has to be like for its definitions not to collide.** -/
structure Consistent (routes : RouteMap) : Prop where
  bound : ∀ route schema, (route, schema) ∈ routes → ∃ root, schema = .record root
  translatable : ∀ r, Reachable routes r → r.Translatable
  unreserved : ∀ r, Reachable routes r → r.shortName ≠ responseName
  agree : ∀ r s, Reachable routes r → Reachable routes s → r.shortName = s.shortName →
    ∀ v w, r.definition = .ok v → s.definition = .ok w → v.same w = true

variable {routes : RouteMap} {bound : OrderedMap Binding}

/-! ## §1. What an accepted walk says about its records. -/

/-- Without overwriting, every reachable record is bound to its own definition. -/
theorem find?_bound_of_reachable (h : acceptRoutes .reject [] routes = .ok bound) {r : Record}
    (hr : Reachable routes r) :
    r.shortName ≠ responseName
      ∧ ∃ b, bound.find? r.shortName = some b ∧ r.definition = .ok b.value := by
  obtain ⟨hname, v, hv, b, hb, hc⟩ := accepted_iff.mp (accepted_of_reachable h hr)
  refine ⟨hname, b, hb, ?_⟩
  -- the binding is the definition of some record, so the comparison is equality
  rcases exists_mem_of_find?_acceptAll (acceptRoutes_eq_ok_iff.mp h).2 hb with
    hnil | ⟨x, -, -, -, hx⟩
  · simp at hnil
  · rcases hc with hsame | hpolicy
    · rw [hv, (same_iff_eq_of_definition hx hv).mp hsame]
    · simp at hpolicy

/-- Only a consistent route map is accepted. -/
theorem consistent_of_acceptRoutes (h : acceptRoutes .reject [] routes = .ok bound) :
    Consistent routes where
  bound := by
    intro route schema hin
    have hsome := (acceptRoutes_eq_ok_iff.mp h).1 route schema hin
    cases schema with
    | record root => exact ⟨root, rfl⟩
    | _ => simp [Schema.record?] at hsome
  translatable := by
    intro r hr
    obtain ⟨-, b, -, hdef⟩ := find?_bound_of_reachable h hr
    exact r.definition_isOk_iff.mp ⟨b.value, hdef⟩
  unreserved := fun r hr => (find?_bound_of_reachable h hr).1
  agree := by
    intro r s hr hs hname v w hv hw
    obtain ⟨-, b, hb, hdef⟩ := find?_bound_of_reachable h hr
    obtain ⟨-, b', hb', hdef'⟩ := find?_bound_of_reachable h hs
    rw [hname, hb'] at hb
    injection hb with hb
    rw [hv] at hdef
    rw [hw, hb] at hdef'
    injection hdef with hdef
    injection hdef' with hdef'
    rw [same_iff_eq_of_definition hv hw, hdef, hdef']

/-- A consistent route map is accepted. -/
theorem Consistent.exists_acceptRoutes (h : Consistent routes) :
    ∃ bound, acceptRoutes .reject [] routes = .ok bound := by
  have hreach : ∀ x ∈ unfolding (rootRecords routes), Reachable routes x :=
    fun x hx => reachable_of_mem_unfolding hx
  have hdef : ∀ x ∈ unfolding (rootRecords routes), ∃ v, x.definition = .ok v :=
    fun x hx => x.definition_isOk_iff.mpr (h.translatable x (hreach x hx))
  have hagree : ∀ x ∈ unfolding (rootRecords routes), ∀ y ∈ unfolding (rootRecords routes),
      x.shortName = y.shortName → x.definition = y.definition := by
    intro x hx y hy hname
    obtain ⟨v, hv⟩ := hdef x hx
    obtain ⟨w, hw⟩ := hdef y hy
    have hsame := h.agree x y (hreach x hx) (hreach y hy) hname v w hv hw
    rw [hv, hw, (same_iff_eq_of_definition hv hw).mp hsame]
  have hwalk : ∃ bound, acceptAll .reject [] (unfolding (rootRecords routes)) = .ok bound :=
    exists_acceptAll_eq_ok (fun x hx => h.unreserved x (hreach x hx)) hdef hagree
      (fun x _ b hb => by simp at hb)
  obtain ⟨bound, hb⟩ := hwalk
  refine ⟨bound, acceptRoutes_eq_ok_iff.mpr ⟨fun route schema hin => ?_, hb⟩⟩
  obtain ⟨root, rfl⟩ := h.bound route schema hin
  rfl

/-! ## §2. What the definitions say about the records. -/

/-- **Only a consistent route map has definitions.** -/
theorem consistent_of_generateDefinitions (hid : LabelsFaithful routes) {defs : Definitions}
    (h : generateDefinitions routes .reject = .ok defs) : Consistent routes := by
  obtain ⟨bound, hacc⟩ := exists_acceptRoutes_of_generateDefinitions hid h
  exact consistent_of_acceptRoutes hacc

/-- **Every reachable record stands under its name with its own definition.** -/
theorem find?_eq_some_of_reachable (hid : LabelsFaithful routes) {defs : Definitions}
    (h : generateDefinitions routes .reject = .ok defs) {r : Record} (hr : Reachable routes r) :
    ∃ v, r.definition = .ok v ∧ defs.find? r.shortName = some v := by
  obtain ⟨bound, hacc⟩ := exists_acceptRoutes_of_generateDefinitions hid h
  obtain ⟨hname, b, hb, hdef⟩ := find?_bound_of_reachable hacc hr
  refine ⟨b.value, hdef, ?_⟩
  rw [find?_of_generateDefinitions hid h hacc, if_neg hname, hb]
  rfl

/-! ## §3. Exactness. -/

/-- **Rejecting collisions is exact.**  The definitions exist exactly when the route map is
consistent.  Their names are those of the reachable records behind that of the answering record,
and each reachable record stands there with its own definition. -/
theorem generateDefinitions_reject_iff (hid : LabelsFaithful routes) :
    ((∃ defs, generateDefinitions routes .reject = .ok defs) ↔ Consistent routes)
      ∧ ∀ defs, generateDefinitions routes .reject = .ok defs →
          (∀ name, name ∈ defs.keys
            ↔ name = responseName ∨ ∃ r, Reachable routes r ∧ r.shortName = name)
          ∧ defs.keys.head? = some responseName
          ∧ (∃ v, responseRecord.definition = .ok v ∧ defs.find? responseName = some v)
          ∧ ∀ r, Reachable routes r →
              ∃ v, r.definition = .ok v ∧ defs.find? r.shortName = some v := by
  constructor
  · constructor
    · intro ⟨defs, hdefs⟩
      exact consistent_of_generateDefinitions hid hdefs
    · intro hcons
      obtain ⟨bound, hacc⟩ := hcons.exists_acceptRoutes
      obtain ⟨defs, hdefs, -⟩ := generateDefinitions_of_acceptRoutes hid hacc
      exact ⟨defs, hdefs⟩
  · intro defs hdefs
    obtain ⟨bound, hacc⟩ := exists_acceptRoutes_of_generateDefinitions hid hdefs
    obtain ⟨defs', hdefs', hhead, -⟩ := generateDefinitions_of_acceptRoutes hid hacc
    rw [hdefs] at hdefs'
    injection hdefs' with hdefs'
    exact ⟨mem_keys_iff hid hdefs, hdefs' ▸ hhead,
      ⟨_, definition_responseRecord, find?_responseName hid hdefs⟩,
      fun r hr => find?_eq_some_of_reachable hid hdefs hr⟩

/-- An order with shared lines is consistent, so it has definitions and they are exact. -/
theorem generateDefinitions_reject_sharedLines :
    LabelsFaithful sharedLines ∧ Consistent sharedLines
      ∧ ∃ defs, generateDefinitions sharedLines .reject = .ok defs
        ∧ (∀ name, name ∈ defs.keys
            ↔ name = responseName ∨ ∃ r, Reachable sharedLines r ∧ r.shortName = name)
        ∧ defs.keys.head? = some responseName
        ∧ (∃ v, responseRecord.definition = .ok v ∧ defs.find? responseName = some v)
        ∧ ∀ r, Reachable sharedLines r →
            ∃ v, r.definition = .ok v ∧ defs.find? r.shortName = some v := by
  have hmem : ∀ r, Reachable sharedLines r →
      r = orderRecord (lineRecord 1 2) (lineRecord 1 2) ∨ r = lineRecord 1 2
        ∨ r = itemRecord 2 := by
    intro r hr
    simpa using hr.occursIn.mem_of_subset records_sharedLines_subset
  have hcons : Consistent sharedLines := by
    constructor
    · intro route schema hin
      rw [sharedLines, List.mem_singleton] at hin
      injection hin with _ hschema
      exact ⟨_, hschema⟩
    · intro r hr
      rcases hmem r hr with rfl | rfl | rfl <;>
        simp [RecordOf.Translatable, orderRecord, lineRecord, itemRecord, Schema.core,
          Schema.isMappable]
    · intro r hr
      rcases hmem r hr with rfl | rfl | rfl <;> decide
    · intro r s hr hs hname v w hv hw
      have heq : r = s := by
        rcases hmem r hr with rfl | rfl | rfl <;> rcases hmem s hs with rfl | rfl | rfl <;>
          first | rfl | exact absurd hname (by decide)
      rw [heq, hw] at hv
      injection hv with hv
      rw [← hv]
      exact (same_iff_eq_of_definition hw hw).mpr rfl
  have hexact := generateDefinitions_reject_iff labelsFaithful_sharedLines
  obtain ⟨defs, hdefs⟩ := hexact.1.mpr hcons
  exact ⟨labelsFaithful_sharedLines, hcons, defs, hdefs, hexact.2 defs hdefs⟩

end AvroSwagger
