import AvroSwagger.Proofs.Reachability
import AvroSwagger.Proofs.ReadingRules
import AvroSwagger.Proofs.Representation

/-!
# AvroSwagger.Proofs.Overwriting

**Overwriting collisions changes nothing where none is met.**

Run side by side, a collector that rejects collisions and one that overwrites
them do the same at every visit, up to the first collision.  So they end alike
unless the first one ends with a collision.

Behind a collision only the overwriting collector goes on.  It fails for no
other reasons than before, so it needs less of a route map (`Definable`), and it
keeps under each name the definition of the record that it visited first.

Main statements:
  * `collectRecord_carriesOver`, `collectRoutes_overwriting`: the two runs side by
    side, for a visit and for all routes;
  * `HoldsFirst.collects`: the arena holds the records visited first;
  * `generateDefinitions_overwrite`: overwriting is a conservative extension of
    rejecting.
-/

namespace AvroSwagger

open Swagger

/-- A failure because two different definitions share a short name. -/
def GenerationError.IsCollision (e : GenerationError) : Prop :=
  ∃ name existing incoming, e = .definitionCollision name existing incoming

namespace Collector

/-! ## §1. Two collectors side by side. -/

/-- The same collector, but overwriting collisions. -/
def overwriting (c : Collector) : Collector := { c with policy := .overwrite }

/-- **One outcome carries over to the other**: they agree except for the policy, unless the first
one is a collision. -/
def CarriesOver (strict lenient : Collector × Option GenerationError) : Prop :=
  lenient = (strict.1.overwriting, strict.2) ∨ ∃ e, strict.2 = some e ∧ e.IsCollision

/-- **What a visit does carries over.** -/
theorem collectRecord_carriesOver (c : Collector) (r : Record) :
    CarriesOver (c.collectRecord r) (c.overwriting.collectRecord r) := by
  have hvisit := visit_collectRecord c r
  generalize c.collectRecord r = outcome at hvisit ⊢
  -- every outcome but the last one is an outcome of the overwriting collector
  cases hvisit with
  | reserved hname => exact Or.inl (collectRecord_eq_of_visit (.reserved hname))
  | known hname hk => exact Or.inl (collectRecord_eq_of_visit (.known hname hk))
  | untranslated hname hk hdef =>
    exact Or.inl (collectRecord_eq_of_visit (.untranslated hname hk hdef))
  | bound hname hk hdef hfree =>
    exact Or.inl (collectRecord_eq_of_visit (.bound hname hk hdef hfree))
  | admitted hname hk hdef hfind _ =>
    exact Or.inl (collectRecord_eq_of_visit (.admitted hname hk hdef hfind (Or.inr rfl)))
  | collided => exact Or.inr ⟨_, rfl, _, _, _, rfl⟩

/-- What draining the stack does carries over. -/
theorem drain_carriesOver (c : Collector) : CarriesOver c.drain c.overwriting.drain := by
  induction c using stack_induction with
  | empty c hp =>
    have hp' : c.overwriting.pending = [] := hp
    rw [drain_of_nil hp, drain_of_nil hp']
    exact Or.inl rfl
  | visit c r rest hp ih =>
    have hp' : c.overwriting.pending = r :: rest := hp
    rw [drain_of_cons hp, drain_of_cons hp']
    rcases collectRecord_carriesOver { c with pending := rest } r with heq | ⟨e, he, hcollision⟩
    · have heq : collectRecord { c.overwriting with pending := rest } r = _ := heq
      rw [heq]
      cases hc : collectRecord { c with pending := rest } r with
      | mk after failure =>
        rw [hc] at ih
        cases failure with
        | some e => exact Or.inl rfl
        | none => exact ih
    · cases hc : collectRecord { c with pending := rest } r with
      | mk after failure =>
        rw [hc] at he
        have he : failure = some e := he
        rw [he]
        exact Or.inr ⟨e, rfl, hcollision⟩

/-- **What a call does carries over.** -/
theorem collectRoute_carriesOver (c : Collector) (root : Record) :
    CarriesOver (c.collectRoute root) (c.overwriting.collectRoute root) := by
  rw [collectRoute_eq_drain, collectRoute_eq_drain]
  exact drain_carriesOver { c with pending := root :: c.pending }

/-- An overwriting collector meets no collision. -/
theorem not_isCollision_of_collectRoute {c : Collector} (hpolicy : c.policy = .overwrite)
    {root : Record} {e : GenerationError} (h : (c.collectRoute root).2 = some e) :
    ¬e.IsCollision := by
  have hall := @collectRoute_induction c (fun c => c.policy = .overwrite)
    (fun e => ¬e.IsCollision) (fun _ _ h => h) (fun c r hc => ?_) root hpolicy
  · exact hall.2 e h
  · refine ⟨(extends_collectRecord c r).policy_eq.trans hc, ?_⟩
    have hvisit := visit_collectRecord c r
    generalize c.collectRecord r = outcome at hvisit ⊢
    intro e he hcollision
    obtain ⟨name, existing, incoming, rfl⟩ := hcollision
    cases hvisit with
    | untranslated _ _ hdef =>
      injection he with he
      obtain ⟨type, place, htype⟩ := RecordOf.exists_unsupportedType_of_definition hdef
      rw [htype] at he
      exact absurd he (by simp)
    | collided _ _ _ _ _ hreject => exact absurd (hreject.symm.trans hc) (by decide)
    | _ => simp at he

/-! ## §2. The order of the visits. -/

/-- **A collector empties its stack**: it visits the records of a list one after the other, each
when it is next on the stack, and none of the visits fails. -/
inductive Drains : Collector → List Record → Collector → Prop
  | done {c : Collector} (hp : c.pending = []) : Drains c [] c
  | visit {c mid after : Collector} {r : Record} {rest walk : List Record}
      (hp : c.pending = r :: rest) (hc : collectRecord { c with pending := rest } r = (mid, none))
      (hwalk : Drains mid walk after) : Drains c (r :: walk) after

/-- **A collector visits the records of routes**, one route after the other, and none of the
visits fails. -/
inductive Collects : Collector → List (String × Schema) → List Record → Collector → Prop
  | done {c : Collector} : Collects c [] [] c
  | route {c mid after : Collector} {route : String} {root : Record}
      {rest : List (String × Schema)} {walk further : List Record}
      (hwalk : Drains { c with pending := root :: c.pending } walk mid)
      (hrest : Collects mid rest further after) :
      Collects c ((route, .record root) :: rest) (walk ++ further) after

variable {c after : Collector}

/-- Draining that does not fail visits some records. -/
theorem exists_drains (h : c.drain = (after, none)) : ∃ walk, Drains c walk after := by
  induction c using stack_induction with
  | empty c hp =>
    rw [drain_of_nil hp] at h
    injection h with h
    exact ⟨[], h ▸ .done hp⟩
  | visit c r rest hp ih =>
    rw [drain_of_cons hp] at h
    cases hc : collectRecord { c with pending := rest } r with
    | mk mid failure =>
      rw [hc] at h ih
      cases failure with
      | some e => exact absurd h (by simp)
      | none =>
        obtain ⟨walk, hwalk⟩ := ih h
        exact ⟨r :: walk, .visit hp hc hwalk⟩

/-- Collecting that does not fail visits some records. -/
theorem exists_collects {routes : List (String × Schema)}
    (h : collectRoutes c routes = .ok after) : ∃ walk, Collects c routes walk after := by
  induction routes generalizing c with
  | nil =>
    injection h with h
    exact ⟨[], h ▸ .done⟩
  | cons kv rest ih =>
    obtain ⟨route, schema⟩ := kv
    obtain ⟨root, mid, rfl, hroute, hrest⟩ := collectRoutes_cons_eq_ok_iff.mp h
    rw [collectRoute_eq_drain] at hroute
    obtain ⟨walk, hwalk⟩ := exists_drains hroute
    obtain ⟨further, hfurther⟩ := ih hrest
    exact ⟨walk ++ further, .route hwalk hfurther⟩

/-- The arena holds the records visited first. -/
def HoldsFirst (c : Collector) (seen : List Record) : Prop :=
  ∀ name, seen.find? (fun s => s.shortName = name) = (c.arena.find? name).map Translated.record

/-- A visit under a bound name is not the first one. -/
theorem HoldsFirst.visit_bound {seen : List Record} (h : HoldsFirst c seen) {r : Record}
    (hbound : (c.arena.find? r.shortName).isSome) : HoldsFirst c (seen ++ [r]) := by
  intro name
  rw [List.find?_append, h name]
  cases hfind : c.arena.find? name with
  | some t => rfl
  | none =>
    have hne : r.shortName ≠ name := by
      intro heq
      rw [heq, hfind] at hbound
      exact absurd hbound (by simp)
    simp [hne]

/-- **A visit that does not fail keeps the records visited first in the arena.** -/
theorem HoldsFirst.collectRecord {seen : List Record} (h : HoldsFirst c seen) {r : Record}
    (hc : c.collectRecord r = (after, none)) : HoldsFirst after (seen ++ [r]) := by
  have hvisit := visit_collectRecord c r
  rw [hc] at hvisit
  cases hvisit with
  | known _ hk =>
    obtain ⟨t, hfind, -⟩ := exists_of_known hk
    exact h.visit_bound (by rw [hfind]; rfl)
  | admitted _ _ _ hfind _ => exact h.visit_bound (by rw [hfind]; rfl)
  | @bound value _ _ _ hfree =>
    intro name
    show _ = ((c.arena.insert r.shortName ⟨r, value⟩).find? name).map Translated.record
    rw [List.find?_append, h name, OrderedMap.find?_insert]
    by_cases hn : r.shortName = name
    · -- the name was free, so no record was visited under it
      rw [if_pos hn, ← hn, hfree]
      simp
    · rw [if_neg hn]
      cases c.arena.find? name <;> simp [hn]

/-- Draining keeps the records visited first in the arena. -/
theorem HoldsFirst.drains {seen walk : List Record} (h : HoldsFirst c seen)
    (hwalk : Drains c walk after) : HoldsFirst after (seen ++ walk) := by
  induction hwalk generalizing seen with
  | done => simpa using h
  | @visit c mid after r rest walk hp hc _ ih =>
    have hstart : HoldsFirst { c with pending := rest } seen := h
    have hmid := ih (hstart.collectRecord hc)
    rw [List.append_assoc] at hmid
    exact hmid

/-- **The arena holds the records visited first** over all routes. -/
theorem HoldsFirst.collects {seen walk : List Record} {routes : List (String × Schema)}
    (h : HoldsFirst c seen) (hwalk : Collects c routes walk after) :
    HoldsFirst after (seen ++ walk) := by
  induction hwalk generalizing seen with
  | done => simpa using h
  | @route c mid after route root rest walk further hdrain _ ih =>
    have hstart : HoldsFirst { c with pending := root :: c.pending } seen := h
    have hmid := ih (hstart.drains hdrain)
    rw [List.append_assoc] at hmid
    exact hmid

end Collector

/-! ## §3. All routes. -/

open Collector (Collects HoldsFirst)

variable {c after : Collector} {routes : RouteMap}

/-- **Routes that are collected are collected alike by an overwriting collector.** -/
theorem collectRoutes_overwriting {routes : List (String × Schema)}
    (h : collectRoutes c routes = .ok after) :
    collectRoutes c.overwriting routes = .ok after.overwriting := by
  induction routes generalizing c with
  | nil =>
    injection h with h
    rw [h, collectRoutes]
  | cons kv rest ih =>
    obtain ⟨route, schema⟩ := kv
    obtain ⟨root, mid, hschema, hroute, hrest⟩ := collectRoutes_cons_eq_ok_iff.mp h
    rw [collectRoutes_cons_eq_ok_iff]
    have hcarry := Collector.collectRoute_carriesOver c root
    rw [hroute] at hcarry
    rcases hcarry with heq | ⟨e, he, -⟩
    · exact ⟨root, mid.overwriting, hschema, heq, ih hrest⟩
    · exact absurd he (by simp)

/-- **Routes that fail without a collision fail alike for an overwriting collector.** -/
theorem collectRoutes_overwriting_error {routes : List (String × Schema)} {e : GenerationError}
    (h : collectRoutes c routes = .error e) (hnot : ¬e.IsCollision) :
    collectRoutes c.overwriting routes = .error e := by
  induction routes generalizing c with
  | nil => exact absurd h (by simp [collectRoutes])
  | cons kv rest ih =>
    obtain ⟨route, schema⟩ := kv
    rw [collectRoutes_cons_eq_error_iff] at h ⊢
    rcases h with hroute | ⟨root, mid, hschema, hcall⟩
    · exact Or.inl hroute
    · refine Or.inr ⟨root, mid.overwriting, hschema, ?_⟩
      have hcarry := Collector.collectRoute_carriesOver c root
      rcases hcall with hfail | ⟨hok, hrest⟩
      · rw [hfail] at hcarry
        rcases hcarry with heq | ⟨e', he, hcollision⟩
        · exact Or.inl heq
        · injection he with he
          exact absurd (he ▸ hcollision) hnot
      · rw [hok] at hcarry
        rcases hcarry with heq | ⟨e', he, -⟩
        · exact Or.inr ⟨heq, ih hrest⟩
        · exact absurd he (by simp)

/-- An overwriting collector meets no collision on any route. -/
theorem not_isCollision_of_collectRoutes {routes : List (String × Schema)} {e : GenerationError}
    (hpolicy : c.policy = .overwrite) (h : collectRoutes c routes = .error e) :
    ¬e.IsCollision := by
  induction routes generalizing c with
  | nil => exact absurd h (by simp [collectRoutes])
  | cons kv rest ih =>
    obtain ⟨route, schema⟩ := kv
    rcases collectRoutes_cons_eq_error_iff.mp h with hroute | ⟨root, mid, -, hcall⟩
    · rintro ⟨name, existing, incoming, rfl⟩
      unfold routeRecord at hroute
      split at hroute
      next => exact absurd hroute (by simp)
      next => exact absurd hroute (by simp)
    · rcases hcall with hfail | ⟨hok, hrest⟩
      · exact Collector.not_isCollision_of_collectRoute hpolicy (by rw [hfail])
      · have hmid := (Collector.extends_collectRoute c root).policy_eq
        rw [hok] at hmid
        exact ih (hmid.trans hpolicy) hrest

/-! ## §4. What an overwriting collection needs. -/

/-- **What a route map has to be like to have definitions at all**, whichever names its records
share. -/
structure Definable (routes : RouteMap) : Prop where
  bound : ∀ route schema, (route, schema) ∈ routes → ∃ root, schema = .record root
  translatable : ∀ r, Reachable routes r → r.Translatable
  unreserved : ∀ r, Reachable routes r → r.shortName ≠ responseName

/-- Records with definitions and names that are not reserved are accepted if differences are
overwritten. -/
theorem exists_acceptAll_overwrite {bound : OrderedMap Binding} {rs : List Record}
    (hname : ∀ x ∈ rs, x.shortName ≠ responseName) (hdef : ∀ x ∈ rs, ∃ v, x.definition = .ok v) :
    ∃ bound', acceptAll .overwrite bound rs = .ok bound' := by
  induction rs generalizing bound with
  | nil => exact ⟨bound, rfl⟩
  | cons r rest ih =>
    obtain ⟨v, hv⟩ := hdef r List.mem_cons_self
    have hrest : ∀ mid : OrderedMap Binding, ∃ bound', acceptAll .overwrite mid rest = .ok bound' :=
      fun mid => ih (fun x hx => hname x (List.mem_cons_of_mem _ hx))
        (fun x hx => hdef x (List.mem_cons_of_mem _ hx))
    simp only [acceptAll_cons_eq_ok_iff, accept_eq_ok_iff]
    cases hfind : bound.find? r.shortName with
    | none =>
      obtain ⟨bound', hb⟩ := hrest (bound.insert r.shortName ⟨r.fullName, v⟩)
      exact ⟨bound', _, ⟨hname r List.mem_cons_self, v, hv, Or.inl ⟨rfl, rfl⟩⟩, hb⟩
    | some existing =>
      obtain ⟨bound', hb⟩ := hrest bound
      exact ⟨bound', bound,
        ⟨hname r List.mem_cons_self, v, hv, Or.inr ⟨existing, rfl, Or.inr trivial, rfl⟩⟩, hb⟩

/-- **Overwriting succeeds exactly on definable route maps.** -/
theorem exists_generateDefinitions_overwrite_iff (hid : LabelsFaithful routes) :
    (∃ defs, generateDefinitions routes .overwrite = .ok defs) ↔ Definable routes := by
  constructor
  · rintro ⟨defs, hdefs⟩
    obtain ⟨bound, hacc⟩ := exists_acceptRoutes_of_generateDefinitions hid hdefs
    constructor
    · intro route schema hin
      have hsome := (acceptRoutes_eq_ok_iff.mp hacc).1 route schema hin
      cases schema with
      | record root => exact ⟨root, rfl⟩
      | _ => simp [Schema.record?] at hsome
    · intro r hr
      obtain ⟨-, v, hv, -⟩ := accepted_iff.mp (accepted_of_reachable hacc hr)
      exact r.definition_isOk_iff.mp ⟨v, hv⟩
    · intro r hr
      exact (accepted_iff.mp (accepted_of_reachable hacc hr)).1
  · intro h
    have hreach : ∀ x ∈ unfolding (rootRecords routes), Reachable routes x :=
      fun x hx => reachable_of_mem_unfolding hx
    have hwalk : ∃ bound, acceptAll .overwrite [] (unfolding (rootRecords routes)) = .ok bound := by
      apply exists_acceptAll_overwrite
      · exact fun x hx => h.unreserved x (hreach x hx)
      · exact fun x hx => x.definition_isOk_iff.mpr (h.translatable x (hreach x hx))
    obtain ⟨bound, hb⟩ := hwalk
    have hacc : acceptRoutes .overwrite [] routes = .ok bound := by
      refine acceptRoutes_eq_ok_iff.mpr ⟨fun route schema hin => ?_, hb⟩
      obtain ⟨root, rfl⟩ := h.bound route schema hin
      rfl
    obtain ⟨defs, hdefs, -⟩ := generateDefinitions_of_acceptRoutes hid hacc
    exact ⟨defs, hdefs⟩

/-! ## §5. Conservative extension. -/

/-- The value of a name is the definition of the record visited first under it. -/
theorem find?_definitionsOf_collects {policy : CollisionPolicy} {walk : List Record}
    (hc : collectRoutes (Collector.empty policy) routes = .ok c)
    (hwalk : Collects (Collector.empty policy) routes walk c) {name : String}
    (hname : name ≠ responseName) :
    (definitionsOf c.entries).find? name
      = (walk.find? fun r => r.shortName = name).bind fun r => r.definition.toOption := by
  have hrep := (Collector.represents_empty policy).collectRoutes hc
  have hstart : HoldsFirst (Collector.empty policy) [] := fun _ => rfl
  have hfirst := hstart.collects hwalk name
  rw [List.nil_append] at hfirst
  rw [find?_definitionsOf_eq hrep.unreserved, if_neg hname, hfirst]
  cases hfind : c.arena.find? name with
  | some t =>
    rw [hrep.first name t hfind]
    show some t.value = t.record.definition.toOption
    rw [(hrep.translated name t hfind).2]
    rfl
  | none =>
    -- a name that is not bound has no entry
    have hnone : c.entries.find? (fun e => e.name = name) = none := by
      rw [List.find?_eq_none]
      intro e he
      have hkey := OrderedMap.find?_eq_none_iff.mp hfind
      rw [hrep.mem_keys_iff] at hkey
      simp only [decide_eq_true_eq]
      intro hen
      exact hkey ⟨e, he, hen⟩
    rw [hnone]
    rfl

/-- **Overwriting is a conservative extension of rejecting.**  It gives the same definitions, or
fails with the same cause, unless rejecting ends with a collision.  It fails with no collision, it
succeeds exactly on definable route maps, and then each name has the definition of the record that
was visited first under it. -/
theorem generateDefinitions_overwrite (hid : LabelsFaithful routes) :
    (∀ defs, generateDefinitions routes .reject = .ok defs →
        generateDefinitions routes .overwrite = .ok defs)
      ∧ (∀ e, generateDefinitions routes .reject = .error e → ¬e.IsCollision →
          generateDefinitions routes .overwrite = .error e)
      ∧ (∀ e, generateDefinitions routes .overwrite = .error e → ¬e.IsCollision)
      ∧ ((∃ defs, generateDefinitions routes .overwrite = .ok defs) ↔ Definable routes)
      ∧ ∀ defs, generateDefinitions routes .overwrite = .ok defs →
          ∃ walk c, collectRoutes (Collector.empty .overwrite) routes = .ok c
            ∧ Collects (Collector.empty .overwrite) routes walk c
            ∧ ∀ name, name ≠ responseName → defs.find? name
              = (walk.find? fun r => r.shortName = name).bind fun r => r.definition.toOption := by
  refine ⟨fun defs h => ?_, fun e h hnot => ?_, fun e h => ?_,
    exists_generateDefinitions_overwrite_iff hid, fun defs h => ?_⟩
  · obtain ⟨c, hc, hdefs⟩ := generateDefinitions_eq_ok_iff.mp h
    exact generateDefinitions_eq_ok_iff.mpr ⟨_, collectRoutes_overwriting hc, hdefs⟩
  · exact generateDefinitions_eq_error_iff.mpr
      (collectRoutes_overwriting_error (generateDefinitions_eq_error_iff.mp h) hnot)
  · exact not_isCollision_of_collectRoutes rfl (generateDefinitions_eq_error_iff.mp h)
  · obtain ⟨c, hc, rfl⟩ := generateDefinitions_eq_ok_iff.mp h
    obtain ⟨walk, hwalk⟩ := Collector.exists_collects hc
    exact ⟨walk, c, hc, hwalk, fun name hname => find?_definitionsOf_collects hc hwalk hname⟩

/-- A record with one number. -/
def placeRecord (label : Nat) (fullName field : String) : Record :=
  ⟨label, fullName, none, [⟨field, none, .double⟩]⟩

/-- A trip between two places that share a short name. -/
def tripRecord : Record :=
  ⟨0, "Trip", none, [⟨"start", none, .record (placeRecord 1 "a.Place" "lat")⟩,
    ⟨"goal", none, .record (placeRecord 2 "b.Place" "x")⟩]⟩

/-- A route to a trip. -/
def rivalPlaces : RouteMap := [("Trip", .record tripRecord)]

theorem labelsFaithful_rivalPlaces : LabelsFaithful rivalPlaces := by
  have hin : ∀ kv ∈ rivalPlaces, kv.2.records
      ⊆ [tripRecord, placeRecord 1 "a.Place" "lat", placeRecord 2 "b.Place" "x"] := by
    intro kv hkv
    rw [List.mem_singleton.mp hkv]
    exact fun _ h => h
  exact labelsFaithful_of_objects hin (by decide)

/-- Of two places the one that is visited first keeps its definition. -/
theorem generateDefinitions_overwrite_rivalPlaces :
    LabelsFaithful rivalPlaces ∧ (generateDefinitions rivalPlaces .reject).isOk = false
      ∧ Definable rivalPlaces
      ∧ ∃ defs, generateDefinitions rivalPlaces .overwrite = .ok defs
        ∧ ∃ walk c, collectRoutes (Collector.empty .overwrite) rivalPlaces = .ok c
          ∧ Collects (Collector.empty .overwrite) rivalPlaces walk c
          ∧ ∀ name, name ≠ responseName → defs.find? name
            = (walk.find? fun r => r.shortName = name).bind fun r => r.definition.toOption := by
  have hreject : (generateDefinitions rivalPlaces .reject).isOk = false := by decide +kernel
  have hok : (generateDefinitions rivalPlaces .overwrite).isOk = true := by decide +kernel
  have hall := generateDefinitions_overwrite labelsFaithful_rivalPlaces
  obtain ⟨defs, hdefs⟩ := exists_eq_ok_of_isOk hok
  exact ⟨labelsFaithful_rivalPlaces, hreject, hall.2.2.2.1.mp ⟨defs, hdefs⟩, defs, hdefs,
    hall.2.2.2.2 defs hdefs⟩

end AvroSwagger
