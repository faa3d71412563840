import AvroSwagger.Proofs.Acceptance

/-!
# AvroSwagger.Proofs.Collection

**A collection is a walk with checks.**

The collector keeps its work on a stack.  Seen from outside it does the visits
of the walk `visits`, one entry for each, and accepts each visited record
against the bindings of the arena; the first record that is not accepted ends it.

Main statements:
  * `drain_spec`: what draining the stack comes to;
  * `collectRoutes_spec`: the same for all routes, where the bindings are those of
    the full walk;
  * `generateDefinitions_spec`, `find?_definitionsOf`: what the definitions of a
    route map are.
-/

namespace AvroSwagger

open Swagger

variable {policy : CollisionPolicy} {bound bound' : OrderedMap Binding} {r : Record}

/-! ## §1. States of the collector. -/

/-- An entry for a visited record. -/
def Entry.IsFor (e : Entry) (r : Record) : Prop :=
  e.name = r.shortName ∧ r.definition = .ok e.value

/-- What a name in the arena is bound to, apart from the identity of the record. -/
def Translated.binding (t : Translated) : Binding := ⟨t.record.fullName, t.value⟩

namespace Collector

/-- **The collector has done the visits `seen`**: one entry for each of them, and the arena
holds the first record visited under each short name with its definition. -/
structure Follows (c : Collector) (policy : CollisionPolicy) (bound : OrderedMap Binding)
    (seen : List Record) : Prop where
  policy_eq : c.policy = policy
  bindings_eq : c.arena.mapValues Translated.binding = bound
  entries : List.Forall₂ Entry.IsFor c.entries seen
  first : ∀ name, seen.find? (fun s => s.shortName = name)
    = (c.arena.find? name).map Translated.record
  translated : ∀ name t, c.arena.find? name = some t → t.record.definition = .ok t.value

theorem follows_empty (policy : CollisionPolicy) : (empty policy).Follows policy [] [] where
  policy_eq := rfl
  bindings_eq := rfl
  entries := .nil
  first := fun _ => rfl
  translated := fun _ _ h => by simp [empty] at h

variable {c : Collector} {seen : List Record}

/-- The bindings are those of the arena. -/
theorem Follows.find?_bound (h : c.Follows policy bound seen) (name : String) :
    bound.find? name = (c.arena.find? name).map Translated.binding := by
  rw [← h.bindings_eq, OrderedMap.find?_mapValues]

/-- A record is known when its visit is a revisit. -/
theorem Follows.isRevisit_eq (h : c.Follows policy bound seen) (r : Record) :
    isRevisit seen r = (c.known? r).isSome := by
  unfold isRevisit known?
  rw [h.first]
  cases c.arena.find? r.shortName with
  | none => rfl
  | some t =>
    simp only [Option.map_some]
    cases t.record.isSameObject r <;> rfl

/-- A visit leaves an entry and keeps the arena. -/
theorem Follows.append (h : c.Follows policy bound seen) {name : String} {value : SchemaObject}
    (hentry : Entry.IsFor ⟨name, value⟩ r) (hbound : (c.arena.find? r.shortName).isSome)
    (records : List Record) :
    ((c.push records).append name value).Follows policy bound (seen ++ [r]) where
  policy_eq := h.policy_eq
  bindings_eq := h.bindings_eq
  entries := by
    show List.Forall₂ _ (List.reverse (⟨name, value⟩ :: c.found)) _
    rw [List.reverse_cons]
    exact List.rel_append h.entries (.cons hentry .nil)
  first := by
    intro n
    rw [List.find?_append, h.first]
    show ((c.arena.find? n).map Translated.record).or _ = (c.arena.find? n).map Translated.record
    cases hf : c.arena.find? n with
    | some t => rfl
    | none =>
      have hne : r.shortName ≠ n := by
        intro e
        rw [e, hf] at hbound
        simp at hbound
      simp [hne]
  translated := h.translated

/-- A first visit leaves an entry and binds its name. -/
theorem Follows.bind (h : c.Follows policy bound seen) {value : SchemaObject}
    (hdef : r.definition = .ok value) (hnew : c.arena.find? r.shortName = none)
    (records : List Record) :
    (((c.push records).bind r.shortName ⟨r, value⟩).append r.shortName value).Follows policy
      (bound.insert r.shortName ⟨r.fullName, value⟩) (seen ++ [r]) where
  policy_eq := h.policy_eq
  bindings_eq := by
    show (c.arena.insert r.shortName ⟨r, value⟩).mapValues Translated.binding = _
    rw [OrderedMap.mapValues_insert, h.bindings_eq]
    rfl
  entries := by
    show List.Forall₂ _ (List.reverse (⟨r.shortName, value⟩ :: c.found)) _
    rw [List.reverse_cons]
    exact List.rel_append h.entries (.cons ⟨rfl, hdef⟩ .nil)
  first := by
    intro n
    show _ = ((c.arena.insert r.shortName ⟨r, value⟩).find? n).map Translated.record
    rw [List.find?_append, h.first, OrderedMap.find?_insert]
    by_cases hn : r.shortName = n
    · rw [if_pos hn, ← hn, hnew]
      simp
    · rw [if_neg hn]
      cases c.arena.find? n <;> simp [hn]
  translated := by
    intro n t ht
    have ht : (c.arena.insert r.shortName ⟨r, value⟩).find? n = some t := ht
    rw [OrderedMap.find?_insert] at ht
    split at ht
    · injection ht with ht
      rw [← ht]
      exact hdef
    · exact h.translated n t ht

/-! ## §2. One visit. -/

/-- A known record is accepted without a new binding. -/
theorem Follows.accepted_of_known (h : c.Follows policy bound seen)
    (hid : ∀ f ∈ seen, f.id = r.id → f = r) (hname : r.shortName ≠ responseName)
    {value : SchemaObject} (hk : c.known? r = some value) :
    r.definition = .ok value ∧ (c.arena.find? r.shortName).isSome
      ∧ accept policy bound r = .ok bound := by
  unfold known? at hk
  split at hk
  next t ht =>
    split at hk
    next hsame =>
      injection hk with hk
      have hfirst := h.first r.shortName
      rw [ht] at hfirst
      have heq : t.record = r :=
        hid t.record (List.mem_of_find?_eq_some hfirst) (by simpa [RecordOf.isSameObject] using hsame)
      have hdef : r.definition = .ok value := by
        rw [← heq, ← hk]
        exact h.translated _ t ht
      refine ⟨hdef, by rw [ht]; rfl, accepted_iff.mpr ⟨hname, value, hdef, t.binding, ?_, ?_⟩⟩
      · rw [h.find?_bound, ht]
        rfl
      · refine Or.inl ((same_iff_eq_of_definition (h.translated _ t ht) hdef).mpr ?_)
        exact hk
    next => simp at hk
  next => simp at hk

/-- What a visit of a record that is not known does. -/
theorem collectRecord_of_unknown (hname : r.shortName ≠ responseName) (hk : c.known? r = none) :
    c.collectRecord r =
      match r.definition with
      | .error e => (c.push r.references, some e)
      | .ok value =>
        match c.arena.find? r.shortName with
        | none =>
          (((c.push r.references).bind r.shortName ⟨r, value⟩).append r.shortName value, none)
        | some existing =>
          if existing.value.same value || c.policy = .overwrite then
            ((c.push r.references).append r.shortName value, none)
          else
            (c.push r.references,
              some (.definitionCollision r.shortName existing.record.fullName r.fullName)) := by
  unfold collectRecord
  simp only [hname, if_false, hk]
  rfl

/-- **A visit that is not accepted fails with the same cause.** -/
theorem collectRecord_eq_error (h : c.Follows policy bound seen)
    (hid : ∀ f ∈ seen, f.id = r.id → f = r) {e : GenerationError}
    (hacc : accept policy bound r = .error e) : (c.collectRecord r).2 = some e := by
  by_cases hname : r.shortName = responseName
  · rw [accept, if_pos hname, Except.error.injEq] at hacc
    rw [collectRecord, if_pos hname, hacc]
  · cases hk : c.known? r with
    | some value =>
      rw [(h.accepted_of_known hid hname hk).2.2] at hacc
      exact absurd hacc (by simp)
    | none =>
      rw [collectRecord_of_unknown hname hk]
      rw [accept, if_neg hname, h.find?_bound] at hacc
      cases hdef : r.definition with
      | error e' =>
        rw [hdef] at hacc
        simp only [Except.error.injEq] at hacc
        rw [hacc]
      | ok value =>
        cases hf : c.arena.find? r.shortName with
        | none =>
          simp only [hdef, hf, Option.map_none] at hacc
          exact absurd hacc (by simp)
        | some t =>
          simp only [hdef, hf, Option.map_some] at hacc
          show (if _ then _ else _ : Collector × Option GenerationError).2 = _
          split at hacc
          next => exact absurd hacc (by simp)
          next hc =>
            have hc : ¬(t.value.same value || policy = CollisionPolicy.overwrite) = true := hc
            injection hacc with hacc
            rw [h.policy_eq, if_neg hc, ← hacc]
            rfl

/-- **A visit that is accepted goes on**, with the records to be found below it on the stack. -/
theorem collectRecord_eq_ok (h : c.Follows policy bound seen)
    (hid : ∀ f ∈ seen, f.id = r.id → f = r) (hacc : accept policy bound r = .ok bound') :
    ∃ c', c.collectRecord r = (c', none) ∧ c'.Follows policy bound' (seen ++ [r])
      ∧ c'.pending = below seen r ++ c.pending := by
  obtain ⟨hname, value, hdef, hcases⟩ := accept_eq_ok_iff.mp hacc
  have hrev := h.isRevisit_eq r
  cases hk : c.known? r with
  | some known =>
    obtain ⟨hdef', hbound, hacc'⟩ := h.accepted_of_known hid hname hk
    rw [hacc] at hacc'
    injection hacc' with hacc'
    rw [hk] at hrev
    refine ⟨c.append r.shortName known, ?_, ?_, ?_⟩
    · simp only [collectRecord, hname, if_false, hk]
    · rw [hacc']
      exact h.append ⟨rfl, hdef'⟩ hbound []
    · rw [below, hrev]
      rfl
  | none =>
    rw [hk] at hrev
    have hpending : (c.push r.references).pending = below seen r ++ c.pending := by
      rw [below, hrev]
      rfl
    have hfind := h.find?_bound r.shortName
    rw [collectRecord_of_unknown hname hk, hdef]
    rcases hcases with ⟨hnone, rfl⟩ | ⟨existing, hsome, hc, rfl⟩
    · have hf : c.arena.find? r.shortName = none := by
        rw [hnone] at hfind
        exact Option.map_eq_none_iff.mp hfind.symm
      rw [hf]
      exact ⟨_, rfl, h.bind hdef hf r.references, hpending⟩
    · rw [hsome] at hfind
      obtain ⟨t, hf, ht⟩ := Option.map_eq_some_iff.mp hfind.symm
      have hc' : (t.value.same value || c.policy = .overwrite) = true := by
        rw [h.policy_eq, Bool.or_eq_true, decide_eq_true_iff]
        rw [← ht] at hc
        exact hc
      rw [hf]
      refine ⟨(c.push r.references).append r.shortName value, ?_, ?_, hpending⟩
      · simp only [hc', if_true]
      · exact h.append ⟨rfl, hdef⟩ (by rw [hf]; rfl) r.references

/-! ## §3. Draining the stack. -/

theorem drain_of_nil (hp : c.pending = []) : c.drain = (c, none) := by
  unfold drain
  split
  next => rfl
  next hp' => rw [hp] at hp'; exact absurd hp' (by simp)

theorem drain_of_cons {rest : List Record} (hp : c.pending = r :: rest) :
    c.drain =
      match collectRecord { c with pending := rest } r with
      | (after, none) => after.drain
      | (after, some e) => (after, some e) := by
  conv_lhs => unfold drain
  split
  next hp' => rw [hp] at hp'; exact absurd hp' (by simp)
  next r' rest' hp' =>
    rw [hp, List.cons.injEq] at hp'
    obtain ⟨rfl, rfl⟩ := hp'
    split
    next after hc => rw [hc]
    next after e hc => rw [hc]

/-- **Induction along the draining of the stack**: what holds with an empty stack, and before the
visit of the record on top when it holds behind that visit, holds always. -/
theorem stack_induction {P : Collector → Prop} (empty : ∀ c, c.pending = [] → P c)
    (visit : ∀ c r rest, c.pending = r :: rest →
      P (collectRecord { c with pending := rest } r).1 → P c) (c : Collector) : P c := by
  -- every visit lowers the load, so the induction is on the load
  induction hn : c.load using Nat.strongRecOn generalizing c with
  | ind n ih =>
  cases hp : c.pending with
  | nil => exact empty c hp
  | cons r rest =>
    have hlt := load_collectRecord_lt { c with pending := rest } r
    refine visit c r rest hp (ih _ ?_ _ rfl)
    simpa [← hn, load, hp, totalRecordCount] using hlt

/-- The stack does not matter to what has been visited. -/
theorem Follows.withPending (h : c.Follows policy bound seen) (rest : List Record) :
    Follows { c with pending := rest } policy bound seen :=
  ⟨h.policy_eq, h.bindings_eq, h.entries, h.first, h.translated⟩

/-- **What draining the stack comes to**: the visits of the walk over it, with the bindings or
the failure that accepting them one after the other gives. -/
theorem drain_spec (h : c.Follows policy bound seen)
    (hid : LabelsIdentify seen c.pending) :
    match acceptAll policy bound (visits seen c.pending) with
    | .error e => c.drain.2 = some e
    | .ok bound' => ∃ c', c.drain = (c', none)
        ∧ c'.Follows policy bound' (seen ++ visits seen c.pending) ∧ c'.pending = [] := by
  induction c using stack_induction generalizing bound seen with
  | empty c hp =>
    rw [hp, visits_nil, acceptAll_nil]
    refine ⟨c, drain_of_nil hp, ?_, hp⟩
    rw [List.append_nil]
    exact h
  | visit c r rest hp ih =>
    rw [hp] at hid
    have hidr : ∀ f ∈ seen, f.id = r.id → f = r := fun f hf hlabel =>
      hid f (List.mem_append_left _ hf) r (mem_unfolding_of_mem List.mem_cons_self) hlabel
    have h' := h.withPending rest
    rw [hp, visits_cons_eq, acceptAll_cons, drain_of_cons hp]
    cases hacc : accept policy bound r with
    | error e =>
      -- a visit that is not accepted ends the draining
      have hfail := collectRecord_eq_error h' hidr hacc
      show Prod.snd _ = some e
      split
      next after hc => rw [hc] at hfail; exact absurd hfail (by simp)
      next after e' hc => rw [hc] at hfail; exact hfail
    | ok bound₁ =>
      -- one that is accepted leaves what it found on top of the stack
      obtain ⟨c₁, hc, hfollows, hpending⟩ := collectRecord_eq_ok h' hidr hacc
      have hpending : c₁.pending = below seen r ++ rest := hpending
      rw [hc] at ih
      have hrec := ih hfollows (by rw [hpending]; exact hid.step)
      rw [hpending] at hrec
      rw [hc]
      show match acceptAll policy bound₁ _ with | .error e => _ | .ok bound' => _
      rw [List.append_assoc] at hrec
      exact hrec

/-- Visiting a route's record is visiting it from the top of the stack. -/
theorem collectRoute_eq_drain (c : Collector) (root : Record) :
    c.collectRoute root = drain { c with pending := root :: c.pending } := by
  obtain ⟨policy, found, pending, arena⟩ := c
  rw [drain_of_cons (c := ⟨policy, found, root :: pending, arena⟩) rfl]
  unfold collectRoute
  cases collectRecord ⟨policy, found, pending, arena⟩ root with
  | mk after failure =>
    cases failure with
    | none => rfl
    | some e => rfl

end Collector

/-! ## §4. All routes. -/

/-- The records that routes are bound to, in route order. -/
def rootRecords (routes : RouteMap) : List Record := routes.filterMap fun kv => kv.2.record?

theorem rootRecords_cons {route : String} {schema : Schema} {root : Record}
    (h : schema.record? = some root) (rest : RouteMap) :
    rootRecords ((route, schema) :: rest) = root :: rootRecords rest := by
  simp [rootRecords, h]

theorem routeRecord_eq_ok_iff {route : String} {schema : Schema} {root : Record} :
    routeRecord route schema = .ok root ↔ schema.record? = some root := by
  unfold routeRecord
  cases schema.record? <;> simp

/-- Accepts the full walk below each route's record, one route after the other. -/
def acceptRoutes (policy : CollisionPolicy) (bound : OrderedMap Binding) :
    List (String × Schema) → Except GenerationError (OrderedMap Binding)
  | [] => .ok bound
  | (route, schema) :: rest => do
    let root ← routeRecord route schema
    let bound ← acceptAll policy bound (unfolding [root])
    acceptRoutes policy bound rest

variable {c : Collector} {seen : List Record}

/-- Routes are accepted when each of them is bound to a record and the full walk over these
records is accepted. -/
theorem acceptRoutes_eq_ok_iff {routes : RouteMap} :
    acceptRoutes policy bound routes = .ok bound'
      ↔ (∀ route schema, (route, schema) ∈ routes → schema.record?.isSome)
        ∧ acceptAll policy bound (unfolding (rootRecords routes)) = .ok bound' := by
  induction routes generalizing bound with
  | nil => simp [acceptRoutes, rootRecords]
  | cons kv rest ih =>
    obtain ⟨route, schema⟩ := kv
    cases hrec : schema.record? with
    | none =>
      have hr : routeRecord route schema
          = .error (.schema (.routeNotRecord route schema.typeName)) := by
        rw [routeRecord, hrec]
      simp only [acceptRoutes, hr, bind, Except.bind, reduceCtorEq, false_iff]
      rintro ⟨hall, -⟩
      have h := hall route schema List.mem_cons_self
      rw [hrec] at h
      simp at h
    | some root =>
      have hr : routeRecord route schema = .ok root := routeRecord_eq_ok_iff.mpr hrec
      have hroots : rootRecords ((route, schema) :: rest) = [root] ++ rootRecords rest :=
        rootRecords_cons hrec rest
      have hall : (∀ n s, (n, s) ∈ (route, schema) :: rest → s.record?.isSome)
          ↔ ∀ n s, (n, s) ∈ rest → s.record?.isSome := by
        constructor
        · exact fun h n s hin => h n s (List.mem_cons_of_mem _ hin)
        · intro h n s hin
          rcases List.mem_cons.mp hin with hin | hin
          · injection hin with _ hs
            rw [hs, hrec]
            rfl
          · exact h n s hin
      rw [hall, hroots, unfolding_append, acceptAll_append]
      simp only [acceptRoutes, hr, bind, Except.bind]
      cases acceptAll policy bound (unfolding [root]) with
      | error e => simp
      | ok bound₁ => exact ih

/-- **What collecting all routes comes to**: the visits of one walk over the routes' records,
with the bindings or the failure of the full walk. -/
theorem collectRoutes_spec {routes : RouteMap} (h : c.Follows policy bound seen)
    (hp : c.pending = []) (hsp : Sparing policy bound seen (rootRecords routes)) :
    match acceptRoutes policy bound routes with
    | .error e => collectRoutes c routes = .error e
    | .ok bound' => ∃ c', collectRoutes c routes = .ok c'
        ∧ c'.Follows policy bound' (seen ++ visits seen (rootRecords routes)) := by
  induction routes generalizing c bound seen with
  | nil => exact ⟨c, rfl, by simpa [rootRecords] using h⟩
  | cons kv rest ih =>
    obtain ⟨route, schema⟩ := kv
    cases hr : routeRecord route schema with
    | error e => simp only [acceptRoutes, collectRoutes, hr, bind, Except.bind]
    | ok root =>
      have hroots := @rootRecords_cons route schema root (routeRecord_eq_ok_iff.mp hr) rest
      rw [hroots] at hsp
      have hdrain := Collector.drain_spec (h.withPending [root]) hsp.head.labels
      rw [acceptAll_visits hsp.head] at hdrain
      have hroute : c.collectRoute root = Collector.drain { c with pending := [root] } := by
        rw [Collector.collectRoute_eq_drain, hp]
      simp only [acceptRoutes, collectRoutes, hr, bind, Except.bind, hroute]
      cases hall : acceptAll policy bound (unfolding [root]) with
      | error e =>
        rw [hall] at hdrain
        have hdrain : (Collector.drain { c with pending := [root] }).2 = some e := hdrain
        show _ = Except.error e
        split
        next after hd => rw [hd] at hdrain; exact absurd hdrain (by simp)
        next after e' hd => rw [hd] at hdrain; injection hdrain with hdrain; rw [hdrain]
      | ok bound₁ =>
        rw [hall] at hdrain
        obtain ⟨c₁, hd, hfollows, hp₁⟩ := hdrain
        rw [hd]
        have hsplit : visits seen (root :: rootRecords rest)
            = visits seen [root] ++ visits (seen ++ visits seen [root]) (rootRecords rest) := by
          rw [← visits_append, List.singleton_append]
        have hvisits : visits seen [root]
            = root :: visits (seen ++ [root]) (below seen root) := by
          rw [visits_cons, visits_nil, List.append_nil]
        -- the walk of this route has settled all it met, so the next one may spare it
        have hnext : Sparing policy bound₁ (seen ++ visits seen [root]) (rootRecords rest) := by
          rw [hvisits]
          exact hsp.advance (visits_below_subset _ _ root) hall
        rw [hroots, hsplit, ← List.append_assoc]
        exact ih hfollows hp₁ hnext

/-! ## §5. The definitions. -/

/-- The definition of the record that every operation answers with. -/
def responseDefinition : SchemaObject := .object [("id", .scalar .string)]

theorem definition_responseRecord : responseRecord.definition = .ok responseDefinition := rfl

@[simp] theorem refs_responseDefinition : responseDefinition.refs = [] := rfl

/-- The definition map of entries: the answering record first, then the entries, latest first. -/
def definitionsOf (entries : List Entry) : Definitions :=
  OrderedMap.ofList
    ((responseName, responseDefinition) :: entries.reverse.map fun e => (e.name, e.value))

/-- The first entry under a name is that of the first visit under it. -/
theorem find?_entries_of_find? {entries : List Entry}
    (h : List.Forall₂ Entry.IsFor entries seen) (name : String) :
    (seen.find? (fun s => s.shortName = name) = none
        ∧ entries.find? (fun e => e.name = name) = none)
      ∨ ∃ r e, seen.find? (fun s => s.shortName = name) = some r
        ∧ entries.find? (fun e => e.name = name) = some e ∧ e.IsFor r := by
  induction h with
  | nil => exact Or.inl ⟨rfl, rfl⟩
  | @cons e r entries seen her _ ih =>
    rw [List.find?_cons, List.find?_cons, her.1]
    by_cases hn : r.shortName = name
    · exact Or.inr ⟨r, e, by simp [hn], by simp [hn], her⟩
    · simpa [hn] using ih

/-- The first entry under a name holds the value that the name is bound to. -/
theorem find?_entries_value (h : c.Follows policy bound seen) (name : String) :
    (c.entries.find? (fun e => e.name = name)).map Entry.value
      = (bound.find? name).map Binding.value := by
  rw [h.find?_bound]
  have hfirst := h.first name
  rcases find?_entries_of_find? h.entries name with ⟨hs, he⟩ | ⟨r, e, hs, he, her⟩
  · rw [hs] at hfirst
    rw [he, Option.map_eq_none_iff.mp hfirst.symm]
    rfl
  · rw [hs] at hfirst
    obtain ⟨t, ht, htr⟩ := Option.map_eq_some_iff.mp hfirst.symm
    -- the entry and the binding are both made from the first record visited
    have hdef := h.translated name t ht
    rw [htr, her.2] at hdef
    injection hdef with hdef
    rw [he, ht]
    exact congrArg some hdef

/-- **The value of a name is that of its first entry**; the answering record keeps its own. -/
theorem find?_definitionsOf_eq {entries : List Entry}
    (hname : ∀ e ∈ entries, e.name ≠ responseName) (name : String) :
    (definitionsOf entries).find? name
      = if name = responseName then some responseDefinition
        else (entries.find? fun e => e.name = name).map Entry.value := by
  -- the last write under a name is the first entry under it
  have hpairs : ((responseName, responseDefinition)
        :: entries.reverse.map fun e => (e.name, e.value)).reverse
      = (entries.map fun e => (e.name, e.value)) ++ [(responseName, responseDefinition)] := by
    simp
  have hcomp : ((fun kv : String × SchemaObject => decide (kv.1 = name))
      ∘ fun e : Entry => (e.name, e.value)) = fun e => decide (e.name = name) := rfl
  have hsnd : (Prod.snd ∘ fun e : Entry => (e.name, e.value)) = Entry.value := rfl
  rw [definitionsOf, OrderedMap.find?_ofList, hpairs, List.find?_append, List.find?_map,
    Option.map_or, Option.map_map, hcomp, hsnd]
  by_cases hn : name = responseName
  · -- no entry has the reserved name, so the answering record's write is the only one
    have hnone : entries.find? (fun e => e.name = name) = none := by
      rw [List.find?_eq_none]
      intro e he
      simpa [hn] using hname e he
    rw [if_pos hn, hnone]
    simp [hn]
  · have hn' : ¬responseName = name := fun e => hn e.symm
    rw [if_neg hn]
    simp [hn']

/-- **The value of a name is that of its binding**; the answering record keeps its own. -/
theorem find?_definitionsOf (h : c.Follows policy bound seen)
    (hname : ∀ r ∈ seen, r.shortName ≠ responseName) (name : String) :
    (definitionsOf c.entries).find? name
      = if name = responseName then some responseDefinition
        else (bound.find? name).map Binding.value := by
  have hentries : ∀ e ∈ c.entries, e.name ≠ responseName := by
    intro e he
    obtain ⟨r, hr, her⟩ := exists_left_of_forall₂ h.entries.flip e he
    rw [her.1]
    exact hname r hr
  rw [find?_definitionsOf_eq hentries, find?_entries_value h]

/-- Finishing always succeeds. -/
theorem Collector.finish_eq (c : Collector) : c.finish = .ok (definitionsOf c.entries) := by
  unfold Collector.finish
  rw [definition_responseRecord]
  show Except.ok _ = _
  rw [definitionsOf, Collector.entries, List.reverse_reverse]

/-- **What the definitions of a route map come to.** -/
theorem generateDefinitions_spec (routes : RouteMap) (policy : CollisionPolicy)
    (hid : LabelsIdentify [] (rootRecords routes)) :
    match acceptRoutes policy [] routes with
    | .error e => generateDefinitions routes policy = .error e
    | .ok bound => ∃ c : Collector, c.Follows policy bound (visits [] (rootRecords routes))
        ∧ generateDefinitions routes policy = .ok (definitionsOf c.entries) := by
  have hsp : Sparing policy [] [] (rootRecords routes) := ⟨hid, by simp⟩
  have hspec := collectRoutes_spec (Collector.follows_empty policy) rfl hsp
  unfold generateDefinitions
  cases hacc : acceptRoutes policy [] routes with
  | error e =>
    rw [hacc] at hspec
    have hspec : collectRoutes (Collector.empty policy) routes = .error e := hspec
    rw [hspec]
    rfl
  | ok bound =>
    rw [hacc] at hspec
    obtain ⟨c, hc, hfollows⟩ := hspec
    refine ⟨c, hfollows, ?_⟩
    rw [hc]
    exact c.finish_eq

end AvroSwagger
