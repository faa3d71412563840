import AvroSwagger.Proofs.Collection

/-!
# AvroSwagger.Proofs.Representation

**What the entries and the arena of a collector say about each other, after any
calls, failed ones included.**

A call that fails leaves its state behind, with records on the stack that the
next call visits.  So a property of all states has to survive every single
visit, whatever became of it.  A visit does one of six things (`Visit`), and only
two of them reach the entries or the arena: an entry under a name that is bound,
and an entry together with the binding of a new name.

Main statements:
  * `visit_collectRecord`: the six things a visit can do;
  * `collectRoute_induction`: what every visit keeps, every call keeps;
  * `afterCalls_represents`: the entries and the arena agree after any calls, and
    no call takes anything back.
-/

namespace AvroSwagger

open Swagger

namespace Collector

/-! ## §1. What a visit can do. -/

/-- **The outcomes of a visit**, each with the state it leaves and the failure, if any. -/
inductive Visit (c : Collector) (r : Record) : Collector × Option GenerationError → Prop
  | reserved (hname : r.shortName = responseName) :
      Visit c r (c, some (.reservedName responseName))
  /-- The record is the arena's own object. -/
  | known {value : SchemaObject} (hname : r.shortName ≠ responseName)
      (hk : c.known? r = some value) : Visit c r (c.append r.shortName value, none)
  | untranslated {e : GenerationError} (hname : r.shortName ≠ responseName)
      (hk : c.known? r = none) (hdef : r.definition = .error e) :
      Visit c r (c.push r.references, some e)
  /-- The name is new. -/
  | bound {value : SchemaObject} (hname : r.shortName ≠ responseName) (hk : c.known? r = none)
      (hdef : r.definition = .ok value) (hfree : c.arena.find? r.shortName = none) :
      Visit c r
        (((c.push r.references).bind r.shortName ⟨r, value⟩).append r.shortName value, none)
  /-- The name is bound, to an equal definition or where differences are overwritten. -/
  | admitted {value : SchemaObject} {existing : Translated} (hname : r.shortName ≠ responseName)
      (hk : c.known? r = none) (hdef : r.definition = .ok value)
      (hfind : c.arena.find? r.shortName = some existing)
      (hagree : existing.value.same value = true ∨ c.policy = .overwrite) :
      Visit c r ((c.push r.references).append r.shortName value, none)
  | collided {value : SchemaObject} {existing : Translated} (hname : r.shortName ≠ responseName)
      (hk : c.known? r = none) (hdef : r.definition = .ok value)
      (hfind : c.arena.find? r.shortName = some existing)
      (hdiffer : existing.value.same value = false) (hpolicy : c.policy = .reject) :
      Visit c r (c.push r.references,
        some (.definitionCollision r.shortName existing.record.fullName r.fullName))

/-- **A visit does one of these things.** -/
theorem visit_collectRecord (c : Collector) (r : Record) : Visit c r (c.collectRecord r) := by
  by_cases hname : r.shortName = responseName
  · rw [collectRecord, if_pos hname]
    exact .reserved hname
  · cases hk : c.known? r with
    | some value =>
      have hvisit : c.collectRecord r = (c.append r.shortName value, none) := by
        simp only [collectRecord, hname, if_false, hk]
      rw [hvisit]
      exact .known hname hk
    | none =>
      rw [collectRecord_of_unknown hname hk]
      cases hdef : r.definition with
      | error e => exact .untranslated hname hk hdef
      | ok value =>
        cases hfind : c.arena.find? r.shortName with
        | none => exact .bound hname hk hdef hfind
        | some existing =>
          by_cases hagree : existing.value.same value = true ∨ c.policy = .overwrite
          · have hcond : (existing.value.same value || decide (c.policy = .overwrite)) = true := by
              simpa using hagree
            simp only [hcond, if_true]
            exact .admitted hname hk hdef hfind hagree
          · have hcond :
                ¬(existing.value.same value || decide (c.policy = .overwrite)) = true := by
              simpa using hagree
            rw [not_or] at hagree
            have hpolicy : c.policy = .reject := by
              cases hp : c.policy with
              | reject => rfl
              | overwrite => exact absurd hp hagree.2
            simp only [if_neg hcond]
            exact .collided hname hk hdef hfind (by simpa using hagree.1) hpolicy

variable {c : Collector}

/-- The outcome of a visit is the only one. -/
theorem collectRecord_eq_of_visit {r : Record} {outcome : Collector × Option GenerationError}
    (h : Visit c r outcome) : c.collectRecord r = outcome := by
  cases h with
  | reserved hname => rw [collectRecord, if_pos hname]
  | known hname hk => simp only [collectRecord, hname, if_false, hk]
  | untranslated hname hk hdef => rw [collectRecord_of_unknown hname hk, hdef]
  | bound hname hk hdef hfree => rw [collectRecord_of_unknown hname hk, hdef, hfree]
  | @admitted value existing hname hk hdef hfind hagree =>
    have hcond : (existing.value.same value || decide (c.policy = .overwrite)) = true := by
      simpa using hagree
    rw [collectRecord_of_unknown hname hk, hdef, hfind]
    simp only [hcond, if_true]
  | collided hname hk hdef hfind hdiffer hpolicy =>
    rw [collectRecord_of_unknown hname hk, hdef, hfind]
    simp [hdiffer, hpolicy]

/-! ## §2. From visits to calls. -/

/-- What every visit keeps is kept until the stack is empty or a visit fails, and then the
failure is one of a visit. -/
theorem drain_induction {P : Collector → Prop} {F : GenerationError → Prop}
    (hpending : ∀ c rest, P c → P { c with pending := rest })
    (hvisit : ∀ c r, P c →
      P (c.collectRecord r).1 ∧ ∀ e, (c.collectRecord r).2 = some e → F e) (h : P c) :
    P c.drain.1 ∧ ∀ e, c.drain.2 = some e → F e := by
  induction c using stack_induction with
  | empty c hp =>
    rw [drain_of_nil hp]
    exact ⟨h, fun e he => absurd he (by simp)⟩
  | visit c r rest hp ih =>
    have hafter := hvisit _ r (hpending c rest h)
    rw [drain_of_cons hp]
    cases hc : collectRecord { c with pending := rest } r with
    | mk after failure =>
      rw [hc] at hafter ih
      cases failure with
      | some e => exact hafter
      | none => exact ih hafter.1

/-- **What every visit keeps, every call keeps**, whether or not it fails, and it fails only as a
visit does. -/
theorem collectRoute_induction {P : Collector → Prop} {F : GenerationError → Prop}
    (hpending : ∀ c rest, P c → P { c with pending := rest })
    (hvisit : ∀ c r, P c →
      P (c.collectRecord r).1 ∧ ∀ e, (c.collectRecord r).2 = some e → F e) (root : Record)
    (h : P c) : P (c.collectRoute root).1 ∧ ∀ e, (c.collectRoute root).2 = some e → F e := by
  rw [collectRoute_eq_drain]
  exact drain_induction hpending hvisit (hpending c _ h)

/-! ## §3. Entries and arena. -/

@[simp] theorem entries_append (c : Collector) (name : String) (value : SchemaObject) :
    (c.append name value).entries = c.entries ++ [⟨name, value⟩] := by
  show List.reverse (⟨name, value⟩ :: c.found) = _
  rw [List.reverse_cons]
  rfl

@[simp] theorem entries_bind (c : Collector) (name : String) (translated : Translated) :
    (c.bind name translated).entries = c.entries := rfl

/-- **What the entries and the arena say about each other.** -/
structure Represents (c : Collector) : Prop where
  /-- The arena binds the names of the entries. -/
  mem_keys_iff : ∀ name, name ∈ c.arena.keys ↔ ∃ e ∈ c.entries, e.name = name
  /-- A name is bound to the value of its first entry. -/
  first : ∀ name t, c.arena.find? name = some t →
    c.entries.find? (fun e => e.name = name) = some ⟨name, t.value⟩
  /-- The value is the definition of the record that the arena holds. -/
  translated : ∀ name t, c.arena.find? name = some t →
    t.record.shortName = name ∧ t.record.definition = .ok t.value
  unreserved : ∀ e ∈ c.entries, e.name ≠ responseName
  /-- Where collisions are rejected, the entries under one name are equal. -/
  agree : c.policy = .reject → ∀ e ∈ c.entries, ∀ e' ∈ c.entries, e.name = e'.name →
    e.value = e'.value

theorem represents_empty (policy : CollisionPolicy) : (empty policy).Represents where
  mem_keys_iff := fun name => by simp [empty, entries]
  first := fun name t h => by simp [empty] at h
  translated := fun name t h => by simp [empty] at h
  unreserved := fun e he => by simp [empty, entries] at he
  agree := fun _ e he => by simp [empty, entries] at he

/-- The stack does not matter to what was collected. -/
theorem Represents.withPending (h : c.Represents) (rest : List Record) :
    Represents { c with pending := rest } :=
  ⟨h.mem_keys_iff, h.first, h.translated, h.unreserved, h.agree⟩

/-- Every entry under a bound name has the value of the binding, where collisions are
rejected. -/
theorem Represents.value_eq (h : c.Represents) (hpolicy : c.policy = .reject) {t : Translated}
    {e : Entry} (he : e ∈ c.entries) (hfind : c.arena.find? e.name = some t) :
    e.value = t.value :=
  h.agree hpolicy e he ⟨e.name, t.value⟩ (List.mem_of_find?_eq_some (h.first _ t hfind)) rfl

/-- **An entry under a bound name.** -/
theorem Represents.append (h : c.Represents) {name : String} {value : SchemaObject}
    {t : Translated} (hname : name ≠ responseName) (hfind : c.arena.find? name = some t)
    (hagree : c.policy = .reject → value = t.value) : (c.append name value).Represents where
  mem_keys_iff := by
    intro n
    rw [entries_append]
    show n ∈ c.arena.keys ↔ _
    rw [h.mem_keys_iff]
    constructor
    · rintro ⟨e, he, hn⟩
      exact ⟨e, List.mem_append_left _ he, hn⟩
    · rintro ⟨e, he, hn⟩
      rcases List.mem_append.mp he with he | he
      · exact ⟨e, he, hn⟩
      · -- the name was bound, so it had an entry before
        rw [List.mem_singleton.mp he] at hn
        have hbound : name ∈ c.arena.keys := OrderedMap.find?_isSome_iff.mp (by rw [hfind]; rfl)
        exact (h.mem_keys_iff n).mp (hn ▸ hbound)
  first := by
    intro n t' hn
    rw [entries_append, List.find?_append, h.first n t' hn]
    rfl
  translated := h.translated
  unreserved := by
    intro e he
    rw [entries_append] at he
    rcases List.mem_append.mp he with he | he
    · exact h.unreserved e he
    · rw [List.mem_singleton.mp he]
      exact hname
  agree := by
    intro hpolicy e he e' he' heq
    have hnew : ∀ x ∈ c.entries, x.name = name → x.value = value := by
      intro x hx hxn
      rw [h.value_eq hpolicy hx (hxn ▸ hfind), hagree hpolicy]
    rw [entries_append] at he he'
    rcases List.mem_append.mp he with he | he <;> rcases List.mem_append.mp he' with he' | he'
    · exact h.agree hpolicy e he e' he' heq
    · rw [List.mem_singleton.mp he'] at heq ⊢
      exact hnew e he heq
    · rw [List.mem_singleton.mp he] at heq ⊢
      exact (hnew e' he' heq.symm).symm
    · rw [List.mem_singleton.mp he, List.mem_singleton.mp he']

/-- **An entry with the binding of a new name.** -/
theorem Represents.bind (h : c.Represents) {r : Record} {value : SchemaObject}
    (hname : r.shortName ≠ responseName) (hdef : r.definition = .ok value)
    (hfree : c.arena.find? r.shortName = none) :
    ((c.bind r.shortName ⟨r, value⟩).append r.shortName value).Represents := by
  -- a name that is not bound has no entry
  have hnone : ∀ e ∈ c.entries, e.name ≠ r.shortName := by
    intro e he hn
    exact OrderedMap.find?_eq_none_iff.mp hfree ((h.mem_keys_iff _).mpr ⟨e, he, hn⟩)
  have hfind : ∀ n, (c.bind r.shortName ⟨r, value⟩).arena.find? n
      = if r.shortName = n then some ⟨r, value⟩ else c.arena.find? n := by
    intro n
    exact OrderedMap.find?_insert c.arena r.shortName ⟨r, value⟩ n
  constructor
  · intro n
    rw [entries_append, entries_bind]
    show n ∈ (c.arena.insert r.shortName ⟨r, value⟩).keys ↔ _
    rw [← OrderedMap.find?_isSome_iff, OrderedMap.find?_insert]
    by_cases hn : r.shortName = n
    · simp [hn]
    · rw [if_neg hn, OrderedMap.find?_isSome_iff, h.mem_keys_iff]
      simp [hn, or_and_right, exists_or]
  · intro n t ht
    rw [entries_append, entries_bind, List.find?_append]
    rw [show ((c.bind r.shortName ⟨r, value⟩).append r.shortName value).arena.find? n = _ from
      hfind n] at ht
    by_cases hn : r.shortName = n
    · rw [if_pos hn] at ht
      injection ht with ht
      have hmiss : c.entries.find? (fun e => e.name = n) = none := by
        rw [List.find?_eq_none]
        intro e he
        simpa [← hn] using hnone e he
      rw [hmiss, ← ht]
      simp [hn]
    · rw [if_neg hn] at ht
      rw [h.first n t ht]
      rfl
  · intro n t ht
    rw [show ((c.bind r.shortName ⟨r, value⟩).append r.shortName value).arena.find? n = _ from
      hfind n] at ht
    by_cases hn : r.shortName = n
    · rw [if_pos hn] at ht
      injection ht with ht
      rw [← ht]
      exact ⟨hn, hdef⟩
    · rw [if_neg hn] at ht
      exact h.translated n t ht
  · intro e he
    rw [entries_append, entries_bind] at he
    rcases List.mem_append.mp he with he | he
    · exact h.unreserved e he
    · rw [List.mem_singleton.mp he]
      exact hname
  · intro hpolicy e he e' he' heq
    rw [entries_append, entries_bind] at he he'
    rcases List.mem_append.mp he with he | he <;> rcases List.mem_append.mp he' with he' | he'
    · exact h.agree hpolicy e he e' he' heq
    · rw [List.mem_singleton.mp he'] at heq
      exact absurd heq (hnone e he)
    · rw [List.mem_singleton.mp he] at heq
      exact absurd heq.symm (hnone e' he')
    · rw [List.mem_singleton.mp he, List.mem_singleton.mp he']

/-- A known record is the very object of its binding, and its value is that of the binding. -/
theorem exists_of_known {r : Record} {value : SchemaObject} (hk : c.known? r = some value) :
    ∃ t, c.arena.find? r.shortName = some t ∧ t.record.isSameObject r = true
      ∧ t.value = value := by
  unfold known? at hk
  split at hk
  next t hfind =>
    by_cases hsame : t.record.isSameObject r = true
    · rw [if_pos hsame] at hk
      injection hk with hk
      exact ⟨t, hfind, hsame, hk⟩
    · rw [if_neg hsame] at hk
      exact absurd hk (by simp)
  next => exact absurd hk (by simp)

/-- **Every visit keeps the entries and the arena in agreement.** -/
theorem Represents.collectRecord (h : c.Represents) (r : Record) :
    (c.collectRecord r).1.Represents := by
  have hpush : (c.push r.references).Represents := h.withPending _
  have hvisit := visit_collectRecord c r
  generalize c.collectRecord r = outcome at hvisit ⊢
  cases hvisit with
  | reserved => exact h
  | known hname hk =>
    obtain ⟨t, hfind, -, hvalue⟩ := exists_of_known hk
    exact h.append hname hfind fun _ => hvalue.symm
  | untranslated => exact hpush
  | bound hname _ hdef hfree => exact hpush.bind hname hdef hfree
  | @admitted value existing hname _ hdef hfind hagree =>
    refine hpush.append hname hfind fun hpolicy => ?_
    have hsame : existing.value.same value = true := by
      rcases hagree with hsame | hover
      · exact hsame
      · exact absurd (hpolicy.symm.trans hover) (by decide)
    -- both are definitions, and these are the same only if they are equal
    have hexisting := (h.translated _ existing hfind).2
    exact ((same_iff_eq_of_definition hexisting hdef).mp hsame).symm
  | collided => exact hpush

/-- **Every call keeps them in agreement**, whether or not it fails. -/
theorem Represents.collectRoute (h : c.Represents) (root : Record) :
    (c.collectRoute root).1.Represents := by
  have hall := @collectRoute_induction c Represents (fun _ => True)
    (fun _ rest h => h.withPending rest)
    (fun _ r h => ⟨h.collectRecord r, fun _ _ => trivial⟩) root h
  exact hall.1

/-! ## §4. Nothing is taken back. -/

/-- **One collector has all that another one has**: its entries come first, and its bindings
are kept. -/
structure Extends (before after : Collector) : Prop where
  policy_eq : after.policy = before.policy
  entries : before.entries <+: after.entries
  bindings : ∀ name t, before.arena.find? name = some t → after.arena.find? name = some t

theorem Extends.refl (c : Collector) : Extends c c :=
  ⟨rfl, List.prefix_rfl, fun _ _ h => h⟩

theorem Extends.trans {before mid after : Collector} (h : Extends before mid)
    (h' : Extends mid after) : Extends before after :=
  ⟨h'.policy_eq.trans h.policy_eq, h.entries.trans h'.entries,
    fun name t ht => h'.bindings name t (h.bindings name t ht)⟩

theorem extends_append (c : Collector) (name : String) (value : SchemaObject) :
    Extends c (c.append name value) where
  policy_eq := rfl
  entries := by
    rw [entries_append]
    exact List.prefix_append _ _
  bindings := fun _ _ h => h

/-- Binding a free name replaces nothing. -/
theorem extends_bind {name : String} (hfree : c.arena.find? name = none) (t : Translated) :
    Extends c (c.bind name t) where
  policy_eq := rfl
  entries := List.prefix_rfl
  bindings := by
    intro n t' ht
    show (c.arena.insert name t).find? n = some t'
    rw [OrderedMap.find?_insert]
    by_cases hn : name = n
    · rw [← hn, hfree] at ht
      exact absurd ht (by simp)
    · rw [if_neg hn]
      exact ht

/-- **Every visit only adds.** -/
theorem extends_collectRecord (c : Collector) (r : Record) : Extends c (c.collectRecord r).1 := by
  have hpush : Extends c (c.push r.references) := ⟨rfl, List.prefix_rfl, fun _ _ h => h⟩
  have hvisit := visit_collectRecord c r
  generalize c.collectRecord r = outcome at hvisit ⊢
  cases hvisit with
  | reserved => exact .refl c
  | known => exact extends_append c _ _
  | untranslated => exact hpush
  | @bound value _ _ _ hfree =>
    have hfree : (c.push r.references).arena.find? r.shortName = none := hfree
    exact (hpush.trans (extends_bind hfree ⟨r, value⟩)).trans (extends_append _ _ _)
  | admitted => exact hpush.trans (extends_append _ _ _)
  | collided => exact hpush

/-- **Every call only adds**, whether or not it fails. -/
theorem extends_collectRoute (c : Collector) (root : Record) :
    Extends c (c.collectRoute root).1 := by
  have hall := @collectRoute_induction c (Extends c) (fun _ => True)
    (fun _ _ h => ⟨h.policy_eq, h.entries, h.bindings⟩)
    (fun after r h => ⟨h.trans (extends_collectRecord after r), fun _ _ => trivial⟩) root (.refl c)
  exact hall.1

/-! ## §5. Any calls. -/

/-- The collector behind a sequence of calls; the next call goes on from the state of a call that
failed. -/
def afterCalls (policy : CollisionPolicy) (roots : List Record) : Collector :=
  roots.foldl (fun c root => (c.collectRoute root).1) (empty policy)

/-- What holds at the start and is kept by every call holds after any calls. -/
theorem afterCalls_induction {policy : CollisionPolicy} {P : Collector → Prop}
    (hempty : P (empty policy)) (hcall : ∀ c root, P c → P (c.collectRoute root).1)
    (roots : List Record) : P (afterCalls policy roots) := by
  unfold afterCalls
  generalize empty policy = c at hempty ⊢
  induction roots generalizing c with
  | nil => exact hempty
  | cons root rest ih => exact ih _ (hcall c root hempty)

/-- Calls leave the policy alone. -/
theorem policy_afterCalls (policy : CollisionPolicy) (roots : List Record) :
    (afterCalls policy roots).policy = policy :=
  afterCalls_induction (P := fun c => c.policy = policy) rfl
    (fun c root h => (extends_collectRoute c root).policy_eq.trans h) roots

/-- Entries and arena agree after any calls. -/
theorem represents_afterCalls (policy : CollisionPolicy) (roots : List Record) :
    (afterCalls policy roots).Represents :=
  afterCalls_induction (represents_empty policy) (fun _ root h => h.collectRoute root) roots

/-- **After any calls the entries and the arena agree**, and a further call takes back none of
them, even if it fails. -/
theorem afterCalls_represents (policy : CollisionPolicy) (roots : List Record) :
    (afterCalls policy roots).policy = policy ∧ (afterCalls policy roots).Represents
      ∧ ∀ root, Extends (afterCalls policy roots) ((afterCalls policy roots).collectRoute root).1 :=
  ⟨policy_afterCalls policy roots, represents_afterCalls policy roots,
    fun root => extends_collectRoute _ root⟩

end Collector

/-! ## §6. All routes. -/

/-- Routes are collected when the first one is bound to a record whose call does not fail and the
others are collected behind it. -/
theorem collectRoutes_cons_eq_ok_iff {c after : Collector} {route : String} {schema : Schema}
    {rest : List (String × Schema)} :
    collectRoutes c ((route, schema) :: rest) = .ok after ↔
      ∃ root mid, schema = .record root ∧ c.collectRoute root = (mid, none)
        ∧ collectRoutes mid rest = .ok after := by
  cases schema with
  | record root =>
    have hroot : routeRecord route (.record root) = .ok root := rfl
    cases hc : c.collectRoute root with
    | mk mid failure => cases failure <;> simp [collectRoutes, hroot, hc, bind, Except.bind]
  | _ => simp [collectRoutes, routeRecord, Schema.record?, bind, Except.bind]

/-- Routes that fail fail at the first one, because it is not bound to a record or in its call, or
behind it. -/
theorem collectRoutes_cons_eq_error_iff {c : Collector} {route : String} {schema : Schema}
    {rest : List (String × Schema)} {e : GenerationError} :
    collectRoutes c ((route, schema) :: rest) = .error e ↔
      routeRecord route schema = .error e
        ∨ ∃ root mid, schema = .record root ∧ ((c.collectRoute root = (mid, some e))
          ∨ (c.collectRoute root = (mid, none) ∧ collectRoutes mid rest = .error e)) := by
  cases schema with
  | record root =>
    have hroot : routeRecord route (.record root) = .ok root := rfl
    cases hc : c.collectRoute root with
    | mk mid failure => cases failure <;> simp [collectRoutes, hroot, hc, bind, Except.bind]
  | _ => simp [collectRoutes, routeRecord, Schema.record?, bind, Except.bind]

/-- Definitions are those of the entries of a collector that met no failure. -/
theorem generateDefinitions_eq_ok_iff {routes : RouteMap} {policy : CollisionPolicy}
    {defs : Definitions} :
    generateDefinitions routes policy = .ok defs ↔
      ∃ c, collectRoutes (Collector.empty policy) routes = .ok c ∧ defs = definitionsOf c.entries := by
  unfold generateDefinitions
  cases hc : collectRoutes (Collector.empty policy) routes with
  | error e => simp [bind, Except.bind]
  | ok c =>
    show c.finish = .ok defs ↔ _
    rw [c.finish_eq]
    simp only [Except.ok.injEq, exists_eq_left']
    exact eq_comm

/-- The generation of definitions fails as their collection does. -/
theorem generateDefinitions_eq_error_iff {routes : RouteMap} {policy : CollisionPolicy}
    {e : GenerationError} :
    generateDefinitions routes policy = .error e ↔
      collectRoutes (Collector.empty policy) routes = .error e := by
  unfold generateDefinitions
  cases hc : collectRoutes (Collector.empty policy) routes with
  | error e' => simp [bind, Except.bind]
  | ok c =>
    show c.finish = .error e ↔ _
    rw [c.finish_eq]
    simp

/-- The entries and the arena agree after routes that do not fail. -/
theorem Collector.Represents.collectRoutes {c after : Collector} {routes : List (String × Schema)}
    (h : c.Represents) (hc : AvroSwagger.collectRoutes c routes = .ok after) :
    after.Represents := by
  induction routes generalizing c with
  | nil =>
    injection hc with hc
    exact hc ▸ h
  | cons kv rest ih =>
    obtain ⟨root, mid, -, hroute, hrest⟩ := collectRoutes_cons_eq_ok_iff.mp hc
    have hmid := h.collectRoute root
    rw [hroute] at hmid
    exact ih hmid hrest

end AvroSwagger
