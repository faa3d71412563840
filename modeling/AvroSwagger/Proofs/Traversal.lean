import AvroSwagger.Proofs.Representation

/-!
# AvroSwagger.Proofs.Traversal

**The work stack does a depth-first traversal.**

Without the stack, collecting is a recursion over schemas: a record is checked
and gets its entry, and then the types of its fields are traversed, the last
field first.  The traversal has the entries and the arena, but knows nothing of
records that are still to be visited.

A collector that takes up records left by a failed call traverses them behind the
new route's record, from the top of the stack to its bottom.

Main statements:
  * `traverseFields_eq_forM`: fields are traversed as the references of their
    record, backwards;
  * `Gathers.collectRecord`: a visit does what the traversal does at a record, and
    leaves on the stack what the traversal finds below it;
  * `collectRoute_traverse`: a call does what the traversal does.
-/

namespace AvroSwagger

open Swagger

/-! ## §1. The traversal. -/

/-- What a traversal has gathered. -/
structure Gathered where
  /-- The entries, in the order in which they were appended. -/
  entries : List Entry
  /-- The first translation under each short name. -/
  arena : OrderedMap Translated

namespace Gathered

/-- The arena's translation of a record, if the record is the very object that the arena holds
for its short name. -/
def own? (g : Gathered) (r : Record) : Option Translated :=
  (g.arena.find? r.shortName).filter fun t => t.record.isSameObject r

/-- The collision check: another record may have the short name if it has the same definition, or
where differences are overwritten. -/
def checkCollision (g : Gathered) (policy : CollisionPolicy) (r : Record) (value : SchemaObject) :
    Except GenerationError SchemaObject :=
  match g.arena.find? r.shortName with
  | none => .ok value
  | some t =>
    if t.value.same value ∨ policy = .overwrite then .ok value
    else .error (.definitionCollision r.shortName t.record.fullName r.fullName)

/-- **The value of a record's entry**, if the record passes all checks. -/
def valueOf (g : Gathered) (policy : CollisionPolicy) (r : Record) :
    Except GenerationError SchemaObject :=
  if r.shortName = responseName then .error (.reservedName responseName)
  else
    match g.own? r with
    | some t => .ok t.value
    | none => do
      let value ← r.definition
      g.checkCollision policy r value

/-- Appends the entry of a record, and binds its short name if that is free. -/
def add (g : Gathered) (r : Record) (value : SchemaObject) : Gathered where
  entries := g.entries ++ [⟨r.shortName, value⟩]
  arena :=
    if (g.arena.find? r.shortName).isSome then g.arena
    else g.arena.insert r.shortName ⟨r, value⟩

end Gathered

/-- A traversal of a part of a schema; the first failure ends it. -/
abbrev Traversal : Type := EStateM GenerationError Gathered Unit

mutual

/-- Traverses the record inside the arrays of a type, if there is one. -/
def traverseType (policy : CollisionPolicy) : Schema → Traversal
  | .array items => traverseType policy items
  | .record r => traverseRecord policy r
  | _ => pure ()

/-- **Traverses a record**: checks it and appends its entry, then traverses its fields, unless
it is the object that the arena already held. -/
def traverseRecord (policy : CollisionPolicy) : RecordOf Schema → Traversal
  | ⟨id, fullName, doc, fields⟩ => do
    let g ← get
    match g.valueOf policy ⟨id, fullName, doc, fields⟩ with
    | .error e => throw e
    | .ok value =>
      set (g.add ⟨id, fullName, doc, fields⟩ value)
      if (g.own? ⟨id, fullName, doc, fields⟩).isSome then pure ()
      else traverseFields policy fields

/-- Traverses the types of fields, the last field first. -/
def traverseFields (policy : CollisionPolicy) : List (Field Schema) → Traversal
  | [] => pure ()
  | ⟨_, _, type⟩ :: rest => do
    traverseFields policy rest
    traverseType policy type

end

variable {policy : CollisionPolicy} {g : Gathered} {r : Record} {value : SchemaObject}

/-! ## §2. Fields and references. -/

/-- A type is traversed as the record that its fragment refers to. -/
theorem traverseType_eq_forM (policy : CollisionPolicy) (s : Schema) :
    traverseType policy s = forM s.referenced.reverse (traverseRecord policy) := by
  fun_induction Schema.referenced s with
  | case1 items ih => rw [traverseType, ih]
  | case2 r => simp [traverseType]
  | case3 s harray hrecord =>
    cases s with
    | array items => exact absurd rfl (harray items)
    | record r => exact absurd rfl (hrecord r)
    | _ => rfl

/-- **Fields are traversed as the references of their record, backwards.** -/
theorem traverseFields_eq_forM (hdef : r.definition = .ok value) :
    traverseFields policy r.fields = forM r.references.reverse (traverseRecord policy) := by
  have hof : ∀ fields : List (Field Schema), (∀ f ∈ fields, f.type.core.isMappable = true) →
      traverseFields policy fields
        = forM (RecordOf.referencesOf fields).reverse (traverseRecord policy) := by
    intro fields hall
    induction fields with
    | nil => rfl
    | cons f rest ih =>
      obtain ⟨name, doc, type⟩ := f
      obtain ⟨v, hv⟩ := (Schema.fragment_isOk_iff type).mpr (hall _ List.mem_cons_self)
      rw [traverseFields, ih fun f hf => hall f (List.mem_cons_of_mem _ hf),
        traverseType_eq_forM]
      simp only [RecordOf.referencesOf, hv, List.reverse_append, List.forM_append]
  exact hof r.fields (r.definition_isOk_iff.mp ⟨value, hdef⟩)

/-! ## §3. One record. -/

namespace Gathered

/-- A record with a value has a definition, unless it is the arena's own object. -/
theorem definition_of_valueOf (h : g.valueOf policy r = .ok value) (hnew : g.own? r = none) :
    ∃ v, r.definition = .ok v := by
  unfold valueOf at h
  split at h
  next => exact absurd h (by simp)
  next =>
    rw [hnew] at h
    cases hdef : r.definition with
    | ok v => exact ⟨v, rfl⟩
    | error e =>
      simp only [hdef] at h
      exact absurd h (by simp [bind, Except.bind])

/-- The records that a traversal finds below a record. -/
def below (g : Gathered) (r : Record) : List Record :=
  if (g.own? r).isSome then [] else r.references.reverse

end Gathered

/-- What traversing a record does to what was gathered. -/
theorem run_traverseRecord (policy : CollisionPolicy) (g : Gathered) (r : Record) :
    (traverseRecord policy r).run g =
      match g.valueOf policy r with
      | .error e => .error e g
      | .ok value =>
        (if (g.own? r).isSome then pure () else traverseFields policy r.fields).run
          (g.add r value) := by
  obtain ⟨id, fullName, doc, fields⟩ := r
  rw [traverseRecord, EStateM.run_bind, EStateM.run_get]
  cases hvalue : g.valueOf policy ⟨id, fullName, doc, fields⟩ with
  | error e =>
    simp only [hvalue]
    rw [EStateM.run_throw]
  | ok value =>
    simp only [hvalue]
    rw [EStateM.run_bind, EStateM.run_set]

/-- **A record that passes the checks is followed by what is found below it.** -/
theorem run_traverseRecord_of_ok (h : g.valueOf policy r = .ok value) :
    (traverseRecord policy r).run g
      = (forM (g.below r) (traverseRecord policy)).run (g.add r value) := by
  rw [run_traverseRecord, h, Gathered.below]
  cases hown : g.own? r with
  | some t => rfl
  | none =>
    obtain ⟨v, hdef⟩ := Gathered.definition_of_valueOf h hown
    show (traverseFields policy r.fields).run _ = EStateM.run (forM r.references.reverse _) _
    rw [traverseFields_eq_forM hdef]

/-- One record, and what waits behind it. -/
theorem run_forM_cons (policy : CollisionPolicy) (g : Gathered) (r : Record)
    (rest : List Record) :
    (forM (r :: rest) (traverseRecord policy)).run g =
      match g.valueOf policy r with
      | .error e => .error e g
      | .ok value => (forM (g.below r ++ rest) (traverseRecord policy)).run (g.add r value) := by
  rw [List.forM_cons, EStateM.run_bind]
  cases h : g.valueOf policy r with
  | error e => rw [run_traverseRecord, h]
  | ok value =>
    simp only [List.forM_append]
    rw [run_traverseRecord_of_ok h, EStateM.run_bind]

/-! ## §4. The work stack. -/

namespace Collector

/-- **A collector has gathered what a traversal has**, behind the entries `base`. -/
structure Gathers (c : Collector) (base : List Entry) (g : Gathered) : Prop where
  entries_eq : c.entries = base ++ g.entries
  arena_eq : c.arena = g.arena

variable {c : Collector} {base : List Entry}

/-- A collector knows the arena's own objects. -/
theorem Gathers.known?_eq (h : c.Gathers base g) (r : Record) :
    c.known? r = (g.own? r).map Translated.value := by
  rw [Gathered.own?, known?, h.arena_eq]
  cases g.arena.find? r.shortName with
  | none => rfl
  | some t =>
    rw [Option.filter_some]
    show (if t.record.isSameObject r then some t.value else none) = _
    split
    next => rfl
    next => rfl

/-- An entry under a bound name. -/
theorem Gathers.append (h : c.Gathers base g) (hbound : (g.arena.find? r.shortName).isSome) :
    (c.append r.shortName value).Gathers base (g.add r value) where
  entries_eq := by
    rw [entries_append, h.entries_eq, List.append_assoc]
    rfl
  arena_eq := by
    rw [Gathered.add, if_pos hbound]
    exact h.arena_eq

/-- An entry with the binding of a new name. -/
theorem Gathers.bind (h : c.Gathers base g) (hfree : g.arena.find? r.shortName = none) :
    ((c.bind r.shortName ⟨r, value⟩).append r.shortName value).Gathers base
      (g.add r value) where
  entries_eq := by
    rw [entries_append, entries_bind, h.entries_eq, List.append_assoc]
    rfl
  arena_eq := by
    rw [Gathered.add, if_neg (by simp [hfree])]
    show c.arena.insert _ _ = _
    rw [h.arena_eq]

/-- The value of a record that the collector does not know. -/
theorem Gathers.valueOf_eq (h : c.Gathers base g) (hname : r.shortName ≠ responseName)
    (hk : c.known? r = none) :
    g.valueOf policy r = r.definition.bind (g.checkCollision policy r) := by
  rw [h.known?_eq, Option.map_eq_none_iff] at hk
  rw [Gathered.valueOf, if_neg hname, hk]
  rfl

/-- **A visit does what the traversal does at a record**, and leaves on the stack what the
traversal finds below it. -/
theorem Gathers.collectRecord (h : c.Gathers base g) (r : Record) :
    match g.valueOf c.policy r with
    | .error e => ∃ after, c.collectRecord r = (after, some e) ∧ after.Gathers base g
    | .ok value => ∃ after, c.collectRecord r = (after, none)
        ∧ after.Gathers base (g.add r value) ∧ after.policy = c.policy
        ∧ after.pending = g.below r ++ c.pending := by
  have hpushed : (c.push r.references).Gathers base g := ⟨h.entries_eq, h.arena_eq⟩
  have hbelow : c.known? r = none → g.below r = r.references.reverse := by
    intro hk
    rw [h.known?_eq, Option.map_eq_none_iff] at hk
    rw [Gathered.below, hk]
    rfl
  have hvisit := visit_collectRecord c r
  generalize c.collectRecord r = outcome at hvisit ⊢
  cases hvisit with
  | reserved hname =>
    rw [Gathered.valueOf, if_pos hname]
    exact ⟨c, rfl, h⟩
  | known hname hk =>
    rw [h.known?_eq, Option.map_eq_some_iff] at hk
    obtain ⟨t, hown, rfl⟩ := hk
    have hbound : (g.arena.find? r.shortName).isSome := by
      rw [Gathered.own?, Option.filter_eq_some_iff] at hown
      rw [hown.1]
      rfl
    simp only [Gathered.valueOf, if_neg hname, hown]
    refine ⟨_, rfl, h.append hbound, rfl, ?_⟩
    rw [Gathered.below, hown]
    rfl
  | untranslated hname hk hdef =>
    rw [h.valueOf_eq hname hk, hdef]
    exact ⟨_, rfl, hpushed⟩
  | bound hname hk hdef hfree =>
    rw [h.arena_eq] at hfree
    rw [h.valueOf_eq hname hk, hdef, hbelow hk]
    simp only [Except.bind, Gathered.checkCollision, hfree]
    exact ⟨_, rfl, hpushed.bind hfree, rfl, rfl⟩
  | admitted hname hk hdef hfind hagree =>
    rw [h.arena_eq] at hfind
    rw [h.valueOf_eq hname hk, hdef, hbelow hk]
    simp only [Except.bind, Gathered.checkCollision, hfind, if_pos hagree]
    exact ⟨_, rfl, hpushed.append (by rw [hfind]; rfl), rfl, rfl⟩
  | collided hname hk hdef hfind hdiffer hreject =>
    rw [h.arena_eq] at hfind
    rw [h.valueOf_eq hname hk, hdef]
    simp only [Except.bind, Gathered.checkCollision, hfind, hdiffer, hreject]
    exact ⟨_, rfl, hpushed⟩

/-- **Draining the stack does what the traversal does** at the records on it, from the top to the
bottom. -/
theorem Gathers.drain (h : c.Gathers base g) :
    match (forM c.pending (traverseRecord c.policy)).run g with
    | .error e gathered => ∃ after, c.drain = (after, some e) ∧ after.Gathers base gathered
    | .ok _ gathered => ∃ after, c.drain = (after, none) ∧ after.Gathers base gathered
        ∧ after.pending = [] := by
  induction c using stack_induction generalizing g with
  | empty c hp =>
    rw [hp]
    exact ⟨c, drain_of_nil hp, h, hp⟩
  | visit c r rest hp ih =>
    have hstart : Gathers { c with pending := rest } base g := ⟨h.entries_eq, h.arena_eq⟩
    have hvisit : match g.valueOf c.policy r with | .error e => _ | .ok value => _ :=
      hstart.collectRecord r
    rw [hp, run_forM_cons, drain_of_cons hp]
    cases hvalue : g.valueOf c.policy r with
    | error e =>
      rw [hvalue] at hvisit
      obtain ⟨after, hc, hafter⟩ := hvisit
      rw [hc]
      exact ⟨after, rfl, hafter⟩
    | ok value =>
      rw [hvalue] at hvisit
      obtain ⟨after, hc, hafter, hpolicy, hpending⟩ := hvisit
      rw [hc] at ih ⊢
      have hrec := ih hafter
      rw [hpolicy, hpending] at hrec
      exact hrec

/-- **A call does what the traversal does** at the route's record and then at the records left on
the stack: it appends the same entries, comes to the same arena and fails with the same cause.  A
call that does not fail leaves no record on the stack. -/
theorem collectRoute_traverse (c : Collector) (root : Record) :
    match (do
        traverseRecord c.policy root
        forM c.pending (traverseRecord c.policy) : Traversal).run ⟨[], c.arena⟩ with
    | .ok _ g => ∃ after, c.collectRoute root = (after, none)
        ∧ after.entries = c.entries ++ g.entries ∧ after.arena = g.arena ∧ after.pending = []
    | .error e g => ∃ after, c.collectRoute root = (after, some e)
        ∧ after.entries = c.entries ++ g.entries ∧ after.arena = g.arena := by
  have hstart : Gathers { c with pending := root :: c.pending } c.entries ⟨[], c.arena⟩ :=
    ⟨(List.append_nil _).symm, rfl⟩
  have hdrain : match (forM (root :: c.pending) (traverseRecord c.policy)).run ⟨[], c.arena⟩ with
      | .error e g => _
      | .ok _ g => _ := hstart.drain
  rw [List.forM_cons] at hdrain
  rw [collectRoute_eq_drain]
  split
  next g heq =>
    rw [heq] at hdrain
    obtain ⟨after, hcall, hafter, hpending⟩ := hdrain
    exact ⟨after, hcall, hafter.entries_eq, hafter.arena_eq, hpending⟩
  next e g heq =>
    rw [heq] at hdrain
    obtain ⟨after, hcall, hafter⟩ := hdrain
    exact ⟨after, hcall, hafter.entries_eq, hafter.arena_eq⟩

end Collector

end AvroSwagger
