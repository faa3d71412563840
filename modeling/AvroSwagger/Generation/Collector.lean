import AvroSwagger.Generation.Fragment
import AvroSwagger.Swagger.Document

/-!
# AvroSwagger.Generation.Collector

**The definitions of every record that is reachable from a route.**

A collector walks from a route's record to the records its fields refer to.
Records still to be visited wait on a stack; every visit appends an entry, also
for a record that was translated before, so that the latest entry of a shared
record comes after the entries of all that refer to it.  Reading the entries
backwards is meant to list a record's dependencies no later than the record
itself; where that fails is told in `Proofs.DependencyOrder`.

The `arena` holds the first translation under each short name.  A record that is
the very object of the arena is not translated again and its fields are not
followed again; a different record with an equal translation is accepted; one
with another translation is refused or kept in the shadow of the first,
depending on the policy.

Main statement: `load_collectRecord_lt`, a visit takes more off the stack than
it puts on it, so draining the stack ends.
-/

namespace AvroSwagger

open Swagger

/-- What to do with different definitions under one short name. -/
inductive CollisionPolicy where
  /-- Fail. -/
  | reject
  /-- Keep the first definition and drop the others. -/
  | overwrite
  deriving DecidableEq

instance : Inhabited CollisionPolicy := ⟨.reject⟩

/-- A definition under its name. -/
structure Entry where
  name : String
  value : SchemaObject

/-- A record and its translation. -/
structure Translated where
  record : Record
  value : SchemaObject

/-- **The state of a collection.** -/
structure Collector where
  policy : CollisionPolicy
  /-- The entries, latest first. -/
  found : List Entry
  /-- The records to visit, next one first. -/
  pending : List Record
  /-- The first translation under each short name. -/
  arena : OrderedMap Translated

/-! ## §1. The record that answers. -/

/-- The short name of the record that every operation answers with. -/
def responseName : String := "Response"

/-- The record that every operation answers with: an identifier. -/
def responseRecord : Record :=
  ⟨0, responseName, some responseName, [⟨"id", none, .string⟩]⟩

namespace Collector

/-- A collector that has seen nothing. -/
def empty (policy : CollisionPolicy) : Collector := ⟨policy, [], [], []⟩

/-- The entries in the order in which they were appended. -/
def entries (c : Collector) : List Entry := c.found.reverse

/-! ## §2. One record. -/

/-- Appends an entry. -/
def append (c : Collector) (name : String) (value : SchemaObject) : Collector :=
  { c with found := ⟨name, value⟩ :: c.found }

/-- Puts records on the stack; the last of them is the next to be visited. -/
def push (c : Collector) (records : List Record) : Collector :=
  { c with pending := records.reverse ++ c.pending }

/-- Binds a name in the arena. -/
def bind (c : Collector) (name : String) (translated : Translated) : Collector :=
  { c with arena := c.arena.insert name translated }

/-- The translation of a record that is the arena's own object under its name. -/
def known? (c : Collector) (r : Record) : Option SchemaObject :=
  match c.arena.find? r.shortName with
  | some existing => if existing.record.isSameObject r then some existing.value else none
  | none => none

/-- **Visits a record**; a failed visit keeps what it had put on the stack. -/
def collectRecord (c : Collector) (r : Record) : Collector × Option GenerationError :=
  let name := r.shortName
  if name = responseName then (c, some (.reservedName responseName))
  else
    match c.known? r with
    -- the arena's own object: its references were pushed when it was bound
    | some value => (c.append name value, none)
    | none =>
      -- the references stay on the stack even if the translation fails behind them
      let c := c.push r.references
      match r.definition with
      | .error e => (c, some e)
      | .ok value =>
        match c.arena.find? name with
        | none => ((c.bind name ⟨r, value⟩).append name value, none)
        -- the arena keeps its first binding; under `overwrite` the entry is shadowed by it
        | some existing =>
          if existing.value.same value || c.policy = .overwrite then (c.append name value, none)
          else (c, some (.definitionCollision name existing.record.fullName r.fullName))

/-! ## §3. Draining the stack. -/

/-- The number of record occurrences in the full trees of the records on the stack. -/
def load (c : Collector) : Nat := totalRecordCount c.pending

@[simp] theorem load_append (c : Collector) (name : String) (value : SchemaObject) :
    (c.append name value).load = c.load := rfl

@[simp] theorem load_bind (c : Collector) (name : String) (translated : Translated) :
    (c.bind name translated).load = c.load := rfl

theorem load_push (c : Collector) (records : List Record) :
    (c.push records).load = totalRecordCount records + c.load := by
  simp [load, push, totalRecordCount_append, totalRecordCount_reverse]

/-- **A visit adds less to the stack than the record weighs.** -/
theorem load_collectRecord_lt (c : Collector) (r : Record) :
    (c.collectRecord r).1.load < r.recordCount + c.load := by
  have h := recordCount_references_lt r
  simp only [collectRecord]
  split
  · simp only []; omega
  · split
    · simp only [load_append]; omega
    · split
      · simp only [load_push]; omega
      · split
        · simp only [load_append, load_bind, load_push]; omega
        · split
          · simp only [load_append, load_push]; omega
          · simp only [load_push]; omega

/-- Visits the records on the stack until none is left or one fails. -/
def drain (c : Collector) : Collector × Option GenerationError :=
  match _h : c.pending with
  | [] => (c, none)
  | r :: rest =>
    match _hc : collectRecord { c with pending := rest } r with
    | (after, none) => drain after
    | (after, some e) => (after, some e)
termination_by c.load
decreasing_by
  have hlt := load_collectRecord_lt { c with pending := rest } r
  rw [_hc] at hlt
  simpa [load, _h, totalRecordCount] using hlt

/-- **Visits a route's record, then the records on the stack.** -/
def collectRoute (c : Collector) (root : Record) : Collector × Option GenerationError :=
  match c.collectRecord root with
  | (after, none) => after.drain
  | (after, some e) => (after, some e)

/-- **The definitions**: the answering record first, then the names by their last entry,
latest first, each with the value of its first entry. -/
def finish (c : Collector) : Except GenerationError Definitions := do
  let response ← responseRecord.definition
  .ok (OrderedMap.ofList ((responseName, response) :: c.found.map fun e => (e.name, e.value)))

end Collector

/-! ## §4. All routes. -/

/-- Schemas by route name. -/
abbrev RouteMap : Type := OrderedMap Schema

/-- The record that a route is bound to. -/
def routeRecord (route : String) (schema : Schema) : Except GenerationError Record :=
  match schema.record? with
  | some r => .ok r
  | none => .error (.schema (.routeNotRecord route schema.typeName))

/-- Collects one route after the other; the first failure ends it. -/
def collectRoutes (c : Collector) : List (String × Schema) → Except GenerationError Collector
  | [] => .ok c
  | (route, schema) :: rest => do
    let root ← routeRecord route schema
    match c.collectRoute root with
    | (after, none) => collectRoutes after rest
    | (_, some e) => .error e

/-- **The definitions of all routes.** -/
def generateDefinitions (routes : RouteMap) (policy : CollisionPolicy) :
    Except GenerationError Definitions := do
  let c ← collectRoutes (Collector.empty policy) routes
  c.finish

end AvroSwagger
