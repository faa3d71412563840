import AvroSwagger.Proofs.Representation
import Mathlib.Data.List.Dedup

/-!
# AvroSwagger.Proofs.Finishing

**Which names a collection ends with, in which order, and with which values.**

Finishing reads the entries backwards and writes each of them into a map that keeps
the first place of a name and its last value.  Read backwards, the first place of a
name is its latest entry and the last value that of its earliest one.  So place and
value of a name come from opposite ends of the entries, and where differences are
overwritten they can be those of two entries that differ.

Main statements:
  * `keys_definitionsOf`: the names, each at its latest entry;
  * `afterCalls_finish`: what finishing gives after any calls.
-/

namespace AvroSwagger

/-! ## §1. Names read backwards. -/

/-- Read backwards, the first places of names are their last ones. -/
theorem eraseDups_reverse {α : Type} [DecidableEq α] (names : List α) :
    names.reverse.eraseDups = names.dedup.reverse := by
  induction names with
  | nil => rfl
  | cons name rest ih =>
    rw [List.reverse_cons, List.eraseDups_append, ih, List.dedup_cons]
    by_cases h : name ∈ rest
    · simp [List.removeAll, h]
    · simp [List.removeAll, h, List.eraseDups_cons]

/-- **The names of the definitions**: the answering record's, then those of the entries by their
latest entry, the latest one first. -/
theorem keys_definitionsOf {entries : List Entry}
    (hname : ∀ e ∈ entries, e.name ≠ responseName) :
    (definitionsOf entries).keys = responseName :: (entries.map Entry.name).dedup.reverse := by
  have hnames : ((responseName, responseDefinition)
        :: entries.reverse.map fun e => (e.name, e.value)).map Prod.fst
      = responseName :: (entries.map Entry.name).reverse := by
    rw [List.map_cons, List.map_map, ← List.map_reverse]
    rfl
  -- no entry has the reserved name, so none is taken out for it
  have hkept : (entries.map Entry.name).reverse.filter (fun name => !name == responseName)
      = (entries.map Entry.name).reverse := by
    refine List.filter_eq_self.mpr fun name hin => ?_
    obtain ⟨e, he, rfl⟩ := List.mem_map.mp (List.mem_reverse.mp hin)
    simpa using hname e he
  rw [definitionsOf, OrderedMap.keys_ofList, hnames, List.eraseDups_cons, hkept,
    eraseDups_reverse]

/-! ## §2. After any calls. -/

namespace Collector

/-- **Finishing after any calls**, failed ones and records left on the stack included.  It succeeds;
the names are the answering record's and then those of the entries by their last entry, latest
first; the answering record has its own definition and every other name the value of its first
entry. -/
theorem afterCalls_finish (policy : CollisionPolicy) (roots : List Record) :
    ∃ defs value, (afterCalls policy roots).finish = .ok defs
      ∧ responseRecord.definition = .ok value
      ∧ defs.keys
        = responseName :: ((afterCalls policy roots).entries.map Entry.name).dedup.reverse
      ∧ ∀ name, defs.find? name
        = if name = responseName then some value
          else ((afterCalls policy roots).entries.find? fun e => e.name = name).map
            Entry.value := by
  have hrep := represents_afterCalls policy roots
  exact ⟨definitionsOf (afterCalls policy roots).entries, responseDefinition, finish_eq _,
    definition_responseRecord, keys_definitionsOf hrep.unreserved,
    find?_definitionsOf_eq hrep.unreserved⟩

end Collector

end AvroSwagger
