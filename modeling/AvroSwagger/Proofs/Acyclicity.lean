import AvroSwagger.Proofs.DependencyOrder
import AvroSwagger.Proofs.ReadingRules
import Mathlib.Logic.Relation
import Mathlib.Order.WellFounded

/-!
# AvroSwagger.Proofs.Acyclicity

**Following the references of definitions comes to an end.**

A record refers to smaller records only, but a definition refers to a short name,
and records of several namespaces, of any size, may share it.  What keeps the
names in order is that collisions are rejected: the definition under a short name
is that of every reachable record of the name.  So a reference may be followed
from whichever record one came to, and the next record is smaller.

Main statements:
  * `acc_refersTo_of_reachable`: following references from the name of a record ends;
  * `generateDefinitions_acyclic`: no name refers to itself through other names, and
    following references from any name ends.
-/

namespace AvroSwagger

open Swagger

/-- **A name refers to a name of the definitions**: its definition holds a reference to it, at any
depth. -/
def RefersTo (defs : Definitions) (name other : String) : Prop :=
  other ∈ defs.keys ∧ ∃ v, defs.find? name = some v ∧ definitionRef other ∈ v.refs

variable {routes : RouteMap} {defs : Definitions}

/-! ## §1. Following references. -/

/-- **Following references from the name of a reachable record ends.** -/
theorem acc_refersTo_of_reachable (hid : LabelsFaithful routes) (hback : NoBackReferences routes)
    (h : generateDefinitions routes .reject = .ok defs) {r : Record} (hr : Reachable routes r) :
    Acc (fun other name => RefersTo defs name other) r.shortName := by
  have hcons : Consistent routes := consistent_of_generateDefinitions hid h
  induction hn : r.recordCount using Nat.strongRecOn generalizing r with
  | ind n ih =>
  refine Acc.intro _ fun other hrefers => ?_
  obtain ⟨-, v, hfind, href⟩ := hrefers
  -- the definition under the name is that of this very record, not of a larger one of the name
  obtain ⟨w, hdef, hown⟩ := find?_eq_some_of_reachable hid h hr
  rw [hfind] at hown
  injection hown with hown
  rw [← hown] at hdef
  obtain ⟨s, hs, heq⟩ := exists_reference_of_mem_refs hcons hback hr hdef href
  have hlt : s.recordCount < r.recordCount := RecordOf.recordCount_lt_of_mem_references hs
  rw [definitionRef_inj heq]
  exact ih s.recordCount (by omega) (hr.of_mem_references hs) rfl

/-- The answering record and a name without definition refer to nothing. -/
theorem not_refersTo (hid : LabelsFaithful routes)
    (h : generateDefinitions routes .reject = .ok defs) {name other : String}
    (hname : name = responseName ∨ name ∉ defs.keys) : ¬RefersTo defs name other := by
  rintro ⟨-, v, hfind, href⟩
  rcases hname with rfl | hnot
  · rw [find?_responseName hid h] at hfind
    injection hfind with hfind
    rw [← hfind, refs_responseDefinition] at href
    exact absurd href (by simp)
  · rw [OrderedMap.find?_eq_none_iff.mpr hnot] at hfind
    exact absurd hfind (by simp)

/-- **Following references from any name ends.** -/
theorem wellFounded_refersTo (hid : LabelsFaithful routes) (hback : NoBackReferences routes)
    (h : generateDefinitions routes .reject = .ok defs) :
    WellFounded fun other name => RefersTo defs name other := by
  refine ⟨fun name => ?_⟩
  by_cases hkey : name ∈ defs.keys
  · rcases (mem_keys_iff hid h name).mp hkey with hres | ⟨r, hr, rfl⟩
    · exact Acc.intro _ fun other hrefers => absurd hrefers (not_refersTo hid h (Or.inl hres))
    · exact acc_refersTo_of_reachable hid hback h hr
  · exact Acc.intro _ fun other hrefers => absurd hrefers (not_refersTo hid h (Or.inr hkey))

/-! ## §2. No cycles. -/

/-- **The references of definitions make no cycle** where no schema has a back-reference: no name
refers to itself, directly or through other names, and following references from any name
ends. -/
theorem generateDefinitions_acyclic (hid : LabelsFaithful routes) (hback : NoBackReferences routes)
    (h : generateDefinitions routes .reject = .ok defs) :
    (∀ name, ¬Relation.TransGen (RefersTo defs) name name)
      ∧ WellFounded fun other name => RefersTo defs name other := by
  have hwf := wellFounded_refersTo hid hback h
  refine ⟨fun name hcycle => ?_, hwf⟩
  have hflipped : Relation.TransGen (fun other name => RefersTo defs name other) name name :=
    Relation.transGen_swap.mp hcycle
  exact hwf.transGen.irrefl.irrefl name hflipped

/-- An author, in a namespace of the shop or of the library. -/
def authorRecord (label : Nat) (space : String) : Record :=
  ⟨label, space ++ ".Author", none, [⟨"name", none, .string⟩]⟩

/-- A book by an author. -/
def bookRecord (label authorLabel : Nat) (space : String) : Record :=
  ⟨label, space ++ ".Book", none, [⟨"author", none, .record (authorRecord authorLabel space)⟩]⟩

/-- A loan of several books. -/
def loanRecord : Record :=
  ⟨2, "library.Loan", none, [⟨"books", none, .array (.record (bookRecord 3 4 "library"))⟩]⟩

/-- A route to a book of the shop, and one to loans of books of the library: the books and the
authors are different records, at different depths, under the same short names. -/
def bookRoutes : RouteMap :=
  [("Sell", .record (bookRecord 0 1 "shop")), ("Lend", .record loanRecord)]

theorem labelsFaithful_bookRoutes : LabelsFaithful bookRoutes := by
  have hin : ∀ kv ∈ bookRoutes, kv.2.records ⊆ [bookRecord 0 1 "shop", authorRecord 1 "shop",
      loanRecord, bookRecord 3 4 "library", authorRecord 4 "library"] := by
    intro kv hkv
    simp only [bookRoutes, List.mem_cons, List.not_mem_nil, or_false] at hkv
    rcases hkv with rfl | rfl
    · show [bookRecord 0 1 "shop", authorRecord 1 "shop"] ⊆ _
      simp
    · show [loanRecord, bookRecord 3 4 "library", authorRecord 4 "library"] ⊆ _
      simp
  exact labelsFaithful_of_objects hin (by decide)

theorem noBackReferences_bookRoutes : NoBackReferences bookRoutes := by
  intro route schema name hin hpart
  simp only [bookRoutes, List.mem_cons, List.not_mem_nil, or_false, Prod.mk.injEq] at hin
  rcases hin with ⟨-, rfl⟩ | ⟨-, rfl⟩ <;>
  · simp only [loanRecord, bookRecord, authorRecord, Schema.isPart_record_iff,
      Schema.isPart_array_iff, List.mem_cons, List.not_mem_nil, or_false, exists_eq_left,
      reduceCtorEq, false_or] at hpart
    cases hpart

/-- Books and loans, whose definitions refer to each other over two namespaces. -/
theorem generateDefinitions_acyclic_bookRoutes :
    LabelsFaithful bookRoutes ∧ NoBackReferences bookRoutes
      ∧ ∃ defs, generateDefinitions bookRoutes .reject = .ok defs
        ∧ (∀ name, ¬Relation.TransGen (RefersTo defs) name name)
        ∧ WellFounded fun other name => RefersTo defs name other := by
  have hok : (generateDefinitions bookRoutes .reject).isOk = true := by decide +kernel
  obtain ⟨defs, hdefs⟩ := exists_eq_ok_of_isOk hok
  exact ⟨labelsFaithful_bookRoutes, noBackReferences_bookRoutes, defs, hdefs,
    generateDefinitions_acyclic labelsFaithful_bookRoutes noBackReferences_bookRoutes hdefs⟩

end AvroSwagger
