import AvroSwagger.Proofs.Leftovers

/-!
# AvroSwagger.Proofs.Termination

**Draining the stack ends, and how many entries it makes at most.**

A visit may put any number of records on the stack, and a record that the arena does
not hold as its own object is gone into again each time it comes up.  So neither the
height of the stack nor the set of names gets smaller.  What does is the unfolding of
the stack, that is, all record occurrences in the trees of the records on it: a visit
takes its record away from it, and puts nothing on the stack that did not stand
inside this record.

Main statements:
  * `length_unfolding_le`: the unfolding of some records has no more records than their trees;
  * `Works.length_le`: work on a stack takes no more visits than its unfolding has records;
  * `collectRoute_ends`: a call ends, and it appends no more entries than that.
-/

namespace AvroSwagger

open Swagger

/-- **The unfolding of some records** has no more records than there are record occurrences in
their trees. -/
theorem length_unfolding_le (rs : List Record) : (unfolding rs).length ≤ totalRecordCount rs := by
  induction rs using unfolding.induct with
  | case1 =>
    rw [unfolding_nil]
    exact Nat.zero_le _
  | case2 r rest ihBelow ihRest =>
    have hbelow := recordCount_references_lt r
    rw [totalRecordCount_reverse] at ihBelow
    rw [unfolding_cons, List.length_cons, List.length_append, totalRecordCount]
    omega

namespace Collector

variable {c mid : Collector} {r : Record} {visits : List Visited}
  {outcome : Collector × Option GenerationError}

/-! ## §1. One visit. -/

/-- A visit puts the references of its record on the stack, or nothing. -/
theorem exists_pending_collectRecord (c : Collector) (r : Record) :
    ∃ top, (c.collectRecord r).1.pending = top ++ c.pending
      ∧ (top = [] ∨ top = r.references.reverse) := by
  have hvisit := visit_collectRecord c r
  generalize c.collectRecord r = outcome at hvisit ⊢
  cases hvisit with
  | reserved => exact ⟨[], rfl, Or.inl rfl⟩
  | known => exact ⟨[], rfl, Or.inl rfl⟩
  | untranslated => exact ⟨r.references.reverse, rfl, Or.inr rfl⟩
  | bound => exact ⟨r.references.reverse, rfl, Or.inr rfl⟩
  | admitted => exact ⟨r.references.reverse, rfl, Or.inr rfl⟩
  | collided => exact ⟨r.references.reverse, rfl, Or.inr rfl⟩

/-- **A visit makes the unfolding of the stack smaller.** -/
theorem length_unfolding_collectRecord_lt (c : Collector) (r : Record) :
    (unfolding (c.collectRecord r).1.pending).length
      < (unfolding (r :: c.pending)).length := by
  obtain ⟨top, hpending, htop⟩ := exists_pending_collectRecord c r
  rw [hpending, unfolding_append, unfolding_cons, List.length_cons, List.length_append,
    List.length_append]
  rcases htop with htop | htop
  · rw [htop, unfolding_nil, List.length_nil]
    omega
  · rw [htop]
    omega

/-- A visit that does not fail appends one entry, under the short name of its record. -/
theorem exists_entry_of_collectRecord_eq_none (hc : c.collectRecord r = (mid, none)) :
    ∃ value, mid.entries = c.entries ++ [⟨r.shortName, value⟩] := by
  have hvisit := visit_collectRecord c r
  rw [hc] at hvisit
  cases hvisit with
  | known => exact ⟨_, entries_append _ _ _⟩
  | bound => exact ⟨_, entries_append _ _ _⟩
  | admitted => exact ⟨_, entries_append _ _ _⟩

/-! ## §2. The whole work. -/

/-- **Work on a stack takes no more visits than its unfolding has records.** -/
theorem Works.length_le (h : Works c visits outcome) :
    visits.length ≤ (unfolding c.pending).length := by
  induction h with
  | done => exact Nat.zero_le _
  | fail hp =>
    rw [hp, unfolding_cons, List.length_cons, List.length_cons]
    exact Nat.succ_le_succ (Nat.zero_le _)
  | @visit c mid r rest visits outcome hp hc _ ih =>
    -- the visit takes at least its own record out of the unfolding, the induction counts the rest
    have hlt := length_unfolding_collectRecord_lt { c with pending := rest } r
    rw [hc] at hlt
    rw [hp, List.length_cons]
    show visits.length + 1 ≤ (unfolding (r :: rest)).length
    have hlt : (unfolding mid.pending).length < (unfolding (r :: rest)).length := hlt
    omega

/-- The work appends one entry for each of its visits that does not fail, in their order. -/
theorem Works.exists_entries (h : Works c visits outcome) :
    ∃ added, outcome.1.entries = c.entries ++ added
      ∧ added.map Entry.name = (made visits).map RecordOf.shortName := by
  induction h with
  | done => exact ⟨[], (List.append_nil _).symm, rfl⟩
  | @fail c after r rest e hp hc =>
    refine ⟨[], ?_, rfl⟩
    rw [List.append_nil]
    exact (of_collectRecord_eq_some hc).1
  | @visit c mid r rest visits outcome hp hc _ ih =>
    obtain ⟨added, hadded, hnames⟩ := ih
    obtain ⟨value, hentry⟩ := exists_entry_of_collectRecord_eq_none hc
    refine ⟨⟨r.shortName, value⟩ :: added, ?_, ?_⟩
    · rw [hadded, hentry, List.append_assoc]
      rfl
    · show r.shortName :: added.map Entry.name = r.shortName :: (made visits).map RecordOf.shortName
      rw [hnames]

theorem length_made_le (visits : List Visited) : (made visits).length ≤ visits.length := by
  rw [made, List.length_map]
  exact List.length_filter_le _ _

/-- **A call ends**, from any state and whatever waits on the stack: it is a finite work of visits
that are given one by one.  It appends one entry at most for each visit, and the visits are no more
than the records in the unfolding of the root and of the records that wait; these are no more than
the record occurrences in their full trees. -/
theorem collectRoute_ends (c : Collector) (root : Record) :
    ∃ visits added, Works { c with pending := root :: c.pending } visits (c.collectRoute root)
      ∧ (c.collectRoute root).1.entries = c.entries ++ added
      ∧ added.length ≤ visits.length
      ∧ visits.length ≤ (unfolding (root :: c.pending)).length
      ∧ (unfolding (root :: c.pending)).length ≤ root.recordCount + totalRecordCount c.pending := by
  obtain ⟨visits, hworks⟩ := exists_works { c with pending := root :: c.pending }
  rw [← collectRoute_eq_drain] at hworks
  obtain ⟨added, hadded, hnames⟩ := hworks.exists_entries
  have hlength := congrArg List.length hnames
  rw [List.length_map, List.length_map] at hlength
  exact ⟨visits, added, hworks, hadded, hlength ▸ length_made_le visits, hworks.length_le,
    length_unfolding_le (root :: c.pending)⟩

end Collector

end AvroSwagger
