import AvroSwagger.Proofs.Representation
import Mathlib.Data.List.Nodup

/-!
# AvroSwagger.Proofs.Leftovers

**No reference is forgotten, not even when calls fail.**

A call that fails leaves records on the stack, and the next call visits them.  So for
the records that an entry's record refers to there are three possibilities: such a
record still waits, or it was visited and has an entry, or it was visited and this
visit failed.

The visits are written down in a log, in their order and over all calls.  What each
visit does to stack, entries and arena keeps the account: the references of a record
that is translated are put on the stack, and those of the arena's own object were put
there when it was bound.

Main statements:
  * `pending_collectRecord`, `made_of_collectRecord`: what a visit does to stack, entries and arena;
  * `Accounts.visit`: a visit keeps the account, whatever becomes of it;
  * `afterCalls_references`: where the references of an entry's record are, after any calls.
-/

namespace AvroSwagger

open Swagger

/-! ## §1. The log. -/

/-- A visit and its failure, if it failed. -/
structure Visited where
  record : Record
  failure : Option GenerationError

/-- The records whose visits made entries. -/
def made (log : List Visited) : List Record :=
  (log.filter fun v => v.failure.isNone).map Visited.record

/-- The records whose visits failed. -/
def failed (log : List Visited) : List Record :=
  (log.filter fun v => v.failure.isSome).map Visited.record

variable {log : List Visited} {r s : Record} {e : GenerationError}

@[simp] theorem made_concat_none : made (log ++ [⟨r, none⟩]) = made log ++ [r] := by
  simp [made]

@[simp] theorem made_concat_some : made (log ++ [⟨r, some e⟩]) = made log := by
  simp [made]

/-- A visit made an entry or failed. -/
theorem mem_made_or_mem_failed {v : Visited} (hv : v ∈ log) :
    v.record ∈ made log ∨ v.record ∈ failed log := by
  cases hfailure : v.failure with
  | none =>
    refine Or.inl (List.mem_map_of_mem (List.mem_filter.mpr ⟨hv, ?_⟩))
    rw [hfailure]
    rfl
  | some e =>
    refine Or.inr (List.mem_map_of_mem (List.mem_filter.mpr ⟨hv, ?_⟩))
    rw [hfailure]
    rfl

theorem exists_visited_of_mem_made (hr : r ∈ made log) : ∃ v ∈ log, v.record = r := by
  obtain ⟨v, hv, hrecord⟩ := List.mem_map.mp hr
  exact ⟨v, List.mem_of_mem_filter hv, hrecord⟩

namespace Collector

/-- **A collector works on its stack** until it is empty or a visit fails: the visits, and the
outcome. -/
inductive Works : Collector → List Visited → Collector × Option GenerationError → Prop
  | done {c : Collector} (hp : c.pending = []) : Works c [] (c, none)
  | fail {c after : Collector} {r : Record} {rest : List Record} {e : GenerationError}
      (hp : c.pending = r :: rest)
      (hc : collectRecord { c with pending := rest } r = (after, some e)) :
      Works c [⟨r, some e⟩] (after, some e)
  | visit {c mid : Collector} {r : Record} {rest : List Record} {visits : List Visited}
      {outcome : Collector × Option GenerationError} (hp : c.pending = r :: rest)
      (hc : collectRecord { c with pending := rest } r = (mid, none))
      (hrest : Works mid visits outcome) : Works c (⟨r, none⟩ :: visits) outcome

/-- **Calls for some roots, one after the other**, with the log of all visits; each call goes on
from the state that the one before it left. -/
inductive Calls (policy : CollisionPolicy) : List Record → List Visited → Collector → Prop
  | start : Calls policy [] [] (empty policy)
  | call {c : Collector} {roots : List Record} {root : Record} {log visits : List Visited}
      {outcome : Collector × Option GenerationError} (before : Calls policy roots log c)
      (hworks : Works { c with pending := root :: c.pending } visits outcome) :
      Calls policy (roots ++ [root]) (log ++ visits) outcome.1

variable {c mid : Collector} {policy : CollisionPolicy} {roots : List Record}

/-- Draining the stack is such work. -/
theorem exists_works (c : Collector) : ∃ visits, Works c visits c.drain := by
  induction c using stack_induction with
  | empty c hp =>
    rw [drain_of_nil hp]
    exact ⟨[], .done hp⟩
  | visit c r rest hp ih =>
    rw [drain_of_cons hp]
    cases hc : collectRecord { c with pending := rest } r with
    | mk after failure =>
      rw [hc] at ih
      cases failure with
      | some e => exact ⟨_, .fail hp hc⟩
      | none =>
        obtain ⟨visits, hvisits⟩ := ih
        exact ⟨_, .visit hp hc hvisits⟩

/-- The outcome of the work is that of draining the stack. -/
theorem Works.eq_drain {visits : List Visited} {outcome : Collector × Option GenerationError}
    (h : Works c visits outcome) : outcome = c.drain := by
  induction h with
  | done hp => rw [drain_of_nil hp]
  | fail hp hc => rw [drain_of_cons hp, hc]
  | visit hp hc _ ih => rw [drain_of_cons hp, hc, ih]

/-- Work that ends without a failure ends with an empty stack, and none of its visits failed. -/
theorem Works.of_none {visits : List Visited} {outcome : Collector × Option GenerationError}
    (h : Works c visits outcome) (hnone : outcome.2 = none) :
    outcome.1.pending = [] ∧ failed visits = [] := by
  induction h with
  | done hp => exact ⟨hp, rfl⟩
  | fail => exact absurd hnone (by simp)
  | visit _ _ _ ih =>
    obtain ⟨hpending, hfailed⟩ := ih hnone
    exact ⟨hpending, hfailed⟩

theorem afterCalls_concat (policy : CollisionPolicy) (roots : List Record) (root : Record) :
    afterCalls policy (roots ++ [root]) = ((afterCalls policy roots).collectRoute root).1 := by
  rw [afterCalls, List.foldl_append]
  rfl

/-- Every sequence of calls has its log. -/
theorem exists_calls (policy : CollisionPolicy) (roots : List Record) :
    ∃ log, Calls policy roots log (afterCalls policy roots) := by
  induction roots using List.reverseRecOn with
  | nil => exact ⟨[], .start⟩
  | append_singleton roots root ih =>
    obtain ⟨log, hlog⟩ := ih
    rw [afterCalls_concat, collectRoute_eq_drain]
    obtain ⟨visits, hvisits⟩ := exists_works _
    exact ⟨log ++ visits, .call hlog hvisits⟩

/-- The log of some calls leads to the collector behind them. -/
theorem Calls.eq_afterCalls (h : Calls policy roots log c) : c = afterCalls policy roots := by
  induction h with
  | start => rfl
  | call _ hworks ih => rw [afterCalls_concat, collectRoute_eq_drain, ← ih, hworks.eq_drain]

/-! ## §2. What a visit does. -/

/-- Every visit leaves the stack as it is, or puts references of its record on it. -/
theorem pending_collectRecord (c : Collector) (r : Record) :
    c.pending ⊆ (c.collectRecord r).1.pending
      ∧ (c.collectRecord r).1.pending ⊆ r.references ++ c.pending := by
  have hpush : c.pending ⊆ (c.push r.references).pending
      ∧ (c.push r.references).pending ⊆ r.references ++ c.pending := by
    refine ⟨List.subset_append_right _ _, fun s hs => ?_⟩
    rcases List.mem_append.mp hs with hs | hs
    · exact List.mem_append_left _ (List.mem_reverse.mp hs)
    · exact List.mem_append_right _ hs
  have hsame : c.pending ⊆ c.pending ∧ c.pending ⊆ r.references ++ c.pending :=
    ⟨List.Subset.refl _, List.subset_append_right _ _⟩
  have hvisit := visit_collectRecord c r
  generalize c.collectRecord r = outcome at hvisit ⊢
  cases hvisit with
  | reserved => exact hsame
  | known => exact hsame
  | untranslated => exact hpush
  | bound => exact hpush
  | admitted => exact hpush
  | collided => exact hpush

/-- A visit that fails touches neither entries nor arena. -/
theorem of_collectRecord_eq_some (hc : c.collectRecord r = (mid, some e)) :
    mid.entries = c.entries ∧ mid.arena = c.arena := by
  have hvisit := visit_collectRecord c r
  rw [hc] at hvisit
  cases hvisit with
  | reserved => exact ⟨rfl, rfl⟩
  | untranslated => exact ⟨rfl, rfl⟩
  | collided => exact ⟨rfl, rfl⟩

/-- **What a visit does that does not fail**, where labels identify objects. -/
structure Made (c : Collector) (r : Record) (after : Collector) : Prop where
  /-- It makes an entry with the record's definition. -/
  entry : ∃ value, r.definition = .ok value ∧ after.entries = c.entries ++ [⟨r.shortName, value⟩]
  /-- It binds nothing else but the record. -/
  arena : ∀ name t, after.arena.find? name = some t → c.arena.find? name = some t ∨ t.record = r
  /-- It puts the references on the stack, or the record is in the arena. -/
  covered : r.references ⊆ after.pending ∨ ∃ t, c.arena.find? r.shortName = some t ∧ t.record = r

theorem made_of_collectRecord (hrep : c.Represents)
    (hid : ∀ t, c.arena.find? r.shortName = some t → t.record.isSameObject r = true →
      t.record = r)
    (hc : c.collectRecord r = (mid, none)) : Made c r mid := by
  have hpush : r.references ⊆ (c.push r.references).pending := fun s hs =>
    List.mem_append_left _ (List.mem_reverse.mpr hs)
  have hvisit := visit_collectRecord c r
  rw [hc] at hvisit
  cases hvisit with
  | known hname hk =>
    obtain ⟨t, hfind, hsame, rfl⟩ := exists_of_known hk
    have hrecord := hid t hfind hsame
    have hdef := (hrep.translated _ t hfind).2
    rw [hrecord] at hdef
    exact ⟨⟨t.value, hdef, entries_append _ _ _⟩, fun _ _ h => Or.inl h,
      Or.inr ⟨t, hfind, hrecord⟩⟩
  | @bound value hname hk hdef hfree =>
    refine ⟨⟨value, hdef, ?_⟩, fun name t ht => ?_, Or.inl hpush⟩
    · rw [entries_append, entries_bind]
      rfl
    · have ht : (c.arena.insert r.shortName ⟨r, value⟩).find? name = some t := ht
      rw [OrderedMap.find?_insert] at ht
      split at ht
      · injection ht with ht
        exact Or.inr (ht ▸ rfl)
      · exact Or.inl ht
  | @admitted value existing hname hk hdef hfind hagree =>
    refine ⟨⟨value, hdef, ?_⟩, fun _ _ h => Or.inl h, Or.inl hpush⟩
    rw [entries_append]
    rfl

/-! ## §3. The account. -/

/-- **The account of a collector behind some visits**: each entry is that of a visit that made one,
and what the record of that visit refers to waits or was visited. -/
structure Accounts (c : Collector) (roots : List Record) (log : List Visited) : Prop where
  represents : c.Represents
  entries : List.Forall₂ Entry.IsFor c.entries (made log)
  /-- The arena holds records whose visits made entries. -/
  arena : ∀ name t, c.arena.find? name = some t → t.record ∈ made log
  references : ∀ r ∈ made log, ∀ s ∈ r.references, s ∈ c.pending ∨ ∃ v ∈ log, v.record = s
  /-- All records stand below the roots. -/
  pending_below : c.pending ⊆ unfolding roots
  visited_below : ∀ v ∈ log, v.record ∈ unfolding roots

theorem accounts_empty (policy : CollisionPolicy) (roots : List Record) :
    (empty policy).Accounts roots [] where
  represents := represents_empty policy
  entries := .nil
  arena := fun name t h => by simp [empty] at h
  references := fun r hr => absurd hr (by simp [made])
  pending_below := List.nil_subset _
  visited_below := fun v hv => absurd hv (by simp)

/-- **A record in the fields of an entry's record** has an entry, or it waits, or a visit of it
failed. -/
theorem Accounts.covers (h : c.Accounts roots log) (hr : r ∈ made log) {f : Field Schema}
    (hf : f ∈ r.fields) (hcore : f.type.core = .record s) :
    (∃ e ∈ c.entries, e.name = s.shortName) ∨ s ∈ c.pending ∨ s ∈ failed log := by
  -- the record has a definition, so its references are all records in its fields
  obtain ⟨entry, -, -, hdef⟩ := exists_left_of_forall₂ h.entries r hr
  have htranslatable := (RecordOf.definition_isOk_iff r).mp ⟨_, hdef⟩
  have hs := (RecordOf.mem_references_iff htranslatable).mpr ⟨f, hf, hcore⟩
  rcases h.references r hr s hs with hwaits | ⟨v, hv, rfl⟩
  · exact Or.inr (Or.inl hwaits)
  · rcases mem_made_or_mem_failed hv with hmade | hfailed
    · obtain ⟨e, he, hname, -⟩ := exists_left_of_forall₂ h.entries v.record hmade
      exact Or.inl ⟨e, he, hname⟩
    · exact Or.inr (Or.inr hfailed)

/-- A root on the stack changes nothing. -/
theorem Accounts.call (h : c.Accounts roots log) {root : Record} (hroot : root ∈ roots) :
    Accounts { c with pending := root :: c.pending } roots log where
  represents := h.represents.withPending _
  entries := h.entries
  arena := h.arena
  references := fun r hr s hs => (h.references r hr s hs).imp (List.mem_cons_of_mem _) id
  pending_below := List.cons_subset.mpr ⟨mem_unfolding_of_mem hroot, h.pending_below⟩
  visited_below := h.visited_below

/-- The record on top of the stack is visited, the others wait. -/
theorem Accounts.references_of_visit (h : c.Accounts roots log) {rest : List Record}
    (hp : c.pending = r :: rest) (hrest : rest ⊆ mid.pending)
    (failure : Option GenerationError) {x : Record} (hx : x ∈ made log) (hs : s ∈ x.references) :
    s ∈ mid.pending ∨ ∃ v ∈ log ++ [⟨r, failure⟩], v.record = s := by
  rcases h.references x hx s hs with hwaits | ⟨v, hv, hrecord⟩
  · rw [hp] at hwaits
    rcases List.mem_cons.mp hwaits with rfl | hin
    · exact Or.inr ⟨⟨s, failure⟩, List.mem_append_right _ List.mem_cons_self, rfl⟩
    · exact Or.inl (hrest hin)
  · exact Or.inr ⟨v, List.mem_append_left _ hv, hrecord⟩

/-- **A visit keeps the account**, whatever becomes of it. -/
theorem Accounts.visit (hid : LabelsIdentify [] roots) (h : c.Accounts roots log)
    {rest : List Record} (hp : c.pending = r :: rest) {failure : Option GenerationError}
    (hc : collectRecord { c with pending := rest } r = (mid, failure)) :
    mid.Accounts roots (log ++ [⟨r, failure⟩]) := by
  have hrep : mid.Represents := by
    have hafter := (h.represents.withPending rest).collectRecord r
    rw [hc] at hafter
    exact hafter
  obtain ⟨hkept, hpushed⟩ := pending_collectRecord { c with pending := rest } r
  rw [hc] at hkept hpushed
  have hbelow : r ∈ unfolding roots := h.pending_below (hp ▸ List.mem_cons_self)
  -- what the visit puts on the stack stands below its record
  have hpending : mid.pending ⊆ unfolding roots := by
    intro s hs
    rcases List.mem_append.mp (hpushed hs) with hs | hs
    · exact references_subset_unfolding hbelow hs
    · exact h.pending_below (hp ▸ List.mem_cons_of_mem _ hs)
  have hvisited : ∀ v ∈ log ++ [⟨r, failure⟩], v.record ∈ unfolding roots := by
    intro v hv
    rcases List.mem_append.mp hv with hv | hv
    · exact h.visited_below v hv
    · rw [List.mem_singleton.mp hv]
      exact hbelow
  cases failure with
  | some e =>
    obtain ⟨hentries, harena⟩ := of_collectRecord_eq_some hc
    refine ⟨hrep, ?_, ?_, fun x hx s hs => ?_, hpending, hvisited⟩
    · rw [hentries, made_concat_some]
      exact h.entries
    · rw [harena, made_concat_some]
      exact h.arena
    · rw [made_concat_some] at hx
      exact h.references_of_visit hp hkept (some e) hx hs
  | none =>
    -- the arena holds visited records, so a record with the label of one of them is that record
    have hidr : ∀ t, c.arena.find? r.shortName = some t → t.record.isSameObject r = true →
        t.record = r := by
      intro t hfind hsame
      obtain ⟨v, hv, hrecord⟩ := exists_visited_of_mem_made (h.arena _ t hfind)
      exact hid _ (hrecord ▸ h.visited_below v hv) _ hbelow (beq_iff_eq.mp hsame)
    obtain ⟨⟨value, hdef, hentries⟩, harena, hcovered⟩ :=
      made_of_collectRecord (h.represents.withPending rest) hidr hc
    refine ⟨hrep, ?_, fun name t ht => ?_, fun x hx s hs => ?_, hpending, hvisited⟩
    · rw [hentries, made_concat_none]
      exact List.rel_append h.entries (.cons ⟨rfl, hdef⟩ .nil)
    · rw [made_concat_none]
      rcases harena name t ht with hold | rfl
      · exact List.mem_append_left _ (h.arena name t hold)
      · exact List.mem_append_right _ List.mem_cons_self
    · rw [made_concat_none] at hx
      rcases List.mem_append.mp hx with hx | hx
      · exact h.references_of_visit hp hkept none hx hs
      · rw [List.mem_singleton.mp hx] at hs
        rcases hcovered with hcovered | ⟨t, hfind, hrecord⟩
        · exact Or.inl (hcovered hs)
        · -- the arena's own object made an entry before, and its references are accounted for
          exact h.references_of_visit hp hkept none (hrecord ▸ h.arena _ t hfind) hs

/-- Work on the stack keeps the account. -/
theorem Accounts.works (hid : LabelsIdentify [] roots) {visits : List Visited}
    {outcome : Collector × Option GenerationError} (h : c.Accounts roots log)
    (hworks : Works c visits outcome) : outcome.1.Accounts roots (log ++ visits) := by
  induction hworks generalizing log with
  | done =>
    rw [List.append_nil]
    exact h
  | fail hp hc => exact h.visit hid hp hc
  | visit hp hc _ ih =>
    have hrest := ih (h.visit hid hp hc)
    rw [List.append_assoc] at hrest
    exact hrest

/-- **Calls keep the account**, whether or not they fail. -/
theorem Calls.accounts {front : List Record} (hid : LabelsIdentify [] roots)
    (h : Calls policy front log c) (hfront : front ⊆ roots) : c.Accounts roots log := by
  induction h with
  | start => exact accounts_empty policy roots
  | call _ hworks ih =>
    have hbefore := ih fun r hr => hfront (List.mem_append_left _ hr)
    have hroot := hfront (List.mem_append_right _ List.mem_cons_self)
    exact (hbefore.call hroot).works hid hworks

/-! ## §4. Any calls. -/

/-- None of the calls for some roots fails. -/
def NoCallFails (policy : CollisionPolicy) (roots : List Record) : Prop :=
  ∀ front root, front ++ [root] <+: roots → ((afterCalls policy front).collectRoute root).2 = none

/-- Calls that do not fail leave nothing behind. -/
theorem Calls.of_noCallFails (h : Calls policy roots log c) (hnone : NoCallFails policy roots) :
    c.pending = [] ∧ failed log = [] := by
  induction h with
  | start => exact ⟨rfl, rfl⟩
  | @call c roots root log visits outcome hcalls hworks ih =>
    have hbefore := ih fun front x hfront =>
      hnone front x (hfront.trans (List.prefix_append _ _))
    have hlast := hnone roots root List.prefix_rfl
    rw [collectRoute_eq_drain, ← hcalls.eq_afterCalls, ← hworks.eq_drain] at hlast
    obtain ⟨hpending, hvisits⟩ := hworks.of_none hlast
    refine ⟨hpending, ?_⟩
    rw [failed, List.filter_append, List.map_append]
    exact List.append_eq_nil_iff.mpr ⟨hbefore.2, hvisits⟩

/-- **No reference is forgotten**, after any calls of which any may fail, for roots whose labels
stand for objects.  Each entry is that of a visit, and a record in the fields of the visited
record, through any depth of arrays, has an entry under its short name, or it waits on the stack,
or a visit of it failed.  Where no call failed, it has an entry. -/
theorem afterCalls_references (policy : CollisionPolicy) {roots : List Record}
    (hid : LabelsIdentify [] roots) :
    ∃ log, Calls policy roots log (afterCalls policy roots)
      ∧ List.Forall₂ Entry.IsFor (afterCalls policy roots).entries (made log)
      ∧ (∀ r ∈ made log, ∀ f ∈ r.fields, ∀ s, f.type.core = .record s →
          (∃ e ∈ (afterCalls policy roots).entries, e.name = s.shortName)
            ∨ s ∈ (afterCalls policy roots).pending ∨ s ∈ failed log)
      ∧ (NoCallFails policy roots → (afterCalls policy roots).pending = []
        ∧ ∀ r ∈ made log, ∀ f ∈ r.fields, ∀ s, f.type.core = .record s →
          ∃ e ∈ (afterCalls policy roots).entries, e.name = s.shortName) := by
  obtain ⟨log, hcalls⟩ := exists_calls policy roots
  have haccounts := hcalls.accounts hid (List.Subset.refl _)
  refine ⟨log, hcalls, haccounts.entries,
    fun r hr f hf s hcore => haccounts.covers hr hf hcore, fun hnone => ?_⟩
  obtain ⟨hpending, hfailed⟩ := hcalls.of_noCallFails hnone
  refine ⟨hpending, fun r hr f hf s hcore => ?_⟩
  rcases haccounts.covers hr hf hcore with hentry | hwaits | hfail
  · exact hentry
  · rw [hpending] at hwaits
    exact absurd hwaits List.not_mem_nil
  · rw [hfailed] at hfail
    exact absurd hfail List.not_mem_nil

/-- Labels stand for objects where some objects with distinct labels are all the records below
the roots. -/
theorem labelsIdentify_of_objects {roots objects : List Record} (hin : unfolding roots ⊆ objects)
    (hnd : (objects.map RecordOf.id).Nodup) : LabelsIdentify [] roots := by
  intro a ha b hb hlabel
  exact List.inj_on_of_nodup_map hnd (hin ha) (hin hb) hlabel

/-- A leaf. -/
def leafRecord : Record := ⟨0, "Leaf", none, [⟨"size", none, .long⟩]⟩

/-- A branch of leaves. -/
def branchRecord : Record := ⟨1, "Branch", none, [⟨"leaves", none, .array (.record leafRecord)⟩]⟩

/-- A tree that cannot be translated, which is found out behind its branch. -/
def agedTree : Record :=
  ⟨2, "Tree", none, [⟨"trunk", none, .record branchRecord⟩, ⟨"age", none, .map .int⟩]⟩

theorem unfolding_branchRecord : unfolding [branchRecord] = [branchRecord, leafRecord] := by
  have hleaf : leafRecord.references = [] := rfl
  have hbranch : branchRecord.references = [leafRecord] := rfl
  rw [unfolding_cons, hbranch, List.reverse_singleton, unfolding_cons, hleaf]
  simp

theorem unfolding_agedTree :
    unfolding [agedTree, leafRecord] = [agedTree, branchRecord, leafRecord, leafRecord] := by
  have hleaf : leafRecord.references = [] := rfl
  have htree : agedTree.references = [branchRecord] := rfl
  rw [unfolding_cons, htree, List.reverse_singleton, unfolding_branchRecord, unfolding_cons, hleaf]
  simp

/-- The call for the branch visits the branch and its leaf, and ends. -/
theorem noCallFails_branchRecord : NoCallFails .reject [branchRecord] := by
  rintro front root ⟨back, hroots⟩
  have hfront : front = [] ∧ root = branchRecord := by
    cases front with
    | nil => simpa using And.left (List.cons.inj hroots)
    | cons x front => simp at hroots
  obtain ⟨rfl, rfl⟩ := hfront
  have hnone : ((afterCalls .reject []).collectRoute branchRecord).2.isNone = true := by
    decide +kernel
  exact Option.isNone_iff_eq_none.mp hnone

/-- A call for a tree that fails half-way and leaves its branch to the next call, and a call that
does not fail. -/
theorem afterCalls_references_trees :
    LabelsIdentify [] [agedTree, leafRecord]
      ∧ (∃ log, Calls .reject [agedTree, leafRecord] log
          (afterCalls .reject [agedTree, leafRecord])
        ∧ List.Forall₂ Entry.IsFor (afterCalls .reject [agedTree, leafRecord]).entries (made log)
        ∧ ∀ r ∈ made log, ∀ f ∈ r.fields, ∀ s, f.type.core = .record s →
          (∃ e ∈ (afterCalls .reject [agedTree, leafRecord]).entries, e.name = s.shortName)
            ∨ s ∈ (afterCalls .reject [agedTree, leafRecord]).pending
            ∨ s ∈ failed log)
      ∧ LabelsIdentify [] [branchRecord] ∧ NoCallFails .reject [branchRecord]
      ∧ ∃ log, Calls .reject [branchRecord] log (afterCalls .reject [branchRecord])
        ∧ (afterCalls .reject [branchRecord]).pending = []
        ∧ ∀ r ∈ made log, ∀ f ∈ r.fields, ∀ s, f.type.core = .record s →
          ∃ e ∈ (afterCalls .reject [branchRecord]).entries, e.name = s.shortName := by
  have hbelow : unfolding [agedTree, leafRecord] ⊆ [agedTree, branchRecord, leafRecord] := by
    rw [unfolding_agedTree]
    simp
  have hbelow' : unfolding [branchRecord] ⊆ [branchRecord, leafRecord] := by
    rw [unfolding_branchRecord]
    exact List.Subset.refl _
  have htree := labelsIdentify_of_objects hbelow (by decide)
  have hbranch := labelsIdentify_of_objects hbelow' (by decide)
  obtain ⟨log, hcalls, hentries, hreferences, -⟩ := afterCalls_references .reject htree
  obtain ⟨log', hcalls', -, -, hnone⟩ := afterCalls_references .reject hbranch
  obtain ⟨hpending, hall⟩ := hnone noCallFails_branchRecord
  exact ⟨htree, ⟨log, hcalls, hentries, hreferences⟩, hbranch, noCallFails_branchRecord,
    log', hcalls', hpending, hall⟩

/-- The tree leaves its branch on the stack, and the call for the leaf visits it. -/
example : (afterCalls .reject [agedTree]).pending.map RecordOf.shortName = ["Branch"]
    ∧ (afterCalls .reject [agedTree, leafRecord]).entries.map Entry.name
      = ["Leaf", "Branch", "Leaf"] := by decide +kernel

end Collector

end AvroSwagger
