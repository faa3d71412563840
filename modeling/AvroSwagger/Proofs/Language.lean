import AvroSwagger.Proofs.Grammar
import AvroSwagger.Proofs.ReadingSteps

/-!
# AvroSwagger.Proofs.Language

**The reader accepts exactly its language.**

A document is accepted when it spells a schema, when no full name is defined twice
in it, and when every name in it is a primitive or the full name, qualified or as
written, of a definition that begins before it.  None of the three speaks of the
tables that the reader keeps.

Main statements:
  * `Outline.WellFormed.resolves`: an outline without faults is read if its definitions are new
    and its names are declared;
  * `Schema.ofJson_isOk_iff`: the documents that are accepted.
-/

namespace AvroSwagger

/-! ## §1. Declared names. -/

/-- Each name in a list of marks is a primitive, or the full name, qualified or as written, of a
definition that begins before it or that is known from the start. -/
def Declared (known : List String) (marks : List Mark) : Prop :=
  ∀ before name space after, marks = before ++ .reference name space :: after →
    (Schema.primitive? name).isSome = true
      ∨ qualify name space ∈ definedNames before ++ known ∨ name ∈ definedNames before ++ known

variable {known known' : List String} {front back marks : List Mark}

theorem Declared.mono (h : Declared known marks) (hsub : known ⊆ known') :
    Declared known' marks := by
  intro before name space after hsplit
  have hgrow : definedNames before ++ known ⊆ definedNames before ++ known' :=
    List.append_subset.mpr ⟨List.subset_append_left _ _,
      fun _ hin => List.mem_append_right _ (hsub hin)⟩
  exact (h before name space after hsplit).imp id (Or.imp (@hgrow _) (@hgrow _))

theorem Declared.of_append_left (h : Declared known (front ++ back)) : Declared known front := by
  intro before name space after hsplit
  exact h before name space (after ++ back) (by rw [hsplit]; simp)

/-- What begins in front is known behind. -/
theorem Declared.of_append_right (h : Declared known (front ++ back)) :
    Declared (definedNames front ++ known) back := by
  intro before name space after hsplit
  have hnames := h (front ++ before) name space after (by rw [hsplit]; simp)
  rw [definedNames_append, List.append_assoc] at hnames
  have hswap : definedNames front ++ (definedNames before ++ known)
      ⊆ definedNames before ++ (definedNames front ++ known) := by
    intro other hin
    simp only [List.mem_append] at hin ⊢
    tauto
  exact hnames.imp id (Or.imp (@hswap _) (@hswap _))

theorem Declared.tail {fullName : String} (h : Declared known (.definition fullName :: marks)) :
    Declared (fullName :: known) marks := by
  have hsplit : Declared known ([.definition fullName] ++ marks) := h
  exact hsplit.of_append_right

namespace Scope

variable {scope mid after : Scope}

/-- A name can be looked up if it is a primitive, or known as qualified or as written. -/
theorem exists_lookup_iff {name : String} {space : Option String} :
    (∃ s, scope.lookup name space = .ok s) ↔
      (Schema.primitive? name).isSome = true
        ∨ qualify name space ∈ scope.knownNames ∨ name ∈ scope.knownNames := by
  rw [mem_knownNames_iff, mem_knownNames_iff]
  unfold lookup isCompleted
  cases Schema.primitive? name with
  | some primitive => simp
  | none =>
    cases hqualified : scope.completed.find? (qualify name space) with
    | some found => simp [hqualified]
    | none =>
      cases scope.completed.find? name with
      | some found => simp [hqualified]
      | none =>
        by_cases hopen : qualify name space ∈ scope.openRecords
        · simp [hqualified, hopen]
        · by_cases hopen' : name ∈ scope.openRecords
          · simp [hqualified, hopen, hopen']
          · simp [hqualified, hopen, hopen']

/-- What is looked up on a run is declared. -/
theorem Runs.declared {es : List Event} (h : Runs scope es after) :
    Declared scope.knownNames (es.filterMap Event.mark?) := by
  intro before name space rest hsplit
  obtain ⟨front, tail, rfl, hfront, htail⟩ := List.filterMap_eq_append_iff.mp hsplit
  obtain ⟨skipped, e, back, rfl, hskipped, he, -⟩ := List.filterMap_eq_cons_iff.mp htail
  rw [← List.append_assoc] at h
  obtain ⟨mid, next, hrun, hstep, -⟩ := h.exists_step
  -- the ends of records between the mark before and this one begin nothing
  have hmarks : (front ++ skipped).filterMap Event.mark? = before := by
    rw [List.filterMap_append, hfront, List.filterMap_eq_nil_iff.mpr hskipped, List.append_nil]
  have hknown := hrun.knownNames_perm
  rw [hmarks] at hknown
  rw [← hknown.mem_iff, ← hknown.mem_iff, ← exists_lookup_iff]
  cases hstep with
  | reference hlookup =>
    injection he with he
    injection he with hname hspace
    rw [← hname, ← hspace]
    exact ⟨_, hlookup⟩
  | opened => exact absurd he (by simp [Event.mark?])
  | closed => exact absurd he (by simp [Event.mark?])
  | defined => exact absurd he (by simp [Event.mark?])

end Scope

/-! ## §2. What the language promises is read. -/

namespace Outline

variable {space : Option String} {scope : Scope}

/-- Whatever the namespace and the scope, the outline is read if its definitions are new there
and its names are declared. -/
def Resolves (o : Outline) : Prop :=
  ∀ space scope, (definedNames (o.marks space) ++ scope.knownNames).Nodup →
    Declared scope.knownNames (o.marks space) → ∃ s after, Resolved space scope [o] [s] after

theorem exists_resolved_of_forall {os : List Outline} (h : ∀ o ∈ os, o.Resolves)
    (hnew : (definedNames (marksAll space os) ++ scope.knownNames).Nodup)
    (hdeclared : Declared scope.knownNames (marksAll space os)) :
    ∃ ss after, Resolved space scope os ss after := by
  induction os generalizing scope with
  | nil => exact ⟨[], scope, .nil⟩
  | cons o rest ih =>
    rw [marksAll, definedNames_append] at hnew
    rw [marksAll] at hdeclared
    obtain ⟨ho, hrest⟩ := List.forall_mem_cons.mp h
    have hfirst : (definedNames (o.marks space) ++ scope.knownNames).Nodup := by
      refine hnew.sublist (List.Sublist.append_right ?_ _)
      exact List.sublist_append_left _ _
    obtain ⟨s, mid, hs⟩ := ho space scope hfirst hdeclared.of_append_left
    -- behind the first outline its definitions are known as well
    have hknown : mid.knownNames.Perm (definedNames (o.marks space) ++ scope.knownNames) := by
      have hperm := hs.runs.1.knownNames_perm
      rw [hs.filterMap_mark?_logAll] at hperm
      simpa [marksAll] using hperm
    have hlater : (definedNames (marksAll space rest) ++ mid.knownNames).Nodup := by
      refine (List.Perm.nodup_iff ?_).mpr hnew
      refine (hknown.append_left _).trans ?_
      rw [← List.append_assoc]
      exact List.perm_append_comm.append_right _
    obtain ⟨ss, after, hss⟩ :=
      ih hrest hlater (hdeclared.of_append_right.mono hknown.symm.subset)
    exact ⟨s :: ss, after, hs.append hss⟩

/-- **An outline without faults is read** where its definitions are new and its names are
declared. -/
theorem WellFormed.resolves {o : Outline} (h : o.WellFormed) : o.Resolves := by
  induction h with
  | reference name =>
    intro space scope _ hdeclared
    -- nothing begins before the only mark, so the name is known in the scope itself
    have hname := hdeclared [] name space [] rfl
    rw [definedNames_nil, List.nil_append, ← Scope.exists_lookup_iff] at hname
    obtain ⟨s, hs⟩ := hname
    exact ⟨s, scope, .reference hs .nil⟩
  | union _ ih =>
    intro space scope hnew hdeclared
    rw [marks] at hnew hdeclared
    obtain ⟨schemas, mid, hschemas⟩ := exists_resolved_of_forall ih hnew hdeclared
    exact ⟨.union schemas, mid, .union hschemas .nil⟩
  | array _ ih =>
    intro space scope hnew hdeclared
    rw [marks] at hnew hdeclared
    obtain ⟨s, mid, hs⟩ := ih space scope hnew hdeclared
    exact ⟨.array s, mid, .array hs .nil⟩
  | map _ ih =>
    intro space scope hnew hdeclared
    rw [marks] at hnew hdeclared
    obtain ⟨s, mid, hs⟩ := ih space scope hnew hdeclared
    exact ⟨.map s, mid, .map hs .nil⟩
  | enum decl =>
    intro space scope hnew _
    obtain ⟨hnot, -⟩ := List.nodup_cons.mp hnew
    exact ⟨_, _, .enum (Scope.define_eq_ok_iff.mpr
      ⟨fun hin => hnot (List.mem_append_right _ (List.mem_append_left _ hin)), rfl, rfl⟩) .nil⟩
  | fixed decl =>
    intro space scope hnew _
    obtain ⟨hnot, -⟩ := List.nodup_cons.mp hnew
    exact ⟨_, _, .fixed (Scope.define_eq_ok_iff.mpr
      ⟨fun hin => hnot (List.mem_append_right _ (List.mem_append_left _ hin)), rfl, rfl⟩) .nil⟩
  | @record decl doc fs _ distinct ih =>
    intro space scope hnew hdeclared
    have hmarks := marksAll_record_cons space decl doc fs []
    simp only [marksAll, List.append_nil] at hmarks
    rw [hmarks] at hnew hdeclared
    -- inside the record its own name is known, and is no more new
    have henter : (scope.enter (decl.fullNameIn space)).knownNames.Perm
        (decl.fullNameIn space :: scope.knownNames) := List.perm_middle
    have hinside : (definedNames (marksAll (decl.scopeIn space) (fs.map Field.type))
        ++ (scope.enter (decl.fullNameIn space)).knownNames).Nodup :=
      ((henter.append_left _).trans List.perm_middle).nodup_iff.mpr hnew
    obtain ⟨ts, mid, hbody⟩ := exists_resolved_of_forall (List.forall_mem_map.mpr ih) hinside
      (hdeclared.tail.mono henter.symm.subset)
    obtain ⟨fields, hheads, htypes⟩ :=
      exists_sameHeads ((List.length_map _).symm.trans hbody.length_eq)
    -- the record is still open behind its fields, so no field has completed its name
    have hmid : mid.knownNames.Nodup := by
      have hperm := hbody.runs.1.knownNames_perm
      rw [hbody.filterMap_mark?_logAll] at hperm
      exact hperm.nodup_iff.mpr hinside
    have hopen : decl.fullNameIn space ∈ mid.openRecords := by
      rw [hbody.runs.2]
      exact List.mem_cons_self
    have hnot : decl.fullNameIn space ∉ mid.completed.keys :=
      fun hin => (List.nodup_append.mp hmid).2.2 _ hin _ hopen rfl
    obtain ⟨hfresh, -⟩ := List.nodup_cons.mp hnew
    exact ⟨_, _, .record (fun hin => hfresh (List.mem_append_right _ hin)) distinct hheads
      (htypes ▸ hbody) (Scope.completeRecord_eq_ok_iff.mpr ⟨hnot, rfl, rfl⟩) .nil⟩

/-- Only outlines without faults are read. -/
theorem Resolved.wellFormed {after : Scope} {os : List Outline} {ss : List Schema}
    (h : Resolved space scope os ss after) : ∀ o ∈ os, o.WellFormed := by
  induction h with
  | nil => simp
  | reference _ _ ih => exact List.forall_mem_cons.mpr ⟨.reference _, ih⟩
  | union _ _ ihb ih => exact List.forall_mem_cons.mpr ⟨.union ihb, ih⟩
  | array _ _ ihi ih =>
    exact List.forall_mem_cons.mpr ⟨.array (ihi _ List.mem_cons_self), ih⟩
  | map _ _ ihv ih => exact List.forall_mem_cons.mpr ⟨.map (ihv _ List.mem_cons_self), ih⟩
  | enum _ _ ih => exact List.forall_mem_cons.mpr ⟨.enum _, ih⟩
  | fixed _ _ ih => exact List.forall_mem_cons.mpr ⟨.fixed _, ih⟩
  | record _ distinct _ _ _ _ ihb ih =>
    exact List.forall_mem_cons.mpr ⟨.record _ _ (List.forall_mem_map.mp ihb) distinct, ih⟩

end Outline

/-! ## §3. Documents. -/

namespace Schema

/-- **The reader accepts exactly its language**: a document is read if and only if it spells a
schema whose definitions have distinct full names and whose names are declared. -/
theorem ofJson_isOk_iff (firstId : Nat) (v : Json) :
    (∃ s next, ofJson firstId v = .ok (s, next)) ↔
      ∃ o, Spells v o ∧ (definedNames (o.marks none)).Nodup ∧ Declared [] (o.marks none) := by
  constructor
  -- the run behind a reading counts the definitions and looks up the names
  · rintro ⟨s, next, h⟩
    obtain ⟨after, -, hread⟩ := ofJson_eq_ok_iff.mp h
    obtain ⟨hrun, hopen⟩ := hread.runs
    have hmarks := hread.filterMap_mark?_logAll
    simp only [Outline.marksAll, List.append_nil] at hmarks
    refine ⟨_, Outline.WellFormed.spells v (hread.wellFormed _ List.mem_cons_self), ?_, ?_⟩
    · have hnew := hrun.nodup_definedNames List.nodup_nil hopen
      rw [hmarks] at hnew
      exact hnew.sublist (List.sublist_append_left _ _)
    · have hdeclared := hrun.declared
      rw [hmarks] at hdeclared
      exact hdeclared
  · rintro ⟨o, hspells, hnew, hdeclared⟩
    obtain ⟨rfl, hwf⟩ := Outline.spells_iff_wellFormed.mp hspells
    have hstart : (Scope.start firstId).knownNames = [] := rfl
    obtain ⟨s, after, hread⟩ := hwf.resolves none (Scope.start firstId)
      (by rw [hstart, List.append_nil]; exact hnew) (by rw [hstart]; exact hdeclared)
    exact ⟨s, after.nextId, ofJson_eq_ok_iff.mpr ⟨after, rfl, hread⟩⟩

end Schema

end AvroSwagger
