import AvroSwagger.Proofs.Events
import AvroSwagger.Proofs.ReadingRules

/-!
# AvroSwagger.Proofs.ReadingSteps

**What each event of a document does to the scope, and what a run of them adds up to.**

The reader is a transition system over scopes, labelled with the events of the
document.  A run that starts with nothing known knows, at each place, exactly the
definitions that began before it, and has completed exactly those whose end is
before it.

Main statements:
  * `Scope.Runs.knownNames_perm`, `Scope.Runs.completed_eq`: the scope behind a run;
  * `Outline.Resolved.runs`: what was read is a run of the events, in their order;
  * `Outline.Resolved.filterMap_mark?_logAll`: no mark of the document is missing in the events.
-/

namespace AvroSwagger

namespace Scope

variable {before mid scope after : Scope} {e : Event} {es front back : List Event}

/-! ## §1. Steps. -/

/-- **One step of the reader**, labelled with its event. -/
inductive Step : Scope → Event → Scope → Prop
  | reference {scope : Scope} {name : String} {space : Option String} {s : Schema}
      (h : scope.lookup name space = .ok s) : Step scope (.reference name space s) scope
  | opened {scope : Scope} {fullName : String} (fresh : fullName ∉ scope.knownNames) :
      Step scope (.opened fullName) (scope.enter fullName)
  | closed {scope after : Scope} {fullName : String} {outer : List String} {doc : Option String}
      {fields : List (Field Schema)} {s : Schema}
      (innermost : scope.openRecords = fullName :: outer)
      (h : scope.completeRecord fullName doc fields = .ok (s, after)) :
      Step scope (.closed fullName s) after
  | defined {scope after : Scope} {fullName : String} {schema s : Schema}
      (h : scope.define fullName schema = .ok (s, after)) : Step scope (.defined fullName s) after

/-- A step completes what its event says. -/
theorem Step.completed_eq (h : Step before e after) :
    after.completed = e.completion?.toList ++ before.completed := by
  cases h with
  | reference => rfl
  | opened => rfl
  | closed _ h =>
    obtain ⟨-, -, rfl⟩ := completeRecord_eq_ok_iff.mp h
    rfl
  | defined h =>
    obtain ⟨-, rfl, rfl⟩ := define_eq_ok_iff.mp h
    rfl

/-- A step makes known what begins with its event; the end of a record only moves its name. -/
theorem Step.knownNames_perm (h : Step before e after) :
    after.knownNames.Perm (definedNames e.mark?.toList ++ before.knownNames) := by
  cases h with
  | reference => exact List.Perm.refl _
  | opened => exact List.perm_middle
  | closed innermost h =>
    obtain ⟨-, -, rfl⟩ := completeRecord_eq_ok_iff.mp h
    -- the name moves from the open records to the complete definitions
    show (_ :: (OrderedMap.keys _ ++ _)).Perm (OrderedMap.keys _ ++ _)
    rw [innermost]
    exact List.perm_middle.symm
  | defined h =>
    obtain ⟨-, -, rfl⟩ := define_eq_ok_iff.mp h
    exact List.Perm.refl _

/-- No step completes a full name a second time. -/
theorem Step.nodup_keys (h : Step before e after) (hnodup : before.completed.keys.Nodup) :
    after.completed.keys.Nodup := by
  cases h with
  | reference => exact hnodup
  | opened => exact hnodup
  | closed _ h =>
    obtain ⟨hnew, -, rfl⟩ := completeRecord_eq_ok_iff.mp h
    exact List.nodup_cons.mpr ⟨hnew, hnodup⟩
  | defined h =>
    obtain ⟨hnew, -, rfl⟩ := define_eq_ok_iff.mp h
    exact List.nodup_cons.mpr ⟨hnew, hnodup⟩

/-! ## §2. Runs. -/

/-- **A run of the reader**: one step for each event. -/
inductive Runs : Scope → List Event → Scope → Prop
  | nil {scope : Scope} : Runs scope [] scope
  | cons {before mid after : Scope} {e : Event} {es : List Event} (step : Step before e mid)
      (rest : Runs mid es after) : Runs before (e :: es) after

theorem Runs.append (h : Runs before front mid) (h' : Runs mid back after) :
    Runs before (front ++ back) after := by
  induction h with
  | nil => exact h'
  | cons step _ ih => exact .cons step (ih h')

/-- A run can be stopped at each of its places. -/
theorem Runs.exists_of_append (h : Runs before (front ++ back) after) :
    ∃ mid, Runs before front mid ∧ Runs mid back after := by
  induction front generalizing before with
  | nil => exact ⟨before, .nil, h⟩
  | cons e front ih =>
    cases h with
    | cons step rest =>
      obtain ⟨mid, hfront, hback⟩ := ih rest
      exact ⟨mid, .cons step hfront, hback⟩

/-- A run passes each of its events in one step. -/
theorem Runs.exists_step (h : Runs before (front ++ e :: back) after) :
    ∃ mid next, Runs before front mid ∧ Step mid e next ∧ Runs next back after := by
  obtain ⟨mid, hfront, hrest⟩ := h.exists_of_append
  cases hrest with
  | cons step hback => exact ⟨mid, _, hfront, step, hback⟩

/-- What is complete behind a run: what its events complete, the latest first. -/
theorem Runs.completed_eq (h : Runs before es after) :
    after.completed = (es.filterMap Event.completion?).reverse ++ before.completed := by
  induction h with
  | nil => rfl
  | @cons before mid after e es step _ ih =>
    rw [ih, step.completed_eq]
    cases he : e.completion? <;> simp [he]

/-- What is known behind a run: what began in it and what was known before. -/
theorem Runs.knownNames_perm (h : Runs before es after) :
    after.knownNames.Perm (definedNames (es.filterMap Event.mark?) ++ before.knownNames) := by
  induction h with
  | nil => exact List.Perm.refl _
  | @cons before mid after e es step _ ih =>
    have hmarks : definedNames ((e :: es).filterMap Event.mark?)
        = definedNames e.mark?.toList ++ definedNames (es.filterMap Event.mark?) := by
      rw [← definedNames_append]
      cases he : e.mark? <;> simp [he]
    rw [hmarks]
    -- the rest of the run adds its names to those of the step, the order does not matter
    have hstep := step.knownNames_perm.append_left (definedNames (es.filterMap Event.mark?))
    rw [← List.append_assoc] at hstep
    exact ih.trans (hstep.trans (List.perm_append_comm.append_right _))

theorem Runs.nodup_keys (h : Runs before es after) (hnodup : before.completed.keys.Nodup) :
    after.completed.keys.Nodup := by
  induction h with
  | nil => exact hnodup
  | cons step _ ih => exact ih (step.nodup_keys hnodup)

/-- A run that leaves no record open began each of its definitions once. -/
theorem Runs.nodup_definedNames (h : Runs before es after) (hnodup : before.completed.keys.Nodup)
    (hclosed : after.openRecords = []) :
    (definedNames (es.filterMap Event.mark?) ++ before.knownNames).Nodup := by
  rw [← h.knownNames_perm.nodup_iff, knownNames, hclosed, List.append_nil]
  exact h.nodup_keys hnodup

end Scope

/-! ## §3. A schema is read in a run of its events. -/

namespace Outline

open Scope

variable {space : Option String} {scope after : Scope} {os : List Outline} {ss : List Schema}

/-- **What was read is a run of the events, in their order**, and every record that it opens is
closed behind it. -/
theorem Resolved.runs (h : Resolved space scope os ss after) :
    Runs scope (logAll space os ss) after ∧ after.openRecords = scope.openRecords := by
  induction h with
  | nil => exact ⟨.nil, rfl⟩
  | reference hl _ ih =>
    rw [logAll, log]
    exact ⟨.cons (.reference hl) ih.1, ih.2⟩
  | union _ _ ihb ih =>
    rw [logAll, log]
    exact ⟨ihb.1.append ih.1, ih.2.trans ihb.2⟩
  | array _ _ ihi ih =>
    rw [logAll, log]
    simp only [logAll, List.append_nil] at ihi
    exact ⟨ihi.1.append ih.1, ih.2.trans ihi.2⟩
  | map _ _ ihv ih =>
    rw [logAll, log]
    simp only [logAll, List.append_nil] at ihv
    exact ⟨ihv.1.append ih.1, ih.2.trans ihv.2⟩
  | enum hd _ ih =>
    rw [logAll, log]
    obtain ⟨-, -, hmid⟩ := define_eq_ok_iff.mp hd
    exact ⟨.cons (.defined hd) ih.1, by rw [ih.2, hmid]⟩
  | fixed hd _ ih =>
    rw [logAll, log]
    obtain ⟨-, -, hmid⟩ := define_eq_ok_iff.mp hd
    exact ⟨.cons (.defined hd) ih.1, by rw [ih.2, hmid]⟩
  | record fresh _ _ _ hr _ ihb ih =>
    obtain ⟨-, rfl, hlast⟩ := completeRecord_eq_ok_iff.mp hr
    refine ⟨?_, ?_⟩
    -- the body closes every record that it opens, so its own record is the innermost at its end
    · rw [logAll_record_cons]
      exact .cons (.opened fresh) (ihb.1.append (.cons (.closed ihb.2 hr) ih.1))
    · rw [ih.2, hlast]
      show List.drop 1 _ = _
      rw [ihb.2]
      rfl

/-- The marks of a document are those of its events, none missing and none added. -/
theorem Resolved.filterMap_mark?_logAll (h : Resolved space scope os ss after) :
    (logAll space os ss).filterMap Event.mark? = marksAll space os := by
  induction h with
  | nil => rfl
  | reference _ _ ih => simp [logAll, log, marksAll, marks, Event.mark?, ih]
  | union _ _ ihb ih => simp [logAll, log, marksAll, marks, ihb, ih]
  | array _ _ ihi ih =>
    simp only [logAll, marksAll, List.append_nil] at ihi
    simp [logAll, log, marksAll, marks, ihi, ih]
  | map _ _ ihv ih =>
    simp only [logAll, marksAll, List.append_nil] at ihv
    simp [logAll, log, marksAll, marks, ihv, ih]
  | enum _ _ ih => simp [logAll, log, marksAll, marks, Event.mark?, ih]
  | fixed _ _ ih => simp [logAll, log, marksAll, marks, Event.mark?, ih]
  | record _ _ _ _ hr _ ihb ih =>
    obtain ⟨-, rfl, -⟩ := completeRecord_eq_ok_iff.mp hr
    rw [logAll_record_cons, marksAll_record_cons, ← ihb, ← ih]
    simp [List.filterMap_cons, Event.mark?]

end Outline

end AvroSwagger
