import AvroSwagger.Proofs.Translation

/-!
# AvroSwagger.Proofs.Visits

**In which order records are visited, and which visits are spared.**

`unfolding` lists every record occurrence below some records: each record, then
what stands below its references from the last reference to the first, then the
records behind it.  `visits` is the same walk with one saving: a record that is
the very object first visited under its short name is visited again, but the
walk does not go below it again.

Main statements:
  * `visits_append`: a walk over two lists is one walk after the other;
  * `mem_after_of_mem_references`: behind every visit that is not a revisit stand
    visits to everything the record refers to;
  * `mem_visits_iff_mem_unfolding`: the saving loses no record.
-/

namespace AvroSwagger

/-! ## §1. The two walks. -/

theorem recordCount_pos (r : Record) : 0 < r.recordCount := by
  have h := recordCount_references_lt r
  omega

/-- **Every record occurrence below a list of records**, in the order of a walk that goes
below each of them. -/
def unfolding : List Record → List Record
  | [] => []
  | r :: rest => r :: (unfolding r.references.reverse ++ unfolding rest)
termination_by rs => totalRecordCount rs
decreasing_by
  · have h := recordCount_references_lt r
    rw [totalRecordCount_reverse, totalRecordCount]
    omega
  · have h := recordCount_pos r
    rw [totalRecordCount]
    omega

/-- Whether a record is the very object first visited under its short name. -/
def isRevisit (seen : List Record) (r : Record) : Bool :=
  match seen.find? fun s => s.shortName = r.shortName with
  | some first => first.isSameObject r
  | none => false

/-- The records that the walk finds below a visit. -/
def below (seen : List Record) (r : Record) : List Record :=
  if isRevisit seen r then [] else r.references.reverse

theorem totalRecordCount_below_lt (seen : List Record) (r : Record) :
    totalRecordCount (below seen r) < r.recordCount := by
  unfold below
  split
  · exact recordCount_pos r
  · rw [totalRecordCount_reverse]
    exact recordCount_references_lt r

/-- **The visits of a walk** behind the visits `seen`, in order. -/
def visits (seen : List Record) : List Record → List Record
  | [] => []
  | r :: rest =>
    let inner := visits (seen ++ [r]) (below seen r)
    r :: (inner ++ visits (seen ++ r :: inner) rest)
termination_by rs => totalRecordCount rs
decreasing_by
  · have h := totalRecordCount_below_lt seen r
    rw [totalRecordCount]
    omega
  · have h := recordCount_pos r
    rw [totalRecordCount]
    omega

@[simp] theorem unfolding_nil : unfolding [] = [] := by rw [unfolding]

theorem unfolding_cons (r : Record) (rest : List Record) :
    unfolding (r :: rest) = r :: (unfolding r.references.reverse ++ unfolding rest) := by
  rw [unfolding]

@[simp] theorem visits_nil (seen : List Record) : visits seen [] = [] := by rw [visits]

theorem visits_cons (seen : List Record) (r : Record) (rest : List Record) :
    visits seen (r :: rest)
      = r :: (visits (seen ++ [r]) (below seen r)
          ++ visits (seen ++ r :: visits (seen ++ [r]) (below seen r)) rest) := by
  rw [visits]

/-- Induction along a walk: below a visit, then behind it. -/
theorem visits_induction {motive : List Record → List Record → Prop}
    (nil : ∀ seen, motive seen [])
    (cons : ∀ seen r rest, motive (seen ++ [r]) (below seen r) →
      motive (seen ++ r :: visits (seen ++ [r]) (below seen r)) rest → motive seen (r :: rest))
    (seen rs : List Record) : motive seen rs :=
  visits.induct motive nil cons seen rs

/-! ## §2. Walks over several records. -/

theorem unfolding_append (as bs : List Record) :
    unfolding (as ++ bs) = unfolding as ++ unfolding bs := by
  induction as with
  | nil => simp
  | cons r rest ih => simp [unfolding_cons, ih]

/-- **A walk over two lists is one walk after the other.** -/
theorem visits_append (seen as bs : List Record) :
    visits seen (as ++ bs) = visits seen as ++ visits (seen ++ visits seen as) bs := by
  induction as generalizing seen with
  | nil => simp
  | cons r rest ih =>
    rw [List.cons_append, visits_cons, visits_cons, ih]
    simp

/-- The next visit, and the walk over what it finds and what was waiting. -/
theorem visits_cons_eq (seen : List Record) (r : Record) (rest : List Record) :
    visits seen (r :: rest) = r :: visits (seen ++ [r]) (below seen r ++ rest) := by
  rw [visits_cons, visits_append]
  simp

theorem mem_unfolding_of_mem {rs : List Record} {r : Record} (h : r ∈ rs) : r ∈ unfolding rs := by
  obtain ⟨as, bs, rfl⟩ := List.append_of_mem h
  rw [unfolding_append, unfolding_cons]
  simp

theorem mem_visits_of_mem {seen rs : List Record} {r : Record} (h : r ∈ rs) :
    r ∈ visits seen rs := by
  obtain ⟨as, bs, rfl⟩ := List.append_of_mem h
  rw [visits_append, visits_cons]
  simp

/-- The visits of a walk are record occurrences below its records. -/
theorem visits_subset_unfolding (seen rs : List Record) : visits seen rs ⊆ unfolding rs := by
  induction seen, rs using visits_induction with
  | nil seen => simp
  | cons seen r rest ihBelow ihRest =>
    rw [visits_cons, unfolding_cons]
    intro x hx
    rw [List.mem_cons, List.mem_append] at hx ⊢
    rcases hx with hx | hx | hx
    · exact Or.inl hx
    · refine Or.inr (Or.inl ?_)
      have hb := ihBelow hx
      unfold below at hb
      split at hb
      · simp at hb
      · exact hb
    · exact Or.inr (Or.inr (ihRest hx))

/-! ## §3. Closure. -/

/-- What an occurrence refers to occurs, too. -/
theorem references_subset_unfolding {rs : List Record} {r s : Record} (hr : r ∈ unfolding rs)
    (hs : s ∈ r.references) : s ∈ unfolding rs := by
  fun_induction unfolding rs with
  | case1 => simp at hr
  | case2 x rest ih1 ih2 =>
    rw [List.mem_cons, List.mem_append] at hr ⊢
    rcases hr with rfl | hr | hr
    · exact Or.inr (Or.inl (mem_unfolding_of_mem (List.mem_reverse.mpr hs)))
    · exact Or.inr (Or.inl (ih1 hr))
    · exact Or.inr (Or.inr (ih2 hr))

/-- A list that holds some records and whatever its members refer to holds all that occurs
below those records. -/
theorem unfolding_subset_of_closed {closed : List Record}
    (hclosed : ∀ r ∈ closed, ∀ s ∈ r.references, s ∈ closed) {rs : List Record}
    (hrs : rs ⊆ closed) : unfolding rs ⊆ closed := by
  fun_induction unfolding rs with
  | case1 => simp
  | case2 x rest ih1 ih2 =>
    have hx : x ∈ closed := hrs List.mem_cons_self
    intro y hy
    rw [List.mem_cons, List.mem_append] at hy
    rcases hy with rfl | hy | hy
    · exact hx
    · exact ih1 (fun s hs => hclosed x hx s (List.mem_reverse.mp hs)) hy
    · exact ih2 (fun s hs => hrs (List.mem_cons_of_mem _ hs)) hy

/-- What occurs below an occurrence occurs. -/
theorem unfolding_singleton_subset {rs : List Record} {r : Record} (hr : r ∈ unfolding rs) :
    unfolding [r] ⊆ unfolding rs :=
  unfolding_subset_of_closed (fun _ hx _ hs => references_subset_unfolding hx hs)
    (by simpa using hr)

/-- **Behind a visit that is no revisit stand visits to all that the record refers to.** -/
theorem mem_after_of_mem_references {seen rs before after : List Record} {r s : Record}
    (h : visits seen rs = before ++ r :: after) (hnew : isRevisit (seen ++ before) r = false)
    (hs : s ∈ r.references) : s ∈ after := by
  induction seen, rs using visits_induction generalizing before after with
  | nil seen => simp at h
  | cons seen x rest ihBelow ihRest =>
    rw [visits_cons] at h
    cases before with
    | nil =>
      rw [List.nil_append, List.cons.injEq] at h
      obtain ⟨rfl, rfl⟩ := h
      rw [List.append_nil] at hnew
      have hb : s ∈ below seen x := by
        rw [below, hnew]
        simpa using hs
      exact List.mem_append_left _ (mem_visits_of_mem hb)
    | cons y before =>
      rw [List.cons_append, List.cons.injEq] at h
      obtain ⟨rfl, h⟩ := h
      -- the visit lies below `x` or behind it
      rcases List.append_eq_append_iff.mp h with ⟨mid, hbefore, hrest⟩ | ⟨mid, hinner, hafter⟩
      · refine ihRest hrest ?_
        rw [hbefore] at hnew
        simpa using hnew
      · cases mid with
        | nil =>
          rw [List.append_nil] at hinner
          have hrest : visits (seen ++ x :: visits (seen ++ [x]) (below seen x)) rest
              = [] ++ r :: after := hafter.symm
          refine ihRest hrest ?_
          rw [← hinner] at hnew
          simpa using hnew
        | cons z mid =>
          rw [List.cons_append, List.cons.injEq] at hafter
          obtain ⟨rfl, rfl⟩ := hafter
          exact List.mem_append_left _ (ihBelow hinner (by simpa using hnew))

/-! ## §4. The saving loses no record. -/

/-- Labels stand for objects: an occurrence below `rs` that carries the label of another one, or
of a record seen before, is that record. -/
def LabelsIdentify (seen rs : List Record) : Prop :=
  ∀ a ∈ seen ++ unfolding rs, ∀ b ∈ unfolding rs, a.id = b.id → a = b

/-- A walk goes on with records whose labels stand for objects. -/
theorem LabelsIdentify.mono {seen seen' rs rs' : List Record} (h : LabelsIdentify seen rs)
    (hseen : seen' ⊆ seen ++ unfolding rs) (hrs : unfolding rs' ⊆ unfolding rs) :
    LabelsIdentify seen' rs' := by
  intro a ha b hb
  refine h a ?_ b (hrs hb)
  rcases List.mem_append.mp ha with ha | ha
  · exact hseen ha
  · exact List.mem_append_right _ (hrs ha)

/-- What is found below a record and what waits behind it occurs below the two. -/
theorem unfolding_below_append_subset (seen : List Record) (r : Record) (rest : List Record) :
    unfolding (below seen r ++ rest) ⊆ unfolding (r :: rest) := by
  intro x hx
  rw [unfolding_append, List.mem_append] at hx
  rw [unfolding_cons, List.mem_cons, List.mem_append]
  rcases hx with hx | hx
  · unfold below at hx
    split at hx
    · simp at hx
    · exact Or.inr (Or.inl hx)
  · exact Or.inr (Or.inr hx)

/-- Labels still stand for objects when a record was visited. -/
theorem LabelsIdentify.step {seen rest : List Record} {r : Record}
    (h : LabelsIdentify seen (r :: rest)) :
    LabelsIdentify (seen ++ [r]) (below seen r ++ rest) := by
  refine h.mono ?_ (unfolding_below_append_subset seen r rest)
  intro x hx
  rcases List.mem_append.mp hx with hx | hx
  · exact List.mem_append_left _ hx
  · rw [List.mem_singleton.mp hx]
    exact List.mem_append_right _ (mem_unfolding_of_mem List.mem_cons_self)

/-- A revisited record was visited before. -/
theorem exists_first_of_isRevisit {seen : List Record} {r : Record}
    (h : isRevisit seen r = true) :
    ∃ first, seen.find? (fun s => s.shortName = r.shortName) = some first ∧ first.id = r.id := by
  unfold isRevisit at h
  split at h
  next first hfirst => exact ⟨first, hfirst, by simpa [RecordOf.isSameObject] using h⟩
  next => simp at h

/-- The first visit under a short name is no revisit. -/
theorem isRevisit_eq_false_of_first {seen : List Record} {r : Record}
    (h : ∀ s ∈ seen, s.shortName ≠ r.shortName) : isRevisit seen r = false := by
  have hnone : seen.find? (fun s => s.shortName = r.shortName) = none := by
    rw [List.find?_eq_none]
    intro s hs
    simpa using h s hs
  rw [isRevisit, hnone]

/-- **What a visited record refers to is visited.**  The references of a revisited record
were visited behind the first visit of the same object. -/
theorem references_subset_visits {rs : List Record} (hid : LabelsIdentify [] rs) {r s : Record}
    (hr : r ∈ visits [] rs) (hs : s ∈ r.references) : s ∈ visits [] rs := by
  obtain ⟨before, after, hsplit⟩ := List.append_of_mem hr
  cases hrev : isRevisit before r with
  | false =>
    have hafter := mem_after_of_mem_references hsplit (by simpa using hrev) hs
    rw [hsplit]
    simp [hafter]
  | true =>
    obtain ⟨first, hfirst, hlabel⟩ := exists_first_of_isRevisit hrev
    obtain ⟨-, as, bs, hbefore, hno⟩ := List.find?_eq_some_iff_append.mp hfirst
    have hin : first ∈ visits [] rs := by
      rw [hsplit, hbefore]
      simp
    -- the object was visited first without being spared, and its references stand behind that
    have heq : first = r := hid first (visits_subset_unfolding _ _ hin) r
      (visits_subset_unfolding _ _ hr) hlabel
    have hsplit' : visits [] rs = as ++ first :: (bs ++ r :: after) := by
      rw [hsplit, hbefore]
      simp
    have hnew : isRevisit ([] ++ as) first = false := by
      refine isRevisit_eq_false_of_first (fun x hx => ?_)
      have hx' := hno x (by simpa using hx)
      rw [heq]
      simpa using hx'
    have hafter := mem_after_of_mem_references hsplit' hnew (heq ▸ hs)
    rw [hsplit']
    simp only [List.mem_append, List.mem_cons] at hafter ⊢
    exact Or.inr (Or.inr hafter)

/-- **The saving loses no record.** -/
theorem mem_visits_iff_mem_unfolding {rs : List Record} (hid : LabelsIdentify [] rs) {r : Record} :
    r ∈ visits [] rs ↔ r ∈ unfolding rs :=
  ⟨fun h => visits_subset_unfolding _ _ h,
    fun h => unfolding_subset_of_closed
      (fun _ hx _ hs => references_subset_visits hid hx hs) (fun _ hx => mem_visits_of_mem hx) h⟩

end AvroSwagger
