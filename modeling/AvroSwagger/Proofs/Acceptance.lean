import AvroSwagger.Generation.Collector
import AvroSwagger.Proofs.Comparison
import AvroSwagger.Proofs.Visits

/-!
# AvroSwagger.Proofs.Acceptance

**The checks of a collection, apart from the stack and from identities.**

A name is bound to the full name and the definition of the record first visited
under it.  `accept` checks one record against what is bound: its name must not be
reserved, it must have a definition, and a definition already bound must be the
same unless differences are overwritten.  No step looks at an identity.

A record that was accepted once is accepted again without any effect, and so is
everything below it.  That is why a walk may spare what lies below a revisited
record.

Main statements:
  * `accept_eq_ok_iff`: when a record is accepted, and what is bound then;
  * `accepted_of_acceptAll`: what was accepted stays accepted;
  * `acceptAll_visits`: the spared walk and the full walk come to the same
    bindings, or to the same failure.
-/

namespace AvroSwagger

open Swagger

/-! ## §1. One record. -/

/-- What a definition name is bound to. -/
structure Binding where
  fullName : String
  value : SchemaObject

/-- **Checks a record against the bindings** and binds its name if it is new. -/
def accept (policy : CollisionPolicy) (bound : OrderedMap Binding) (r : Record) :
    Except GenerationError (OrderedMap Binding) :=
  if r.shortName = responseName then .error (.reservedName responseName)
  else
    match r.definition with
    | .error e => .error e
    | .ok value =>
      match bound.find? r.shortName with
      | none => .ok (bound.insert r.shortName ⟨r.fullName, value⟩)
      | some existing =>
        if existing.value.same value || policy = .overwrite then .ok bound
        else .error (.definitionCollision r.shortName existing.fullName r.fullName)

/-- Checks records one after the other. -/
def acceptAll (policy : CollisionPolicy) (bound : OrderedMap Binding) (rs : List Record) :
    Except GenerationError (OrderedMap Binding) :=
  rs.foldlM (accept policy) bound

/-- Whether a record passes the checks without a new binding. -/
def Accepted (policy : CollisionPolicy) (bound : OrderedMap Binding) (r : Record) : Prop :=
  accept policy bound r = .ok bound

variable {policy : CollisionPolicy} {bound bound' : OrderedMap Binding} {r s : Record}

/-- **When a record is accepted, and what is bound then.** -/
theorem accept_eq_ok_iff :
    accept policy bound r = .ok bound' ↔
      r.shortName ≠ responseName ∧ ∃ value, r.definition = .ok value
        ∧ ((bound.find? r.shortName = none
              ∧ bound' = bound.insert r.shortName ⟨r.fullName, value⟩)
          ∨ ∃ existing, bound.find? r.shortName = some existing
              ∧ (existing.value.same value = true ∨ policy = .overwrite) ∧ bound' = bound) := by
  unfold accept
  split
  next hname => simp [hname]
  next hname =>
    cases hdef : r.definition with
    | error e => simp
    | ok value =>
      cases hfind : bound.find? r.shortName with
      | none =>
        simp only [Except.ok.injEq, true_and, exists_eq_left', reduceCtorEq, false_and,
          exists_false, or_false]
        exact ⟨fun h => ⟨hname, h.symm⟩, fun h => h.2.symm⟩
      | some existing =>
        by_cases hc : existing.value.same value = true ∨ policy = .overwrite
        · have hc' : (existing.value.same value || decide (policy = .overwrite)) = true := by
            simpa using hc
          simp only [hc', if_true, Except.ok.injEq, exists_eq_left', reduceCtorEq, false_and,
            false_or, Option.some.injEq, hc, true_and]
          exact ⟨fun h => ⟨hname, h.symm⟩, fun h => h.2.symm⟩
        · have hc' : (existing.value.same value || decide (policy = .overwrite)) = false := by
            simpa using hc
          simp [hc', hc]

/-- A record passes without a new binding if its name is bound to a definition that agrees. -/
theorem accepted_iff :
    Accepted policy bound r ↔
      r.shortName ≠ responseName ∧ ∃ value, r.definition = .ok value
        ∧ ∃ existing, bound.find? r.shortName = some existing
          ∧ (existing.value.same value = true ∨ policy = .overwrite) := by
  unfold Accepted
  rw [accept_eq_ok_iff]
  constructor
  · rintro ⟨hname, value, hdef, ⟨hnone, hb⟩ | ⟨existing, hfind, hc, -⟩⟩
    · have hself := OrderedMap.find?_insert bound r.shortName ⟨r.fullName, value⟩ r.shortName
      rw [← hb, hnone, if_pos rfl] at hself
      exact absurd hself (by simp)
    · exact ⟨hname, value, hdef, existing, hfind, hc⟩
  · rintro ⟨hname, value, hdef, existing, hfind, hc⟩
    exact ⟨hname, value, hdef, Or.inr ⟨existing, hfind, hc, rfl⟩⟩

/-- A binding stays. -/
theorem find?_of_accept (h : accept policy bound r = .ok bound') {name : String} {b : Binding}
    (hb : bound.find? name = some b) : bound'.find? name = some b := by
  obtain ⟨-, value, -, ⟨hnone, rfl⟩ | ⟨existing, -, -, rfl⟩⟩ := accept_eq_ok_iff.mp h
  · have hne : r.shortName ≠ name := by
      intro e
      rw [e, hb] at hnone
      exact absurd hnone (by simp)
    rw [OrderedMap.find?_insert, if_neg hne, hb]
  · exact hb

/-- What passes keeps passing. -/
theorem Accepted.of_accept (h : accept policy bound r = .ok bound') (hs : Accepted policy bound s) :
    Accepted policy bound' s := by
  obtain ⟨hname, value, hdef, existing, hfind, hc⟩ := accepted_iff.mp hs
  exact accepted_iff.mpr ⟨hname, value, hdef, existing, find?_of_accept h hfind, hc⟩

/-- **A record that was accepted is accepted again.** -/
theorem accepted_of_accept (h : accept policy bound r = .ok bound') : Accepted policy bound' r := by
  obtain ⟨hname, value, hdef, ⟨-, rfl⟩ | ⟨existing, -, -, rfl⟩⟩ := accept_eq_ok_iff.mp h
  · have hself := OrderedMap.find?_insert bound r.shortName ⟨r.fullName, value⟩ r.shortName
    rw [if_pos rfl] at hself
    exact accepted_iff.mpr
      ⟨hname, value, hdef, _, hself, Or.inl ((same_iff_eq_of_definition hdef hdef).mpr rfl)⟩
  · exact h

/-! ## §2. Many records. -/

@[simp] theorem acceptAll_nil : acceptAll policy bound [] = .ok bound := rfl

theorem acceptAll_cons (rs : List Record) :
    acceptAll policy bound (r :: rs) = (accept policy bound r).bind (acceptAll policy · rs) := by
  unfold acceptAll
  rw [List.foldlM_cons]
  cases accept policy bound r with
  | error e => rfl
  | ok mid => rfl

theorem acceptAll_append (as bs : List Record) :
    acceptAll policy bound (as ++ bs)
      = (acceptAll policy bound as).bind (acceptAll policy · bs) := by
  unfold acceptAll
  rw [List.foldlM_append]
  rfl

/-- Records are accepted one after the other, each behind the ones before it. -/
theorem acceptAll_cons_eq_ok_iff {rs : List Record} :
    acceptAll policy bound (r :: rs) = .ok bound'
      ↔ ∃ mid, accept policy bound r = .ok mid ∧ acceptAll policy mid rs = .ok bound' := by
  rw [acceptAll_cons]
  cases accept policy bound r <;> simp [Except.bind]

theorem find?_of_acceptAll {rs : List Record} (h : acceptAll policy bound rs = .ok bound')
    {name : String} {b : Binding} (hb : bound.find? name = some b) :
    bound'.find? name = some b := by
  induction rs generalizing bound with
  | nil =>
    injection h with h
    rw [← h, hb]
  | cons r rest ih =>
    obtain ⟨mid, hr, hrest⟩ := acceptAll_cons_eq_ok_iff.mp h
    exact ih hrest (find?_of_accept hr hb)

theorem Accepted.of_acceptAll {rs : List Record} (h : acceptAll policy bound rs = .ok bound')
    (hs : Accepted policy bound s) : Accepted policy bound' s := by
  obtain ⟨hname, value, hdef, existing, hfind, hc⟩ := accepted_iff.mp hs
  exact accepted_iff.mpr ⟨hname, value, hdef, existing, find?_of_acceptAll h hfind, hc⟩

/-- **What was accepted stays accepted.** -/
theorem accepted_of_acceptAll {rs : List Record} (h : acceptAll policy bound rs = .ok bound') :
    ∀ x ∈ rs, Accepted policy bound' x := by
  induction rs generalizing bound with
  | nil => simp
  | cons r rest ih =>
    obtain ⟨mid, hr, hrest⟩ := acceptAll_cons_eq_ok_iff.mp h
    intro x hx
    rcases List.mem_cons.mp hx with rfl | hx
    · exact (accepted_of_accept hr).of_acceptAll hrest
    · exact ih hrest x hx

/-- **Every binding is the definition of an accepted record.** -/
theorem exists_mem_of_find?_acceptAll {rs : List Record}
    (h : acceptAll policy bound rs = .ok bound') {name : String} {b : Binding}
    (hb : bound'.find? name = some b) :
    bound.find? name = some b
      ∨ ∃ x ∈ rs, x.shortName = name ∧ x.fullName = b.fullName ∧ x.definition = .ok b.value := by
  induction rs generalizing bound with
  | nil =>
    injection h with h
    exact Or.inl (h ▸ hb)
  | cons r rest ih =>
    obtain ⟨mid, hr, hrest⟩ := acceptAll_cons_eq_ok_iff.mp h
    rcases ih hrest with hmid | ⟨x, hx, hxb⟩
    · obtain ⟨-, value, hdef, ⟨-, rfl⟩ | ⟨existing, -, -, rfl⟩⟩ := accept_eq_ok_iff.mp hr
      · rw [OrderedMap.find?_insert] at hmid
        split at hmid
        next hname =>
          injection hmid with hmid
          exact Or.inr ⟨r, List.mem_cons_self, hname, by rw [← hmid], by rw [← hmid]; exact hdef⟩
        next => exact Or.inl hmid
      · exact Or.inl hmid
    · exact Or.inr ⟨x, List.mem_cons_of_mem _ hx, hxb⟩

/-- Records whose definitions agree with each other and with what is bound are accepted. -/
theorem exists_acceptAll_eq_ok {rs : List Record} (hname : ∀ x ∈ rs, x.shortName ≠ responseName)
    (hdef : ∀ x ∈ rs, ∃ v, x.definition = .ok v)
    (hagree : ∀ x ∈ rs, ∀ y ∈ rs, x.shortName = y.shortName → x.definition = y.definition)
    (hbound : ∀ x ∈ rs, ∀ b, bound.find? x.shortName = some b → x.definition = .ok b.value) :
    ∃ bound', acceptAll policy bound rs = .ok bound' := by
  induction rs generalizing bound with
  | nil => exact ⟨bound, rfl⟩
  | cons r rest ih =>
    obtain ⟨v, hv⟩ := hdef r List.mem_cons_self
    have hrest : ∀ mid : OrderedMap Binding,
        (∀ x ∈ rest, ∀ b, mid.find? x.shortName = some b → x.definition = .ok b.value) →
        ∃ bound', acceptAll policy mid rest = .ok bound' := by
      intro mid hmid
      refine ih (fun x hx => hname x (List.mem_cons_of_mem _ hx))
        (fun x hx => hdef x (List.mem_cons_of_mem _ hx)) (fun x hx y hy => ?_) hmid
      exact hagree x (List.mem_cons_of_mem _ hx) y (List.mem_cons_of_mem _ hy)
    simp only [acceptAll_cons_eq_ok_iff, accept_eq_ok_iff]
    cases hfind : bound.find? r.shortName with
    | none =>
      -- the new binding agrees with the records to come, because this record does
      obtain ⟨bound', hb⟩ := hrest (bound.insert r.shortName ⟨r.fullName, v⟩) (by
        intro x hx b hxb
        rw [OrderedMap.find?_insert] at hxb
        split at hxb
        next hn =>
          injection hxb with hxb
          rw [← hxb, ← hv]
          exact hagree x (List.mem_cons_of_mem _ hx) r List.mem_cons_self hn.symm
        next => exact hbound x (List.mem_cons_of_mem _ hx) b hxb)
      exact ⟨bound', _, ⟨hname r List.mem_cons_self, v, hv, Or.inl ⟨rfl, rfl⟩⟩, hb⟩
    | some existing =>
      obtain ⟨bound', hb⟩ := hrest bound fun x hx => hbound x (List.mem_cons_of_mem _ hx)
      have hex := hbound r List.mem_cons_self existing hfind
      have hsame : existing.value.same v = true := by
        rw [same_iff_eq_of_definition hex hv]
        rw [hv] at hex
        injection hex with hex
        exact hex.symm
      exact ⟨bound', bound,
        ⟨hname r List.mem_cons_self, v, hv, Or.inr ⟨existing, rfl, Or.inl hsame, rfl⟩⟩, hb⟩

/-- Records that pass without a new binding can be skipped. -/
theorem acceptAll_eq_of_accepted {rs : List Record} (h : ∀ x ∈ rs, Accepted policy bound x) :
    acceptAll policy bound rs = .ok bound := by
  induction rs with
  | nil => rfl
  | cons r rest ih =>
    rw [acceptAll_cons_eq_ok_iff]
    exact ⟨bound, h r List.mem_cons_self, ih fun x hx => h x (List.mem_cons_of_mem _ hx)⟩

/-! ## §3. The spared walk. -/

/-- Whether all that occurs below a record passes. -/
def Settled (policy : CollisionPolicy) (bound : OrderedMap Binding) (r : Record) : Prop :=
  ∀ x ∈ unfolding [r], Accepted policy bound x

theorem Settled.of_acceptAll {rs : List Record} (h : acceptAll policy bound rs = .ok bound')
    (hr : Settled policy bound r) : Settled policy bound' r :=
  fun x hx => (hr x hx).of_acceptAll h

/-- A full walk settles whatever occurs in it. -/
theorem settled_of_acceptAll {rs : List Record}
    (h : acceptAll policy bound (unfolding rs) = .ok bound') :
    ∀ x ∈ unfolding rs, Settled policy bound' x :=
  fun _ hx y hy => accepted_of_acceptAll h y (unfolding_singleton_subset hx hy)

theorem mem_unfolding_self (r : Record) : r ∈ unfolding [r] :=
  mem_unfolding_of_mem List.mem_cons_self

theorem unfolding_singleton (r : Record) :
    unfolding [r] = r :: unfolding r.references.reverse := by
  rw [unfolding_cons, unfolding_nil, List.append_nil]

/-- The visits below a record occur below it. -/
theorem visits_below_subset (seen seen' : List Record) (r : Record) :
    visits seen' (below seen r) ⊆ unfolding [r] := by
  intro x hx
  have hx := visits_subset_unfolding _ _ hx
  unfold below at hx
  split at hx
  · simp at hx
  · rw [unfolding_singleton]
    exact List.mem_cons_of_mem _ hx

/-- **What allows a walk over `rs` to spare revisits** behind the visits `seen`: labels stand
for objects, and each record seen before is settled or is one of the records that the walk is
still below.  Those are larger than all records to come, so no revisit finds one of them. -/
structure Sparing (policy : CollisionPolicy) (bound : OrderedMap Binding)
    (seen rs : List Record) : Prop where
  labels : LabelsIdentify seen rs
  settled : ∀ f ∈ seen, Settled policy bound f ∨ ∀ r ∈ rs, r.recordCount < f.recordCount

/-- A revisited record is settled. -/
theorem Sparing.settled_of_isRevisit {seen rest : List Record}
    (h : Sparing policy bound seen (r :: rest)) (hrev : isRevisit seen r = true) :
    Settled policy bound r := by
  obtain ⟨first, hfirst, hlabel⟩ := exists_first_of_isRevisit hrev
  have hin : first ∈ seen := List.mem_of_find?_eq_some hfirst
  have hr : r ∈ unfolding (r :: rest) := mem_unfolding_of_mem List.mem_cons_self
  have heq : first = r := h.labels first (List.mem_append_left _ hin) r hr hlabel
  rcases h.settled first hin with hs | hlt
  · exact heq ▸ hs
  -- a record that the walk is still below would be larger than itself
  · have hlt := hlt r List.mem_cons_self
    rw [heq] at hlt
    omega

/-- The walk may stop behind its first record. -/
theorem Sparing.head {seen rest : List Record} (h : Sparing policy bound seen (r :: rest)) :
    Sparing policy bound seen [r] where
  labels := h.labels.mono (List.subset_append_left _ _) fun x hx => by
    rw [← List.singleton_append, unfolding_append]
    exact List.mem_append_left _ hx
  settled := by
    intro f hf
    refine (h.settled f hf).imp id (fun hlt x hx => hlt x ?_)
    rw [List.mem_singleton.mp hx]
    exact List.mem_cons_self

/-- The walk goes on below a record. -/
theorem Sparing.descend {seen rest : List Record} (h : Sparing policy bound seen (r :: rest))
    (hacc : accept policy bound r = .ok bound') :
    Sparing policy bound' (seen ++ [r]) r.references.reverse where
  labels := by
    refine h.labels.mono (fun x hx => ?_) (fun x hx => ?_)
    · rcases List.mem_append.mp hx with hx | hx
      · exact List.mem_append_left _ hx
      · rw [List.mem_singleton.mp hx]
        exact List.mem_append_right _ (mem_unfolding_of_mem List.mem_cons_self)
    · rw [unfolding_cons]
      exact List.mem_cons_of_mem _ (List.mem_append_left _ hx)
  settled := by
    intro f hf
    have hchild : ∀ x ∈ r.references.reverse, x.recordCount < r.recordCount :=
      fun x hx => RecordOf.recordCount_lt_of_mem_references (List.mem_reverse.mp hx)
    rcases List.mem_append.mp hf with hf | hf
    · rcases h.settled f hf with hs | hlt
      · exact Or.inl fun x hx => (hs x hx).of_accept hacc
      · refine Or.inr fun x hx => ?_
        have h1 := hchild x hx
        have h2 := hlt r List.mem_cons_self
        omega
    · rw [List.mem_singleton.mp hf]
      exact Or.inr hchild

/-- The walk goes on behind a record, once all below it was accepted. -/
theorem Sparing.advance {seen inner rest : List Record} (h : Sparing policy bound seen (r :: rest))
    (hinner : inner ⊆ unfolding [r]) (hacc : acceptAll policy bound (unfolding [r]) = .ok bound') :
    Sparing policy bound' (seen ++ r :: inner) rest := by
  have hblock : ∀ x ∈ r :: inner, x ∈ unfolding [r] := by
    intro x hx
    rcases List.mem_cons.mp hx with rfl | hx
    · exact mem_unfolding_self x
    · exact hinner hx
  have hsplit : unfolding (r :: rest) = unfolding [r] ++ unfolding rest := by
    rw [← unfolding_append, List.singleton_append]
  constructor
  · refine h.labels.mono (fun x hx => ?_) (fun x hx => ?_)
    · rcases List.mem_append.mp hx with hx | hx
      · exact List.mem_append_left _ hx
      · rw [hsplit]
        exact List.mem_append_right _ (List.mem_append_left _ (hblock x hx))
    · rw [hsplit]
      exact List.mem_append_right _ hx
  · intro f hf
    rcases List.mem_append.mp hf with hf | hf
    · rcases h.settled f hf with hs | hlt
      · exact Or.inl (hs.of_acceptAll hacc)
      · exact Or.inr fun x hx => hlt x (List.mem_cons_of_mem _ hx)
    · exact Or.inl (settled_of_acceptAll hacc f (hblock f hf))

/-- **The spared walk comes to the same bindings as the full walk, or to the same failure.** -/
theorem acceptAll_visits {seen rs : List Record} (h : Sparing policy bound seen rs) :
    acceptAll policy bound (visits seen rs) = acceptAll policy bound (unfolding rs) := by
  induction seen, rs using visits_induction generalizing bound with
  | nil seen => simp
  | cons seen r rest ihBelow ihRest =>
    rw [visits_cons, unfolding_cons, acceptAll_cons, acceptAll_cons]
    cases hacc : accept policy bound r with
    | error e => rfl
    | ok bound₁ =>
      show acceptAll policy bound₁ (_ ++ _) = acceptAll policy bound₁ (_ ++ _)
      rw [acceptAll_append, acceptAll_append]
      have hbelow : acceptAll policy bound₁ (visits (seen ++ [r]) (below seen r))
          = acceptAll policy bound₁ (unfolding r.references.reverse) := by
        cases hrev : isRevisit seen r with
        | true =>
          -- nothing is walked below a revisit, and nothing below it would change the bindings
          have hset : ∀ x ∈ unfolding [r], Accepted policy bound x :=
            h.settled_of_isRevisit hrev
          rw [unfolding_singleton] at hset
          rw [below, hrev, if_pos rfl, visits_nil, acceptAll_nil]
          refine (acceptAll_eq_of_accepted fun x hx => ?_).symm
          exact (hset x (List.mem_cons_of_mem _ hx)).of_accept hacc
        | false =>
          have hb : below seen r = r.references.reverse := by
            rw [below, hrev, if_neg (by simp)]
          rw [hb] at ihBelow ⊢
          exact ihBelow (h.descend hacc)
      rw [hbelow]
      cases hall : acceptAll policy bound₁ (unfolding r.references.reverse) with
      | error e => rfl
      | ok bound₂ =>
        show acceptAll policy bound₂ _ = acceptAll policy bound₂ _
        have hfull : acceptAll policy bound (unfolding [r]) = .ok bound₂ := by
          rw [unfolding_singleton, acceptAll_cons_eq_ok_iff]
          exact ⟨bound₁, hacc, hall⟩
        exact ihRest (h.advance (visits_below_subset _ _ r) hfull)

end AvroSwagger
