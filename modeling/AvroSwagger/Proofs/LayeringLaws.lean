import AvroSwagger.Proofs.Layering

/-!
# AvroSwagger.Proofs.LayeringLaws

**Laying a value over another one twice, and laying two values over a third.**

A second time the same layer changes nothing.  Two layers may be put together
before they are laid over a value, except where the lower one interrupts: it holds
a value of another kind at a path at which the value and the upper layer hold
containers of one kind.  Laid one after the other, the lower layer then removes
what the upper one is laid over; put together, the upper layer removes the lower
one.

Containers are compared by their keys and their children, so all equations here are
equations of values with the order of their keys.

Main statements:
  * `eq_of_child?_eq`: a container is told by its kind, its keys and its children;
  * `merge_self`, `merge_assoc`: one layer, two layers;
  * `merge_layers`: both laws.
-/

namespace AvroSwagger.Json

/-! ## §1. Values and their children. -/

/-- The keys of an object in their order; no other value has keys. -/
def memberKeys : Json → List String
  | .obj members => OrderedMap.keys members
  | _ => []

/-- **A container is told by its kind, its keys and its children.** -/
theorem eq_of_child?_eq {v w : Json} (hkind : v.kind = w.kind) (hscalar : w.kind ≠ .scalar)
    (hnd : v.memberKeys.Nodup) (hkeys : v.memberKeys = w.memberKeys)
    (hchild : ∀ step, v.child? step = w.child? step) : v = w := by
  cases w with
  | arr items =>
    cases v <;> simp [kind] at hkind
    next items' =>
      have hitems : items' = items := List.ext_getElem? fun i => hchild (.index i)
      rw [hitems]
  | obj members =>
    cases v <;> simp [kind] at hkind
    next members' =>
      have hmembers : members' = members := by
        refine OrderedMap.eq_of_keys_eq hkeys hnd fun kv hkv => ?_
        have hfound := hchild (.key kv.1)
        show OrderedMap.find? members kv.1 = some kv.2
        rw [← OrderedMap.find?_eq_some_of_mem hnd hkv]
        exact hfound.symm
      rw [hmembers]
  | null | bool _ | num _ | str _ => exact absurd rfl hscalar

/-- A value is well formed when it lists no key twice and its children are well formed. -/
theorem wellFormed_iff {v : Json} : v.WellFormed ↔
    v.memberKeys.Nodup ∧ ∀ step child, v.child? step = some child → child.WellFormed := by
  constructor
  · intro h
    refine ⟨?_, fun step child => h.child⟩
    cases v with
    | obj members => exact h.1
    | _ => exact List.nodup_nil
  · intro h
    obtain ⟨hnd, hchildren⟩ := h
    cases v with
    | arr items =>
      rw [WellFormed, wellFormedItems_iff]
      intro item hitem
      obtain ⟨i, hi⟩ := List.mem_iff_getElem?.mp hitem
      exact hchildren (.index i) item hi
    | obj members =>
      rw [WellFormed, wellFormedMembers_iff]
      refine ⟨hnd, fun kv hkv => ?_⟩
      exact hchildren (.key kv.1) kv.2 (OrderedMap.find?_eq_some_of_mem hnd hkv)
    | null | bool _ | num _ | str _ => rw [WellFormed] <;> simp

theorem sizeOf_child_lt {v child : Json} {step : Step} (h : v.child? step = some child) :
    sizeOf child < sizeOf v := by
  unfold child? at h
  split at h
  next members name =>
    have hpair : sizeOf (name, child) < sizeOf members :=
      List.sizeOf_lt_of_mem (OrderedMap.mem_of_find?_eq_some h)
    simp only [Prod.mk.sizeOf_spec] at hpair
    simp only [obj.sizeOf_spec]
    omega
  next items i =>
    have hitem : sizeOf child < sizeOf items := List.sizeOf_lt_of_mem (List.mem_of_getElem? h)
    simp only [arr.sizeOf_spec]
    omega
  next => exact absurd h (by simp)

/-- **Induction into the children**: what holds of a value when it holds of its children holds of
every value. -/
theorem child_induction {P : Json → Prop}
    (inside : ∀ v, (∀ step child, v.child? step = some child → P child) → P v) (v : Json) :
    P v := by
  induction hn : sizeOf v using Nat.strongRecOn generalizing v with
  | ind n ih =>
  refine inside v fun step child hchild => ih (sizeOf child) ?_ child rfl
  have hlt := sizeOf_child_lt hchild
  omega

/-! ## §2. The keys and the children of a merged value. -/

/-- The keys of the lower value come first, then those that only the upper one has. -/
theorem memberKeys_merge {source target : Json} (hw : source.WellFormed)
    (hkind : target.kind = source.kind) :
    (target.merge source).memberKeys
      = target.memberKeys ++ source.memberKeys.filter fun key => key ∉ target.memberKeys := by
  cases source with
  | obj above =>
    cases target <;> simp [kind] at hkind
    next below =>
      rw [merge]
      exact keys_mergeMembers hw.1 below
  | arr above =>
    cases target <;> simp [kind] at hkind
    next below =>
      rw [merge]
      rfl
  | null | bool _ | num _ | str _ =>
    cases target <;> simp [kind] at hkind <;> simp [merge, memberKeys]

/-- What is merged of well-formed values is well formed. -/
theorem WellFormed.merge {source target : Json} (ht : target.WellFormed) (hs : source.WellFormed) :
    (target.merge source).WellFormed := by
  induction source using child_induction generalizing target with
  | inside source ih =>
  by_cases hroot : source.kind = .scalar ∨ target.kind ≠ source.kind
  · rw [merge_of_kind hroot]
    exact hs
  · rw [not_or, not_not] at hroot
    obtain ⟨hscalar, hkind⟩ := hroot
    have hnd := (wellFormed_iff.mp ht).1
    have hnd' := (wellFormed_iff.mp hs).1
    rw [wellFormed_iff]
    constructor
    · rw [memberKeys_merge hs hkind, List.nodup_append]
      refine ⟨hnd, hnd'.filter _, fun key hkey other hother heq => ?_⟩
      have hnew := (List.mem_filter.mp hother).2
      rw [← heq] at hnew
      simp [hkey] at hnew
    · intro step child hchild
      rw [child?_merge hs hkind hscalar] at hchild
      -- a child comes from one of the two values, or is itself merged of two children
      cases hbelow : target.child? step with
      | none =>
        rw [hbelow, overlay_none_left] at hchild
        exact hs.child hchild
      | some below =>
        cases habove : source.child? step with
        | none =>
          rw [hbelow, habove, overlay_none_right] at hchild
          exact ht.child (hbelow.trans hchild)
        | some above =>
          rw [hbelow, habove] at hchild
          injection hchild with hchild
          rw [← hchild]
          exact ih step above habove (ht.child hbelow) (hs.child habove)

/-! ## §3. One layer. -/

/-- **A value laid over itself** is that value. -/
theorem merge_self {v : Json} (hw : v.WellFormed) : v.merge v = v := by
  induction v using child_induction with
  | inside v ih =>
  by_cases hscalar : v.kind = .scalar
  · exact merge_of_kind (Or.inl hscalar)
  · have hkeys : (v.merge v).memberKeys = v.memberKeys := by
      rw [memberKeys_merge hw rfl]
      simp
    have hnd := (wellFormed_iff.mp hw).1
    refine eq_of_child?_eq (kind_merge v v) hscalar (hkeys ▸ hnd) hkeys fun step => ?_
    rw [child?_merge hw rfl hscalar]
    cases hchild : v.child? step with
    | none => rfl
    | some child => exact congrArg some (ih step child hchild (hw.child hchild))

/-! ## §4. Two layers. -/

/-- **The lower layer interrupts**: at a path common to the three values, the lowest and the upper
value hold containers of one kind, and the layer between them a value of another kind. -/
def Interrupts (target lower upper : Json) : Prop :=
  ∃ p below between above, target.at? p = some below ∧ lower.at? p = some between
    ∧ upper.at? p = some above ∧ below.kind = above.kind ∧ above.kind ≠ .scalar
    ∧ between.kind ≠ above.kind

/-- A layer interrupts at the root, or below a step into all three values. -/
theorem interrupts_iff {target lower upper : Json} : Interrupts target lower upper ↔
    (target.kind = upper.kind ∧ upper.kind ≠ .scalar ∧ lower.kind ≠ upper.kind)
      ∨ ∃ step below between above, target.child? step = some below
        ∧ lower.child? step = some between ∧ upper.child? step = some above
        ∧ Interrupts below between above := by
  constructor
  · intro h
    obtain ⟨p, below, between, above, hbelow, hbetween, habove, hdiffer⟩ := h
    cases p with
    | nil =>
      injection hbelow with hbelow
      injection hbetween with hbetween
      injection habove with habove
      rw [← hbelow, ← hbetween, ← habove] at hdiffer
      exact Or.inl hdiffer
    | cons step rest =>
      rw [at?_cons, Option.bind_eq_some_iff] at hbelow hbetween habove
      obtain ⟨x, hx, hbelow⟩ := hbelow
      obtain ⟨y, hy, hbetween⟩ := hbetween
      obtain ⟨z, hz, habove⟩ := habove
      exact Or.inr ⟨step, x, y, z, hx, hy, hz, rest, below, between, above, hbelow, hbetween,
        habove, hdiffer⟩
  · intro h
    rcases h with hroot | ⟨step, x, y, z, hx, hy, hz, hinside⟩
    · exact ⟨[], target, lower, upper, rfl, rfl, rfl, hroot⟩
    · obtain ⟨p, below, between, above, hbelow, hbetween, habove, hdiffer⟩ := hinside
      refine ⟨step :: p, below, between, above, ?_, ?_, ?_, hdiffer⟩
      · rw [at?_cons, hx]
        exact hbelow
      · rw [at?_cons, hy]
        exact hbetween
      · rw [at?_cons, hz]
        exact habove

/-- Nothing is interrupted at or below a place at which the lowest and the upper value are no
containers of one kind. -/
theorem not_interrupts_of_kind {target lower upper : Json}
    (h : upper.kind = .scalar ∨ target.kind ≠ upper.kind) : ¬Interrupts target lower upper := by
  rw [interrupts_iff, not_or]
  constructor
  · intro hroot
    exact h.elim hroot.2.1 fun hne => hne hroot.1
  · intro hinside
    obtain ⟨step, x, y, z, hx, -, hz, -⟩ := hinside
    obtain ⟨hkind, hscalar⟩ := kind_eq_of_child? hx hz
    exact h.elim (hkind ▸ hscalar) fun hne => hne hkind

/-- A layer with one member interrupts below this member or not at all, where it meets objects. -/
theorem not_interrupts_of_member {below between : List (String × Json)} {key : String} {z : Json}
    (h : ∀ x y, OrderedMap.find? below key = some x → OrderedMap.find? between key = some y →
      ¬Interrupts x y z) : ¬Interrupts (.obj below) (.obj between) (.obj [(key, z)]) := by
  intro hboth
  rcases interrupts_iff.mp hboth with ⟨-, -, hkind⟩ | ⟨step, x, y, z', hx, hy, hz, hinside⟩
  · exact hkind rfl
  · cases step with
    | index i => exact absurd hz (by simp [child?])
    | key name =>
      have hz : OrderedMap.find? [(key, z)] name = some z' := hz
      rw [OrderedMap.find?_cons] at hz
      split at hz
      next hname =>
        injection hz with hz
        rw [← hname] at hx hy
        exact h x y hx hy (hz ▸ hinside)
      next => exact absurd hz (by simp)

/-- New keys are the same, whether they are sought in two steps or in one. -/
theorem filter_new_append {front middle back : List String} :
    (front ++ middle.filter fun key => key ∉ front)
        ++ back.filter (fun key => key ∉ front ++ middle.filter fun key => key ∉ front)
      = front
        ++ (middle ++ back.filter fun key => key ∉ middle).filter fun key => key ∉ front := by
  have hback : back.filter (fun key => key ∉ front ++ middle.filter fun key => key ∉ front)
      = (back.filter fun key => key ∉ middle).filter fun key => key ∉ front := by
    rw [List.filter_filter]
    refine List.filter_congr fun key _ => ?_
    by_cases hfront : key ∈ front
    · simp [hfront]
    · simp [hfront]
  rw [hback, List.filter_append, List.append_assoc]

/-- What is missing in one of three layers does not stand between the other two. -/
theorem overlay_assoc {below between above : Option Json}
    (h : ∀ x y z, below = some x → between = some y → above = some z →
      (x.merge y).merge z = x.merge (y.merge z)) :
    overlay (overlay below between) above = overlay below (overlay between above) := by
  cases above with
  | none => simp
  | some z =>
    cases between with
    | none => simp
    | some y =>
      cases below with
      | none => simp
      | some x => exact congrArg some (h x y z rfl rfl rfl)

/-- **Three containers of one kind** are laid over each other child by child, and their keys in
one order. -/
theorem merge_assoc_of_children {target lower upper : Json} (ht : target.WellFormed)
    (hl : lower.WellFormed) (hu : upper.WellFormed) (htarget : target.kind = lower.kind)
    (hlower : lower.kind = upper.kind) (hscalar : upper.kind ≠ .scalar)
    (hchild : ∀ step x y z, target.child? step = some x → lower.child? step = some y →
      upper.child? step = some z → (x.merge y).merge z = x.merge (y.merge z)) :
    (target.merge lower).merge upper = target.merge (lower.merge upper) := by
  have hboth := hl.merge hu
  have hfirst : (target.merge lower).kind = upper.kind := by rw [kind_merge, hlower]
  have hlast : target.kind = (lower.merge upper).kind := by rw [kind_merge, htarget, hlower]
  have hkeys : ((target.merge lower).merge upper).memberKeys
      = (target.merge (lower.merge upper)).memberKeys := by
    rw [memberKeys_merge hu hfirst, memberKeys_merge hl htarget, memberKeys_merge hboth hlast,
      memberKeys_merge hu hlower, filter_new_append]
  have hnd := (wellFormed_iff.mp ((ht.merge hl).merge hu)).1
  refine eq_of_child?_eq ?_ ?_ hnd hkeys fun step => ?_
  · rw [kind_merge, kind_merge, kind_merge]
  · rw [kind_merge, kind_merge]
    exact hscalar
  · rw [child?_merge hu hfirst hscalar, child?_merge hl htarget (hlower ▸ hscalar),
      child?_merge hboth hlast (by rw [kind_merge]; exact hscalar),
      child?_merge hu hlower hscalar]
    exact overlay_assoc (hchild step)

/-- **Two layers may be put together first**, unless the lower one interrupts. -/
theorem merge_assoc {target lower upper : Json} (ht : target.WellFormed) (hl : lower.WellFormed)
    (hu : upper.WellFormed) (h : ¬Interrupts target lower upper) :
    (target.merge lower).merge upper = target.merge (lower.merge upper) := by
  induction upper using child_induction generalizing target lower with
  | inside upper ih =>
  -- the cases are the kinds that meet at the root
  by_cases hscalar : upper.kind = .scalar
  · rw [merge_of_kind (Or.inl hscalar), merge_of_kind (Or.inl hscalar),
      merge_of_kind (Or.inl hscalar)]
  by_cases hlower : lower.kind = upper.kind
  · by_cases htarget : target.kind = lower.kind
    · refine merge_assoc_of_children ht hl hu htarget hlower hscalar ?_
      intro step x y z hx hy hz
      refine ih step z hz (ht.child hx) (hl.child hy) (hu.child hz) fun hinside => h ?_
      exact interrupts_iff.mpr (Or.inr ⟨step, x, y, z, hx, hy, hz, hinside⟩)
    · -- the lowest value is replaced by the lower layer, and by the two together
      have hlast : target.kind ≠ (lower.merge upper).kind := by
        rw [kind_merge, ← hlower]
        exact htarget
      rw [merge_of_kind (Or.inr htarget), merge_of_kind (Or.inr hlast)]
  · -- the upper layer replaces the lower one, so it must replace the lowest value as well
    have htarget : target.kind ≠ upper.kind := fun heq =>
      h (interrupts_iff.mpr (Or.inl ⟨heq, hscalar, hlower⟩))
    have hfirst : (target.merge lower).kind ≠ upper.kind := by
      rw [kind_merge]
      exact hlower
    rw [merge_of_kind (Or.inr hfirst), merge_of_kind (Or.inr hlower),
      merge_of_kind (Or.inr htarget)]

/-- A layer does not interrupt itself. -/
theorem not_interrupts_self (target layer : Json) : ¬Interrupts target layer layer := by
  intro h
  obtain ⟨p, below, between, above, -, hbetween, habove, -, -, hdiffer⟩ := h
  rw [hbetween] at habove
  injection habove with habove
  exact hdiffer (congrArg kind habove)

/-- **The laws of layers**, as equations of values with the order of their keys: a second time the
same layer changes nothing, and two layers may be put together first unless the lower one
interrupts. -/
theorem merge_layers {target lower upper : Json} (ht : target.WellFormed) (hl : lower.WellFormed)
    (hu : upper.WellFormed) :
    (target.merge lower).merge lower = target.merge lower
      ∧ (¬Interrupts target lower upper →
        (target.merge lower).merge upper = target.merge (lower.merge upper)) := by
  refine ⟨?_, merge_assoc ht hl hu⟩
  rw [merge_assoc ht hl hl (not_interrupts_self target lower), merge_self hl]

/-- A further change of the description, which goes on where the first one put an object in the
place of an array. -/
def secondLayer : Json := .obj [("info", .obj [("tags", .obj [("c", .bool true)])])]

/-- The first change replaces the tags, but the further one is not laid over what was there. -/
theorem not_interrupts_secondLayer : ¬Interrupts baseDescription descriptionLayer secondLayer := by
  refine not_interrupts_of_member fun x y hx hy => ?_
  obtain rfl : x = .obj [("title", .str ""), ("tags", .arr [.str "a"])] := (Option.some.inj hx).symm
  obtain rfl : y = .obj [("tags", .obj [("b", .null)])] := (Option.some.inj hy).symm
  refine not_interrupts_of_member fun x y hx hy => ?_
  obtain rfl : x = .arr [.str "a"] := (Option.some.inj hx).symm
  exact not_interrupts_of_kind (Or.inr (by decide))

/-- The laws hold of the description and its two changes. -/
theorem merge_layers_secondLayer :
    baseDescription.WellFormed ∧ descriptionLayer.WellFormed ∧ secondLayer.WellFormed
      ∧ ¬Interrupts baseDescription descriptionLayer secondLayer
      ∧ (baseDescription.merge descriptionLayer).merge descriptionLayer
        = baseDescription.merge descriptionLayer
      ∧ (baseDescription.merge descriptionLayer).merge secondLayer
        = baseDescription.merge (descriptionLayer.merge secondLayer) := by
  have hbase : baseDescription.WellFormed := by
    simp [baseDescription, WellFormed, WellFormedMembers, WellFormedItems]
  have hfirst : descriptionLayer.WellFormed := by
    simp [descriptionLayer, WellFormed, WellFormedMembers, WellFormedItems]
  have hsecond : secondLayer.WellFormed := by
    simp [secondLayer, WellFormed, WellFormedMembers]
  obtain ⟨htwice, hassoc⟩ := merge_layers hbase hfirst hsecond
  exact ⟨hbase, hfirst, hsecond, not_interrupts_secondLayer, htwice,
    hassoc not_interrupts_secondLayer⟩

/-- Where a layer interrupts, the order of the work matters. -/
example : ((Json.obj [("x", .null)]).merge .null).merge (.obj []) = .obj []
    ∧ (Json.obj [("x", .null)]).merge (Json.null.merge (.obj [])) = .obj [("x", .null)] :=
  ⟨rfl, rfl⟩

end AvroSwagger.Json
