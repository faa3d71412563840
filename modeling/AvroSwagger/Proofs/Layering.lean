import AvroSwagger.Json.Merge
import AvroSwagger.Proofs.OrderedMap

/-!
# AvroSwagger.Proofs.Layering

**What a value holds at each path when another one was laid over it.**

A path leads down into a value by keys of objects and indices of arrays.  Going
down both values along one path, the upper value replaces the lower one at the
first place where it holds a scalar or a container of another kind (`Replaces`).
Up to there the two are laid over each other child by child (`overlay`).

Main statements:
  * `find?_mergeMembers`, `getElem?_mergeItems`, `keys_mergeMembers`, `length_mergeItems`: one
    object over another, one array over another;
  * `at?_merge_of_replaced`, `at?_merge_of_not_replaced`: the merged value at a path;
  * `mergedAt_merge`: what it holds there, for each kind of value above and below.
-/

namespace AvroSwagger.Json

/-! ## §1. Paths. -/

/-- One step down into a value. -/
inductive Step where
  | key (name : String)
  | index (i : Nat)

/-- A way down into a value. -/
abbrev Path : Type := List Step

/-- The value one step down; a key leads into objects only and an index into arrays only. -/
def child? : Json → Step → Option Json
  | .obj members, .key name => OrderedMap.find? members name
  | .arr items, .index i => items[i]?
  | _, _ => none

/-- **The value at a path**, if the path leads to one. -/
def at? (v : Json) : Path → Option Json
  | [] => some v
  | step :: rest => (v.child? step).bind fun child => child.at? rest

/-- What a value is made of. -/
inductive Kind where
  | scalar
  | array
  | object
  deriving DecidableEq

/-- The kind of a value; `null` is a scalar. -/
def kind : Json → Kind
  | .arr _ => .array
  | .obj _ => .object
  | _ => .scalar

@[simp] theorem at?_nil (v : Json) : v.at? [] = some v := rfl

theorem at?_cons (v : Json) (step : Step) (rest : Path) :
    v.at? (step :: rest) = (v.child? step).bind fun child => child.at? rest := rfl

/-- The children of a well-formed value are well formed. -/
theorem WellFormed.child {v child : Json} {step : Step} (h : v.WellFormed)
    (hchild : v.child? step = some child) : child.WellFormed := by
  unfold child? at hchild
  split at hchild
  next members name =>
    rw [WellFormed, wellFormedMembers_iff] at h
    exact h.2 _ (OrderedMap.mem_of_find?_eq_some hchild)
  next items i =>
    rw [WellFormed, wellFormedItems_iff] at h
    exact h child (List.mem_of_getElem? hchild)
  next => exact absurd hchild (by simp)

/-- What stands at a path of a well-formed value is well formed. -/
theorem WellFormed.at {v w : Json} {p : Path} (h : v.WellFormed) (hat : v.at? p = some w) :
    w.WellFormed := by
  induction p generalizing v with
  | nil =>
    injection hat with hat
    exact hat ▸ h
  | cons step rest ih =>
    rw [at?_cons, Option.bind_eq_some_iff] at hat
    obtain ⟨child, hchild, hrest⟩ := hat
    exact ih (h.child hchild) hrest

/-! ## §2. One container over another. -/

/-- What is above laid over what is below, where either may be missing. -/
def overlay : Option Json → Option Json → Option Json
  | some below, some above => some (below.merge above)
  | none, above => above
  | below, none => below

@[simp] theorem overlay_none_left (above : Option Json) : overlay none above = above := by
  cases above <;> rfl

@[simp] theorem overlay_none_right (below : Option Json) : overlay below none = below := by
  cases below <;> rfl

/-- **Under each key** the two values are laid over each other. -/
theorem find?_mergeMembers {source : List (String × Json)} (hnd : (OrderedMap.keys source).Nodup)
    (target : OrderedMap Json) (key : String) :
    (mergeMembers target source).find? key
      = overlay (target.find? key) (OrderedMap.find? source key) := by
  induction source generalizing target with
  | nil => rw [mergeMembers, OrderedMap.find?_nil, overlay_none_right]
  | cons kv rest ih =>
    obtain ⟨k, value⟩ := kv
    rw [OrderedMap.keys_cons, List.nodup_cons] at hnd
    rw [mergeMembers, ih hnd.2, OrderedMap.find?_insert, OrderedMap.find?_cons]
    by_cases hk : k = key
    · -- the key is not written again, so what is written now stays
      have hrest : OrderedMap.find? rest key = none :=
        OrderedMap.find?_eq_none_iff.mpr (hk ▸ hnd.1)
      rw [if_pos hk, if_pos hk, hrest, overlay_none_right, hk]
      cases target.find? key <;> rfl
    · rw [if_neg hk, if_neg hk]

/-- **The keys of the lower object come first**, then those that only the upper one has. -/
theorem keys_mergeMembers {source : List (String × Json)} (hnd : (OrderedMap.keys source).Nodup)
    (target : OrderedMap Json) :
    (mergeMembers target source).keys
      = target.keys ++ (OrderedMap.keys source).filter fun key => key ∉ target.keys := by
  induction source generalizing target with
  | nil => simp [mergeMembers]
  | cons kv rest ih =>
    obtain ⟨k, value⟩ := kv
    rw [OrderedMap.keys_cons, List.nodup_cons] at hnd
    rw [mergeMembers, ih hnd.2, OrderedMap.keys_insert, OrderedMap.keys_cons]
    by_cases hk : k ∈ target.keys
    · simp [hk]
    · -- the new key is none of those behind it
      have hrest : (OrderedMap.keys rest).filter (fun key => key ∉ target.keys ++ [k])
          = (OrderedMap.keys rest).filter fun key => key ∉ target.keys := by
        refine List.filter_congr fun key hkey => ?_
        have hne : key ≠ k := fun h => hnd.1 (h ▸ hkey)
        simp [hne]
      rw [if_neg hk, hrest]
      simp [hk]

/-- **At each index** the two values are laid over each other. -/
theorem getElem?_mergeItems (source target : List Json) (i : Nat) :
    (mergeItems target source)[i]? = overlay target[i]? source[i]? := by
  induction source generalizing target i with
  | nil => rw [mergeItems, List.getElem?_nil, overlay_none_right]
  | cons value rest ih =>
    cases target with
    | nil =>
      rw [mergeItems]
      cases i with
      | zero => rfl
      | succ i => simpa using ih [] i
    | cons existing others =>
      rw [mergeItems]
      cases i with
      | zero => rfl
      | succ i => simpa using ih others i

/-- A merged array is as long as the longer one. -/
theorem length_mergeItems (source target : List Json) :
    (mergeItems target source).length = max target.length source.length := by
  induction source generalizing target with
  | nil => simp [mergeItems]
  | cons value rest ih =>
    cases target with
    | nil => simp [mergeItems, ih]
    | cons existing others =>
      simp only [mergeItems, List.length_cons, ih]
      omega

/-! ## §3. One value over another. -/

/-- A value that is no container of the kind of the lower one replaces it. -/
theorem merge_of_kind {source target : Json}
    (h : source.kind = .scalar ∨ target.kind ≠ source.kind) : target.merge source = source := by
  cases source with
  | arr items => cases target <;> simp [kind] at h <;> simp [merge]
  | obj members => cases target <;> simp [kind] at h <;> simp [merge]
  | null | bool _ | num _ | str _ => rw [merge]

/-- A merged value has the kind of the upper one. -/
theorem kind_merge (source target : Json) : (target.merge source).kind = source.kind := by
  cases source <;> cases target <;> simp [merge, kind]

/-- **Containers of one kind are laid over each other child by child.** -/
theorem child?_merge {source target : Json} (hw : source.WellFormed)
    (hkind : target.kind = source.kind) (hscalar : source.kind ≠ .scalar) (step : Step) :
    (target.merge source).child? step = overlay (target.child? step) (source.child? step) := by
  cases source with
  | obj above =>
    cases target <;> simp [kind] at hkind
    next below =>
      rw [merge]
      cases step with
      | key name => exact find?_mergeMembers hw.1 below name
      | index i => rfl
  | arr above =>
    cases target <;> simp [kind] at hkind
    next below =>
      rw [merge]
      cases step with
      | key name => rfl
      | index i => exact getElem?_mergeItems above below i
  | null | bool _ | num _ | str _ => exact absurd rfl hscalar

/-- **The upper value replaces the lower one at a path**: it holds a scalar there, or a container
of another kind than what the lower value holds. -/
def Replaces (source target : Json) (p : Path) : Prop :=
  ∃ above, source.at? p = some above
    ∧ (above.kind = .scalar ∨ ∃ below, target.at? p = some below ∧ below.kind ≠ above.kind)

/-- Below a step into both values, replacing is a matter of the two children. -/
theorem replaces_cons_iff {source target above below : Json} {step : Step} {rest : Path}
    (habove : source.child? step = some above) (hbelow : target.child? step = some below) :
    Replaces source target (step :: rest) ↔ Replaces above below rest := by
  simp only [Replaces, at?_cons, habove, hbelow, Option.bind_some]

/-- A value is replaced at the root when the two are laid over each other as they are. -/
theorem replaces_nil_iff {source target : Json} :
    Replaces source target [] ↔ source.kind = .scalar ∨ target.kind ≠ source.kind := by
  simp [Replaces]

/-- A value that leads one step down is a container, and the step tells its kind. -/
theorem kind_eq_of_child? {v w child other : Json} {step : Step} (hv : v.child? step = some child)
    (hw : w.child? step = some other) : v.kind = w.kind ∧ v.kind ≠ .scalar := by
  cases step <;> cases v <;> simp [child?] at hv <;> cases w <;> simp [child?] at hw <;>
    simp [kind]

/-- Nothing is replaced above a path that leads to something in both values. -/
theorem not_replaces_of_both {source target above below : Json} {p q : Path}
    (habove : source.at? p = some above) (hbelow : target.at? p = some below) (hq : q <+: p)
    (hne : q ≠ p) : ¬Replaces source target q := by
  induction q generalizing source target p with
  | nil =>
    cases p with
    | nil => exact absurd rfl hne
    | cons step rest =>
      rw [at?_cons, Option.bind_eq_some_iff] at habove hbelow
      obtain ⟨child, hchild, -⟩ := habove
      obtain ⟨other, hother, -⟩ := hbelow
      obtain ⟨hkind, hscalar⟩ := kind_eq_of_child? hchild hother
      rw [replaces_nil_iff, not_or, not_not]
      exact ⟨hscalar, hkind.symm⟩
  | cons step q ih =>
    obtain ⟨back, rfl⟩ := hq
    rw [List.cons_append, at?_cons, Option.bind_eq_some_iff] at habove hbelow
    obtain ⟨child, hchild, habove⟩ := habove
    obtain ⟨other, hother, hbelow⟩ := hbelow
    rw [replaces_cons_iff hchild hother]
    refine ih habove hbelow (List.prefix_append q back) fun heq => hne ?_
    rw [List.cons_append, ← heq]

/-- **Below a place where the lower value is replaced** stands what the upper one holds. -/
theorem at?_merge_of_replaced {source target : Json} (hw : source.WellFormed) {p q : Path}
    (hq : q <+: p) (h : Replaces source target q) :
    (target.merge source).at? p = source.at? p := by
  induction q generalizing source target p with
  | nil => rw [merge_of_kind (replaces_nil_iff.mp h)]
  | cons step q ih =>
    obtain ⟨back, rfl⟩ := hq
    by_cases hroot : source.kind = .scalar ∨ target.kind ≠ source.kind
    · rw [merge_of_kind hroot]
    · rw [not_or, not_not] at hroot
      rw [List.cons_append, at?_cons, at?_cons, child?_merge hw hroot.2 hroot.1]
      -- the upper value leads further, the lower one may not
      cases habove : source.child? step with
      | none =>
        obtain ⟨above, hat, -⟩ := h
        rw [at?_cons, habove] at hat
        exact absurd hat (by simp)
      | some above =>
        cases hbelow : target.child? step with
        | none => rfl
        | some below =>
          exact ih (hw.child habove) (List.prefix_append q back)
            ((replaces_cons_iff habove hbelow).mp h)

/-- **At a path above which nothing is replaced** the two values are laid over each other. -/
theorem at?_merge_of_not_replaced {source target : Json} (hw : source.WellFormed) {p : Path}
    (h : ∀ q, q <+: p → q ≠ p → ¬Replaces source target q) :
    (target.merge source).at? p = overlay (target.at? p) (source.at? p) := by
  induction p generalizing source target with
  | nil => rfl
  | cons step rest ih =>
    have hroot := h [] List.nil_prefix (by simp)
    rw [replaces_nil_iff, not_or, not_not] at hroot
    rw [at?_cons, at?_cons, at?_cons, child?_merge hw hroot.2 hroot.1]
    cases habove : source.child? step with
    | none => simp
    | some above =>
      cases hbelow : target.child? step with
      | none => simp
      | some below =>
        refine ih (hw.child habove) fun q hq hne => ?_
        rw [← replaces_cons_iff habove hbelow]
        exact h (step :: q) ((List.prefix_cons_inj step).mpr hq) (by simpa using hne)

/-- What both values hold at a path is laid over each other there. -/
theorem at?_merge_of_both {source target above below : Json} (hw : source.WellFormed) {p : Path}
    (habove : source.at? p = some above) (hbelow : target.at? p = some below) :
    (target.merge source).at? p = some (below.merge above) := by
  rw [at?_merge_of_not_replaced hw fun q hq hne => not_replaces_of_both habove hbelow hq hne,
    habove, hbelow]
  rfl

/-! ## §4. What a merged value holds. -/

/-- **What a value holds at a path** when `source` was laid over `target`. -/
structure MergedAt (target source result : Json) (p : Path) : Prop where
  /-- A scalar of the upper value, or one of the lower value that nothing above it replaces. -/
  scalar_iff : ∀ v, v.kind = .scalar → (result.at? p = some v ↔
    source.at? p = some v ∨ (target.at? p = some v ∧ ∀ q, q <+: p → ¬Replaces source target q))
  /-- Two objects: the lower keys in their order, then the keys that only the upper one has. -/
  object : ∀ below above, target.at? p = some (.obj below) → source.at? p = some (.obj above) →
    ∃ members, result.at? p = some (.obj members) ∧ OrderedMap.keys members
      = OrderedMap.keys below
        ++ (OrderedMap.keys above).filter fun key => key ∉ OrderedMap.keys below
  /-- Two arrays: the greater length. -/
  array : ∀ below above, target.at? p = some (.arr below) → source.at? p = some (.arr above) →
    ∃ items, result.at? p = some (.arr items) ∧ items.length = max below.length above.length
  /-- A container over nothing or over a value of another kind: the container as it is. -/
  container : ∀ above, source.at? p = some above → above.kind ≠ .scalar →
    (∀ below, target.at? p = some below → below.kind ≠ above.kind) → result.at? p = some above

/-- Something is replaced above a path, or the two values are laid over each other there. -/
theorem at?_merge_cases {source : Json} (hw : source.WellFormed) (target : Json) (p : Path) :
    ((∃ q, q <+: p ∧ Replaces source target q) ∧ (target.merge source).at? p = source.at? p)
      ∨ ((∀ q, q <+: p → q ≠ p → ¬Replaces source target q)
        ∧ (target.merge source).at? p = overlay (target.at? p) (source.at? p)) := by
  by_cases h : ∃ q, q <+: p ∧ q ≠ p ∧ Replaces source target q
  · obtain ⟨q, hq, -, hr⟩ := h
    exact Or.inl ⟨⟨q, hq, hr⟩, at?_merge_of_replaced hw hq hr⟩
  · have hnone : ∀ q, q <+: p → q ≠ p → ¬Replaces source target q :=
      fun q hq hne hr => h ⟨q, hq, hne, hr⟩
    exact Or.inr ⟨hnone, at?_merge_of_not_replaced hw hnone⟩

/-- A scalar that is laid over another value, or left by it, is one of the two. -/
theorem overlay_eq_scalar_iff {below above : Option Json} {v : Json} (hv : v.kind = .scalar) :
    overlay below above = some v ↔ above = some v ∨ (below = some v ∧ above = none) := by
  cases above with
  | none => simp
  | some above =>
    cases below with
    | none => simp
    | some below =>
      simp only [overlay, Option.some.injEq, reduceCtorEq, and_false, or_false]
      constructor
      · intro h
        have hkind : above.kind = .scalar := by rw [← kind_merge above below, h, hv]
        rw [← h, merge_of_kind (Or.inl hkind)]
      · intro h
        rw [h, merge_of_kind (Or.inl hv)]

/-- A scalar is left at a path exactly when nothing is replaced at it. -/
theorem not_replaces_iff_of_scalar {source target v : Json} {p : Path} (hv : v.kind = .scalar)
    (hbelow : target.at? p = some v) : ¬Replaces source target p ↔ source.at? p = none := by
  constructor
  · intro hno
    cases habove : source.at? p with
    | none => rfl
    | some above =>
      refine absurd ⟨above, habove, ?_⟩ hno
      by_cases hs : above.kind = .scalar
      · exact Or.inl hs
      · exact Or.inr ⟨v, hbelow, fun h => hs (h.symm.trans hv)⟩
  · rintro hnone ⟨above, habove, -⟩
    rw [hnone] at habove
    exact absurd habove (by simp)

/-- **What a merged value holds at each path.** -/
theorem mergedAt_merge {source : Json} (hw : source.WellFormed) (target : Json) (p : Path) :
    MergedAt target source (target.merge source) p where
  scalar_iff := by
    intro v hv
    rcases at?_merge_cases hw target p with ⟨⟨q, hq, hr⟩, hat⟩ | ⟨hnone, hat⟩
    · -- whatever the lower value holds is replaced
      rw [hat]
      exact ⟨Or.inl, fun h => h.elim id fun h => absurd hr (h.2 q hq)⟩
    · rw [hat, overlay_eq_scalar_iff hv]
      refine or_congr_right (and_congr_right fun hbelow => ?_)
      rw [← not_replaces_iff_of_scalar hv hbelow]
      constructor
      · intro hp q hq
        by_cases hqp : q = p
        · exact hqp ▸ hp
        · exact hnone q hq hqp
      · exact fun hno => hno p (List.prefix_refl p)
  object := by
    intro below above hbelow habove
    have hat := at?_merge_of_both hw habove hbelow
    rw [merge] at hat
    exact ⟨_, hat, keys_mergeMembers (hw.at habove).1 below⟩
  array := by
    intro below above hbelow habove
    have hat := at?_merge_of_both hw habove hbelow
    rw [merge] at hat
    exact ⟨_, hat, length_mergeItems above below⟩
  container := by
    intro above habove hscalar hkind
    rcases at?_merge_cases hw target p with ⟨-, hat⟩ | ⟨-, hat⟩
    · rw [hat, habove]
    · rw [hat, habove]
      cases hbelow : target.at? p with
      | none => rfl
      | some below => exact congrArg some (merge_of_kind (Or.inr (hkind below hbelow)))

/-- A description of a service with two servers. -/
def baseDescription : Json :=
  .obj [("info", .obj [("title", .str ""), ("tags", .arr [.str "a"])]),
    ("servers", .arr [.obj [("host", .str "h"), ("tls", .bool true)], .null])]

/-- A change of the description: a new member, a container in the place of another kind, and a third
server. -/
def descriptionLayer : Json :=
  .obj [("servers", .arr [.obj [("port", .null), ("host", .str "g")], .arr [], .bool false]),
    ("info", .obj [("tags", .obj [("b", .null)])])]

/-- The first server keeps its member `tls`: nothing above that place is replaced. -/
theorem mergedAt_merge_descriptionLayer :
    descriptionLayer.WellFormed
      ∧ MergedAt baseDescription descriptionLayer (baseDescription.merge descriptionLayer)
        [.key "servers", .index 0, .key "tls"]
      ∧ (baseDescription.merge descriptionLayer).at? [.key "servers", .index 0, .key "tls"]
        = some (.bool true) :=
  have hw : descriptionLayer.WellFormed := by
    simp [descriptionLayer, WellFormed, WellFormedMembers, WellFormedItems]
  ⟨hw, mergedAt_merge hw baseDescription _, rfl⟩

end AvroSwagger.Json
