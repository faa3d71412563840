import AvroSwagger.Proofs.Translation

/-!
# AvroSwagger.Proofs.Comparison

**Comparing definitions, and comparing records apart from their identities.**

The comparison of fragments ignores the order of properties.  For definitions
it is equality all the same, because the list of required names repeats the
property names in order.

Identity labels do not take part in a translation: records that say the same
have the same definition, fail with the same cause, and refer to records that
say the same.

Main statements: `same_iff_eq_of_definition`, `Same.definition_eq`,
`Same.references`.
-/

namespace AvroSwagger

open Swagger

/-! ## §1. The comparison of definitions is equality. -/

namespace Swagger.SchemaObject

/-- A fragment is the same as itself. -/
theorem IsFragment.same_self {a : SchemaObject} (ha : IsFragment a) : a.same a = true := by
  induction ha with
  | scalar t => simp [SchemaObject.scalar, empty, same, sameOptional, sameProperties]
  | reference name => simp [SchemaObject.reference, empty, same, sameOptional, sameProperties]
  | arrayOf _ ih => simp [SchemaObject.arrayOf, empty, same, sameOptional, sameProperties, ih]

/-- What is the same as a fragment is that fragment. -/
theorem IsFragment.eq_of_same {a : SchemaObject} (ha : IsFragment a) :
    ∀ {b : SchemaObject}, a.same b = true → a = b := by
  induction ha with
  | scalar t =>
    rintro ⟨ref, type, items, properties, required⟩ h
    cases items <;> cases properties <;>
      simp_all [SchemaObject.scalar, empty, same, sameOptional, sameProperties]
  | reference name =>
    rintro ⟨ref, type, items, properties, required⟩ h
    cases items <;> cases properties <;>
      simp_all [SchemaObject.reference, empty, same, sameOptional, sameProperties]
  | arrayOf _ ih =>
    rintro ⟨ref, type, items, properties, required⟩ h
    simp only [SchemaObject.arrayOf, empty, same, Bool.and_eq_true, beq_iff_eq] at h
    obtain ⟨⟨⟨⟨hr, ht⟩, hi⟩, hp⟩, hq⟩ := h
    cases items with
    | none => simp [sameOptional] at hi
    | some b =>
      cases properties with
      | some ps => simp [sameProperties] at hp
      | none =>
        rw [sameOptional] at hi
        rw [SchemaObject.arrayOf, empty, ih hi, hr, ht, hq]

theorem propertiesIn_iff {ps qs : OrderedMap SchemaObject} :
    propertiesIn ps qs = true ↔ ∀ kv ∈ ps, ∃ b, qs.find? kv.1 = some b ∧ kv.2.same b = true := by
  induction ps with
  | nil => simp [propertiesIn]
  | cons hd rest ih =>
    obtain ⟨name, a⟩ := hd
    rw [propertiesIn, Bool.and_eq_true, ih, List.forall_mem_cons]
    cases qs.find? name <;> simp

/-- The required names of an object tell its property names. -/
theorem keys_eq_of_required_eq {ps qs : OrderedMap SchemaObject}
    (h : (object ps).required = (object qs).required) : ps.keys = qs.keys := by
  cases ps <;> cases qs <;> simp_all [object, empty, OrderedMap.keys]

/-- Objects over fragments with distinct names are the same only if they are equal: the list
of required names fixes the order that the comparison of the properties leaves open. -/
theorem object_same_iff_eq {ps qs : OrderedMap SchemaObject} (hnd : ps.keys.Nodup)
    (hps : ∀ kv ∈ ps, IsFragment kv.2) : (object ps).same (object qs) = true ↔ ps = qs := by
  have hsame : (object ps).same (object qs) = true
      ↔ ps.length = qs.length ∧ propertiesIn ps qs = true
        ∧ (object ps).required = (object qs).required := by
    simp [object, empty, same, sameOptional, sameProperties, and_assoc]
  rw [hsame, propertiesIn_iff]
  constructor
  · rintro ⟨-, hin, hreq⟩
    refine OrderedMap.eq_of_keys_eq (keys_eq_of_required_eq hreq) hnd (fun kv hkv => ?_)
    obtain ⟨b, hb, hab⟩ := hin kv hkv
    rw [hb, (hps kv hkv).eq_of_same hab]
  · rintro rfl
    refine ⟨rfl, fun kv hkv => ?_, rfl⟩
    exact ⟨kv.2, OrderedMap.find?_eq_some_of_mem hnd hkv, (hps kv hkv).same_self⟩

end Swagger.SchemaObject

/-- **Two definitions are the same exactly when they are equal.** -/
theorem same_iff_eq_of_definition {r s : Record} {v w : SchemaObject} (hv : r.definition = .ok v)
    (hw : s.definition = .ok w) : v.same w = true ↔ v = w := by
  obtain ⟨ps, rfl, hnd, hps⟩ := RecordOf.properties_of_definition hv
  obtain ⟨qs, rfl, -, -⟩ := RecordOf.properties_of_definition hw
  rw [SchemaObject.object_same_iff_eq hnd (fun kv hkv => ?_)]
  · constructor
    · exact fun h => congrArg SchemaObject.object h
    · intro h
      simpa [SchemaObject.object] using congrArg SchemaObject.properties h
  · obtain ⟨f, -, hf⟩ := hps kv hkv
    exact isFragment_of_fragment hf

/-! ## §2. Definitions do not see identities. -/

namespace Schema

mutual

/-- Equal schemas have the same line. -/
theorem display_eq_of_same :
    ∀ (s t : Schema), s.same t = true → s.display = t.display
  | .array a, t, h => by
      cases t with
      | array b =>
        rw [same] at h
        rw [display, display, display_eq_of_same a b h]
      | _ => simp [same] at h
  | .map a, t, h => by
      cases t with
      | map b =>
        rw [same] at h
        rw [display, display, display_eq_of_same a b h]
      | _ => simp [same] at h
  | .union as, t, h => by
      cases t with
      | union bs =>
        rw [same] at h
        rw [display, display, displayBranches_eq_of_same as bs h]
      | _ => simp [same] at h
  | .record r, t, h => by
      cases t with
      | record r' =>
        obtain ⟨id, name, doc, fields⟩ := r
        simp only [same, sameRecord, Bool.and_eq_true, beq_iff_eq] at h
        rw [display, display, h.1.1]
      | _ => simp [same] at h
  | .enum _, t, h | .fixed _, t, h | .named _, t, h | .null, t, h | .boolean, t, h | .int, t, h
  | .long, t, h | .float, t, h | .double, t, h | .bytes, t, h | .string, t, h => by
      cases t <;> simp_all [same]

/-- Equal branches have the same lines. -/
theorem displayBranches_eq_of_same :
    ∀ (as bs : List Schema), sameBranches as bs = true → displayBranches as = displayBranches bs
  | [], [], _ => rfl
  | [], _ :: _, h => by simp [sameBranches] at h
  | _ :: _, [], h => by simp [sameBranches] at h
  | a :: as, b :: bs, h => by
      rw [sameBranches, Bool.and_eq_true] at h
      rw [displayBranches, displayBranches, display_eq_of_same a b h.1,
        displayBranches_eq_of_same as bs h.2]

end

/-- Equal schemas have the same fragment, or none for the same reason. -/
theorem fragment_eq_of_same {s t : Schema} (h : s.same t = true) :
    s.fragment.mapError display = t.fragment.mapError display := by
  fun_induction Schema.core s generalizing t with
  | case1 a ih =>
    cases t with
    | array b =>
      rw [same] at h
      have ih := ih h
      rw [fragment, fragment]
      cases ha : a.fragment <;> cases hb : b.fragment <;> rw [ha, hb] at ih <;>
        simp_all [Except.mapError, bind, Except.bind]
    | _ => simp [same] at h
  | case2 s hs =>
    have hd := display_eq_of_same s t h
    cases s with
    | array a => exact absurd rfl (hs a)
    | record r =>
      cases t with
      | record r' =>
        obtain ⟨id, name, doc, fields⟩ := r
        simp only [same, sameRecord, Bool.and_eq_true, beq_iff_eq] at h
        simp only [fragment, RecordOf.shortName, h.1.1]
      | _ => simp [same] at h
    | _ => cases t <;> simp_all [same, fragment, Except.mapError]

/-- Equal schemas refer to equal records. -/
theorem referenced_of_same {s t : Schema} (h : s.same t = true) :
    List.Forall₂ (fun a b => sameRecord a b = true) s.referenced t.referenced := by
  fun_induction Schema.core s generalizing t with
  | case1 a ih =>
    cases t with
    | array b =>
      rw [same] at h
      rw [referenced, referenced]
      exact ih h
    | _ => simp [same] at h
  | case2 s hs =>
    cases s with
    | array a => exact absurd rfl (hs a)
    | record r =>
      cases t with
      | record r' =>
        rw [same] at h
        exact .cons h .nil
      | _ => simp [same] at h
    | _ => cases t <;> simp_all [same, referenced]

end Schema

namespace RecordOf

/-- Equality of what two records say; identities do not count. -/
def Same (r s : Record) : Prop := Schema.sameRecord r s = true

theorem same_iff {r s : Record} :
    r.Same s ↔ r.fullName = s.fullName ∧ r.doc = s.doc
      ∧ Schema.sameFields r.fields s.fields = true := by
  obtain ⟨id, name, doc, fields⟩ := r
  simp [Same, Schema.sameRecord, and_assoc]

theorem Same.shortName_eq {r s : Record} (h : r.Same s) : r.shortName = s.shortName :=
  congrArg AvroSwagger.shortName (same_iff.mp h).1

/-- Equal lists of fields agree field by field. -/
theorem sameFields_cons_iff {f g : Field Schema} {fs gs : List (Field Schema)} :
    Schema.sameFields (f :: fs) (g :: gs) = true
      ↔ f.name = g.name ∧ f.doc = g.doc ∧ f.type.same g.type = true
        ∧ Schema.sameFields fs gs = true := by
  obtain ⟨name, doc, type⟩ := f
  simp [Schema.sameFields, and_assoc]

/-- **Equal records have the same definition, or none for the same reason.** -/
theorem Same.definition_eq {r s : Record} (h : r.Same s) : r.definition = s.definition := by
  have hof : ∀ (record : String) (fs gs : List (Field Schema)) (written : OrderedMap SchemaObject),
      Schema.sameFields fs gs = true →
        propertiesFrom record written fs = propertiesFrom record written gs := by
    intro record fs
    induction fs with
    | nil =>
      intro gs written hsame
      cases gs with
      | nil => rfl
      | cons g gs => simp [Schema.sameFields] at hsame
    | cons f fs ih =>
      intro gs written hsame
      cases gs with
      | nil => simp [Schema.sameFields] at hsame
      | cons g gs =>
        obtain ⟨hname, -, htype, hrest⟩ := sameFields_cons_iff.mp hsame
        have hfrag := Schema.fragment_eq_of_same htype
        cases hf : f.type.fragment <;> cases hg : g.type.fragment <;> rw [hf, hg] at hfrag <;>
          simp only [Except.mapError, Except.error.injEq, Except.ok.injEq, reduceCtorEq] at hfrag
        · simp only [propertiesFrom, hf, hg, hfrag, hname]
        · simp only [propertiesFrom, hf, hg, hfrag, hname, ih gs _ hrest]
  obtain ⟨hname, -, hfields⟩ := same_iff.mp h
  unfold definition
  rw [hname, hof _ _ _ _ hfields]

/-- **Equal records refer to equal records.** -/
theorem Same.references {r s : Record} (h : r.Same s) :
    List.Forall₂ Same r.references s.references := by
  have hof : ∀ fs gs : List (Field Schema), Schema.sameFields fs gs = true →
      List.Forall₂ Same (referencesOf fs) (referencesOf gs) := by
    intro fs
    induction fs with
    | nil =>
      intro gs hsame
      cases gs with
      | nil => exact .nil
      | cons g gs => simp [Schema.sameFields] at hsame
    | cons f fs ih =>
      intro gs hsame
      cases gs with
      | nil => simp [Schema.sameFields] at hsame
      | cons g gs =>
        obtain ⟨-, -, htype, hrest⟩ := sameFields_cons_iff.mp hsame
        have hfrag := Schema.fragment_eq_of_same htype
        cases hf : f.type.fragment <;> cases hg : g.type.fragment <;> rw [hf, hg] at hfrag <;>
          simp only [Except.mapError, reduceCtorEq] at hfrag
        · simp only [referencesOf, hf, hg]
          exact .nil
        · simp only [referencesOf, hf, hg]
          exact List.rel_append (Schema.referenced_of_same htype) (ih gs hrest)
  exact hof _ _ (same_iff.mp h).2.2

end RecordOf

end AvroSwagger
