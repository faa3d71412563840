import AvroSwagger.OrderedMap
import Mathlib.Data.List.Basic
import Mathlib.Data.List.Induction

/-!
# AvroSwagger.Proofs.OrderedMap

**What a list of writes leaves behind: which keys, which values, in which order.**

`ofList` writes the pairs of a list into an empty map.  A repeated key keeps the
place of its first write and takes the value of its last one, so place and
value come from opposite ends of the list.

Main statements:
  * `find?_ofList`: the value of a key is the one written last;
  * `idxOf_keys_ofList_le_iff`: two keys stand in the order of their first
    writes.
-/

namespace AvroSwagger.OrderedMap

variable {α : Type}

/-! ## §1. Members. -/

/-- A write adds its own pair and no other. -/
theorem mem_of_mem_insert {m : OrderedMap α} {key : String} {value : α} {kv : String × α}
    (h : kv ∈ m.insert key value) : kv = (key, value) ∨ kv ∈ m := by
  induction m with
  | nil =>
    simp only [insert, List.mem_singleton] at h
    exact Or.inl h
  | cons hd rest ih =>
    obtain ⟨k, v⟩ := hd
    simp only [insert] at h
    split at h
    next hk =>
      rcases List.mem_cons.mp h with h | h
      · exact Or.inl (by rw [h, hk])
      · exact Or.inr (List.mem_cons_of_mem _ h)
    next =>
      rcases List.mem_cons.mp h with h | h
      · exact Or.inr (by rw [h]; exact List.mem_cons_self)
      · exact (ih h).imp id (List.mem_cons_of_mem _)

/-- Writing a list of pairs adds no other pair. -/
theorem mem_of_mem_insertAll {pairs : List (String × α)} {m : OrderedMap α} {kv : String × α}
    (h : kv ∈ m.insertAll pairs) : kv ∈ m ∨ kv ∈ pairs := by
  induction pairs generalizing m with
  | nil => exact Or.inl h
  | cons hd rest ih =>
    rcases ih (insertAll_cons m hd rest ▸ h) with h | h
    · rcases mem_of_mem_insert h with h | h
      · exact Or.inr (by rw [h]; exact List.mem_cons_self)
      · exact Or.inl h
    · exact Or.inr (List.mem_cons_of_mem _ h)

/-- A pair that is found is there. -/
theorem mem_of_find?_eq_some {m : OrderedMap α} {key : String} {value : α}
    (h : m.find? key = some value) : (key, value) ∈ m := by
  induction m with
  | nil => simp at h
  | cons hd rest ih =>
    obtain ⟨k, v⟩ := hd
    rw [find?_cons] at h
    split at h
    next hk =>
      injection h with h
      rw [hk, h]
      exact List.mem_cons_self
    next => exact List.mem_cons_of_mem _ (ih h)

/-- Where keys are distinct, each pair is the one found under its key. -/
theorem find?_eq_some_of_mem {m : OrderedMap α} (hnd : m.keys.Nodup) {kv : String × α}
    (h : kv ∈ m) : m.find? kv.1 = some kv.2 := by
  induction m with
  | nil => simp at h
  | cons hd rest ih =>
    obtain ⟨k, v⟩ := hd
    rw [keys_cons, List.nodup_cons] at hnd
    rw [find?_cons]
    rcases List.mem_cons.mp h with h | h
    · rw [h, if_pos rfl]
    · have hk : kv.1 ∈ keys rest := List.mem_map_of_mem h
      have hne : k ≠ kv.1 := by
        intro e
        exact hnd.1 (e ▸ hk)
      rw [if_neg hne, ih hnd.2 h]

/-- Where no key is listed twice, the order does not matter to what is found. -/
theorem find?_eq_of_perm {m m' : OrderedMap α} (hnd : m.keys.Nodup) (h : m.Perm m')
    (key : String) : m.find? key = m'.find? key := by
  have hnd' : m'.keys.Nodup := (h.map Prod.fst).nodup hnd
  refine Option.ext fun v => ?_
  constructor
  · intro hv
    exact find?_eq_some_of_mem hnd' (h.subset (mem_of_find?_eq_some hv))
  · intro hv
    exact find?_eq_some_of_mem hnd (h.symm.subset (mem_of_find?_eq_some hv))

/-- Maps with the same keys in the same order and the same values are equal. -/
theorem eq_of_keys_eq {m m' : OrderedMap α} (hkeys : m.keys = m'.keys) (hnd : m.keys.Nodup)
    (h : ∀ kv ∈ m, m'.find? kv.1 = some kv.2) : m = m' := by
  induction m generalizing m' with
  | nil =>
    have hlen := congrArg List.length hkeys
    simp only [keys, List.length_map, List.length_nil] at hlen
    exact (List.eq_nil_of_length_eq_zero hlen.symm).symm
  | cons hd rest ih =>
    obtain ⟨k, v⟩ := hd
    cases m' with
    | nil => simp at hkeys
    | cons hd' rest' =>
      obtain ⟨k', v'⟩ := hd'
      rw [keys_cons, keys_cons, List.cons.injEq] at hkeys
      obtain ⟨hk, hrest⟩ := hkeys
      rw [keys_cons, List.nodup_cons] at hnd
      have hv := h (k, v) List.mem_cons_self
      rw [find?_cons, if_pos hk.symm] at hv
      have hrec : rest = rest' := by
        refine ih hrest hnd.2 (fun kv hkv => ?_)
        have hf := h kv (List.mem_cons_of_mem _ hkv)
        have hne : k' ≠ kv.1 := by
          intro e
          exact hnd.1 (hk.trans e ▸ List.mem_map_of_mem hkv)
        rwa [find?_cons, if_neg hne] at hf
      injection hv with hv
      simp only at hk
      rw [hk, hrec, hv]

/-- The map with every value replaced by its image. -/
def mapValues {β : Type} (f : α → β) (m : OrderedMap α) : OrderedMap β :=
  m.map fun kv => (kv.1, f kv.2)

theorem find?_mapValues {β : Type} (f : α → β) (m : OrderedMap α) (key : String) :
    (m.mapValues f).find? key = (m.find? key).map f := by
  induction m with
  | nil => rfl
  | cons hd rest ih =>
    obtain ⟨k, v⟩ := hd
    show find? ((k, f v) :: mapValues f rest) key = _
    rw [find?_cons, find?_cons, ih]
    split <;> rfl

theorem mapValues_insert {β : Type} (f : α → β) (m : OrderedMap α) (key : String) (value : α) :
    (m.insert key value).mapValues f = (m.mapValues f).insert key (f value) := by
  induction m with
  | nil => rfl
  | cons hd rest ih =>
    obtain ⟨k, v⟩ := hd
    show mapValues f (insert ((k, v) :: rest) key value)
        = insert ((k, f v) :: mapValues f rest) key (f value)
    simp only [insert]
    split
    · rfl
    · rw [← ih]
      rfl

/-- Of two lists one behind the other the first one wins. -/
theorem find?_append (m m' : OrderedMap α) (key : String) :
    find? (m ++ m') key = (m.find? key).or (m'.find? key) := by
  induction m with
  | nil => simp
  | cons hd rest ih =>
    obtain ⟨k, v⟩ := hd
    rw [List.cons_append, find?_cons, find?_cons, ih]
    split <;> rfl

/-- A key that is kept is found where it was found before. -/
theorem find?_filter (p : String → Bool) (m : OrderedMap α) (key : String) :
    find? (m.filter fun kv => p kv.1) key = if p key then m.find? key else none := by
  induction m with
  | nil => simp
  | cons hd rest ih =>
    obtain ⟨k, v⟩ := hd
    rw [List.filter_cons, find?_cons]
    by_cases hk : k = key
    · cases hp : p key <;> simp [hk, hp, ih, find?_cons]
    · cases hp : p k <;> simp [hk, ih, find?_cons]

theorem keys_filter (p : String → Bool) (m : OrderedMap α) :
    keys (m.filter fun kv => p kv.1) = m.keys.filter p := by
  rw [keys, keys, List.filter_map]
  rfl

/-! ## §2. Writes from the far end. -/

theorem ofList_concat (pairs : List (String × α)) (kv : String × α) :
    ofList (pairs ++ [kv]) = (ofList pairs).insert kv.1 kv.2 := by
  simp [ofList, insertAll, List.foldl_append]

theorem insert_of_not_mem {m : OrderedMap α} {key : String} (h : key ∉ m.keys) (value : α) :
    m.insert key value = m ++ [(key, value)] := by
  induction m with
  | nil => rfl
  | cons kv rest ih =>
    obtain ⟨k, v⟩ := kv
    rw [keys_cons, List.mem_cons, not_or] at h
    rw [insert, if_neg (Ne.symm h.1), ih h.2, List.cons_append]

/-- Pairs with distinct keys are listed as they are. -/
theorem ofList_of_nodup {pairs : List (String × α)} (h : (keys pairs).Nodup) :
    ofList pairs = pairs := by
  induction pairs using List.reverseRecOn with
  | nil => rfl
  | append_singleton pairs kv ih =>
    rw [keys, List.map_append, List.nodup_append] at h
    obtain ⟨hfront, -, hne⟩ := h
    have hnew : kv.1 ∉ keys pairs := fun hk => hne kv.1 hk kv.1 (by simp) rfl
    rw [ofList_concat, ih hfront, insert_of_not_mem hnew]

/-- The keys are the names written. -/
theorem mem_keys_ofList {pairs : List (String × α)} {key : String} :
    key ∈ (ofList pairs).keys ↔ key ∈ pairs.map Prod.fst := by
  induction pairs using List.reverseRecOn with
  | nil => simp [ofList, insertAll]
  | append_singleton pairs kv ih =>
    rw [ofList_concat, keys_insert, List.map_append, List.mem_append]
    split
    next hk =>
      simp only [List.map_cons, List.map_nil, List.mem_singleton]
      rw [ih]
      exact ⟨Or.inl, fun h => h.elim id (fun e => ih.mp (e ▸ hk))⟩
    next =>
      rw [List.mem_append, ih]
      simp

/-- **The keys are the names written, each at its first place.** -/
theorem keys_ofList (pairs : List (String × α)) :
    (ofList pairs).keys = (pairs.map Prod.fst).eraseDups := by
  induction pairs using List.reverseRecOn with
  | nil => rfl
  | append_singleton pairs kv ih =>
    rw [ofList_concat, keys_insert, ih, List.map_append, List.eraseDups_append]
    by_cases hk : kv.1 ∈ pairs.map Prod.fst
    · simp [List.removeAll, hk]
    · simp [List.removeAll, hk, List.eraseDups_cons]

/-- The first key written is the first key of the map. -/
theorem head?_keys_ofList_cons (kv : String × α) (pairs : List (String × α)) :
    (ofList (kv :: pairs)).keys.head? = some kv.1 := by
  induction pairs using List.reverseRecOn with
  | nil => simp [ofList, insertAll, insert]
  | append_singleton pairs last ih =>
    rw [← List.cons_append, ofList_concat, keys_insert]
    split
    · exact ih
    · rw [List.head?_append, ih]
      rfl

/-- **The value of a key is the one written last.** -/
theorem find?_ofList (pairs : List (String × α)) (key : String) :
    (ofList pairs).find? key
      = (pairs.reverse.find? (fun kv => kv.1 = key)).map Prod.snd := by
  induction pairs using List.reverseRecOn with
  | nil => simp [ofList, insertAll]
  | append_singleton pairs kv ih =>
    rw [ofList_concat, find?_insert, List.reverse_append, List.reverse_singleton,
      List.singleton_append, List.find?_cons, ih]
    by_cases hk : kv.1 = key <;> simp [hk]

/-- **Two keys stand in the order of their first writes.** -/
theorem idxOf_keys_ofList_le_iff {pairs : List (String × α)} {a b : String}
    (ha : a ∈ pairs.map Prod.fst) (hb : b ∈ pairs.map Prod.fst) :
    (ofList pairs).keys.idxOf a ≤ (ofList pairs).keys.idxOf b
      ↔ (pairs.map Prod.fst).idxOf a ≤ (pairs.map Prod.fst).idxOf b := by
  induction pairs using List.reverseRecOn generalizing a b with
  | nil => simp at ha
  | append_singleton pairs kv ih =>
    have hkeys : (ofList (pairs ++ [kv])).keys
        = if kv.1 ∈ pairs.map Prod.fst then (ofList pairs).keys
          else (ofList pairs).keys ++ [kv.1] := by
      rw [ofList_concat, keys_insert]
      simp only [mem_keys_ofList]
    -- a name written before the last pair keeps its place on both sides
    have hold : ∀ c ∈ pairs.map Prod.fst,
        (ofList (pairs ++ [kv])).keys.idxOf c = (ofList pairs).keys.idxOf c
          ∧ ((pairs ++ [kv]).map Prod.fst).idxOf c = (pairs.map Prod.fst).idxOf c := by
      intro c hc
      constructor
      · rw [hkeys]
        split
        · rfl
        · exact List.idxOf_append_of_mem (mem_keys_ofList.mpr hc)
      · rw [List.map_append]
        exact List.idxOf_append_of_mem hc
    -- a name written by the last pair for the first time stands at the end on both sides
    have hnew : ∀ c, c ∈ (pairs ++ [kv]).map Prod.fst → c ∉ pairs.map Prod.fst →
        (ofList (pairs ++ [kv])).keys.idxOf c = (ofList pairs).keys.length
          ∧ ((pairs ++ [kv]).map Prod.fst).idxOf c = (pairs.map Prod.fst).length := by
      intro c hc hn
      have hck : c = kv.1 := by
        rw [List.map_append, List.mem_append] at hc
        simpa using hc.resolve_left hn
      constructor
      · rw [hkeys, if_neg (hck ▸ hn),
          List.idxOf_append_of_notMem (fun h => hn (mem_keys_ofList.mp h)), hck]
        simp
      · rw [List.map_append, List.idxOf_append_of_notMem hn, hck]
        simp
    have hlt : ∀ c ∈ pairs.map Prod.fst,
        (ofList pairs).keys.idxOf c < (ofList pairs).keys.length
          ∧ (pairs.map Prod.fst).idxOf c < (pairs.map Prod.fst).length :=
      fun c hc => ⟨List.idxOf_lt_length_of_mem (mem_keys_ofList.mpr hc),
        List.idxOf_lt_length_of_mem hc⟩
    by_cases hao : a ∈ pairs.map Prod.fst <;> by_cases hbo : b ∈ pairs.map Prod.fst
    · rw [(hold a hao).1, (hold a hao).2, (hold b hbo).1, (hold b hbo).2]
      exact ih hao hbo
    · rw [(hold a hao).1, (hold a hao).2, (hnew b hb hbo).1, (hnew b hb hbo).2]
      have h := hlt a hao
      omega
    · rw [(hnew a ha hao).1, (hnew a ha hao).2, (hold b hbo).1, (hold b hbo).2]
      have h := hlt b hbo
      omega
    · rw [(hnew a ha hao).1, (hnew a ha hao).2, (hnew b hb hbo).1, (hnew b hb hbo).2]
      simp

/-! ## §3. Writes read backwards. -/

/-- Read backwards, a name stands in front of one whose last place is known exactly when it is
repeated behind that place. -/
theorem idxOf_reverse_le_iff {before after : List String} {last name : String}
    (hlast : last ∉ after) (hne : name ≠ last) :
    (before ++ last :: after).reverse.idxOf name ≤ (before ++ last :: after).reverse.idxOf last
      ↔ name ∈ after := by
  have hrev : (before ++ last :: after).reverse = after.reverse ++ last :: before.reverse := by
    simp
  have hpos : (after.reverse ++ last :: before.reverse).idxOf last = after.length := by
    rw [List.idxOf_append_of_notMem (by simpa using hlast)]
    simp
  rw [hrev, hpos]
  by_cases hin : name ∈ after
  · have hin' : name ∈ after.reverse := List.mem_reverse.mpr hin
    have hlt := List.idxOf_lt_length_of_mem hin'
    rw [List.length_reverse] at hlt
    rw [List.idxOf_append_of_mem hin']
    exact ⟨fun _ => hin, fun _ => by omega⟩
  · rw [List.idxOf_append_of_notMem (by simpa using hin), List.idxOf_cons_ne _ hne.symm,
      List.length_reverse]
    exact ⟨fun h => by omega, fun h => absurd h hin⟩

end AvroSwagger.OrderedMap
