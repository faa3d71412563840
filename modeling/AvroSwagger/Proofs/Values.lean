import AvroSwagger.Json.Source
import AvroSwagger.Proofs.OrderedMap

/-!
# AvroSwagger.Proofs.Values

**JSON values and the sources they are read from.**

A source may list a key twice, a value that is read from it does not.  The source
of a value lists what the value holds, so reading it gives the value back; where
no key is listed twice nothing is lost on the way.

Main statements:
  * `wellFormed_of_toJson?`: values that are read are well formed;
  * `toJson?_ofJson`: the source of a well-formed value reads as that value.
-/

namespace AvroSwagger

namespace Json.Source

/-! ## §1. Values that are read. -/

mutual

/-- **Values that are read are well formed.** -/
theorem wellFormed_of_toJson? : ∀ {s : Source} {v : Json}, s.toJson? = some v → v.WellFormed
  | .undefined, _, h => by simp [toJson?] at h
  | .null, _, h | .bool _, _, h | .num _, _, h | .str _, _, h => by
    simp only [toJson?, Option.some.injEq] at h
    rw [← h, WellFormed] <;> simp
  | .arr items, _, h => by
    rw [toJson?, Option.map_eq_some_iff] at h
    obtain ⟨vs, hvs, rfl⟩ := h
    rw [WellFormed, wellFormedItems_iff]
    exact wellFormed_of_itemsToJson? hvs
  | .obj members, _, h => by
    rw [toJson?, Option.map_eq_some_iff] at h
    obtain ⟨ms, hms, rfl⟩ := h
    rw [WellFormed, wellFormedMembers_iff]
    refine ⟨OrderedMap.nodup_keys_ofList ms, fun kv hkv => ?_⟩
    rcases OrderedMap.mem_of_mem_insertAll hkv with hin | hin
    · exact absurd hin (by simp)
    · exact wellFormed_of_membersToJson? hms kv hin

theorem wellFormed_of_itemsToJson? : ∀ {items : List Source} {vs : List Json},
    itemsToJson? items = some vs → ∀ v ∈ vs, v.WellFormed
  | [], _, h => by
    rw [itemsToJson?, Option.some.injEq] at h
    simp [← h]
  | s :: rest, _, h => by
    simp only [itemsToJson?, Option.bind_eq_bind, Option.bind_eq_some_iff,
      Option.some.injEq] at h
    obtain ⟨v, hv, vs, hvs, rfl⟩ := h
    intro w hw
    rcases List.mem_cons.mp hw with rfl | hw
    · exact wellFormed_of_toJson? hv
    · exact wellFormed_of_itemsToJson? hvs w hw

theorem wellFormed_of_membersToJson? : ∀ {members : List (Option String × Source)}
    {ms : List (String × Json)}, membersToJson? members = some ms → ∀ kv ∈ ms, kv.2.WellFormed
  | [], _, h => by
    rw [membersToJson?, Option.some.injEq] at h
    simp [← h]
  | (key, s) :: rest, _, h => by
    simp only [membersToJson?, Option.bind_eq_bind, Option.bind_eq_some_iff,
      Option.some.injEq] at h
    obtain ⟨k, -, v, hv, ms, hms, rfl⟩ := h
    intro kv hkv
    rcases List.mem_cons.mp hkv with rfl | hkv
    · exact wellFormed_of_toJson? hv
    · exact wellFormed_of_membersToJson? hms kv hkv

end

/-! ## §2. Values that are written and read. -/

mutual

/-- **The source of a well-formed value reads as that value.** -/
theorem toJson?_ofJson : ∀ v : Json, v.WellFormed → (ofJson v).toJson? = some v
  | .null, _ | .bool _, _ | .num _, _ | .str _, _ => by rw [ofJson, toJson?]
  | .arr items, h => by
    rw [WellFormed, wellFormedItems_iff] at h
    rw [ofJson, toJson?, itemsToJson?_ofItems items h]
    rfl
  | .obj members, h => by
    rw [WellFormed, wellFormedMembers_iff] at h
    rw [ofJson, toJson?, membersToJson?_ofMembers members h.2, Option.map_some,
      OrderedMap.ofList_of_nodup h.1]

theorem itemsToJson?_ofItems : ∀ items : List Json, (∀ v ∈ items, v.WellFormed) →
    itemsToJson? (ofItems items) = some items
  | [], _ => by rw [ofItems, itemsToJson?]
  | v :: rest, h => by
    rw [ofItems, itemsToJson?, toJson?_ofJson v (h v List.mem_cons_self),
      itemsToJson?_ofItems rest fun w hw => h w (List.mem_cons_of_mem _ hw)]
    rfl

theorem membersToJson?_ofMembers : ∀ members : List (String × Json),
    (∀ kv ∈ members, kv.2.WellFormed) → membersToJson? (ofMembers members) = some members
  | [], _ => by rw [ofMembers, membersToJson?]
  | (key, v) :: rest, h => by
    rw [ofMembers, membersToJson?, toJson?_ofJson v (h (key, v) List.mem_cons_self),
      membersToJson?_ofMembers rest fun kv hkv => h kv (List.mem_cons_of_mem _ hkv)]
    rfl

end

/-- Members read as values, one after the other. -/
theorem readMembers?_toJson? (members : List (Option String × Source)) :
    readMembers? toJson? members = membersToJson? members := by
  induction members with
  | nil => rfl
  | cons kv rest ih =>
    obtain ⟨key, s⟩ := kv
    rw [readMembers?, membersToJson?, ih]

/-! ## §3. The members of an object that is written. -/

theorem ofMembers_eq_map (members : List (String × Json)) :
    ofMembers members = members.map fun kv => (some kv.1, ofJson kv.2) := by
  induction members with
  | nil => rw [ofMembers, List.map_nil]
  | cons kv rest ih => rw [ofMembers, ih, List.map_cons]

theorem lookup?_ofMembers (key : String) (members : List (String × Json)) :
    lookup? key (ofMembers members) = (OrderedMap.find? members key).map ofJson := by
  induction members with
  | nil => rw [ofMembers]; rfl
  | cons kv rest ih =>
    obtain ⟨k, v⟩ := kv
    rw [ofMembers, lookup?, ih, OrderedMap.find?_cons]
    by_cases hk : k = key <;> simp [hk]

/-- Some members of a source are the source of these members. -/
theorem filter_ofMembers (p : String → Bool) (members : List (String × Json)) :
    ((ofMembers members).filter fun kv => p (kv.1.getD ""))
      = ofMembers (members.filter fun kv => p kv.1) := by
  rw [ofMembers_eq_map, ofMembers_eq_map, List.filter_map]
  rfl

end Json.Source

end AvroSwagger
