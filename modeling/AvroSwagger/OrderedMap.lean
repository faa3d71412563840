/-!
# AvroSwagger.OrderedMap

**Maps that remember the order in which their keys first appeared.**

An ordered map is a list of key–value pairs.  Writing a key that is already
there changes its value and keeps its place; a new key goes to the end.  So the
key list of a map only ever grows at its end, and two maps can hold the same
bindings in different orders: `sameBindings` compares them without order.

Main statements: `keys_insert` and `find?_insert` say what one write does,
`nodup_keys_ofList` that every built map has distinct keys.
-/

namespace AvroSwagger

/-- Key–value pairs in order of first appearance of the key. -/
abbrev OrderedMap (α : Type) : Type := List (String × α)

namespace OrderedMap

variable {α β : Type}

/-! ## §1. Operations. -/

/-- The keys, in order. -/
def keys (m : OrderedMap α) : List String := m.map Prod.fst

/-- The value under `key`, if any. -/
def find? (m : OrderedMap α) (key : String) : Option α :=
  match m with
  | [] => none
  | (k, v) :: rest => if k = key then some v else find? rest key

/-- Writes `value` under `key`: in place for a known key, at the end for a new one. -/
def insert (m : OrderedMap α) (key : String) (value : α) : OrderedMap α :=
  match m with
  | [] => [(key, value)]
  | (k, v) :: rest =>
    if k = key then (k, value) :: rest else (k, v) :: insert rest key value

/-- Writes the pairs of a list one after the other. -/
def insertAll (m : OrderedMap α) (pairs : List (String × α)) : OrderedMap α :=
  pairs.foldl (fun acc kv => acc.insert kv.1 kv.2) m

/-- The map of a list of writes: a repeated key keeps its first place and its last value. -/
def ofList (pairs : List (String × α)) : OrderedMap α := insertAll [] pairs

/-! ## §2. One write. -/

@[simp] theorem find?_nil (key : String) : find? ([] : OrderedMap α) key = none := rfl

theorem find?_cons (k : String) (v : α) (m : OrderedMap α) (key : String) :
    find? ((k, v) :: m) key = if k = key then some v else find? m key := rfl

@[simp] theorem keys_nil : keys ([] : OrderedMap α) = [] := rfl

@[simp] theorem keys_cons (kv : String × α) (m : OrderedMap α) :
    keys (kv :: m) = kv.1 :: keys m := rfl

/-- A key is found exactly when it is listed. -/
theorem find?_isSome_iff {m : OrderedMap α} {key : String} :
    (m.find? key).isSome ↔ key ∈ m.keys := by
  induction m with
  | nil => simp
  | cons kv rest ih =>
    obtain ⟨k, v⟩ := kv
    by_cases h : k = key
    · simp [find?_cons, h]
    · simp [find?_cons, h, ih, Ne.symm h]

theorem find?_eq_none_iff {m : OrderedMap α} {key : String} :
    m.find? key = none ↔ key ∉ m.keys := by
  rw [← find?_isSome_iff]; cases m.find? key <;> simp

/-- A write keeps the key list, or adds the new key at its end. -/
theorem keys_insert (m : OrderedMap α) (key : String) (value : α) :
    (m.insert key value).keys = if key ∈ m.keys then m.keys else m.keys ++ [key] := by
  induction m with
  | nil => simp [insert]
  | cons kv rest ih =>
    obtain ⟨k, v⟩ := kv
    by_cases h : k = key
    · simp [insert, h]
    · by_cases hm : key ∈ keys rest <;> simp [insert, h, ih, hm, Ne.symm h]

/-- After a write the key holds the written value and every other key what it held. -/
theorem find?_insert (m : OrderedMap α) (key : String) (value : α) (other : String) :
    (m.insert key value).find? other = if key = other then some value else m.find? other := by
  induction m with
  | nil => simp [insert, find?_cons]
  | cons kv rest ih =>
    obtain ⟨k, v⟩ := kv
    by_cases h : k = key
    · by_cases ho : key = other <;> simp [insert, find?_cons, h, ho]
    · by_cases ho : k = other
      · subst ho; simp [insert, find?_cons, h, Ne.symm h]
      · simp [insert, find?_cons, h, ho, ih]

theorem nodup_keys_insert {m : OrderedMap α} (h : m.keys.Nodup) (key : String) (value : α) :
    (m.insert key value).keys.Nodup := by
  rw [keys_insert]
  split
  · exact h
  · rename_i hk
    rw [List.nodup_append]
    refine ⟨h, by simp, ?_⟩
    intro a ha b hb
    simp only [List.mem_singleton] at hb
    subst hb
    exact fun e => hk (e ▸ ha)

/-! ## §3. Many writes. -/

theorem insertAll_cons (m : OrderedMap α) (kv : String × α) (pairs : List (String × α)) :
    insertAll m (kv :: pairs) = insertAll (m.insert kv.1 kv.2) pairs := rfl

theorem nodup_keys_insertAll {m : OrderedMap α} (h : m.keys.Nodup) (pairs : List (String × α)) :
    (m.insertAll pairs).keys.Nodup := by
  induction pairs generalizing m with
  | nil => exact h
  | cons kv rest ih => exact ih (nodup_keys_insert h kv.1 kv.2)

/-- A map built by writes has distinct keys. -/
theorem nodup_keys_ofList (pairs : List (String × α)) : (ofList pairs).keys.Nodup :=
  nodup_keys_insertAll (by simp) pairs

/-! ## §4. Comparison without order. -/

/-- Whether every pair of the first list is bound to an equal value in the map. -/
def boundIn (eqv : α → β → Bool) : OrderedMap α → OrderedMap β → Bool
  | [], _ => true
  | (k, v) :: rest, other =>
    (match other.find? k with
      | some w => eqv v w
      | none => false) && boundIn eqv rest other

/-- Equality of maps that ignores the order of the keys. -/
def sameBindings (eqv : α → β → Bool) (a : OrderedMap α) (b : OrderedMap β) : Bool :=
  a.length == b.length && boundIn eqv a b

end OrderedMap

end AvroSwagger
