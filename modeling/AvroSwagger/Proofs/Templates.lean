import AvroSwagger.Generation.Document
import AvroSwagger.Swagger.Template
import AvroSwagger.Proofs.Layering
import AvroSwagger.Proofs.Values

/-!
# AvroSwagger.Proofs.Templates

**A template may be read first or laid over a document as it was given.**

Reading a template and writing it moves the members under its four known keys to
the front and leaves the others in their order (`moveToFront`).  That other order
does not show in a merged object as long as the keys that were moved are keys of the
lower object: these keep their places, and new keys follow in the order of the
upper object.  A document has all four keys.

A member that is `null` is different: read as a part it is absent, but laid over a
document it replaces what is there.

Main statements:
  * `Swagger.Template.toJson_eq_moveToFront`: what is written of a template that was read;
  * `Json.mergeMembers_moveToFront`: an upper object with some members moved;
  * `assemble_toJson_of_ofSource?`: the two ways give one document.
-/

namespace AvroSwagger

/-! ## §1. Members moved to the front. -/

namespace OrderedMap

variable {α : Type}

/-- The map with the members under some keys moved to the front, in the order of these keys. -/
def moveToFront (front : List String) (m : OrderedMap α) : OrderedMap α :=
  front.filterMap (fun key => (m.find? key).map fun value => (key, value))
    ++ m.filter fun kv => !front.contains kv.1

/-- The members picked out for the front are found under their keys. -/
theorem find?_filterMap_find? (front : List String) (m : OrderedMap α) (key : String) :
    find? (front.filterMap fun k => (m.find? k).map fun value => (k, value)) key
      = if key ∈ front then m.find? key else none := by
  induction front with
  | nil => simp
  | cons k rest ih =>
    rw [List.filterMap_cons]
    by_cases hk : k = key
    · subst hk
      cases hfind : m.find? k with
      | none => simp [ih, hfind]
      | some value => simp [find?_cons]
    · cases hfind : m.find? k with
      | none => simp [ih, Ne.symm hk]
      | some value => simp [ih, find?_cons, hk, Ne.symm hk]

/-- **Moving members changes no binding.** -/
theorem find?_moveToFront (front : List String) (m : OrderedMap α) (key : String) :
    (moveToFront front m).find? key = m.find? key := by
  rw [moveToFront, find?_append, find?_filterMap_find?, find?_filter (fun k => !front.contains k)]
  by_cases hk : key ∈ front
  · cases m.find? key <;> simp [hk]
  · simp [hk]

/-- The keys picked out for the front are those of them that the map has. -/
theorem keys_filterMap_find? (front : List String) (m : OrderedMap α) :
    keys (front.filterMap fun k => (m.find? k).map fun value => (k, value))
      = front.filter fun key => (m.find? key).isSome := by
  induction front with
  | nil => rfl
  | cons k rest ih =>
    rw [List.filterMap_cons, List.filter_cons]
    cases hfind : m.find? k <;> simp [ih]

theorem keys_moveToFront (front : List String) (m : OrderedMap α) :
    (moveToFront front m).keys = (front.filter fun key => (m.find? key).isSome)
      ++ m.keys.filter fun key => !front.contains key := by
  rw [← keys_filterMap_find?, ← keys_filter fun key => !front.contains key]
  exact List.map_append

/-- Moving members lists no key twice. -/
theorem nodup_keys_moveToFront {front : List String} (hfront : front.Nodup) {m : OrderedMap α}
    (h : m.keys.Nodup) : (moveToFront front m).keys.Nodup := by
  rw [keys_moveToFront, List.nodup_append]
  refine ⟨hfront.filter _, h.filter _, ?_⟩
  rintro a ha b hb rfl
  have hin := (List.mem_filter.mp ha).1
  have hout := (List.mem_filter.mp hb).2
  simp [hin] at hout

end OrderedMap

/-! ## §2. An upper object with members moved. -/

namespace Json

/-- **A merged object depends on the bindings of the upper one and on the order of its new keys
only.** -/
theorem mergeMembers_congr {target : OrderedMap Json} {source source' : List (String × Json)}
    (htarget : target.keys.Nodup) (hnd : (OrderedMap.keys source).Nodup)
    (hnd' : (OrderedMap.keys source').Nodup)
    (hfind : ∀ key, OrderedMap.find? source key = OrderedMap.find? source' key)
    (hnew : ((OrderedMap.keys source).filter fun key => key ∉ target.keys)
      = (OrderedMap.keys source').filter fun key => key ∉ target.keys) :
    mergeMembers target source = mergeMembers target source' := by
  have hkeys : (mergeMembers target source).keys.Nodup := by
    rw [keys_mergeMembers hnd, List.nodup_append]
    refine ⟨htarget, hnd.filter _, ?_⟩
    rintro a ha b hb rfl
    have hout := (List.mem_filter.mp hb).2
    simp [ha] at hout
  refine OrderedMap.eq_of_keys_eq ?_ hkeys fun kv hkv => ?_
  · rw [keys_mergeMembers hnd, keys_mergeMembers hnd', hnew]
  · rw [find?_mergeMembers hnd', ← hfind, ← find?_mergeMembers hnd]
    exact OrderedMap.find?_eq_some_of_mem hkeys hkv

/-- **Keys that the lower object has may be moved in the upper one.** -/
theorem mergeMembers_moveToFront {target : OrderedMap Json} {source : List (String × Json)}
    {front : List String} (htarget : target.keys.Nodup) (hnd : (OrderedMap.keys source).Nodup)
    (hfront : front.Nodup) (hsub : ∀ key ∈ front, key ∈ target.keys) :
    mergeMembers target (OrderedMap.moveToFront front source) = mergeMembers target source := by
  refine mergeMembers_congr htarget (OrderedMap.nodup_keys_moveToFront hfront hnd) hnd
    (OrderedMap.find?_moveToFront front source) ?_
  -- none of the keys that were moved is new
  rw [OrderedMap.keys_moveToFront, List.filter_append, List.filter_filter, List.filter_filter]
  have hnone : (front.filter fun key =>
      decide (key ∉ target.keys) && (OrderedMap.find? source key).isSome) = [] := by
    rw [List.filter_eq_nil_iff]
    intro key hkey
    simp [hsub key hkey]
  rw [hnone, List.nil_append]
  refine List.filter_congr fun key _ => ?_
  by_cases hkey : key ∈ front
  · simp [hsub key hkey]
  · simp [hkey]

end Json

/-! ## §3. Parts that are read and written. -/

namespace Json.Source

/-- A string that is read is written as it was. -/
theorem str_of_string? {v : Json} {s : String} (h : string? (ofJson v) = some s) : .str s = v := by
  cases v <;> simp [ofJson, string?] at h
  rw [h]

/-- An object that is read is written as it was. -/
theorem obj_of_object? {v : Json} {members : OrderedMap Json} (hw : v.WellFormed)
    (h : object? (ofJson v) = some members) : .obj members = v := by
  cases v <;> simp [ofJson, object?, mapOf?] at h
  next written =>
    rw [WellFormed, wellFormedMembers_iff] at hw
    rw [readMembers?_toJson?, membersToJson?_ofMembers written hw.2] at h
    obtain ⟨ms, hms, rfl⟩ := h
    injection hms with hms
    rw [← hms, OrderedMap.ofList_of_nodup hw.1]

/-- A list of strings that is read is written as it was. -/
theorem stringList_of_listOf? {v : Json} {items : List String}
    (h : listOf? string? (ofJson v) = some items) : Swagger.SchemaObject.stringList items = v := by
  cases v <;> simp [ofJson, listOf?] at h
  next written =>
    rw [Swagger.SchemaObject.stringList]
    congr 1
    induction written generalizing items with
    | nil =>
      rw [ofItems] at h
      simp at h
      simp [h]
    | cons v rest ih =>
      rw [ofItems] at h
      simp [List.mapM_cons, Option.bind_eq_some_iff] at h
      obtain ⟨s, hs, ss, hss, rfl⟩ := h
      rw [List.map_cons, ih hss, str_of_string? hs]

/-- **A part that is there and not `null` is written as it was read**, and an absent one is not
written. -/
theorem map_of_optional? {α : Type} {read : Source → Option α} {write : α → Json}
    {part : Option Json} {value : Option α} (hnull : part ≠ some .null)
    (hread : ∀ v a, part = some v → read (ofJson v) = some a → write a = v)
    (h : optional? read (part.map ofJson) = some value) : value.map write = part := by
  cases part with
  | none =>
    injection h with h
    rw [← h]
    rfl
  | some v =>
    have hsome : (read (ofJson v)).map some = some value := by
      cases v with
      | null => exact absurd rfl hnull
      | _ => exact h
    rw [Option.map_eq_some_iff] at hsome
    obtain ⟨a, ha, rfl⟩ := hsome
    exact congrArg some (hread v a rfl ha)

end Json.Source

namespace Swagger.Template

open AvroSwagger.Json (Source)
open SchemaObject (optionalMember)

/-- The members that are moved to the front are written as optional members. -/
theorem filterMap_find?_cons (key : String) (rest : List String) (members : OrderedMap Json) :
    (key :: rest).filterMap (fun k => (members.find? k).map fun value => (k, value))
      = optionalMember key (members.find? key)
        ++ rest.filterMap fun k => (members.find? k).map fun value => (k, value) := by
  rw [List.filterMap_cons]
  cases members.find? key <;> rfl

/-- The members under other keys are kept as they are. -/
theorem ofList_of_readMembers? {members extra : OrderedMap Json}
    (hw : (Json.obj members).WellFormed)
    (h : Source.readMembers? Source.toJson?
        ((Source.ofMembers members).filter fun kv => !knownKeys.contains (kv.1.getD ""))
      = some extra) :
    OrderedMap.ofList extra = members.filter fun kv => !knownKeys.contains kv.1 := by
  rw [Json.WellFormed, Json.wellFormedMembers_iff] at hw
  have hothers := Source.filter_ofMembers (fun key => !knownKeys.contains key) members
  have hvalues : ∀ kv ∈ members.filter fun kv => !knownKeys.contains kv.1, kv.2.WellFormed :=
    fun kv hkv => hw.2 kv (List.mem_of_mem_filter hkv)
  rw [hothers, Source.readMembers?_toJson?, Source.membersToJson?_ofMembers _ hvalues] at h
  injection h with h
  rw [← h]
  refine OrderedMap.ofList_of_nodup ?_
  rw [OrderedMap.keys_filter fun key => !knownKeys.contains key]
  exact hw.1.filter _

/-- **A template that was read is written with its known members in front.** -/
theorem toJson_eq_moveToFront {members : OrderedMap Json} {t : Template}
    (hw : (Json.obj members).WellFormed)
    (hnull : ∀ key ∈ knownKeys, members.find? key ≠ some .null)
    (h : ofSource? (Source.ofJson (.obj members)) = some t) :
    t.toJson = .obj (members.moveToFront knownKeys) := by
  have hvalue : ∀ key v, members.find? key = some v → v.WellFormed := by
    rw [Json.WellFormed, Json.wellFormedMembers_iff] at hw
    exact fun key v hv => hw.2 _ (OrderedMap.mem_of_find?_eq_some hv)
  rw [Source.ofJson, ofSource?] at h
  split at h
  · exact absurd h (by simp)
  simp only [Source.lookup?_ofMembers, Option.bind_eq_bind, Option.bind_eq_some_iff,
    Option.some.injEq] at h
  obtain ⟨info, hinfo, host, hhost, basePath, hbasePath, schemes, hschemes, extra, hextra,
    rfl⟩ := h
  -- each typed part is written as the member that it was read from
  have hinfo : info.map Json.obj = members.find? "info" :=
    Source.map_of_optional? (hnull "info" (by decide))
      (fun v _ hv hread => Source.obj_of_object? (hvalue _ v hv) hread) hinfo
  have hhost : host.map Json.str = members.find? "host" :=
    Source.map_of_optional? (hnull "host" (by decide))
      (fun _ _ _ hread => Source.str_of_string? hread) hhost
  have hbasePath : basePath.map Json.str = members.find? "basePath" :=
    Source.map_of_optional? (hnull "basePath" (by decide))
      (fun _ _ _ hread => Source.str_of_string? hread) hbasePath
  have hschemes : schemes.map SchemaObject.stringList = members.find? "schemes" :=
    Source.map_of_optional? (hnull "schemes" (by decide))
      (fun _ _ _ hread => Source.stringList_of_listOf? hread) hschemes
  rw [toJson, hinfo, hhost, hbasePath, hschemes, ofList_of_readMembers? hw hextra,
    OrderedMap.moveToFront]
  simp only [knownKeys, filterMap_find?_cons, List.filterMap_nil, List.append_nil,
    List.append_assoc]

end Swagger.Template

/-! ## §4. Documents. -/

open Swagger
open AvroSwagger.Json (Source)

/-- The keys of a document, in order. -/
def documentKeys : List String :=
  ["swagger", "info", "host", "basePath", "schemes", "consumes", "produces", "paths",
    "definitions"]

/-- A document has all its keys, whatever stands under them. -/
theorem exists_members_of_document (document : Document) :
    ∃ members, document.toJson = .obj members ∧ OrderedMap.keys members = documentKeys :=
  ⟨_, rfl, rfl⟩

/-- **A template may be read first or laid over a document as it was given**, if none of its known
members is `null`. -/
theorem assemble_toJson_of_ofSource? (document : Document) {raw : Json} {t : Template}
    (hw : raw.WellFormed) (hread : Template.ofSource? (Source.ofJson raw) = some t)
    (hnull : ∀ key ∈ Template.knownKeys, raw.member? key ≠ some .null) :
    ∃ result, assemble document t.toJson = .ok result ∧ assemble document raw = .ok result := by
  cases raw with
  | obj members =>
    refine ⟨document.toJson.merge (.obj members), ?_, rfl⟩
    obtain ⟨lower, hlower, hkeys⟩ := exists_members_of_document document
    rw [Template.toJson_eq_moveToFront hw hnull hread, assemble, hlower, Json.merge, Json.merge]
    rw [Json.WellFormed] at hw
    -- a document has all four known keys, so none of those that were moved is new
    rw [Json.mergeMembers_moveToFront (hkeys ▸ by decide) hw.1 (by decide) (hkeys ▸ by decide)]
  | null | bool _ | num _ | str _ | arr _ => simp [Source.ofJson, Template.ofSource?] at hread

/-- A known member that is `null` says nothing when it is read, but replaces a part of the
document it is laid over. -/
example : Template.ofSource? (Source.ofJson (.obj [("host", .null)])) = some .empty
    ∧ ((Document.around [] []).toJson.merge (.obj [("host", .null)])).member? "host"
      = some .null := ⟨rfl, rfl⟩

/-- A template whose known members stand among others, one of which overrides a generated part. -/
def ownerTemplate : Json :=
  .obj [("x-owner", .str "team"), ("schemes", .arr [.str "http", .str "wss"]),
    ("paths", .obj [("/Ping", .null)]), ("host", .str "h"),
    ("info", .obj [("title", .str "Pings"), ("contact", .obj [("name", .null)])])]

/-- The template that is read. -/
def ownerParts : Template where
  info := some [("title", .str "Pings"), ("contact", .obj [("name", .null)])]
  host := some "h"
  basePath := none
  schemes := some ["http", "wss"]
  extra := [("x-owner", .str "team"), ("paths", .obj [("/Ping", .null)])]

/-- The two ways of laying the template over an empty document agree. -/
theorem assemble_toJson_ownerTemplate :
    ownerTemplate.WellFormed
      ∧ Template.ofSource? (Source.ofJson ownerTemplate) = some ownerParts
      ∧ (∀ key ∈ Template.knownKeys, ownerTemplate.member? key ≠ some .null)
      ∧ ∃ result, assemble (.around [] []) ownerParts.toJson = .ok result
        ∧ assemble (.around [] []) ownerTemplate = .ok result := by
  have hw : ownerTemplate.WellFormed := by
    simp [ownerTemplate, Json.WellFormed, Json.WellFormedMembers, Json.WellFormedItems]
  have hread : Template.ofSource? (Source.ofJson ownerTemplate) = some ownerParts := by rfl
  have hnull : ∀ key ∈ Template.knownKeys, ownerTemplate.member? key ≠ some .null := by
    simp [Template.knownKeys, ownerTemplate, Json.member?, OrderedMap.find?]
  exact ⟨hw, hread, hnull, assemble_toJson_of_ofSource? (.around [] []) hw hread hnull⟩

end AvroSwagger
