import AvroSwagger.Json.Token
import AvroSwagger.Proofs.Comparison
import AvroSwagger.Proofs.RoundTrip

/-!
# AvroSwagger.Proofs.WrittenText

**The text of a value tells the value, the order of its keys included.**

A string ends at the first quotation mark that is not escaped and a container at its
closing bracket, so the text of a value tells where it ends in a longer text.  Numbers
do not: they end where something else begins.  The statements here are about values
without numbers, such as everything that is written of a definition.

The compact and the indented text differ in the blanks between the entries only, and
no entry begins with a blank.  So both are instances of one writer with a layout, and
what is proved about the writer holds of both.

Definitions are the same exactly when their texts are equal.  The comparison passes
over the order of properties and a text does not; but the comparison reads the list of
required names as well, and that list repeats the order.

Main statements:
  * `Json.compact_inj`, `Json.pretty_inj`: a text belongs to one value;
  * `same_iff_text_eq_of_definition`: the comparison of definitions and their texts.
-/

namespace AvroSwagger

namespace Json

open AvroSwagger.Text

/-! ## §1. Texts that tell where they end. -/

/-- **What is written of a value tells the value and its end**, if what stands behind it may be
anything and the other values are of a given kind. -/
def Tells {α : Type} (write : α → List Char) (kind : α → Prop) (a : α) : Prop :=
  ∀ b, kind b → ∀ x y, write a ++ x = write b ++ y → a = b ∧ x = y

/-- The blanks that set the entries of a container apart, by depth, and what stands between a
key and its value. -/
structure Layout where
  gap : Nat → List Char
  colon : List Char
  blank : ∀ depth, ∀ c ∈ gap depth, c = '\n' ∨ c = ' '

namespace Layout

/-- Entries between two brackets; an empty container has no blanks. -/
def container (layout : Layout) (opening closing : Char) (depth : Nat)
    (entries : List (List Char)) : List Char :=
  if entries.isEmpty then [opening, closing]
  else opening :: (layout.gap (depth + 1)
    ++ List.intercalate (',' :: layout.gap (depth + 1)) entries ++ layout.gap depth ++ [closing])

/-- Blanks do not give a text a first character that is no blank. -/
theorem gap_append_ne (layout : Layout) (depth : Nat) {c : Char} (hc : ¬ (c = '\n' ∨ c = ' '))
    {z : List Char} (hz : ∀ y, z ≠ c :: y) (y : List Char) : layout.gap depth ++ z ≠ c :: y := by
  intro h
  cases hgap : layout.gap depth with
  | nil =>
    rw [hgap] at h
    exact hz y h
  | cons b bs =>
    rw [hgap] at h
    have hb := layout.blank depth b (by rw [hgap]; exact List.mem_cons_self)
    rw [List.head_eq_of_cons_eq h] at hb
    exact hc hb

end Layout

variable {α : Type} {write : α → List Char} {kind : α → Prop}

/-- The first entry has no separator in front of it. -/
theorem intercalate_map_cons (separator : List Char) (a : α) (as : List α) :
    List.intercalate separator ((a :: as).map write)
      = write a ++ as.flatMap fun b => separator ++ write b := by
  induction as generalizing a with
  | nil => simp
  | cons b bs ih =>
    rw [List.map_cons, List.map_cons, List.intercalate_cons_cons, ← List.map_cons, ih]
    simp

/-- Entries behind separators, up to an ending that begins with no comma. -/
theorem eq_of_behind_separators {gap ending : List Char}
    (hending : ∀ x y, ending ++ x ≠ ',' :: y) {as bs : List α} {x y : List Char}
    (ha : ∀ a ∈ as, Tells write kind a) (hb : ∀ b ∈ bs, kind b)
    (h : as.flatMap (fun a => (',' :: gap) ++ write a) ++ (ending ++ x)
      = bs.flatMap (fun b => (',' :: gap) ++ write b) ++ (ending ++ y)) : as = bs ∧ x = y := by
  induction as generalizing bs with
  | nil =>
    cases bs with
    | nil => exact ⟨rfl, List.append_cancel_left h⟩
    | cons b bs => exact absurd h (hending _ _)
  | cons a as ih =>
    cases bs with
    | nil => exact absurd h.symm (hending _ _)
    | cons b bs =>
      simp only [List.flatMap_cons, List.append_assoc] at h
      obtain ⟨hfirst, hrest⟩ :=
        ha a List.mem_cons_self b (hb b List.mem_cons_self) _ _ (List.append_cancel_left h)
      obtain ⟨hall, hend⟩ := ih (fun c hc => ha c (List.mem_cons_of_mem _ hc))
        (fun c hc => hb c (List.mem_cons_of_mem _ hc)) hrest
      exact ⟨by rw [hfirst, hall], hend⟩

theorem Layout.container_map_cons (layout : Layout) (opening closing : Char) (depth : Nat) (a : α)
    (as : List α) :
    layout.container opening closing depth ((a :: as).map write)
      = opening :: (layout.gap (depth + 1) ++ (write a
        ++ (as.flatMap (fun b => (',' :: layout.gap (depth + 1)) ++ write b)
          ++ (layout.gap depth ++ [closing])))) := by
  rw [container, if_neg (by simp), intercalate_map_cons]
  simp only [List.append_assoc]

/-- **A container tells its entries and its end**, if no entry begins with its closing bracket. -/
theorem Layout.eq_of_container {layout : Layout} {opening closing : Char} {depth : Nat}
    (hclosing : ¬ (closing = '\n' ∨ closing = ' ') ∧ closing ≠ ',')
    (hopen : ∀ a, kind a → ∀ x y, write a ++ x ≠ closing :: y) {as bs : List α} {x y : List Char}
    (ha : ∀ a ∈ as, kind a ∧ Tells write kind a) (hb : ∀ b ∈ bs, kind b)
    (h : layout.container opening closing depth (as.map write) ++ x
      = layout.container opening closing depth (bs.map write) ++ y) : as = bs ∧ x = y := by
  -- an empty container ends where another one has blanks or an entry
  have hempty : ∀ a, kind a → ∀ rest y, layout.gap (depth + 1) ++ (write a ++ rest) ≠ closing :: y :=
    fun a hka rest => layout.gap_append_ne (depth + 1) hclosing.1 (hopen a hka rest)
  -- the last entry is followed by blanks or the bracket and not by a comma
  have hending : ∀ x y, (layout.gap depth ++ [closing]) ++ x ≠ ',' :: y := by
    intro x y
    rw [List.append_assoc]
    exact layout.gap_append_ne depth (by decide)
      (fun t ht => hclosing.2 (List.head_eq_of_cons_eq ht)) y
  cases as with
  | nil =>
    cases bs with
    | nil => exact ⟨rfl, List.append_cancel_left h⟩
    | cons b bs =>
      rw [container_map_cons, List.cons_append, List.append_assoc, List.append_assoc] at h
      have hrest : closing :: x = _ := List.tail_eq_of_cons_eq h
      exact absurd hrest.symm (hempty b (hb b List.mem_cons_self) _ _)
  | cons a as =>
    cases bs with
    | nil =>
      rw [container_map_cons, List.cons_append, List.append_assoc, List.append_assoc] at h
      have hrest : _ = closing :: y := List.tail_eq_of_cons_eq h
      exact absurd hrest (hempty a (ha a List.mem_cons_self).1 _ _)
    | cons b bs =>
      simp only [container_map_cons, List.cons_append, List.append_assoc] at h
      obtain ⟨hfirst, hrest⟩ := (ha a List.mem_cons_self).2 b (hb b List.mem_cons_self) _ _
        (List.append_cancel_left (List.tail_eq_of_cons_eq h))
      simp only [← List.cons_append, ← List.append_assoc (layout.gap depth)] at hrest
      obtain ⟨hall, hend⟩ := eq_of_behind_separators hending
        (fun c hc => (ha c (List.mem_cons_of_mem _ hc)).2)
        (fun c hc => hb c (List.mem_cons_of_mem _ hc)) hrest
      exact ⟨by rw [hfirst, hall], hend⟩

/-! ## §2. Strings. -/

/-- The character that is written first inside a string, and the text behind it. -/
def charInside? : List Char → Option (Char × List Char)
  | '\\' :: 'u' :: _ :: _ :: high :: low :: rest => do
    let high ← hexValue? high
    let low ← hexValue? low
    some (Char.ofNat (16 * high + low), rest)
  | '\\' :: c :: rest => (Token.unescape? c).map fun u => (u, rest)
  | c :: rest => some (c, rest)
  | [] => none

/-- A control character is read from its two digits. -/
theorem charInside?_digits {n : Nat} (h : n < 256) (rest : List Char) :
    charInside? ('\\' :: 'u' :: '0' :: '0' :: hexDigit (n / 16) :: hexDigit n :: rest)
      = some (Char.ofNat n, rest) := by
  have hhigh : hexValue? (hexDigit (n / 16)) = some (n / 16) := hexValue?_hexDigit (by omega)
  have hlow : hexValue? (hexDigit n) = some (n % 16) := by
    rw [← hexValue?_hexDigit (Nat.mod_lt n (by decide)), hexDigit, hexDigit, Nat.mod_mod]
  rw [charInside?, hhigh, hlow]
  show some (Char.ofNat (16 * (n / 16) + n % 16), rest) = _
  rw [Nat.div_add_mod]

/-- **A character that was written is read**, and what stands behind it is left. -/
theorem charInside?_escapeChar (c : Char) (rest : List Char) :
    charInside? (escapeChar c ++ rest) = some (c, rest) := by
  unfold escapeChar
  split
  next h => rw [h]; rfl
  split
  next h => rw [h]; rfl
  next hslash =>
  split
  next h => rw [h]; rfl
  split
  next h => rw [h]; rfl
  split
  next h => rw [h]; rfl
  split
  next h => rw [h]; rfl
  split
  next h => rw [h]; rfl
  split
  next h =>
    have hread := charInside?_digits (by omega : c.toNat < 256) rest
    rw [Char.ofNat_toNat] at hread
    exact hread
  · -- no other character is a backslash, so it is read as it stands
    rw [List.singleton_append, charInside?]
    · exact fun _ _ _ _ _ h => absurd h hslash
    · exact fun _ _ h => absurd h hslash

/-- No character inside a string begins with a quotation mark. -/
theorem escapeChar_ne_quote (c : Char) (x y : List Char) : escapeChar c ++ x ≠ '"' :: y := by
  intro h
  have hread := charInside?_escapeChar c x
  rw [h] at hread
  have hc : '"' = c := congrArg Prod.fst (Option.some.inj hread)
  rw [← hc] at h
  exact absurd h (by simp [escapeChar])

/-- The characters of a string, up to the quotation mark. -/
theorem eq_of_escaped {as bs x y : List Char}
    (h : as.flatMap escapeChar ++ '"' :: x = bs.flatMap escapeChar ++ '"' :: y) :
    as = bs ∧ x = y := by
  induction as generalizing bs with
  | nil =>
    cases bs with
    | nil => exact ⟨rfl, List.tail_eq_of_cons_eq h⟩
    | cons b bs =>
      rw [List.flatMap_cons, List.append_assoc] at h
      exact absurd h.symm (escapeChar_ne_quote b _ _)
  | cons a as ih =>
    cases bs with
    | nil =>
      rw [List.flatMap_cons, List.append_assoc] at h
      exact absurd h (escapeChar_ne_quote a _ _)
    | cons b bs =>
      rw [List.flatMap_cons, List.flatMap_cons, List.append_assoc, List.append_assoc] at h
      -- both texts give the same first character and the same text behind it
      have hread := charInside?_escapeChar a (as.flatMap escapeChar ++ '"' :: x)
      rw [h, charInside?_escapeChar, Option.some.injEq, Prod.mk.injEq] at hread
      obtain ⟨hall, hend⟩ := ih hread.2.symm
      exact ⟨by rw [hread.1, hall], hend⟩

/-- **A quoted string tells itself and its end.** -/
theorem tells_quoted (s : String) : Tells (fun s => (quoted s).toList) (fun _ => True) s := by
  intro t _ x y h
  simp only [quoted, String.toList_ofList, List.cons_append, List.append_assoc,
    List.cons.injEq, true_and] at h
  obtain ⟨hchars, hend⟩ := eq_of_escaped h
  exact ⟨String.toList_inj.mp hchars, hend⟩

/-! ## §3. One writer for both texts. -/

namespace Layout

mutual

/-- The text of a value that stands at the given depth. -/
def text (layout : Layout) (depth : Nat) : Json → List Char
  | .null => ['n', 'u', 'l', 'l']
  | .bool b => if b then ['t', 'r', 'u', 'e'] else ['f', 'a', 'l', 's', 'e']
  | .num n => (n.text floatStyle).toList
  | .str s => (quoted s).toList
  | .arr items => layout.container '[' ']' depth (layout.itemTexts (depth + 1) items)
  | .obj members => layout.container '\x7b' '\x7d' depth (layout.memberTexts (depth + 1) members)

/-- The texts of the items. -/
def itemTexts (layout : Layout) (depth : Nat) : List Json → List (List Char)
  | [] => []
  | v :: rest => layout.text depth v :: layout.itemTexts depth rest

/-- The texts of the members. -/
def memberTexts (layout : Layout) (depth : Nat) : List (String × Json) → List (List Char)
  | [] => []
  | (key, v) :: rest =>
    ((quoted key).toList ++ (layout.colon ++ layout.text depth v)) :: layout.memberTexts depth rest

end

/-- The text of a member. -/
def memberText (layout : Layout) (depth : Nat) (kv : String × Json) : List Char :=
  (quoted kv.1).toList ++ (layout.colon ++ layout.text depth kv.2)

theorem itemTexts_eq_map (layout : Layout) (depth : Nat) (items : List Json) :
    layout.itemTexts depth items = items.map (layout.text depth) := by
  induction items with
  | nil => rfl
  | cons v rest ih => rw [itemTexts, ih, List.map_cons]

theorem memberTexts_eq_map (layout : Layout) (depth : Nat) (members : List (String × Json)) :
    layout.memberTexts depth members = members.map (layout.memberText depth) := by
  induction members with
  | nil => rfl
  | cons kv rest ih =>
    obtain ⟨key, v⟩ := kv
    rw [memberTexts, ih, List.map_cons, memberText]

/-- The layout without blanks. -/
def tight : Layout where
  gap _ := []
  colon := [':']
  blank _ _ h := absurd h List.not_mem_nil

/-- The layout with entries on lines of their own. -/
def spaced : Layout where
  gap depth := (newline depth).toList
  colon := [':', ' ']
  blank depth c h := by
    rw [newline, String.toList_ofList, List.mem_cons, List.mem_replicate] at h
    exact h.imp_right And.right

theorem tight_container (opening closing : Char) (depth : Nat) (entries : List (List Char)) :
    tight.container opening closing depth entries
      = opening :: (List.intercalate [','] entries ++ [closing]) := by
  cases entries with
  | nil => rfl
  | cons entry rest => simp [container, tight]

theorem spaced_container {opening closing : String} {first last : Char} (depth : Nat)
    (entries : List String) (hopening : opening.toList = [first])
    (hclosing : closing.toList = [last]) :
    (bracketed opening closing depth entries).toList
      = spaced.container first last depth (entries.map String.toList) := by
  cases entries with
  | nil =>
    rw [bracketed, if_pos List.isEmpty_nil, String.toList_append, hopening, hclosing]
    rfl
  | cons entry rest =>
    rw [bracketed, if_neg (by simp), container, if_neg (by simp)]
    simp only [String.toList_append, String.toList_intercalate, hopening, hclosing,
      List.append_assoc, List.singleton_append]
    rfl

mutual

/-- **The compact text is the text without blanks.** -/
theorem toList_compact (depth : Nat) : ∀ v : Json, v.compact.toList = tight.text depth v
  | .null => rfl
  | .bool b => by cases b <;> rfl
  | .num _ => rfl
  | .str _ => rfl
  | .arr items => by
    rw [compact, text, tight_container, String.toList_append, String.toList_append,
      String.toList_intercalate, map_toList_compactItems (depth + 1) items]
    rfl
  | .obj members => by
    rw [compact, text, tight_container, String.toList_append, String.toList_append,
      String.toList_intercalate, map_toList_compactMembers (depth + 1) members]
    rfl

/-- The compact texts of items are their texts without blanks. -/
theorem map_toList_compactItems (depth : Nat) : ∀ items : List Json,
    (compactItems items).map String.toList = tight.itemTexts depth items
  | [] => rfl
  | v :: rest => by
    rw [compactItems, itemTexts, List.map_cons, toList_compact depth v,
      map_toList_compactItems depth rest]

/-- The compact texts of members are their texts without blanks. -/
theorem map_toList_compactMembers (depth : Nat) : ∀ members : List (String × Json),
    (compactMembers members).map String.toList = tight.memberTexts depth members
  | [] => rfl
  | (key, v) :: rest => by
    rw [compactMembers, memberTexts, List.map_cons, String.toList_append, String.toList_append,
      toList_compact depth v, map_toList_compactMembers depth rest, List.append_assoc]
    rfl

end

mutual

/-- **The indented text is the text with entries on lines of their own.** -/
theorem toList_indented (depth : Nat) : ∀ v : Json,
    (v.indented depth).toList = spaced.text depth v
  | .null => by
    rw [indented, text]
    rfl
  | .bool b => by
    rw [indented, text]
    cases b <;> rfl
  | .num _ => by rw [indented, text]
  | .str _ => by rw [indented, text]
  | .arr items => by
    rw [indented, text, ← map_toList_indentedItems (depth + 1) items]
    exact spaced_container depth _ rfl rfl
  | .obj members => by
    rw [indented, text, ← map_toList_indentedMembers (depth + 1) members]
    exact spaced_container depth _ rfl rfl

/-- The indented texts of items. -/
theorem map_toList_indentedItems (depth : Nat) : ∀ items : List Json,
    (indentedItems depth items).map String.toList = spaced.itemTexts depth items
  | [] => rfl
  | v :: rest => by
    rw [indentedItems, itemTexts, List.map_cons, toList_indented depth v,
      map_toList_indentedItems depth rest]

/-- The indented texts of members. -/
theorem map_toList_indentedMembers (depth : Nat) : ∀ members : List (String × Json),
    (indentedMembers depth members).map String.toList = spaced.memberTexts depth members
  | [] => rfl
  | (key, v) :: rest => by
    rw [indentedMembers, memberTexts, List.map_cons, String.toList_append, String.toList_append,
      toList_indented depth v, map_toList_indentedMembers depth rest, List.append_assoc]
    rfl

end

end Layout

/-! ## §4. Values without numbers. -/

/-- No number stands in a value. -/
inductive NumberFree : Json → Prop
  | null : NumberFree .null
  | bool (b : Bool) : NumberFree (.bool b)
  | str (s : String) : NumberFree (.str s)
  | arr {items : List Json} (h : ∀ v ∈ items, NumberFree v) : NumberFree (.arr items)
  | obj {members : List (String × Json)} (h : ∀ kv ∈ members, NumberFree kv.2) :
      NumberFree (.obj members)

/-- The character with which a value begins, if it is no number. -/
def opening : Json → Char
  | .null => 'n'
  | .bool b => if b then 't' else 'f'
  | .num _ => '0'
  | .str _ => '"'
  | .arr _ => '['
  | .obj _ => '\x7b'

theorem quoted_eq_cons (s : String) : ∃ rest, (quoted s).toList = '"' :: rest :=
  ⟨_, by rw [quoted, String.toList_ofList, List.cons_append]⟩

theorem Layout.container_eq_cons (layout : Layout) (opening closing : Char) (depth : Nat)
    (entries : List (List Char)) :
    ∃ rest, layout.container opening closing depth entries = opening :: rest := by
  unfold container
  split
  · exact ⟨_, rfl⟩
  · exact ⟨_, rfl⟩

/-- A text begins with the opening character of its value. -/
theorem NumberFree.text_eq_cons {v : Json} (h : v.NumberFree) (layout : Layout) (depth : Nat) :
    ∃ rest, layout.text depth v = v.opening :: rest := by
  cases h with
  | null => exact ⟨_, rfl⟩
  | bool b => cases b <;> exact ⟨_, rfl⟩
  | str s => exact quoted_eq_cons s
  | arr => exact layout.container_eq_cons _ _ _ _
  | obj => exact layout.container_eq_cons _ _ _ _

/-- Texts that begin alike are of values that begin with the same character. -/
theorem NumberFree.opening_eq {v w : Json} (hv : v.NumberFree) (hw : w.NumberFree)
    {layout : Layout} {depth : Nat} {x y : List Char}
    (h : layout.text depth v ++ x = layout.text depth w ++ y) : v.opening = w.opening := by
  obtain ⟨r, hr⟩ := hv.text_eq_cons layout depth
  obtain ⟨t, ht⟩ := hw.text_eq_cons layout depth
  rw [hr, ht] at h
  exact List.head_eq_of_cons_eq h

/-- No value begins with a closing bracket. -/
theorem NumberFree.text_append_ne {v : Json} (hv : v.NumberFree) (layout : Layout) (depth : Nat)
    (x y : List Char) : layout.text depth v ++ x ≠ ']' :: y := by
  intro h
  obtain ⟨rest, hrest⟩ := hv.text_eq_cons layout depth
  rw [hrest] at h
  have hopening : v.opening = ']' := List.head_eq_of_cons_eq h
  cases v with
  | bool b => cases b <;> simp [opening] at hopening
  | _ => simp [opening] at hopening

/-- No member begins with a closing bracket. -/
theorem Layout.memberText_append_ne (layout : Layout) (depth : Nat) (kv : String × Json)
    (x y : List Char) : layout.memberText depth kv ++ x ≠ '\x7d' :: y := by
  intro h
  obtain ⟨rest, hrest⟩ := quoted_eq_cons kv.1
  rw [memberText, hrest] at h
  exact absurd (List.head_eq_of_cons_eq h) (by decide)

/-- A member tells itself and its end if its value does. -/
theorem tells_memberText {layout : Layout} {depth : Nat} {kv : String × Json}
    (h : Tells (layout.text depth) NumberFree kv.2) :
    Tells (layout.memberText depth) (fun kv => kv.2.NumberFree) kv := by
  intro other hother x y htext
  simp only [Layout.memberText, List.append_assoc] at htext
  obtain ⟨hkey, hrest⟩ := tells_quoted kv.1 other.1 trivial _ _ htext
  obtain ⟨hvalue, hend⟩ := h other.2 hother _ _ (List.append_cancel_left hrest)
  exact ⟨Prod.ext hkey hvalue, hend⟩

/-- **The text of a value without numbers tells the value and its end.** -/
theorem NumberFree.tells {v : Json} (hv : v.NumberFree) (layout : Layout) (depth : Nat) :
    Tells (layout.text depth) NumberFree v := by
  -- the first character tells which constructor the other value is built with
  induction hv generalizing depth with
  | null =>
    intro w hw x y h
    have hopening := NumberFree.null.opening_eq hw h
    cases hw with
    | null => exact ⟨rfl, List.append_cancel_left h⟩
    | bool c => cases c <;> simp [opening] at hopening
    | _ => simp [opening] at hopening
  | bool b =>
    intro w hw x y h
    have hopening := (NumberFree.bool b).opening_eq hw h
    cases hw with
    | bool c =>
      have hbc : b = c := by cases b <;> cases c <;> simp_all [opening]
      subst hbc
      exact ⟨rfl, List.append_cancel_left h⟩
    | _ => cases b <;> simp [opening] at hopening
  | str s =>
    intro w hw x y h
    have hopening := (NumberFree.str s).opening_eq hw h
    cases hw with
    | str t =>
      obtain ⟨hst, hend⟩ := tells_quoted s t trivial x y h
      exact ⟨congrArg Json.str hst, hend⟩
    | bool c => cases c <;> simp [opening] at hopening
    | _ => simp [opening] at hopening
  | arr hitems ih =>
    intro w hw x y h
    have hopening := (NumberFree.arr hitems).opening_eq hw h
    cases hw with
    | arr hothers =>
      rw [Layout.text, Layout.text, Layout.itemTexts_eq_map, Layout.itemTexts_eq_map] at h
      obtain ⟨hall, hend⟩ := Layout.eq_of_container (by decide)
        (fun v hv => hv.text_append_ne layout (depth + 1))
        (fun v hv => ⟨hitems v hv, ih v hv (depth + 1)⟩) hothers h
      exact ⟨congrArg Json.arr hall, hend⟩
    | bool c => cases c <;> simp [opening] at hopening
    | _ => simp [opening] at hopening
  | obj hmembers ih =>
    intro w hw x y h
    have hopening := (NumberFree.obj hmembers).opening_eq hw h
    cases hw with
    | obj hothers =>
      rw [Layout.text, Layout.text, Layout.memberTexts_eq_map, Layout.memberTexts_eq_map] at h
      have hmember : ∀ kv ∈ _, kv.2.NumberFree
          ∧ Tells (layout.memberText (depth + 1)) (fun kv => kv.2.NumberFree) kv :=
        fun kv hkv => ⟨hmembers kv hkv, tells_memberText (ih kv hkv (depth + 1))⟩
      obtain ⟨hall, hend⟩ := Layout.eq_of_container (by decide)
        (fun kv _ => layout.memberText_append_ne (depth + 1) kv) hmember hothers h
      exact ⟨congrArg Json.obj hall, hend⟩
    | bool c => cases c <;> simp [opening] at hopening
    | _ => simp [opening] at hopening

/-- A text, the whole of it, is of one value. -/
theorem NumberFree.eq_of_text_eq {v w : Json} (hv : v.NumberFree) (hw : w.NumberFree)
    (layout : Layout) (depth : Nat) (h : layout.text depth v = layout.text depth w) : v = w :=
  (hv.tells layout depth w hw [] [] (by rw [h])).1

/-- **A compact text belongs to one value without numbers.** -/
theorem compact_inj {v w : Json} (hv : v.NumberFree) (hw : w.NumberFree) :
    v.compact = w.compact ↔ v = w := by
  refine ⟨fun h => hv.eq_of_text_eq hw .tight 0 ?_, congrArg compact⟩
  rw [← Layout.toList_compact, ← Layout.toList_compact, h]

/-- **An indented text belongs to one value without numbers.** -/
theorem pretty_inj {v w : Json} (hv : v.NumberFree) (hw : w.NumberFree) :
    v.pretty = w.pretty ↔ v = w := by
  refine ⟨fun h => hv.eq_of_text_eq hw .spaced 0 ?_, congrArg pretty⟩
  rw [← Layout.toList_indented, ← Layout.toList_indented, ← pretty, ← pretty, h]

end Json

/-! ## §5. Definitions. -/

namespace Swagger.SchemaObject

open AvroSwagger.Json (NumberFree)

theorem numberFree_stringList (items : List String) : (stringList items).NumberFree := by
  refine .arr fun v hv => ?_
  obtain ⟨s, -, rfl⟩ := List.mem_map.mp hv
  exact .str s

theorem numberFree_of_mem_optionalMember {key : String} {value : Option Json}
    (h : ∀ v, value = some v → v.NumberFree) :
    ∀ kv ∈ optionalMember key value, kv.2.NumberFree := by
  cases value with
  | none => exact fun _ hkv => absurd hkv List.not_mem_nil
  | some v =>
    intro kv hkv
    rw [List.mem_singleton.mp hkv]
    exact h v rfl

mutual

/-- **Nothing that is written of a fragment is a number.** -/
theorem numberFree_toJson : ∀ o : SchemaObject, o.toJson.NumberFree
  | ⟨ref, type, items, properties, required⟩ => by
    rw [toJson]
    refine .obj fun kv hkv => ?_
    simp only [List.mem_append] at hkv
    rcases hkv with (((href | htype) | hitems) | hproperties) | hrequired
    · refine numberFree_of_mem_optionalMember (fun v hv => ?_) kv href
      obtain ⟨s, -, rfl⟩ := Option.map_eq_some_iff.mp hv
      exact .str s
    · refine numberFree_of_mem_optionalMember (fun v hv => ?_) kv htype
      obtain ⟨t, -, rfl⟩ := Option.map_eq_some_iff.mp hv
      exact .str t.name
    · exact numberFree_of_mem_optionalMember (numberFree_optionalToJson items) kv hitems
    · exact numberFree_of_mem_optionalMember (numberFree_propertiesToJson? properties) kv
        hproperties
    · refine numberFree_of_mem_optionalMember (fun v hv => ?_) kv hrequired
      obtain ⟨names, -, rfl⟩ := Option.map_eq_some_iff.mp hv
      exact numberFree_stringList names

/-- Nothing in the item part is a number. -/
theorem numberFree_optionalToJson : ∀ (items : Option SchemaObject) (v : Json),
    optionalToJson items = some v → v.NumberFree
  | none, v, h => by simp [optionalToJson] at h
  | some o, v, h => by
    rw [optionalToJson] at h
    exact Option.some.inj h ▸ numberFree_toJson o

/-- Nothing in the property part is a number. -/
theorem numberFree_propertiesToJson? :
    ∀ (properties : Option (List (String × SchemaObject))) (v : Json),
      propertiesToJson? properties = some v → v.NumberFree
  | none, v, h => by simp [propertiesToJson?] at h
  | some ps, v, h => by
    rw [propertiesToJson?] at h
    exact Option.some.inj h ▸ .obj (numberFree_of_mem_propertiesToJson ps)

/-- Nothing in a property is a number. -/
theorem numberFree_of_mem_propertiesToJson : ∀ ps : List (String × SchemaObject),
    ∀ kv ∈ propertiesToJson ps, kv.2.NumberFree
  | [], kv, h => by simp [propertiesToJson] at h
  | (name, o) :: rest, kv, h => by
    rw [propertiesToJson, List.mem_cons] at h
    rcases h with rfl | h
    · exact numberFree_toJson o
    · exact numberFree_of_mem_propertiesToJson rest kv h

end

/-- Fragments of types list no property. -/
theorem IsFragment.wellFormed {a : SchemaObject} (h : IsFragment a) : a.WellFormed := by
  induction h with
  | scalar t => exact ⟨trivial, trivial⟩
  | reference name => exact ⟨trivial, trivial⟩
  | arrayOf _ ih => exact ⟨ih, trivial⟩

/-- **Well-formed fragments are told apart by what is written of them.** -/
theorem toJson_inj {a b : SchemaObject} (ha : a.WellFormed) (hb : b.WellFormed) :
    a.toJson = b.toJson ↔ a = b := by
  refine ⟨fun h => ?_, congrArg toJson⟩
  have hread : Json.Source.Restores ofSource? toJson a := restores a ha
  rw [Json.Source.Restores, h, restores b hb] at hread
  exact (Option.some.inj hread).symm

end Swagger.SchemaObject

open Swagger

/-- Definitions list no property twice. -/
theorem wellFormed_of_definition {r : Record} {v : SchemaObject} (h : r.definition = .ok v) :
    v.WellFormed := by
  obtain ⟨ps, rfl, hnodup, hps⟩ := RecordOf.properties_of_definition h
  have hall : ∀ qs : List (String × SchemaObject), (∀ kv ∈ qs, kv ∈ ps) →
      SchemaObject.WellFormedProperties qs := by
    intro qs
    induction qs with
    | nil => exact fun _ => trivial
    | cons kv rest ih =>
      intro hin
      obtain ⟨f, -, hf⟩ := hps kv (hin kv List.mem_cons_self)
      exact ⟨(isFragment_of_fragment hf).wellFormed,
        ih fun other hother => hin other (List.mem_cons_of_mem _ hother)⟩
  exact ⟨trivial, hnodup, hall ps fun _ h => h⟩

/-- **Two definitions are the same exactly when their texts are equal**, be they compact or
indented; and then one definition may stand for the other in any document. -/
theorem same_iff_text_eq_of_definition {r s : Record} {v w : SchemaObject}
    (hv : r.definition = .ok v) (hw : s.definition = .ok w) :
    (v.same w = true ↔ v.toJson.compact = w.toJson.compact)
      ∧ (v.same w = true ↔ v.toJson.pretty = w.toJson.pretty)
      ∧ (v.same w = true → v = w) := by
  have hequal : v.same w = true ↔ v = w := same_iff_eq_of_definition hv hw
  have hjson : v.toJson = w.toJson ↔ v = w :=
    SchemaObject.toJson_inj (wellFormed_of_definition hv) (wellFormed_of_definition hw)
  have hcompact := Json.compact_inj (SchemaObject.numberFree_toJson v)
    (SchemaObject.numberFree_toJson w)
  have hpretty := Json.pretty_inj (SchemaObject.numberFree_toJson v)
    (SchemaObject.numberFree_toJson w)
  exact ⟨by rw [hequal, hcompact, hjson], by rw [hequal, hpretty, hjson], hequal.mp⟩

/-- A record that has a field twice. -/
def repeatedField : Record :=
  ⟨0, "shop.Item", none,
    [⟨"count", none, .string⟩, ⟨"tags", none, .array (.array .bytes)⟩, ⟨"count", none, .int⟩]⟩

/-- A record with the fields in another order. -/
def swappedFields : Record :=
  ⟨1, "depot.Item", none, [⟨"tags", none, .array (.array .bytes)⟩, ⟨"count", none, .long⟩]⟩

/-- Properties that differ in their order only. -/
theorem same_iff_text_eq_swappedFields :
    ∃ v w, repeatedField.definition = .ok v ∧ swappedFields.definition = .ok w
      ∧ (v.same w = true ↔ v.toJson.compact = w.toJson.compact)
      ∧ (v.same w = true ↔ v.toJson.pretty = w.toJson.pretty)
      ∧ (v.same w = true → v = w) :=
  ⟨_, _, rfl, rfl,
    same_iff_text_eq_of_definition (r := repeatedField) (s := swappedFields) rfl rfl⟩

end AvroSwagger
