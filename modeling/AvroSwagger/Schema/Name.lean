/-!
# AvroSwagger.Schema.Name

**Dotted names: the short name behind the last dot, the namespace before it.**

A name is qualified by a namespace only if it has no dot of its own and the
namespace is not empty.

Main statement: `shortName_qualify`, qualifying a name without dots keeps its
short name.
-/

namespace AvroSwagger

/-- The characters behind the last dot, or all of them. -/
def afterLastDot (name : List Char) : List Char :=
  (name.reverse.takeWhile (· ≠ '.')).reverse

/-- The part of a name behind its last dot, or the whole name. -/
def shortName (name : String) : String := String.ofList (afterLastDot name.toList)

/-- Whether a name has a namespace of its own. -/
def isDotted (name : String) : Bool := name.toList.contains '.'

/-- The part of a dotted name before its last dot. -/
def namespaceOf (name : String) : String :=
  String.ofList ((name.toList.reverse.dropWhile (· ≠ '.')).drop 1).reverse

/-- The full name of a name read inside a namespace. -/
def qualify (name : String) (space : Option String) : String :=
  match space with
  | some ns => if ns.isEmpty || isDotted name then name else ns ++ "." ++ name
  | none => name

theorem afterLastDot_of_no_dot {name : List Char} (h : '.' ∉ name) : afterLastDot name = name := by
  have hall : ∀ c ∈ name.reverse, decide (c ≠ '.') = true := by
    intro c hc
    have hc' : c ∈ name := by simpa using hc
    simp only [decide_eq_true_eq]
    intro e
    exact h (e ▸ hc')
  unfold afterLastDot
  rw [← List.append_nil name.reverse, List.takeWhile_append_of_pos hall]
  simp

/-- Whatever stands before a dot does not matter to the short name. -/
theorem afterLastDot_append (before name : List Char) (h : '.' ∉ name) :
    afterLastDot (before ++ '.' :: name) = name := by
  have hall : ∀ c ∈ name.reverse, decide (c ≠ '.') = true := by
    intro c hc
    have hc' : c ∈ name := by simpa using hc
    simp only [decide_eq_true_eq]
    intro e
    exact h (e ▸ hc')
  unfold afterLastDot
  rw [List.reverse_append, List.reverse_cons, List.append_assoc,
    List.takeWhile_append_of_pos hall]
  simp

/-- Qualifying a name without dots keeps its short name. -/
theorem shortName_qualify {name : String} (h : isDotted name = false) (space : Option String) :
    shortName (qualify name space) = name := by
  have hdot : '.' ∉ name.toList := by
    intro hm
    simp [isDotted, hm] at h
  unfold qualify
  split
  · split
    · simp [shortName, afterLastDot_of_no_dot hdot]
    · simp [shortName, String.toList_append, afterLastDot_append _ _ hdot]
  · simp [shortName, afterLastDot_of_no_dot hdot]

end AvroSwagger
