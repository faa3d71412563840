import AvroSwagger.Yaml.Token
import AvroSwagger.Yaml.Scalar
import AvroSwagger.Json.Source

/-!
# AvroSwagger.Yaml.Node

**The tree of a YAML document.**

Scalars keep their text, their tag and whether they were unquoted, because the
meaning of a scalar depends on the place where it stands.  An alias is replaced
by a copy of the node that it stands for.  Copies may hold aliases again, even of
the node around them, so depth and number of the copies are limited; what nobody
asks for is not copied at all.

Main definitions: `Node.ofTokens?` for the tree as it is written, `Node.expand`
for the tree without aliases, `Node.parse?` for both.
-/

namespace AvroSwagger.Yaml

/-- A node of a document. -/
inductive Node where
  | scalar (text : String) (plain : Bool) (tag : Option Tag)
  | sequence (items : List Node) (tag : Option Tag)
  | mapping (members : List (Node × Node)) (tag : Option Tag)
  /-- A node with an anchor. -/
  | anchored (number : Nat) (node : Node)
  /-- The node with an anchor of that number. -/
  | aliasOf (number : Nat)

namespace Node

/-- The node where nothing is written. -/
def empty : Node := .scalar "" true none

instance : Inhabited Node := ⟨empty⟩

/-- The text of a scalar. -/
def text? : Node → Option String
  | .scalar text _ _ => some text
  | _ => none

/-! ## §1. From tokens to nodes. -/

/-- A node that was read and the tokens behind it. -/
abbrev Parsed (α : Type) : Type := Option (α × List Token)

/-- What is written in front of a node. -/
structure Properties where
  anchor : Option Nat
  tag : Option Tag

/-- The node with its anchor. -/
def Properties.anchoring (p : Properties) (n : Node) : Node :=
  match p.anchor with
  | some number => .anchored number n
  | none => n

/-- Properties in front of nothing are those of an empty scalar. -/
def Properties.alone (p : Properties) (tokens : List Token) : Parsed Node :=
  if p.anchor.isNone && p.tag.isNone then none
  else some (p.anchoring (.scalar "" true p.tag), tokens)

mutual

/-- Reads the content of a node with the given properties. -/
def parseContent (inBlock entries : Bool) (p : Properties) (tokens : List Token) : Parsed Node :=
  match tokens with
  -- an exclamation mark alone leaves the meaning of a scalar as it is
  | .scalar text plain :: rest =>
    some (p.anchoring (.scalar text plain (p.tag.filter (· ≠ .nonspecific))), rest)
  | .openSequence :: rest =>
    (parseFlowItems rest).map fun (items, rest) => (p.anchoring (.sequence items p.tag), rest)
  | .openMapping :: rest =>
    (parseFlowMembers rest).map fun (members, rest) =>
      (p.anchoring (.mapping members p.tag), rest)
  | .blockSequence :: rest =>
    if !inBlock then p.alone (.blockSequence :: rest)
    else (parseBlockItems rest).map fun (items, rest) =>
      (p.anchoring (.sequence items p.tag), rest)
  | .blockMapping :: rest =>
    if !inBlock then p.alone (.blockMapping :: rest)
    else (parseBlockMembers rest).map fun (members, rest) =>
      (p.anchoring (.mapping members p.tag), rest)
  | .blockEntry :: rest =>
    if !entries then p.alone (.blockEntry :: rest)
    else (parseEntries (.blockEntry :: rest)).map fun (items, rest) =>
      (p.anchoring (.sequence items p.tag), rest)
  | tokens => p.alone tokens
termination_by (tokens.length, 1)

/-- Reads a node that starts with the first token.  A block collection may start only where
`inBlock` holds, and a list of entries without a block of its own only where `entries` does. -/
def parseNode (inBlock entries : Bool) (tokens : List Token) : Parsed Node :=
  match tokens with
  | .aliasOf number :: rest => some (.aliasOf number, rest)
  | .anchor number :: .tag tag :: rest => parseContent inBlock entries ⟨some number, some tag⟩ rest
  | .tag tag :: .anchor number :: rest => parseContent inBlock entries ⟨some number, some tag⟩ rest
  | .anchor number :: rest => parseContent inBlock entries ⟨some number, none⟩ rest
  | .tag tag :: rest => parseContent inBlock entries ⟨none, some tag⟩ rest
  | tokens => parseContent inBlock entries ⟨none, none⟩ tokens
termination_by (tokens.length, 2)

/-- Reads a node unless one of the given tokens shows that none is written. -/
def parseOptional (inBlock entries : Bool) (absentBefore : List Token)
    (tokens : List Token) : Parsed Node :=
  match tokens with
  | [] => some (empty, [])
  | t :: rest =>
    if absentBefore.contains t then some (empty, t :: rest)
    else parseNode inBlock entries (t :: rest)
termination_by (tokens.length, 3)

/-- Reads the entries of a block sequence up to its end. -/
def parseBlockItems (tokens : List Token) : Parsed (List Node) :=
  match tokens with
  | .blockEntry :: rest =>
    match parseOptional true false [.blockEntry, .blockEnd] rest with
    | none => none
    | some (item, behind) =>
      if behind.length ≤ rest.length then
        (parseBlockItems behind).map fun (items, rest) => (item :: items, rest)
      else none
  | .blockEnd :: rest => some ([], rest)
  | _ => none
termination_by (tokens.length, 0)

/-- Reads entries as long as there are some. -/
def parseEntries (tokens : List Token) : Parsed (List Node) :=
  match tokens with
  | .blockEntry :: rest =>
    match parseOptional true false [.blockEntry, .key, .value, .blockEnd] rest with
    | none => none
    | some (item, behind) =>
      if behind.length ≤ rest.length then
        (parseEntries behind).map fun (items, rest) => (item :: items, rest)
      else none
  | rest => some ([], rest)
termination_by (tokens.length, 0)

/-- Reads the value of a block member, if there is one. -/
def parseBlockValue (tokens : List Token) : Parsed Node :=
  match tokens with
  | .value :: rest => parseOptional true true [.key, .value, .blockEnd] rest
  | rest => some (empty, rest)
termination_by (tokens.length, 4)

/-- Reads the members of a block mapping up to its end. -/
def parseBlockMembers (tokens : List Token) : Parsed (List (Node × Node)) :=
  match tokens with
  | .key :: rest =>
    match parseOptional true true [.key, .value, .blockEnd] rest with
    | none => none
    | some (key, behind) =>
      if behind.length ≤ rest.length then
        match parseBlockValue behind with
        | none => none
        | some (value, next) =>
          if next.length ≤ rest.length then
            (parseBlockMembers next).map fun (members, rest) =>
              ((key, value) :: members, rest)
          else none
      else none
  | .blockEnd :: rest => some ([], rest)
  | _ => none
termination_by (tokens.length, 0)

/-- Reads the value of a flow member, if there is one. -/
def parseFlowValue (closing : Token) (tokens : List Token) : Parsed Node :=
  match tokens with
  | .value :: rest => parseOptional false false [.comma, closing] rest
  | rest => some (empty, rest)
termination_by (tokens.length, 4)

/-- Reads the key of an item with a key.  A token in front of which no key is written is
passed over. -/
def parseItemKey (tokens : List Token) : Parsed Node :=
  match tokens with
  | .value :: rest => some (empty, rest)
  | .comma :: rest => some (empty, rest)
  | .closeSequence :: rest => some (empty, rest)
  | tokens => parseNode false false tokens
termination_by (tokens.length, 3)

/-- Reads the items of a flow sequence up to its end, from the start of an item on.  An item
with a key is a mapping with one member. -/
def parseFlowItems (tokens : List Token) : Parsed (List Node) :=
  match tokens with
  | .closeSequence :: rest => some ([], rest)
  | .key :: rest =>
    match parseItemKey rest with
    | none => none
    | some (key, behind) =>
      if behind.length ≤ rest.length then
        match parseFlowValue .closeSequence behind with
        | none => none
        | some (value, next) =>
          if next.length ≤ rest.length then
            (parseMoreItems next).map fun (items, rest) =>
              (.mapping [(key, value)] none :: items, rest)
          else none
      else none
  -- the item is a node of its own, which takes at least one token
  | tokens =>
    match parseNode false false tokens with
    | none => none
    | some (item, next) =>
      if next.length < tokens.length then
        (parseMoreItems next).map fun (items, rest) => (item :: items, rest)
      else none
termination_by (tokens.length, 3)

/-- Reads on behind an item of a flow sequence. -/
def parseMoreItems (tokens : List Token) : Parsed (List Node) :=
  match tokens with
  | .comma :: rest => parseFlowItems rest
  | .closeSequence :: rest => some ([], rest)
  | _ => none
termination_by (tokens.length, 4)

/-- Reads the members of a flow mapping up to its end, from the start of a member on.  A
member without key token is a key without value. -/
def parseFlowMembers (tokens : List Token) : Parsed (List (Node × Node)) :=
  match tokens with
  | .closeMapping :: rest => some ([], rest)
  | .key :: rest =>
    match parseOptional false false [.value, .comma, .closeMapping] rest with
    | none => none
    | some (key, behind) =>
      if behind.length ≤ rest.length then
        match parseFlowValue .closeMapping behind with
        | none => none
        | some (value, next) =>
          if next.length ≤ rest.length then
            (parseMoreMembers next).map fun (members, rest) =>
              ((key, value) :: members, rest)
          else none
      else none
  | tokens =>
    match parseNode false false tokens with
    | none => none
    | some (key, next) =>
      if next.length < tokens.length then
        (parseMoreMembers next).map fun (members, rest) => ((key, empty) :: members, rest)
      else none
termination_by (tokens.length, 3)

/-- Reads on behind a member of a flow mapping. -/
def parseMoreMembers (tokens : List Token) : Parsed (List (Node × Node)) :=
  match tokens with
  | .comma :: rest => parseFlowMembers rest
  | .closeMapping :: rest => some ([], rest)
  | _ => none
termination_by (tokens.length, 4)

end

/-- The one document of a token list; markers may stand around it, and directives in front of
the first marker. -/
def ofTokens? (tokens : List Token) : Option Node := do
  let content := tokens.dropWhile (· = .directive)
  let (root, rest) ← match content with
    | [] => none
    | .documentStart :: rest =>
      parseOptional true false [.directive, .documentStart, .documentEnd] rest
    | content => if content.length < tokens.length then none else parseNode true false content
  if rest.all (· = .documentEnd) then some root else none

/-! ## §2. Without aliases. -/

mutual

/-- A node and the nodes inside it, in the order in which they start. -/
def parts : Node → List Node
  | .scalar text plain tag => [.scalar text plain tag]
  | .sequence items tag => .sequence items tag :: partsOfItems items
  | .mapping members tag => .mapping members tag :: partsOfMembers members
  | .anchored number n => .anchored number n :: n.parts
  | .aliasOf number => [.aliasOf number]

/-- The parts of some items. -/
def partsOfItems : List Node → List Node
  | [] => []
  | n :: rest => n.parts ++ partsOfItems rest

/-- The parts of some members. -/
def partsOfMembers : List (Node × Node) → List Node
  | [] => []
  | (key, n) :: rest => key.parts ++ n.parts ++ partsOfMembers rest

end

/-- The nodes with anchors by their numbers, latest first. -/
def anchorsOf (root : Node) : List (Nat × Node) :=
  (root.parts.filterMap fun
    | .anchored number n => some (number, n)
    | _ => none).reverse

/-- The number of marks that a node leaves in a document: one, or its start and its end. -/
def markCount : Node → Nat
  | .sequence _ _ => 2
  | .mapping _ _ => 2
  | .anchored _ _ => 0
  | _ => 1

/-- The number of copies that may be made in a document: a hundred for each mark. -/
def copyLimit (root : Node) : Nat :=
  100 * root.parts.foldl (fun count n => count + n.markCount) 0

/-- The number of collections that may be nested. -/
def depthLimit : Nat := 128

/-- What stands for a node, and how many copies may still be made. -/
def follow (anchors : List (Nat × Node)) : Node → StateT Nat Option Node
  | .anchored _ n => pure n
  | .aliasOf number => do
    match ← get with
    | 0 => failure
    | left + 1 =>
      set left
      StateT.lift (anchors.lookup number)
  | n => pure n

/-- **A node without aliases**, with collections down to a depth. -/
def expand (anchors : List (Nat × Node)) : Nat → Node → StateT Nat Option Node
  | 0, n => do
    match ← follow anchors n with
    | .scalar text plain tag => pure (.scalar text plain tag)
    | _ => failure
  | depth + 1, n => do
    match ← follow anchors n with
    | .sequence items tag =>
      let items ← items.mapM (expand anchors depth)
      pure (.sequence items tag)
    | .mapping members tag =>
      let members ← members.mapM fun (key, v) => do
        let key ← expand anchors depth key
        let v ← expand anchors depth v
        pure (key, v)
      pure (.mapping members tag)
    | n => pure n

/-- A document without aliases.  What stands under other names than those wanted is left out. -/
def expandRoot (wanted : List String) (root : Node) : Option Node :=
  let anchors := root.anchorsOf
  let expanded : StateT Nat Option Node := do
    match ← follow anchors root with
    | .mapping members tag =>
      let members ← members.mapM fun (key, v) => do
        let key ← expand anchors (depthLimit - 1) key
        let v ← if key.text?.all wanted.contains then expand anchors (depthLimit - 1) v
          else pure empty
        pure (key, v)
      pure (.mapping members tag)
    | n => expand anchors depthLimit n
  expanded.run' root.copyLimit

/-- **The one document of a text**, with what stands under the names that are wanted. -/
def parse? (wanted : List String) (text : String) : Option Node := do
  let tokens ← Token.scan? text
  let root ← ofTokens? tokens
  root.expandRoot wanted

end Node

end AvroSwagger.Yaml
