import AvroSwagger.OrderedMap
import AvroSwagger.Yaml.Lexeme

/-!
# AvroSwagger.Yaml.Token

**The tokens of a YAML text: scalars, brackets of flow collections, and the
starts and ends of blocks that indentation implies.**

A block collection starts where a column is deeper than the block around it and
ends where a line starts further left.  A mapping key is recognised only at its
colon: every place where a key may start is remembered as a candidate, and a
colon on the same line turns the latest candidate into a key by placing the key
token in front of what was read since.

Anchors are numbered as they are read, and an alias stands for the number that
its name has at its place.  Tags are known by what they say about a node.
-/

namespace AvroSwagger.Yaml

/-- What a tag says about a node. -/
inductive Tag where
  /-- It is a null, a truth value, an integer or a floating-point number. -/
  | null
  | bool
  | int
  | float
  /-- Nothing: the tag is an exclamation mark alone. -/
  | nonspecific
  /-- It is of a kind that the document's author made up. -/
  | custom
  /-- Any other tag; among them is the tag of strings. -/
  | other
  deriving DecidableEq

/-- The tag of a full name. -/
def Tag.ofName (name : String) : Tag :=
  match name with
  | "tag:yaml.org,2002:null" => .null
  | "tag:yaml.org,2002:bool" => .bool
  | "tag:yaml.org,2002:int" => .int
  | "tag:yaml.org,2002:float" => .float
  | "!" => .nonspecific
  | name => if name.toList.head? = some '!' then .custom else .other

/-- A token. -/
inductive Token where
  | scalar (text : String) (plain : Bool)
  | anchor (number : Nat)
  | aliasOf (number : Nat)
  | tag (tag : Tag)
  | key
  | value
  | blockSequence
  | blockMapping
  | blockEntry
  | blockEnd
  | openSequence
  | closeSequence
  | openMapping
  | closeMapping
  | comma
  | directive
  | documentStart
  | documentEnd
  deriving DecidableEq

/-! ## §1. The state of the scanner. -/

/-- A place where a key may have started. -/
structure Candidate where
  /-- The number of tokens before it. -/
  position : Nat
  index : Nat
  line : Nat
  column : Nat
  /-- Whether nothing but a key can stand there. -/
  required : Bool

/-- **The state of the scanner.** -/
structure Scanner where
  /-- The tokens found, latest first. -/
  tokens : List Token
  /-- The columns of the open blocks, innermost first. -/
  blocks : List Nat
  /-- The key candidate of each open flow collection, innermost first, and of the block
  around them. -/
  candidates : List (Option Candidate)
  /-- Whether a key may start at the next token. -/
  keyAllowed : Bool
  /-- The numbers of the anchors by name. -/
  anchors : OrderedMap Nat
  /-- Whether the version was given. -/
  versioned : Bool
  /-- What handles were said to stand for. -/
  handles : OrderedMap String

namespace Scanner

/-- The state at the start of a text. -/
def start : Scanner := ⟨[], [], [none], true, [], false, []⟩

/-- Whether a flow collection is open. -/
def inFlow (s : Scanner) : Bool := 1 < s.candidates.length

/-- Whether a column is deeper than the innermost block. -/
def isDeeper (s : Scanner) (column : Nat) : Bool :=
  match s.blocks with
  | [] => true
  | c :: _ => c < column

/-- Adds a token. -/
def emit (s : Scanner) (t : Token) : Scanner := { s with tokens := t :: s.tokens }

/-- Places tokens before those that were added since `position` tokens were there. -/
def emitAt (s : Scanner) (position : Nat) (ts : List Token) : Scanner :=
  let since := s.tokens.length - position
  { s with tokens := s.tokens.take since ++ ts.reverse ++ s.tokens.drop since }

/-- Opens a block at a deeper column. -/
def openBlock (s : Scanner) (column : Nat) (t : Token) : Scanner :=
  if !s.inFlow && s.isDeeper column then { s.emit t with blocks := column :: s.blocks } else s

/-- Closes the blocks that are deeper than a column; all of them without one. -/
def closeBlocks (s : Scanner) (column : Option Nat) : Scanner :=
  if s.inFlow then s
  else
    let isOpen (c : Nat) : Bool := match column with
      | some limit => c ≤ limit
      | none => false
    let closing := s.blocks.takeWhile fun c => !isOpen c
    { s with
      tokens := List.replicate closing.length .blockEnd ++ s.tokens
      blocks := s.blocks.drop closing.length }

/-- Replaces the innermost candidate. -/
def setCandidate (s : Scanner) (c : Option Candidate) : Scanner :=
  { s with candidates := c :: s.candidates.drop 1 }

/-- Gives up the innermost candidate; `none` if a key has to be there. -/
def dropCandidate? (s : Scanner) : Option Scanner :=
  match s.candidates with
  | some c :: _ => if c.required then none else some (s.setCandidate none)
  | _ => some s

/-- Remembers that a key may start here. -/
def saveCandidate? (s : Scanner) (p : Placed) : Option Scanner :=
  if s.keyAllowed then do
    let required := !s.inFlow && s.blocks.head? == some p.column
    let s ← s.dropCandidate?
    some (s.setCandidate (some ⟨s.tokens.length, p.index, p.line, p.column, required⟩))
  else some s

/-- Gives up the candidates that lie on earlier lines or too far back. -/
def dropStale? (s : Scanner) (p : Placed) : Option Scanner := do
  let check (candidate : Option Candidate) : Option (Option Candidate) :=
    match candidate with
    | none => some none
    | some c =>
      if c.line < p.line || c.index + 1024 < p.index then
        if c.required then none else some none
      else some (some c)
  let candidates ← s.candidates.mapM check
  some { s with candidates }

/-- Skips blanks, comments and line ends, and a byte order mark at the start of a line, which
takes up a column.  A line end outside flow collections lets a key start; a tab separates
tokens only where no key may start. -/
def skipSpace (inFlow keyAllowed inComment : Bool) : List Placed → Bool × List Placed
  | [] => (keyAllowed, [])
  | p :: rest =>
    if isBreak p.char then skipSpace inFlow (keyAllowed || !inFlow) false rest
    else if inComment then skipSpace inFlow keyAllowed true rest
    else if p.char = '\ufeff' && p.column = 0 then skipSpace inFlow keyAllowed false rest
    else if p.char = ' ' || (p.char = '\t' && (inFlow || !keyAllowed)) then
      skipSpace inFlow keyAllowed false rest
    else if p.char = '#' then skipSpace inFlow keyAllowed true rest
    else (keyAllowed, p :: rest)

/-- A marker at the start of a line ends all blocks. -/
def marker? (s : Scanner) (t : Token) : Option Scanner := do
  let s ← (s.closeBlocks none).dropCandidate?
  some { s.emit t with keyAllowed := false }

/-- Opens a flow collection. -/
def openFlow? (s : Scanner) (p : Placed) (t : Token) : Option Scanner := do
  let s ← s.saveCandidate? p
  some { s.emit t with candidates := none :: s.candidates, keyAllowed := true }

/-- Closes a flow collection. -/
def closeFlow? (s : Scanner) (t : Token) : Option Scanner := do
  let s ← s.dropCandidate?
  let candidates := if s.inFlow then s.candidates.drop 1 else s.candidates
  some { s.emit t with candidates, keyAllowed := false }

/-- An entry of a flow collection ends. -/
def flowEntry? (s : Scanner) : Option Scanner := do
  let s ← s.dropCandidate?
  some { s.emit .comma with keyAllowed := true }

/-- An entry of a block sequence starts. -/
def blockEntry? (s : Scanner) (p : Placed) : Option Scanner := do
  if !s.inFlow && !s.keyAllowed then none
  let s ← (s.openBlock p.column .blockSequence).dropCandidate?
  some { s.emit .blockEntry with keyAllowed := true }

/-- A key is announced by a question mark. -/
def announcedKey? (s : Scanner) (p : Placed) : Option Scanner := do
  if !s.inFlow && !s.keyAllowed then none
  let s ← (s.openBlock p.column .blockMapping).dropCandidate?
  some { s.emit .key with keyAllowed := !s.inFlow }

/-- A value starts; the innermost candidate, if there is one, was its key. -/
def value? (s : Scanner) (p : Placed) : Option Scanner :=
  match s.candidates with
  | some c :: _ =>
    -- the key was the first of a block mapping if it stands deeper than the block around it
    let opens := !s.inFlow && s.isDeeper c.column
    let ts := if opens then [.blockMapping, .key] else [.key]
    let blocks := if opens then c.column :: s.blocks else s.blocks
    let s := { (s.emitAt c.position ts).setCandidate none with blocks }
    some { s.emit .value with keyAllowed := false }
  | _ =>
    if !s.inFlow && !s.keyAllowed then none
    else
      let s := s.openBlock p.column .blockMapping
      some { s.emit .value with keyAllowed := !s.inFlow }

/-- An anchor.  Its number is the number of names that were given to anchors before. -/
def anchor? (s : Scanner) (p : Placed) (name : String) : Option Scanner := do
  let s ← s.saveCandidate? p
  let number := s.anchors.length
  some { s.emit (.anchor number) with
    keyAllowed := false
    anchors := s.anchors.insert name number }

/-- An alias of an anchor in front of it. -/
def alias? (s : Scanner) (p : Placed) (name : String) : Option Scanner := do
  let s ← s.saveCandidate? p
  let number ← s.anchors.find? name
  some { s.emit (.aliasOf number) with keyAllowed := false }

/-- What a handle stands for; in front of a tag that is given in full there is none. -/
def expansion? (s : Scanner) (handle : String) : Option String :=
  match s.handles.find? handle, handle with
  | some expansion, _ => some expansion
  | none, "" => some ""
  | none, "!" => some "!"
  | none, "!!" => some "tag:yaml.org,2002:"
  | none, _ => none

/-- A tag. -/
def tag? (s : Scanner) (p : Placed) (handle name : String) : Option Scanner := do
  let s ← s.saveCandidate? p
  let expansion ← s.expansion? handle
  some { s.emit (.tag (.ofName (expansion ++ name))) with keyAllowed := false }

/-- A directive.  The version may be given once, and every handle too. -/
def directive? (s : Scanner) (d : Directive) : Option Scanner := do
  let s ← s.marker? .directive
  match d with
  | .version major minor =>
    if s.versioned || major ≠ 1 || !(minor = 1 || minor = 2) then none
    else some { s with versioned := true }
  | .handle name expansion =>
    if (s.handles.find? name).isSome then none
    else some { s with handles := s.handles.insert name expansion }

/-- Whether an unquoted scalar can start with a character. -/
def startsPlain (inFlow : Bool) (c : Char) (rest : List Placed) : Bool :=
  let indicators := ['-', '?', ':', ',', '[', ']', '\x7b', '\x7d', '#', '&', '*', '!', '|', '>',
    '\'', '"', '%', '@', '\x60']
  let behindIsBlank := match rest with
    | p :: _ => isBlank p.char
    | [] => false
  (!isBlank c && !indicators.contains c) || (c = '-' && !behindIsBlank)
    || (!inFlow && (c = '?' || c = ':') && !atSpace rest)

/-- **The next token**, which starts at a character that is no space. -/
def next? (s : Scanner) (p : Placed) (rest : List Placed) : Option (Scanner × List Placed) := do
  let s ← s.dropStale? p
  let s := s.closeBlocks (some p.column)
  let text := p :: rest
  -- directives and document markers count only at the start of a line
  if p.column = 0 && p.char = '%' then
    let (directive, rest) ← scanDirective? rest
    some (← s.directive? directive, rest)
  else if p.column = 0 && isMarker '-' text then some (← s.marker? .documentStart, text.drop 3)
  else if p.column = 0 && isMarker '.' text then some (← s.marker? .documentEnd, text.drop 3)
  -- flow collections
  else if p.char = '[' then some (← s.openFlow? p .openSequence, rest)
  else if p.char = '\x7b' then some (← s.openFlow? p .openMapping, rest)
  else if p.char = ']' then some (← s.closeFlow? .closeSequence, rest)
  else if p.char = '\x7d' then some (← s.closeFlow? .closeMapping, rest)
  else if p.char = ',' then some (← s.flowEntry?, rest)
  -- signs of entries, keys and values
  else if p.char = '-' && atSpace rest then some (← s.blockEntry? p, rest)
  else if p.char = '?' && (s.inFlow || atSpace rest) then some (← s.announcedKey? p, rest)
  else if p.char = ':' && (s.inFlow || atSpace rest) then some (← s.value? p, rest)
  -- what may stand in front of a node, or for it
  else if p.char = '*' then
    let (name, rest) ← scanAnchor? rest
    some (← s.alias? p name, rest)
  else if p.char = '&' then
    let (name, rest) ← scanAnchor? rest
    some (← s.anchor? p name, rest)
  else if p.char = '!' then
    let ((handle, name), rest) ← scanTag? s.inFlow text
    some (← s.tag? p handle name, rest)
  -- scalars; a block scalar is never a key
  else if (p.char = '|' || p.char = '>') && !s.inFlow then
    let s ← s.dropCandidate?
    let (chars, rest) ← scanBlock? (p.char = '|') s.blocks.head? rest
    some ({ s.emit (.scalar (String.ofList chars) false) with keyAllowed := true }, rest)
  else if p.char = '\'' then
    let s ← s.saveCandidate? p
    let (chars, rest) ← scanSingle .none [] rest
    some ({ s.emit (.scalar (String.ofList chars) false) with keyAllowed := false }, rest)
  else if p.char = '"' then
    let s ← s.saveCandidate? p
    let (chars, rest) ← scanDouble (.text .none) [] rest
    some ({ s.emit (.scalar (String.ofList chars) false) with keyAllowed := false }, rest)
  else if startsPlain s.inFlow p.char rest then
    let s ← s.saveCandidate? p
    let indent := match s.blocks with
      | [] => 0
      | column :: _ => column + 1
    let (chars, ended, rest) ← scanPlain s.inFlow indent .none [] text
    some ({ s.emit (.scalar (String.ofList chars) true) with keyAllowed := ended }, rest)
  else none

/-- The state at the end of the text. -/
def finish? (s : Scanner) : Option Scanner := do
  if s.candidates.any fun c => c.any Candidate.required then none
  (s.closeBlocks none).dropCandidate?

/-- The tokens from a state on.  Every token takes at least one character. -/
def run? (s : Scanner) (text : List Placed) : Option (List Token) :=
  match _h : skipSpace s.inFlow s.keyAllowed false text with
  | (_, []) => (finish? s).map fun s => s.tokens.reverse
  | (keyAllowed, p :: rest) =>
    match next? { s with keyAllowed } p rest with
    | none => none
    | some (after, behind) =>
      -- always so, because a token is never empty
      if behind.length < text.length then run? after behind else none
termination_by text.length

end Scanner

/-- **The tokens of a text.** -/
def Token.scan? (text : String) : Option (List Token) :=
  (place? text).bind (Scanner.run? Scanner.start)

end AvroSwagger.Yaml
