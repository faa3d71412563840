import AvroSwagger.Json.Token

/-!
# AvroSwagger.Json.Reader

**From tokens to the source tree, by a stack of open containers.**

The machine knows what it waits for and which containers are open; each token
takes one step.  A container opened inside 127 others denotes no value; the
grammar itself has no limit.

Main definitions: `Source.parse?` for the written form of a text, `parse?` for
its value.
-/

namespace AvroSwagger.Json

/-- A container that is still open, with its finished parts in reverse order. -/
inductive Frame where
  | array (items : List Source)
  | object (members : List (Option String × Source)) (key : Option String)

/-- What the machine waits for.  `stack` lists the open containers, innermost first. -/
inductive Awaiting where
  /-- A value. -/
  | value (stack : List Frame)
  /-- A value or the end of an array just opened. -/
  | firstItem (stack : List Frame)
  /-- A key or the end of an object just opened. -/
  | firstKey (stack : List Frame)
  /-- A key. -/
  | key (members : List (Option String × Source)) (stack : List Frame)
  /-- The colon after a key. -/
  | colon (members : List (Option String × Source)) (key : Option String) (stack : List Frame)
  /-- A separator or the end of the innermost container, after a value. -/
  | separator (last : Source) (stack : List Frame)

/-- The number of containers that may be open at once. -/
def depthLimit : Nat := 127

/-- A finished container that was opened inside the containers of `stack`. -/
def closed (container : Source) (stack : List Frame) : Source :=
  if stack.length < depthLimit then container else .undefined

/-- A token where a value may start. -/
def startValue? (stack : List Frame) : Token → Option Awaiting
  | .openArray => some (.firstItem stack)
  | .openObject => some (.firstKey stack)
  | .null => some (.separator .null stack)
  | .bool b => some (.separator (.bool b) stack)
  | .num n => some (.separator ((n.map Source.num).getD .undefined) stack)
  | .str s => some (.separator ((s.map Source.str).getD .undefined) stack)
  | _ => none

/-- One token. -/
def step? : Awaiting → Token → Option Awaiting
  | .value stack, t => startValue? stack t
  | .firstItem stack, .closeArray => some (.separator (closed (.arr []) stack) stack)
  | .firstItem stack, t => startValue? (.array [] :: stack) t
  | .firstKey stack, .closeObject => some (.separator (closed (.obj []) stack) stack)
  | .firstKey stack, .str key => some (.colon [] key stack)
  | .key members stack, .str key => some (.colon members key stack)
  | .colon members key stack, .colon => some (.value (.object members key :: stack))
  | .separator last (.array items :: stack), .comma =>
    some (.value (.array (last :: items) :: stack))
  | .separator last (.array items :: stack), .closeArray =>
    some (.separator (closed (.arr (last :: items).reverse) stack) stack)
  | .separator last (.object members key :: stack), .comma =>
    some (.key ((key, last) :: members) stack)
  | .separator last (.object members key :: stack), .closeObject =>
    some (.separator (closed (.obj ((key, last) :: members).reverse) stack) stack)
  | _, _ => none

/-- The source of a token list, read from the given state on. -/
def readFrom? (state : Awaiting) : List Token → Option Source
  | [] => match state with
    | .separator v [] => some v
    | _ => none
  | t :: rest =>
    match step? state t with
    | some next => readFrom? next rest
    | none => none

/-- **The written form of a text**: one value and nothing else. -/
def Source.parse? (text : String) : Option Source :=
  (Token.scan? text).bind (readFrom? (.value []))

/-- **The value of a text.** -/
def parse? (text : String) : Option Json := (Source.parse? text).bind Source.toJson?

end AvroSwagger.Json
