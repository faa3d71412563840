import AvroSwagger.CommandLine.Arguments
import AvroSwagger.Endpoint
import AvroSwagger.Publication.Publish

/-!
# AvroSwagger.CommandLine.Run

**What a run of the program leaves behind: its status and what it prints.**

A failure is one line on the standard error, which shows the cause as a value
with quoted texts.
-/

namespace AvroSwagger.CommandLine

open AvroSwagger.Files (FileAccess FileError)
open AvroSwagger.Text (quoted)

/-- Why an address cannot be listened on. -/
inductive BindFault where
  /-- There is no colon before a port. -/
  | noPort
  /-- The port is no number of 16 bits. -/
  | badPort
  deriving DecidableEq

/-- The end of a run. -/
inductive Ending where
  /-- Nothing more to do. -/
  | done (stdout : String)
  /-- The arguments made no sense. -/
  | usage
  | failed (line : String)
  /-- The endpoint is to be served at an address. -/
  | listening (address : String) (endpoint : Endpoint)

/-! ## §1. Failures as lines. -/

/-- A value with one text inside. -/
def wrapped (kind text : String) : String := kind ++ "(" ++ quoted text ++ ")"

/-- A value with named texts inside. -/
def named (kind : String) (texts : List (String × String)) : String :=
  kind ++ " \x7b " ++ ", ".intercalate (texts.map fun (name, text) => name ++ ": " ++ text) ++ " \x7d"

/-- A cause of the file system as a value. -/
def fileErrorValue (e : FileError) : String :=
  match e.system? with
  | some (number, kind, text) =>
    named "Os" [("code", toString number), ("kind", kind), ("message", quoted text)]
  | none =>
    let kind := match e with
      | .nullInPath => "InvalidInput"
      | .notText => "InvalidData"
      | _ => "Uncategorized"
    named "Error" [("kind", kind), ("message", quoted e.plainText)]

/-- A cause of the generation as a value.  The text about a schema that is no JSON goes on
in the words of the JSON library and is cut before them. -/
def generationErrorValue : GenerationError → String
  | .reservedName name => wrapped "NameCollision" name ++ ")"
  | .unsupportedType type place =>
    wrapped "UnsupportedType" (GenerationError.describeType type place) ++ ")"
  | .definitionCollision name existing incoming =>
    named "DefinitionCollision" [("name", quoted name), ("existing", quoted existing),
      ("incoming", quoted incoming)] ++ ")"
  | .schema .notJson => "InvalidSchema(\"" ++ SchemaError.notJson.message
  | .schema cause => wrapped "InvalidSchema" cause.message ++ ")"
  | .templateNotObject template =>
    wrapped "InvalidTemplate" (GenerationError.describeTemplate template) ++ ")"

/-- The line about a failed publication. -/
def failureLine : PublicationError → String
  | .manifestUnreadable path cause =>
    "Error: App(" ++ wrapped "General" (describeUnreadable "manifest" path cause) ++ ")"
  | .schemaUnreadable path cause =>
    "Error: App(" ++ wrapped "General" (describeUnreadable "schema" path cause) ++ ")"
  | .badManifest .json => "Error: App(Json"
  | .badManifest .yaml => "Error: App(Yaml"
  | .generation cause => "Error: App(" ++ generationErrorValue cause
  | .noText => "Error: App(Yaml"
  | .output cause => "Error: Io(" ++ fileErrorValue cause ++ ")"

/-- The line about an address. -/
def bindFaultLine (fault : BindFault) : String :=
  let text := match fault with
    | .noPort => "invalid socket address"
    | .badPort => "invalid port value"
  "Error: Io(" ++ named "Error" [("kind", "InvalidInput"), ("message", quoted text)] ++ ")"

/-! ## §2. Addresses. -/

/-- A number of 16 bits in decimal digits, perhaps behind a plus sign. -/
def isPort (text : List Char) : Bool :=
  let digits := match text with
    | '+' :: rest => rest
    | other => other
  !digits.isEmpty && digits.all Char.isDigit
    && digits.foldl (fun n c => n * 10 + (c.toNat - '0'.toNat)) 0 < 65536

/-- What is wrong with an address: it has to end in a colon and a port. -/
def bindFault? (address : String) : Option BindFault :=
  let chars := address.toList.reverse
  match chars.dropWhile (· ≠ ':') with
  | [] => some .noPort
  | _ :: _ => if isPort (chars.takeWhile (· ≠ ':')).reverse then none else some .badPort

/-! ## §3. Runs. -/

/-- The text that `--version` prints. -/
def versionText : String := "avro-openapi-cli 0.0.1\n"

/-- The text that `--help` prints. -/
def helpText : String :=
  "Usage: avro-openapi [-v] generate --manifest FILE [--output FILE] [--on-collision POLICY]\n" ++
  "       avro-openapi [-v] serve --manifest FILE [--bind ADDRESS] [--path PATH] [--on-collision POLICY]\n"

variable {m : Type → Type} [Monad m]

/-- **Runs a command.**  A document is served only if it can be generated. -/
def Command.run (yaml : YamlLibrary) (files : FileAccess m) : Command → m Ending
  | .generate manifest output policy => do
    match ← publish yaml files manifest output policy with
    | .error e => return .failed (failureLine e)
    | .ok (some text) => return .done (text ++ "\n")
    | .ok none => return .done ""
  | .serve manifest address path policy => do
    match ← loadManifest yaml files manifest with
    | .error e => return .failed (failureLine e)
    | .ok loaded =>
      match generateDocument loaded.template loaded.routes policy with
      | .error e => return .failed (failureLine (.generation e))
      -- the document itself is generated again for each request
      | .ok _ =>
        match bindFault? address with
        | some fault => return .failed (bindFaultLine fault)
        | none =>
          return .listening address ⟨path, .resource, loaded.template, loaded.routes, policy⟩

/-- The name of the file that supplies variables. -/
def environmentFile : String := ".env"

/-- **Runs the program** with its arguments in an environment. -/
def run (yaml : YamlLibrary) (files : FileAccess m) (environment : Environment)
    (arguments : List String) : m Ending := do
  let environment ← do
    match ← files.read environmentFile with
    | .ok content => pure (environment.supplement content)
    | .error _ => pure environment
  match Command.ofArguments environment arguments with
  | .ok command => command.run yaml files
  | .error .usage => return .usage
  | .error .help => return .done helpText
  | .error .version => return .done versionText

end AvroSwagger.CommandLine
