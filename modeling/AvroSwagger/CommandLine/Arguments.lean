import AvroSwagger.CommandLine.Environment
import AvroSwagger.Generation.Collector

/-!
# AvroSwagger.CommandLine.Arguments

**What the command line asks for.**

Arguments are read from left to right, first those of the program, then those
of the command.  An option takes its value from behind an equals sign or from
the next argument and may be given once; an option that is not given takes its
value from the environment.
-/

namespace AvroSwagger.CommandLine

/-- The options of the commands. -/
inductive OptionName where
  | manifest
  | output
  | onCollision
  | bind
  | path
  deriving DecidableEq

namespace OptionName

/-- How an option is written, without the dashes. -/
def text : OptionName → String
  | .manifest => "manifest"
  | .output => "output"
  | .onCollision => "on-collision"
  | .bind => "bind"
  | .path => "path"

/-- The variable that supplies the option's value. -/
def variableName : OptionName → String
  | .manifest => "AVRO_OPENAPI_MANIFEST"
  | .output => "AVRO_OPENAPI_OUTPUT"
  | .onCollision => "AVRO_OPENAPI_ON_COLLISION"
  | .bind => "AVRO_OPENAPI_BIND"
  | .path => "AVRO_OPENAPI_PATH"

/-- Whether a value is possible: a file needs a name, and a policy is one of two words. -/
def accepts : OptionName → String → Bool
  | .manifest, value => !value.isEmpty
  | .output, value => !value.isEmpty
  | .onCollision, value => value = "reject" || value = "overwrite"
  | .bind, _ => true
  | .path, _ => true

end OptionName

/-- The commands by name. -/
inductive CommandName where
  | generate
  | serve
  deriving DecidableEq

namespace CommandName

/-- The command of a word. -/
def ofText? : String → Option CommandName
  | "generate" => some .generate
  | "serve" => some .serve
  | _ => none

/-- The options of a command. -/
def options : CommandName → List OptionName
  | .generate => [.manifest, .output, .onCollision]
  | .serve => [.manifest, .bind, .path, .onCollision]

end CommandName

/-- **What to do.** -/
inductive Command where
  /-- Write the document to a file, or to the standard output without one. -/
  | generate (manifest : String) (output : Option String) (policy : CollisionPolicy)
  /-- Serve the document at a path of an address. -/
  | serve (manifest bind path : String) (policy : CollisionPolicy)

/-- Why no command is run. -/
inductive Stop where
  /-- The arguments make no sense. -/
  | usage
  | help
  | version
  deriving DecidableEq

/-! ## §1. Reading arguments. -/

/-- What has been read of a level of arguments. -/
structure Given where
  verbose : Bool
  values : List (OptionName × String)

/-- Reads the letters behind a dash.  `v` may be given once. -/
def readLetters (hasVersion : Bool) (verbose : Bool) : List Char → Except Stop Bool
  | [] => .ok verbose
  | 'v' :: rest => if verbose then .error .usage else readLetters hasVersion true rest
  | 'h' :: _ => .error .help
  | 'V' :: _ => .error (if hasVersion then .version else .usage)
  | _ :: _ => .error .usage

/-- Adds the value of an option. -/
def Given.add (given : Given) (option : OptionName) (value : String) : Except Stop Given :=
  if given.values.any (fun v => v.1 = option) || !option.accepts value then .error .usage
  else .ok { given with values := (option, value) :: given.values }

/-- The option among some that is written so. -/
def option? (options : List OptionName) (text : String) : Option OptionName :=
  options.find? fun o => o.text = text

/-- Whether an argument is a value where one is expected. -/
def isValue (argument : String) : Bool := argument = "-" || argument.toList.head? ≠ some '-'

/-- Reads the arguments of a command. -/
def readOptions (options : List OptionName) (given : Given) : List String → Except Stop Given
  | [] => .ok given
  | argument :: rest =>
    match argument.toList with
    | ['-', '-'] => if rest.isEmpty then .ok given else .error .usage
    | '-' :: '-' :: body =>
      let name := String.ofList (body.takeWhile (· ≠ '='))
      match body.dropWhile (· ≠ '=') with
      | _ :: value =>
        match option? options name with
        | some option => do
          let given ← given.add option (String.ofList value)
          readOptions options given rest
        | none => .error .usage
      | [] =>
        if name = "help" then .error .help
        else if name = "verbose" then
          if given.verbose then .error .usage
          else readOptions options { given with verbose := true } rest
        else
          match option? options name, rest with
          | some option, value :: rest =>
            if isValue value then do
              let given ← given.add option value
              readOptions options given rest
            else .error .usage
          | _, _ => .error .usage
    | '-' :: letter :: letters => do
      let verbose ← readLetters false given.verbose (letter :: letters)
      readOptions options { given with verbose } rest
    | _ => .error .usage

/-- Whether the words behind the word `help` ask for a help text that exists: nothing, a
command, or `help` itself. -/
def isHelpTopic : List String → Bool
  | [] => true
  | [topic] => topic = "help" || (CommandName.ofText? topic).isSome
  | _ => false

/-- Reads the arguments of the program up to the command, and then those of the command. -/
def readProgram (verbose : Bool) : List String → Except Stop (CommandName × Given)
  | [] => .error .usage
  | argument :: rest =>
    match argument.toList with
    | '-' :: '-' :: body =>
      match String.ofList body with
      | "help" => .error .help
      | "version" => .error .version
      | "verbose" => if verbose then .error .usage else readProgram true rest
      | _ => .error .usage
    | '-' :: letter :: letters => do
      let verbose ← readLetters true verbose (letter :: letters)
      readProgram verbose rest
    | _ =>
      match CommandName.ofText? argument with
      | some command => do
        let given ← readOptions command.options ⟨false, []⟩ rest
        .ok (command, given)
      | none =>
        if argument = "help" && isHelpTopic rest then .error .help else .error .usage

/-! ## §2. Commands. -/

/-- The value of an option: given, or supplied by the environment. -/
def valueOf (environment : Environment) (given : Given) (option : OptionName) :
    Except Stop (Option String) :=
  match given.values.lookup option with
  | some value => .ok (some value)
  | none =>
    match environment.find? option.variableName with
    | none => .ok none
    | some value => if option.accepts value then .ok (some value) else .error .usage

/-- The policy of a word. -/
def policyOf (value : Option String) : CollisionPolicy :=
  if value = some "overwrite" then .overwrite else .reject

/-- **The command that arguments ask for** in an environment. -/
def Command.ofArguments (environment : Environment) (arguments : List String) :
    Except Stop Command := do
  let (name, given) ← readProgram false arguments
  let value := valueOf environment given
  match ← value .manifest with
  | none => .error .usage
  | some manifest =>
    let policy := policyOf (← value .onCollision)
    match name with
    | .generate => do
      let output ← value .output
      .ok (.generate manifest output policy)
    | .serve => do
      let bind ← value .bind
      let path ← value .path
      .ok (.serve manifest (bind.getD "127.0.0.1:8080") (path.getD "/swagger.json") policy)

end AvroSwagger.CommandLine
