import AvroSwagger.CommandLine.Run
import AvroSwagger.Yaml.Library

/-!
# AvroSwagger.Main

**The program: the machine's files, a library of YAML, the process's arguments, its streams and
status.**
-/

namespace AvroSwagger

open AvroSwagger.CommandLine
open AvroSwagger.Files (FileAccess FileError)

/-- The cause that a failure of the machine stands for.  Codes may come negated. -/
def fileErrorOf (e : IO.Error) : FileError :=
  let isCode (code : UInt32) (n : UInt32) : Bool := code = n || code = 0 - n
  match e with
  | .noFileOrDirectory .. => .notFound
  | .alreadyExists .. => .alreadyExists
  | .inappropriateType _ code _ => if isCode code 20 then .notADirectory else .isADirectory
  | .invalidArgument _ code text =>
    if isCode code 36 then .nameTooLong
    else if isCode code 22 then .nullInPath
    else .other text
  | e => .other (toString e)

/-- The outcome of an action on the machine's files. -/
def attempt {α : Type} (action : IO α) : IO (Except FileError α) := do
  try
    let result ← action
    return .ok result
  catch e => return .error (fileErrorOf e)

/-- Access to the machine's files. -/
def machineFiles : FileAccess IO where
  read path := attempt (IO.FS.readBinFile path)
  isPresent path := do
    match ← attempt (IO.FS.readBinFile path) with
    | .ok _ => return true
    | .error .isADirectory => return true
    | .error _ => return false
  isDirectory path := do
    match ← attempt (IO.FS.readBinFile path) with
    | .error .isADirectory => return true
    | _ => return false
  createDirectory path := attempt (IO.FS.createDir path)
  write path content := attempt (IO.FS.writeBinFile path content)

/-- The variables that the program asks for. -/
def programEnvironment : IO Environment := do
  let names := [OptionName.manifest, .output, .onCollision, .bind, .path].map OptionName.variableName
  let mut environment : Environment := []
  for name in names do
    if let some value ← IO.getEnv name then
      environment := environment.insert name value
  return environment

end AvroSwagger

open AvroSwagger AvroSwagger.CommandLine in
/-- Runs the program and answers with its exit status. -/
def main (arguments : List String) : IO UInt32 := do
  match ← run Yaml.library machineFiles (← programEnvironment) arguments with
  | .done text =>
    IO.print text
    return 0
  | .usage =>
    IO.eprint helpText
    return 2
  | .failed line =>
    IO.eprintln line
    return 1
  | .listening address _ =>
    IO.eprintln ("Error: no listener for " ++ address)
    return 1
