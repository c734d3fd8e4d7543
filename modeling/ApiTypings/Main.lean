import ApiTypings.Session.Run

/-!
# The command

Runs a session on the files of this computer and reports what the syntax checker finds. The
command itself starts no other program and opens no connection: the page has to be in a
local copy, and the checker counts as missing.
-/
namespace ApiTypings.Session

def Fault.ofError (e : IO.Error) : Fault :=
  match e with
  | .noFileOrDirectory .. => .notFound
  | .alreadyExists .. => .alreadyExists
  | .inappropriateType .. => .isFolder
  | e => .other (toString e)

/-- Runs an action on files and catches its error. -/
def attempt {α : Type} (act : IO α) : IO (Except Fault α) := do
  return (← act.toBaseIO).mapError Fault.ofError

instance : Host IO where
  read p := attempt (do return (← IO.FS.readBinFile p.text).data.toList)
  contains p := do
    match ← attempt (IO.FS.readBinFile p.text) with
    | .error .notFound => return false
    | _ => return true
  write p content := attempt (IO.FS.writeBinFile p.text ⟨content.toArray⟩)
  makeFolders p :=
    if p.isEmpty then return .ok () else attempt (IO.FS.createDirAll p.text)
  launch _ := return .error .missing
  download _ := return .error "no connection"

def UsageError.message : UsageError → String
  | unknownArgument => "unexpected argument"
  | invalidValue => "invalid or missing value"
  | argumentConflict => "an option is given more than once"
  | tooManyValues => "a value for an option that takes none"
  | helpRequested =>
    "Options: --config PATH, --url URL, --cache PATH, --target LANGUAGE, --skip-check, --help"

/-- Runs the command. It succeeds if no output has an error. -/
def command (words : List String) : IO UInt32 := do
  match Arguments.ofStrings words with
  | .error .helpRequested =>
    IO.println UsageError.helpRequested.message
    return 0
  | .error e =>
    IO.eprintln e.message
    return 2
  | .ok a =>
    match ← (run a).run with
    | .error e =>
      IO.eprintln e.message
      return 1
    | .ok found =>
      found.forM (fun line => IO.eprintln line)
      return if found.isEmpty then 0 else 1

end ApiTypings.Session

def main (words : List String) : IO UInt32 := ApiTypings.Session.command words
