import ApiTypings.Settings.Basic

/-!
# Command line arguments

A setting takes its value from the same argument or from the next one, unless that starts
with a dash. It is only assigned when the next option begins or the arguments end: until then
a fault in its value does not show.
-/
namespace ApiTypings.Session

open Settings (Language)

structure Arguments where
  config : Option String := none
  url : Option String := none
  cache : Option String := none
  languages : List Language := []
  skipsCheck : Bool := false
  deriving DecidableEq, Repr

inductive UsageError where
  | unknownArgument
  | invalidValue
  /-- Something that may be given once is given again. -/
  | argumentConflict
  /-- A value for a switch. -/
  | tooManyValues
  | helpRequested
  deriving DecidableEq, Repr

/-- Options with a value. -/
inductive Setting where
  | config
  | url
  | cache
  | target
  deriving DecidableEq, Repr

/-- Options without a value. -/
inductive Switch where
  | skipCheck
  | help
  deriving DecidableEq, Repr

/-- A single argument, read on its own. -/
inductive Word where
  /-- Two dashes, after which no option may follow. -/
  | dashes
  | setting (s : Setting) (attached : Option String)
  | switch (s : Switch) (attached : Option String)
  | unknownOption
  | plain (text : String)
  deriving DecidableEq, Repr

namespace Word

def ofLong (name : String) (attached : Option String) : Word :=
  match name with
  | "config" => .setting .config attached
  | "url" => .setting .url attached
  | "cache" => .setting .cache attached
  | "target" => .setting .target attached
  | "skip-check" => .switch .skipCheck attached
  | "help" => .switch .help attached
  | _ => .unknownOption

/-- What follows the letter of a short option is its value, with or without an equals sign. -/
def attachedToLetter : List Char → Option String
  | [] => none
  | '=' :: cs => some (String.ofList cs)
  | cs => some (String.ofList cs)

def ofShort (letter : Char) (cs : List Char) : Word :=
  match letter with
  | 'c' => .setting .config (attachedToLetter cs)
  | 't' => .setting .target (attachedToLetter cs)
  | 'h' => .switch .help none
  | _ => .unknownOption

def ofString (s : String) : Word :=
  match s.toList with
  | ['-', '-'] => .dashes
  | '-' :: '-' :: cs =>
    let name := String.ofList (cs.takeWhile (· != '='))
    match cs.dropWhile (· != '=') with
    | [] => ofLong name none
    | _ :: value => ofLong name (some (String.ofList value))
  | '-' :: c :: cs => ofShort c cs
  | _ => .plain s

end Word

namespace Arguments

/-- The path in a value. -/
def path (value : String) : Except UsageError (Option String) :=
  if value.isEmpty then .error .invalidValue else .ok (some value)

/-- Only targets may be given several times. -/
def assign (a : Arguments) (s : Setting) (value : String) : Except UsageError Arguments :=
  match s with
  | .config =>
    if a.config.isSome then .error .argumentConflict
    else (path value).map (fun p => { a with config := p })
  | .url =>
    if a.url.isSome then .error .argumentConflict else .ok { a with url := some value }
  | .cache =>
    if a.cache.isSome then .error .argumentConflict
    else (path value).map (fun p => { a with cache := p })
  | .target =>
    match Language.ofName? value with
    | none => .error .invalidValue
    | some l => .ok { a with languages := a.languages ++ [l] }

/-- A setting that is not assigned yet. Its value may still be missing. -/
structure Pending where
  setting : Setting
  value : Option String

def settle (a : Arguments) : Option Pending → Except UsageError Arguments
  | none => .ok a
  | some ⟨_, none⟩ => .error .invalidValue
  | some ⟨s, some v⟩ => a.assign s v

def read (a : Arguments) (pending : Option Pending) : List String → Except UsageError Arguments
  | [] => a.settle pending
  | w :: ws =>
    match Word.ofString w with
    | .dashes => if ws.isEmpty then a.settle pending else .error .unknownArgument
    | .unknownOption => .error .unknownArgument
    | .switch _ (some _) => .error .tooManyValues
    | .switch .help none => do
      let _ ← a.settle pending
      .error .helpRequested
    | .switch .skipCheck none => do
      let a ← a.settle pending
      if a.skipsCheck then .error .argumentConflict
      else read { a with skipsCheck := true } none ws
    | .setting s none => do
      let a ← a.settle pending
      read a (some ⟨s, none⟩) ws
    | .setting s (some v) => do
      let a ← a.settle pending
      let a ← a.assign s v
      read a none ws
    | .plain v =>
      match pending with
      | some ⟨s, none⟩ => read a (some ⟨s, some v⟩) ws
      | _ => .error .unknownArgument

def ofStrings (words : List String) : Except UsageError Arguments := read {} none words

end Arguments

end ApiTypings.Session
