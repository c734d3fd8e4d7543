import ApiTypings.Page.Basic
import ApiTypings.Session.Disk

/-!
# Failures and the syntax check

A session fails with the configuration, the page, a file or the check. An external program
checks the outputs. Every line of its report that names an error is a diagnostic. If there is
none, the program must have succeeded.
-/
namespace ApiTypings.Session

open Text.Utf8 (Bytes)

/-- Why a session fails. -/
inductive Failure where
  | page (error : Page.PageError)
  | disk (fault : Fault)
  /-- The configuration file is invalid. -/
  | configuration
  /-- The syntax checker did not run to its end, for the given reason. -/
  | checker (reason : String)
  /-- The page could not be downloaded, for the given reason. -/
  | download (reason : String)
  deriving DecidableEq, Repr

def Failure.message : Failure → String
  | page e => e.message
  | disk f => "IO error: " ++ f.message
  | configuration => "Config error: invalid configuration file"
  | checker reason => "Syntax checker failed to run: " ++ reason
  | download reason => "HTTP error: " ++ reason

/-- What a program leaves behind when it has run. -/
structure Report where
  output : Bytes := []
  errors : Bytes := []
  status : Nat := 0
  deriving DecidableEq, Repr

/-- Why a program does not start. -/
inductive LaunchFault where
  | missing
  | nullCharacter
  /-- Any other fault, in words. -/
  | other (reason : String)
  deriving DecidableEq, Repr

def LaunchFault.message : LaunchFault → String
  | missing => Fault.notFound.message
  | nullCharacter => "nul byte found in provided data"
  | other reason => reason

def checkerName : String := "tsc"

/-- The arguments with which the checker only reports and writes nothing. -/
def checkerArguments (paths : List String) : List String := "--noEmit" :: paths

def errorMark : List Char := "error TS".toList

/-- The diagnostics in the text of a report. -/
def diagnostics (text : List Char) : List String :=
  ((Text.lines text).filter (Text.occursIn errorMark)).map
    (fun line => String.ofList (Text.trim line))

/-- The diagnostics of a report. -/
def judge (r : Report) : Except Failure (List String) :=
  let found := diagnostics (Text.Utf8.decodeLossy r.output)
  if found.isEmpty && r.status != 0 then
    .error (.checker (String.ofList (Text.trim (Text.Utf8.decodeLossy r.errors))))
  else .ok found

def judgeLaunch : Except LaunchFault Report → Except Failure (List String)
  | .error f => .error (.checker (checkerName ++ ": " ++ f.message))
  | .ok r => judge r

end ApiTypings.Session
