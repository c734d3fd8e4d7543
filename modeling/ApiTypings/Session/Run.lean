import ApiTypings.Page.Reading
import ApiTypings.Rendering
import ApiTypings.Session.Arguments
import ApiTypings.Session.SyntaxCheck
import ApiTypings.Settings.Decoding

/-!
# A session

The page is read, every target is written, and the outputs that want it are checked, in this
order; the first failure ends the session. What a session does to the outside goes through
the few operations of its host.
-/
namespace ApiTypings.Session

open Settings (Configuration Source Target)
open Text.Utf8 (Bytes)

/-- What a session needs from the outside. -/
class Host (m : Type → Type) where
  read : Path → m (Except Fault Bytes)
  contains : Path → m Bool
  write : Path → Bytes → m (Except Fault Unit)
  makeFolders : Path → m (Except Fault Unit)
  /-- Runs the syntax checker with the given arguments. -/
  launch : List String → m (Except LaunchFault Report)
  /-- Gets the text at an address, or the reason why it cannot be had. -/
  download : String → m (Except String String)

section

variable {m : Type → Type} [Monad m] [Host m]

/-- Turns a fault of the disk into a failure of the session. -/
def onDisk {α : Type} (act : m (Except Fault α)) : ExceptT Failure m α :=
  ExceptT.mk (do return (← act).mapError .disk)

/-- The text of a file. -/
def readText (p : Path) : ExceptT Failure m String := do
  match Text.Utf8.decode? (← onDisk (Host.read p)) with
  | none => throw (.disk .notText)
  | some cs => return String.ofList cs

def loadConfiguration (path : String) : ExceptT Failure m Configuration := do
  match Configuration.ofText? (← readText (.ofString path)) with
  | none => throw .configuration
  | some c => return c

/-- The path of the cached copy, if there is one. -/
def cachedCopy? (source : Source) : m (Option Path) :=
  match source.cache with
  | none => pure none
  | some path => do
    return if ← Host.contains (.ofString path) then some (.ofString path) else none

/-- The cached copy of the page, or else the page itself. -/
def fetch (source : Source) : ExceptT Failure m String := do
  match ← ExceptT.lift (cachedCopy? source) with
  | some p => readText p
  | none => ExceptT.mk (do return (← Host.download source.url).mapError .download)

/-- Makes the folder around a path, as far as the path tells. -/
def makeParent (p : Path) : ExceptT Failure m Unit :=
  match p.parent? with
  | none => pure ()
  | some folder => onDisk (Host.makeFolders folder)

def writeTarget (s : Schema) (t : Target) : ExceptT Failure m Unit := do
  makeParent (.ofString t.path)
  onDisk (Host.write (.ofString t.path) (Text.Utf8.encode (render t s)))

/-- The diagnostics of the syntax checker for some files. -/
def checkSyntax (paths : List String) : ExceptT Failure m (List String) :=
  ExceptT.mk (do return judgeLaunch (← Host.launch (checkerArguments paths)))

/-- The configuration of a session: the one in a file or the stock one, with what the
arguments change in it. -/
def configure (a : Arguments) : ExceptT Failure m Configuration := do
  let c ← match a.config with
    | none => pure .stock
    | some path => loadConfiguration path
  let source : Source := ⟨a.url.getD c.source.url, a.cache <|> c.source.cache⟩
  return { c with source := source }.only a.languages

/-- The paths of the outputs that are to be checked. -/
def checkedPaths (a : Arguments) (c : Configuration) : List String :=
  (c.targets.filter (fun t =>
    t.checksSyntax && t.language == .typeScript && !a.skipsCheck)).map Target.path

/-- Runs a session. The diagnostics in its outputs are its result. -/
def run (a : Arguments) : ExceptT Failure m (List String) := do
  let c ← configure a
  let page ← fetch c.source
  let schema ← match Page.readPage page with
    | .error e => throw (.page e)
    | .ok s => pure s
  c.targets.forM (writeTarget schema)
  match checkedPaths a c with
  | [] => return []
  | paths => checkSyntax paths

end

end ApiTypings.Session
