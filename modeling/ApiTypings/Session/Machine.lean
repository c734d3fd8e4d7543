import ApiTypings.Session.Run

/-!
# A machine for sessions

A machine has a disk, some texts that can be downloaded, and a syntax checker that gives the
same report whenever it is run and writes nothing. Any operation on files may be struck by a
fault from outside, which leaves the files as they are. The machine remembers with which
arguments the checker was run.
-/
namespace ApiTypings.Session

/-- A fault from outside. -/
structure Disturbance where
  fault : Fault
  /-- How many parts of a path have been seen to by then, where nested folders are made. -/
  reached : Nat := 0
  deriving DecidableEq, Repr

structure Machine where
  disk : Disk
  /-- The report of the checker, if the program is there. -/
  checker : Option Report := none
  launches : List (List String) := []
  /-- What a download from an address gives. -/
  network : List (String × Except String String) := []
  /-- What strikes the coming operations on files, one after another. -/
  disturbances : List (Option Disturbance) := []
  deriving Repr

namespace Machine

/-- What strikes the next operation on files. -/
def strike (w : Machine) : Option Disturbance × Machine :=
  (w.disturbances.head?.join, { w with disturbances := w.disturbances.tail })

def read (p : Path) (w : Machine) : Except Fault Text.Utf8.Bytes × Machine :=
  match w.strike with
  | (some x, w) => (.error x.fault, w)
  | (none, w) => (w.disk.read p, w)

def write (p : Path) (content : Text.Utf8.Bytes) (w : Machine) : Except Fault Unit × Machine :=
  match w.strike with
  | (some x, w) => (.error x.fault, w)
  | (none, w) =>
    match w.disk.write p content with
    | .error f => (.error f, w)
    | .ok d => (.ok (), { w with disk := d })

def makeFolders (p : Path) (w : Machine) : Except Fault Unit × Machine :=
  match w.strike with
  | (some x, w) =>
    let (_, d) := w.disk.makeFolders ⟨p.fromRoot, p.parts.take x.reached⟩
    (.error x.fault, { w with disk := d })
  | (none, w) =>
    let (result, d) := w.disk.makeFolders p
    (result, { w with disk := d })

def launch (arguments : List String) (w : Machine) : Except LaunchFault Report × Machine :=
  if arguments.any (fun a => a.toList.contains '\x00') then (.error .nullCharacter, w)
  else match w.checker with
    | none => (.error .missing, w)
    | some r => (.ok r, { w with launches := w.launches ++ [arguments] })

def download (address : String) (w : Machine) : Except String String :=
  match w.network.lookup address with
  | none => .error "the network is unreachable"
  | some answer => answer

instance : Host (StateM Machine) where
  read p := read p
  contains p := fun w => (w.disk.contains p, w)
  write p content := write p content
  makeFolders p := makeFolders p
  launch arguments := launch arguments
  download address := fun w => (w.download address, w)

/-- Does a part of a session on a machine. -/
def perform {α : Type} (act : ExceptT Failure (StateM Machine) α) (w : Machine) :
    Except Failure α × Machine :=
  StateT.run (m := Id) act.run w

/-- Runs a session on a machine. -/
def run (a : Arguments) (w : Machine) : Except Failure (List String) × Machine :=
  perform (Session.run a) w

end Machine

end ApiTypings.Session
