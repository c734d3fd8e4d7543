import ApiTypings.Session.Path
import ApiTypings.Text.Utf8

/-!
# Files and folders

A disk assigns files and folders to places, a place being the names that lead to it from the
root. An operation follows a path step by step and either does its work or names the fault
and changes nothing; only nested folders made before a fault remain.
-/
namespace ApiTypings.Session

open Text.Utf8 (Bytes)

inductive Fault where
  | notFound
  | alreadyExists
  | notFolder
  | isFolder
  | nameTooLong
  | nullCharacter
  | notText
  /-- Any other fault, in words. -/
  | other (reason : String)
  deriving DecidableEq, Repr

def Fault.message : Fault → String
  | notFound => "No such file or directory (os error 2)"
  | alreadyExists => "File exists (os error 17)"
  | notFolder => "Not a directory (os error 20)"
  | isFolder => "Is a directory (os error 21)"
  | nameTooLong => "File name too long (os error 36)"
  | nullCharacter => "file name contained an unexpected NUL byte"
  | notText => "stream did not contain valid UTF-8"
  | other reason => reason

inductive Entry where
  | file (content : Bytes)
  | folder
  deriving DecidableEq, Repr

abbrev Place := List String

structure Disk where
  entries : List (Place × Entry) := []
  workingFolder : Place := []
  deriving DecidableEq, Repr

namespace Disk

/-- What stands at a place. The root is always there. -/
def get? (d : Disk) (place : Place) : Option Entry :=
  if place.isEmpty then some .folder else d.entries.lookup place

def putEntry (place : Place) (entry : Entry) : List (Place × Entry) → List (Place × Entry)
  | [] => [(place, entry)]
  | e :: es => if e.1 == place then (place, entry) :: es else e :: putEntry place entry es

/-- Puts an entry at a place, over an earlier one. -/
def put (place : Place) (entry : Entry) (d : Disk) : Disk :=
  { d with entries := putEntry place entry d.entries }

theorem lookup_putEntry (place other : Place) (entry : Entry) (es : List (Place × Entry)) :
    (putEntry place entry es).lookup other =
      if other = place then some entry else es.lookup other := by
  induction es with
  | nil =>
    by_cases h : other = place
    · simp [putEntry, h]
    · have hb : (other == place) = false := by simpa using h
      simp [putEntry, List.lookup_cons, h, hb]
  | cons e es ih =>
    obtain ⟨key, old⟩ := e
    by_cases hk : key = place
    · subst hk
      by_cases h : other = key
      · simp [putEntry, h]
      · have hb : (other == key) = false := by simpa using h
        simp [putEntry, List.lookup_cons, h, hb]
    · by_cases h : other = key
      · have hp : ¬ other = place := fun hp => hk (h ▸ hp)
        subst h
        simp [putEntry, hp]
      · have hb : (other == key) = false := by simpa using h
        simp [putEntry, List.lookup_cons, hk, hb, ih]

def checkFolder (d : Disk) (place : Place) : Except Fault Unit :=
  match d.get? place with
  | none => .error .notFound
  | some .folder => .ok ()
  | some (.file _) => .error .notFolder

/-- The place one step from a folder. -/
def move (place : Place) (step : String) : Except Fault Place :=
  if Path.stays step then .ok place
  else if step == ".." then .ok place.dropLast
  else if 255 < step.utf8ByteSize then .error .nameTooLong
  else .ok (place ++ [step])

/-- The place after some steps. Every step starts from a folder, but nothing need stand at
the end. -/
def walk (d : Disk) (place : Place) (steps : List String) : Except Fault Place :=
  steps.foldlM (fun place step => do
    d.checkFolder place
    move place step) place

/-- Where a path starts, if it is one that can be followed at all. -/
def start (d : Disk) (p : Path) : Except Fault Place :=
  if p.steps.any (fun s => s.toList.contains '\x00') then .error .nullCharacter
  else if p.isEmpty then .error .notFound
  else if 4096 ≤ p.text.utf8ByteSize then .error .nameTooLong
  else .ok (if p.fromRoot then [] else d.workingFolder)

/-- What a path leads to. -/
def find (d : Disk) (p : Path) : Except Fault Entry := do
  let place ← d.walk (← d.start p) p.steps
  match d.get? place with
  | none => .error .notFound
  | some e => .ok e

def contains (d : Disk) (p : Path) : Bool := (d.find p).toBool

def isFolder (d : Disk) (p : Path) : Bool :=
  match d.find p with
  | .ok .folder => true
  | _ => false

def read (d : Disk) (p : Path) : Except Fault Bytes := do
  match ← d.find p with
  | .file content => .ok content
  | .folder => .error .isFolder

/-- The folder in which a path names an entry, and the name, which is missing if the path
ends in a step that can only lead to a folder. -/
def target (d : Disk) (p : Path) : Except Fault (Place × Option String) := do
  let start ← d.start p
  let steps := (p.steps.reverse.dropWhile (· == "")).reverse
  match steps.getLast? with
  | none => .ok (start, none)
  | some name =>
    let around ← d.walk start steps.dropLast
    d.checkFolder around
    .ok (around, if Path.stays name || name == ".." then none else some name)

/-- Writes a file, over an earlier one. -/
def write (p : Path) (content : Bytes) (d : Disk) : Except Fault Disk := do
  match ← d.target p with
  | (_, none) => .error .isFolder
  | (around, some name) =>
    if p.steps.getLast? == some "" then .error .isFolder
    else
      let place ← move around name
      if d.get? place = some .folder then .error .isFolder
      else .ok (d.put place (.file content))

/-- Makes a folder where nothing stands yet. -/
def makeFolder (p : Path) (d : Disk) : Except Fault Disk := do
  match ← d.target p with
  | (_, none) => .error .alreadyExists
  | (around, some name) =>
    let place ← move around name
    if (d.get? place).isSome then .error .alreadyExists
    else .ok (d.put place .folder)

/-- A failed attempt to make a folder is none if the folder is there. -/
def unlessFolder (p : Path) (f : Fault) (d : Disk) : Except Fault Unit × Disk :=
  (if d.isFolder p then .ok () else .error f, d)

/-- Makes a folder together with the missing ones around it. The steps are in reverse. -/
def makeNested (fromRoot : Bool) : List String → Disk → Except Fault Unit × Disk
  | [], d => (.ok (), d)
  | step :: steps, d =>
    let p : Path := ⟨fromRoot, (step :: steps).reverse⟩
    match d.makeFolder p with
    | .ok d => (.ok (), d)
    | .error .notFound =>
      match makeNested fromRoot steps d with
      | (.error f, d) => (.error f, d)
      | (.ok (), d) =>
        match d.makeFolder p with
        | .ok d => (.ok (), d)
        | .error f => d.unlessFolder p f
    | .error f => d.unlessFolder p f

/-- Makes a folder and all folders around it, as far as they are missing. -/
def makeFolders (p : Path) (d : Disk) : Except Fault Unit × Disk :=
  makeNested p.fromRoot p.parts.reverse d

end Disk

end ApiTypings.Session
