import ApiTypings.Text.Basic

/-!
# Paths

A path is a sequence of steps from the root or from the working folder. Empty steps and
single dots stay where they are, two dots lead one folder up.
-/
namespace ApiTypings.Session

structure Path where
  fromRoot : Bool
  steps : List String
  deriving DecidableEq, Repr

namespace Path

def ofString (s : String) : Path :=
  match s.toList with
  | [] => ⟨false, []⟩
  | '/' :: cs => ⟨true, split cs⟩
  | cs => ⟨false, split cs⟩
where
  split (cs : List Char) : List String := (Text.pieces (· == '/') cs).map String.ofList

def text (p : Path) : String :=
  (if p.fromRoot then "/" else "") ++ String.intercalate "/" p.steps

/-- The path without a single step. It leads nowhere. -/
def isEmpty (p : Path) : Bool := !p.fromRoot && p.steps.isEmpty

/-- Steps that do not leave a folder. -/
def stays (step : String) : Bool := step == "" || step == "."

/-- The steps that count. A single dot counts where a path starts with it. -/
def parts (p : Path) : List String :=
  match p.fromRoot, p.steps with
  | false, "." :: steps => "." :: steps.filter (fun s => !stays s)
  | _, steps => steps.filter (fun s => !stays s)

/-- The path to the folder around what a path leads to, as far as its text tells. -/
def parent? (p : Path) : Option Path :=
  if p.parts.isEmpty then none else some ⟨p.fromRoot, p.parts.dropLast⟩

end Path

end ApiTypings.Session
