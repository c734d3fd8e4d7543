import ApiTypings.Page.Comment
import ApiTypings.Printing.Context

/-!
# Configurations

Where the reference page comes from, and which outputs are made of it. Everything has a
default, so that a run without a configuration file makes one output in each language.
-/
namespace ApiTypings.Settings

/-- The languages of the outputs. -/
inductive Language where
  | typeScript
  | flow
  | rust
  deriving DecidableEq, Repr

def Language.ofName? : String → Option Language
  | "typescript" => some .typeScript
  | "flow" => some .flow
  | "rust" => some .rust
  | _ => none

def Language.name : Language → String
  | .typeScript => "typescript"
  | .flow => "flow"
  | .rust => "rust"

theorem Language.ofName?_name (l : Language) : Language.ofName? l.name = some l := by
  cases l <;> rfl

/-- One output. -/
structure Target where
  language : Language
  path : String
  /-- Whether the output is handed to the syntax checker. -/
  checksSyntax : Bool := false
  layout : Printing.Layout := {}
  /-- The name of the module that wraps the output, where the language has one. -/
  module : Option String := none
  deriving DecidableEq, Repr

def defaultModule : String := "telegram-typings"

def Target.moduleName (t : Target) : String := t.module.getD defaultModule

structure Source where
  url : String := Page.pageAddress
  /-- A local copy of the page. -/
  cache : Option String := none
  deriving DecidableEq, Repr

def stockTargets : List Target :=
  [{ language := .typeScript, path := "javascript/index.d.ts", checksSyntax := true },
   { language := .flow, path := "javascript/index.js.flow", module := some defaultModule },
   { language := .rust, path := "rust/src/lib.rs" }]

structure Configuration where
  source : Source := {}
  targets : List Target := stockTargets
  deriving DecidableEq, Repr

/-- The configuration of a session without a configuration file. -/
def Configuration.stock : Configuration := {}

/-- Keeps the targets in the given languages; without any language it keeps all. -/
def Configuration.only (c : Configuration) (languages : List Language) : Configuration :=
  if languages.isEmpty then c
  else { c with targets := c.targets.filter (fun t => languages.contains t.language) }

end ApiTypings.Settings
