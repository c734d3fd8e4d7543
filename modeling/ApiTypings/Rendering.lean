import ApiTypings.Declaration.Writer
import ApiTypings.Printing.Comment
import ApiTypings.Settings.Basic

/-!
# Rendering

The text of a schema in the language of a target. TypeScript and Flow share their types and
differ in how an entry is declared: TypeScript exports interfaces and aliases, Flow declares
aliases inside a module. Every entry is written with its documentation, in order and with an
empty line between entries.
-/
namespace ApiTypings

namespace Printing

/-- The notations of typed declarations. -/
inductive Dialect where
  | typeScript
  | flow (module : String)
  deriving DecidableEq, Repr

/-- The text around the type of a declaration. -/
structure Frame where
  head : String
  tail : String
  deriving DecidableEq, Repr

namespace Dialect

def frame (d : Dialect) (name : String) (type : ApiType) : Frame :=
  match d with
  | typeScript =>
    if type.isRecord then ⟨"export interface " ++ name ++ " ", ""⟩
    else ⟨"export type " ++ name ++ " = ", ";"⟩
  | flow _ => ⟨"declare type " ++ name ++ " = ", ""⟩

def writeBegin (d : Dialect) (ctx : Context) : Context :=
  match d with
  | typeScript => ctx
  | flow module => (ctx.write ("declare module \"" ++ module ++ "\" \x7b")).nest.newline

def writeEnd (d : Dialect) (ctx : Context) : Context :=
  match d with
  | typeScript => ctx
  | flow _ => ctx.unnest.writeLine "\x7d"

end Dialect

def scalarWord : Scalar → String
  | .integer | .float => "number"
  | .string => "string"
  | .boolean => "boolean"

def writeDescription (ctx : Context) : Option DocComment → Context
  | none => ctx
  | some c => writeComments ctx [c]

mutual

def writeType (ctx : Context) : ApiType → Context
  | .scalar s => ctx.write (scalarWord s)
  | .any _ => ctx.write "any"
  | .named name _ => ctx.write name
  | .array item _ => (writeType (ctx.write "Array<") item).write ">"
  | .union members _ => writeMembers ctx members
  | .record [] _ => ctx.write "\x7b\x7d"
  | .record (p :: ps) _ =>
    ((writeProperties (ctx.write "\x7b").nest.newline (p :: ps)).unnest).write "\x7d"

def writeMembers (ctx : Context) : List ApiType → Context
  | [] => ctx
  | [t] => writeType ctx t
  | t :: u :: ts => writeMembers ((writeType ctx t).write " | ") (u :: ts)

def writeProperties (ctx : Context) : List Property → Context
  | [] => ctx
  | ⟨name, type, optional, description⟩ :: ps =>
    let ctx := (writeDescription ctx description).write name
    let ctx := ctx.write (if optional then "?: " else ": ")
    writeProperties ((writeType ctx type).writeLine ",") ps

end

def writeEntry (d : Dialect) (ctx : Context) (name : String) (type : ApiType) : Context :=
  let frame := d.frame name type
  let ctx := (writeComments ctx type.comments).write frame.head
  (writeType ctx type).writeLine frame.tail

def writeEntries (d : Dialect) (ctx : Context) : List (String × ApiType) → Context
  | [] => ctx
  | [e] => writeEntry d ctx e.1 e.2
  | e :: f :: es => writeEntries d (writeEntry d ctx e.1 e.2).newline (f :: es)

/-- The text of a schema. -/
def print (d : Dialect) (layout : Layout) (s : Schema) : String :=
  (d.writeEnd (writeEntries d (d.writeBegin { layout := layout }) s.entries)).code

end Printing

open Settings (Target)

/-- The text of a schema in the language of a target. -/
def render (t : Target) (s : Schema) : String :=
  match t.language with
  | .typeScript => Printing.print .typeScript t.layout s
  | .flow => Printing.print (.flow t.moduleName) t.layout s
  | .rust => (Declaration.Generator.new s t.layout.width).generate.text

end ApiTypings
