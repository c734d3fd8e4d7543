import ApiTypings.Declaration.Lowering
import ApiTypings.Printing.Context
import ApiTypings.Text.Basic

/-!
# The text of declarations

Structs and enums derive the traits that data needs. Enums are untagged; that attribute goes
after the first line that reads like the derive line. Fields and variants are indented by four.
-/
namespace ApiTypings.Declaration

open Printing (Context Layout)

def importLine : String := "use serde::\x7bDeserialize, Serialize\x7d;\n"

def deriveLine : String := "#[derive(Serialize, Deserialize, Debug, Clone)]\n"

def untaggedLine : String := "#[serde(untagged)]\n"

def blank : Context := { layout := ⟨0, "    "⟩ }

/-- A line feed needs no carriage return in front of it. -/
def withoutReturns : List Char → List Char
  | '\r' :: '\n' :: cs => '\n' :: withoutReturns cs
  | c :: cs => c :: withoutReturns cs
  | [] => []

/-- Writes a piece of text. -/
def put (ctx : Context) (s : String) : Context :=
  ctx.write (String.ofList (withoutReturns s.toList))

def putLine (ctx : Context) (s : String) : Context := put (put ctx s) "\n"

/-- Writes a documentation line. -/
def putDoc (ctx : Context) (line : String) : Context := putLine (put ctx "/// ") line

/-- Writes the documentation of a struct or enum, cut into lines. -/
def putDocs (ctx : Context) (docs : List String) : Context :=
  ((Text.lines (String.intercalate "\n" docs).toList).map String.ofList).foldl putDoc ctx

def putField (ctx : Context) (f : Field) : Context :=
  let ctx := f.docs.foldl putDoc ctx
  let ctx := match f.wireName with
    | none => ctx
    | some name => putLine ctx ("#[serde(rename = \"" ++ name ++ "\")]")
  put (put (put (put (put ctx "pub ") f.identifier) ": ") f.type.text) ",\n"

def putVariant (ctx : Context) (v : Variant) : Context :=
  put (put (put (put ctx v.name) "(") v.payload.text) "),\n"

/-- Writes the head of a struct or enum: documentation, derive line, keyword and name. -/
def putHead (ctx : Context) (keyword : String) (d : Declaration) : Context :=
  put (put (put (putDocs ctx d.docs) deriveLine) ("pub " ++ keyword ++ " ")) d.name

/-- Writes an opening brace, behind a space unless it begins a line. -/
def putOpen (ctx : Context) : Context :=
  put (if ctx.atLineStart then ctx else put ctx " ") "\x7b\n"

/-- Writes the braces around indented content. -/
def putBlock (ctx : Context) (content : Context → Context) : Context :=
  put (content (putOpen ctx).nest).unnest "\x7d\n"

/-- The text of an enum with its attribute. -/
def enumText (d : Declaration) (variants : List Variant) : String :=
  let code := (putBlock (putHead blank "enum" d) (fun ctx => variants.foldl putVariant ctx)).code
  String.ofList (Text.trimEnd (Text.replaceFirst deriveLine.toList
    (deriveLine ++ untaggedLine).toList code.toList))

def placeholderText (d : Declaration) : String :=
  String.intercalate "\n" (d.docs.map (fun line => "/// " ++ line) ++
    [String.ofList (Text.trimEnd deriveLine.toList), "pub struct " ++ d.name ++ " \x7b\x7d"])

def putDeclaration (ctx : Context) (d : Declaration) : Context :=
  match d.body with
  | .struct fields => putBlock (putHead ctx "struct" d) (fun ctx => fields.foldl putField ctx)
  | .placeholder => putLine ctx (placeholderText d)
  | .enum variants => putLine ctx (enumText d variants)
  | .alias target => putLine ctx ("pub type " ++ d.name ++ " = " ++ target.text ++ ";")

/-- Writes declarations with an empty line between them. -/
def putDeclarations (ctx : Context) : List Declaration → Context
  | [] => ctx
  | [d] => putDeclaration ctx d
  | d :: e :: ds => putDeclarations (put (putDeclaration ctx d) "\n") (e :: ds)

def withoutLastNewline (s : List Char) : List Char :=
  if s.getLast? = some '\n' then s.dropLast else s

/-- The text of a list of declarations, with the import that they need. -/
def declarationsText (ds : List Declaration) : String :=
  let ctx := putDeclarations (put (put blank importLine) "\n") ds
  String.ofList (withoutLastNewline ctx.code.toList)

def Generator.text (g : Generator) : String := declarationsText g.declarations

end ApiTypings.Declaration
