import ApiTypings.Declaration.Name
import ApiTypings.Page.Comment
import ApiTypings.Schema.Basic

/-!
# From schemas to declarations

Every entry becomes a declaration. A union, record or unknown type inside another type gets
a declaration of its own, which follows the one that uses it. Named types and records are
boxed except inside lists, so that types which refer to each other have a known size. The text
of each comment is wrapped to the room that indentation and comment sign leave, and its links
follow on lines of their own.
-/
namespace ApiTypings.Declaration

/-! ### Documentation -/

/-- The room for text, given the width of a line and the indentation. -/
def docWidth (width indent : Nat) : Nat := max (width - (indent + 4)) 1

def commentDocs (width : Nat) (c : DocComment) : List String :=
  Text.wrap width c.text ++ (Page.links c).map (fun l => "See " ++ l)

/-- The lines of some comments, with an empty line in between. -/
def docLines (width : Nat) : List DocComment → List String
  | [] => []
  | [c] => commentDocs width c
  | c :: d :: cs => commentDocs width c ++ "" :: docLines width (d :: cs)

/-- The lines above a declaration. -/
def entryDocs (width : Nat) (cs : List DocComment) : List String := docLines (docWidth width 0) cs

/-- The lines above a field. -/
def fieldDocs (width : Nat) (description : Option DocComment) : List String :=
  match description with
  | none => []
  | some c => docLines (docWidth width 4) [c]

/-! ### Types inside types -/

/-- A computation that knows which names are taken. -/
abbrev Naming := StateM (List String)

/-- Takes a free name for the type of a field. -/
def takeName (owner field : String) : Naming String := do
  let taken ← get
  let name := freshName (owner ++ Text.camelCase field) taken
  set (name :: taken)
  pure name

/-- Whether the innermost item of a type needs a declaration of its own. -/
def needsName : ApiType → Bool
  | .scalar _ | .named .. => false
  | .array item _ => needsName item
  | .any _ | .union .. | .record .. => true

/-- The name under which the innermost item of a type will be declared. -/
def innerName (owner field : String) (type : ApiType) : Naming (Option String) :=
  if needsName type then some <$> takeName owner field else pure none

def boxedIf (boxed : Bool) (t : TypeExpr) : TypeExpr := if boxed then .boxed t else t

/-- The expression for a type whose innermost item is declared under the name `inner`. -/
def expression (inner : Option String) (boxed : Bool) : ApiType → TypeExpr
  | .scalar s => .scalar s
  | .named name _ => boxedIf boxed (.name name)
  | .array item _ => .list (expression inner false item)
  | .union .. => .name (inner.getD "")
  | .record .. | .any _ => boxedIf boxed (.name (inner.getD ""))

def fieldOf (width : Nat) (p : Property) (inner : Option String) : Field :=
  let type := expression inner true p.type
  { docs := fieldDocs width p.description
    wireName := wireName? p.name
    identifier := fieldIdentifier p.name
    type := if p.optional then .option type else type }

def variantOf (member : ApiType) (inner : Option String) : Variant :=
  ⟨variantName member, expression inner true member⟩

def structBody : List Field → Body
  | [] => .placeholder
  | f :: fs => .struct (f :: fs)

mutual

/-- Declares the innermost item of a type under a name, and then what that one needs. -/
def declare (width : Nat) (name : String) (docs : List String) :
    ApiType → Naming (List Declaration)
  | .scalar _ => pure []
  | .named _ _ => pure []
  | .array item _ => declare width name docs item
  | .any _ => pure [⟨name, docs, .placeholder⟩]
  | .union members _ => do
    let inner ← members.mapM (fun m => innerName name (variantName m) m)
    let rest ← declareMembers width inner members
    pure (⟨name, docs, .enum (List.zipWith variantOf members inner)⟩ :: rest)
  | .record properties _ => do
    let inner ← properties.mapM (fun p => innerName name p.name p.type)
    let rest ← declareProperties width inner properties
    pure (⟨name, docs, structBody (List.zipWith (fieldOf width) properties inner)⟩ :: rest)

def declareMembers (width : Nat) (inner : List (Option String)) :
    List ApiType → Naming (List Declaration)
  | [] => pure []
  | t :: ts => do
    let here ← match inner.head? with
      | some (some name) => declare width name [] t
      | _ => pure []
    let rest ← declareMembers width inner.tail ts
    pure (here ++ rest)

def declareProperties (width : Nat) (inner : List (Option String)) :
    List Property → Naming (List Declaration)
  | [] => pure []
  | ⟨_, t, _, _⟩ :: ps => do
    let here ← match inner.head? with
      | some (some name) => declare width name [] t
      | _ => pure []
    let rest ← declareProperties width inner.tail ps
    pure (here ++ rest)

end

/-- Declares an alias, and what its target needs. -/
def declareAlias (width : Nat) (name : String) (docs : List String) (type : ApiType) :
    Naming (List Declaration) := do
  let inner ← innerName name "item" type
  let rest ← match inner with
    | some innerName => declare width innerName [] type
    | none => pure []
  pure (⟨name, docs, .alias (expression inner false type)⟩ :: rest)

/-- Declares an entry of a schema. -/
def declareEntry (width : Nat) (name : String) (type : ApiType) : Naming (List Declaration) :=
  let docs := entryDocs width type.comments
  match type with
  | .scalar _ | .named .. | .array .. => declareAlias width name docs type
  | .any _ | .union .. | .record .. => declare width name docs type

def declareEntries (width : Nat) : List (String × ApiType) → Naming (List Declaration)
  | [] => pure []
  | (name, type) :: es => do
    let here ← declareEntry width name type
    let rest ← declareEntries width es
    pure (here ++ rest)

/-- A schema with the declarations made from it so far. Names stay taken when it is declared
once more. -/
structure Generator where
  schema : Schema
  width : Nat
  taken : List String
  declarations : List Declaration := []

namespace Generator

def new (schema : Schema) (width : Nat) : Generator :=
  { schema := schema, width := width, taken := schema.names }

/-- Declares all entries. -/
def generate (g : Generator) : Generator :=
  let (declarations, taken) := (declareEntries g.width g.schema.entries).run g.taken
  { g with taken := taken, declarations := g.declarations ++ declarations }

end Generator

end ApiTypings.Declaration
