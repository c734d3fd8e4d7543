import ApiTypings.Page.TypeCell
import ApiTypings.Page.Comment

/-!
# Tables of properties

The header of a table names its columns, and every row of its body describes one property.
The first fault in reading order decides the error: headers, missing columns, then row by
row the number of cells and the cells themselves.
-/
namespace ApiTypings.Page

open Markup Text

inductive Column where
  | parameter
  | field
  | type
  | required
  | description
  deriving DecidableEq, Repr

def Column.ofTitle? : String → Option Column
  | "Parameter" => some .parameter
  | "Field" => some .field
  | "Type" => some .type
  | "Required" => some .required
  | "Description" => some .description
  | _ => none

/-- Whether the column holds the names of the properties. -/
def Column.isName : Column → Bool
  | parameter | field => true
  | _ => false

def headerCells (table : Spot) : List Spot := table.withPath ["th", "tr", "thead"]

def bodyRows (table : Spot) : List Spot := table.withPath ["tr", "tbody"]

def rowCells (row : Spot) : List Node := (row.withPath ["td"]).map Spot.node

def columnOf (title : String) : Except PageError Column :=
  match Column.ofTitle? title with
  | some c => .ok c
  | none => .error (.unrecognizedColumn title)

/-- The columns of a table. One must hold names and one types. -/
def tableColumns (table : Spot) : Except PageError (List Column) := do
  let columns ← (headerCells table).mapM (fun th => columnOf (trimmed th.text))
  if !columns.any Column.isName then throw (.missingColumn "Field")
  else if !columns.contains .type then throw (.missingColumn "Type")
  else pure columns

def nameCell (cell : Node) : Except PageError String :=
  let name := trimmed cell.textContent
  if isIdentifier name.toList then .ok name else .error (.invalidIdentifier name)

def requiredCell (cell : Node) : Except PageError Bool :=
  match trimmed cell.textContent with
  | "Yes" => .ok true
  | "Optional" => .ok false
  | other => .error (.invalidRequired other)

/-- What the cells of a row have said so far; a later cell of the same kind replaces it. -/
structure RowContent where
  name : Option String := none
  type : Option ApiType := none
  required : Option Bool := none
  description : Option DocComment := none

def RowContent.add (r : RowContent) (column : Column) (cell : Node) :
    Except PageError RowContent :=
  match column with
  | .parameter | .field => (nameCell cell).map (fun n => { r with name := some n })
  | .type => (cellType cell).map (fun t => { r with type := some t })
  | .required => (requiredCell cell).map (fun b => { r with required := some b })
  | .description => .ok { r with description := some (commentOf cell) }

/-- A property is optional when its row says so, or else when its description does. -/
def RowContent.optional (r : RowContent) : Bool :=
  match r.required, r.description with
  | some required, _ => !required
  | none, some d => "Optional.".toList.isPrefixOf (trimStart d.text.toList)
  | none, none => false

def RowContent.property (r : RowContent) : Except PageError Property :=
  match r.name, r.type with
  | none, _ => .error (.missingColumn "Field")
  | _, none => .error (.missingColumn "Type")
  | some name, some type => .ok ⟨name, type, r.optional, r.description⟩

/-- Reads the cells of a row from left to right. -/
def readCells (r : RowContent) : List (Column × Node) → Except PageError RowContent
  | [] => .ok r
  | (column, cell) :: rest => do
    let r ← r.add column cell
    readCells r rest

def readRow (columns : List Column) (cells : List Node) : Except PageError Property :=
  if cells.length < columns.length then .error (.malformedRow columns.length cells.length)
  else do
    let r ← readCells {} (columns.zip cells)
    r.property

/-- The properties that a table describes. -/
def readTable (table : Spot) : Except PageError (List Property) := do
  let columns ← tableColumns table
  (bodyRows table).mapM (fun row => readRow columns (rowCells row))

end ApiTypings.Page
