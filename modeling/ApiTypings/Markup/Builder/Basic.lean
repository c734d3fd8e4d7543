import ApiTypings.Markup.Draft
import ApiTypings.Markup.Category
import ApiTypings.Markup.Foreign
import ApiTypings.Markup.Lexer

/-!
# The state of a construction

Tokens build a document by way of a stack of open elements, innermost first, and a list of
formatting that is still in force, latest first. Both name elements of the draft.
-/
namespace ApiTypings.Markup

/-- The part of the document that the next token belongs to. -/
inductive Mode where
  | initial
  | beforeHtml
  | beforeHead
  | inHead
  | afterHead
  | inBody
  | text
  | inTable
  | inTableText
  | inCaption
  | inColumnGroup
  | inTableBody
  | inRow
  | inCell
  | inSelect
  | inSelectInTable
  | inTemplate
  | afterBody
  | inFrameset
  | afterFrameset
  | afterAfterBody
  | afterAfterFrameset
  deriving DecidableEq, Repr

structure OpenElement where
  id : NodeId
  name : ElementName

/-- An entry of the formatting in force: an element with its tag, or the edge of a cell,
caption or the like. -/
inductive Formatting where
  | marker
  | element (element : OpenElement) (tag : StartTag)

structure Builder where
  draft : Draft := .empty
  mode : Mode := .initial
  /-- The mode to go back to after a run of text. -/
  returnMode : Mode := .initial
  /-- How the lexer reads on. -/
  model : ContentModel := .markup
  opened : List OpenElement := []
  formatting : List Formatting := []
  templateModes : List Mode := []
  head : Option OpenElement := none
  form : Option NodeId := none
  framesetAllowed : Bool := true
  /-- Whether content of a table is put in front of it. -/
  fostering : Bool := false
  /-- Text of a table of which it is not yet known whether it is blank. -/
  pendingText : List Char := []
  /-- Whether tables may stand inside paragraphs. -/
  lenient : Bool := false
  /-- Whether a line feed right now is dropped. -/
  skipsNewline : Bool := false

namespace Builder

/-! ## The stack of open elements -/

def current? (b : Builder) : Option OpenElement := b.opened.head?

def currentIs (b : Builder) (test : ElementName → Bool) : Bool :=
  (b.current?.map (fun e => test e.name)).getD false

/-- Looks outward from the current element and stops at the bounds of a scope. -/
def foundBefore (bounds : ElementName → Bool) (target : OpenElement → Bool) :
    List OpenElement → Bool
  | [] => false
  | e :: es => target e || (!bounds e.name && foundBefore bounds target es)

def inScope (b : Builder) (bounds : ElementName → Bool) (target : ElementName → Bool) : Bool :=
  foundBefore bounds (fun e => target e.name) b.opened

def hasOpen (b : Builder) (tag : String) : Bool := b.opened.any (fun e => e.name.is tag)

def pop (b : Builder) : Builder := { b with opened := b.opened.drop 1 }

def popIf (b : Builder) (test : ElementName → Bool) : Builder :=
  if b.currentIs test then b.pop else b

/-- Closes elements down to one that satisfies the test, which stays open. -/
def popDownTo (b : Builder) (test : ElementName → Bool) : Builder :=
  { b with opened := b.opened.dropWhile (fun e => !test e.name) }

/-- Closes elements down to one that satisfies the test, and that one too. -/
def popThrough (b : Builder) (test : ElementName → Bool) : Builder := (b.popDownTo test).pop

/-- Closes the innermost elements of a group. -/
def popWhile (b : Builder) (test : ElementName → Bool) : Builder :=
  { b with opened := b.opened.dropWhile (fun e => test e.name) }

def closeImplied (b : Builder) : Builder := b.popWhile (ElementName.isHtml ElementName.impliedEnds)

def closeImpliedBut (b : Builder) (tag : String) : Builder :=
  b.popWhile (fun n => n.isHtml ElementName.impliedEnds && !n.is tag)

def removeOpen (b : Builder) (id : NodeId) : Builder :=
  { b with opened := b.opened.filter (fun e => e.id != id) }

def closeParagraph (b : Builder) : Builder :=
  (b.closeImpliedBut "p").popThrough (ElementName.is "p")

def closeParagraphInScope (b : Builder) : Builder :=
  if b.inScope ElementName.boundsButtonScope (ElementName.is "p") then b.closeParagraph else b

/-- The outermost open element. -/
def root? (b : Builder) : Option OpenElement := b.opened.getLast?

/-- The `body` element, where it stands right inside the outermost one. -/
def body? (b : Builder) : Option OpenElement :=
  (b.opened.dropLast.getLast?).filter (fun e => e.name.is "body")

/-! ## Insertion -/

/-- Where a node goes. -/
inductive Place where
  | under (parent : NodeId)
  | before (sibling : NodeId)

/-- The place of content that a table does not take. -/
def fosterPlace (d : Draft) : List OpenElement → Place
  | [] => .under Draft.documentId
  | [e] => .under e.id
  | e :: outer :: es =>
    if e.name.is "template" then .under (d.contentRoot e.id)
    else if e.name.is "table" then
      if (d.parent? e.id).isSome then .before e.id else .under outer.id
    else fosterPlace d (outer :: es)

/-- The place for content of an element. -/
def placeIn (b : Builder) (target : OpenElement) : Place :=
  if b.fostering && target.name.fosters then fosterPlace b.draft b.opened
  else .under (b.draft.contentRoot target.id)

def place (b : Builder) : Place :=
  match b.current? with
  | none => .under Draft.documentId
  | some e => b.placeIn e

def putAt (d : Draft) (place : Place) (id : NodeId) : Draft :=
  match place with
  | .under parent => d.append parent id
  | .before sibling => d.insertBefore sibling id

def insertCharacter (b : Builder) (c : Char) : Builder :=
  match b.place with
  | .under parent => { b with draft := b.draft.appendText parent c }
  | .before sibling => { b with draft := b.draft.insertTextBefore sibling c }

def insertComment (b : Builder) (content : String) : Builder :=
  let (draft, id) := b.draft.add (.comment content)
  { b with draft := putAt draft b.place id }

/-- Adds a comment at the end of a given node. -/
def commentUnder (b : Builder) (parent : NodeId) (content : String) : Builder :=
  let (draft, id) := b.draft.add (.comment content)
  { b with draft := draft.append parent id }

/-- Inserts an element; `opens` says whether it stays open. -/
def insertElement (b : Builder) (name : ElementName) (attributes : List Attribute)
    (opens : Bool) : Builder × OpenElement :=
  let place := b.place
  let (draft, id) := b.draft.addElement name attributes
  let e : OpenElement := ⟨id, name⟩
  ({ b with
      draft := putAt draft place id
      opened := if opens then e :: b.opened else b.opened }, e)

def plainAttributes (tag : StartTag) : List Attribute :=
  tag.attributes.map (fun a => ⟨.plain, a.1, a.2⟩)

/-- Inserts the element of a start tag and leaves it open. -/
def openTag (b : Builder) (tag : StartTag) : Builder :=
  (b.insertElement ⟨.html, tag.name⟩ (plainAttributes tag) true).1

/-- Inserts the element of a start tag that has no content. -/
def insertVoid (b : Builder) (tag : StartTag) : Builder :=
  (b.insertElement ⟨.html, tag.name⟩ (plainAttributes tag) false).1

/-- Inserts an element that the markup left out. -/
def openImplied (b : Builder) (tag : String) : Builder := b.openTag ⟨tag, [], false⟩

/-- Starts the document with its outermost element. -/
def openRoot (b : Builder) (tag : StartTag) : Builder :=
  let (draft, id) := b.draft.addElement ⟨.html, "html"⟩ (plainAttributes tag)
  { b with draft := draft.append Draft.documentId id, opened := [⟨id, ⟨.html, "html"⟩⟩] }

/-- Inserts an element and reads its content as text. -/
def openText (b : Builder) (tag : StartTag) (model : ContentModel) : Builder :=
  { b.openTag tag with model := model, returnMode := b.mode, mode := .text }

def withMode (b : Builder) (mode : Mode) : Builder := { b with mode := mode }

/-- Adds the attributes of a repeated start tag that are new. -/
def mergeTag (b : Builder) (target : Option OpenElement) (tag : StartTag) : Builder :=
  match target with
  | none => b
  | some e => { b with draft := b.draft.mergeAttributes e.id (plainAttributes tag) }

/-- The mode that the open elements call for. -/
def modeFor (b : Builder) : Mode :=
  go b.opened
where
  go : List OpenElement → Mode
    | [] => .inBody
    | e :: outer =>
      if e.name.vocabulary != .html then go outer
      else match e.name.tag with
        | "select" => selectMode outer
        | "td" | "th" => if outer.isEmpty then go outer else .inCell
        | "tr" => .inRow
        | "tbody" | "thead" | "tfoot" => .inTableBody
        | "caption" => .inCaption
        | "colgroup" => .inColumnGroup
        | "table" => .inTable
        | "template" => b.templateModes.head?.getD .inTemplate
        | "head" => if outer.isEmpty then go outer else .inHead
        | "body" => .inBody
        | "frameset" => .inFrameset
        | "html" => if b.head.isNone then .beforeHead else .afterHead
        | _ => go outer
  selectMode : List OpenElement → Mode
    | [] => .inSelect
    | e :: outer =>
      if e.name.is "template" then .inSelect
      else if e.name.is "table" then .inSelectInTable
      else selectMode outer

def resetMode (b : Builder) : Builder := b.withMode b.modeFor

end Builder

end ApiTypings.Markup
