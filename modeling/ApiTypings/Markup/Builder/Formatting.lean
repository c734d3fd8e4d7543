import ApiTypings.Markup.Builder.Basic

/-!
# Formatting across element boundaries

Formatting elements such as `b` or `a` stay in force when a block ends before their end tag,
and are opened again in the next block. An end tag inside a block splits the formatting
element in two, one outside and one inside the block.
-/
namespace ApiTypings.Markup

namespace Formatting

def isMarker : Formatting → Bool
  | marker => true
  | element .. => false

def hasId (id : NodeId) : Formatting → Bool
  | marker => false
  | element e _ => e.id == id

/-- Whether two tags are the same but for the order of their attributes. -/
def sameTag (s t : StartTag) : Bool :=
  s.name == t.name && s.attributes.length == t.attributes.length &&
    s.attributes.all (fun a => t.attributes.contains a)

end Formatting

namespace Builder

/-- The entries since the last marker, latest first. -/
def recentFormatting (b : Builder) : List Formatting :=
  b.formatting.takeWhile (fun f => !f.isMarker)

def clearToMarker (b : Builder) : Builder :=
  { b with formatting := (b.formatting.dropWhile (fun f => !f.isMarker)).drop 1 }

def addMarker (b : Builder) : Builder := { b with formatting := .marker :: b.formatting }

def removeFormatting (b : Builder) (id : NodeId) : Builder :=
  { b with formatting := b.formatting.filter (fun f => !f.hasId id) }

def inFormatting (b : Builder) (id : NodeId) : Bool := b.formatting.any (Formatting.hasId id)

def isOpen (b : Builder) (id : NodeId) : Bool := b.opened.any (fun e => e.id == id)

/-- Whether an entry needs no reopening. -/
def isSettled (b : Builder) : Formatting → Bool
  | .marker => true
  | .element e _ => b.isOpen e.id

/-- Opens an entry again and puts it in front of the formatting in force. -/
def reopen (b : Builder) (f : Formatting) : Builder :=
  match f with
  | .marker => b
  | .element _ tag =>
    let (b, e) := b.insertElement ⟨.html, tag.name⟩ (plainAttributes tag) true
    { b with formatting := .element e tag :: b.formatting }

/-- Opens the formatting again that is in force but was closed with its block. -/
def reconstruct (b : Builder) : Builder :=
  let closed := b.formatting.takeWhile (fun f => !b.isSettled f)
  closed.reverse.foldl reopen { b with formatting := b.formatting.drop closed.length }

/-- Removes the earliest of three equal recent entries. -/
def limitRepeats (b : Builder) (tag : StartTag) : Builder :=
  let equal := b.recentFormatting.filterMap (fun f => match f with
    | .marker => none
    | .element e t => if Formatting.sameTag tag t then some e.id else none)
  match if 3 ≤ equal.length then equal.getLast? else none with
  | none => b
  | some id => b.removeFormatting id

/-- Opens a formatting element and puts it in force. -/
def openFormatting (b : Builder) (tag : StartTag) : Builder :=
  let b := b.limitRepeats tag
  let (b, e) := b.insertElement ⟨.html, tag.name⟩ (plainAttributes tag) true
  { b with formatting := .element e tag :: b.formatting }

/-- Closes the nearest open element of a name, unless a special element stands in between. -/
def closeNearest (b : Builder) (tag : String) : Builder :=
  if foundBefore ElementName.isSpecial (fun e => e.name.is tag) b.opened then
    b.popThrough (ElementName.is tag)
  else b

/-- The elements between a formatting element and its block while the block is moved out. -/
structure Split where
  builder : Builder
  /-- The elements that stay open, outermost last. -/
  kept : List OpenElement
  /-- The element that was moved last. -/
  last : NodeId
  /-- The copy next to which the new formatting entry goes. -/
  bookmark : Option NodeId
  count : Nat

/-- Goes on with the next element outward: it is copied around what was moved so far, or
left out where it is no formatting in force or more than three are copied already. -/
def splitStep (block : NodeId) (s : Split) (e : OpenElement) : Split :=
  let count := s.count + 1
  if 3 < count then { s with builder := s.builder.removeFormatting e.id, count := count }
  else
    match s.builder.formatting.find? (Formatting.hasId e.id) with
    | some (.element _ tag) =>
      let (draft, id) := s.builder.draft.addElement ⟨.html, tag.name⟩ (plainAttributes tag)
      let copy : OpenElement := ⟨id, ⟨.html, tag.name⟩⟩
      { builder := { s.builder with
          draft := draft.append id s.last
          formatting := s.builder.formatting.map (fun f =>
            if f.hasId e.id then .element copy tag else f) }
        kept := s.kept ++ [copy]
        last := id
        bookmark := if s.last == block then some id else s.bookmark
        count := count }
    | _ => { s with count := count }

/-- Puts the new entry where the old one stood, or next to the bookmark. -/
def replaceFormatting (old : NodeId) (bookmark : Option NodeId) (entry : Formatting)
    (fs : List Formatting) : List Formatting :=
  match bookmark with
  | none => fs.map (fun f => if f.hasId old then entry else f)
  | some id =>
    (fs.flatMap (fun f => if f.hasId id then [entry, f] else [f])).filter (fun f => !f.hasId old)

/-- Splits the formatting element `e` at a block inside it. The lists are the open elements
inside the block, between block and formatting element, and outside. -/
def splitAtBlock (b : Builder) (e : OpenElement) (tag : StartTag) (block : OpenElement)
    (inner between outer : List OpenElement) : Builder :=
  let s := between.foldl (splitStep block.id) ⟨b, [], block.id, none, 0⟩
  let b := s.builder
  let b := match outer.head? with
    | none => b
    | some ancestor => { b with draft := putAt (b.draft.detach s.last) (b.placeIn ancestor) s.last }
  let (draft, id) := b.draft.addElement ⟨.html, tag.name⟩ (plainAttributes tag)
  let draft := (draft.moveChildren block.id id).append block.id id
  let copy : OpenElement := ⟨id, ⟨.html, tag.name⟩⟩
  { b with
    draft := draft
    formatting := replaceFormatting e.id s.bookmark (.element copy tag) b.formatting
    opened := inner ++ copy :: block :: s.kept ++ outer }

/-- One round of closing a formatting element; `none` when nothing more is to do. -/
def closeFormattingRound (b : Builder) (tag : String) : Builder × Bool :=
  let entry := b.recentFormatting.find? (fun f => match f with
    | .marker => false
    | .element _ t => t.name == tag)
  match entry with
  | some (.element e t) =>
    if !b.isOpen e.id then (b.removeFormatting e.id, false)
    else if !foundBefore ElementName.boundsScope (fun o => o.id == e.id) b.opened then (b, false)
    else
      let inside := b.opened.takeWhile (fun o => o.id != e.id)
      let outer := b.opened.drop (inside.length + 1)
      match (inside.reverse.find? (fun o => o.name.isSpecial)) with
      | none => ({ b with opened := outer }.removeFormatting e.id, false)
      | some block =>
        let inner := inside.takeWhile (fun o => o.id != block.id)
        let between := inside.drop (inner.length + 1)
        (b.splitAtBlock e t block inner between outer, true)
  | _ => (b.closeNearest tag, false)

def closeFormattingRounds (tag : String) : Nat → Builder → Builder
  | 0, b => b
  | n + 1, b =>
    let r := b.closeFormattingRound tag
    if r.2 then closeFormattingRounds tag n r.1 else r.1

/-- Closes a formatting element: what blocks inside it still hold keeps the formatting. -/
def closeFormatting (b : Builder) (tag : String) : Builder :=
  match b.current? with
  | some e =>
    if e.name.is tag && !b.inFormatting e.id then b.pop else closeFormattingRounds tag 8 b
  | none => b

/-- Closes an `a` that is still in force in front of a new one. -/
def closeOpenLink (b : Builder) : Builder :=
  let link := b.recentFormatting.findSome? (fun f => match f with
    | .marker => none
    | .element e _ => if e.name.is "a" then some e.id else none)
  match link with
  | none => b
  | some id => ((b.closeFormatting "a").removeFormatting id).removeOpen id

end Builder

end ApiTypings.Markup
