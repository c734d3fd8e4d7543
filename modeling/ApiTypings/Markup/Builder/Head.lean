import ApiTypings.Markup.Builder.Formatting

/-!
# Outcomes of a token, and the head of a document

A token is either used up, or the construction has only changed its mode and looks at the
token again.
-/
namespace ApiTypings.Markup.Builder

inductive Outcome where
  | used (b : Builder)
  | again (b : Builder)

def Outcome.map (f : Builder → Builder) : Outcome → Outcome
  | used b => used (f b)
  | again b => again (f b)

open Outcome

/-- Tags that belong into the head wherever they stand. -/
def metadataTags : List String :=
  ["base", "basefont", "bgsound", "link", "meta", "noframes", "script", "style", "template",
   "title"]

/-- Goes on in another mode with the same token. -/
def redo (b : Builder) (mode : Mode) : Outcome := again (b.withMode mode)

/-- A start tag of `html` inside the document only adds attributes. -/
def repeatedRoot (b : Builder) (tag : StartTag) : Builder :=
  if b.hasOpen "template" then b else b.mergeTag b.root? tag

def closeTemplate (b : Builder) : Builder :=
  let b := (b.popWhile (ElementName.isHtml ElementName.impliedTemplateEnds)).popThrough
    (ElementName.is "template")
  { b.clearToMarker with templateModes := b.templateModes.drop 1 }.resetMode

def headStart (b : Builder) (tag : StartTag) : Option Builder :=
  if tag.name == "html" then some (b.repeatedRoot tag)
  else if ["base", "basefont", "bgsound", "link", "meta"].contains tag.name then
    some (b.insertVoid tag)
  else if tag.name == "title" then some (b.openText tag (.referenceText tag.name))
  else if ["noframes", "style", "noscript"].contains tag.name then
    some (b.openText tag (.rawText tag.name))
  else if tag.name == "script" then some (b.openText tag .script)
  else if tag.name == "template" then
    let b := (b.openTag tag).addMarker
    some { b with
      framesetAllowed := false
      mode := .inTemplate
      templateModes := .inTemplate :: b.templateModes }
  else if tag.name == "head" then some b
  else none

def headEnd (b : Builder) (name : String) : Option Builder :=
  if name == "head" then some (b.pop.withMode .afterHead)
  else if name == "template" then
    some (if b.hasOpen "template" then b.closeTemplate else b)
  else if ["body", "html", "br"].contains name then none
  else some b

def inHead (b : Builder) (t : Token) : Outcome :=
  let leave := b.pop.redo .afterHead
  match t with
  | .character c => if Lexer.isSpace c then used (b.insertCharacter c) else leave
  | .comment s => used (b.insertComment s)
  | .doctype _ => used b
  | .startTag tag => ((b.headStart tag).map used).getD leave
  | .endTag name => ((b.headEnd name).map used).getD leave

end ApiTypings.Markup.Builder
