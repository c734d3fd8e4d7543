import ApiTypings.Markup.Builder.Body

/-!
# Tokens in tables and selections

A table accepts its parts only and supplies the ones that the markup leaves out. Anything
else is put in front of the table, blank text apart.
-/
namespace ApiTypings.Markup.Builder

open Outcome

def tableContext (b : Builder) : Builder := b.popDownTo ElementName.boundsTableScope

def sectionContext (b : Builder) : Builder :=
  b.popDownTo (ElementName.isHtml ["tbody", "tfoot", "thead", "template", "html"])

def rowContext (b : Builder) : Builder :=
  b.popDownTo (ElementName.isHtml ["tr", "template", "html"])

def inTableScope (b : Builder) (test : ElementName → Bool) : Bool :=
  b.inScope ElementName.boundsTableScope test

/-- Starts to collect text of a table, or puts it in front of the table. -/
def tableCharacter (b : Builder) (t : Token) : Outcome :=
  if b.currentIs ElementName.fosters then
    again { b with returnMode := b.mode, mode := .inTableText, pendingText := [] }
  else b.fosterInBody t

def tableStart (b : Builder) (tag : StartTag) : Outcome :=
  let name := tag.name
  if name == "caption" then
    used (((b.tableContext.addMarker).openTag tag).withMode .inCaption)
  else if name == "colgroup" then used ((b.tableContext.openTag tag).withMode .inColumnGroup)
  else if name == "col" then (b.tableContext.openImplied "colgroup").redo .inColumnGroup
  else if ["tbody", "tfoot", "thead"].contains name then
    used ((b.tableContext.openTag tag).withMode .inTableBody)
  else if ["td", "th", "tr"].contains name then
    (b.tableContext.openImplied "tbody").redo .inTableBody
  else if name == "table" then
    if b.inTableScope (ElementName.is "table") then
      again (b.popThrough (ElementName.is "table")).resetMode
    else used b
  else if ["style", "script", "template"].contains name then used ((b.headStart tag).getD b)
  else if name == "input" && isHiddenInput tag then used (b.insertVoid tag)
  else if name == "form" then
    if b.hasOpen "template" || b.form.isSome then used b
    else
      let (b, e) := b.insertElement ⟨.html, "form"⟩ (plainAttributes tag) false
      used { b with form := some e.id }
  else b.fosterInBody (.startTag tag)

def tableEnd (b : Builder) (name : String) : Outcome :=
  if name == "table" then
    used (if b.inTableScope (ElementName.is "table") then
      (b.popThrough (ElementName.is "table")).resetMode else b)
  else if ["body", "caption", "col", "colgroup", "html", "tbody", "td", "tfoot", "th", "thead",
      "tr"].contains name then used b
  else if name == "template" then used ((b.headEnd name).getD b)
  else b.fosterInBody (.endTag name)

def inTable (b : Builder) (t : Token) : Outcome :=
  match t with
  | .character _ => b.tableCharacter t
  | .comment s => used (b.insertComment s)
  | .doctype _ => used b
  | .startTag tag => b.tableStart tag
  | .endTag name => b.tableEnd name

/-- Places the collected text of a table: inside it if blank, else in front of it. -/
def flushText (b : Builder) : Builder :=
  let text := b.pendingText.reverse
  let b := { b with pendingText := [] }
  if text.all Lexer.isSpace then text.foldl insertCharacter b
  else
    let b := text.foldl (fun b c => match b.inBody (.character c) with
      | used b => b
      | again b => b) { b with fostering := true }
    { b with fostering := false }

def inTableText (b : Builder) (t : Token) : Outcome :=
  match t with
  | .character c =>
    used (if c == '\x00' then b else { b with pendingText := c :: b.pendingText })
  | _ => b.flushText.redo b.returnMode

def inCaption (b : Builder) (t : Token) : Outcome :=
  let parts := ["caption", "col", "colgroup", "tbody", "td", "tfoot", "th", "thead", "tr"]
  let isOpen := b.inTableScope (ElementName.is "caption")
  let closed := (b.closeImplied.popThrough (ElementName.is "caption")).clearToMarker
  match t with
  | .startTag tag =>
    if parts.contains tag.name then if isOpen then closed.redo .inTable else used b
    else b.inBody t
  | .endTag name =>
    if name == "caption" then used (if isOpen then closed.withMode .inTable else b)
    else if name == "table" then if isOpen then closed.redo .inTable else used b
    else if name == "body" || name == "html" || parts.contains name then used b
    else b.inBody t
  | _ => b.inBody t

def inColumnGroup (b : Builder) (t : Token) : Outcome :=
  let isGroup := b.currentIs (ElementName.is "colgroup")
  let leave := if isGroup then b.pop.redo .inTable else used b
  match t with
  | .character c => if Lexer.isSpace c then used (b.insertCharacter c) else leave
  | .comment s => used (b.insertComment s)
  | .doctype _ => used b
  | .startTag tag =>
    if tag.name == "html" then used (b.repeatedRoot tag)
    else if tag.name == "col" then used (b.insertVoid tag)
    else if tag.name == "template" then used ((b.headStart tag).getD b)
    else leave
  | .endTag name =>
    if name == "colgroup" then used (if isGroup then b.pop.withMode .inTable else b)
    else if name == "col" then used b
    else if name == "template" then used ((b.headEnd name).getD b)
    else leave

def inTableBody (b : Builder) (t : Token) : Outcome :=
  -- a head alone does not count here
  let leave := if b.inTableScope (ElementName.isHtml ["table", "tbody", "tfoot"]) then
      b.sectionContext.pop.redo .inTable
    else used b
  match t with
  | .startTag tag =>
    if tag.name == "tr" then used ((b.sectionContext.openTag tag).withMode .inRow)
    else if tag.name == "th" || tag.name == "td" then
      (b.sectionContext.openImplied "tr").redo .inRow
    else if ["caption", "col", "colgroup", "tbody", "tfoot", "thead"].contains tag.name then leave
    else b.inTable t
  | .endTag name =>
    if ["tbody", "tfoot", "thead"].contains name then
      used (if b.inTableScope (ElementName.is name) then
        b.sectionContext.pop.withMode .inTable else b)
    else if name == "table" then leave
    else if ["body", "caption", "col", "colgroup", "html", "td", "th", "tr"].contains name then
      used b
    else b.inTable t
  | _ => b.inTable t

def inRow (b : Builder) (t : Token) : Outcome :=
  let hasRow := b.inTableScope (ElementName.is "tr")
  let closed := b.rowContext.pop
  match t with
  | .startTag tag =>
    if tag.name == "th" || tag.name == "td" then
      used (((b.rowContext.openTag tag).withMode .inCell).addMarker)
    else if ["caption", "col", "colgroup", "tbody", "tfoot", "thead", "tr"].contains tag.name then
      if hasRow then closed.redo .inTableBody else used b
    else b.inTable t
  | .endTag name =>
    if name == "tr" then used (if hasRow then closed.withMode .inTableBody else b)
    else if name == "table" then if hasRow then closed.redo .inTableBody else used b
    else if ["tbody", "tfoot", "thead"].contains name then
      if b.inTableScope (ElementName.is name) then
        (if hasRow then closed else b).redo .inTableBody
      else used b
    else if ["body", "caption", "col", "colgroup", "html", "td", "th"].contains name then used b
    else b.inTable t
  | _ => b.inTable t

def inCell (b : Builder) (t : Token) : Outcome :=
  let closed := (b.closeImplied.popThrough (ElementName.isHtml ["td", "th"])).clearToMarker
  match t with
  | .startTag tag =>
    if ["caption", "col", "colgroup", "tbody", "td", "tfoot", "th", "thead", "tr"].contains
        tag.name then
      if b.inTableScope (ElementName.isHtml ["td", "th"]) then closed.redo .inRow else used b
    else b.inBody t
  | .endTag name =>
    if name == "td" || name == "th" then
      used (if b.inTableScope (ElementName.is name) then
        ((b.closeImplied.popThrough (ElementName.is name)).clearToMarker).withMode .inRow
      else b)
    else if ["body", "caption", "col", "colgroup", "html"].contains name then used b
    else if ["table", "tbody", "tfoot", "thead", "tr"].contains name then
      if b.inTableScope (ElementName.is name) then closed.redo .inRow else used b
    else b.inBody t
  | _ => b.inBody t

/-- Ends a selection. -/
def closeSelect (b : Builder) : Builder := (b.popThrough (ElementName.is "select")).resetMode

def inSelect (b : Builder) (t : Token) : Outcome :=
  let hasSelect := b.inScope ElementName.boundsSelectScope (ElementName.is "select")
  match t with
  | .character c => used (if c == '\x00' then b else b.insertCharacter c)
  | .comment s => used (b.insertComment s)
  | .doctype _ => used b
  | .startTag tag =>
    let name := tag.name
    if name == "html" then used (b.repeatedRoot tag)
    else if name == "option" then used ((b.popIf (ElementName.is "option")).openTag tag)
    else if name == "optgroup" then
      used (((b.popIf (ElementName.is "option")).popIf (ElementName.is "optgroup")).openTag tag)
    else if name == "select" then used (if hasSelect then b.closeSelect else b)
    else if ["input", "keygen", "textarea"].contains name then
      if hasSelect then again b.closeSelect else used b
    else if name == "script" || name == "template" then used ((b.headStart tag).getD b)
    else used b
  | .endTag name =>
    if name == "optgroup" then
      let inGroup := ((b.opened.drop 1).head?.map (fun e => e.name.is "optgroup")).getD false
      let b := if inGroup then b.popIf (ElementName.is "option") else b
      used (b.popIf (ElementName.is "optgroup"))
    else if name == "option" then used (b.popIf (ElementName.is "option"))
    else if name == "select" then used (if hasSelect then b.closeSelect else b)
    else if name == "template" then used ((b.headEnd name).getD b)
    else used b

def inSelectInTable (b : Builder) (t : Token) : Outcome :=
  let parts := ["caption", "table", "tbody", "tfoot", "thead", "tr", "td", "th"]
  match t with
  | .startTag tag => if parts.contains tag.name then again b.closeSelect else b.inSelect t
  | .endTag name =>
    if parts.contains name then
      if b.inTableScope (ElementName.is name) then again b.closeSelect else used b
    else b.inSelect t
  | _ => b.inSelect t

end ApiTypings.Markup.Builder
