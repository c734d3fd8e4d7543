import ApiTypings.Markup.Builder.Head

/-!
# Tokens in the body

Start tags of blocks close an open paragraph; inline start tags open the formatting in force
first. An end tag closes the nearest element of its name as far as the scopes allow.
-/
namespace ApiTypings.Markup.Builder

open Outcome

/-- Blocks that close a paragraph and have no rules of their own. -/
def blockTags : List String :=
  ["address", "article", "aside", "blockquote", "center", "details", "dialog", "dir", "div", "dl",
   "fieldset", "figcaption", "figure", "footer", "header", "hgroup", "main", "menu", "nav", "ol",
   "p", "section", "summary", "ul"]

/-- Elements whose end tag closes what it implies and then the element. -/
def blockEndTags : List String :=
  ["address", "article", "aside", "blockquote", "button", "center", "details", "dialog", "dir",
   "div", "dl", "fieldset", "figcaption", "figure", "footer", "header", "hgroup", "listing",
   "main", "menu", "nav", "ol", "pre", "section", "summary", "ul"]

def formattingTags : List String :=
  ["b", "big", "code", "em", "font", "i", "s", "small", "strike", "strong", "tt", "u"]

/-- Parts of tables and of the document frame, which mean nothing inside the body. -/
def strayTags : List String :=
  ["caption", "col", "colgroup", "frame", "head", "tbody", "td", "tfoot", "th", "thead", "tr"]

def noFrameset (b : Builder) : Builder := { b with framesetAllowed := false }

/-- Whether an `input` is not shown. -/
def isHiddenInput (tag : StartTag) : Bool :=
  match tag.attributes.lookup "type" with
  | some v => v.toLower == "hidden"
  | none => false

/-- Closes an open item of the same list before a new one. -/
def closeItem (b : Builder) (tags : List String) : Builder :=
  let bounds := fun (n : ElementName) => n.isSpecial && !n.isHtml ["address", "div", "p"]
  match go bounds b.opened with
  | none => b
  | some tag => (b.closeImpliedBut tag).popThrough (ElementName.is tag)
where
  go (bounds : ElementName → Bool) : List OpenElement → Option String
    | [] => none
    | e :: es =>
      if e.name.isHtml tags then some e.name.tag
      else if bounds e.name then none
      else go bounds es

/-- Inserts the outermost element of a drawing or formula. -/
def enterForeign (b : Builder) (vocabulary : Vocabulary) (tag : StartTag) : Builder :=
  (b.insertElement ⟨vocabulary, tag.name⟩
    (tag.attributes.map (Foreign.attributeOf vocabulary)) (!tag.selfClosing)).1

/-- Replaces the body by a frame set. -/
def startFrameset (b : Builder) (tag : StartTag) : Builder :=
  match if b.framesetAllowed then b.body? else none with
  | none => b
  | some body =>
    let b := { b with draft := b.draft.detach body.id, opened := b.root?.toList }
    (b.openTag tag).withMode .inFrameset

def startForm (b : Builder) (tag : StartTag) : Builder :=
  let inTemplate := b.hasOpen "template"
  if b.form.isSome && !inTemplate then b
  else
    let (b, e) := b.closeParagraphInScope.insertElement ⟨.html, "form"⟩ (plainAttributes tag) true
    if inTemplate then b else { b with form := some e.id }

/-- A void element in running text. -/
def insertInlineVoid (b : Builder) (tag : StartTag) : Builder :=
  let b := b.reconstruct.insertVoid tag
  if tag.name == "input" && isHiddenInput tag then b else b.noFrameset

def startSelect (b : Builder) (tag : StartTag) : Builder :=
  let inTable := [Mode.inTable, .inCaption, .inTableBody, .inRow, .inCell].contains b.mode
  let opened := (b.reconstruct.openTag tag).noFrameset
  opened.withMode (if inTable then .inSelectInTable else .inSelect)

def bodyStart (b : Builder) (tag : StartTag) : Builder :=
  let name := tag.name
  if name == "html" then b.repeatedRoot tag
  else if metadataTags.contains name then (b.headStart tag).getD b
  else if name == "body" then
    match b.body? with
    | some e => if b.hasOpen "template" then b else b.noFrameset.mergeTag (some e) tag
    | none => b
  else if name == "frameset" then b.startFrameset tag
  else if blockTags.contains name then b.closeParagraphInScope.openTag tag
  else if ElementName.headings.contains name then
    (b.closeParagraphInScope.popIf (ElementName.isHtml ElementName.headings)).openTag tag
  else if name == "pre" || name == "listing" then
    { (b.closeParagraphInScope.openTag tag).noFrameset with skipsNewline := true }
  else if name == "form" then b.startForm tag
  else if name == "li" then
    ((b.noFrameset.closeItem ["li"]).closeParagraphInScope).openTag tag
  else if name == "dd" || name == "dt" then
    ((b.noFrameset.closeItem ["dd", "dt"]).closeParagraphInScope).openTag tag
  else if name == "plaintext" then
    { b.closeParagraphInScope.openTag tag with model := .plainText }
  else if name == "button" then
    let b := if b.inScope ElementName.boundsScope (ElementName.is "button") then
        b.closeImplied.popThrough (ElementName.is "button")
      else b
    (b.reconstruct.openTag tag).noFrameset
  else if name == "a" then b.closeOpenLink.reconstruct.openFormatting tag
  else if formattingTags.contains name then b.reconstruct.openFormatting tag
  else if name == "nobr" then
    let b := b.reconstruct
    let b := if b.inScope ElementName.boundsScope (ElementName.is "nobr") then
        (b.closeFormatting "nobr").reconstruct
      else b
    b.openFormatting tag
  else if ["applet", "marquee", "object"].contains name then
    ((b.reconstruct.openTag tag).addMarker).noFrameset
  else if name == "table" then
    let b := if b.lenient then b else b.closeParagraphInScope
    ((b.openTag tag).noFrameset).withMode .inTable
  else if ["area", "br", "embed", "img", "keygen", "wbr", "input"].contains name then
    b.insertInlineVoid tag
  else if ["param", "source", "track"].contains name then b.insertVoid tag
  else if name == "hr" then (b.closeParagraphInScope.insertVoid tag).noFrameset
  else if name == "image" then b.insertInlineVoid { tag with name := "img" }
  else if name == "textarea" then
    { b.noFrameset.openText tag (.referenceText name) with skipsNewline := true }
  else if name == "xmp" then
    b.closeParagraphInScope.reconstruct.noFrameset.openText tag (.rawText name)
  else if name == "iframe" then b.noFrameset.openText tag (.rawText name)
  else if name == "noembed" || name == "noscript" then b.openText tag (.rawText name)
  else if name == "select" then b.startSelect tag
  else if name == "optgroup" || name == "option" then
    ((b.popIf (ElementName.is "option")).reconstruct).openTag tag
  else if name == "rb" || name == "rtc" then
    let inRuby := b.inScope ElementName.boundsScope (ElementName.is "ruby")
    (if inRuby then b.closeImplied else b).openTag tag
  else if name == "rp" || name == "rt" then
    let inRuby := b.inScope ElementName.boundsScope (ElementName.is "ruby")
    (if inRuby then b.closeImpliedBut "rtc" else b).openTag tag
  else if name == "math" then b.enterForeign .math tag
  else if name == "svg" then b.enterForeign .svg tag
  else if strayTags.contains name then b
  else b.reconstruct.openTag tag

def endForm (b : Builder) : Builder :=
  if b.hasOpen "template" then
    if b.inScope ElementName.boundsScope (ElementName.is "form") then
      b.closeImplied.popThrough (ElementName.is "form")
    else b
  else
    match b.form with
    | none => b
    | some id =>
      let b := { b with form := none }
      if foundBefore ElementName.boundsScope (fun e => e.id == id) b.opened then
        b.closeImplied.removeOpen id
      else b

/-- An end tag in the body; `body` and `html` are left to the caller. -/
def bodyEnd (b : Builder) (name : String) : Builder :=
  let inUsualScope := b.inScope ElementName.boundsScope (ElementName.is name)
  if name == "template" then (b.headEnd name).getD b
  else if blockEndTags.contains name then
    if inUsualScope then b.closeImplied.popThrough (ElementName.is name) else b
  else if name == "form" then b.endForm
  else if name == "p" then
    if b.inScope ElementName.boundsButtonScope (ElementName.is "p") then b.closeParagraph
    else (b.openImplied "p").closeParagraph
  else if name == "li" then
    if b.inScope ElementName.boundsListScope (ElementName.is name) then
      (b.closeImpliedBut name).popThrough (ElementName.is name)
    else b
  else if name == "dd" || name == "dt" then
    if inUsualScope then (b.closeImpliedBut name).popThrough (ElementName.is name) else b
  else if ElementName.headings.contains name then
    if b.inScope ElementName.boundsScope (ElementName.isHtml ElementName.headings) then
      b.closeImplied.popThrough (ElementName.isHtml ElementName.headings)
    else b
  else if name == "a" || name == "nobr" || formattingTags.contains name then
    b.closeFormatting name
  else if ["applet", "marquee", "object"].contains name then
    if inUsualScope then (b.closeImplied.popThrough (ElementName.is name)).clearToMarker else b
  else if name == "br" then b.insertInlineVoid ⟨"br", [], false⟩
  else b.closeNearest name

def inBody (b : Builder) (t : Token) : Outcome :=
  match t with
  | .character c =>
    if c == '\x00' then used b
    else
      let b := b.reconstruct
      used ((if Lexer.isSpace c then b else b.noFrameset).insertCharacter c)
  | .comment s => used (b.insertComment s)
  | .doctype _ => used b
  | .startTag tag => used (b.bodyStart tag)
  | .endTag name =>
    let hasBody := b.inScope ElementName.boundsScope (ElementName.is "body")
    if name == "body" then used (if hasBody then b.withMode .afterBody else b)
    else if name == "html" then if hasBody then b.redo .afterBody else used b
    else used (b.bodyEnd name)

/-- Treats a token as in the body, with content of tables put in front of them. -/
def fosterInBody (b : Builder) (t : Token) : Outcome :=
  (inBody { b with fostering := true } t).map (fun b => { b with fostering := false })

end ApiTypings.Markup.Builder
