import ApiTypings.Markup.Builder.Table

/-!
# One token of a document

Every token is treated by the rules of the current mode, or by the rules for drawings and
formulas when the current element is part of one. A token that is looked at again has closed
an element or moved on to a mode closer to the body, so a bound on the rounds suffices.
-/
namespace ApiTypings.Markup.Builder

open Outcome

/-- Public identifiers of document types whose tables may stand inside paragraphs. -/
def lenientPublicIds : List String :=
  ["-//w3o//dtd w3 html strict 3.0//en//", "-/w3c/dtd html 4.0 transitional/en", "html"]

def lenientPublicLeads : List String :=
  ["+//silmaril//dtd html pro v0r11 19970101//", "-//as//dtd html 3.0 aswedit + extensions//",
   "-//advasoft ltd//dtd html 3.0 aswedit + extensions//", "-//ietf//dtd html 2.0 level 1//",
   "-//ietf//dtd html 2.0 level 2//", "-//ietf//dtd html 2.0 strict level 1//",
   "-//ietf//dtd html 2.0 strict level 2//", "-//ietf//dtd html 2.0 strict//",
   "-//ietf//dtd html 2.0//", "-//ietf//dtd html 2.1e//", "-//ietf//dtd html 3.0//",
   "-//ietf//dtd html 3.2 final//", "-//ietf//dtd html 3.2//", "-//ietf//dtd html 3//",
   "-//ietf//dtd html level 0//", "-//ietf//dtd html level 1//", "-//ietf//dtd html level 2//",
   "-//ietf//dtd html level 3//", "-//ietf//dtd html strict level 0//",
   "-//ietf//dtd html strict level 1//", "-//ietf//dtd html strict level 2//",
   "-//ietf//dtd html strict level 3//", "-//ietf//dtd html strict//", "-//ietf//dtd html//",
   "-//metrius//dtd metrius presentational//",
   "-//microsoft//dtd internet explorer 2.0 html strict//",
   "-//microsoft//dtd internet explorer 2.0 html//",
   "-//microsoft//dtd internet explorer 2.0 tables//",
   "-//microsoft//dtd internet explorer 3.0 html strict//",
   "-//microsoft//dtd internet explorer 3.0 html//",
   "-//microsoft//dtd internet explorer 3.0 tables//", "-//netscape comm. corp.//dtd html//",
   "-//netscape comm. corp.//dtd strict html//", "-//o'reilly and associates//dtd html 2.0//",
   "-//o'reilly and associates//dtd html extended 1.0//",
   "-//o'reilly and associates//dtd html extended relaxed 1.0//",
   "-//softquad software//dtd hotmetal pro 6.0::19990601::extensions to html 4.0//",
   "-//softquad//dtd hotmetal pro 4.0::19971010::extensions to html 4.0//",
   "-//spyglass//dtd html 2.0 extended//", "-//sq//dtd html 2.0 hotmetal + extensions//",
   "-//sun microsystems corp.//dtd hotjava html//",
   "-//sun microsystems corp.//dtd hotjava strict html//", "-//w3c//dtd html 3 1995-03-24//",
   "-//w3c//dtd html 3.2 draft//", "-//w3c//dtd html 3.2 final//", "-//w3c//dtd html 3.2//",
   "-//w3c//dtd html 3.2s draft//", "-//w3c//dtd html 4.0 frameset//",
   "-//w3c//dtd html 4.0 transitional//", "-//w3c//dtd html experimental 19960712//",
   "-//w3c//dtd html experimental 970421//", "-//w3c//dtd w3 html//", "-//w3o//dtd w3 html 3.0//",
   "-//webtechs//dtd mozilla html 2.0//", "-//webtechs//dtd mozilla html//"]

/-- Leads of public identifiers that are lenient without a system identifier. -/
def lenientAloneLeads : List String :=
  ["-//w3c//dtd html 4.01 frameset//", "-//w3c//dtd html 4.01 transitional//"]

def hasLead (leads : List String) (s : String) : Bool :=
  leads.any (fun l => l.toList.isPrefixOf s.toList)

/-- Whether a document of this type may have tables inside paragraphs. -/
def isLenient (d : Doctype) : Bool :=
  let publicId := (d.publicId.getD "").toLower
  let systemId := (d.systemId.getD "").toLower
  d.malformed || d.name != "html" || lenientPublicIds.contains publicId ||
    systemId == "http://www.ibm.com/data/dtd/v11/ibmxhtml1-transitional.dtd" ||
    hasLead lenientPublicLeads publicId ||
    (hasLead lenientAloneLeads publicId && d.systemId.isNone)

def declareType (b : Builder) (d : Doctype) : Builder :=
  let (draft, id) := b.draft.add (.doctype d.name)
  { b with
    draft := draft.append Draft.documentId id
    lenient := isLenient d
    mode := .beforeHtml }

/-! ## Before and after the body -/

def inInitial (b : Builder) (t : Token) : Outcome :=
  let leave := { b with lenient := true }.redo .beforeHtml
  match t with
  | .character c => if Lexer.isSpace c then used b else leave
  | .comment s => used (b.commentUnder Draft.documentId s)
  | _ => leave

def beforeHtml (b : Builder) (t : Token) : Outcome :=
  let leave := (b.openRoot ⟨"html", [], false⟩).redo .beforeHead
  match t with
  | .character c => if Lexer.isSpace c then used b else leave
  | .comment s => used (b.commentUnder Draft.documentId s)
  | .doctype _ => used b
  | .startTag tag =>
    if tag.name == "html" then used ((b.openRoot tag).withMode .beforeHead) else leave
  | .endTag name => if ["head", "body", "html", "br"].contains name then leave else used b

def openHead (b : Builder) (tag : StartTag) : Builder :=
  let (b, e) := b.insertElement ⟨.html, "head"⟩ (plainAttributes tag) true
  { b with head := some e }

def beforeHead (b : Builder) (t : Token) : Outcome :=
  let leave := (b.openHead ⟨"head", [], false⟩).redo .inHead
  match t with
  | .character c => if Lexer.isSpace c then used b else leave
  | .comment s => used (b.insertComment s)
  | .doctype _ => used b
  | .startTag tag =>
    if tag.name == "html" then used (b.repeatedRoot tag)
    else if tag.name == "head" then used ((b.openHead tag).withMode .inHead)
    else leave
  | .endTag name => if ["head", "body", "html", "br"].contains name then leave else used b

/-- Treats a token as in the head, which is open for this token only. -/
def backInHead (b : Builder) (t : Token) : Outcome :=
  match b.head with
  | none => used b
  | some head =>
    (inHead { b with opened := head :: b.opened } t).map (fun b => b.removeOpen head.id)

def afterHead (b : Builder) (t : Token) : Outcome :=
  let leave := (b.openImplied "body").redo .inBody
  match t with
  | .character c => if Lexer.isSpace c then used (b.insertCharacter c) else leave
  | .comment s => used (b.insertComment s)
  | .doctype _ => used b
  | .startTag tag =>
    if tag.name == "html" then used (b.repeatedRoot tag)
    else if tag.name == "body" then used ((b.openTag tag).noFrameset.withMode .inBody)
    else if tag.name == "frameset" then used ((b.openTag tag).withMode .inFrameset)
    else if metadataTags.contains tag.name then b.backInHead t
    else if tag.name == "head" then used b
    else leave
  | .endTag name =>
    if name == "template" then used ((b.headEnd name).getD b)
    else if ["body", "html", "br"].contains name then leave
    else used b

/-- Text of an element whose content is not markup. -/
def inText (b : Builder) (t : Token) : Outcome :=
  match t with
  | .character c => used (b.insertCharacter c)
  | .endTag _ => used { b.pop with mode := b.returnMode, model := .markup }
  | _ => used b

def inTemplate (b : Builder) (t : Token) : Outcome :=
  let enter := fun (mode : Mode) =>
    { b with templateModes := mode :: b.templateModes.drop 1 }.redo mode
  match t with
  | .character c => if c == '\x00' then used b else b.inBody t
  | .comment _ => b.inBody t
  | .doctype _ => used b
  | .startTag tag =>
    if metadataTags.contains tag.name then used ((b.headStart tag).getD b)
    else if ["caption", "colgroup", "tbody", "tfoot", "thead"].contains tag.name then
      enter .inTable
    else if tag.name == "col" then enter .inColumnGroup
    else if tag.name == "tr" then enter .inTableBody
    else if tag.name == "td" || tag.name == "th" then enter .inRow
    else enter .inBody
  | .endTag name => if name == "template" then used ((b.headEnd name).getD b) else used b

def afterBody (b : Builder) (t : Token) : Outcome :=
  let leave := b.redo .inBody
  match t with
  | .character c => if Lexer.isSpace c then b.inBody t else leave
  | .comment s => used (match b.root? with
    | some e => b.commentUnder e.id s
    | none => b)
  | .doctype _ => used b
  | .startTag tag => if tag.name == "html" then used (b.repeatedRoot tag) else leave
  | .endTag name => if name == "html" then used (b.withMode .afterAfterBody) else leave

def afterAfterBody (b : Builder) (t : Token) : Outcome :=
  let leave := b.redo .inBody
  match t with
  | .character c => if Lexer.isSpace c then b.inBody t else leave
  | .comment s => used (b.commentUnder Draft.documentId s)
  | .doctype _ => used b
  | .startTag tag => if tag.name == "html" then used (b.repeatedRoot tag) else leave
  | .endTag _ => leave

def inFrameset (b : Builder) (t : Token) : Outcome :=
  match t with
  | .character c => used (if Lexer.isSpace c then b.insertCharacter c else b)
  | .comment s => used (b.insertComment s)
  | .doctype _ => used b
  | .startTag tag =>
    used (if tag.name == "html" then b.repeatedRoot tag
      else if tag.name == "frameset" then b.openTag tag
      else if tag.name == "frame" then b.insertVoid tag
      else if tag.name == "noframes" then (b.headStart tag).getD b
      else b)
  | .endTag name =>
    if name == "frameset" && b.opened.length != 1 then
      let b := b.pop
      used (if b.currentIs (ElementName.is "frameset") then b else b.withMode .afterFrameset)
    else used b

def afterFrameset (b : Builder) (t : Token) : Outcome :=
  match t with
  | .character c => used (if Lexer.isSpace c then b.insertCharacter c else b)
  | .comment s => used (b.insertComment s)
  | .doctype _ => used b
  | .startTag tag =>
    used (if tag.name == "html" then b.repeatedRoot tag
      else if tag.name == "noframes" then (b.headStart tag).getD b
      else b)
  | .endTag name => used (if name == "html" then b.withMode .afterAfterFrameset else b)

def afterAfterFrameset (b : Builder) (t : Token) : Outcome :=
  match t with
  | .character c => if Lexer.isSpace c then b.inBody t else used b
  | .comment s => used (b.commentUnder Draft.documentId s)
  | .doctype _ => used b
  | .startTag tag =>
    used (if tag.name == "html" then b.repeatedRoot tag
      else if tag.name == "noframes" then (b.headStart tag).getD b
      else b)
  | .endTag _ => used b

def byMode (b : Builder) (t : Token) : Outcome :=
  match b.mode with
  | .initial => b.inInitial t
  | .beforeHtml => b.beforeHtml t
  | .beforeHead => b.beforeHead t
  | .inHead => b.inHead t
  | .afterHead => b.afterHead t
  | .inBody => b.inBody t
  | .text => b.inText t
  | .inTable => b.inTable t
  | .inTableText => b.inTableText t
  | .inCaption => b.inCaption t
  | .inColumnGroup => b.inColumnGroup t
  | .inTableBody => b.inTableBody t
  | .inRow => b.inRow t
  | .inCell => b.inCell t
  | .inSelect => b.inSelect t
  | .inSelectInTable => b.inSelectInTable t
  | .inTemplate => b.inTemplate t
  | .afterBody => b.afterBody t
  | .inFrameset => b.inFrameset t
  | .afterFrameset => b.afterFrameset t
  | .afterAfterBody => b.afterAfterBody t
  | .afterAfterFrameset => b.afterAfterFrameset t

/-! ## Drawings and formulas -/

/-- Whether the current element is part of a drawing or formula. -/
def inForeign (b : Builder) : Bool := b.currentIs (fun n => n.vocabulary != .html)

/-- Whether a token follows the rules for drawings and formulas. -/
def takesForeign (b : Builder) (t : Token) : Bool :=
  match b.current? with
  | none => false
  | some e =>
    if e.name.vocabulary == .html then false
    else match t with
      | .character _ => !(e.name.isTextPoint || e.name.isHtmlPoint)
      | .startTag tag =>
        !(e.name.isHtmlPoint ||
          (e.name.isTextPoint && tag.name != "mglyph" && tag.name != "malignmark") ||
          (e.name == ⟨.math, "annotation-xml"⟩ && tag.name == "svg"))
      | _ => true

/-- Leaves drawings and formulas for the nearest element that holds HTML. -/
def leaveForeign (b : Builder) : Builder :=
  b.pop.popDownTo (fun n => n.vocabulary == .html || n.isTextPoint || n.isHtmlPoint)

def foreignStart (b : Builder) (tag : StartTag) : Outcome :=
  let styled := tag.attributes.any (fun a => ["color", "face", "size"].contains a.1)
  if Foreign.breakingTags.contains tag.name || (tag.name == "font" && styled) then
    again b.leaveForeign
  else
    let vocabulary := (b.current?.map (fun e => e.name.vocabulary)).getD .html
    used (b.insertElement ⟨vocabulary, Foreign.elementTag vocabulary tag.name⟩
      (tag.attributes.map (Foreign.attributeOf vocabulary)) (!tag.selfClosing)).1

/-- Closes the nearest element of the name. An HTML element on the way hands the tag over to
the current mode. -/
def foreignEnd (b : Builder) (name : String) : Outcome :=
  go true b.opened
where
  go (first : Bool) : List OpenElement → Outcome
    | [] => used b
    | [_] => used b
    | e :: outer =>
      if !first && e.name.vocabulary == .html then b.byMode (.endTag name)
      else if e.name.tag.toLower == name then used { b with opened := outer }
      else go false outer

def foreign (b : Builder) (t : Token) : Outcome :=
  match t with
  | .character c =>
    if c == '\x00' then used (b.insertCharacter replacement)
    else used ((if Lexer.isSpace c then b else b.noFrameset).insertCharacter c)
  | .comment s => used (b.insertComment s)
  | .doctype _ => used b
  | .startTag tag => b.foreignStart tag
  | .endTag name => b.foreignEnd name

/-! ## Whole tokens -/

/-- Treats a token until it is used up. -/
def settle (t : Token) : Nat → Builder → Builder
  | 0, b => b
  | n + 1, b =>
    match if b.takesForeign t then b.foreign t else b.byMode t with
    | used b => b
    | again b => settle t n b

/-- More rounds than any token takes: each one closes an element or comes closer to the body. -/
def rounds (b : Builder) : Nat := 2 * b.opened.length + 24

def add (b : Builder) (t : Token) : Builder :=
  let skips := b.skipsNewline
  let b := { b with skipsNewline := false }
  match t with
  | .doctype d => if b.mode = .initial then b.declareType d else b
  | .character c => if skips && c == '\n' then b else settle t b.rounds b
  | _ => settle t b.rounds b

/-! ## The end of the text -/

/-- One step towards a complete document when the text has ended. -/
def endStep (b : Builder) : Outcome :=
  match b.mode with
  | .initial => { b with lenient := true }.redo .beforeHtml
  | .beforeHtml => (b.openRoot ⟨"html", [], false⟩).redo .beforeHead
  | .beforeHead => (b.openHead ⟨"head", [], false⟩).redo .inHead
  | .inHead => b.pop.redo .afterHead
  | .afterHead => (b.openImplied "body").redo .inBody
  | .text => b.pop.redo b.returnMode
  | .inTableText => b.flushText.redo b.returnMode
  | .afterBody | .inFrameset | .afterFrameset | .afterAfterBody | .afterAfterFrameset => used b
  | _ =>
    if b.templateModes.isEmpty || !b.hasOpen "template" then used b
    else
      let b := b.popThrough (ElementName.is "template")
      again { b.clearToMarker with templateModes := b.templateModes.drop 1 }.resetMode

def finishIn : Nat → Builder → Builder
  | 0, b => b
  | n + 1, b =>
    match b.endStep with
    | used b => b
    | again b => finishIn n b

/-- Completes a document: its outermost elements exist and pending text is placed. -/
def finish (b : Builder) : Builder := finishIn b.rounds b

end ApiTypings.Markup.Builder
