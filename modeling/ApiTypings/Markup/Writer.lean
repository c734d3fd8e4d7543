import ApiTypings.Markup.Node

/-!
# Markup of a tree

Writes nodes as markup. Text escapes ampersands, angle brackets and no-break spaces, except
inside elements whose content is not parsed; attribute values escape ampersands, double
quotes and no-break spaces. Void elements have neither content nor end tag.
-/
namespace ApiTypings.Markup

def escapeText (c : Char) : String :=
  if c == '&' then "&amp;"
  else if c == '<' then "&lt;"
  else if c == '>' then "&gt;"
  else if c == '\u00A0' then "&nbsp;"
  else c.toString

def escapeValue (c : Char) : String :=
  if c == '&' then "&amp;"
  else if c == '"' then "&quot;"
  else if c == '\u00A0' then "&nbsp;"
  else c.toString

def escapeWith (escape : Char → String) (s : String) : String :=
  s.toList.foldl (fun out c => out ++ escape c) ""

/-- Elements without content and end tag. -/
def voidTags : List String :=
  ["area", "base", "basefont", "bgsound", "br", "col", "embed", "frame", "hr", "img", "input",
   "keygen", "link", "meta", "param", "source", "track", "wbr"]

/-- Elements whose text is written as it is. -/
def unescapedTags : List String :=
  ["style", "script", "xmp", "iframe", "noembed", "noframes", "plaintext", "noscript"]

def ElementName.isVoid (name : ElementName) : Bool :=
  name.vocabulary == .html && voidTags.contains name.tag

def ElementName.isUnescaped (name : ElementName) : Bool :=
  name.vocabulary == .html && unescapedTags.contains name.tag

/-- The part of a written attribute name that stands for its name space. -/
def AttributeSpace.lead (space : AttributeSpace) (name : String) : String :=
  match space with
  | .plain => ""
  | .xlink => "xlink:"
  | .xmlns => if name == "xmlns" then "" else "xmlns:"
  | .xml => "xml:"

def Attribute.markup (a : Attribute) : String :=
  " " ++ a.space.lead a.name ++ a.name ++ "=\"" ++ escapeWith escapeValue a.value ++ "\""

def startTagMarkup (name : ElementName) (attributes : List Attribute) : String :=
  "<" ++ name.tag ++ String.join (attributes.map Attribute.markup) ++ ">"

namespace Node

mutual

/-- The markup of a node; `raw` says whether text is written unescaped. -/
def markup (raw : Bool) : Node → String
  | element name as cs contents =>
    let inner := if name.vocabulary == .html && name.tag == "template" then
        markupOfAll name.isUnescaped contents
      else markupOfAll name.isUnescaped cs
    if name.isVoid then startTagMarkup name as
    else startTagMarkup name as ++ inner ++ "</" ++ name.tag ++ ">"
  | text s => if raw then s else escapeWith escapeText s
  | comment s => "<!--" ++ s ++ "-->"
  | doctype name => "<!DOCTYPE " ++ name ++ ">"

def markupOfAll (raw : Bool) : List Node → String
  | [] => ""
  | n :: ns => n.markup raw ++ markupOfAll raw ns

end

end Node

end ApiTypings.Markup
