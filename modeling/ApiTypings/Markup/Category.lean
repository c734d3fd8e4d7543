import ApiTypings.Markup.Node

/-!
# Categories of elements

The groups of elements that the construction of a document tells apart: those whose end is
implied, those that bound a scope, and those that formatting does not cross.
-/
namespace ApiTypings.Markup.ElementName

/-- Whether the name is one of these tags in the HTML vocabulary. -/
def isHtml (tags : List String) (n : ElementName) : Bool :=
  n.vocabulary == .html && tags.contains n.tag

def is (tag : String) (n : ElementName) : Bool := n.vocabulary == .html && n.tag == tag

def headings : List String := ["h1", "h2", "h3", "h4", "h5", "h6"]

/-- Elements whose end tag may be left out. -/
def impliedEnds : List String :=
  ["dd", "dt", "li", "option", "optgroup", "p", "rb", "rp", "rt", "rtc"]

/-- Elements whose end the end of a template implies. -/
def impliedTemplateEnds : List String :=
  impliedEnds ++ ["caption", "colgroup", "tbody", "td", "tfoot", "th", "thead", "tr"]

/-- Elements that formatting does not reach across. -/
def specialTags : List String :=
  ["address", "applet", "area", "article", "aside", "base", "basefont", "bgsound", "blockquote",
   "body", "br", "button", "caption", "center", "col", "colgroup", "dd", "details", "dir", "div",
   "dl", "dt", "embed", "fieldset", "figcaption", "figure", "footer", "form", "frame", "frameset",
   "h1", "h2", "h3", "h4", "h5", "h6", "head", "header", "hgroup", "hr", "html", "iframe", "img",
   "input", "isindex", "li", "link", "listing", "main", "marquee", "menu", "meta", "nav",
   "noembed", "noframes", "noscript", "object", "ol", "p", "param", "plaintext", "pre", "script",
   "section", "select", "source", "style", "summary", "table", "tbody", "td", "template",
   "textarea", "tfoot", "th", "thead", "title", "tr", "track", "ul", "wbr", "xmp"]

def isSpecial (n : ElementName) : Bool := n.isHtml specialTags

/-- Elements of formulas that hold HTML text. -/
def isTextPoint (n : ElementName) : Bool :=
  n.vocabulary == .math && ["mi", "mo", "mn", "ms", "mtext"].contains n.tag

/-- Elements of drawings that hold HTML. -/
def isHtmlPoint (n : ElementName) : Bool :=
  n.vocabulary == .svg && ["foreignObject", "desc", "title"].contains n.tag

/-- The bounds of the usual scope. -/
def boundsScope (n : ElementName) : Bool :=
  n.isHtml ["applet", "caption", "html", "table", "td", "th", "marquee", "object", "template"] ||
    n.isTextPoint || n.isHtmlPoint

def boundsListScope (n : ElementName) : Bool := n.isHtml ["ol", "ul"] || n.boundsScope

def boundsButtonScope (n : ElementName) : Bool := n.is "button" || n.boundsScope

def boundsTableScope (n : ElementName) : Bool := n.isHtml ["html", "table", "template"]

def boundsSelectScope (n : ElementName) : Bool := !n.isHtml ["optgroup", "option"]

/-- Elements whose own text and inline content move out in front of the table. -/
def fosters (n : ElementName) : Bool := n.isHtml ["table", "tbody", "tfoot", "thead", "tr"]

end ApiTypings.Markup.ElementName
