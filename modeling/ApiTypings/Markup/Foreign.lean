import ApiTypings.Markup.Node

/-!
# Names in drawings and formulas

Tags and attributes are read in small letters. Some names of drawings and formulas have
capitals, and some of their attributes belong to name spaces of their own.
-/
namespace ApiTypings.Markup.Foreign

def svgTags : List String :=
  ["altGlyph", "altGlyphDef", "altGlyphItem", "animateColor", "animateMotion",
   "animateTransform", "clipPath", "feBlend", "feColorMatrix", "feComponentTransfer",
   "feComposite", "feConvolveMatrix", "feDiffuseLighting", "feDisplacementMap",
   "feDistantLight", "feDropShadow", "feFlood", "feFuncA", "feFuncB", "feFuncG", "feFuncR",
   "feGaussianBlur", "feImage", "feMerge", "feMergeNode", "feMorphology", "feOffset",
   "fePointLight", "feSpecularLighting", "feSpotLight", "feTile", "feTurbulence",
   "foreignObject", "glyphRef", "linearGradient", "radialGradient", "textPath"]

def svgAttributes : List String :=
  ["attributeName", "attributeType", "baseFrequency", "baseProfile", "calcMode",
   "clipPathUnits", "contentScriptType", "contentStyleType", "diffuseConstant", "edgeMode",
   "externalResourcesRequired", "filterRes", "filterUnits", "glyphRef", "gradientTransform",
   "gradientUnits", "kernelMatrix", "kernelUnitLength", "keyPoints", "keySplines", "keyTimes",
   "lengthAdjust", "limitingConeAngle", "markerHeight", "markerUnits", "markerWidth",
   "maskContentUnits", "maskUnits", "numOctaves", "pathLength", "patternContentUnits",
   "patternTransform", "patternUnits", "pointsAtX", "pointsAtY", "pointsAtZ", "preserveAlpha",
   "preserveAspectRatio", "primitiveUnits", "refX", "refY", "repeatCount", "repeatDur",
   "requiredExtensions", "requiredFeatures", "specularConstant", "specularExponent",
   "spreadMethod", "startOffset", "stdDeviation", "stitchTiles", "surfaceScale",
   "systemLanguage", "tableValues", "targetX", "targetY", "textLength", "viewBox",
   "viewTarget", "xChannelSelector", "yChannelSelector", "zoomAndPan"]

/-- The spelling of a name, given the names that are not all small. -/
def spelled (names : List String) (small : String) : String :=
  (names.find? (fun n => n.toLower == small)).getD small

/-- Attributes that belong to a name space. -/
def spacedAttributes : List (String × AttributeSpace × String) :=
  [("xlink:actuate", .xlink, "actuate"), ("xlink:arcrole", .xlink, "arcrole"),
   ("xlink:href", .xlink, "href"), ("xlink:role", .xlink, "role"), ("xlink:show", .xlink, "show"),
   ("xlink:title", .xlink, "title"), ("xlink:type", .xlink, "type"), ("xml:base", .xml, "base"),
   ("xml:lang", .xml, "lang"), ("xml:space", .xml, "space"), ("xmlns", .xmlns, "xmlns"),
   ("xmlns:xlink", .xmlns, "xlink")]

def elementTag (vocabulary : Vocabulary) (small : String) : String :=
  match vocabulary with
  | .svg => spelled svgTags small
  | _ => small

def attributeOf (vocabulary : Vocabulary) (a : String × String) : Attribute :=
  let name := match vocabulary with
    | .svg => spelled svgAttributes a.1
    | .math => spelled ["definitionURL"] a.1
    | .html => a.1
  match spacedAttributes.lookup name with
  | some (space, short) => ⟨space, short, a.2⟩
  | none => ⟨.plain, name, a.2⟩

/-- Start tags that end drawings and formulas and are read as HTML. -/
def breakingTags : List String :=
  ["b", "big", "blockquote", "body", "br", "center", "code", "dd", "div", "dl", "dt", "em",
   "embed", "h1", "h2", "h3", "h4", "h5", "h6", "head", "hr", "i", "img", "li", "listing",
   "menu", "meta", "nobr", "ol", "p", "pre", "ruby", "s", "small", "span", "strong", "strike",
   "sub", "sup", "table", "tt", "u", "ul", "var"]

end ApiTypings.Markup.Foreign
