import ApiTypings.Markup.Spot
import ApiTypings.Text.Basic

/-!
# Selectors

Element names, possibly with the names of elements around them: a space asks for an element
somewhere outside, `>` for the parent. A comma separates alternatives.
-/
namespace ApiTypings.Markup

/-- How far outside an element is. -/
inductive Nearness where
  | parent
  | anywhere
  deriving DecidableEq, Repr

/-- One alternative: the name of the element itself, and outward what encloses it. -/
structure Selector.Chain where
  tag : String
  outer : List (Nearness × String)

abbrev Selector := List Selector.Chain

namespace Selector

/-- Small letters match HTML elements in whatever case they are asked for. -/
def matchesName (tag : String) (n : ElementName) : Bool :=
  tag == "*" || n.tag == (if n.vocabulary == .html then tag.toLower else tag)

/-- Whether a test holds of a list or of one of its ends. -/
def holdsOfAnEnd (test : List ElementName → Bool) : List ElementName → Bool
  | [] => test []
  | e :: es => test (e :: es) || holdsOfAnEnd test es

def enclosedBy (es : List ElementName) : List (Nearness × String) → Bool
  | [] => true
  | (.parent, tag) :: outer =>
    match es with
    | [] => false
    | e :: es => matchesName tag e && enclosedBy es outer
  | (.anywhere, tag) :: outer =>
    holdsOfAnEnd (fun rest => match rest with
      | [] => false
      | e :: es => matchesName tag e && enclosedBy es outer) es

def Chain.selects (c : Chain) (s : Spot) : Bool :=
  match s.node.elementName? with
  | none => false
  | some n => matchesName c.tag n && enclosedBy s.enclosing c.outer

def selects (sel : Selector) (s : Spot) : Bool := sel.any (fun c => c.selects s)

/-- The spots of a document that a selector names, in document order. -/
def select (sel : Selector) (document : List Node) : List Spot :=
  (spotsOfAll [] document).filter sel.selects

def isTag (s : List Char) : Bool :=
  s == ['*'] || (s.all (fun c => c.isAlphanum || c == '-' || c == '_') &&
    (s.head?.map (fun c => c.isAlpha || c == '_')).getD false)

/-- The words of a chain from the inside out. -/
def chainOf? (near : Nearness) : List (List Char) → Option (List (Nearness × String))
  | [] => some []
  | w :: ws =>
    if w == ['>'] then if near == .parent || ws.isEmpty then none else chainOf? .parent ws
    else if isTag w then
      (chainOf? .anywhere ws).map (fun outer => (near, String.ofList w) :: outer)
    else none

def spaced (s : List Char) : List Char :=
  s.flatMap (fun c => if c == '>' then [' ', '>', ' '] else [c])

def Chain.ofText? (s : List Char) : Option Chain :=
  match (Text.words (spaced s)).reverse with
  | [] => none
  | w :: ws =>
    if isTag w then (chainOf? .anywhere ws).map (fun outer => ⟨String.ofList w, outer⟩) else none

def ofString? (s : String) : Option Selector :=
  (Text.pieces (fun c => c == ',') s.toList).mapM Chain.ofText?

end Selector

end ApiTypings.Markup
