/-!
# Documents as trees

A document is a list of nodes. Elements carry a name in one of three vocabularies, their
attributes in order of name, and their children. The contents of a `template` stand apart:
they belong to its markup but are neither children nor text of the document.
-/
namespace ApiTypings.Markup

/-- The vocabulary of an element. -/
inductive Vocabulary where
  | html
  | svg
  | math
  deriving DecidableEq, Repr

structure ElementName where
  vocabulary : Vocabulary
  tag : String
  deriving DecidableEq, Repr

/-- The name spaces of attributes, in the order in which attributes are listed. -/
inductive AttributeSpace where
  | plain
  | xlink
  | xmlns
  | xml
  deriving DecidableEq, Repr

structure Attribute where
  space : AttributeSpace
  name : String
  value : String
  deriving DecidableEq, Repr

inductive Node where
  | element (name : ElementName) (attributes : List Attribute) (children : List Node)
      (contents : List Node)
  | text (content : String)
  | comment (content : String)
  | doctype (name : String)
  deriving Repr

namespace Node

def elementName? : Node → Option ElementName
  | element name .. => some name
  | _ => none

def isElement (n : Node) : Bool := n.elementName?.isSome

/-- Whether the node is an element with the given tag, in whatever vocabulary. -/
def hasTag (tag : String) : Node → Bool
  | element name .. => name.tag == tag
  | _ => false

def children : Node → List Node
  | element _ _ cs _ => cs
  | _ => []

/-- The value of an attribute without name space. -/
def attribute? (name : String) : Node → Option String
  | element _ as _ _ =>
    (as.find? (fun a => a.space == .plain && a.name == name)).map Attribute.value
  | _ => none

mutual

/-- All text below a node, in order. Comments and template contents are not text. -/
def textContent : Node → String
  | element _ _ cs _ => textOfAll cs
  | text s => s
  | comment _ => ""
  | doctype _ => ""

def textOfAll : List Node → String
  | [] => ""
  | n :: ns => n.textContent ++ textOfAll ns

end

end Node

end ApiTypings.Markup
