import ApiTypings.Markup.Node

/-!
# Nodes in their place

Reading a page asks what follows a node and what encloses it. A spot is a node together
with the siblings after it and the names of the elements around it, innermost first.
-/
namespace ApiTypings.Markup

structure Spot where
  node : Node
  following : List Node
  enclosing : List ElementName

mutual

/-- The spots of a list of siblings and of all that is below them, in document order. -/
def spotsOfAll (enclosing : List ElementName) : List Node → List Spot
  | [] => []
  | n :: ns => ⟨n, ns, enclosing⟩ :: (spotsBelow enclosing n ++ spotsOfAll enclosing ns)

def spotsBelow (enclosing : List ElementName) : Node → List Spot
  | .element name _ cs _ => spotsOfAll (name :: enclosing) cs
  | .text _ => []
  | .comment _ => []
  | .doctype _ => []

end

namespace Spot

/-- The spot itself and all below it. -/
def all (s : Spot) : List Spot := s :: spotsBelow s.enclosing s.node

/-- The spots of the siblings after a spot. -/
def followers (s : Spot) : List Spot :=
  go s.following
where
  go : List Node → List Spot
    | [] => []
    | n :: ns => ⟨n, ns, s.enclosing⟩ :: go ns

def hasTag (tag : String) (s : Spot) : Bool := s.node.hasTag tag

/-- Whether the node has the first tag, its parent the second, and so on outward. -/
def isPath : List String → Spot → Bool
  | [], _ => true
  | tag :: outer, s => s.hasTag tag && outer.isPrefixOf (s.enclosing.map ElementName.tag)

/-- The spots at and below `s` on a path of tags that is given from the inside out. -/
def withPath (path : List String) (s : Spot) : List Spot := s.all.filter (isPath path)

def text (s : Spot) : String := s.node.textContent

end Spot

end ApiTypings.Markup
