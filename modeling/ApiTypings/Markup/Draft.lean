import ApiTypings.Markup.Node

/-!
# Trees under construction

While a document is read its nodes are numbered, so that a node can be moved while other
parts of the construction still refer to it. Number 0 is the document itself. A finished
draft is turned into a tree once and then given up.
-/
namespace ApiTypings.Markup

abbrev NodeId := Nat

/-- Inserts an attribute at its place; an earlier one of the same name stays. -/
def insertAttribute (a : Attribute) : List Attribute → List Attribute
  | [] => [a]
  | b :: bs =>
    if a.space = b.space ∧ a.name = b.name then b :: bs
    else if a.space.ctorIdx < b.space.ctorIdx ∨
        (a.space = b.space ∧ a.name < b.name) then a :: b :: bs
    else b :: insertAttribute a bs

def sortAttributes (as : List Attribute) : List Attribute :=
  as.foldl (fun sorted a => insertAttribute a sorted) []

inductive DraftContent where
  | root
  | element (name : ElementName) (attributes : List Attribute) (contents : Option NodeId)
  | text (content : String)
  | comment (content : String)
  | doctype (name : String)

structure DraftNode where
  content : DraftContent
  parent : Option NodeId := none
  children : Array NodeId := #[]

structure Draft where
  nodes : Array DraftNode

namespace Draft

def documentId : NodeId := 0

/-- A document without nodes. -/
def empty : Draft := ⟨#[⟨.root, none, #[]⟩]⟩

def parent? (d : Draft) (id : NodeId) : Option NodeId := d.nodes[id]?.bind DraftNode.parent

def children (d : Draft) (id : NodeId) : Array NodeId :=
  (d.nodes[id]?.map DraftNode.children).getD #[]

/-- Adds a node that stands nowhere yet. -/
def add (d : Draft) (content : DraftContent) : Draft × NodeId :=
  (⟨d.nodes.push ⟨content, none, #[]⟩⟩, d.nodes.size)

/-- Adds an element; a template gets a separate root for its contents. -/
def addElement (d : Draft) (name : ElementName) (attributes : List Attribute) :
    Draft × NodeId :=
  if name = ⟨.html, "template"⟩ then
    let (d, contents) := d.add .root
    d.add (.element name (sortAttributes attributes) (some contents))
  else d.add (.element name (sortAttributes attributes) none)

/-- Where the children of an element go: under itself, or under the root of its contents. -/
def contentRoot (d : Draft) (id : NodeId) : NodeId :=
  match d.nodes[id]? with
  | some ⟨.element _ _ (some contents), _, _⟩ => contents
  | _ => id

/-- Takes a node away from its parent. -/
def detach (d : Draft) (id : NodeId) : Draft :=
  match d.parent? id with
  | none => d
  | some p =>
    let nodes := d.nodes.modify p (fun n => { n with children := n.children.filter (· != id) })
    ⟨nodes.modify id (fun n => { n with parent := none })⟩

/-- Makes a node the last child of another. -/
def append (d : Draft) (parent id : NodeId) : Draft :=
  let nodes := (d.detach id).nodes
  let nodes := nodes.modify parent (fun n => { n with children := n.children.push id })
  ⟨nodes.modify id (fun n => { n with parent := some parent })⟩

/-- The list of children with a node put in front of a sibling. -/
def childrenBefore (sibling id : NodeId) (cs : Array NodeId) : Array NodeId :=
  (cs.toList.flatMap (fun c => if c == sibling then [id, c] else [c])).toArray

/-- Puts a node in front of a sibling that has a parent. -/
def insertBefore (d : Draft) (sibling id : NodeId) : Draft :=
  let d := d.detach id
  match d.parent? sibling with
  | none => d
  | some p =>
    let nodes := d.nodes.modify p
      (fun n => { n with children := childrenBefore sibling id n.children })
    ⟨nodes.modify id (fun n => { n with parent := some p })⟩

def isText (d : Draft) (id : NodeId) : Bool :=
  match d.nodes[id]? with
  | some ⟨.text _, _, _⟩ => true
  | _ => false

/-- Adds a character to the end of a text node. -/
def extendText (d : Draft) (id : NodeId) (c : Char) : Draft :=
  ⟨d.nodes.modify id (fun n => match n with
    | ⟨.text s, p, cs⟩ => ⟨.text (s.push c), p, cs⟩
    | _ => n)⟩

/-- Adds a character at the end of a node, to the text that stands there if there is one. -/
def appendText (d : Draft) (parent : NodeId) (c : Char) : Draft :=
  match (d.children parent).back?.filter d.isText with
  | some last => d.extendText last c
  | none =>
    let (d, id) := d.add (.text (String.singleton c))
    d.append parent id

/-- The node in front of a sibling. -/
def before? (d : Draft) (sibling : NodeId) : Option NodeId := do
  let p ← d.parent? sibling
  ((d.children p).toList.takeWhile (· != sibling)).getLast?

/-- Adds a character in front of a sibling, to the text that stands there if there is one. -/
def insertTextBefore (d : Draft) (sibling : NodeId) (c : Char) : Draft :=
  match (d.before? sibling).filter d.isText with
  | some last => d.extendText last c
  | none =>
    let (d, id) := d.add (.text (String.singleton c))
    d.insertBefore sibling id

/-- Moves all children of a node to the end of another. -/
def moveChildren (d : Draft) (source target : NodeId) : Draft :=
  (d.children source).foldl (fun d id => d.append target id) d

/-- Adds the attributes that an element does not have yet. -/
def mergeAttributes (d : Draft) (id : NodeId) (more : List Attribute) : Draft :=
  ⟨d.nodes.modify id (fun n => match n with
    | ⟨.element name as contents, p, cs⟩ =>
      ⟨.element name (more.foldl (fun as a => insertAttribute a as) as) contents, p, cs⟩
    | _ => n)⟩

/-- The trees of some nodes, down to the given depth. -/
def trees (d : Draft) : Nat → List NodeId → List Node
  | 0, _ => []
  | depth + 1, ids => ids.filterMap (fun id =>
    match d.nodes[id]? with
    | none => none
    | some n =>
      match n.content with
      | .root => none
      | .element name as contents =>
        some (.element name as (d.trees depth n.children.toList)
          (d.trees depth ((contents.map (fun c => (d.children c).toList)).getD [])))
      | .text s => some (.text s)
      | .comment s => some (.comment s)
      | .doctype name => some (.doctype name))

/-- The finished document. No branch is longer than there are nodes. -/
def document (d : Draft) : List Node :=
  d.trees (d.nodes.size + 1) (d.children documentId).toList

end Draft

end ApiTypings.Markup
