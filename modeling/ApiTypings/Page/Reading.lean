import ApiTypings.Page.Table

/-!
# Reading a page

A type has a heading of its own. The paragraphs right after it are its documentation. The
first table before the next heading describes a record, else the first list a union; a
section without either says nothing about its values. Every heading that is a type name
contributes an entry. The first section that cannot be read decides the error; after that
every reference has to lead to an entry.
-/
namespace ApiTypings.Page

open Markup Text

/-! ### Lists of types -/

/-- The member of a union that one item names. -/
def itemName (s : String) : Except PageError ApiType :=
  let name := trimmed s
  if isTypeName name.toList then .ok (.named name []) else .error (.invalidListItem name)

/-- The types that a list names. -/
def readListing (listing : Spot) : Except PageError (List ApiType) :=
  (listing.withPath ["li"]).mapM (fun item => itemName item.text)

/-! ### Sections -/

def headingTag : String := "h4"

def titleTag : String := "h3"

/-- The elements after a heading; text and comments between them do not count. -/
def followingElements (heading : Spot) : List Spot :=
  heading.followers.filter (fun s => s.node.isElement)

/-- The elements after a heading that belong to its section. -/
def sectionElements (heading : Spot) : List Spot :=
  (followingElements heading).takeWhile (fun s => !s.hasTag headingTag && !s.hasTag titleTag)

def sectionName (heading : Spot) : String := trimmed heading.text

/-- The paragraphs right after a heading. -/
def sectionComments (heading : Spot) : List DocComment :=
  ((followingElements heading).takeWhile (Spot.hasTag "p")).map (fun s => commentOf s.node)

/-- The type that a section describes. -/
def readSection (heading : Spot) : Except PageError ApiType :=
  let comments := sectionComments heading
  match (sectionElements heading).find? (Spot.hasTag "table") with
  | some table => (readTable table).map (fun ps => .record ps comments)
  | none =>
    match (sectionElements heading).find? (Spot.hasTag "ul") with
    | some listing => (readListing listing).map (fun ts => .union ts comments)
    | none => .ok (.any comments)

/-! ### Pages -/

/-- The headings of a document in order. -/
def headings (document : List Node) : List Spot :=
  (spotsOfAll [] document).filter (Spot.hasTag headingTag)

/-- The headings that are type names. -/
def typeHeadings (document : List Node) : List Spot :=
  (headings document).filter (fun h => isTypeName (sectionName h).toList)

/-- The entry of one heading. -/
def readEntry (heading : Spot) : Except PageError (String × ApiType) :=
  match readSection heading with
  | .ok type => .ok (sectionName heading, type)
  | .error e => .error (.inEntry (sectionName heading) e)

def checkClosed (s : Schema) : Except PageError Schema :=
  match s.dangling? with
  | none => .ok s
  | some r => .error (.unresolvedReference r)

/-- The schema of a document. -/
def readSchema (document : List Node) : Except PageError Schema := do
  let entries ← (typeHeadings document).mapM readEntry
  checkClosed (Schema.ofList entries)

/-- The schema of a page. -/
def readPage (text : String) : Except PageError Schema := readSchema (readDocument text)

end ApiTypings.Page
