import ApiTypings.Page.Reading
import ApiTypings.Proofs.Markup.Spots
import ApiTypings.Proofs.Page.CellGrammar

/-!
# How a schema is laid out on a page

A page is a row of siblings: each entry is a heading, paragraphs and a table or a list, and
other headings with what belongs to them stand between entries. Text and comments may stand
between elements everywhere, and nothing else holds the heading of a type.
-/
namespace ApiTypings.Page

open Markup Text

/-- Whether a node is the heading of a type. -/
def isTypeHeading (n : Node) : Bool :=
  n.hasTag headingTag && isTypeName (trimmed n.textContent).toList

/-- Siblings without the heading of a type at or below them. -/
def Quiet (ns : List Node) : Prop := AllNodes (fun n => isTypeHeading n = false) ns

/-- Content without parts of a table. -/
def HoldsNoTableParts (ns : List Node) : Prop :=
  AllNodes (fun n => ∀ t ∈ ["thead", "tbody", "tr", "th", "td"], n.hasTag t = false) ns

/-- What the cell of a column holds for a property. -/
def IsCellOf (p : Property) (column : Column) (cell : Node) : Prop :=
  match column with
  | .field | .parameter => trimmed cell.textContent = p.name
  | .type => ∃ ss, signs? cell.children = some ss ∧ SpellsType p.type ss
  | .required => trimmed cell.textContent = if p.optional then "Optional" else "Yes"
  | .description => p.description = some (commentOf cell)

/-- The row of a property. Without a column that says so, a property is optional if its
description begins with the word. -/
structure IsRow (columns : List Column) (p : Property) (row : Node) : Prop where
  tag : row.hasTag "tr" = true
  cells : ∀ cell ∈ elementsOf row.children,
    cell.hasTag "td" = true ∧ HoldsNoTableParts cell.children
  name : isIdentifier p.name.toList = true
  contents : List.Forall₂ (IsCellOf p) columns (elementsOf row.children)
  description : .description ∉ columns → p.description = none
  optional : .required ∉ columns →
    (p.optional = true ↔ ∃ d ∈ p.description, "Optional.".toList <+: trimStart d.text.toList)

/-- The header of a table with the given columns, in any order. -/
structure IsHeader (columns : List Column) (row : Node) : Prop where
  tag : row.hasTag "tr" = true
  cells : ∀ cell ∈ elementsOf row.children,
    cell.hasTag "th" = true ∧ HoldsNoTableParts cell.children
  titles : List.Forall₂
    (fun column cell => Column.ofTitle? (trimmed cell.textContent) = some column)
    columns (elementsOf row.children)
  name : ∃ column ∈ columns, column.isName = true
  type : .type ∈ columns

/-- A table of properties, one in each row of its body. -/
structure IsPropertyTable (ps : List Property) (table : Node) : Prop where
  tag : table.hasTag "table" = true
  parts : ∃ head headRow body columns, elementsOf table.children = [head, body] ∧
    head.hasTag "thead" = true ∧ elementsOf head.children = [headRow] ∧
    IsHeader columns headRow ∧ body.hasTag "tbody" = true ∧
    List.Forall₂ (IsRow columns) ps (elementsOf body.children)

/-- A list of type names without lists in its items. -/
structure IsNameList (names : List String) (listing : Node) : Prop where
  tag : listing.hasTag "ul" = true
  items : ∀ item ∈ elementsOf listing.children,
    item.hasTag "li" = true ∧ AllNodes (fun n => n.hasTag "li" = false) item.children
  names : List.Forall₂
    (fun name item => trimmed item.textContent = name ∧ isTypeName name.toList = true)
    names (elementsOf listing.children)

/-- What stands behind the paragraphs of a section. -/
inductive IsBody (comments : List DocComment) : ApiType → List Node → Prop
  | table {ps : List Property} {table : Node} (h : IsPropertyTable ps table) :
    IsBody comments (.record ps comments) [table]
  | listing {names : List String} {listing : Node} (h : IsNameList names listing) :
    IsBody comments (.union (names.map fun n => .named n []) comments) [listing]
  | nothing : IsBody comments (.any comments) []

/-- The heading of an entry and the siblings of its section. -/
structure IsSection (name : String) (type : ApiType) (heading : Node) (rest : List Node) :
    Prop where
  tag : heading.hasTag headingTag = true
  text : trimmed heading.textContent = name
  name : isTypeName name.toList = true
  quiet : Quiet heading.children ∧ Quiet rest
  parts : ∃ paragraphs body, elementsOf rest = paragraphs ++ body ∧
    (∀ p ∈ paragraphs, p.hasTag "p" = true) ∧ IsBody (paragraphs.map commentOf) type body

/-- A title, or a heading of something else, and the siblings that belong to it. -/
structure IsAside (title : Node) (rest : List Node) : Prop where
  tag : title.hasTag headingTag = true ∨ title.hasTag titleTag = true
  quiet : Quiet (title :: rest)

/-- Siblings that lay out entries in order. -/
inductive IsPage : List (String × ApiType) → List Node → Prop
  | nil : IsPage [] []
  | entry {name : String} {type : ApiType} {heading : Node} {rest ns : List Node}
    {es : List (String × ApiType)} (h : IsSection name type heading rest) (hpage : IsPage es ns) :
    IsPage ((name, type) :: es) (heading :: (rest ++ ns))
  | aside {title : Node} {rest ns : List Node} {es : List (String × ApiType)}
    (h : IsAside title rest) (hpage : IsPage es ns) : IsPage es (title :: (rest ++ ns))

/-- A document that holds the siblings, at any depth, and no other heading of a type. -/
inductive Surrounds (siblings : List Node) : List Node → Prop
  | here : Surrounds siblings siblings
  | inside {name : ElementName} {attributes : List Attribute}
    {before children contents after : List Node} (h : Surrounds siblings children)
    (houter : isTypeHeading (.element name attributes children contents) = false)
    (hbefore : Quiet before) (hafter : Quiet after) :
    Surrounds siblings (before ++ .element name attributes children contents :: after)

/-! ### A page -/

/-- An element without attributes. -/
def plainElement (tag : String) (children : List Node) : Node :=
  .element ⟨.html, tag⟩ [] children []

/-- A link into the page. -/
def pageLink (target label : String) : Node :=
  .element ⟨.html, "a"⟩ [⟨.plain, "href", target⟩] [.text label] []

def wordsOf : Scalar → String
  | .boolean => "True"
  | .integer => "Integer"
  | .float => "Float number"
  | .string => "String"

def eventsHeader : Node :=
  plainElement "tr" [plainElement "th" [.text "Type"], plainElement "th" [.text " Description"],
    plainElement "th" [.text "Parameter"], plainElement "th" [.text "Required"]]

def eventsRow (s : Scalar) : Node :=
  plainElement "tr"
    [plainElement "td" [.text "Array of Array of ", pageLink "#chat" "Chat", .text " or ",
      .comment "or else", .text (wordsOf s)],
    plainElement "td" [.text "Where ", plainElement "em" [.text "it"], .text " happened"],
    plainElement "td" [.text "chats\n"], plainElement "td" [.text "Optional"]]

def eventsTable (s : Scalar) : Node :=
  plainElement "table" [.text "\n", plainElement "thead" [eventsHeader], .comment "rows",
    plainElement "tbody" [eventsRow s]]

def eventsProperty (s : Scalar) : Property :=
  ⟨"chats", .array (.array (.union [.named "Chat" [], .scalar s] []) []) [], true,
    some ⟨"Where <em>it</em> happened", "Where it happened"⟩⟩

def eventsEntries (s : Scalar) : List (String × ApiType) :=
  [("Update", .record [eventsProperty s] [⟨"An event.", "An event."⟩]),
    ("Chat", .union [.named "Update" [], .named "Empty" []] []), ("Empty", .any [])]

/-- A record, a union and an unknown type among other headings. -/
def eventsPage (s : Scalar) : List Node :=
  [plainElement "h3" [.text "Getting updates"], plainElement "p" [.text "See below."],
    plainElement "h4" [.text "Update"], .text "\n", plainElement "p" [.text "An event."],
    eventsTable s, plainElement "h4" [.text "Making requests"], plainElement "ul" [],
    plainElement "h4" [.text " Chat "],
    plainElement "ul" [plainElement "li" [.text "Update"], plainElement "li" [.text "Empty"]],
    plainElement "h4" [.text "Empty"]]

/-- The page in the body of a document that begins with a comment. -/
def eventsDocument (s : Scalar) : List Node :=
  [.comment "page", plainElement "html"
    [plainElement "head" [], plainElement "body" (.text "\n" :: eventsPage s)]]

theorem isHeader_events : IsHeader [.type, .description, .parameter, .required] eventsHeader where
  tag := rfl
  cells := by unfold HoldsNoTableParts AllNodes; decide
  titles := .cons rfl (.cons rfl (.cons rfl (.cons rfl .nil)))
  name := ⟨.parameter, by decide, rfl⟩
  type := by decide

theorem isRow_events (s : Scalar) :
    IsRow [.type, .description, .parameter, .required] (eventsProperty s) (eventsRow s) where
  tag := rfl
  cells := by unfold HoldsNoTableParts AllNodes; cases s <;> decide
  name := by cases s <;> decide
  contents := by
    have hlink : SpellsItem (.named "Chat" []) [.link "#chat" "Chat"] :=
      .link (by decide) (by decide)
    have hwords : SpellsItem (.scalar s) (signsOf (wordsOf s)) := .scalar (by cases s <;> rfl)
    have htype : SpellsType (eventsProperty s).type ((arrayWords 2).map .char ++
        ([.link "#chat" "Chat"] ++ signsOf " or " ++ signsOf (wordsOf s))) :=
      ⟨2, _, _, by simp, .cons hlink (.cons hwords .nil), rfl,
        by rw [List.intercalate_cons_cons, List.intercalate_singleton]⟩
    refine .cons ⟨_, ?_, htype⟩ (.cons rfl (.cons rfl (.cons rfl .nil)))
    cases s <;> rfl
  description := by simp
  optional := by simp

theorem isPropertyTable_events (s : Scalar) :
    IsPropertyTable [eventsProperty s] (eventsTable s) :=
  ⟨rfl, _, _, _, _, rfl, rfl, rfl, isHeader_events, rfl, .cons (isRow_events s) .nil⟩

theorem quiet_newline : Quiet [.text "\n"] := by unfold Quiet AllNodes; decide

theorem isPage_events (s : Scalar) : IsPage (eventsEntries s) (eventsPage s) := by
  have hlist : IsNameList ["Update", "Empty"] (plainElement "ul"
      [plainElement "li" [.text "Update"], plainElement "li" [.text "Empty"]]) :=
    ⟨rfl, by unfold AllNodes; decide, .cons ⟨rfl, by decide⟩ (.cons ⟨rfl, by decide⟩ .nil)⟩
  have hempty : IsSection "Empty" (.any []) (plainElement "h4" [.text "Empty"]) [] :=
    ⟨rfl, rfl, by decide, by unfold Quiet AllNodes; decide, [], [], rfl, by simp, .nothing⟩
  have hchat : IsSection "Chat" (.union [.named "Update" [], .named "Empty" []] [])
      (plainElement "h4" [.text " Chat "])
      [plainElement "ul" [plainElement "li" [.text "Update"], plainElement "li" [.text "Empty"]]] :=
    ⟨rfl, rfl, by decide, by unfold Quiet AllNodes; decide, [], _, rfl, by simp, .listing hlist⟩
  have hupdate : IsSection "Update" (.record [eventsProperty s] [⟨"An event.", "An event."⟩])
      (plainElement "h4" [.text "Update"])
      [.text "\n", plainElement "p" [.text "An event."], eventsTable s] :=
    ⟨rfl, rfl, by decide, by unfold Quiet AllNodes; cases s <;> decide,
      [plainElement "p" [.text "An event."]], _, rfl, by decide, .table (isPropertyTable_events s)⟩
  have hmaking : IsAside (plainElement "h4" [.text "Making requests"]) [plainElement "ul" []] :=
    ⟨Or.inl rfl, by unfold Quiet AllNodes; decide⟩
  have hgetting : IsAside (plainElement "h3" [.text "Getting updates"])
      [plainElement "p" [.text "See below."]] :=
    ⟨Or.inr rfl, by unfold Quiet AllNodes; decide⟩
  exact .aside hgetting (.entry hupdate (.aside hmaking (.entry hchat (.entry hempty .nil))))

theorem surrounds_events (s : Scalar) :
    Surrounds ([.text "\n"] ++ eventsPage s) (eventsDocument s) := by
  have hhead : Quiet [plainElement "head" []] := by unfold Quiet AllNodes; decide
  have hcomment : Quiet [.comment "page"] := by unfold Quiet AllNodes; decide
  have hnone : Quiet [] := by unfold Quiet AllNodes; decide
  have hbody : Surrounds ([.text "\n"] ++ eventsPage s)
      ([plainElement "head" []] ++ [plainElement "body" (.text "\n" :: eventsPage s)]) :=
    .inside .here (by cases s <;> decide) hhead hnone
  have hhtml : Surrounds ([.text "\n"] ++ eventsPage s) ([.comment "page"] ++
      [plainElement "html"
        ([plainElement "head" []] ++ [plainElement "body" (.text "\n" :: eventsPage s)])]) :=
    .inside hbody (by cases s <;> decide) hcomment hnone
  exact hhtml

end ApiTypings.Page
