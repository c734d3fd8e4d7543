import ApiTypings.Markup.Writer
import ApiTypings.Markup.Spot
import ApiTypings.Markup.Document
import ApiTypings.Schema.ApiType

/-!
# Documentation of a page

The content of an element as documentation, and the targets that its links lead to. Targets
are made absolute: a path belongs to the site, anything else to the reference page.
-/
namespace ApiTypings.Page

open Markup

def siteAddress : String := "https://core.telegram.org"

def pageAddress : String := "https://core.telegram.org/bots/api"

/-- The children of an element as documentation. -/
def commentOf (n : Node) : DocComment := ⟨Node.markupOfAll false n.children, n.textContent⟩

/-- The absolute form of a link target; an empty target leads nowhere. -/
def resolveTarget? (target : String) : Option String :=
  match target.toList with
  | [] => none
  | c :: cs =>
    if "http".toList.isPrefixOf (c :: cs) then some target
    else if c == '/' then some (siteAddress ++ target)
    else some (pageAddress ++ target)

/-- The targets of the links in a document, in order and with repetitions. -/
def linkTargets (document : List Node) : List String :=
  (spotsOfAll [] document).filterMap (fun s =>
    if s.hasTag "a" then (s.node.attribute? "href").bind resolveTarget? else none)

/-- Keeps the first of equal strings. -/
def firstOccurrences (xs : List String) : List String :=
  xs.foldl (fun kept x => if kept.contains x then kept else kept ++ [x]) []

def documentLinks (document : List Node) : List String := firstOccurrences (linkTargets document)

/-- The targets of the links in a comment, each once. -/
def links (c : DocComment) : List String := documentLinks (readDocument c.markup)

end ApiTypings.Page
