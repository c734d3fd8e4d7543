import ApiTypings.Markup.Node
import ApiTypings.Page.Basic
import ApiTypings.Text.Basic

/-!
# Cells that name a type

A type cell reads "Array of" any number of times, then scalar words or links into the page
with " or " between them. Nothing else may stand in it.
-/
namespace ApiTypings.Page

open Markup Text

/-- A piece of a cell: running text or a link. -/
inductive Segment where
  | text (s : List Char)
  | link (target : String) (text : String)
  deriving DecidableEq, Repr

/-- Puts text in front of segments; it joins text that follows. -/
def joinText (s : List Char) : List Segment → List Segment
  | .text t :: rest => .text (s ++ t) :: rest
  | rest => .text s :: rest

/-- The segments of a cell, or `none` if it holds an element that is no link. -/
def segments? : List Node → Option (List Segment)
  | [] => some []
  | .text s :: ns => (segments? ns).map (joinText s.toList)
  | .comment _ :: ns => segments? ns
  | .doctype _ :: ns => segments? ns
  | .element name as cs contents :: ns =>
    if name.tag == "a" then
      (segments? ns).map (fun rest =>
        .link (((Node.element name as cs contents).attribute? "href").getD "")
          (Node.element name as cs contents).textContent :: rest)
    else none

/-- What follows a leading "Array of" and the blanks after it. -/
def afterArray? (s : List Char) : Option (List Char) :=
  if (s.take 8).map Char.toLower = "array of".toList then some (trimStart (s.drop 8)) else none

theorem afterArray?_shorter {s r : List Char} (h : afterArray? s = some r) :
    r.length < s.length := by
  unfold afterArray? at h
  split at h
  · next heq =>
    cases h
    have hl : ((s.take 8).map Char.toLower).length = 8 := by rw [heq]; rfl
    rw [List.length_map, List.length_take] at hl
    have hd : (trimStart (s.drop 8)).length ≤ (s.drop 8).length :=
      (List.dropWhile_suffix isBlank).length_le
    rw [List.length_drop] at hd
    omega
  · cases h

/-- How often "Array of" leads a text, and what follows. -/
def leadingArrays (s : List Char) : Nat × List Char :=
  match h : afterArray? s with
  | none => (0, s)
  | some r =>
    have := afterArray?_shorter h
    ((leadingArrays r).1 + 1, (leadingArrays r).2)
termination_by s.length

/-- Takes the array words off the front of a cell. -/
def withoutArrays : List Segment → Nat × List Segment
  | .text s :: rest =>
    let r := leadingArrays (trimStart s)
    (r.1, .text r.2 :: rest)
  | rest => (0, rest)

/-- Cuts a text at every " or ". -/
def alternatives : List Char → List (List Char)
  | ' ' :: 'o' :: 'r' :: ' ' :: cs => [] :: alternatives cs
  | c :: cs => extend c (alternatives cs)
  | [] => [[]]

/-- Adds a segment to the first item. -/
def addToFirst (s : Segment) : List (List Segment) → List (List Segment)
  | [] => [[s]]
  | item :: items => (s :: item) :: items

/-- Adds a piece of text, trimmed, to the first item; blank text adds nothing. -/
def addTextToFirst (s : List Char) (items : List (List Segment)) : List (List Segment) :=
  if (trim s).isEmpty then items else addToFirst (.text (trim s)) items

/-- Adds pieces with item boundaries between them in front of items. -/
def addPieces : List (List Char) → List (List Segment) → List (List Segment)
  | [], items => items
  | [p], items => addTextToFirst p items
  | p :: q :: ps, items => addTextToFirst p ([] :: addPieces (q :: ps) items)

/-- The items of a cell, as they stand between one " or " and the next. -/
def items : List Segment → List (List Segment)
  | [] => [[]]
  | .text s :: rest => addPieces (alternatives s) (items rest)
  | .link target text :: rest => addToFirst (.link target text) (items rest)

def isScalarWords (s : List Char) : Bool :=
  !s.isEmpty && s.all (fun c => isIdentifierChar c || isBlank c)

/-- The type of one item. `source` is the text of the whole cell. -/
def itemType (source : String) : List Segment → Except PageError ApiType
  | [.text s] =>
    if isScalarWords s then
      match Scalar.ofWords? (String.ofList s) with
      | some scalar => .ok (.scalar scalar)
      | none => .error (.unknownScalar (String.ofList s))
    else .error (.invalidType (trimmed source))
  | [.link target text] =>
    if ['#'].isPrefixOf target.toList && isIdentifier text.toList then .ok (.named text [])
    else .error (.invalidType (trimmed source))
  | _ => .error (.invalidType (trimmed source))

def arraysOf : Nat → ApiType → ApiType
  | 0, t => t
  | n + 1, t => .array (arraysOf n t) []

/-- One type stands for itself, several for their union. -/
def oneOf : List ApiType → ApiType
  | [t] => t
  | ts => .union ts []

/-- The type that a cell names. -/
def cellType (cell : Node) : Except PageError ApiType :=
  match segments? cell.children with
  | none => .error (.invalidType cell.textContent)
  | some segments => do
    let (depth, rest) := withoutArrays segments
    let types ← (items rest).mapM (itemType cell.textContent)
    pure (arraysOf depth (oneOf types))

end ApiTypings.Page
