/-!
# Items of a configuration file

A configuration file defines values under paths of keys. A table may be opened by a header,
implied by a longer path, written by dotted keys, or closed in braces; what may still be
added to it depends on which. No key is defined twice.
-/
namespace ApiTypings.Settings

/-- How a table came to be. -/
inductive TableKind where
  /-- By a header of its own. -/
  | header
  /-- As part of a longer header. -/
  | implied
  /-- By dotted keys. -/
  | dotted
  /-- In braces, where it is complete. -/
  | inline
  deriving DecidableEq, Repr

inductive Item where
  | string (s : String)
  | integer (n : Int)
  | boolean (b : Bool)
  | float
  | date
  | list (items : List Item)
  | table (kind : TableKind) (entries : List (String × Item))
  /-- Tables that repeat a header in double brackets. -/
  | tables (elements : List (List (String × Item)))

abbrev Entries := List (String × Item)

namespace Entries

/-- Puts an item under a key, in place of an earlier one. -/
def put (key : String) (item : Item) : Entries → Entries
  | [] => [(key, item)]
  | e :: es => if e.1 == key then (key, item) :: es else e :: put key item es

/-- Changes the last of several tables. -/
def changeLast (f : Entries → Option Entries) : List Entries → Option (List Entries)
  | [] => none
  | [t] => (f t).map (fun t => [t])
  | t :: u :: ts => (changeLast f (u :: ts)).map (fun us => t :: us)

/-- Changes the table at the path of a header. -/
def atHeader : List String → (Entries → Option Entries) → Entries → Option Entries
  | [], f, es => f es
  | k :: ks, f, es =>
    match es.lookup k with
    | none => (atHeader ks f []).map (fun t => put k (.table .implied t) es)
    | some (.tables ts) =>
      (changeLast (atHeader ks f) ts).map (fun ts => put k (.tables ts) es)
    | some (.table kind t) =>
      if kind = .inline then none
      else (atHeader ks f t).map (fun t => put k (.table kind t) es)
    | some _ => none

/-- Changes the table at the path of a dotted key. Tables with headers are closed to it. -/
def atDotted : List String → (Entries → Option Entries) → Entries → Option Entries
  | [], f, es => f es
  | k :: ks, f, es =>
    match es.lookup k with
    | none => (atDotted ks f []).map (fun t => put k (.table .dotted t) es)
    | some (.tables ts) =>
      if ks.isEmpty then none
      else (changeLast (atDotted ks f) ts).map (fun ts => put k (.tables ts) es)
    | some (.table kind t) =>
      if kind = .dotted || (kind = .implied && !ks.isEmpty) then
        (atDotted ks f t).map (fun t => put k (.table kind t) es)
      else none
    | some _ => none

/-- Defines a new key. -/
def define (key : String) (item : Item) (es : Entries) : Option Entries :=
  if (es.lookup key).isSome then none else some (es ++ [(key, item)])

/-- Defines the item of a dotted key, which is not empty. -/
def defineAt (path : List String) (item : Item) (es : Entries) : Option Entries :=
  match path.getLast? with
  | none => none
  | some key => atDotted path.dropLast (define key item) es

def defineAll (definitions : List (List String × Item)) (es : Entries) : Option Entries :=
  definitions.foldlM (fun es d => defineAt d.1 d.2 es) es

/-- Adds the definitions under a header. -/
def openTable (path : List String) (definitions : List (List String × Item)) (es : Entries) :
    Option Entries :=
  match path.getLast? with
  | none => none
  | some key => atHeader path.dropLast (fun es =>
    match es.lookup key with
    | none => (defineAll definitions []).map (fun t => put key (.table .header t) es)
    | some (.table .implied t) =>
      (defineAll definitions t).map (fun t => put key (.table .header t) es)
    | some _ => none) es

/-- Adds one more table under a repeated header. -/
def addTable (path : List String) (definitions : List (List String × Item)) (es : Entries) :
    Option Entries :=
  match path.getLast? with
  | none => none
  | some key => atHeader path.dropLast (fun es =>
    match es.lookup key with
    | none => (defineAll definitions []).map (fun t => put key (.tables [t]) es)
    | some (.tables ts) =>
      (defineAll definitions []).map (fun t => put key (.tables (ts ++ [t])) es)
    | some _ => none) es

end Entries

end ApiTypings.Settings
