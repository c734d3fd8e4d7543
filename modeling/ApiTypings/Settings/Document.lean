import ApiTypings.Settings.Item
import ApiTypings.Settings.Literal

/-!
# Reading configuration files

A file consists of lines: definitions of keys, and headers that say in which table the
definitions after them stand. Values nest up to a fixed depth. Every reader gives what it
read together with the rest of the text.
-/
namespace ApiTypings.Settings

open Literal

/-- Values nest less deep than this, and key paths are shorter. -/
def nestingLimit : Nat := 80

def dropSpace (s : List Char) : List Char := s.dropWhile isSpace

/-- Skips white space, line ends and comments; `none` if a comment holds a control character. -/
def skipLines (inComment : Bool) : List Char → Option (List Char)
  | [] => some []
  | '\r' :: '\n' :: cs => skipLines false cs
  | '\n' :: cs => skipLines false cs
  | c :: cs =>
    if inComment then if isPlain c then skipLines true cs else none
    else if c == '#' then skipLines true cs
    else if isSpace c then skipLines false cs
    else some (c :: cs)

/-- Skips the rest of a line, which may be a comment only. -/
def endLine (s : List Char) : Option (List Char) :=
  let s := dropSpace s
  let s := if s.head? == some '#' then s.dropWhile isPlain else s
  match s with
  | [] => some []
  | '\n' :: cs => some cs
  | '\r' :: '\n' :: cs => some cs
  | _ => none

def isBareKeyChar (c : Char) : Bool := c.isAlphanum || c == '_' || c == '-'

def simpleKey (s : List Char) : Option (String × List Char) :=
  match s with
  | '"' :: cs => (quoted 0 cs).map (fun r => (String.ofList r.1, r.2))
  | '\'' :: cs => (verbatim cs).map (fun r => (String.ofList r.1, r.2))
  | _ =>
    let key := s.takeWhile isBareKeyChar
    if key.isEmpty then none else some (String.ofList key, s.dropWhile isBareKeyChar)

/-- A path of keys with dots between them; at most `n` keys. -/
def keyPath : Nat → List Char → Option (List String × List Char)
  | 0, _ => none
  | n + 1, s => do
    let (key, s) ← simpleKey (dropSpace s)
    match dropSpace s with
    | '.' :: cs =>
      let (path, rest) ← keyPath n cs
      pure (key :: path, rest)
    | rest => pure ([key], rest)

/-- A value that is a single word. -/
def wordItem? (w : List Char) : Option Item :=
  if w == "true".toList then some (.boolean true)
  else if w == "false".toList then some (.boolean false)
  else match integer? w with
    | some n => some (.integer n)
    | none => if isMoment w then some .date else if isFloat w then some .float else none

mutual

/-- A value. The first argument bounds the number of steps, the second the nesting. -/
def readValue : Nat → Nat → List Char → Option (Item × List Char)
  | 0, _, _ => none
  | n + 1, depth, s =>
    match s with
    | '[' :: cs =>
      match depth with
      | 0 => none
      | depth + 1 => readElements n depth [] cs
    | '\x7b' :: cs =>
      match depth with
      | 0 => none
      | depth + 1 =>
        match dropSpace cs with
        | '\x7d' :: rest => some (.table .inline [], rest)
        | cs => readPairs n depth [] cs
    | '"' :: _ => (string? s).map (fun r => (.string r.1, r.2))
    | '\'' :: _ => (string? s).map (fun r => (.string r.1, r.2))
    | _ => (wordItem? (word s).1).map (fun item => (item, (word s).2))

/-- The elements of a list up to its closing bracket. -/
def readElements : Nat → Nat → List Item → List Char → Option (Item × List Char)
  | 0, _, _, _ => none
  | n + 1, depth, found, s =>
    match skipLines false s with
    | some (']' :: rest) => some (.list found.reverse, rest)
    | some s =>
      match readValue n depth s with
      | none => none
      | some (item, s) =>
        match skipLines false s with
        | some (',' :: rest) => readElements n depth (item :: found) rest
        | some (']' :: rest) => some (.list (item :: found).reverse, rest)
        | _ => none
    | none => none

/-- The definitions of a table in braces, on one line and without a comma at the end. -/
def readPairs : Nat → Nat → Entries → List Char → Option (Item × List Char)
  | 0, _, _, _ => none
  | n + 1, depth, found, s =>
    match keyPath (nestingLimit - 1) s with
    | some (path, '=' :: s) =>
      match readValue n depth (dropSpace s) with
      | none => none
      | some (item, s) =>
        match Entries.defineAt path item found with
        | none => none
        | some found =>
          match dropSpace s with
          | ',' :: rest => readPairs n depth found rest
          | '\x7d' :: rest => some (.table .inline found, rest)
          | _ => none
    | _ => none

end

/-- A line of a file. -/
inductive Line where
  | definition (path : List String) (item : Item)
  | table (path : List String)
  | element (path : List String)

def readHeader (s : List Char) : Option (Line × List Char) :=
  match s with
  | '[' :: cs =>
    match keyPath (nestingLimit - 1) cs with
    | some (path, ']' :: ']' :: rest) => (endLine rest).map (fun rest => (.element path, rest))
    | _ => none
  | cs =>
    match keyPath (nestingLimit - 1) cs with
    | some (path, ']' :: rest) => (endLine rest).map (fun rest => (.table path, rest))
    | _ => none

def readLine (s : List Char) : Option (Line × List Char) :=
  match s with
  | '[' :: cs => readHeader cs
  | _ =>
    match keyPath (nestingLimit - 1) s with
    | some (path, '=' :: s) => do
      let (item, rest) ← readValue (2 * s.length + 2) (nestingLimit - 1) (dropSpace s)
      let rest ← endLine rest
      pure (.definition path item, rest)
    | _ => none

/-- The lines of a text; every line takes at least one character. -/
def readLines : Nat → List Char → Option (List Line)
  | 0, _ => none
  | n + 1, s =>
    match skipLines false s with
    | none => none
    | some [] => some []
    | some s =>
      match readLine s with
      | none => none
      | some (line, rest) => (readLines n rest).map (fun lines => line :: lines)

/-- The definitions up to the next header. -/
def leadingDefinitions : List Line → List (List String × Item)
  | .definition path item :: lines => (path, item) :: leadingDefinitions lines
  | _ => []

/-- Adds the tables of all headers, each with the definitions that follow it. -/
def addSections (es : Entries) : List Line → Option Entries
  | [] => some es
  | .definition _ _ :: lines => addSections es lines
  | .table path :: lines =>
    (es.openTable path (leadingDefinitions lines)).bind (fun es => addSections es lines)
  | .element path :: lines =>
    (es.addTable path (leadingDefinitions lines)).bind (fun es => addSections es lines)

/-- The definitions of a file. A byte order mark may lead it. -/
def readEntries (text : String) : Option Entries := do
  let s := match text.toList with
    | '\uFEFF' :: cs => cs
    | cs => cs
  let lines ← readLines (s.length + 1) s
  let top ← Entries.defineAll (leadingDefinitions lines) []
  addSections top lines

end ApiTypings.Settings
