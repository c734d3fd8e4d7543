import ApiTypings.Text.Basic
import ApiTypings.Text.Letter

/-!
# Camel case

A name is cut into words, and each word is written with a capital first character and the
rest small. Everything that is neither letter nor digit separates words. A word also ends
before a capital that follows a small letter, and before the last of several capitals when a
small letter follows that one. Digits keep the case of what stands before them.

The result is exact for identifiers, in which only underscores separate words. The Unicode rule
for words would keep some of the other signs within a word, such as the dot in `a.b`; no name of
a type or a property holds one.
-/
namespace ApiTypings.Text

open Letter

/-- What the characters of a word seen so far say about its case. -/
inductive CaseMode where
  | undetermined
  | small
  | capital
  deriving DecidableEq

/-- The mode after a further character of the same word. -/
def CaseMode.after (mode : CaseMode) (c : Char) : CaseMode :=
  if isSmall c then .small else if isCapital c then .capital else mode

/-- Cuts a run of letters and digits into words. `word` holds the current word backwards. -/
def humps (word : List Char) (mode : CaseMode) : List Char → List (List Char)
  | [] => if word.isEmpty then [] else [word.reverse]
  | [c] => [(c :: word).reverse]
  | c :: d :: rest =>
    if mode.after c = .small ∧ isCapital d then
      (c :: word).reverse :: humps [] .undetermined (d :: rest)
    else if mode = .capital ∧ isCapital c ∧ isSmall d then
      word.reverse :: humps [c] .undetermined (d :: rest)
    else humps (c :: word) (mode.after c) (d :: rest)

def capitalised : List Char → List Char
  | [] => []
  | c :: cs => capitals c ++ cs.flatMap smalls

/-- The camel case of a name; empty for a name without letters and digits. -/
def camelCase (name : String) : String :=
  let runs := (pieces (fun c => !isAlphanumeric c) name.toList).filter (fun p => !p.isEmpty)
  String.ofList ((runs.flatMap (humps [] .undetermined)).flatMap capitalised)

end ApiTypings.Text
