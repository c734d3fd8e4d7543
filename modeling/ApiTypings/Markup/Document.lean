import ApiTypings.Markup.Builder.Step

/-!
# Reading documents

Turns text into the tree that it stands for. Every text is a document: what is missing is
supplied, and what does not fit is moved or dropped.
-/
namespace ApiTypings.Markup

/-- Every line ends in a single line feed. -/
def normalizeNewlines (s : List Char) : List Char :=
  go [] s
where
  go (done : List Char) : List Char → List Char
    | [] => done.reverse
    | '\r' :: '\n' :: cs => go ('\n' :: done) cs
    | '\r' :: cs => go ('\n' :: done) cs
    | c :: cs => go (c :: done) cs

/-- A byte order mark at the start is not part of the text. -/
def withoutMark : List Char → List Char
  | '\uFEFF' :: cs => cs
  | cs => cs

/-- Adds the tokens of a text to a document. -/
def Builder.read (b : Builder) (s : List Char) : Builder :=
  match s with
  | [] => b.finish
  | c :: cs =>
    match Lexer.step b.model b.inForeign c cs with
    | ⟨tokens, rest, _⟩ => Builder.read (tokens.foldl Builder.add b) rest
termination_by s.length
decreasing_by exact Nat.lt_succ_of_le (by assumption)

/-- The document of a text. -/
def readDocument (text : String) : List Node :=
  (Builder.read {} (normalizeNewlines (withoutMark text.toList))).draft.document

end ApiTypings.Markup
