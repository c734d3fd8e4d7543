import ApiTypings.Printing.Context
import ApiTypings.Page.Comment
import ApiTypings.Text.Basic

/-!
# Comments in declarations

Documentation becomes a block comment: on one line if there is only one short text without
links, else with the text wrapped and one line for each link. The text cannot end the comment.
-/
namespace ApiTypings.Printing

open Text

/-- Keeps a comment from ending early. -/
def escapeClose : List Char → List Char
  | '*' :: '/' :: cs => '*' :: '\\' :: '/' :: escapeClose cs
  | c :: cs => c :: escapeClose cs
  | [] => []

/-- A text on one line that is safe inside a comment. -/
def commentText (s : String) : String := String.ofList (escapeClose (joinWords (words s.toList)))

/-- The text and the link lines of one comment. -/
structure CommentBlock where
  text : String
  links : List String

def blockOf (c : DocComment) : CommentBlock := ⟨commentText c.text, Page.links c⟩

/-- Whether a block fits on a line with its delimiters. -/
def fitsOneLine (ctx : Context) (b : CommentBlock) : Bool :=
  b.links.isEmpty && ctx.marginWidth + b.text.length + 7 ≤ ctx.layout.width

/-- The room for text behind the leading star of a line. -/
def textWidth (ctx : Context) : Nat := max (ctx.layout.width - (ctx.marginWidth + 3)) 1

def blockLines (width : Nat) (b : CommentBlock) : List String :=
  (wrap width b.text).map (fun l => " * " ++ l) ++
    b.links.map (fun l => " * @see " ++ commentText l)

/-- The lines of all blocks, with an empty comment line in between. -/
def commentLines (width : Nat) : List CommentBlock → List String
  | [] => []
  | [b] => blockLines width b
  | b :: c :: bs => blockLines width b ++ " *" :: commentLines width (c :: bs)

def writeBlocks (ctx : Context) (bs : List CommentBlock) : Context :=
  ((commentLines (textWidth ctx) bs).foldl Context.writeLine (ctx.writeLine "/**")).writeLine " */"

def writeComments (ctx : Context) (comments : List DocComment) : Context :=
  match comments.map blockOf with
  | [] => ctx
  | [b] =>
    if fitsOneLine ctx b then ctx.writeLine ("/** " ++ b.text ++ " */") else writeBlocks ctx [b]
  | bs => writeBlocks ctx bs

end ApiTypings.Printing
