import ApiTypings.Text.Basic

/-!
# Indented output

Output is written piece by piece. A line is indented when its first character is written, so
empty lines stay empty, and a change of depth never affects a line already begun.
-/
namespace ApiTypings.Printing

structure Layout where
  /-- The length that lines of comments should not exceed. -/
  width : Nat := 72
  indent : String := "  "
  deriving DecidableEq, Repr

structure Context where
  layout : Layout
  code : String := ""
  depth : Nat := 0
  atLineStart : Bool := true

namespace Context

/-- The indentation of a line at the present depth. -/
def margin (ctx : Context) : String := String.join (List.replicate ctx.depth ctx.layout.indent)

/-- How many characters the indentation takes. -/
def marginWidth (ctx : Context) : Nat := ctx.layout.indent.length * ctx.depth

def newline (ctx : Context) : Context :=
  { ctx with code := ctx.code.push '\n', atLineStart := true }

/-- Goes on with the present line, which is indented where it begins. -/
def writePiece (ctx : Context) (line : List Char) : Context :=
  if line.isEmpty then ctx
  else if ctx.atLineStart then
    { ctx with code := ctx.code ++ ctx.margin ++ String.ofList line, atLineStart := false }
  else { ctx with code := ctx.code ++ String.ofList line }

/-- Writes a text, in which every line end starts a new line. -/
def write (ctx : Context) (s : String) : Context :=
  match Text.pieces (· == '\n') s.toList with
  | [] => ctx
  | line :: lines =>
    lines.foldl (fun ctx line => ctx.newline.writePiece line) (ctx.writePiece line)

/-- Writes a text and ends the line. -/
def writeLine (ctx : Context) (s : String) : Context := (ctx.write s).newline

def nest (ctx : Context) : Context := { ctx with depth := ctx.depth + 1 }

def unnest (ctx : Context) : Context := { ctx with depth := ctx.depth - 1 }

end Context

end ApiTypings.Printing
