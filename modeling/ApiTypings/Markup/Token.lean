/-!
# Tokens of markup

Markup is a sequence of characters, tags, comments and document type declarations. What an
element's start tag was decides how the characters after it are read.
-/
namespace ApiTypings.Markup

/-- A start tag: its name, its attributes with the first of equal names only, and whether it
closes itself. -/
structure StartTag where
  name : String
  attributes : List (String × String)
  selfClosing : Bool
  deriving DecidableEq, Repr

structure Doctype where
  name : String
  publicId : Option String
  systemId : Option String
  malformed : Bool
  deriving DecidableEq, Repr

inductive Token where
  | character (c : Char)
  | startTag (tag : StartTag)
  | endTag (name : String)
  | comment (content : String)
  | doctype (d : Doctype)
  deriving Repr

/-- How the characters that follow are read. -/
inductive ContentModel where
  /-- Markup. -/
  | markup
  /-- Text with references, up to the end tag of the given name. -/
  | referenceText (tag : String)
  /-- Text without references, up to the end tag of the given name. -/
  | rawText (tag : String)
  /-- Text of a script, in which comments can hide the end tag. -/
  | script
  /-- Text to the end of the document. -/
  | plainText
  deriving DecidableEq, Repr

end ApiTypings.Markup
