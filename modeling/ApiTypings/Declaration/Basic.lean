import ApiTypings.Schema.ApiType

/-!
# Struct declarations

A schema is also written as structs, enums and type aliases. A declaration is kept as data
until it is written: what it is called, its documentation lines and its fields or variants.
-/
namespace ApiTypings

namespace Declaration

/-- The type of a field, variant or alias. -/
inductive TypeExpr where
  | scalar (s : Scalar)
  | name (name : String)
  | list (item : TypeExpr)
  | boxed (item : TypeExpr)
  | option (item : TypeExpr)
  deriving DecidableEq, Repr

structure Field where
  docs : List String
  /-- The name in data, where it differs from the identifier. -/
  wireName : Option String
  identifier : String
  type : TypeExpr
  deriving DecidableEq, Repr

structure Variant where
  name : String
  payload : TypeExpr
  deriving DecidableEq, Repr

inductive Body where
  | struct (fields : List Field)
  /-- A struct without fields. -/
  | placeholder
  | enum (variants : List Variant)
  | alias (target : TypeExpr)
  deriving DecidableEq, Repr

end Declaration

structure Declaration where
  name : String
  docs : List String
  body : Declaration.Body
  deriving DecidableEq, Repr

namespace Declaration

def scalarName : Scalar → String
  | .boolean => "bool"
  | .integer => "i64"
  | .float => "f64"
  | .string => "String"

def TypeExpr.text : TypeExpr → String
  | scalar s => scalarName s
  | name n => n
  | list item => "Vec<" ++ item.text ++ ">"
  | boxed item => "Box<" ++ item.text ++ ">"
  | option item => "Option<" ++ item.text ++ ">"

end Declaration

end ApiTypings
