/-!
# Types of an API reference

What a reference page says about values: scalars, references by name, arrays, unions and
records. Every type but a scalar can carry documentation.
-/
namespace ApiTypings

inductive Scalar where
  | boolean
  | integer
  | float
  | string
  deriving DecidableEq, Repr

/-- A block of documentation: its markup, and its text as a reader sees it. -/
structure DocComment where
  markup : String
  text : String
  deriving DecidableEq, Repr

/-- Text that is its own markup. -/
def DocComment.ofText (text : String) : DocComment := ⟨text, text⟩

mutual

inductive ApiType where
  | scalar (scalar : Scalar)
  | any (comments : List DocComment)
  | named (name : String) (comments : List DocComment)
  | union (members : List ApiType) (comments : List DocComment)
  | array (item : ApiType) (comments : List DocComment)
  | record (properties : List Property) (comments : List DocComment)

/-- A property of a record, or a parameter of a method. -/
structure Property where
  name : String
  type : ApiType
  optional : Bool
  description : Option DocComment

end

deriving instance BEq, Repr for ApiType
deriving instance BEq, Repr for Property

instance : Inhabited ApiType := ⟨.any []⟩

/-- The words of a type column that name a scalar. -/
def Scalar.ofWords? : String → Option Scalar
  | "Boolean" | "True" => some .boolean
  | "Integer" => some .integer
  | "Float" | "Float number" => some .float
  | "String" => some .string
  | _ => none

namespace ApiType

/-- Scalars carry no documentation. -/
def comments : ApiType → List DocComment
  | scalar _ => []
  | any cs | named _ cs | union _ cs | array _ cs | record _ cs => cs

/-- Replaces the documentation; a scalar stays as it is. -/
def withComments (cs : List DocComment) : ApiType → ApiType
  | scalar s => scalar s
  | any _ => any cs
  | named n _ => named n cs
  | union ms _ => union ms cs
  | array i _ => array i cs
  | record ps _ => record ps cs

def isScalar : ApiType → Bool
  | scalar _ => true
  | _ => false

def isArray : ApiType → Bool
  | array .. => true
  | _ => false

def isUnion : ApiType → Bool
  | union .. => true
  | _ => false

def isRecord : ApiType → Bool
  | record .. => true
  | _ => false

theorem comments_withComments (t : ApiType) (cs : List DocComment) :
    (t.withComments cs).comments = if t.isScalar then [] else cs := by
  cases t <;> rfl

end ApiType

end ApiTypings
