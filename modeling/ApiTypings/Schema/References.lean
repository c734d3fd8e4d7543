import ApiTypings.Schema.Basic

/-!
# References between entries

A schema is closed when every name that a type refers to is one of its entries. The check
goes through the entries in order and through each type from left to right, and reports the
first reference that leads nowhere.
-/
namespace ApiTypings

mutual

/-- The names that a type refers to, from left to right. -/
def ApiType.references : ApiType → List String
  | .scalar _ => []
  | .any _ => []
  | .named name _ => [name]
  | .union members _ => memberReferences members
  | .array item _ => item.references
  | .record properties _ => propertyReferences properties

def memberReferences : List ApiType → List String
  | [] => []
  | t :: ts => t.references ++ memberReferences ts

def propertyReferences : List Property → List String
  | [] => []
  | ⟨_, t, _, _⟩ :: ps => t.references ++ propertyReferences ps

end

mutual

/-- The first reference of a type to a name that is not known. -/
def ApiType.firstUnknown? (known : String → Bool) : ApiType → Option String
  | .scalar _ => none
  | .any _ => none
  | .named name _ => if known name then none else some name
  | .union members _ => firstUnknownMember? known members
  | .array item _ => item.firstUnknown? known
  | .record properties _ => firstUnknownProperty? known properties

def firstUnknownMember? (known : String → Bool) : List ApiType → Option String
  | [] => none
  | t :: ts => match t.firstUnknown? known with
    | some name => some name
    | none => firstUnknownMember? known ts

def firstUnknownProperty? (known : String → Bool) : List Property → Option String
  | [] => none
  | ⟨_, t, _, _⟩ :: ps => match t.firstUnknown? known with
    | some name => some name
    | none => firstUnknownProperty? known ps

end

/-- A reference that leads nowhere, and the entry that contains it. -/
structure DanglingReference where
  name : String
  referencedBy : String
  deriving DecidableEq, Repr

def firstDangling? (known : String → Bool) :
    List (String × ApiType) → Option DanglingReference
  | [] => none
  | (owner, type) :: es => match type.firstUnknown? known with
    | some name => some ⟨name, owner⟩
    | none => firstDangling? known es

/-- The first reference of a schema that is not one of its entries. -/
def Schema.dangling? (s : Schema) : Option DanglingReference :=
  firstDangling? s.contains s.entries

end ApiTypings
