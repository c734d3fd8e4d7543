import ApiTypings.Schema.References

/-!
# Outlines of types

An outline is a type without its documentation. It can also take scalars together that a
notation does not tell apart, and put another type in place of the unknown one. Two types
with one outline have the same properties and members in the same order.
-/
namespace ApiTypings

/-- To prove a property of every type, prove it of each kind from the types it is made of. -/
theorem ApiType.kinds {P : ApiType → Prop}
    (scalar : ∀ s, P (.scalar s)) (any : ∀ cs, P (.any cs)) (named : ∀ n cs, P (.named n cs))
    (union : ∀ ms cs, (∀ m ∈ ms, P m) → P (.union ms cs))
    (array : ∀ t cs, P t → P (.array t cs))
    (record : ∀ ps cs, (∀ p ∈ ps, P p.type) → P (.record ps cs)) : ∀ t, P t :=
  @ApiType.rec P (fun p => P p.type) (fun ms => ∀ m ∈ ms, P m) (fun ps => ∀ p ∈ ps, P p.type)
    scalar any named union array record (fun _ _ _ _ h => h) (by simp) (by simp_all) (by simp)
    (by simp_all)

variable (f : Scalar → Scalar) (unknown : ApiType)

mutual

/-- The type without documentation, with `f` applied to its scalars and `unknown` in place of
the unknown type. -/
def typeOutline : ApiType → ApiType
  | .scalar s => .scalar (f s)
  | .any _ => unknown
  | .named n _ => .named n []
  | .union ms _ => .union (memberOutlines ms) []
  | .array t _ => .array (typeOutline t) []
  | .record ps _ => .record (propertyOutlines ps) []

def memberOutlines : List ApiType → List ApiType
  | [] => []
  | t :: ts => typeOutline t :: memberOutlines ts

def propertyOutlines : List Property → List Property
  | [] => []
  | ⟨n, t, o, _⟩ :: ps => ⟨n, typeOutline t, o, none⟩ :: propertyOutlines ps

end

def propertyOutline (p : Property) : Property :=
  ⟨p.name, typeOutline f unknown p.type, p.optional, none⟩

theorem memberOutlines_eq_map (ts : List ApiType) :
    memberOutlines f unknown ts = ts.map (typeOutline f unknown) := by
  induction ts with
  | nil => rfl
  | cons t ts ih => rw [memberOutlines, ih, List.map_cons]

theorem propertyOutlines_eq_map (ps : List Property) :
    propertyOutlines f unknown ps = ps.map (propertyOutline f unknown) := by
  induction ps with
  | nil => rfl
  | cons p ps ih =>
    obtain ⟨n, t, o, d⟩ := p
    rw [propertyOutlines, ih, List.map_cons, propertyOutline]

/-- The type without its documentation. -/
def ApiType.bare (t : ApiType) : ApiType := typeOutline id (.any []) t

mutual

/-- The names of the properties in a type, at any depth. -/
def ApiType.propertyNames : ApiType → List String
  | .scalar _ => []
  | .any _ => []
  | .named _ _ => []
  | .union ms _ => memberPropertyNames ms
  | .array t _ => t.propertyNames
  | .record ps _ => ownPropertyNames ps

def memberPropertyNames : List ApiType → List String
  | [] => []
  | t :: ts => t.propertyNames ++ memberPropertyNames ts

def ownPropertyNames : List Property → List String
  | [] => []
  | ⟨n, t, _, _⟩ :: ps => (n :: t.propertyNames) ++ ownPropertyNames ps

end

theorem memberPropertyNames_eq_flatMap (ts : List ApiType) :
    memberPropertyNames ts = ts.flatMap ApiType.propertyNames := by
  induction ts with
  | nil => rfl
  | cons t ts ih => rw [memberPropertyNames, ih, List.flatMap_cons]

theorem ownPropertyNames_eq_flatMap (ps : List Property) :
    ownPropertyNames ps = ps.flatMap (fun p => p.name :: p.type.propertyNames) := by
  induction ps with
  | nil => rfl
  | cons p ps ih =>
    obtain ⟨n, t, o, d⟩ := p
    rw [ownPropertyNames, ih, List.flatMap_cons]

theorem memberReferences_eq_flatMap (ts : List ApiType) :
    memberReferences ts = ts.flatMap ApiType.references := by
  induction ts with
  | nil => rfl
  | cons t ts ih => rw [memberReferences, ih, List.flatMap_cons]

theorem propertyReferences_eq_flatMap (ps : List Property) :
    propertyReferences ps = ps.flatMap (fun p => p.type.references) := by
  induction ps with
  | nil => rfl
  | cons p ps ih =>
    obtain ⟨n, t, o, d⟩ := p
    rw [propertyReferences, ih, List.flatMap_cons]

end ApiTypings
