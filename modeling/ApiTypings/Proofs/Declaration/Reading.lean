import ApiTypings.Proofs.Declaration.Naming
import ApiTypings.Proofs.Declaration.TypeText
import ApiTypings.Proofs.Naming.TypeName

/-!
# Reading declarations back

A reader that knows the names of the entries gets the types back from declarations. Any other
name stands for the type of the declaration that bears it. Fields say under which name they
are written in data and whether they can be left out; documentation is not read.
-/
namespace ApiTypings.Declaration

/-- The type that an expression stands for, given what its names stand for. An option is no
type of its own. -/
def readExpr (resolve : String → Option ApiType) : TypeExpr → Option ApiType
  | .scalar s => some (.scalar s)
  | .name n => resolve n
  | .list e => (readExpr resolve e).map (fun t => .array t [])
  | .boxed e => readExpr resolve e
  | .option _ => none

def readPayload (resolve : String → Option ApiType) (e : TypeExpr) : Option ApiType :=
  (typeOfText? e.text).bind (readExpr resolve)

/-- An identifier without the mark of raw identifiers. -/
def withoutRawMark (identifier : String) : String :=
  match identifier.toList with
  | 'r' :: '#' :: cs => String.ofList cs
  | _ => identifier

/-- The name of a field in data. -/
def Field.dataName (f : Field) : String := f.wireName.getD (withoutRawMark f.identifier)

def readField (resolve : String → Option ApiType) (f : Field) : Option Property :=
  match typeOfText? f.type.text with
  | some (.option e) => (readExpr resolve e).map (fun t => ⟨f.dataName, t, true, none⟩)
  | some e => (readExpr resolve e).map (fun t => ⟨f.dataName, t, false, none⟩)
  | none => none

def readBody (resolve : String → Option ApiType) : Body → Option ApiType
  | .struct fields => (fields.mapM (readField resolve)).map (fun ps => .record ps [])
  | .placeholder => some (.record [] [])
  | .enum variants =>
    (variants.mapM (fun v => readPayload resolve v.payload)).map (fun ts => .union ts [])
  | .alias target => readPayload resolve target

/-- What a name stands for: an entry for itself, another name for the type of its declaration.
The number bounds how many declarations are followed. -/
def resolve (known : List String) (ds : List Declaration) : Nat → String → Option ApiType
  | 0, n => if n ∈ known then some (.named n []) else none
  | fuel + 1, n =>
    if n ∈ known then some (.named n [])
    else (ds.find? (fun d => d.name == n)).bind (fun d => readBody (resolve known ds fuel) d.body)

/-- The entries among the declarations, in order, each with the type that it stands for. No
chain of declarations is longer than their number. -/
def readBack (known : List String) (ds : List Declaration) : Option (List (String × ApiType)) :=
  (ds.filter (fun d => d.name ∈ known)).mapM
    (fun d => (readBody (resolve known ds ds.length) d.body).map (fun t => (d.name, t)))

/-- What declarations say about a type: everything but its documentation, and that a type is
unknown. An unknown type and a record without properties are both a struct without fields. -/
def declaredOutline : ApiType → ApiType := typeOutline id (.record [] [])

theorem resolve_known {known : List String} {n : String} (h : n ∈ known) (ds : List Declaration)
    (fuel : Nat) : resolve known ds fuel n = some (.named n []) := by
  cases fuel <;> simp [resolve, h]

/-- A name that is declared once and no entry resolves to the body of its declaration. -/
theorem resolve_declared {known : List String} {ds : List Declaration} {d : Declaration}
    (hd : (ds.map Declaration.name).Nodup) (hm : d ∈ ds) (hn : d.name ∉ known) (fuel : Nat) :
    resolve known ds (fuel + 1) d.name = readBody (resolve known ds fuel) d.body := by
  have hf : ds.find? (fun e => e.name == d.name) = some d := by
    induction ds with
    | nil => simp at hm
    | cons e es ih =>
      obtain ⟨hne, hes⟩ := List.nodup_cons.mp hd
      rcases List.mem_cons.mp hm with rfl | hm
      · simp
      · have hed : e.name ≠ d.name := fun h => hne (h ▸ List.mem_map_of_mem hm)
        simp [hed, ih hes hm]
  rw [resolve, if_neg hn, hf, Option.bind_some]

end ApiTypings.Declaration
