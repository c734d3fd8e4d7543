import ApiTypings.Declaration.Lowering
import ApiTypings.Declaration.Name
import ApiTypings.Proofs.Schema.Outline
import Mathlib.Data.List.Forall2
import Mathlib.Data.List.ReduceOption

/-!
# The use sites of a type

Unions and records are declared alike: names are taken for the types they use, the
declaration follows, and then what those types need. Here both are one case, and the names
that are taken on the way are related to the names of the declarations.
-/
namespace ApiTypings.Declaration

/-- The item of an array, through any number of arrays. -/
def innermost : ApiType → ApiType
  | .array t _ => innermost t
  | t => t

/-- The types that a declaration of a union or record uses, with the fields they belong to. -/
def uses : ApiType → List (String × ApiType)
  | .union ms _ => ms.map (fun m => (variantName m, m))
  | .record ps _ => ps.map (fun p => (p.name, p.type))
  | _ => []

/-- The body of a declaration, given the names of the types it uses. -/
def bodyOf (width : Nat) (inner : List (Option String)) : ApiType → Body
  | .union ms _ => .enum (List.zipWith variantOf ms inner)
  | .record ps _ => structBody (List.zipWith (fieldOf width) ps inner)
  | _ => .placeholder

/-- The types that the declaration of an entry uses. An alias uses its target. -/
def entryUses : ApiType → List (String × ApiType)
  | .scalar s => [("item", .scalar s)]
  | .named n cs => [("item", .named n cs)]
  | .array t cs => [("item", .array t cs)]
  | t => uses t

def entryBody (width : Nat) (inner : List (Option String)) : ApiType → Body
  | .scalar s => .alias (expression inner.head?.join false (.scalar s))
  | .named n cs => .alias (expression inner.head?.join false (.named n cs))
  | .array t cs => .alias (expression inner.head?.join false (.array t cs))
  | t => bodyOf width inner t

def takeNames (owner : String) (us : List (String × ApiType)) : Naming (List (Option String)) :=
  us.mapM (fun u => innerName owner u.1 u.2)

/-- Takes names for use sites, declares `name` with them, and goes on with what the sites need. -/
def declareWith (width : Nat) (name : String) (docs : List String)
    (body : List (Option String) → Body) (us : List (String × ApiType)) :
    Naming (List Declaration) := do
  let inner ← takeNames name us
  let rest ← declareMembers width inner (us.map Prod.snd)
  pure (⟨name, docs, body inner⟩ :: rest)

theorem declareProperties_eq (width : Nat) (inner : List (Option String)) (ps : List Property) :
    declareProperties width inner ps = declareMembers width inner (ps.map Property.type) := by
  induction ps generalizing inner with
  | nil => rfl
  | cons p ps ih =>
    obtain ⟨n, t, o, d⟩ := p
    rw [declareProperties, List.map_cons, declareMembers, ih]

/-- A type is declared as its innermost item. -/
theorem declare_eq (width : Nat) (name : String) (docs : List String) {t : ApiType}
    (h : needsName t = true) :
    declare width name docs t = declareWith width name docs
      (fun inner => bodyOf width inner (innermost t)) (uses (innermost t)) := by
  induction t using ApiType.kinds with
  | scalar s => simp [needsName] at h
  | any cs => rfl
  | named n cs => simp [needsName] at h
  | union ms cs ih =>
    have hi : innermost (.union ms cs) = .union ms cs := rfl
    have hs : (ms.map (fun m => (variantName m, m))).map Prod.snd = ms := by
      rw [List.map_map]
      exact List.map_id ms
    have hm : takeNames name (ms.map (fun m => (variantName m, m))) =
        ms.mapM (fun m => innerName name (variantName m) m) := List.mapM_map
    rw [declareWith, declare, hi, uses, hs, hm]
    rfl
  | array t cs ih => exact ih h
  | record ps cs ih =>
    have hi : innermost (.record ps cs) = .record ps cs := rfl
    have hs : (ps.map (fun p => (p.name, p.type))).map Prod.snd = ps.map Property.type := by
      rw [List.map_map]
      rfl
    have hm : takeNames name (ps.map (fun p => (p.name, p.type))) =
        ps.mapM (fun p => innerName name p.name p.type) := List.mapM_map
    rw [declareWith, declare, hi, uses, hs, hm]
    simp only [declareProperties_eq]
    rfl

theorem declareAlias_eq (width : Nat) (name : String) (docs : List String) (t : ApiType) :
    declareAlias width name docs t = declareWith width name docs
      (fun inner => .alias (expression inner.head?.join false t)) [("item", t)] := by
  cases hn : needsName t with
  | false =>
    simp [declareAlias, declareWith, takeNames, declareMembers, innerName, hn]
  | true =>
    simp [declareAlias, declareWith, takeNames, declareMembers, innerName, hn]

theorem declareEntry_eq (width : Nat) (name : String) (t : ApiType) :
    declareEntry width name t = declareWith width name (entryDocs width t.comments)
      (fun inner => entryBody width inner t) (entryUses t) := by
  cases t with
  | scalar s => exact declareAlias_eq width name _ _
  | any cs => rfl
  | named n cs => exact declareAlias_eq width name _ _
  | union ms cs => exact declare_eq width name _ rfl
  | array t cs => exact declareAlias_eq width name _ _
  | record ps cs => exact declare_eq width name _ rfl

/-- To prove a property of every type, prove it from the types that its innermost item uses. -/
theorem uses_induction {P : ApiType → Prop}
    (h : ∀ t, (∀ u ∈ uses (innermost t), P u.2) → P t) (t : ApiType) : P t := by
  suffices hs : P t ∧ ∀ u ∈ uses (innermost t), P u.2 from hs.1
  induction t using ApiType.kinds with
  | scalar s => exact ⟨h _ (by simp [uses, innermost]), by simp [uses, innermost]⟩
  | any cs => exact ⟨h _ (by simp [uses, innermost]), by simp [uses, innermost]⟩
  | named n cs => exact ⟨h _ (by simp [uses, innermost]), by simp [uses, innermost]⟩
  | union ms cs ih =>
    have hu : ∀ u ∈ uses (innermost (.union ms cs)), P u.2 := by
      simpa [uses, innermost] using fun m hm => (ih m hm).1
    exact ⟨h _ hu, hu⟩
  | array t cs ih => exact ⟨h _ ih.2, ih.2⟩
  | record ps cs ih =>
    have hu : ∀ u ∈ uses (innermost (.record ps cs)), P u.2 := by
      simpa [uses, innermost] using fun p hp => (ih p hp).1
    exact ⟨h _ hu, hu⟩

end ApiTypings.Declaration
