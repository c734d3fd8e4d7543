import ApiTypings.Page.Reading
import ApiTypings.Proofs.Schema.Closed
import Mathlib.Data.List.Lex

/-!
# The first reference that leads nowhere

A place in a schema is the number of an entry and the numbers of the parts on the way down from
there. Who reads the entries in order, and each type from left to right, meets the places in
lexicographic order. A schema is refused exactly if some place refers to a name that is no entry,
and the error is about the first such place.
-/
namespace ApiTypings

/-- What a type is directly made of, from left to right. -/
def ApiType.directParts : ApiType → List ApiType
  | .scalar _ | .any _ | .named _ _ => []
  | .union members _ => members
  | .array item _ => [item]
  | .record properties _ => properties.map Property.type

/-- The type at a place below a type. -/
def ApiType.at? (t : ApiType) : List Nat → Option ApiType
  | [] => some t
  | i :: place => t.directParts[i]?.bind fun u => u.at? place

def ApiType.RefersAt (t : ApiType) (place : List Nat) (name : String) : Prop :=
  ∃ cs, t.at? place = some (.named name cs)

/-- Whether an entry refers to a name, at a place that begins with the number of the entry. -/
def Schema.RefersAt (s : Schema) (place : List Nat) (owner name : String) : Prop :=
  ∃ i below t, place = i :: below ∧ s.entries[i]? = some (owner, t) ∧ t.RefersAt below name

namespace ApiType

theorem refersAt_cons {t : ApiType} {i : Nat} {place : List Nat} {name : String} :
    t.RefersAt (i :: place) name ↔ ∃ u, t.directParts[i]? = some u ∧ u.RefersAt place name := by
  constructor
  · rintro ⟨cs, h⟩
    obtain ⟨u, hu, hbelow⟩ := Option.bind_eq_some_iff.mp h
    exact ⟨u, hu, cs, hbelow⟩
  · rintro ⟨u, hu, cs, hbelow⟩
    exact ⟨cs, Option.bind_eq_some_iff.mpr ⟨u, hu, hbelow⟩⟩

theorem refersAt_nil {t : ApiType} {name : String} :
    t.RefersAt [] name ↔ ∃ cs, t = .named name cs :=
  exists_congr fun _ => Option.some_inj

/-- A type refers to what its parts refer to, unless it is a name itself. -/
theorem references_eq_flatMap {t : ApiType} (h : ∀ name cs, t ≠ .named name cs) :
    t.references = t.directParts.flatMap references := by
  cases t with
  | scalar s => rfl
  | any cs => rfl
  | named name cs => exact absurd rfl (h name cs)
  | union ms cs => exact memberReferences_eq_flatMap ms
  | array t cs => exact (List.flatMap_singleton references t).symm
  | record ps cs =>
    rw [directParts, List.flatMap_map]
    exact propertyReferences_eq_flatMap ps

theorem RefersAt.mem_references {t : ApiType} {place : List Nat} {name : String}
    (h : t.RefersAt place name) : name ∈ t.references := by
  induction place generalizing t with
  | nil =>
    obtain ⟨cs, rfl⟩ := refersAt_nil.mp h
    exact List.mem_cons_self
  | cons i place ih =>
    obtain ⟨u, hu, hbelow⟩ := refersAt_cons.mp h
    have hparts : u ∈ t.directParts := List.mem_of_getElem? hu
    have hname : ∀ name cs, t ≠ .named name cs := by
      rintro name cs rfl
      exact List.not_mem_nil hparts
    rw [references_eq_flatMap hname]
    exact List.mem_flatMap.mpr ⟨u, hparts, ih hbelow⟩

end ApiType

/-- The first place of a type in reading order that refers to an unknown name. -/
structure FirstUnknown (known : String → Bool) (t : ApiType) (place : List Nat) (name : String) :
    Prop where
  refers : t.RefersAt place name
  unknown : known name = false
  earlier : ∀ before < place, ∀ other, t.RefersAt before other → known other = true

/-- A place before one that begins with `before.length` is in an item of `before`, or earlier in
the same item. -/
theorem earlier_item {α : Type} {before after : List α} {x y : α} {j : Nat} {below rest : List Nat}
    (hplace : j :: below < before.length :: rest) (hy : (before ++ x :: after)[j]? = some y) :
    y ∈ before ∨ y = x ∧ below < rest := by
  rcases List.cons_lt_cons_iff.mp hplace with hj | ⟨rfl, hbelow⟩
  · rw [List.getElem?_append_left hj] at hy
    exact Or.inl (List.mem_of_getElem? hy)
  · rw [List.getElem?_append_right (Nat.le_refl _), Nat.sub_self] at hy
    exact Or.inr ⟨(Option.some.inj hy).symm, hbelow⟩

section Known

variable (known : String → Bool)

theorem ApiType.RefersAt.known_of_find? {t : ApiType} {place : List Nat} {name : String}
    (hname : t.RefersAt place name) (h : t.references.find? (!known ·) = none) :
    known name = true := by
  simpa using List.find?_eq_none.mp h name hname.mem_references

/-- What is found among the references of the parts is first if it is first in its part. -/
theorem exists_firstUnknown_part {t : ApiType} {name : String}
    (hparts : ∀ u ∈ t.directParts, u.references.find? (!known ·) = some name →
      ∃ place, FirstUnknown known u place name)
    (hname : ∀ other cs, t ≠ .named other cs)
    (h : (t.directParts.flatMap ApiType.references).find? (!known ·) = some name) :
    ∃ place, FirstUnknown known t place name := by
  rw [List.find?_flatMap] at h
  obtain ⟨before, u, after, hsplit, hu, hbefore⟩ := List.findSome?_eq_some_iff.mp h
  obtain ⟨place, hfirst⟩ := hparts u (by rw [hsplit]; simp) hu
  refine ⟨before.length :: place, ?_, hfirst.unknown, ?_⟩
  · exact ApiType.refersAt_cons.mpr ⟨u, by rw [hsplit]; simp, hfirst.refers⟩
  · intro earlier hearlier other hother
    cases earlier with
    | nil =>
      obtain ⟨cs, hroot⟩ := ApiType.refersAt_nil.mp hother
      exact absurd hroot (hname other cs)
    | cons j below =>
      obtain ⟨v, hv, hbelow⟩ := ApiType.refersAt_cons.mp hother
      rw [hsplit] at hv
      rcases earlier_item hearlier hv with hmem | ⟨rfl, hlt⟩
      · exact hbelow.known_of_find? known (hbefore v hmem)
      · exact hfirst.earlier below hlt other hbelow

/-- The first unknown name among the references stands at the first such place. -/
theorem exists_firstUnknown (t : ApiType) {name : String}
    (h : t.references.find? (!known ·) = some name) :
    ∃ place, FirstUnknown known t place name := by
  induction t using ApiType.kinds with
  | scalar s => cases h
  | any cs => cases h
  | named n cs =>
    obtain ⟨hn, hunknown⟩ : name = n ∧ known n = false := by
      have hfound := List.mem_of_find?_eq_some h
      have htest := List.find?_some h
      obtain rfl := List.mem_singleton.mp hfound
      exact ⟨rfl, by simpa using htest⟩
    subst hn
    refine ⟨[], ⟨cs, rfl⟩, hunknown, fun before hbefore => ?_⟩
    exact absurd hbefore (List.not_lt_nil before)
  | union ms cs ih =>
    refine exists_firstUnknown_part known (fun u hu => ih u hu) (by simp) ?_
    rwa [← ApiType.references_eq_flatMap (by simp)]
  | array t cs ih =>
    refine exists_firstUnknown_part known (List.forall_mem_singleton.mpr ih) (by simp) ?_
    rwa [← ApiType.references_eq_flatMap (by simp)]
  | record ps cs ih =>
    refine exists_firstUnknown_part known (List.forall_mem_map.mpr ih) (by simp) ?_
    rwa [← ApiType.references_eq_flatMap (by simp)]

end Known

namespace Schema

variable {s : Schema}

theorem RefersAt.unique {place : List Nat} {owner owner' name name' : String}
    (h : s.RefersAt place owner name) (h' : s.RefersAt place owner' name') :
    owner = owner' ∧ name = name' := by
  obtain ⟨i, below, t, rfl, hentry, cs, hname⟩ := h
  obtain ⟨_, _, t', heq, hentry', cs', hname'⟩ := h'
  obtain ⟨rfl, rfl⟩ := List.cons.inj heq
  obtain ⟨rfl, rfl⟩ := Prod.mk.inj (Option.some.inj (hentry.symm.trans hentry'))
  obtain ⟨rfl, -⟩ := ApiType.named.inj (Option.some.inj (hname.symm.trans hname'))
  exact ⟨rfl, rfl⟩

/-- Whether a reference is the first one in reading order that leads to no entry. -/
def FirstDangling (s : Schema) (r : DanglingReference) : Prop :=
  ∃ place, s.RefersAt place r.referencedBy r.name ∧ r.name ∉ s.names ∧
    ∀ earlier < place, ∀ owner name, s.RefersAt earlier owner name → name ∈ s.names

theorem firstDangling_of_dangling? {r : DanglingReference} (h : s.dangling? = some r) :
    s.FirstDangling r := by
  rw [dangling?, firstDangling?_eq_findSome?] at h
  obtain ⟨before, e, after, hsplit, he, hbefore⟩ := List.findSome?_eq_some_iff.mp h
  obtain ⟨owner, t⟩ := e
  obtain ⟨name, hname, rfl⟩ := Option.map_eq_some_iff.mp he
  obtain ⟨place, hfirst⟩ := exists_firstUnknown s.contains t hname
  have hunknown : name ∉ s.names := by
    rw [← contains_iff, hfirst.unknown]
    exact Bool.false_ne_true
  refine ⟨before.length :: place, ?_, hunknown, ?_⟩
  · exact ⟨_, place, t, rfl, by rw [hsplit]; simp, hfirst.refers⟩
  · rintro earlier hearlier owner' name' ⟨j, below, u, rfl, hu, hbelow⟩
    rw [hsplit] at hu
    rw [← contains_iff]
    rcases earlier_item hearlier hu with hmem | ⟨hsame, hlt⟩
    · exact hbelow.known_of_find? s.contains (Option.map_eq_none_iff.mp (hbefore _ hmem))
    · obtain ⟨rfl, rfl⟩ := Prod.mk.inj hsame
      exact hfirst.earlier below hlt name' hbelow

/-- Two references are not both first. -/
theorem FirstDangling.unique {r q : DanglingReference} (hr : s.FirstDangling r)
    (hq : s.FirstDangling q) : r = q := by
  obtain ⟨place, hplace, hunknown, hbefore⟩ := hr
  obtain ⟨place', hplace', hunknown', hbefore'⟩ := hq
  rcases lt_trichotomy place place' with hlt | rfl | hlt
  · exact absurd (hbefore' place hlt _ _ hplace) hunknown
  · obtain ⟨howner, hname⟩ := hplace.unique hplace'
    cases r
    cases q
    simp_all
  · exact absurd (hbefore place' hlt _ _ hplace') hunknown'

theorem dangling?_eq_none_iff_places :
    s.dangling? = none ↔ ∀ place owner name, s.RefersAt place owner name → name ∈ s.names := by
  constructor
  · rintro h place owner name ⟨i, below, t, -, hentry, hname⟩
    exact dangling?_eq_none.mp h _ (List.mem_of_getElem? hentry) name hname.mem_references
  · intro h
    cases hdangling : s.dangling? with
    | none => rfl
    | some r =>
      obtain ⟨place, hplace, hunknown, -⟩ := firstDangling_of_dangling? hdangling
      exact absurd (h place _ _ hplace) hunknown

end Schema

namespace Page

/-- A schema passes exactly if every name that is referred to, in whatever entry and however deep,
is an entry. Any other schema is refused for the first reference in reading order that leads
nowhere, together with the entry that it stands in. -/
theorem checkClosed_first_reference (s : Schema) :
    (∀ t, checkClosed s = .ok t ↔
        t = s ∧ ∀ place owner name, s.RefersAt place owner name → name ∈ s.names) ∧
      ∀ e, checkClosed s = .error e ↔ ∃ r, e = .unresolvedReference r ∧ s.FirstDangling r := by
  have hnone := @Schema.dangling?_eq_none_iff_places s
  have hfirst : ∀ r, s.dangling? = some r ↔ s.FirstDangling r := by
    refine fun r => ⟨Schema.firstDangling_of_dangling?, fun hr => ?_⟩
    cases hdangling : s.dangling? with
    | none =>
      obtain ⟨place, hplace, hunknown, -⟩ := hr
      exact absurd (hnone.mp hdangling place _ _ hplace) hunknown
    | some q => rw [(Schema.firstDangling_of_dangling? hdangling).unique hr]
  rw [checkClosed, ← hnone]
  simp only [← hfirst]
  cases s.dangling? <;> simp [eq_comm]

end Page

end ApiTypings
