import ApiTypings.Proofs.Schema.Outline

/-!
# Closed schemas

The check for references that lead nowhere is a search through all references from left to
right. It finds none exactly if every reference is an entry.
-/
namespace ApiTypings

variable (known : String → Bool)

theorem firstUnknownMember?_eq_find? {ts : List ApiType}
    (h : ∀ t ∈ ts, t.firstUnknown? known = t.references.find? (!known ·)) :
    firstUnknownMember? known ts = (memberReferences ts).find? (!known ·) := by
  induction ts with
  | nil => rfl
  | cons t ts ih =>
    rw [firstUnknownMember?, memberReferences, List.find?_append, h t List.mem_cons_self,
      ih fun u hu => h u (List.mem_cons_of_mem t hu)]
    cases t.references.find? (!known ·) <;> rfl

theorem firstUnknownProperty?_eq_find? {ps : List Property}
    (h : ∀ p ∈ ps, p.type.firstUnknown? known = p.type.references.find? (!known ·)) :
    firstUnknownProperty? known ps = (propertyReferences ps).find? (!known ·) := by
  induction ps with
  | nil => rfl
  | cons p ps ih =>
    have hp := h p List.mem_cons_self
    obtain ⟨n, t, o, d⟩ := p
    rw [firstUnknownProperty?, propertyReferences, List.find?_append, hp,
      ih fun q hq => h q (List.mem_cons_of_mem _ hq)]
    cases t.references.find? (!known ·) <;> rfl

/-- The first unknown name of a type is the first of its references that is not known. -/
theorem ApiType.firstUnknown?_eq_find? (t : ApiType) :
    t.firstUnknown? known = t.references.find? (!known ·) := by
  induction t using ApiType.kinds with
  | scalar s => rfl
  | any cs => rfl
  | named n cs =>
    rw [firstUnknown?, references, List.find?_singleton]
    cases known n <;> rfl
  | union ms cs ih => exact firstUnknownMember?_eq_find? known ih
  | array t cs ih => exact ih
  | record ps cs ih => exact firstUnknownProperty?_eq_find? known ih

/-- The check goes through the entries in order and stops at the first one that fails. -/
theorem firstDangling?_eq_findSome? (es : List (String × ApiType)) :
    firstDangling? known es = es.findSome? fun e =>
      (e.2.references.find? (!known ·)).map fun name => ⟨name, e.1⟩ := by
  induction es with
  | nil => rfl
  | cons e es ih =>
    obtain ⟨owner, t⟩ := e
    rw [firstDangling?, ApiType.firstUnknown?_eq_find?, List.findSome?_cons, ih]
    cases t.references.find? (!known ·) <;> rfl

theorem firstDangling?_eq_none {es : List (String × ApiType)} :
    firstDangling? known es = none ↔ ∀ e ∈ es, ∀ r ∈ e.2.references, known r = true := by
  rw [firstDangling?_eq_findSome?, List.findSome?_eq_none_iff]
  simp only [Option.map_eq_none_iff, List.find?_eq_none, Bool.not_eq_true', Bool.not_eq_false]

theorem firstDangling?_eq_some {es : List (String × ApiType)} {r : DanglingReference}
    (h : firstDangling? known es = some r) :
    ∃ t, (r.referencedBy, t) ∈ es ∧ r.name ∈ t.references ∧ known r.name = false := by
  rw [firstDangling?_eq_findSome?] at h
  obtain ⟨e, he, hfound⟩ := List.exists_of_findSome?_eq_some h
  obtain ⟨name, hname, rfl⟩ := Option.map_eq_some_iff.mp hfound
  exact ⟨e.2, he, List.mem_of_find?_eq_some hname, by simpa using List.find?_some hname⟩

/-- A schema is closed if and only if every reference in it names an entry. -/
theorem Schema.dangling?_eq_none {s : Schema} :
    s.dangling? = none ↔ ∀ e ∈ s.entries, ∀ r ∈ e.2.references, r ∈ s.names := by
  rw [Schema.dangling?, firstDangling?_eq_none]
  simp only [Schema.contains_iff]

/-- The reference that is reported belongs to the schema and names no entry. -/
theorem Schema.dangling?_eq_some {s : Schema} {r : DanglingReference} (h : s.dangling? = some r) :
    ∃ t, (r.referencedBy, t) ∈ s.entries ∧ r.name ∈ t.references ∧ r.name ∉ s.names := by
  obtain ⟨t, ht, hr, hunknown⟩ := firstDangling?_eq_some s.contains h
  refine ⟨t, ht, hr, fun hmem => ?_⟩
  rw [contains_iff.mpr hmem] at hunknown
  exact Bool.noConfusion hunknown

end ApiTypings
