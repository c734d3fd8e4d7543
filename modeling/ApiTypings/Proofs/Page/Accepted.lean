import ApiTypings.Proofs.Page.Recovery

/-!
# The shape of an accepted schema

An accepted page has entries of three kinds, and what stands below an entry is spelled in a cell
or a list. Only entries and properties are documented, no type below an entry is.
-/
namespace ApiTypings

mutual

/-- The types that a type is made of, at any depth and without itself. -/
def ApiType.parts : ApiType → List ApiType
  | .scalar _ => []
  | .any _ => []
  | .named _ _ => []
  | .union members _ => memberParts members
  | .array item _ => item :: item.parts
  | .record properties _ => propertyParts properties

def memberParts : List ApiType → List ApiType
  | [] => []
  | t :: ts => (t :: t.parts) ++ memberParts ts

def propertyParts : List Property → List ApiType
  | [] => []
  | ⟨_, t, _, _⟩ :: ps => (t :: t.parts) ++ propertyParts ps

end

theorem memberParts_eq_flatMap (ts : List ApiType) :
    memberParts ts = ts.flatMap fun t => t :: t.parts := by
  induction ts with
  | nil => rfl
  | cons t ts ih => rw [memberParts, ih, List.flatMap_cons]

theorem propertyParts_eq_flatMap (ps : List Property) :
    propertyParts ps = ps.flatMap fun p => p.type :: p.type.parts := by
  induction ps with
  | nil => rfl
  | cons p ps ih =>
    obtain ⟨n, t, o, d⟩ := p
    rw [propertyParts, ih, List.flatMap_cons]

namespace Page

open Markup

/-- Whether neither a type nor any type below it is documented. -/
def Undocumented (t : ApiType) : Prop := ∀ u ∈ t :: t.parts, u.comments = []

section Known

variable {known : String → Prop} {t : ApiType}

theorem IsItem.undocumented (h : IsItem known t) : Undocumented t := by
  cases h with
  | scalar s => simp [Undocumented, ApiType.parts, ApiType.comments]
  | named h => simp [Undocumented, ApiType.parts, ApiType.comments]

theorem IsCellType.undocumented (h : IsCellType known t) : Undocumented t := by
  induction h with
  | item h => exact h.undocumented
  | @union ts hlen h =>
    refine List.forall_mem_cons.mpr ⟨rfl, fun u hu => ?_⟩
    rw [ApiType.parts, memberParts_eq_flatMap] at hu
    obtain ⟨t, ht, hut⟩ := List.mem_flatMap.mp hu
    exact (h t ht).undocumented u hut
  | array h ih => exact List.forall_mem_cons.mpr ⟨rfl, ih⟩

theorem IsItem.parts (h : IsItem known t) : t.parts = [] := by
  cases h <;> rfl

/-- Items that stand beside each other are all that they are made of. -/
theorem memberParts_of_isItem {ts : List ApiType} (h : ∀ t ∈ ts, IsItem known t) :
    memberParts ts = ts := by
  induction ts with
  | nil => rfl
  | cons t ts ih =>
    obtain ⟨ht, hts⟩ := List.forall_mem_cons.mp h
    rw [memberParts, ht.parts, ih hts]
    rfl

theorem IsCellType.isCellType_of_mem_parts (h : IsCellType known t) :
    ∀ u ∈ t.parts, IsCellType known u := by
  induction h with
  | item h => simp [h.parts]
  | union hlen h =>
    rw [ApiType.parts, memberParts_of_isItem h]
    exact fun u hu => .item (h u hu)
  | array h ih => exact List.forall_mem_cons.mpr ⟨h, ih⟩

/-- What an entry is made of is spelled in cells and lists. -/
theorem IsEntryType.isCellType_of_mem_parts (h : IsEntryType known t) :
    ∀ u ∈ t.parts, IsCellType known u := by
  cases h with
  | any cs => exact fun u hu => absurd hu List.not_mem_nil
  | union h cs =>
    have hitems := forall_isItem_of_names h
    rw [ApiType.parts, memberParts_of_isItem hitems]
    exact fun u hu => .item (hitems u hu)
  | record h cs =>
    intro u hu
    rw [ApiType.parts, propertyParts_eq_flatMap] at hu
    obtain ⟨p, hp, hu⟩ := List.mem_flatMap.mp hu
    rcases List.mem_cons.mp hu with rfl | hu
    · exact (h p hp).2
    · exact (h p hp).2.isCellType_of_mem_parts u hu

theorem IsEntryType.undocumented_parts (h : IsEntryType known t) :
    ∀ u ∈ t.parts, u.comments = [] :=
  fun u hu => (h.isCellType_of_mem_parts u hu).undocumented u List.mem_cons_self

/-- Members that are all names are the names of a list. -/
theorem exists_names_eq {ts : List ApiType} (h : ∀ t ∈ ts, ∃ n, known n ∧ t = .named n []) :
    ∃ names : List String, ts = names.map fun n => .named n [] := by
  induction ts with
  | nil => exact ⟨[], rfl⟩
  | cons t ts ih =>
    obtain ⟨⟨n, -, rfl⟩, hts⟩ := List.forall_mem_cons.mp h
    obtain ⟨names, rfl⟩ := ih hts
    exact ⟨n :: names, rfl⟩

/-- What the arrays of a cell are around. -/
theorem IsCellType.exists_core (h : IsCellType known t) :
    ∃ depth core, t = arraysOf depth core ∧ (IsItem known core ∨
      ∃ ts, core = .union ts [] ∧ 2 ≤ ts.length ∧ ∀ u ∈ ts, IsItem known u) := by
  induction h with
  | item h => exact ⟨0, _, rfl, Or.inl h⟩
  | union hlen h => exact ⟨0, _, rfl, Or.inr ⟨_, rfl, hlen, h⟩⟩
  | array h ih =>
    obtain ⟨depth, core, rfl, hcore⟩ := ih
    exact ⟨depth + 1, core, rfl, hcore⟩

end Known

/-- What printers and declarations can rely on. An entry is unknown, a union of names or a record.
A property has an identifier and, inside any number of arrays, a scalar, a name or a union of at
least two of those. -/
structure WellShaped (s : Schema) : Prop where
  names : ∀ n ∈ s.names, isTypeName n.toList = true
  entries : ∀ e ∈ s.entries, (∃ cs, e.2 = .any cs) ∨
    (∃ (names : List String) (cs : List DocComment),
      e.2 = .union (names.map fun n => .named n []) cs) ∨
    ∃ ps cs, e.2 = .record ps cs
  properties : ∀ e ∈ s.entries, ∀ ps cs, e.2 = .record ps cs → ∀ p ∈ ps,
    isIdentifier p.name.toList = true ∧ ∃ depth core, p.type = arraysOf depth core ∧
      (IsItem (· ∈ s.names) core ∨
        ∃ ts, core = .union ts [] ∧ 2 ≤ ts.length ∧ ∀ u ∈ ts, IsItem (· ∈ s.names) u)
  closed : ∀ e ∈ s.entries, ∀ r ∈ e.2.references, r ∈ s.names
  documentation : ∀ e ∈ s.entries, ∀ u ∈ e.2.parts, u.comments = []

theorem readSchema_wellShaped {document : List Node} {s : Schema}
    (h : readSchema document = .ok s) : WellShaped s := by
  have hshape : ∀ e ∈ s.entries, IsEntryType (· ∈ s.names) e.2 :=
    fun e he => (isEntryType_of_readSchema h he).2
  refine ⟨fun n hn => isTypeName_of_mem_names h hn, fun e he => ?_, fun e he ps cs hrecord => ?_,
    ?_, fun e he => (hshape e he).undocumented_parts⟩
  · obtain ⟨name, type⟩ := e
    cases hshape _ he with
    | any cs => exact Or.inl ⟨cs, rfl⟩
    | union hts cs =>
      obtain ⟨names, rfl⟩ := exists_names_eq hts
      exact Or.inr (Or.inl ⟨names, cs, rfl⟩)
    | record hps cs => exact Or.inr (Or.inr ⟨_, cs, rfl⟩)
  · have htype := hshape e he
    rw [hrecord] at htype
    cases htype with
    | record hps _ => exact fun p hp => ⟨(hps p hp).1, (hps p hp).2.exists_core⟩
  · obtain ⟨entries, -, hclosed⟩ := bind_eq_ok.mp h
    rw [checkClosed] at hclosed
    split at hclosed
    · next hnone =>
      cases hclosed
      exact Schema.dangling?_eq_none.mp hnone
    · cases hclosed

theorem readSchema_wellShaped_events :
    readSchema (eventsPage .float) = .ok (Schema.ofList (eventsEntries .float)) ∧
      WellShaped (Schema.ofList (eventsEntries .float)) :=
  ⟨readSchema_events .float, readSchema_wellShaped (readSchema_events .float)⟩

end Page

end ApiTypings
