import ApiTypings.Schema.ApiType

/-!
# Schemas

A schema lists the types of a reference page by name, in the order in which the names
first appeared. A name occurs once; a later definition replaces the type and keeps the place.
-/
namespace ApiTypings

/-- Puts a type under a name: in place of an earlier one, or else at the end. -/
def putEntry (name : String) (type : ApiType) :
    List (String × ApiType) → List (String × ApiType)
  | [] => [(name, type)]
  | e :: es => if e.1 = name then (name, type) :: es else e :: putEntry name type es

theorem mem_names_putEntry {name n : String} {type : ApiType} {es : List (String × ApiType)} :
    n ∈ (putEntry name type es).map Prod.fst ↔ n = name ∨ n ∈ es.map Prod.fst := by
  induction es with
  | nil => simp [putEntry]
  | cons e es ih =>
    unfold putEntry
    split
    · next h => simp [h]
    · simp only [List.map_cons, List.mem_cons, ih]
      constructor
      · rintro (h | h | h) <;> simp [h]
      · rintro (h | h | h) <;> simp [h]

theorem nodup_putEntry {name : String} {type : ApiType} {es : List (String × ApiType)}
    (h : (es.map Prod.fst).Nodup) : ((putEntry name type es).map Prod.fst).Nodup := by
  induction es with
  | nil => simp [putEntry]
  | cons e es ih =>
    obtain ⟨hn, hs⟩ := List.nodup_cons.1 h
    unfold putEntry
    split
    · next he => rw [List.map_cons]; exact List.nodup_cons.2 ⟨by rw [← he]; exact hn, hs⟩
    · next he =>
      rw [List.map_cons]
      refine List.nodup_cons.2 ⟨?_, ih hs⟩
      rw [mem_names_putEntry]
      rintro (h | h)
      · exact he h
      · exact hn h

/-- The entries of a page, each name once. -/
structure Schema where
  entries : List (String × ApiType) := []
  nodup : (entries.map Prod.fst).Nodup := by simp

namespace Schema

def empty : Schema := {}

instance : Inhabited Schema := ⟨empty⟩

def names (s : Schema) : List String := s.entries.map Prod.fst

def size (s : Schema) : Nat := s.entries.length

def isEmpty (s : Schema) : Bool := s.entries.isEmpty

def get? (s : Schema) (name : String) : Option ApiType := s.entries.lookup name

def contains (s : Schema) (name : String) : Bool := s.names.contains name

def insert (s : Schema) (name : String) (type : ApiType) : Schema :=
  ⟨putEntry name type s.entries, nodup_putEntry s.nodup⟩

/-- Inserts one entry after the other. -/
def ofList (es : List (String × ApiType)) : Schema :=
  es.foldl (fun s e => s.insert e.1 e.2) empty

theorem contains_iff {s : Schema} {name : String} : s.contains name = true ↔ name ∈ s.names := by
  simp [contains]

theorem mem_names_insert {s : Schema} {name n : String} {type : ApiType} :
    n ∈ (s.insert name type).names ↔ n = name ∨ n ∈ s.names :=
  mem_names_putEntry

end Schema

end ApiTypings
