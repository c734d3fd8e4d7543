import ApiTypings.Proofs.Declaration.Continuing
import ApiTypings.Proofs.Declaration.Naming
import Mathlib.Data.List.Nodup
import Mathlib.Logic.Function.Iterate

/-!
# Declaring a schema several times

Every run declares each entry once more and takes one new name for each type that stands inside
an entry and needs a declaration of its own. No name that was taken is given again, and the text
only grows at its end.
-/
namespace ApiTypings

mutual

/-- How many unions, records and unknown types a type holds, itself included. -/
def ApiType.compoundCount : ApiType → Nat
  | .scalar _ => 0
  | .any _ => 1
  | .named _ _ => 0
  | .union members _ => memberCompoundCount members + 1
  | .array item _ => item.compoundCount
  | .record properties _ => propertyCompoundCount properties + 1

def memberCompoundCount : List ApiType → Nat
  | [] => 0
  | t :: ts => t.compoundCount + memberCompoundCount ts

def propertyCompoundCount : List Property → Nat
  | [] => 0
  | ⟨_, t, _, _⟩ :: ps => t.compoundCount + propertyCompoundCount ps

end

/-- How many unions, records and unknown types stand inside the type of an entry. The type of the
entry is not inside itself. -/
def ApiType.inlineCount : ApiType → Nat
  | .any _ => 0
  | .union members _ => memberCompoundCount members
  | .record properties _ => propertyCompoundCount properties
  | t => t.compoundCount

def Schema.inlineCount (s : Schema) : Nat := s.entries.foldr (fun e n => e.2.inlineCount + n) 0

namespace Declaration

/-- The types among use sites that are declared on their own, with all that they hold. -/
def usedCount (us : List (String × ApiType)) : Nat :=
  us.foldr (fun u n => u.2.compoundCount + n) 0

theorem memberCompoundCount_eq (ms : List ApiType) :
    memberCompoundCount ms = usedCount (uses (.union ms [])) := by
  induction ms with
  | nil => rfl
  | cons m ms ih =>
    rw [memberCompoundCount, ih]
    rfl

theorem propertyCompoundCount_eq (ps : List Property) :
    propertyCompoundCount ps = usedCount (uses (.record ps [])) := by
  induction ps with
  | nil => rfl
  | cons p ps ih =>
    obtain ⟨n, t, o, d⟩ := p
    rw [propertyCompoundCount, ih]
    rfl

theorem compoundCount_of_not_needsName {t : ApiType} (h : needsName t = false) :
    t.compoundCount = 0 := by
  induction t using ApiType.kinds with
  | scalar s => rfl
  | any cs => simp [needsName] at h
  | named n cs => rfl
  | union ms cs ih => simp [needsName] at h
  | array t cs ih => exact ih h
  | record ps cs ih => simp [needsName] at h

theorem compoundCount_eq {t : ApiType} (h : needsName t = true) :
    t.compoundCount = usedCount (uses (innermost t)) + 1 := by
  induction t using ApiType.kinds with
  | scalar s => simp [needsName] at h
  | any cs => rfl
  | named n cs => simp [needsName] at h
  | union ms cs ih => exact congrArg (· + 1) (memberCompoundCount_eq ms)
  | array t cs ih => exact ih h
  | record ps cs ih => exact congrArg (· + 1) (propertyCompoundCount_eq ps)

theorem inlineCount_eq (t : ApiType) : t.inlineCount = usedCount (entryUses t) := by
  cases t with
  | scalar s => rfl
  | any cs => rfl
  | named n cs => rfl
  | union ms cs => exact memberCompoundCount_eq ms
  | array t cs => rfl
  | record ps cs => exact propertyCompoundCount_eq ps

section Run

variable (width : Nat)

theorem length_declareMembers {us : List (String × ApiType)} {inner : List (Option String)}
    (hi : List.Forall₂ (fun u i => i.isSome = needsName u.2) us inner)
    (hu : ∀ u ∈ us, needsName u.2 = true → ∀ name docs taken,
      ((declare width name docs u.2).run taken).1.length = u.2.compoundCount)
    (taken : List String) :
    ((declareMembers width inner (us.map Prod.snd)).run taken).1.length = usedCount us := by
  induction hi generalizing taken with
  | nil => rfl
  | @cons u i us inner hui _ ih =>
    have hus := ih fun v hv => hu v (List.mem_cons_of_mem u hv)
    have hcount : usedCount (u :: us) = u.2.compoundCount + usedCount us := rfl
    rw [List.map_cons, hcount]
    cases i with
    | none =>
      rw [declareMembers_cons_none, hus, compoundCount_of_not_needsName hui.symm, Nat.zero_add]
    | some name =>
      have here := hu u List.mem_cons_self hui.symm name [] taken
      simp only [run_declareMembers_cons_some, List.length_append, here, hus]

theorem length_declareWith (name : String) (docs : List String)
    (body : List (Option String) → Body) {us : List (String × ApiType)}
    (hu : ∀ u ∈ us, needsName u.2 = true → ∀ name docs taken,
      ((declare width name docs u.2).run taken).1.length = u.2.compoundCount)
    (taken : List String) :
    ((declareWith width name docs body us).run taken).1.length = usedCount us + 1 := by
  have hc := chosen_takeNames name us taken
  exact congrArg (· + 1) (length_declareMembers width hc.forall₂ hu _)

/-- A type is declared together with everything in it that needs a declaration. -/
theorem length_declare (t : ApiType) : needsName t = true → ∀ name docs taken,
    ((declare width name docs t).run taken).1.length = t.compoundCount := by
  induction t using uses_induction with
  | h t ih =>
    intro hn name docs taken
    rw [declare_eq width name docs hn, compoundCount_eq hn]
    exact length_declareWith width name docs _ ih taken

theorem length_declareEntry (name : String) (t : ApiType) (taken : List String) :
    ((declareEntry width name t).run taken).1.length = t.inlineCount + 1 := by
  rw [declareEntry_eq, inlineCount_eq]
  exact length_declareWith width name _ _ (fun u _ => length_declare width u.2) taken

theorem length_declareEntries (es : List (String × ApiType)) (taken : List String) :
    ((declareEntries width es).run taken).1.length =
      es.length + es.foldr (fun e n => e.2.inlineCount + n) 0 := by
  induction es generalizing taken with
  | nil => rfl
  | cons e es ih =>
    obtain ⟨name, t⟩ := e
    have here := length_declareEntry width name t taken
    have rest := ih ((declareEntry width name t).run taken).2
    rw [run_declareEntries_cons, List.foldr_cons, List.length_cons]
    simp only [List.length_append, here, rest]
    omega

end Run

/-- A schema declared a number of times. -/
def Generator.afterRuns (s : Schema) (width n : Nat) : Generator :=
  Generator.generate^[n] (Generator.new s width)

namespace Generator

variable (s : Schema) (width n : Nat)

theorem afterRuns_succ : afterRuns s width (n + 1) = (afterRuns s width n).generate :=
  Function.iterate_succ_apply' _ _ _

/-- No run changes what is declared and how wide lines are. -/
theorem afterRuns_frame :
    (afterRuns s width n).schema = s ∧ (afterRuns s width n).width = width := by
  induction n with
  | zero => exact ⟨rfl, rfl⟩
  | succ n ih =>
    rw [afterRuns_succ]
    exact ih

theorem declarations_afterRuns_succ :
    (afterRuns s width (n + 1)).declarations = (afterRuns s width n).declarations ++
      ((declareEntries width s.entries).run (afterRuns s width n).taken).1 := by
  obtain ⟨hs, hw⟩ := afterRuns_frame s width n
  rw [afterRuns_succ]
  simp only [generate, hs, hw]
  rfl

theorem taken_afterRuns_succ : (afterRuns s width (n + 1)).taken =
    ((declareEntries width s.entries).run (afterRuns s width n).taken).2 := by
  obtain ⟨hs, hw⟩ := afterRuns_frame s width n
  rw [afterRuns_succ]
  simp only [generate, hs, hw]
  rfl

/-- All runs together declare the entries once for each run, and each name they take once. -/
theorem declares_afterRuns : Declares (List.replicate n s.names).flatten s.names
    ((afterRuns s width n).declarations, (afterRuns s width n).taken) := by
  induction n with
  | zero => exact declares_nil s.nodup
  | succ n ih =>
    have hnext := ih.append (declares_declareEntries width s.entries ih.nodup)
    rw [declarations_afterRuns_succ, taken_afterRuns_succ, List.replicate_succ',
      List.flatten_append, List.flatten_singleton]
    exact hnext

theorem length_afterRuns :
    (afterRuns s width n).declarations.length = n * (s.names.length + s.inlineCount) := by
  induction n with
  | zero => rw [Nat.zero_mul]; rfl
  | succ n ih =>
    have hrun := length_declareEntries width s.entries (afterRuns s width n).taken
    have hlen : s.names.length = s.entries.length := List.length_map _
    rw [declarations_afterRuns_succ, List.length_append, ih, hrun, Nat.succ_mul, hlen]
    rfl

/-- What all runs declare are the entries, once for each run, and names that they took: no two of
these are the same, and none is an entry. -/
theorem exists_new_names : ∃ new : List String, new.Nodup ∧ (∀ d ∈ new, d ∉ s.names) ∧
    ((afterRuns s width n).declarations.map Declaration.name).Perm
      ((List.replicate n s.names).flatten ++ new) := by
  have hdeclares := declares_afterRuns s width n
  obtain ⟨new, htaken, hperm⟩ := hdeclares.exists_new
  have hnodup : (new ++ s.names).Nodup := htaken ▸ hdeclares.nodup
  obtain ⟨hnew, -, hdisjoint⟩ := List.nodup_append.mp hnodup
  exact ⟨new, hnew, fun d hd hmem => hdisjoint d hd d hmem rfl, hperm⟩

end Generator

theorem count_flatten_replicate (n : Nat) (names : List String) (name : String) :
    (List.replicate n names).flatten.count name = n * names.count name := by
  simp [List.count_flatten]

theorem filter_flatten_replicate (n : Nat) (names : List String) :
    (List.replicate n names).flatten.filter (· ∉ names) = [] := by
  rw [List.filter_eq_nil_iff]
  intro d hd
  obtain ⟨l, hl, hdl⟩ := List.mem_flatten.mp hd
  rw [List.eq_of_mem_replicate hl] at hdl
  simpa using hdl

/-- However often a schema is declared, each entry is declared once in every run, any other name
once in all of them, and every run declares as many other names as there are unions, records and
unknown types inside entries. A further run adds to the text at its end. -/
theorem names_afterRuns (s : Schema) (width n : Nat) :
    let names := (Generator.afterRuns s width n).declarations.map Declaration.name
    (∀ e ∈ s.names, names.count e = n) ∧
      (∀ d ∈ names, d ∉ s.names → names.count d = 1) ∧
      (names.filter (· ∉ s.names)).length = n * s.inlineCount ∧
      (Generator.afterRuns s width n).text.toList <+:
        (Generator.afterRuns s width n).generate.text.toList := by
  intro names
  obtain ⟨new, hnew, hout, hperm⟩ := Generator.exists_new_names s width n
  have hcount : ∀ d, names.count d = n * s.names.count d + new.count d := by
    intro d
    rw [hperm.count_eq, List.count_append, count_flatten_replicate]
  refine ⟨fun e he => ?_, fun d hd hd' => ?_, ?_, ?_⟩
  · have hone : s.names.count e = 1 := List.count_eq_one_of_mem s.nodup he
    have hzero : new.count e = 0 := List.count_eq_zero.mpr fun h => hout e h he
    rw [hcount, hone, hzero, Nat.mul_one, Nat.add_zero]
  · have hzero : s.names.count d = 0 := List.count_eq_zero.mpr hd'
    have hpos : 0 < names.count d := List.count_pos_iff.mpr hd
    have hle : new.count d ≤ 1 := List.nodup_iff_count_le_one.mp hnew d
    rw [hcount, hzero, Nat.mul_zero, Nat.zero_add] at hpos ⊢
    omega
  · have hothers : new.filter (· ∉ s.names) = new :=
      List.filter_eq_self.mpr fun d hd => by simpa using hout d hd
    have hflat : (List.replicate n s.names).flatten.length = n * s.names.length := by simp
    have htotal := hperm.length_eq
    rw [List.length_map, List.length_append, hflat, Generator.length_afterRuns, Nat.mul_add]
      at htotal
    rw [(hperm.filter _).length_eq, List.filter_append, filter_flatten_replicate, hothers,
      List.nil_append]
    omega
  · rw [← Generator.afterRuns_succ, Generator.text, Generator.text,
      Generator.declarations_afterRuns_succ]
    exact declarationsText_prefix _ _

end Declaration

end ApiTypings
