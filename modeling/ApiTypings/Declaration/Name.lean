import ApiTypings.Declaration.Basic
import ApiTypings.Text.Camel

/-!
# Names in declarations

Field identifiers avoid the keywords. A type that only occurs inside another one is named
after its owner and its field; when that name is taken, the least number from 2 on is added
that makes it free.
-/
namespace ApiTypings.Declaration

/-- The words that are reserved in declarations but can be written as raw identifiers. -/
def keywords : List String :=
  ["abstract", "as", "async", "await", "become", "box", "break", "const", "continue", "do",
   "dyn", "else", "enum", "extern", "false", "final", "fn", "for", "if", "impl", "in", "let",
   "loop", "macro", "match", "mod", "move", "mut", "override", "priv", "pub", "ref", "return",
   "static", "struct", "trait", "true", "try", "type", "typeof", "unsafe", "unsized", "use",
   "virtual", "where", "while", "yield"]

/-- The reserved words that not even a raw identifier may be. -/
def strictKeywords : List String := ["self", "super", "crate", "Self"]

def fieldIdentifier (name : String) : String :=
  if strictKeywords.contains name then name ++ "_"
  else if keywords.contains name then "r#" ++ name
  else name

/-- The name in data that has to be written beside the identifier of a field. -/
def wireName? (name : String) : Option String :=
  if strictKeywords.contains name then some name else none

def variantName : ApiType → String
  | .scalar .boolean => "Boolean"
  | .scalar .integer => "Integer"
  | .scalar .float => "Float"
  | .scalar .string => "String"
  | .any _ => "Any"
  | .named name _ => name
  | .array item _ => "ArrayOf" ++ variantName item
  | .union .. => "Variants"
  | .record .. => "Structure"

/-- A name with the `k`-th number that may follow it. -/
def numbered (base : String) (k : Nat) : String := base ++ toString (k + 2)

/-- The names that are tried for a base, in order: the base itself, then with a number. -/
def candidate (base : String) : Nat → String
  | 0 => base
  | k + 1 => numbered base k

theorem numbered_injective {base : String} {i j : Nat} (h : numbered base i = numbered base j) :
    i = j := by
  have hnumber : toString (i + 2) = toString (j + 2) := (String.append_right_inj base).mp h
  rw [Nat.toString_eq_ofList_toDigits, Nat.toString_eq_ofList_toDigits,
    String.ofList_inj] at hnumber
  have hvalue := congrArg (fun digits => Nat.ofDigitChars 10 digits 0) hnumber
  simp only [Nat.ofDigitChars_ten_toDigits] at hvalue
  omega

theorem numbered_ne (base : String) (k : Nat) : numbered base k ≠ base := by
  intro h
  have hchars := congrArg String.toList h
  rw [numbered, String.toList_append, List.append_right_eq_self, Nat.toString_eq_ofList_toDigits,
    String.toList_ofList] at hchars
  exact Nat.toDigits_ne_nil hchars

theorem candidate_injective {base : String} {i j : Nat} (h : candidate base i = candidate base j) :
    i = j := by
  cases i with
  | zero =>
    cases j with
    | zero => rfl
    | succ j => exact absurd h.symm (numbered_ne base j)
  | succ i =>
    cases j with
    | zero => exact absurd h (numbered_ne base i)
    | succ j => exact congrArg Nat.succ (numbered_injective h)

/-- The taken names that are not among the first `k` candidates. -/
def untried (base : String) (taken : List String) (k : Nat) : List String :=
  taken.filter (fun name => decide (∀ i < k, name ≠ candidate base i))

/-- A taken candidate is tried once, since no candidate is met again. -/
theorem length_untried_succ_lt {base : String} {taken : List String} {k : Nat}
    (h : candidate base k ∈ taken) :
    (untried base taken (k + 1)).length < (untried base taken k).length := by
  have hsucc : untried base taken (k + 1) =
      (untried base taken k).filter (fun name => name ≠ candidate base k) := by
    simp only [untried, List.filter_filter, Nat.forall_lt_succ_right]
    refine List.filter_congr fun name _ => ?_
    simp [and_comm]
  have hmem : candidate base k ∈ untried base taken k := by
    refine List.mem_filter.mpr ⟨h, decide_eq_true fun i hi hsame => ?_⟩
    have := candidate_injective hsame
    omega
  rw [hsucc]
  exact List.length_filter_lt_length_iff_exists.mpr ⟨_, hmem, by simp⟩

/-- The first free name from the `k`-th candidate on. -/
def freshFrom (base : String) (taken : List String) (k : Nat) : String :=
  if candidate base k ∈ taken then freshFrom base taken (k + 1) else candidate base k
termination_by (untried base taken k).length
decreasing_by exact length_untried_succ_lt ‹_›

/-- The first free candidate. -/
def freshName (base : String) (taken : List String) : String := freshFrom base taken 0

/-! ### The search for a free name -/

/-- The search passes taken candidates only, and it stops at a free one. -/
theorem exists_freshFrom_eq (base : String) (taken : List String) (k : Nat) :
    ∃ rounds, freshFrom base taken k = candidate base (k + rounds) ∧
      candidate base (k + rounds) ∉ taken ∧ ∀ i < rounds, candidate base (k + i) ∈ taken := by
  fun_induction freshFrom base taken k with
  | case1 k htaken ih =>
    obtain ⟨rounds, hfound, hfree, hpassed⟩ := ih
    rw [Nat.add_right_comm, Nat.add_assoc] at hfound hfree
    refine ⟨rounds + 1, hfound, hfree, fun i hi => ?_⟩
    cases i with
    | zero => exact htaken
    | succ i =>
      have hi := hpassed i (by omega)
      rwa [Nat.add_right_comm, Nat.add_assoc] at hi
  | case2 k hfree => exact ⟨0, rfl, hfree, by omega⟩

theorem exists_freshName_eq (base : String) (taken : List String) :
    ∃ rounds, freshName base taken = candidate base rounds ∧ candidate base rounds ∉ taken ∧
      ∀ i < rounds, candidate base i ∈ taken := by
  simpa only [freshName, Nat.zero_add] using exists_freshFrom_eq base taken 0

theorem freshName_not_mem (base : String) (taken : List String) : freshName base taken ∉ taken := by
  obtain ⟨rounds, hfound, hfree, -⟩ := exists_freshName_eq base taken
  rwa [hfound]

theorem freshName_eq_or (base : String) (taken : List String) :
    freshName base taken = base ∨ ∃ k, freshName base taken = numbered base k := by
  obtain ⟨rounds, hfound, -, -⟩ := exists_freshName_eq base taken
  cases rounds with
  | zero => exact Or.inl hfound
  | succ k => exact Or.inr ⟨k, hfound⟩

end ApiTypings.Declaration
