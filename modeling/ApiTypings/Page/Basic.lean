import ApiTypings.Schema.References
import ApiTypings.Text.Basic

/-!
# Names on a page and what can be wrong with it

Identifiers consist of ASCII letters, digits and underscores, so what holds of their characters
is decided once for each of 128. A type name also starts with a capital. Each error of a page is
a cause; its wording is in one place.
-/
namespace ApiTypings.Page

open Text

def isIdentifierChar (c : Char) : Bool := c.isAlphanum || c == '_'

def isIdentifier (s : List Char) : Bool := !s.isEmpty && s.all isIdentifierChar

def isTypeName : List Char → Bool
  | [] => false
  | c :: cs => c.isUpper && cs.all isIdentifierChar

theorem isIdentifierChar_of_isUpper {c : Char} (h : c.isUpper = true) :
    isIdentifierChar c = true := by
  change (c.isUpper || c.isLower || c.isDigit || c == '_') = true
  rw [h]
  rfl

theorem isIdentifier_of_isTypeName {s : List Char} (h : isTypeName s = true) :
    isIdentifier s = true := by
  cases s with
  | nil => simp [isTypeName] at h
  | cons c cs =>
    simp only [isTypeName, Bool.and_eq_true] at h
    simp only [isIdentifier, List.isEmpty_cons, List.all_cons, isIdentifierChar_of_isUpper h.1,
      Bool.not_false, Bool.true_and]
    exact h.2

private theorem toNat_lt_of_isIdentifierChar {c : Char} (h : isIdentifierChar c = true) :
    c.toNat < 128 := by
  have hle : ∀ d : Char, d.toNat < 128 → c ≤ d → c.toNat < 128 :=
    fun d hd hcd => Nat.lt_of_le_of_lt hcd hd
  change (c.isUpper || c.isLower || c.isDigit || c == '_') = true at h
  simp only [Bool.or_eq_true, beq_iff_eq] at h
  rcases h with ((hu | hl) | hd) | rfl
  · exact hle 'Z' (by decide) (of_decide_eq_true hu).2
  · exact hle 'z' (by decide) (of_decide_eq_true (Bool.and_eq_true_iff.mp hl).2)
  · exact hle '9' (by decide) (of_decide_eq_true (Bool.and_eq_true_iff.mp hd).2)
  · decide

/-- What holds of the identifier characters among the first 128 holds of all of them. -/
theorem forall_isIdentifierChar {P : Char → Prop}
    (hP : ∀ n : Fin 128, isIdentifierChar (Char.ofNat n.val) = true → P (Char.ofNat n.val))
    {c : Char} (h : isIdentifierChar c = true) : P c := by
  have hc := hP ⟨c.toNat, toNat_lt_of_isIdentifierChar h⟩
  simp only [Char.ofNat_toNat] at hc
  exact hc h

theorem isBlank_of_isIdentifierChar {c : Char} (h : isIdentifierChar c = true) :
    isBlank c = false :=
  forall_isIdentifierChar (P := fun c => isBlank c = false) (by decide +kernel) h

theorem isIdentifier_iff {s : List Char} :
    isIdentifier s = true ↔ s ≠ [] ∧ ∀ c ∈ s, isIdentifierChar c = true := by
  simp [isIdentifier]

theorem identifierChars_of_isIdentifier {s : List Char} (h : isIdentifier s = true) :
    ∀ c ∈ s, isIdentifierChar c = true :=
  (isIdentifier_iff.mp h).2

theorem isUpper_head_of_isTypeName {s : List Char} (h : isTypeName s = true) :
    ∃ c t, s = c :: t ∧ c.isUpper = true := by
  cases s with
  | nil => simp [isTypeName] at h
  | cons c t =>
    rw [isTypeName, Bool.and_eq_true] at h
    exact ⟨c, t, rfl, h.1⟩

/-! ### Errors -/

inductive PageError where
  | unrecognizedColumn (name : String)
  | missingColumn (name : String)
  | malformedRow (expected found : Nat)
  | invalidIdentifier (name : String)
  | unknownScalar (name : String)
  | invalidType (text : String)
  | invalidRequired (text : String)
  | invalidListItem (text : String)
  | unresolvedReference (reference : DanglingReference)
  | inEntry (name : String) (cause : PageError)
  deriving DecidableEq, Repr

def PageError.message : PageError → String
  | unrecognizedColumn name => "Unrecognized column '" ++ name ++ "'"
  | missingColumn name => "Table has no '" ++ name ++ "' column"
  | malformedRow expected found =>
    "Row has " ++ toString found ++ " cells, expected " ++ toString expected
  | invalidIdentifier name => "Invalid property name '" ++ name ++ "'"
  | unknownScalar name => "Scalar type '" ++ name ++ "' not found"
  | invalidType text => "Invalid type '" ++ text ++ "'"
  | invalidRequired text => "Invalid required marker '" ++ text ++ "'"
  | invalidListItem text => "Invalid list item '" ++ text ++ "'"
  | unresolvedReference r =>
    "Type '" ++ r.name ++ "' not found (referenced by '" ++ r.referencedBy ++ "')"
  | inEntry name cause => "In type '" ++ name ++ "': " ++ cause.message

end ApiTypings.Page
