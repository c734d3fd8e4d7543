import ApiTypings.Declaration.Basic
import ApiTypings.Page.Basic

/-!
# Reading the text of a type

The text of a type says which type it is: what stands in angle brackets, and which names are
scalars. Only a declared name that reads like a scalar would be taken for one.
-/
namespace ApiTypings.Declaration

open Page (isIdentifierChar isIdentifier)

/-- The type that a word stands for. -/
def ofWord (w : String) : TypeExpr :=
  match w with
  | "bool" => .scalar .boolean
  | "i64" => .scalar .integer
  | "f64" => .scalar .float
  | "String" => .scalar .string
  | w => .name w

/-- Closes an angle bracket around a type that was read. -/
def closed (wrap : TypeExpr → TypeExpr) : TypeExpr × List Char → Option (TypeExpr × List Char)
  | (e, '>' :: rest) => some (wrap e, rest)
  | _ => none

/-- Reads a type at the front of a text, and hands on the rest. -/
def readTypeText : List Char → Option (TypeExpr × List Char)
  | 'V' :: 'e' :: 'c' :: '<' :: s => (readTypeText s).bind (closed .list)
  | 'B' :: 'o' :: 'x' :: '<' :: s => (readTypeText s).bind (closed .boxed)
  | 'O' :: 'p' :: 't' :: 'i' :: 'o' :: 'n' :: '<' :: s => (readTypeText s).bind (closed .option)
  | s => some (ofWord (String.ofList (s.takeWhile isIdentifierChar)), s.dropWhile isIdentifierChar)

/-- The type that a whole text stands for. -/
def typeOfText? (s : String) : Option TypeExpr :=
  match readTypeText s.toList with
  | some (e, []) => some e
  | _ => none

/-- The names in a type. -/
def TypeExpr.names : TypeExpr → List String
  | scalar _ => []
  | name n => [n]
  | list e | boxed e | option e => e.names

/-- Whether a name in a type can be told from everything else that may stand there. -/
def IsPlainName (n : String) : Prop := isIdentifier n.toList = true ∧ ofWord n = .name n

/-- Whether a text does not go on with what could belong to a type. -/
def EndsType : List Char → Prop
  | [] => True
  | c :: _ => isIdentifierChar c = false ∧ c ≠ '<'

theorem takeWhile_word {w rest : List Char} (hw : ∀ c ∈ w, isIdentifierChar c = true)
    (hr : EndsType rest) : (w ++ rest).takeWhile isIdentifierChar = w ∧
      (w ++ rest).dropWhile isIdentifierChar = rest := by
  have hrest : rest.takeWhile isIdentifierChar = [] ∧ rest.dropWhile isIdentifierChar = rest := by
    cases rest with
    | nil => exact ⟨rfl, rfl⟩
    | cons c cs => simp [hr.1]
  rw [List.takeWhile_append_of_pos hw, List.dropWhile_append_of_pos hw, hrest.1, hrest.2,
    List.append_nil]
  exact ⟨rfl, rfl⟩

theorem readTypeText_word {w rest : List Char} (hw : w.all isIdentifierChar = true)
    (hr : EndsType rest) :
    readTypeText (w ++ rest) = some (ofWord (String.ofList w), rest) := by
  obtain ⟨ht, hd⟩ := takeWhile_word (List.all_eq_true.mp hw) hr
  -- An angle bracket behind the word would belong to the rest.
  have hopen : ∀ (v s : List Char), v.all isIdentifierChar = true →
      w ++ rest ≠ v ++ '<' :: s := by
    intro v s hv he
    have hd' : (v ++ '<' :: s).dropWhile isIdentifierChar = '<' :: s := by
      rw [List.dropWhile_append_of_pos (List.all_eq_true.mp hv)]
      rfl
    rw [← he, hd] at hd'
    rw [hd'] at hr
    exact hr.2 rfl
  unfold readTypeText
  split
  · next s he => exact absurd he (hopen ['V', 'e', 'c'] s (by decide))
  · next s he => exact absurd he (hopen ['B', 'o', 'x'] s (by decide))
  · next s he => exact absurd he (hopen ['O', 'p', 't', 'i', 'o', 'n'] s (by decide))
  · rw [ht, hd]

theorem readTypeText_closed {e : TypeExpr} {rest : List Char}
    (h : ∀ r, EndsType r → readTypeText (e.text.toList ++ r) = some (e, r))
    (wrap : TypeExpr → TypeExpr) :
    (readTypeText (e.text.toList ++ '>' :: rest)).bind (closed wrap) = some (wrap e, rest) := by
  rw [h ('>' :: rest) ⟨by decide, by decide⟩]
  rfl

theorem readTypeText_text (e : TypeExpr) (he : ∀ n ∈ e.names, IsPlainName n) (rest : List Char)
    (hr : EndsType rest) : readTypeText (e.text.toList ++ rest) = some (e, rest) := by
  induction e generalizing rest with
  | scalar s =>
    cases s with
    | boolean => exact readTypeText_word (w := ['b', 'o', 'o', 'l']) (by decide) hr
    | integer => exact readTypeText_word (w := ['i', '6', '4']) (by decide) hr
    | float => exact readTypeText_word (w := ['f', '6', '4']) (by decide) hr
    | string => exact readTypeText_word (w := ['S', 't', 'r', 'i', 'n', 'g']) (by decide) hr
  | name n =>
    obtain ⟨hi, hn⟩ := he n (by simp [TypeExpr.names])
    rw [isIdentifier, Bool.and_eq_true] at hi
    rw [TypeExpr.text, readTypeText_word hi.2 hr, String.ofList_toList, hn]
  | list e ih =>
    simp only [TypeExpr.text, String.toList_append, List.append_assoc]
    exact readTypeText_closed (ih he) .list
  | boxed e ih =>
    simp only [TypeExpr.text, String.toList_append, List.append_assoc]
    exact readTypeText_closed (ih he) .boxed
  | option e ih =>
    simp only [TypeExpr.text, String.toList_append, List.append_assoc]
    exact readTypeText_closed (ih he) .option

/-- A type is read back from its text. -/
theorem typeOfText?_text {e : TypeExpr} (he : ∀ n ∈ e.names, IsPlainName n) :
    typeOfText? e.text = some e := by
  have h := readTypeText_text e he [] trivial
  rw [List.append_nil] at h
  rw [typeOfText?, h]

end ApiTypings.Declaration
