import ApiTypings.Proofs.Naming.Camel
import ApiTypings.Declaration.Name

/-!
# Names made from owner and field

A name made from a type name and an identifier is a type name again. It is never a word of
one capital and small letters such as `String`, unless its owner is that word already.
-/
namespace ApiTypings.Declaration

open Page (isTypeName isIdentifierChar)
open Text (camelCase camelCase_identifier camelCase_head)

theorem isTypeName_append {s t : List Char} (hs : isTypeName s = true)
    (ht : ∀ c ∈ t, isIdentifierChar c = true) : isTypeName (s ++ t) = true := by
  cases s with
  | nil => simp [isTypeName] at hs
  | cons c cs =>
    simp only [isTypeName, Bool.and_eq_true] at hs
    simp only [List.cons_append, isTypeName, List.all_append, hs.1, hs.2, Bool.true_and]
    exact List.all_eq_true.mpr ht

theorem toList_numbered (base : String) (k : Nat) :
    (numbered base k).toList = base.toList ++ Nat.toDigits 10 (k + 2) := by
  rw [numbered, String.toList_append, Nat.toString_eq_ofList_toDigits, String.toList_ofList]

theorem isDigit_of_mem_toDigits {k : Nat} {c : Char} (h : c ∈ Nat.toDigits 10 k) :
    c.isDigit = true :=
  Nat.isDigit_of_mem_toDigits (by decide) (by decide) h

theorem isTypeName_freshName {owner field : String} (taken : List String)
    (ho : isTypeName owner.toList = true) (hf : ∀ c ∈ field.toList, isIdentifierChar c = true) :
    isTypeName (freshName (owner ++ camelCase field) taken).toList = true := by
  have hbase : isTypeName (owner ++ camelCase field).toList = true := by
    rw [String.toList_append]
    exact isTypeName_append ho (camelCase_identifier hf)
  rcases freshName_eq_or (owner ++ camelCase field) taken with he | ⟨k, he⟩
  · rwa [he]
  · rw [he, toList_numbered]
    refine isTypeName_append hbase fun c hc => ?_
    simp [isIdentifierChar, Char.isAlphanum, isDigit_of_mem_toDigits hc]

/-- A name made from owner and field begins with the owner. -/
theorem exists_freshName_eq_append (owner field : String) (taken : List String) :
    ∃ rest, (freshName (owner ++ camelCase field) taken).toList = owner.toList ++ rest := by
  rcases freshName_eq_or (owner ++ camelCase field) taken with he | ⟨k, he⟩
  · exact ⟨_, by rw [he, String.toList_append]⟩
  · exact ⟨_, by rw [he, toList_numbered, String.toList_append, List.append_assoc]⟩

/-- A text with something behind its first part does not end in small letters only, if what
stands behind does not begin with one. -/
theorem append_ne_of_tail_isLower {s t w : List Char} (hw : ∀ c ∈ w.tail, c.isLower = true)
    (hs : s ≠ []) (hsw : s ≠ w) (ht : ∀ c ∈ t.head?, c.isLower = false) : s ++ t ≠ w := by
  rintro rfl
  cases t with
  | nil => exact hsw (List.append_nil s).symm
  | cons d ds =>
    obtain ⟨c, cs, rfl⟩ := List.exists_cons_of_ne_nil hs
    have hd : d.isLower = true := hw d (by simp)
    rw [ht d rfl] at hd
    exact Bool.false_ne_true hd

theorem freshName_ne {owner field word : String} (taken : List String)
    (hw : ∀ c ∈ word.toList.tail, c.isLower = true) (ho : owner.toList ≠ [])
    (hne : owner ≠ word) :
    freshName (owner ++ camelCase field) taken ≠ word := by
  have hl : owner.toList ≠ word.toList := fun h => hne (String.toList_inj.mp h)
  have hbase : owner.toList ++ (camelCase field).toList ≠ word.toList :=
    append_ne_of_tail_isLower hw ho hl (camelCase_head field)
  intro he
  rcases freshName_eq_or (owner ++ camelCase field) taken with hb | ⟨k, hb⟩
  · rw [hb] at he
    exact hbase (by rw [← String.toList_append, he])
  · rw [hb] at he
    have hk := toList_numbered (owner ++ camelCase field) k
    rw [he, String.toList_append] at hk
    refine append_ne_of_tail_isLower hw (by simp [ho]) hbase ?_ hk.symm
    intro c hc
    have hd := isDigit_of_mem_toDigits (List.mem_of_mem_head? hc)
    have hle : c ≤ '9' := of_decide_eq_true (Bool.and_eq_true_iff.mp hd).2
    have hlt : ¬ 'a' ≤ c := by
      intro hc
      exact absurd (Nat.le_trans hc hle) (by decide)
    exact Bool.and_eq_false_iff.mpr (Or.inl (decide_eq_false hlt))

end ApiTypings.Declaration
