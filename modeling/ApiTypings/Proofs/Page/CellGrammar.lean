import ApiTypings.Proofs.Page.CellSigns

/-!
# How a type is spelled in a cell

A type is written as the words for arrays and then items with " or " between them, where an item is
the words for a scalar or a link.
-/
namespace ApiTypings.Page

open Markup Text

def signsOf (s : String) : List Sign := s.toList.map .char

/-- How an item is written: as words for a scalar, or as a link into the page. -/
inductive SpellsItem : ApiType → List Sign → Prop
  | scalar {words : String} {s : Scalar} (h : Scalar.ofWords? words = some s) :
    SpellsItem (.scalar s) (signsOf words)
  | link {target name : String} (htarget : ['#'] <+: target.toList)
    (hname : isIdentifier name.toList = true) :
    SpellsItem (.named name []) [.link target name]

/-- "Array of " any number of times. -/
def arrayWords (n : Nat) : List Char := (List.replicate n "Array of ".toList).flatten

/-- How a type is written in a cell. -/
def SpellsType (t : ApiType) (ss : List Sign) : Prop :=
  ∃ depth types parts, types ≠ [] ∧ List.Forall₂ SpellsItem types parts ∧
    t = arraysOf depth (oneOf types) ∧
    ss = (arrayWords depth).map .char ++ (signsOf " or ").intercalate parts

theorem mem_of_ofWords?_eq_some {words : String} {s : Scalar}
    (h : Scalar.ofWords? words = some s) :
    words ∈ ["Boolean", "True", "Integer", "Float", "Float number", "String"] := by
  unfold Scalar.ofWords? at h
  split at h <;> simp_all

/-- What holds of the words of every scalar. -/
theorem forall_scalarWords {P : String → Prop}
    (hP : ∀ words ∈ ["Boolean", "True", "Integer", "Float", "Float number", "String"], P words)
    {words : String} {s : Scalar} (h : Scalar.ofWords? words = some s) : P words :=
  hP words (mem_of_ofWords?_eq_some h)

theorem itemType_of_spells {t : ApiType} {i : List Sign} (h : SpellsItem t i) (source : String) :
    itemType source (tidy i) = .ok t := by
  cases h with
  | @link target name ht hn =>
    have htidy : tidy [.link target name] = [.link target name] := rfl
    have hpage : ['#'].isPrefixOf target.toList = true := List.isPrefixOf_iff_prefix.mpr ht
    rw [htidy, itemType, hpage, hn]
    rfl
  | @scalar words s h =>
    have htidy : tidy (signsOf words) = [.text words.toList] ∧
        isScalarWords words.toList = true := by
      refine forall_scalarWords (P := fun w => tidy (signsOf w) = [.text w.toList] ∧
        isScalarWords w.toList = true) ?_ h
      simp only [List.forall_mem_cons]
      exact ⟨⟨rfl, by decide⟩, ⟨rfl, by decide⟩, ⟨rfl, by decide⟩, ⟨rfl, by decide⟩,
        ⟨rfl, by decide⟩, ⟨rfl, by decide⟩, by simp⟩
    rw [htidy.1, itemType, if_pos htidy.2, String.ofList_toList, h]

theorem leadingArrays_of_none {s : List Char} (h : afterArray? s = none) :
    leadingArrays s = (0, s) := by
  rw [leadingArrays]
  split
  · rfl
  · next r hr => simp [h] at hr

theorem leadingArrays_of_some {s r : List Char} (h : afterArray? s = some r) :
    leadingArrays s = ((leadingArrays r).1 + 1, (leadingArrays r).2) := by
  rw [leadingArrays]
  split
  · next hr => simp [h] at hr
  · next r' hr =>
    obtain rfl : r = r' := by simpa [h] using hr
    rfl

theorem map_char_inj {s t : List Char} (h : s.map Sign.char = t.map Sign.char) : s = t :=
  List.map_injective_iff.mpr (fun _ _ hc => Sign.char.inj hc) h

/-- Text in front of signs goes on where other text in front of signs ends. -/
theorem exists_text_of_append_eq {s a : List Char} {ss js : List Sign} (hlink : BeginsWithLink ss)
    (h : s.map .char ++ ss = a.map .char ++ js) :
    ∃ r, s = a ++ r ∧ js = r.map .char ++ ss := by
  rcases List.append_eq_append_iff.mp h with ⟨x, ha, hss⟩ | ⟨x, hs, hjs⟩
  · cases x with
    | nil =>
      exact ⟨[], by simpa using (map_char_inj (by simpa using ha)).symm, by simpa using hss.symm⟩
    | cons y x =>
      obtain ⟨u, v, -, -, hv⟩ := List.map_eq_append_iff.mp ha
      obtain ⟨c, w, -, rfl, -⟩ := List.map_eq_cons_iff.mp hv
      exact absurd (by rw [hss]; rfl) (hlink c)
  · obtain ⟨u, v, rfl, hu, rfl⟩ := List.map_eq_append_iff.mp hs
    rw [map_char_inj hu]
    exact ⟨v, rfl, hjs⟩

theorem head_of_spells {t : ApiType} {i : List Sign} (h : SpellsItem t i) :
    i ≠ [] ∧ ∀ c, i.head? = some (.char c) → isBlank c = false ∧ c.toLower ≠ 'a' := by
  cases h with
  | link ht hn => simp
  | scalar h =>
    refine forall_scalarWords (P := fun w => signsOf w ≠ [] ∧
      ∀ c, (signsOf w).head? = some (.char c) → isBlank c = false ∧ c.toLower ≠ 'a') ?_ h
    have hword : ∀ {w : List Char} {d : Char}, isBlank d = false ∧ d.toLower ≠ 'a' →
        (d :: w).map Sign.char ≠ [] ∧ ∀ c, ((d :: w).map Sign.char).head? = some (.char c) →
          isBlank c = false ∧ c.toLower ≠ 'a' := by
      intro w d hd
      refine ⟨by simp, fun c hc => ?_⟩
      obtain rfl : d = c := by simpa using hc
      exact hd
    simp only [List.forall_mem_cons]
    refine ⟨hword (d := 'B') (by decide), hword (d := 'T') (by decide),
      hword (d := 'I') (by decide), hword (d := 'F') (by decide), hword (d := 'F') (by decide),
      hword (d := 'S') (by decide), by simp⟩

theorem head_of_intercalate {types : List ApiType} {parts : List (List Sign)}
    (h : List.Forall₂ SpellsItem types parts) (hne : types ≠ []) :
    (signsOf " or ").intercalate parts ≠ [] ∧
      ∀ c, ((signsOf " or ").intercalate parts).head? = some (.char c) →
        isBlank c = false ∧ c.toLower ≠ 'a' := by
  cases h with
  | nil => exact absurd rfl hne
  | @cons t i ts is hi his =>
    obtain ⟨hi, hhead⟩ := head_of_spells hi
    obtain ⟨s, i, rfl⟩ := List.exists_cons_of_ne_nil hi
    cases is with
    | nil => simpa using hhead
    | cons j js =>
      rw [List.intercalate_cons_cons]
      exact ⟨by simp, hhead⟩

end ApiTypings.Page
