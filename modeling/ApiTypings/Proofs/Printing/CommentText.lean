import ApiTypings.Printing.Comment
import ApiTypings.Proofs.Text.Pair
import ApiTypings.Proofs.Text.Wrap

/-!
# The lines of a comment

Whatever the documentation says, each line between the delimiters of a comment is one line,
begins with its star and holds no closing delimiter.
-/
namespace ApiTypings.Printing

open Text

/-- A text that may stand in a comment: on one line, and without the end of the comment. -/
structure IsCommentText (s : List Char) : Prop where
  newline : '\n' ∉ s
  avoids : Avoids '*' '/' s

theorem IsCommentText.join {s t : List Char} (hs : IsCommentText s) (ht : IsCommentText t) :
    IsCommentText (s ++ ' ' :: t) :=
  ⟨by simp [hs.newline, ht.newline], hs.avoids.join (by decide) (by decide) ht.avoids⟩

theorem IsCommentText.part {s t : List Char} (hs : IsCommentText s) (ht : t <:+: s) :
    IsCommentText t :=
  ⟨fun h => hs.newline (ht.subset h), hs.avoids.part ht⟩

theorem head?_escapeClose (s : List Char) : (escapeClose s).head? = s.head? := by
  fun_cases escapeClose s <;> rfl

theorem mem_escapeClose {s : List Char} {c : Char} (h : c ∈ escapeClose s) : c ∈ s ∨ c = '\\' := by
  fun_induction escapeClose s with
  | case1 cs ih => grind
  | case2 d cs _ ih => grind
  | case3 => simp at h

/-- The backslash keeps every star away from the slash behind it. -/
theorem avoids_escapeClose (s : List Char) : Avoids '*' '/' (escapeClose s) := by
  fun_induction escapeClose s with
  | case1 cs ih =>
    have hslash : Avoids '*' '/' ('/' :: escapeClose cs) :=
      List.isChain_cons.mpr ⟨fun d _ hp => absurd hp.1 (by decide), ih⟩
    exact List.isChain_cons_cons.mpr ⟨by simp, List.isChain_cons_cons.mpr ⟨by simp, hslash⟩⟩
  | case2 c cs hne ih =>
    refine List.isChain_cons.mpr ⟨?_, ih⟩
    rintro d hd ⟨rfl, rfl⟩
    rw [head?_escapeClose] at hd
    obtain ⟨t, rfl⟩ := List.head?_eq_some_iff.mp hd
    exact hne t rfl rfl
  | case3 => exact avoids_nil

theorem isCommentText_commentText (s : String) : IsCommentText (commentText s).toList := by
  rw [commentText, String.toList_ofList]
  have hjoined : '\n' ∉ joinWords (words s.toList) := by
    refine joinWords_of_forall (P := ('\n' ∉ ·)) ?_ (by simp) ?_
    · intro s t hs ht
      simp [hs, ht]
    · intro w hw hmem
      exact absurd (not_isBlank_of_mem_words hw hmem) (by decide)
  refine ⟨fun h => ?_, avoids_escapeClose _⟩
  rcases mem_escapeClose h with h | h
  · exact hjoined h
  · exact absurd h (by decide)

/-- Wrapping keeps a text that may stand in a comment so, line by line. -/
theorem isCommentText_of_mem_wrap {width : Nat} {s l : String} (hs : IsCommentText s.toList)
    (hl : l ∈ wrap width s) : IsCommentText l.toList :=
  forall_mem_wrap (fun _ _ => IsCommentText.join)
    (fun _ hw => hs.part (isInfix_of_mem_words hw)) l hl

/-- A line of a comment behind its margin. -/
structure IsCommentLine (l : List Char) : Prop extends IsCommentText l where
  star : [' ', '*'] <+: l

theorem isCommentLine_star : IsCommentLine [' ', '*'] :=
  ⟨⟨by decide, by simp [Avoids]⟩, List.prefix_refl _⟩

theorem isCommentLine_text {s : List Char} (hs : IsCommentText s) :
    IsCommentLine (' ' :: '*' :: ' ' :: s) :=
  ⟨isCommentLine_star.toIsCommentText.join hs, ⟨' ' :: s, rfl⟩⟩

theorem isCommentLine_of_mem_blockLines {width : Nat} {c : DocComment} {l : String}
    (hl : l ∈ blockLines width (blockOf c)) : IsCommentLine l.toList := by
  have hsee : IsCommentText "@see".toList := ⟨by decide, avoids_of_not_mem (by decide)⟩
  rcases List.mem_append.mp hl with hl | hl
  · obtain ⟨t, ht, rfl⟩ := List.mem_map.mp hl
    have htext := isCommentText_of_mem_wrap (isCommentText_commentText c.text) ht
    simpa using isCommentLine_text htext
  · obtain ⟨t, -, rfl⟩ := List.mem_map.mp hl
    simpa using isCommentLine_text (hsee.join (isCommentText_commentText t))

theorem isCommentLine_of_mem_commentLines {width : Nat} {cs : List DocComment} {l : String}
    (hl : l ∈ commentLines width (cs.map blockOf)) : IsCommentLine l.toList := by
  induction cs with
  | nil => simp [commentLines] at hl
  | cons c cs ih =>
    cases cs with
    | nil => exact isCommentLine_of_mem_blockLines hl
    | cons d cs =>
      rw [List.map_cons, List.map_cons, commentLines] at hl
      rcases List.mem_append.mp hl with hl | hl
      · exact isCommentLine_of_mem_blockLines hl
      · rcases List.mem_cons.mp hl with rfl | hl
        · exact isCommentLine_star
        · exact ih hl

end ApiTypings.Printing
