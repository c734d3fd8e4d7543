import ApiTypings.Proofs.Text.Wrap

/-!
# Greedy filling takes the fewest lines

How many lines words take behind an open line depends on its length alone, and a longer line
costs one more at most. So nothing is won by ending a line before it is full: every division of
the words into lines that fit has at least as many lines as the greedy one.
-/
namespace ApiTypings.Text

variable {width : Nat}

theorem length_append_word (line w : List Char) :
    (line ++ ' ' :: w).length = line.length + 1 + w.length := by
  rw [List.length_append, List.length_cons]
  omega

/-- Behind a line that is no longer, words take no more lines, and behind any other line they take
one more at most. -/
theorem length_fill_le (line other : List Char) (ws : List (List Char)) :
    (line.length ≤ other.length → (fill width line ws).length ≤ (fill width other ws).length) ∧
      (fill width line ws).length ≤ (fill width other ws).length + 1 := by
  induction ws generalizing line other with
  | nil => simp [fill]
  | cons w ws ih =>
    have hline := length_append_word line w
    have hother := length_append_word other w
    rw [fill, fill]
    by_cases hfits : line.length + 1 + w.length ≤ width
    · rw [if_pos hfits]
      by_cases hfits' : other.length + 1 + w.length ≤ width
      · rw [if_pos hfits']
        obtain ⟨hle, hone⟩ := ih (line ++ ' ' :: w) (other ++ ' ' :: w)
        exact ⟨fun h => hle (by omega), hone⟩
      · rw [if_neg hfits', List.length_cons]
        obtain ⟨-, hone⟩ := ih (line ++ ' ' :: w) w
        exact ⟨fun _ => hone, by omega⟩
    · rw [if_neg hfits, List.length_cons]
      by_cases hfits' : other.length + 1 + w.length ≤ width
      · -- The word alone is no longer than the line that it was put on.
        rw [if_pos hfits']
        obtain ⟨hle, -⟩ := ih w (other ++ ' ' :: w)
        have hword := hle (by omega)
        exact ⟨fun h => by omega, by omega⟩
      · rw [if_neg hfits', List.length_cons]
        exact ⟨fun _ => Nat.le_refl _, Nat.le_succ _⟩

theorem length_joinWords_le {c : List (List Char)} (hne : c ≠ []) (e : List (List Char)) :
    (joinWords c).length ≤ (joinWords (c ++ e)).length := by
  induction e generalizing c with
  | nil => simp
  | cons w e ih =>
    have hrest := ih (c := c ++ [w]) (by simp)
    rw [joinWords_concat hne, length_append_word, List.append_assoc] at hrest
    exact Nat.le_trans (by omega) hrest

/-- Words that fit on the open line are put there. -/
theorem fill_append {c e : List (List Char)} (hne : c ≠ [])
    (hfits : (joinWords (c ++ e)).length ≤ width) (ws : List (List Char)) :
    fill width (joinWords c) (e ++ ws) = fill width (joinWords (c ++ e)) ws := by
  induction e generalizing c with
  | nil => rw [List.append_nil, List.nil_append]
  | cons w e ih =>
    have hword := length_joinWords_le (c := c ++ [w]) (by simp) e
    rw [List.append_cons] at hfits ⊢
    rw [joinWords_concat hne, length_append_word] at hword
    rw [List.cons_append, fill, if_pos (by omega), ← joinWords_concat hne]
    exact ih (by simp) hfits

/-- The words of one line of a division stay on one line. -/
theorem fill_line {w : List Char} {e : List (List Char)} (hfits : FitsLine width (w :: e))
    (ws : List (List Char)) : fill width w (e ++ ws) = fill width (joinWords (w :: e)) ws := by
  rcases hfits with hlength | hsingle
  · exact fill_append (List.cons_ne_nil w []) hlength ws
  · obtain rfl : e = [] := List.length_eq_zero_iff.mp (by simpa using hsingle)
    rfl

/-- Behind an open line, words take one line more than in any division at most. -/
theorem length_fill_le_of_divides {chunks : List (List (List Char))} {ws : List (List Char)}
    (h : Divides width ws chunks) (line : List Char) :
    (fill width line ws).length ≤ chunks.length + 1 := by
  induction chunks generalizing ws line with
  | nil =>
    obtain rfl : [] = ws := h.words
    exact Nat.le_refl _
  | cons c chunks ih =>
    obtain ⟨⟨hne, hfits⟩, hlines⟩ := List.forall_mem_cons.mp h.lines
    obtain ⟨w, e, rfl⟩ := List.exists_cons_of_ne_nil hne
    have hrest := ih ⟨rfl, hlines⟩ (joinWords (w :: e))
    rw [← fill_line hfits] at hrest
    rw [← h.words, List.flatten_cons, List.cons_append, fill, List.length_cons]
    split
    · obtain ⟨-, hone⟩ := @length_fill_le width (line ++ ' ' :: w) w (e ++ chunks.flatten)
      omega
    · rw [List.length_cons]
      omega

theorem length_wrapWords_le {chunks : List (List (List Char))} {ws : List (List Char)}
    (h : Divides width ws chunks) : (wrapWords width ws).length ≤ chunks.length := by
  cases chunks with
  | nil =>
    obtain rfl : [] = ws := h.words
    exact Nat.le_refl _
  | cons c chunks =>
    obtain ⟨⟨hne, hfits⟩, hlines⟩ := List.forall_mem_cons.mp h.lines
    obtain ⟨w, e, rfl⟩ := List.exists_cons_of_ne_nil hne
    rw [← h.words, List.flatten_cons, List.cons_append, wrapWords, fill_line hfits,
      List.length_cons]
    exact length_fill_le_of_divides ⟨rfl, hlines⟩ _

/-- A division into lines is one for every greater width. -/
theorem Divides.mono {wider : Nat} {chunks : List (List (List Char))} {ws : List (List Char)}
    (h : Divides width ws chunks) (hwidth : width ≤ wider) : Divides wider ws chunks where
  words := h.words
  lines c hc := by
    obtain ⟨hne, hfits⟩ := h.lines c hc
    exact ⟨hne, hfits.imp_left fun hlength => Nat.le_trans hlength hwidth⟩

/-- Wrapping divides the words of a text into lines, no division into lines has fewer of them, and
a greater width never takes more. -/
theorem wrap_fewest_lines (width : Nat) (text : String) :
    (∃ chunks, Divides width (words text.toList) chunks ∧
        wrap width text = chunks.map fun c => String.ofList (joinWords c)) ∧
      (∀ chunks, Divides width (words text.toList) chunks →
        (wrap width text).length ≤ chunks.length) ∧
      ∀ wider, width ≤ wider → (wrap wider text).length ≤ (wrap width text).length := by
  have hfewest : ∀ wider chunks, Divides wider (words text.toList) chunks →
      (wrap wider text).length ≤ chunks.length := by
    intro wider chunks h
    rw [wrap, List.length_map]
    exact length_wrapWords_le h
  obtain ⟨chunks, hwrap, hdivides, -⟩ := exists_chunks_wrap width text
  refine ⟨⟨chunks, hdivides, hwrap⟩, hfewest width, fun wider hwidth => ?_⟩
  have hlines := hfewest wider chunks (hdivides.mono hwidth)
  rwa [hwrap, List.length_map]

/-- Ending the first line early is possible and takes a line more, and a word that is too long for
a line stands alone in either case. -/
theorem wrap_fewest_lines_enormous :
    Divides 5 (words "to be enormous it is".toList)
        [["to".toList], ["be".toList], ["enormous".toList], ["it".toList, "is".toList]] ∧
      5 ≤ 8 ∧ (wrap 5 "to be enormous it is").length = 3 ∧
      (wrap 5 "to be enormous it is").length ≤ 4 ∧
      (wrap 8 "to be enormous it is").length ≤ (wrap 5 "to be enormous it is").length := by
  have hdivides : Divides 5 (words "to be enormous it is".toList)
      [["to".toList], ["be".toList], ["enormous".toList], ["it".toList, "is".toList]] :=
    ⟨rfl, by unfold FitsLine; decide⟩
  obtain ⟨-, hfewest, hwider⟩ := wrap_fewest_lines 5 "to be enormous it is"
  exact ⟨hdivides, by decide, rfl, hfewest _ hdivides, hwider 8 (by decide)⟩

end ApiTypings.Text
