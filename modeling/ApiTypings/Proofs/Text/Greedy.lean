import ApiTypings.Proofs.Text.Fewest
import Mathlib.Data.List.Chain

/-!
# Lines that cannot take another word

A line is full when the first word of the next one does not fit behind it. Words can be divided into
full lines in one way only, which is how they are wrapped. Nothing but the words counts, so lines
that are put together again, with blanks of any kind between them, are wrapped to the same lines.
-/
namespace ApiTypings.Text

variable {width : Nat}

/-- Whether the first word of the next line does not fit behind a line. -/
def IsFull (width : Nat) (line next : String) : Prop :=
  ∀ w ∈ (words next.toList).head?, width < line.length + 1 + w.length

/-- Lines that are filled one after the other with words. -/
structure Fills (width : Nat) (ws : List (List Char)) (lines : List String) : Prop where
  nonempty : ∀ l ∈ lines, l ≠ ""
  joined : ∀ l ∈ lines, l.toList = joinWords (words l.toList)
  words : lines.flatMap (fun l => words l.toList) = ws
  fits : ∀ l ∈ lines, l.length ≤ width ∨ (Text.words l.toList).length = 1
  full : lines.IsChain (IsFull width)

/-! ### Wrapped lines are full -/

/-- Words that are put behind an open line leave its first word. -/
theorem head?_words_fill (line : List Char) (ws : List (List Char)) :
    ∃ l ls, fill width line ws = l :: ls ∧
      ∀ w ∈ (words line).head?, (words l).head? = some w := by
  induction ws generalizing line with
  | nil => exact ⟨line, [], rfl, fun w hw => hw⟩
  | cons v ws ih =>
    rw [fill]
    split
    · obtain ⟨l, ls, hfill, hhead⟩ := ih (line ++ ' ' :: v)
      refine ⟨l, ls, hfill, fun w hw => hhead w ?_⟩
      have hline : (words line).head? = some w := hw
      rw [words_append_space, List.head?_append, hline]
      rfl
    · exact ⟨line, fill width v ws, rfl, fun w hw => hw⟩

theorem isChain_fill {ws : List (List Char)} (hws : AreWords ws) (line : List Char) :
    (fill width line ws).IsChain
      (fun l m => IsFull width (String.ofList l) (String.ofList m)) := by
  induction ws generalizing line with
  | nil => exact .singleton line
  | cons w ws ih =>
    obtain ⟨⟨hne, hw⟩, hrest⟩ := List.forall_mem_cons.mp hws
    rw [fill]
    split
    · exact ih hrest (line ++ ' ' :: w)
    next hlength =>
      have hopen := ih hrest w
      obtain ⟨l, ls, hfill, hhead⟩ := @head?_words_fill width w ws
      rw [hfill] at hopen ⊢
      refine List.isChain_cons_cons.mpr ⟨?_, hopen⟩
      have hfirst : (words l).head? = some w := hhead w (by rw [words_of_word hne hw]; rfl)
      intro v hv
      rw [String.toList_ofList, hfirst, Option.mem_some_iff] at hv
      rw [← hv, String.length_ofList]
      omega

theorem fills_wrap (width : Nat) (text : String) :
    Fills width (words text.toList) (wrap width text) := by
  obtain ⟨chunks, hwrap, hdivides, hall⟩ := exists_chunks_wrap width text
  have hlines : ∀ l ∈ wrap width text, ∃ c, c ≠ [] ∧ FitsLine width c ∧
      words l.toList = c ∧ l.toList = joinWords c := by
    intro l hl
    rw [hwrap] at hl
    obtain ⟨c, hc, rfl⟩ := List.mem_map.mp hl
    obtain ⟨hne, hfits⟩ := hdivides.lines c hc
    rw [String.toList_ofList]
    exact ⟨c, hne, hfits, hall c hc, rfl⟩
  refine ⟨fun l hl => ?_, fun l hl => ?_, words_wrap width text, fun l hl => ?_, ?_⟩
  · obtain ⟨c, hne, -, hwords, -⟩ := hlines l hl
    rintro rfl
    exact hne hwords.symm
  · obtain ⟨c, -, -, hwords, hline⟩ := hlines l hl
    rw [hwords]
    exact hline
  · obtain ⟨c, hne, hfits, hwords, hline⟩ := hlines l hl
    have hpos := List.length_pos_iff.mpr hne
    rw [← String.length_toList, hwords, hline]
    exact hfits.imp_right fun h => by omega
  · have hwords := areWords_words text.toList
    rw [wrap, List.isChain_map]
    cases hws : words text.toList with
    | nil => exact .nil
    | cons w ws =>
      rw [hws] at hwords
      exact isChain_fill (List.forall_mem_cons.mp hwords).2 w

/-! ### No other lines are -/

theorem Fills.tail {ws : List (List Char)} {l : String} {ls : List String}
    (h : Fills width ws (l :: ls)) :
    Fills width (ls.flatMap (fun l => Text.words l.toList)) ls where
  nonempty := (List.forall_mem_cons.mp h.nonempty).2
  joined := (List.forall_mem_cons.mp h.joined).2
  words := rfl
  fits := (List.forall_mem_cons.mp h.fits).2
  full := h.full.tail

theorem Fills.exists_words {ws : List (List Char)} {l : String} {ls : List String}
    (h : Fills width ws (l :: ls)) : ∃ w e, Text.words l.toList = w :: e := by
  refine List.exists_cons_of_ne_nil fun hnone => h.nonempty l List.mem_cons_self ?_
  have hline := h.joined l List.mem_cons_self
  rw [hnone] at hline
  exact String.toList_inj.mp hline

/-- Words have no other full lines than those that are wrapped. -/
theorem Fills.wrapWords_eq {ws : List (List Char)} {lines : List String}
    (h : Fills width ws lines) : wrapWords width ws = lines.map String.toList := by
  induction lines generalizing ws with
  | nil =>
    obtain rfl : [] = ws := h.words
    rfl
  | cons l ls ih =>
    have hrest := ih h.tail
    obtain ⟨w, e, hl⟩ := h.exists_words
    have hline : l.toList = joinWords (w :: e) := hl ▸ h.joined l List.mem_cons_self
    have hfits : FitsLine width (w :: e) := by
      have hl' := h.fits l List.mem_cons_self
      rw [← String.length_toList, hl, hline] at hl'
      exact hl'.imp_right Nat.le_of_eq
    rw [← h.words, List.flatMap_cons, hl, List.cons_append, wrapWords, fill_line hfits, ← hline]
    cases ls with
    | nil => rfl
    | cons m ms =>
      obtain ⟨v, f, hm⟩ := h.tail.exists_words
      have hfull : width < l.length + 1 + v.length :=
        (List.isChain_cons_cons.mp h.full).1 v (by rw [hm]; rfl)
      rw [List.flatMap_cons, hm, List.cons_append] at hrest ⊢
      rw [fill, if_neg (by rw [String.length_toList]; omega), List.map_cons]
      exact congrArg (l.toList :: ·) hrest

/-! ### Lines put together -/

/-- Texts one behind the other with white space between them. -/
inductive Spaced : List String → String → Prop
  | nil : Spaced [] ""
  | single (l : String) : Spaced [l] l
  | cons {m gap rest : String} {ms : List String} (l : String) (hne : gap ≠ "")
      (hblank : ∀ c ∈ gap.toList, isBlank c = true) (h : Spaced (m :: ms) rest) :
      Spaced (l :: m :: ms) (l ++ gap ++ rest)

theorem words_blanks_append {gap : List Char} (hblank : ∀ c ∈ gap, isBlank c = true)
    (t : List Char) : words (gap ++ t) = words t := by
  induction gap with
  | nil => rfl
  | cons c gap ih =>
    obtain ⟨hc, hgap⟩ := List.forall_mem_cons.mp hblank
    rw [← ih hgap, List.cons_append, words, pieces, if_pos hc, List.filter_cons_of_neg (by simp)]
    rfl

theorem words_append_blanks {gap : List Char} (hne : gap ≠ [])
    (hblank : ∀ c ∈ gap, isBlank c = true) (s t : List Char) :
    words (s ++ (gap ++ t)) = words s ++ words t := by
  obtain ⟨c, rest, rfl⟩ := List.exists_cons_of_ne_nil hne
  obtain ⟨hc, hrest⟩ := List.forall_mem_cons.mp hblank
  rw [← words_blanks_append hrest t, List.cons_append, words, pieces_append_cons hc,
    List.filter_append]
  rfl

theorem Spaced.words {ls : List String} {t : String} (h : Spaced ls t) :
    words t.toList = ls.flatMap (fun l => words l.toList) := by
  induction h with
  | nil => rfl
  | single l => exact (List.flatMap_singleton ..).symm
  | @cons m gap rest ms l hne hblank _ ih =>
    have hgap : gap.toList ≠ [] := fun h => hne (String.toList_inj.mp h)
    rw [String.toList_append, String.toList_append, List.append_assoc,
      words_append_blanks hgap hblank, ih]
    rfl

/-- Wrapping fills lines with the words of a text, and no other lines are filled with them. The
lines are kept when they are put together with white space and wrapped again. -/
theorem wrap_eq_iff_fills (width : Nat) (text : String) :
    (∀ lines, wrap width text = lines ↔ Fills width (words text.toList) lines) ∧
      ∀ joined, Spaced (wrap width text) joined → wrap width joined = wrap width text := by
  have hfills := fills_wrap width text
  refine ⟨fun lines => ⟨fun h => h ▸ hfills, fun h => ?_⟩, fun joined h => ?_⟩
  · have hshown : lines.map (String.ofList ∘ String.toList) = lines :=
      List.map_id'' (fun l => String.ofList_toList) lines
    rw [wrap, h.wrapWords_eq, List.map_map, hshown]
  · have hsame : words joined.toList = words text.toList := h.words.trans hfills.words
    rw [wrap, hsame]
    rfl

/-- A word that is too long stands alone, and a tab and a space that does not break are as good as
a line end. -/
theorem wrap_eq_iff_fills_enormous :
    Fills 5 (words "to be enormous it is".toList) ["to be", "enormous", "it is"] ∧
      wrap 5 "to be enormous it is" = ["to be", "enormous", "it is"] ∧
      Spaced ["to be", "enormous", "it is"] "to be\t\u00A0enormous\nit is" ∧
      wrap 5 "to be\t\u00A0enormous\nit is" = ["to be", "enormous", "it is"] := by
  obtain ⟨hiff, hspaced⟩ := wrap_eq_iff_fills 5 "to be enormous it is"
  have hfills : Fills 5 (words "to be enormous it is".toList) ["to be", "enormous", "it is"] := by
    refine ⟨by decide, by decide, rfl, by decide, ?_⟩
    unfold IsFull
    decide
  have hjoined : Spaced ["to be", "enormous", "it is"] "to be\t\u00A0enormous\nit is" :=
    @Spaced.cons _ "\t\u00A0" _ _ "to be" (by decide) (List.all_eq_true.mp (by decide))
      (@Spaced.cons _ "\n" _ _ "enormous" (by decide) (List.all_eq_true.mp (by decide))
        (.single "it is"))
  have hwrap := (hiff _).mpr hfills
  rw [hwrap] at hspaced
  exact ⟨hfills, hwrap, hjoined, hspaced _ hjoined⟩

end ApiTypings.Text
