import ApiTypings.Text.Basic
import ApiTypings.Proofs.Text.Pieces
import Mathlib.Data.List.Basic

/-!
# Lines of words

What holds of words and is kept by a single space between two texts holds of every line that
is filled with those words. The lines are chunks of the words in order, and a chunk that is too
long for a line is a single word.
-/
namespace ApiTypings.Text

variable {P : List Char → Prop}

theorem forall_mem_fill (hjoin : ∀ s t, P s → P t → P (s ++ ' ' :: t)) {width : Nat}
    {line : List Char} {ws : List (List Char)} (hline : P line) (hws : ∀ w ∈ ws, P w) :
    ∀ l ∈ fill width line ws, P l := by
  induction ws generalizing line with
  | nil => simpa [fill] using hline
  | cons w ws ih =>
    obtain ⟨hw, hws⟩ := List.forall_mem_cons.mp hws
    rw [fill]
    split
    · exact ih (hjoin line w hline hw) hws
    · exact List.forall_mem_cons.mpr ⟨hline, ih hw hws⟩

theorem forall_mem_wrap (hjoin : ∀ s t, P s → P t → P (s ++ ' ' :: t)) {width : Nat}
    {text : String} (hws : ∀ w ∈ words text.toList, P w) :
    ∀ l ∈ wrap width text, P l.toList := by
  intro l hl
  obtain ⟨m, hm, rfl⟩ := List.mem_map.mp hl
  rw [String.toList_ofList]
  cases hw : words text.toList with
  | nil => simp [hw, wrapWords] at hm
  | cons w ws =>
    rw [hw] at hm hws
    obtain ⟨h, hs⟩ := List.forall_mem_cons.mp hws
    exact forall_mem_fill hjoin h hs m hm

theorem joinWords_of_forall (hjoin : ∀ s t, P s → P t → P (s ++ ' ' :: t)) (hnil : P [])
    {ws : List (List Char)} (hws : ∀ w ∈ ws, P w) : P (joinWords ws) := by
  fun_induction joinWords ws with
  | case1 => exact hnil
  | case2 w => exact hws w List.mem_cons_self
  | case3 w v ws ih =>
    exact hjoin w _ (hws w List.mem_cons_self) (ih fun x hx => hws x (List.mem_cons_of_mem w hx))

/-! ### The words of lines -/

theorem words_append_space (s t : List Char) : words (s ++ ' ' :: t) = words s ++ words t := by
  rw [words, pieces_append_cons (by decide), List.filter_append]
  rfl

theorem words_of_word {w : List Char} (hne : w ≠ []) (hw : ∀ c ∈ w, isBlank c = false) :
    words w = [w] := by
  rw [words, pieces_of_forall hw, List.filter_cons_of_pos (by simp [hne])]
  rfl

/-- A list of words, none of them empty and none with a blank. -/
def AreWords (ws : List (List Char)) : Prop := ∀ w ∈ ws, w ≠ [] ∧ ∀ c ∈ w, isBlank c = false

theorem areWords_words (s : List Char) : AreWords (words s) := by
  intro w hw
  have hne : w ≠ [] := by simpa using (List.mem_filter.mp hw).2
  exact ⟨hne, fun c hc => not_isBlank_of_mem_words hw hc⟩

theorem words_joinWords {ws : List (List Char)} (hws : AreWords ws) :
    words (joinWords ws) = ws := by
  fun_induction joinWords ws with
  | case1 => rfl
  | case2 w =>
    obtain ⟨hne, hw⟩ := hws w List.mem_cons_self
    exact words_of_word hne hw
  | case3 w v ws ih =>
    obtain ⟨⟨hne, hw⟩, hrest⟩ := List.forall_mem_cons.mp hws
    rw [words_append_space, words_of_word hne hw, ih hrest]
    rfl

theorem joinWords_concat {ws : List (List Char)} (hne : ws ≠ []) (w : List Char) :
    joinWords (ws ++ [w]) = joinWords ws ++ ' ' :: w := by
  fun_induction joinWords ws with
  | case1 => contradiction
  | case2 v => rfl
  | case3 v u ws ih =>
    rw [List.cons_append, List.cons_append, joinWords, ← List.cons_append, ih (by simp)]
    simp

/-- Words that stand on one line of a width, if need be a single one that is too long. -/
def FitsLine (width : Nat) (chunk : List (List Char)) : Prop :=
  (joinWords chunk).length ≤ width ∨ chunk.length ≤ 1

/-- Chunks that are the words in order, each of them a line. -/
structure Divides (width : Nat) (ws : List (List Char)) (chunks : List (List (List Char))) :
    Prop where
  words : chunks.flatten = ws
  lines : ∀ c ∈ chunks, c ≠ [] ∧ FitsLine width c

/-- Filled lines divide the words. -/
theorem exists_chunks_fill {width : Nat} {chunk ws : List (List Char)} (hne : chunk ≠ [])
    (hfits : FitsLine width chunk) :
    ∃ chunks, fill width (joinWords chunk) ws = chunks.map joinWords ∧
      Divides width (chunk ++ ws) chunks := by
  induction ws generalizing chunk with
  | nil => exact ⟨[chunk], rfl, by simp, List.forall_mem_singleton.mpr ⟨hne, hfits⟩⟩
  | cons w ws ih =>
    rw [fill]
    split
    next hlength =>
      rw [← joinWords_concat hne]
      have hfits' : FitsLine width (chunk ++ [w]) := by
        refine Or.inl ?_
        rw [joinWords_concat hne, List.length_append, List.length_cons]
        omega
      obtain ⟨chunks, hfill, hwords, hlines⟩ := ih (by simp) hfits'
      exact ⟨chunks, hfill, by rw [hwords]; simp, hlines⟩
    next =>
      have hsingle : FitsLine width [w] := Or.inr (Nat.le_refl 1)
      obtain ⟨chunks, hfill, hwords, hlines⟩ := ih (by simp) hsingle
      refine ⟨chunk :: chunks, ?_, by rw [List.flatten_cons, hwords]; rfl,
        List.forall_mem_cons.mpr ⟨⟨hne, hfits⟩, hlines⟩⟩
      rw [List.map_cons, ← hfill]
      rfl

/-- The lines of a text divide its words, and each line has the words of its chunk. -/
theorem exists_chunks_wrap (width : Nat) (text : String) :
    ∃ chunks, wrap width text = chunks.map (fun c => String.ofList (joinWords c)) ∧
      Divides width (words text.toList) chunks ∧ ∀ c ∈ chunks, words (joinWords c) = c := by
  have hwords := areWords_words text.toList
  rw [wrap]
  cases hw : words text.toList with
  | nil => exact ⟨[], rfl, ⟨rfl, by simp⟩, by simp⟩
  | cons w ws =>
    rw [hw] at hwords
    have hsingle : FitsLine width [w] := Or.inr (Nat.le_refl 1)
    obtain ⟨chunks, hfill, hdivides⟩ := exists_chunks_fill (List.cons_ne_nil w []) hsingle
    have hlines : wrapWords width (w :: ws) = chunks.map joinWords := hfill
    refine ⟨chunks, by rw [hlines, List.map_map]; rfl, hdivides, fun c hc => ?_⟩
    refine words_joinWords fun v hv => hwords v ?_
    have hmem := List.mem_flatten.mpr ⟨c, hc, hv⟩
    rwa [hdivides.words] at hmem

/-- Wrapping keeps every word, in order. -/
theorem words_wrap (width : Nat) (text : String) :
    (wrap width text).flatMap (fun l => words l.toList) = words text.toList := by
  obtain ⟨chunks, hwrap, hdivides, hall⟩ := exists_chunks_wrap width text
  rw [hwrap, List.flatMap_map, ← hdivides.words, ← List.flatMap_id]
  refine List.flatMap_congr fun c hc => ?_
  rw [String.toList_ofList]
  exact hall c hc

/-- A line that is longer than the width is a single word. -/
theorem length_of_mem_wrap {width : Nat} {text l : String} (hl : l ∈ wrap width text) :
    l.toList.length ≤ width ∨ (words l.toList).length ≤ 1 := by
  obtain ⟨chunks, hwrap, hdivides, hall⟩ := exists_chunks_wrap width text
  rw [hwrap] at hl
  obtain ⟨c, hc, rfl⟩ := List.mem_map.mp hl
  rw [String.toList_ofList, hall c hc]
  exact (hdivides.lines c hc).2

end ApiTypings.Text
