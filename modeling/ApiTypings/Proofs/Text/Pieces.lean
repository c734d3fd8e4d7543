import ApiTypings.Text.Basic

/-!
# Pieces and words of a text

A piece holds characters of the text only, and none at which the text is cut.
-/
namespace ApiTypings.Text

/-- The part of a list up to where a condition first fails. -/
theorem takeWhile_append_of_stop {α : Type} {p : α → Bool} {xs ys : List α}
    (hxs : ∀ x ∈ xs, p x = true) (hys : ∀ y ∈ ys.head?, p y = false) :
    (xs ++ ys).takeWhile p = xs := by
  rw [List.takeWhile_append_of_pos hxs]
  cases ys with
  | nil => simp
  | cons y ys => simp [hys y rfl]

theorem mem_of_mem_pieces {cut : Char → Bool} {s p : List Char} {c : Char}
    (hp : p ∈ pieces cut s) (hc : c ∈ p) : c ∈ s ∧ cut c = false := by
  induction s generalizing p with
  | nil =>
    simp only [pieces, List.mem_singleton] at hp
    simp [hp] at hc
  | cons d ds ih =>
    rw [pieces] at hp
    split at hp
    · rcases List.mem_cons.mp hp with rfl | hp
      · simp at hc
      · have h := ih hp hc
        exact ⟨List.mem_cons_of_mem d h.1, h.2⟩
    · next hd =>
      cases hs : pieces cut ds with
      | nil => exact absurd hs (pieces_ne_nil cut ds)
      | cons q qs =>
        rw [hs] at ih hp
        rcases List.mem_cons.mp hp with rfl | hp
        · rcases List.mem_cons.mp hc with rfl | hc
          · exact ⟨List.mem_cons_self, by simpa using hd⟩
          · have h := ih List.mem_cons_self hc
            exact ⟨List.mem_cons_of_mem d h.1, h.2⟩
        · have h := ih (List.mem_cons_of_mem q hp) hc
          exact ⟨List.mem_cons_of_mem d h.1, h.2⟩

/-- A character at which the text is not cut lies in a piece. -/
theorem exists_mem_pieces {cut : Char → Bool} {s : List Char} {c : Char} (hc : c ∈ s)
    (hcut : cut c = false) : ∃ p ∈ pieces cut s, c ∈ p := by
  induction s with
  | nil => cases hc
  | cons d ds ih =>
    rw [pieces]
    rcases List.mem_cons.mp hc with rfl | hc
    · rw [if_neg (by simp [hcut])]
      cases pieces cut ds with
      | nil => exact ⟨[c], by simp [extend]⟩
      | cons q qs => exact ⟨c :: q, by simp [extend]⟩
    · obtain ⟨p, hp, hcp⟩ := ih hc
      split
      · exact ⟨p, List.mem_cons_of_mem [] hp, hcp⟩
      · cases hps : pieces cut ds with
        | nil => exact absurd hps (pieces_ne_nil cut ds)
        | cons q qs =>
          rw [hps] at hp
          rcases List.mem_cons.mp hp with rfl | hp
          · exact ⟨d :: p, by simp [extend], List.mem_cons_of_mem d hcp⟩
          · exact ⟨p, by simp [extend, hp], hcp⟩

theorem isInfix_of_mem_pieces {cut : Char → Bool} {s p : List Char} (hp : p ∈ pieces cut s) :
    p <:+: s := by
  -- The first piece is even a prefix, which is what makes it grow at the front.
  suffices h : (∀ q ∈ (pieces cut s).head?, q <+: s) ∧ ∀ q ∈ pieces cut s, q <:+: s from h.2 p hp
  clear hp
  induction s with
  | nil => simp [pieces]
  | cons c s ih =>
    obtain ⟨hfirst, hall⟩ := ih
    have hall' : ∀ q ∈ pieces cut s, q <:+: c :: s :=
      fun q hq => (hall q hq).trans ⟨[c], [], by simp⟩
    rw [pieces]
    split
    · simpa using hall'
    · cases hps : pieces cut s with
      | nil => exact absurd hps (pieces_ne_nil cut s)
      | cons q qs =>
        rw [hps] at hfirst hall'
        have hq : c :: q <+: c :: s := List.cons_prefix_cons.mpr ⟨rfl, hfirst q rfl⟩
        refine ⟨by simpa [extend] using hq, fun r hr => ?_⟩
        rcases List.mem_cons.mp hr with rfl | hr
        · exact hq.isInfix
        · exact hall' r (List.mem_cons_of_mem q hr)

theorem pieces_of_forall {cut : Char → Bool} {s : List Char} (h : ∀ c ∈ s, cut c = false) :
    pieces cut s = [s] := by
  induction s with
  | nil => rfl
  | cons c s ih =>
    obtain ⟨hc, hs⟩ := List.forall_mem_cons.mp h
    rw [pieces, hc, ih hs]
    rfl

/-- A text is cut into the pieces before and after any character at which it is cut. -/
theorem pieces_append_cons {cut : Char → Bool} {c : Char} (hc : cut c = true) (s t : List Char) :
    pieces cut (s ++ c :: t) = pieces cut s ++ pieces cut t := by
  induction s with
  | nil => simp [pieces, hc]
  | cons d s ih =>
    rw [List.cons_append, pieces, pieces, ih]
    split
    · rfl
    · cases hp : pieces cut s with
      | nil => exact absurd hp (pieces_ne_nil cut s)
      | cons p ps => rfl

theorem not_isBlank_of_mem_words {s w : List Char} {c : Char} (hw : w ∈ words s) (hc : c ∈ w) :
    isBlank c = false :=
  (mem_of_mem_pieces (List.mem_filter.mp hw).1 hc).2

theorem isInfix_of_mem_words {s w : List Char} (hw : w ∈ words s) : w <:+: s :=
  isInfix_of_mem_pieces (List.mem_filter.mp hw).1

end ApiTypings.Text
