import ApiTypings.Proofs.Text.Pair
import ApiTypings.Proofs.Text.Pieces

/-!
# Code without comments

What a text says as code is what remains when its block comments and then its blank lines are
deleted. A comment that stands on lines of its own leaves nothing behind.
-/
namespace ApiTypings.Printing

open Text

/-- A text without its block comments. Each goes from its opening to the first closing after it;
`inside` says that one is open already. -/
def visible (inside : Bool) : List Char → List Char
  | [] => []
  | [c] => if inside then [] else [c]
  | c :: d :: cs =>
    if inside then
      if c = '*' ∧ d = '/' then visible false cs else visible true (d :: cs)
    else if c = '/' ∧ d = '*' then visible true cs
    else c :: visible false (d :: cs)

/-- The lines that are not blank. -/
def solidLines (s : List Char) : List (List Char) :=
  (pieces (· == '\n') s).filter (fun l => !l.all isBlank)

/-- The lines of code in a text: comments are deleted, and then blank lines. -/
def codeLines (s : String) : List (List Char) := solidLines (visible false s.toList)

theorem visible_close {s : List Char} (hs : Avoids '*' '/' (s ++ ['*'])) (rest : List Char) :
    visible true (s ++ '*' :: '/' :: rest) = visible false rest := by
  induction s with
  | nil => simp [visible]
  | cons c s ih =>
    have htail : Avoids '*' '/' (s ++ ['*']) := hs.part ⟨[c], [], by simp⟩
    cases s with
    | nil =>
      have hne : ¬ (c = '*' ∧ '*' = '/') := by simp
      rw [List.singleton_append, visible, if_pos rfl, if_neg hne]
      exact ih htail
    | cons d s =>
      have hne : ¬ (c = '*' ∧ d = '/') := by
        rintro ⟨rfl, rfl⟩
        exact hs.ne_append [] (s ++ ['*']) rfl
      rw [List.cons_append, List.cons_append, visible, if_pos rfl, if_neg hne]
      exact ih htail

/-- Text that neither holds an opening nor ends in the first half of one stays. -/
theorem visible_append {s : List Char} (hs : Avoids '/' '*' (s ++ ['*'])) (rest : List Char) :
    visible false (s ++ rest) = s ++ visible false rest := by
  induction s with
  | nil => rfl
  | cons c s ih =>
    have htail : Avoids '/' '*' (s ++ ['*']) := hs.part ⟨[c], [], by simp⟩
    have hc : ∀ d ∈ (s ++ rest).head?, ¬ (c = '/' ∧ d = '*') := by
      rintro d hd ⟨rfl, rfl⟩
      cases s with
      | nil => exact hs.ne_append [] [] rfl
      | cons e s =>
        obtain rfl : e = '*' := by simpa using hd
        exact hs.ne_append [] (s ++ ['*']) rfl
    rw [List.cons_append, List.cons_append, ← ih htail]
    cases hr : s ++ rest with
    | nil => rfl
    | cons d t =>
      rw [visible, if_neg Bool.false_ne_true, if_neg (hc d (by simp [hr]))]

theorem visible_of_not_mem {s : List Char} (hs : '/' ∉ s) (rest : List Char) :
    visible false (s ++ rest) = s ++ visible false rest :=
  visible_append (avoids_of_not_mem (by simp [hs])) rest

/-- A comment vanishes, and what is around it stays. -/
theorem visible_comment {margin body : List Char} (hm : '/' ∉ margin)
    (hb : Avoids '*' '/' ('*' :: body ++ ['*'])) (rest : List Char) :
    visible false (margin ++ "/**".toList ++ body ++ "*/".toList ++ rest) =
      margin ++ visible false rest := by
  have hopen : margin ++ "/**".toList ++ body ++ "*/".toList ++ rest =
      margin ++ '/' :: '*' :: ('*' :: body ++ '*' :: '/' :: rest) := by simp
  rw [hopen, visible_of_not_mem hm]
  have h := visible_close hb rest
  rw [visible, if_neg Bool.false_ne_true, if_pos ⟨rfl, rfl⟩, h]

theorem solidLines_append_newline (s t : List Char) :
    solidLines (s ++ '\n' :: t) = solidLines s ++ solidLines t := by
  rw [solidLines, pieces_append_cons (by rfl), List.filter_append]
  rfl

theorem solidLines_of_blank {s : List Char} (hs : ∀ c ∈ s, isBlank c = true) :
    solidLines s = [] := by
  rw [solidLines, List.filter_eq_nil_iff]
  intro l hl
  have hb : ∀ c ∈ l, isBlank c = true := fun c hc => hs c (mem_of_mem_pieces hl hc).1
  simpa using hb

/-- Whether a text ends where a line begins. -/
def EndsLine (s : List Char) : Prop := s = [] ∨ ∃ t, s = t ++ ['\n']

/-- A blank line between whole lines changes nothing. -/
theorem solidLines_blank_line {s margin : List Char} (hs : EndsLine s)
    (hm : ∀ c ∈ margin, isBlank c = true) (t : List Char) :
    solidLines (s ++ (margin ++ '\n' :: t)) = solidLines (s ++ t) := by
  have hblank : solidLines (margin ++ '\n' :: t) = solidLines t := by
    rw [solidLines_append_newline, solidLines_of_blank hm, List.nil_append]
  rcases hs with rfl | ⟨u, rfl⟩
  · exact hblank
  · rw [List.append_assoc, List.append_assoc, List.singleton_append, List.singleton_append,
      solidLines_append_newline u, hblank, ← solidLines_append_newline]

end ApiTypings.Printing
