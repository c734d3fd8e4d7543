import ApiTypings.Text.Basic
import Mathlib.Data.List.Infix

/-!
# What is found and what lines hold

No line of a text holds a line feed. A pattern that stands in a text is replaced there or further
left, so what comes behind it stays.
-/
namespace ApiTypings.Text

theorem occursIn_iff_infix {pattern s : List Char} :
    occursIn pattern s = true ↔ pattern <:+: s := by
  induction s with
  | nil => rw [occursIn, List.isEmpty_iff, List.infix_nil]
  | cons c s ih =>
    rw [occursIn, Bool.or_eq_true, List.isPrefixOf_iff_prefix, ih, List.infix_cons_iff]

theorem newline_of_mem_lines {s l : List Char} (h : l ∈ lines s) : '\n' ∉ l := by
  have hgo : ∀ line s, '\n' ∉ line → ∀ l ∈ lines.go line s, '\n' ∉ l := by
    intro line s
    fun_induction lines.go line s with
    | case1 line hempty => simp
    | case2 line hempty => simp
    | case3 line cs ih =>
      intro hline
      exact List.forall_mem_cons.mpr ⟨by simpa using hline, ih (by simp)⟩
    | case4 line cs ih =>
      intro hline
      exact List.forall_mem_cons.mpr ⟨by simpa using hline, ih (by simp)⟩
    | case5 line c cs hreturn hnewline ih =>
      intro hline
      exact ih (by simpa [eq_comm] using ⟨hnewline, hline⟩)
  exact hgo [] s (by simp) l h

theorem replaceFirst_cons {old : List Char} (new : List Char) {c : Char} {s : List Char}
    (h : ¬old <+: c :: s) : replaceFirst old new (c :: s) = c :: replaceFirst old new s := by
  rw [replaceFirst, if_neg (mt List.isPrefixOf_iff_prefix.mp h)]

theorem replaceFirst_append_left {old : List Char} (hold : old ≠ []) (new s : List Char) :
    replaceFirst old new (old ++ s) = new ++ s := by
  obtain ⟨c, cs, rfl⟩ := List.exists_cons_of_ne_nil hold
  rw [List.cons_append, replaceFirst, ← List.cons_append,
    if_pos (List.isPrefixOf_iff_prefix.mpr (List.prefix_append _ s)), List.drop_left]

/-- A pattern that stands in a text is replaced there or before. -/
theorem replaceFirst_append {old : List Char} (hold : old ≠ []) (new s t : List Char) :
    ∃ before after, s ++ old = before ++ old ++ after ∧
      replaceFirst old new (s ++ old ++ t) = before ++ new ++ after ++ t := by
  induction s with
  | nil => exact ⟨[], [], by simp, by simp [replaceFirst_append_left hold]⟩
  | cons c s ih =>
    have hcons : c :: s ++ old ++ t = c :: (s ++ old ++ t) := rfl
    by_cases hhere : old <+: c :: (s ++ old ++ t)
    · have hfits : old <+: c :: s ++ old := by
        refine List.prefix_of_prefix_length_le hhere (List.prefix_append (c :: s ++ old) t) ?_
        rw [List.length_append]
        omega
      obtain ⟨after, hafter⟩ := hfits
      refine ⟨[], after, hafter.symm, ?_⟩
      rw [← hafter, List.append_assoc old, replaceFirst_append_left hold, List.nil_append,
        List.append_assoc]
    · obtain ⟨before, after, hsplit, hreplaced⟩ := ih
      refine ⟨c :: before, after, by rw [List.cons_append, hsplit]; rfl, ?_⟩
      rw [hcons, replaceFirst_cons new hhere, hreplaced]
      rfl

/-! ### Patterns that end a line -/

/-- Lines with one more behind the first that ends with a text. -/
def insertBehind (old added : List Char) : List (List Char) → List (List Char)
  | [] => []
  | l :: ls => if old <:+ l then l :: added :: ls else l :: insertBehind old added ls

section Line

variable {old : List Char} (hold : '\n' ∉ old)

include hold

theorem prefix_line_iff {s : List Char} (hs : '\n' ∉ s) (rest : List Char) :
    old ++ ['\n'] <+: s ++ '\n' :: rest ↔ s = old := by
  constructor
  · rintro ⟨t, ht⟩
    rw [List.append_assoc, List.singleton_append] at ht
    rcases List.append_eq_append_iff.mp ht with ⟨u, rfl, hu⟩ | ⟨u, rfl, hu⟩
    · cases u with
      | nil => rw [List.append_nil]
      | cons c u =>
        obtain rfl : '\n' = c := (List.cons.inj hu).1
        simp at hs
    · cases u with
      | nil => rw [List.append_nil]
      | cons c u =>
        obtain rfl : '\n' = c := (List.cons.inj hu).1
        simp at hold
  · rintro rfl
    exact ⟨rest, by simp⟩

theorem replaceFirst_line_of_not_suffix {s : List Char} (hs : '\n' ∉ s) (h : ¬old <:+ s)
    (new rest : List Char) : replaceFirst (old ++ ['\n']) new (s ++ '\n' :: rest) =
      s ++ '\n' :: replaceFirst (old ++ ['\n']) new rest := by
  have hnot : ∀ u : List Char, '\n' ∉ u → ¬old <:+ u → ¬old ++ ['\n'] <+: u ++ '\n' :: rest := by
    intro u hu hsuffix
    rw [prefix_line_iff hold hu]
    rintro rfl
    exact hsuffix List.suffix_rfl
  induction s with
  | nil => exact replaceFirst_cons new (hnot [] hs h)
  | cons c s ih =>
    have hrest := ih (fun hmem => hs (List.mem_cons_of_mem c hmem))
      fun hsuffix => h (hsuffix.trans (List.suffix_cons c s))
    exact (replaceFirst_cons new (hnot _ hs h)).trans (congrArg _ hrest)

theorem replaceFirst_line_of_suffix {s : List Char} (hs : '\n' ∉ s ++ old)
    (new rest : List Char) : replaceFirst (old ++ ['\n']) new (s ++ old ++ '\n' :: rest) =
      s ++ new ++ rest := by
  induction s with
  | nil =>
    have hsplit : [] ++ old ++ '\n' :: rest = (old ++ ['\n']) ++ rest := by simp
    rw [hsplit, replaceFirst_append_left (by simp)]
    rfl
  | cons c s ih =>
    have hnot : ¬old ++ ['\n'] <+: c :: s ++ old ++ '\n' :: rest := by
      rw [prefix_line_iff hold hs]
      intro heq
      have hlength := congrArg List.length heq
      rw [List.length_append, List.length_cons] at hlength
      omega
    have hrest := ih fun hmem => hs (List.mem_cons_of_mem c hmem)
    exact (replaceFirst_cons new hnot).trans (congrArg _ hrest)

/-- A text at the end of a line, replaced by itself with a line behind it. -/
theorem replaceFirst_lines (added : List Char) {ls : List (List Char)}
    (hls : ∀ l ∈ ls, '\n' ∉ l) (hmem : ∃ l ∈ ls, old <:+ l) (rest : List Char) :
    replaceFirst (old ++ ['\n']) (old ++ '\n' :: (added ++ ['\n']))
        (ls.flatMap (· ++ ['\n']) ++ rest) =
      (insertBehind old added ls).flatMap (· ++ ['\n']) ++ rest := by
  induction ls with
  | nil =>
    obtain ⟨l, hl, -⟩ := hmem
    cases hl
  | cons l ls ih =>
    obtain ⟨hl, hls⟩ := List.forall_mem_cons.mp hls
    have hsplit : (l :: ls).flatMap (· ++ ['\n']) ++ rest =
        l ++ '\n' :: (ls.flatMap (· ++ ['\n']) ++ rest) := by simp
    rw [hsplit, insertBehind]
    split
    · next hsuffix =>
      obtain ⟨s, rfl⟩ := hsuffix
      rw [replaceFirst_line_of_suffix hold hl]
      simp
    · next hsuffix =>
      have hlater : ∃ m ∈ ls, old <:+ m := by simpa [hsuffix] using hmem
      rw [replaceFirst_line_of_not_suffix hold hl hsuffix, ih hls hlater]
      simp

end Line

theorem insertBehind_append {old : List Char} (added : List Char) {ls : List (List Char)}
    (hls : ∀ l ∈ ls, ¬old <:+ l) (ms : List (List Char)) :
    insertBehind old added (ls ++ ms) = ls ++ insertBehind old added ms := by
  induction ls with
  | nil => rfl
  | cons l ls ih =>
    obtain ⟨hl, hls⟩ := List.forall_mem_cons.mp hls
    rw [List.cons_append, insertBehind, if_neg hl, ih hls]
    rfl

/-- The line is put behind the first that ends with the text. -/
theorem exists_insertBehind (old added : List Char) {ls : List (List Char)}
    (hmem : ∃ l ∈ ls, old <:+ l) :
    ∃ us u vs, ls = us ++ u :: vs ∧ (∀ l ∈ us, ¬old <:+ l) ∧ old <:+ u ∧
      insertBehind old added ls = us ++ u :: added :: vs := by
  induction ls with
  | nil =>
    obtain ⟨l, hl, -⟩ := hmem
    cases hl
  | cons l ls ih =>
    by_cases hsuffix : old <:+ l
    · exact ⟨[], l, ls, rfl, by simp, hsuffix, if_pos hsuffix⟩
    · have hlater : ∃ m ∈ ls, old <:+ m := by simpa [hsuffix] using hmem
      obtain ⟨us, u, vs, rfl, hus, hu, heq⟩ := ih hlater
      refine ⟨l :: us, u, vs, rfl, List.forall_mem_cons.mpr ⟨hsuffix, hus⟩, hu, ?_⟩
      rw [insertBehind, if_neg hsuffix, heq]
      rfl

end ApiTypings.Text
