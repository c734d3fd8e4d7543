import ApiTypings.Declaration.Writer
import ApiTypings.Proofs.Printing.AddedLines
import ApiTypings.Proofs.Text.Search

/-!
# Lines that are no documentation

A line of documentation begins with three slashes behind its indentation; all other lines are
source. Leaving out carriage returns turns no line into documentation.
-/
namespace ApiTypings.Declaration

open Text
open Printing (outputLines outputLines_append_newline)

def isDocLine (l : List Char) : Bool := "///".toList.isPrefixOf (l.dropWhile (· == ' '))

/-- The lines of a text that are no documentation. -/
def sourceLines (s : List Char) : List (List Char) :=
  (pieces (· == '\n') s).filter (fun l => !isDocLine l)

theorem isDocLine_margin {margin : List Char} (hm : ∀ c ∈ margin, c = ' ') (l : List Char) :
    isDocLine (margin ++ ("/// ".toList ++ l)) = true := by
  have hdrop : (margin ++ ("/// ".toList ++ l)).dropWhile (· == ' ') = "/// ".toList ++ l := by
    rw [List.dropWhile_append_of_pos fun c hc => by simp [hm c hc]]
    rfl
  rw [isDocLine, hdrop]
  rfl

/-! ### Carriage returns -/

/-- A line without the carriage return at its end. -/
def withoutReturn (l : List Char) : List Char := if l.getLast? = some '\r' then l.dropLast else l

theorem withoutReturn_cons (c : Char) {l : List Char} (h : l = [] → c ≠ '\r') :
    withoutReturn (c :: l) = c :: withoutReturn l := by
  cases l with
  | nil => simp [withoutReturn, h rfl]
  | cons d l =>
    unfold withoutReturn
    rw [List.getLast?_cons_cons]
    split <;> rfl

theorem isDocLine_withoutReturn (l : List Char) : isDocLine (withoutReturn l) = isDocLine l := by
  unfold withoutReturn
  split
  · next h =>
    obtain ⟨u, rfl⟩ := List.getLast?_eq_some_iff.mp h
    have hdrop : (u ++ ['\r']).dropWhile (· == ' ') = u.dropWhile (· == ' ') ++ ['\r'] := by
      rw [List.dropWhile_append]
      split
      · next hempty =>
        rw [List.isEmpty_iff.mp hempty]
        rfl
      · rfl
    have hslashes : ∀ v : List Char,
        "///".toList.isPrefixOf (v ++ ['\r']) = "///".toList.isPrefixOf v := by
      rintro (- | ⟨a, - | ⟨b, - | ⟨c, v⟩⟩⟩) <;> simp [List.isPrefixOf]
    rw [List.dropLast_concat, isDocLine, isDocLine, hdrop, hslashes]
  · rfl

theorem withoutReturn_of_not_mem {s : List Char} (hs : '\r' ∉ s) : withoutReturn s = s := by
  rw [withoutReturn, if_neg fun h => hs (List.mem_of_getLast? h)]

theorem withoutReturn_append {s : List Char} (hs : '\r' ∉ s) (t : List Char) :
    withoutReturn (s ++ t) = s ++ withoutReturn t := by
  by_cases ht : t = []
  · subst ht
    rw [List.append_nil, withoutReturn_of_not_mem hs]
    exact (List.append_nil s).symm
  · rw [withoutReturn, withoutReturn, List.getLast?_append_of_ne_nil s ht]
    split
    · exact List.dropLast_append_of_ne_nil ht
    · rfl

theorem isInfix_withoutReturn (s : List Char) : withoutReturn s <:+: s := by
  unfold withoutReturn
  split
  · exact (List.dropLast_prefix s).isInfix
  · exact List.infix_rfl

theorem withoutReturns_cons {c : Char} {s : List Char} (h : c = '\r' → s.head? ≠ some '\n') :
    withoutReturns (c :: s) = c :: withoutReturns s := by
  rw [withoutReturns]
  rintro cs rfl rfl
  exact h rfl rfl

/-- A carriage return that stays in front of a line end has a line end of its own behind it. -/
theorem head?_append_newline {c : Char} {s : List Char}
    (h : ∀ cs, c = '\r' → s = '\n' :: cs → False) (hne : ¬(c = '\r' ∧ s = [])) :
    c = '\r' → (s ++ ['\n']).head? ≠ some '\n' := by
  intro hc
  cases s with
  | nil => exact absurd ⟨hc, rfl⟩ hne
  | cons d s =>
    rw [List.cons_append, List.head?_cons, Ne, Option.some_inj]
    rintro rfl
    exact h s hc rfl

/-- Leaving out carriage returns leaves them out at the end of each line. -/
theorem pieces_withoutReturns (s t : List Char) :
    pieces (· == '\n') (withoutReturns (s ++ ['\n']) ++ t) =
      (pieces (· == '\n') s).map withoutReturn ++ pieces (· == '\n') t := by
  induction s using withoutReturns.induct with
  | case1 cs ih =>
    have hpieces : pieces (· == '\n') ('\r' :: '\n' :: cs) = ['\r'] :: pieces (· == '\n') cs := rfl
    have hwritten : withoutReturns ('\r' :: '\n' :: cs ++ ['\n']) ++ t =
        '\n' :: (withoutReturns (cs ++ ['\n']) ++ t) := rfl
    rw [hpieces, hwritten, pieces, if_pos (by decide), ih]
    rfl
  | case2 c cs h ih =>
    by_cases hreturn : c = '\r' ∧ cs = []
    · obtain ⟨rfl, rfl⟩ := hreturn
      rfl
    · rw [List.cons_append, withoutReturns_cons (head?_append_newline h hreturn), List.cons_append,
        pieces, pieces, ih]
      by_cases hn : c = '\n'
      · rw [if_pos (beq_iff_eq.mpr hn), if_pos (beq_iff_eq.mpr hn)]
        rfl
      · rw [if_neg (by simpa using hn), if_neg (by simpa using hn)]
        cases hp : pieces (· == '\n') cs with
        | nil => exact absurd hp (pieces_ne_nil _ cs)
        | cons p ps =>
          have hlast : p = [] → c ≠ '\r' := by
            rintro rfl rfl
            cases cs with
            | nil => exact hreturn ⟨rfl, rfl⟩
            | cons d ds =>
              have hd : ¬(d == '\n') = true := fun hd => h ds rfl (by rw [beq_iff_eq.mp hd])
              rw [pieces, if_neg hd] at hp
              cases hds : pieces (· == '\n') ds with
              | nil => exact absurd hds (pieces_ne_nil _ ds)
              | cons q qs => simp [hds, extend] at hp
          rw [extend, List.map_cons, List.map_cons, withoutReturn_cons c hlast]
          rfl
  | case3 => rfl

theorem withoutReturns_of_not_mem {s : List Char} (hs : '\n' ∉ s) : withoutReturns s = s := by
  fun_induction withoutReturns s with
  | case1 cs ih => simp at hs
  | case2 c cs h ih => rw [ih fun hc => hs (List.mem_cons_of_mem c hc)]
  | case3 => rfl

/-- The line end behind a text can be written with it. -/
theorem withoutReturns_append_newline {s : List Char} (hs : s.getLast? ≠ some '\r') :
    withoutReturns (s ++ ['\n']) = withoutReturns s ++ ['\n'] := by
  induction s using withoutReturns.induct with
  | case1 cs ih =>
    have hcs : cs.getLast? ≠ some '\r' := by
      cases cs with
      | nil => simp
      | cons c cs => simpa using hs
    exact congrArg ('\n' :: ·) (ih hcs)
  | case2 c cs h ih =>
    have hne : ¬(c = '\r' ∧ cs = []) := by
      rintro ⟨rfl, rfl⟩
      exact hs rfl
    have hcs : cs.getLast? ≠ some '\r' := by
      cases cs with
      | nil => simp
      | cons d cs => simpa using hs
    have hhead : c = '\r' → cs.head? ≠ some '\n' := by
      intro hc hnewline
      obtain ⟨ds, rfl⟩ := List.head?_eq_some_iff.mp hnewline
      exact h ds hc rfl
    rw [List.cons_append, withoutReturns_cons (head?_append_newline h hne), ih hcs,
      withoutReturns_cons hhead]
    rfl
  | case3 => rfl

theorem outputLines_withoutReturns {s : List Char} (hs : s.getLast? ≠ some '\r') :
    outputLines (withoutReturns s) = (outputLines s).map withoutReturn := by
  have hpieces := pieces_withoutReturns s []
  rw [withoutReturns_append_newline hs, List.append_nil] at hpieces
  have hended := outputLines_append_newline (withoutReturns s) []
  exact (List.append_left_inj _).mp (hended.symm.trans hpieces)

/-- The lines that are left without carriage returns are parts of the text. -/
theorem isInfix_of_mem_outputLines_withoutReturns {s l : List Char}
    (hl : l ∈ outputLines (withoutReturns s)) : l <:+: s := by
  -- The first line is even a prefix, which is what makes it grow at the front.
  suffices h : (∀ p ∈ (outputLines (withoutReturns s)).head?, p <+: s) ∧
      ∀ p ∈ outputLines (withoutReturns s), p <:+: s from h.2 l hl
  clear hl
  fun_induction withoutReturns s with
  | case1 cs ih =>
    have hcut : outputLines ('\n' :: withoutReturns cs) =
        [] :: outputLines (withoutReturns cs) := rfl
    rw [hcut]
    refine ⟨by simp, List.forall_mem_cons.mpr ⟨List.nil_infix, fun p hp => ?_⟩⟩
    exact (ih.2 p hp).trans ⟨['\r', '\n'], [], by simp⟩
  | case2 c cs hne ih =>
    have hall : ∀ p ∈ outputLines (withoutReturns cs), p <:+: c :: cs :=
      fun p hp => (ih.2 p hp).trans ⟨[c], [], by simp⟩
    rw [outputLines, pieces]
    split
    · exact ⟨by simp, List.forall_mem_cons.mpr ⟨List.nil_infix, hall⟩⟩
    · cases hps : pieces (· == '\n') (withoutReturns cs) with
      | nil => exact absurd hps (pieces_ne_nil _ _)
      | cons q qs =>
        unfold outputLines at ih hall
        rw [hps] at ih hall
        have hq : c :: q <+: c :: cs := List.cons_prefix_cons.mpr ⟨rfl, ih.1 q rfl⟩
        refine ⟨by simpa [extend] using hq, List.forall_mem_cons.mpr ⟨hq.isInfix, fun p hp => ?_⟩⟩
        exact hall p (List.mem_cons_of_mem q hp)
  | case3 => exact ⟨by simp [outputLines, pieces], by simp [outputLines, pieces]⟩

/-- With the line that is being read in front, the lines are those of the output without the
carriage returns that line feeds follow; a last line that is empty is none. -/
theorem exists_lines_go {line s : List Char} (hline : '\n' ∉ line)
    (hreturn : line.head? = some '\r' → s.head? ≠ some '\n') :
    ∃ ls last, outputLines (line.reverse ++ s) = ls ++ [last] ∧
      lines.go line s = ls.map withoutReturn ++ (if last.isEmpty then [] else [last]) := by
  fun_induction lines.go line s with
  | case1 line hempty =>
    obtain rfl := List.isEmpty_iff.mp hempty
    exact ⟨[], [], rfl, rfl⟩
  | case2 line hempty =>
    refine ⟨[], line.reverse, ?_, ?_⟩
    · rw [List.append_nil, Printing.outputLines_of_not_mem (by simpa using hline)]
      rfl
    · rw [List.isEmpty_reverse, if_neg hempty]
      rfl
  | case3 line cs ih =>
    obtain ⟨ls, last, hlines, hgo⟩ := ih List.not_mem_nil (by simp)
    refine ⟨(line.reverse ++ ['\r']) :: ls, last, ?_, ?_⟩
    · have hfirst : '\n' ∉ line.reverse ++ ['\r'] := by simpa using hline
      rw [List.append_cons, outputLines_append_newline, Printing.outputLines_of_not_mem hfirst]
      exact congrArg (_ :: ·) hlines
    · rw [hgo, List.map_cons, withoutReturn, if_pos List.getLast?_concat, List.dropLast_concat]
      rfl
  | case4 line cs ih =>
    obtain ⟨ls, last, hlines, hgo⟩ := ih List.not_mem_nil (by simp)
    refine ⟨line.reverse :: ls, last, ?_, ?_⟩
    · rw [outputLines_append_newline, Printing.outputLines_of_not_mem (by simpa using hline)]
      exact congrArg (_ :: ·) hlines
    · have hend : line.reverse.getLast? ≠ some '\r' := by
        rw [List.getLast?_reverse]
        exact fun h => hreturn h rfl
      rw [hgo, List.map_cons, withoutReturn, if_neg hend]
      rfl
  | case5 line c cs hcr hnewline ih =>
    have hnext := ih (by simpa [eq_comm] using ⟨hnewline, hline⟩) (by
      intro hc hhead
      obtain ⟨ds, rfl⟩ := List.head?_eq_some_iff.mp hhead
      exact hcr ds (by simpa using hc) rfl)
    rwa [List.reverse_cons, List.append_assoc, List.singleton_append] at hnext

theorem exists_lines (s : List Char) : ∃ ls last, outputLines s = ls ++ [last] ∧
    lines s = ls.map withoutReturn ++ (if last.isEmpty then [] else [last]) :=
  exists_lines_go List.not_mem_nil (by simp)

/-- Each line is one of the output, if need be without the carriage return at its end. -/
theorem exists_of_mem_lines {s m : List Char} (hm : m ∈ lines s) :
    ∃ p ∈ outputLines s, m = p ∨ m = withoutReturn p := by
  obtain ⟨ls, last, hlines, hcut⟩ := exists_lines s
  rw [hcut] at hm
  rw [hlines]
  rcases List.mem_append.mp hm with hm | hm
  · obtain ⟨p, hp, rfl⟩ := List.mem_map.mp hm
    exact ⟨p, List.mem_append_left _ hp, Or.inr rfl⟩
  · split at hm
    · cases hm
    · exact ⟨m, List.mem_append_right _ hm, Or.inl rfl⟩

end ApiTypings.Declaration
