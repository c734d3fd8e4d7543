import ApiTypings.Proofs.Printing.CommentText
import ApiTypings.Proofs.Printing.Visible
import ApiTypings.Proofs.Printing.Writing

/-!
# Documentation is one comment

At the start of a line, documentation adds exactly one block comment, which closes at its
very end and nowhere before. Deleting comments and blank lines therefore takes all of it away.
-/
namespace ApiTypings.Printing

open Text

/-- A block comment on lines of its own, behind a margin, that closes at its end only. -/
structure IsBlockComment (margin : List Char) (s : List Char) : Prop where
  exists_body : ∃ body, s = margin ++ "/**".toList ++ body ++ "*/".toList ++ ['\n'] ∧
    Avoids '*' '/' (margin ++ "/**".toList ++ body ++ ['*'])

theorem IsBlockComment.visible_append {margin s : List Char} (h : IsBlockComment margin s)
    (hm : '/' ∉ margin) (rest : List Char) :
    visible false (s ++ rest) = margin ++ '\n' :: visible false rest := by
  obtain ⟨body, rfl, ha⟩ := h.exists_body
  have hb : Avoids '*' '/' ('*' :: body ++ ['*']) := ha.part ⟨margin ++ ['/', '*'], [], by simp⟩
  rw [List.append_assoc _ ['\n'], visible_comment hm hb,
    visible_of_not_mem (by decide : '/' ∉ ['\n'])]
  rfl

/-- Wherever the closing delimiter stands in such a comment, only the line end follows. -/
theorem IsBlockComment.eq_newline_of_close {margin s before after : List Char}
    (h : IsBlockComment margin s) (hs : s = before ++ "*/".toList ++ after) : after = ['\n'] := by
  obtain ⟨body, rfl, ha⟩ := h.exists_body
  have hend : Avoids '*' '/' ['/', '\n'] := List.isChain_cons_cons.mpr ⟨by simp, .singleton _⟩
  have he : (margin ++ "/**".toList ++ body) ++ '*' :: '/' :: ['\n'] =
      before ++ '*' :: '/' :: after := by simpa using hs
  exact (ha.eq_of_append_eq (by decide) hend he).2

section Lines

variable {ctx : Context} (hm : '*' ∉ ctx.margin.toList)

include hm

theorem avoids_margin {s : List Char} (hs : Avoids '*' '/' s) :
    Avoids '*' '/' (ctx.margin.toList ++ s) := by
  refine (avoids_of_not_mem hm).append hs (Or.inl fun h => hm ?_)
  exact List.mem_of_getLast? h

theorem avoids_lines {ls : List String} (hl : ∀ l ∈ ls, Avoids '*' '/' l.toList) {s : List Char}
    (hs : Avoids '*' '/' s) :
    Avoids '*' '/' (ls.flatMap (fun l => ctx.margin.toList ++ l.toList ++ ['\n']) ++ s) := by
  induction ls with
  | nil => exact hs
  | cons l ls ih =>
    obtain ⟨hl, hls⟩ := List.forall_mem_cons.mp hl
    have h := (avoids_margin hm hl).join (c := '\n') (by decide) (by decide) (ih hls)
    simpa [List.flatMap_cons] using h

theorem isBlockComment_blocks {ls : List String} (hl : ∀ l ∈ ls, IsCommentLine l.toList) :
    IsBlockComment ctx.margin.toList
      (("/**" :: ls ++ [" */"]).flatMap (fun l => ctx.margin.toList ++ l.toList ++ ['\n'])) := by
  let inner := ls.flatMap (fun l => ctx.margin.toList ++ l.toList ++ ['\n'])
  refine ⟨⟨'\n' :: (inner ++ (ctx.margin.toList ++ [' '])), ?_, ?_⟩⟩
  · simp [inner]
  · have hopen : Avoids '*' '/' "/**".toList := by simp [Avoids]
    have hlast : Avoids '*' '/' (ctx.margin.toList ++ [' ', '*']) :=
      avoids_margin hm (by simp [Avoids])
    have h := (avoids_margin hm hopen).join (c := '\n') (by decide) (by decide)
      (avoids_lines hm (fun l h => (hl l h).avoids) hlast)
    simpa [inner] using h

theorem isBlockComment_line {s : List Char} (hs : IsCommentText s) :
    IsBlockComment ctx.margin.toList
      (ctx.margin.toList ++ ("/** ".toList ++ s ++ " */".toList) ++ ['\n']) := by
  refine ⟨⟨' ' :: (s ++ [' ']), by simp, ?_⟩⟩
  have hopen : Avoids '*' '/' "/**".toList := by simp [Avoids]
  have hstar : Avoids '*' '/' ['*'] := .singleton _
  have h := (avoids_margin hm hopen).join (c := ' ') (by decide) (by decide)
    (hs.avoids.join (c := ' ') (by decide) (by decide) hstar)
  simpa using h

end Lines

/-- What writing the documentation `comments` adds to the output at the start of a line. -/
structure AddsComment (ctx next : Context) : Prop where
  layout : next.layout = ctx.layout
  depth : next.depth = ctx.depth
  atLineStart : next.atLineStart = true
  code : ∃ s, next.code.toList = ctx.code.toList ++ s ∧ IsBlockComment ctx.margin.toList s

theorem addsComment_writeBlocks {ctx : Context} (hm : '*' ∉ ctx.margin.toList)
    (hs : ctx.atLineStart = true) (cs : List DocComment) :
    AddsComment ctx (writeBlocks ctx (cs.map blockOf)) := by
  let ls := commentLines (textWidth ctx) (cs.map blockOf)
  have hls : ∀ l ∈ ls, IsCommentLine l.toList := fun l hl => isCommentLine_of_mem_commentLines hl
  have hall : ∀ l ∈ "/**" :: ls ++ [" */"], '\n' ∉ l.toList ∧ l.toList ≠ [] := by
    intro l hl
    rw [List.cons_append, List.mem_cons, List.mem_append, List.mem_singleton] at hl
    rcases hl with rfl | hl | rfl
    · decide
    · obtain ⟨t, ht⟩ := (hls l hl).star
      exact ⟨(hls l hl).newline, by rw [← ht]; simp⟩
    · decide
  have hw : writeBlocks ctx (cs.map blockOf) =
      ("/**" :: ls ++ [" */"]).foldl Context.writeLine ctx := by
    simp [writeBlocks, ls, List.foldl_append]
  obtain ⟨hlayout, hdepth, hstart, hcode⟩ := ctx.foldl_writeLine hs hall
  rw [← hw] at hlayout hdepth hstart hcode
  exact ⟨hlayout, hdepth, hstart, _, hcode, isBlockComment_blocks hm hls⟩

/-- Documentation adds one block comment. -/
theorem addsComment_writeComments {ctx : Context} (hm : '*' ∉ ctx.margin.toList)
    (hs : ctx.atLineStart = true) {cs : List DocComment} (hne : cs ≠ []) :
    AddsComment ctx (writeComments ctx cs) := by
  cases cs with
  | nil => exact absurd rfl hne
  | cons c cs =>
    cases cs with
    | cons d cs => exact addsComment_writeBlocks hm hs (c :: d :: cs)
    | nil =>
      rw [writeComments, List.map_singleton]
      dsimp only
      split
      · have htext : IsCommentText (blockOf c).text.toList := isCommentText_commentText c.text
        let line := "/** " ++ (blockOf c).text ++ " */"
        have hline : line.toList = "/** ".toList ++ (blockOf c).text.toList ++ " */".toList := by
          simp [line]
        have hlead : ctx.lead = ctx.margin.toList := by simp [Context.lead, hs]
        have hcode := ctx.toList_writeLine (s := line)
          (by rw [hline]; simpa using htext.newline) (by rw [hline]; simp)
        rw [hlead, hline] at hcode
        exact ⟨by simp, by simp, rfl, _, hcode, isBlockComment_line hm htext⟩
      · exact addsComment_writeBlocks hm hs [c]

end ApiTypings.Printing
