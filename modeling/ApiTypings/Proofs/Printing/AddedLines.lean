import ApiTypings.Proofs.Printing.Visible
import ApiTypings.Proofs.Printing.Writing
import Mathlib.Data.List.Perm.Basic

/-!
# Lines that one output has and another lacks

Two outputs are written side by side. Equal text is written on both, and where a line begins,
whole lines may be written on the first one only. Then the first holds the lines of the second
and those, up to their order.
-/
namespace ApiTypings.Printing

open Text

/-- The lines of a text. Behind a line feed at its end there is one more, which is empty. -/
def outputLines (s : List Char) : List (List Char) := pieces (· == '\n') s

theorem outputLines_append_newline (s t : List Char) :
    outputLines (s ++ '\n' :: t) = outputLines s ++ outputLines t :=
  pieces_append_cons (by rfl) s t

theorem outputLines_of_not_mem {s : List Char} (hs : '\n' ∉ s) : outputLines s = [s] :=
  pieces_of_forall fun _ hc => beq_false_of_ne fun h => hs (h ▸ hc)

theorem outputLines_append_of_not_mem {s t p : List Char} {ps : List (List Char)} (hs : '\n' ∉ s)
    (ht : outputLines t = p :: ps) : outputLines (s ++ t) = (s ++ p) :: ps := by
  induction s with
  | nil => exact ht
  | cons c s ih =>
    obtain ⟨hc, hs⟩ := not_or.mp (mt List.mem_cons.mpr hs)
    have hcut : ¬(c == '\n') = true := by simpa using Ne.symm hc
    have hrest : pieces (· == '\n') (s ++ t) = (s ++ p) :: ps := ih hs
    rw [outputLines, List.cons_append, pieces, if_neg hcut, hrest]
    rfl

theorem mem_outputLines_append {s t l : List Char} (hs : '\n' ∉ s)
    (hl : l ∈ outputLines (s ++ t)) : ∃ p ∈ outputLines t, l = p ∨ l = s ++ p := by
  cases ht : outputLines t with
  | nil => exact absurd ht (pieces_ne_nil _ t)
  | cons p ps =>
    rw [outputLines_append_of_not_mem hs ht] at hl
    rcases List.mem_cons.mp hl with rfl | hl
    · exact ⟨p, List.mem_cons_self, Or.inr rfl⟩
    · exact ⟨l, List.mem_cons_of_mem p hl, Or.inl rfl⟩

/-- Behind whole lines, further text adds its own lines. -/
theorem exists_outputLines_append {s : List Char} (hs : EndsLine s) :
    ∃ ls, ∀ t, outputLines (s ++ t) = ls ++ outputLines t := by
  rcases hs with rfl | ⟨u, rfl⟩
  · exact ⟨[], fun _ => rfl⟩
  · refine ⟨outputLines u, fun t => ?_⟩
    rw [List.append_assoc, List.singleton_append, outputLines_append_newline]

theorem outputLines_flatMap {ls : List (List Char)} (hls : ∀ l ∈ ls, '\n' ∉ l) (t : List Char) :
    outputLines (ls.flatMap (· ++ ['\n']) ++ t) = ls ++ outputLines t := by
  induction ls with
  | nil => rfl
  | cons l ls ih =>
    obtain ⟨hl, hls⟩ := List.forall_mem_cons.mp hls
    rw [List.flatMap_cons, List.append_assoc, List.append_assoc, List.singleton_append,
      outputLines_append_newline, outputLines_of_not_mem hl, ih hls]
    rfl

theorem newline_of_mem_outputLines {s l : List Char} (hl : l ∈ outputLines s) : '\n' ∉ l :=
  fun hc => absurd (mem_of_mem_pieces hl hc).2 (by decide)

theorem endsLine_append_lines {s : List Char} (hs : EndsLine s) (ls : List (List Char)) :
    EndsLine (s ++ ls.flatMap (· ++ ['\n'])) := by
  rcases List.eq_nil_or_concat ls with rfl | ⟨ls, l, rfl⟩
  · simpa using hs
  · exact Or.inr ⟨s ++ (ls.flatMap (· ++ ['\n']) ++ l), by simp⟩

/-- A line behind a margin. An empty line gets none. -/
def indented (margin l : List Char) : List Char := if l = [] then [] else margin ++ l

@[simp] theorem indented_nil (l : List Char) : indented [] l = l := by
  unfold indented
  split
  next h => exact h.symm
  next => rfl

theorem newline_indented {margin l : List Char} (hm : '\n' ∉ margin) (hl : '\n' ∉ l) :
    '\n' ∉ indented margin l := by
  unfold indented
  split
  · simp
  · simp [hm, hl]

namespace Context

/-- Text and a line end add the lines of the text, each behind the margin; the first one only
where a line begins. -/
theorem toList_newline_foldl (ctx : Context) (s : List Char) :
    ∃ l ls, outputLines s = l :: ls ∧ ((s.foldl writeChar ctx).newline).code.toList =
      ctx.code.toList ++ (indented ctx.lead l :: ls.map (indented ctx.margin.toList)).flatMap
        (· ++ ['\n']) := by
  induction s generalizing ctx with
  | nil => exact ⟨[], [], rfl, by simp [indented]⟩
  | cons c s ih =>
    by_cases hc : c = '\n'
    · subst hc
      obtain ⟨l, ls, hlines, hcode⟩ := ih ctx.newline
      refine ⟨[], l :: ls, by rw [← hlines]; rfl, ?_⟩
      have hlead : ctx.newline.lead = ctx.margin.toList := rfl
      have hmargin : ctx.newline.margin = ctx.margin := rfl
      show ((s.foldl writeChar ctx.newline).newline).code.toList = _
      rw [hcode, hlead, hmargin, toList_newline]
      simp [indented]
    · obtain ⟨hlayout, hdepth, hstart, hcode⟩ := ctx.writeChar_of_ne hc
      obtain ⟨l, ls, hlines, hrest⟩ := ih (ctx.writeChar c)
      have hlead : (ctx.writeChar c).lead = [] := by simp [lead, hstart]
      refine ⟨c :: l, ls, ?_, ?_⟩
      · unfold outputLines at hlines ⊢
        rw [pieces, if_neg (by simpa using hc), hlines]
        rfl
      · rw [hlead, indented_nil, margin_congr hlayout hdepth, hcode] at hrest
        rw [List.foldl_cons, hrest]
        simp [indented]

theorem toList_newline_foldl_of_atLineStart {ctx : Context} (hstart : ctx.atLineStart = true)
    (s : List Char) : ((s.foldl writeChar ctx).newline).code.toList =
      ctx.code.toList ++ ((outputLines s).map (indented ctx.margin.toList)).flatMap
        (· ++ ['\n']) := by
  have hlead : ctx.lead = ctx.margin.toList := by rw [lead, if_pos hstart]
  obtain ⟨l, ls, hlines, hcode⟩ := ctx.toList_newline_foldl s
  rw [hcode, hlead, hlines, List.map_cons]

end Context

/-- The first output holds the lines of the second, whatever follows, and some with a property. -/
structure AddsLines (P : List Char → Prop) (a b : Context) : Prop where
  layout : a.layout = b.layout
  indent : '\n' ∉ a.layout.indent.toList
  depth : a.depth = b.depth
  atLineStart : a.atLineStart = b.atLineStart
  endsLine : a.atLineStart = true → EndsLine a.code.toList ∧ EndsLine b.code.toList
  lines : ∃ added, (∀ l ∈ added, P l) ∧ ∀ rest, (outputLines (a.code.toList ++ rest)).Perm
    (added ++ outputLines (b.code.toList ++ rest))

namespace AddsLines

variable {P : List Char → Prop} {a b : Context}

theorem refl (hindent : '\n' ∉ a.layout.indent.toList)
    (hend : a.atLineStart = true → EndsLine a.code.toList) : AddsLines P a a :=
  ⟨rfl, hindent, rfl, rfl, fun h => ⟨hend h, hend h⟩, [], by simp, fun _ => List.Perm.refl _⟩

theorem margin_eq (h : AddsLines P a b) : a.margin = b.margin :=
  Context.margin_congr h.layout h.depth

theorem newline_margin (h : AddsLines P a b) : '\n' ∉ a.margin.toList :=
  fun hc => h.indent (a.mem_indent_of_mem_margin hc)

/-- The same text can be added on both sides. -/
theorem append (h : AddsLines P a b) {a' b' : Context} {s : List Char}
    (hla : a'.layout = a.layout) (hlb : b'.layout = b.layout) (hdepth : a'.depth = b'.depth)
    (hstart : a'.atLineStart = b'.atLineStart)
    (ha : a'.code.toList = a.code.toList ++ s) (hb : b'.code.toList = b.code.toList ++ s)
    (hline : a'.atLineStart = true → ∃ t, s = t ++ ['\n']) : AddsLines P a' b' := by
  obtain ⟨added, hadded, hlines⟩ := h.lines
  refine ⟨by rw [hla, hlb, h.layout], by rw [hla]; exact h.indent, hdepth, hstart,
    fun hl => ?_, added, hadded, fun rest => ?_⟩
  · obtain ⟨t, rfl⟩ := hline hl
    exact ⟨Or.inr ⟨a.code.toList ++ t, by rw [ha, List.append_assoc]⟩,
      Or.inr ⟨b.code.toList ++ t, by rw [hb, List.append_assoc]⟩⟩
  · rw [ha, hb, List.append_assoc, List.append_assoc]
    exact hlines (s ++ rest)

theorem newline (h : AddsLines P a b) : AddsLines P a.newline b.newline :=
  h.append (s := ['\n']) rfl rfl h.depth rfl (by simp) (by simp) (fun _ => ⟨[], rfl⟩)

theorem nest (h : AddsLines P a b) : AddsLines P a.nest b.nest :=
  ⟨h.layout, h.indent, congrArg (· + 1) h.depth, h.atLineStart, h.endsLine, h.lines⟩

theorem unnest (h : AddsLines P a b) : AddsLines P a.unnest b.unnest :=
  ⟨h.layout, h.indent, congrArg (· - 1) h.depth, h.atLineStart, h.endsLine, h.lines⟩

theorem writeChar (h : AddsLines P a b) (c : Char) :
    AddsLines P (a.writeChar c) (b.writeChar c) := by
  by_cases hn : c = '\n'
  · subst hn
    exact h.newline
  · obtain ⟨hal, had, has, hac⟩ := a.writeChar_of_ne hn
    obtain ⟨hbl, hbd, hbs, hbc⟩ := b.writeChar_of_ne hn
    have hlead : b.lead = a.lead := by
      rw [Context.lead, Context.lead, h.atLineStart, h.margin_eq]
    rw [List.append_assoc] at hac hbc
    rw [hlead] at hbc
    exact h.append hal hbl (by rw [had, hbd, h.depth]) (by rw [has, hbs]) hac hbc (by simp [has])

theorem foldl_writeChar (h : AddsLines P a b) (s : List Char) :
    AddsLines P (s.foldl Context.writeChar a) (s.foldl Context.writeChar b) := by
  induction s generalizing a b with
  | nil => exact h
  | cons c s ih => exact ih (h.writeChar c)

theorem write (h : AddsLines P a b) (s : String) : AddsLines P (a.write s) (b.write s) := by
  rw [a.write_eq_foldl, b.write_eq_foldl]
  exact h.foldl_writeChar s.toList

theorem writeLine (h : AddsLines P a b) (s : String) :
    AddsLines P (a.writeLine s) (b.writeLine s) :=
  (h.write s).newline

/-- Where a line begins, whole lines can be added, if those on the first side are those on the
second and some with the property. -/
theorem appendLines (h : AddsLines P a b) (hstart : a.atLineStart = true) {a' b' : Context}
    {added ls ms : List (List Char)} (hla : a'.layout = a.layout) (hlb : b'.layout = b.layout)
    (hdepth : a'.depth = b'.depth) (hstart' : a'.atLineStart = b'.atLineStart)
    (ha : a'.code.toList = a.code.toList ++ ls.flatMap (· ++ ['\n']))
    (hb : b'.code.toList = b.code.toList ++ ms.flatMap (· ++ ['\n']))
    (hls : ∀ l ∈ ls, '\n' ∉ l) (hms : ∀ l ∈ ms, '\n' ∉ l) (hperm : ls.Perm (added ++ ms))
    (hadded : ∀ l ∈ added, P l) : AddsLines P a' b' := by
  obtain ⟨before, hbefore, hlines⟩ := h.lines
  obtain ⟨hea, heb⟩ := h.endsLine hstart
  obtain ⟨as, has⟩ := exists_outputLines_append hea
  obtain ⟨bs, hbs⟩ := exists_outputLines_append heb
  have hearlier : as.Perm (before ++ bs) := by
    have hnone := hlines []
    rw [has, hbs, ← List.append_assoc] at hnone
    exact (List.perm_append_right_iff _).mp hnone
  refine ⟨by rw [hla, hlb, h.layout], by rw [hla]; exact h.indent, hdepth, hstart',
    fun _ => ⟨by rw [ha]; exact endsLine_append_lines hea ls,
      by rw [hb]; exact endsLine_append_lines heb ms⟩, before ++ added,
    List.forall_mem_append.mpr ⟨hbefore, hadded⟩, fun rest => ?_⟩
  rw [ha, hb, List.append_assoc a.code.toList, List.append_assoc b.code.toList, has, hbs,
    outputLines_flatMap hls, outputLines_flatMap hms]
  refine (hearlier.append (hperm.append_right (outputLines rest))).trans ?_
  rw [List.append_assoc, List.append_assoc, List.append_assoc]
  exact (List.perm_append_comm_assoc bs added _).append_left before

theorem newline_indented_line (h : AddsLines P a b) (s : List Char) :
    ∀ l ∈ (outputLines s).map (indented a.margin.toList), '\n' ∉ l := by
  intro l hl
  obtain ⟨m, hm, rfl⟩ := List.mem_map.mp hl
  exact newline_indented h.newline_margin (newline_of_mem_outputLines hm)

theorem writeTexts (h : AddsLines P a b) (hstart : a.atLineStart = true) {s t : List Char}
    {added : List (List Char)}
    (hst : ((outputLines s).map (indented a.margin.toList)).Perm
      (added ++ (outputLines t).map (indented a.margin.toList)))
    (hadded : ∀ l ∈ added, P l) :
    AddsLines P (s.foldl Context.writeChar a).newline (t.foldl Context.writeChar b).newline := by
  have ha := Context.toList_newline_foldl_of_atLineStart hstart s
  have hb := Context.toList_newline_foldl_of_atLineStart (h.atLineStart ▸ hstart) t
  rw [← h.margin_eq] at hb
  refine h.appendLines hstart (a.foldl_writeChar_frame s).1 (b.foldl_writeChar_frame t).1 ?_ rfl
    ha hb (h.newline_indented_line s) (h.newline_indented_line t) hst hadded
  exact (a.foldl_writeChar_frame s).2.trans (h.depth.trans (b.foldl_writeChar_frame t).2.symm)

/-- Where a line begins, the lines of a text with the property can be added on the first side. -/
theorem writeText (h : AddsLines P a b) (hstart : a.atLineStart = true) {s : List Char}
    (hs : ∀ l ∈ outputLines s, P (indented a.margin.toList l)) :
    AddsLines P (s.foldl Context.writeChar a).newline b := by
  have ha := Context.toList_newline_foldl_of_atLineStart hstart s
  have hframe := a.foldl_writeChar_frame s
  have hadded : ∀ l ∈ (outputLines s).map (indented a.margin.toList), P l := by
    intro l hl
    obtain ⟨m, hm, rfl⟩ := List.mem_map.mp hl
    exact hs m hm
  have hb : b.code.toList = b.code.toList ++ ([] : List (List Char)).flatMap (· ++ ['\n']) := by
    simp
  exact h.appendLines hstart hframe.1 rfl (hframe.2.trans h.depth)
    (hstart.symm.trans h.atLineStart) ha hb (h.newline_indented_line s) (by simp) (by simp) hadded

end AddsLines

end ApiTypings.Printing
