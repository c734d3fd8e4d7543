import ApiTypings.Proofs.Printing.BlockComment

/-!
# Lines of code

Output is a sequence of whole lines, each a line of code behind its margin or part of a
comment. What it says are its lines of code without their margins. Writing adds to them.
-/
namespace ApiTypings.Printing

open Text

/-- Text in whole lines that says the lines of code `ls`, whatever follows it. -/
def IsCode (s : List Char) (ls : List (List Char)) : Prop :=
  ∃ v, EndsLine v ∧ (∀ rest, visible false (s ++ rest) = v ++ visible false rest) ∧
    (solidLines v).map trimStart = ls

theorem solidLines_append {v : List Char} (hv : EndsLine v) (t : List Char) :
    solidLines (v ++ t) = solidLines v ++ solidLines t := by
  rcases hv with rfl | ⟨u, rfl⟩
  · rfl
  · rw [List.append_assoc, List.singleton_append, solidLines_append_newline,
      solidLines_append_newline]
    simp [solidLines, pieces]

theorem EndsLine.append {u v : List Char} (hu : EndsLine u) (hv : EndsLine v) :
    EndsLine (u ++ v) := by
  rcases hv with rfl | ⟨w, rfl⟩
  · rwa [List.append_nil]
  · exact Or.inr ⟨u ++ w, by rw [List.append_assoc]⟩

theorem isCode_nil : IsCode [] [] := ⟨[], Or.inl rfl, fun _ => rfl, rfl⟩

theorem IsCode.append {s t : List Char} {ls ms : List (List Char)} (hs : IsCode s ls)
    (ht : IsCode t ms) : IsCode (s ++ t) (ls ++ ms) := by
  obtain ⟨u, hu, hsee, rfl⟩ := hs
  obtain ⟨v, hv, tsee, rfl⟩ := ht
  refine ⟨u ++ v, hu.append hv, fun rest => ?_, ?_⟩
  · rw [List.append_assoc, hsee, tsee, List.append_assoc]
  · rw [solidLines_append hu, List.map_append]

theorem IsCode.trimmed_solidLines {s : List Char} {ls : List (List Char)} (h : IsCode s ls) :
    (solidLines (visible false s)).map trimStart = ls := by
  obtain ⟨v, -, hsee, hlines⟩ := h
  have hv := hsee []
  rw [visible, List.append_nil, List.append_nil] at hv
  rw [hv, hlines]

/-- Text without comments says its own lines. -/
theorem isCode_of_avoids {s : List Char} (hs : Avoids '/' '*' (s ++ ['*'])) (hend : EndsLine s) :
    IsCode s ((solidLines s).map trimStart) :=
  ⟨s, hend, visible_append hs, rfl⟩

theorem isCode_newline : IsCode ['\n'] [] :=
  isCode_of_avoids (avoids_of_not_mem (by decide)) (Or.inr ⟨[], rfl⟩)

/-- What a comment on lines of its own says. -/
theorem IsBlockComment.isCode {margin s : List Char} (h : IsBlockComment margin s)
    (hm : ∀ c ∈ margin, isBlank c = true) : IsCode s [] := by
  have hslash : '/' ∉ margin := fun hc => absurd (hm '/' hc) (by decide)
  refine ⟨margin ++ ['\n'], Or.inr ⟨margin, rfl⟩, fun rest => ?_, ?_⟩
  · rw [h.visible_append hslash, List.append_assoc, List.singleton_append]
  · rw [solidLines_append_newline, solidLines_of_blank hm]
    rfl

/-- Text that neither ends a line nor begins or ends a comment. -/
structure IsPlainText (s : List Char) : Prop where
  newline : '\n' ∉ s
  slash : '/' ∉ s

theorem IsPlainText.append {s t : List Char} (hs : IsPlainText s) (ht : IsPlainText t) :
    IsPlainText (s ++ t) :=
  ⟨by simp [hs.newline, ht.newline], by simp [hs.slash, ht.slash]⟩

/-- A line of code without its margin. -/
structure IsCodeLine (l : List Char) : Prop extends IsPlainText l where
  head : ∃ c ∈ l.head?, isBlank c = false

theorem IsCodeLine.append {l s : List Char} (hl : IsCodeLine l) (hs : IsPlainText s) :
    IsCodeLine (l ++ s) := by
  obtain ⟨c, hc, hb⟩ := hl.head
  refine ⟨hl.toIsPlainText.append hs, c, ?_, hb⟩
  rw [List.head?_append, Option.mem_def.mp hc]
  rfl

theorem IsCodeLine.exists_cons {l : List Char} (hl : IsCodeLine l) :
    ∃ c t, l = c :: t ∧ isBlank c = false := by
  obtain ⟨c, hc, hb⟩ := hl.head
  obtain ⟨t, ht⟩ := List.head?_eq_some_iff.mp hc
  exact ⟨c, t, ht, hb⟩

/-- A margin is no code. -/
theorem trimmed_solidLines_margin {margin : List Char} (hm : ∀ c ∈ margin, isBlank c = true)
    (s : List Char) :
    (solidLines (margin ++ s)).map trimStart = (solidLines s).map trimStart := by
  induction margin with
  | nil => rfl
  | cons c margin ih =>
    obtain ⟨hc, hm⟩ := List.forall_mem_cons.mp hm
    rw [← ih hm, List.cons_append, solidLines, solidLines, pieces]
    split
    · simp
    · cases hp : pieces (· == '\n') (margin ++ s) with
      | nil => exact absurd hp (pieces_ne_nil _ _)
      | cons p ps =>
        have htrim : trimStart (c :: p) = trimStart p := List.dropWhile_cons_of_pos hc
        have hall : (c :: p).all isBlank = p.all isBlank := by rw [List.all_cons, hc, Bool.true_and]
        rw [extend, List.filter_cons, List.filter_cons, hall]
        split
        · rw [List.map_cons, List.map_cons, htrim]
        · rfl

theorem IsCodeLine.isCode {margin l : List Char} (hl : IsCodeLine l)
    (hm : ∀ c ∈ margin, isBlank c = true) : IsCode (margin ++ (l ++ ['\n'])) [l] := by
  obtain ⟨c, t, hcons, hblank⟩ := hl.exists_cons
  have hslash : '/' ∉ margin ++ (l ++ ['\n']) := by
    intro hmem
    rcases List.mem_append.mp hmem with hmem | hmem
    · exact absurd (hm '/' hmem) (by decide)
    · rcases List.mem_append.mp hmem with hmem | hmem
      · exact hl.slash hmem
      · exact absurd hmem (by decide)
  have hpieces : pieces (· == '\n') l = [l] := by
    refine pieces_of_forall fun d hd => ?_
    rw [beq_eq_false_iff_ne]
    rintro rfl
    exact hl.newline hd
  have hlines : solidLines (l ++ ['\n']) = [l] := by
    have hsolid : l.all isBlank = false := by rw [hcons, List.all_cons, hblank, Bool.false_and]
    rw [solidLines_append_newline, solidLines, hpieces]
    simp [hsolid, solidLines, pieces]
  have htrim : trimStart l = l := by
    rw [hcons]
    exact List.dropWhile_cons_of_neg (by simp [hblank])
  refine ⟨margin ++ (l ++ ['\n']), Or.inr ⟨margin ++ l, by rw [List.append_assoc]⟩,
    visible_of_not_mem hslash, ?_⟩
  rw [trimmed_solidLines_margin hm, hlines, List.map_singleton, htrim]

/-- Whether writing brings an output from one line start to another and adds the lines `ls`. -/
structure AddsCode (ctx next : Context) (ls : List (List Char)) : Prop where
  layout : next.layout = ctx.layout
  depth : next.depth = ctx.depth
  atLineStart : next.atLineStart = true
  code : ∃ s, next.code.toList = ctx.code.toList ++ s ∧ IsCode s ls

namespace AddsCode

variable {a b c : Context} {ls ms : List (List Char)}

theorem refl (h : a.atLineStart = true) : AddsCode a a [] :=
  ⟨rfl, rfl, h, [], (List.append_nil _).symm, isCode_nil⟩

theorem trans (h : AddsCode a b ls) (k : AddsCode b c ms) : AddsCode a c (ls ++ ms) := by
  obtain ⟨s, hs, hcode⟩ := h.code
  obtain ⟨t, ht, kcode⟩ := k.code
  exact ⟨k.layout.trans h.layout, k.depth.trans h.depth, k.atLineStart, s ++ t,
    by rw [ht, hs, List.append_assoc], hcode.append kcode⟩

theorem newline (h : AddsCode a b ls) : AddsCode a b.newline ls := by
  have hend : AddsCode b b.newline [] := ⟨rfl, rfl, rfl, _, b.toList_newline, isCode_newline⟩
  simpa using h.trans hend

/-- What is written one level deeper. -/
theorem unnest (h : AddsCode a.nest b ls) : AddsCode a b.unnest ls := by
  refine ⟨h.layout, ?_, h.atLineStart, h.code⟩
  have hdepth : b.depth = a.depth + 1 := h.depth
  have hback : b.unnest.depth = b.depth - 1 := rfl
  rw [hback, hdepth, Nat.add_sub_cancel]

theorem isCode (h : AddsCode a b ls) (ha : IsCode a.code.toList ms) :
    IsCode b.code.toList (ms ++ ls) := by
  obtain ⟨s, hs, hcode⟩ := h.code
  rw [hs]
  exact ha.append hcode

end AddsCode

section Blank

variable {ctx : Context} (hindent : ∀ c ∈ ctx.layout.indent.toList, isBlank c = true)
  (hstart : ctx.atLineStart = true)

include hindent hstart

/-- Documentation is no code. -/
theorem addsCode_writeComments (cs : List DocComment) :
    AddsCode ctx (writeComments ctx cs) [] := by
  have hmargin : ∀ c ∈ ctx.margin.toList, isBlank c = true :=
    fun c hc => hindent c (ctx.mem_indent_of_mem_margin hc)
  by_cases hne : cs = []
  · subst hne
    exact .refl hstart
  · have hstar : '*' ∉ ctx.margin.toList := fun hc => absurd (hmargin '*' hc) (by decide)
    have hadds := addsComment_writeComments hstar hstart hne
    obtain ⟨s, hcode, hs⟩ := hadds.code
    exact ⟨hadds.layout, hadds.depth, hadds.atLineStart, s, hcode, hs.isCode hmargin⟩

theorem addsCode_line {l : List Char} (hl : IsCodeLine l) :
    AddsCode ctx (l.foldl Context.writeChar ctx).newline [l] := by
  have hmargin : ∀ c ∈ ctx.margin.toList, isBlank c = true :=
    fun c hc => hindent c (ctx.mem_indent_of_mem_margin hc)
  have hlead : ctx.lead = ctx.margin.toList := by simp [Context.lead, hstart]
  obtain ⟨c, t, hcons, -⟩ := hl.exists_cons
  have hcode := ctx.toList_foldl_writeChar_newline hl.newline (by simp [hcons])
  rw [hlead] at hcode
  obtain ⟨hlayout, hdepth⟩ := ctx.foldl_writeChar_frame l
  exact ⟨hlayout, hdepth, rfl, _, hcode, hl.isCode hmargin⟩

end Blank

end ApiTypings.Printing
