import ApiTypings.Printing.Context

/-!
# What writing adds

Writing never changes the layout or the depth, and it adds to the output at its end. At the
start of a line the margin comes first.
-/
namespace ApiTypings.Printing.Context

variable (ctx : Context)

@[simp] theorem layout_newline : ctx.newline.layout = ctx.layout := rfl
@[simp] theorem depth_newline : ctx.newline.depth = ctx.depth := rfl

@[simp] theorem toList_newline : ctx.newline.code.toList = ctx.code.toList ++ ['\n'] := by
  simp [newline]

@[simp] theorem code_nest : ctx.nest.code = ctx.code := rfl
theorem atLineStart_nest : ctx.nest.atLineStart = ctx.atLineStart := rfl

/-- The margin that a line gets where it begins. -/
def lead : List Char := if ctx.atLineStart then ctx.margin.toList else []

/-! ### One character -/

/-- Writing a text is writing its characters one behind the other. -/
def writeChar (c : Char) : Context :=
  if c = '\n' then ctx.newline
  else if ctx.atLineStart then
    { ctx with code := (ctx.code ++ ctx.margin).push c, atLineStart := false }
  else { ctx with code := ctx.code.push c }

theorem writeChar_of_ne {c : Char} (h : c ≠ '\n') :
    (ctx.writeChar c).layout = ctx.layout ∧ (ctx.writeChar c).depth = ctx.depth ∧
      (ctx.writeChar c).atLineStart = false ∧
      (ctx.writeChar c).code.toList = ctx.code.toList ++ ctx.lead ++ [c] := by
  cases hs : ctx.atLineStart <;> simp [writeChar, h, hs, lead]

@[simp] theorem layout_writeChar (c : Char) : (ctx.writeChar c).layout = ctx.layout := by
  by_cases h : c = '\n'
  · simp [writeChar, h]
  · exact (ctx.writeChar_of_ne h).1

@[simp] theorem depth_writeChar (c : Char) : (ctx.writeChar c).depth = ctx.depth := by
  by_cases h : c = '\n'
  · simp [writeChar, h]
  · exact (ctx.writeChar_of_ne h).2.1

/-- A line may be cut behind its first character. -/
theorem writePiece_cons {c : Char} (h : c ≠ '\n') (line : List Char) :
    ctx.writePiece (c :: line) = (ctx.writeChar c).writePiece line := by
  have hcode : ∀ s : String, s ++ String.ofList (c :: line) = s.push c ++ String.ofList line :=
    fun s => String.toList_inj.mp (by simp)
  unfold writePiece writeChar
  rw [if_neg h, hcode, hcode]
  cases ctx.atLineStart <;> cases line <;> simp

/-- A text can be written character by character. -/
theorem write_eq_foldl (s : String) : ctx.write s = s.toList.foldl writeChar ctx := by
  rw [write]
  induction s.toList generalizing ctx with
  | nil => rfl
  | cons c s ih =>
    have hrest := ih (ctx.writeChar c)
    cases hp : Text.pieces (· == '\n') s with
    | nil => exact absurd hp (Text.pieces_ne_nil _ s)
    | cons line lines =>
      rw [hp] at hrest
      by_cases hc : c = '\n'
      · subst hc
        have hcut : Text.pieces (· == '\n') ('\n' :: s) = [] :: line :: lines := by
          rw [Text.pieces, if_pos (by decide), hp]
        rw [hcut]
        exact hrest
      · have hcut : Text.pieces (· == '\n') (c :: s) = (c :: line) :: lines := by
          rw [Text.pieces, if_neg (by simpa using hc), hp]
          rfl
        rw [hcut]
        exact (congrArg (lines.foldl _) (ctx.writePiece_cons hc line)).trans hrest

/-- Texts written one behind the other are written together. -/
theorem foldl_writeChar_write (s : List Char) (t : String) :
    (s.foldl writeChar ctx).write t = (s ++ t.toList).foldl writeChar ctx := by
  rw [write_eq_foldl, List.foldl_append]

theorem foldl_writeChar_frame (s : List Char) :
    (s.foldl writeChar ctx).layout = ctx.layout ∧ (s.foldl writeChar ctx).depth = ctx.depth := by
  induction s generalizing ctx with
  | nil => exact ⟨rfl, rfl⟩
  | cons c s ih => simpa using ih (ctx.writeChar c)

@[simp] theorem layout_write (s : String) : (ctx.write s).layout = ctx.layout :=
  ctx.write_eq_foldl s ▸ (ctx.foldl_writeChar_frame s.toList).1

@[simp] theorem depth_write (s : String) : (ctx.write s).depth = ctx.depth :=
  ctx.write_eq_foldl s ▸ (ctx.foldl_writeChar_frame s.toList).2

@[simp] theorem layout_writeLine (s : String) : (ctx.writeLine s).layout = ctx.layout :=
  ctx.layout_write s

@[simp] theorem depth_writeLine (s : String) : (ctx.writeLine s).depth = ctx.depth :=
  ctx.depth_write s

theorem margin_congr {a b : Context} (hl : a.layout = b.layout) (hd : a.depth = b.depth) :
    a.margin = b.margin := by
  rw [margin, margin, hl, hd]

theorem margin_of_depth (h : ctx.depth = 0) : ctx.margin = "" := by
  simp [margin, h]

/-- Without depth, text is added as it is. -/
theorem toList_write_of_depth (h : ctx.depth = 0) (s : String) :
    (ctx.write s).code.toList = ctx.code.toList ++ s.toList := by
  rw [write_eq_foldl]
  induction s.toList generalizing ctx with
  | nil => simp
  | cons c s ih =>
    have hc : (ctx.writeChar c).code.toList = ctx.code.toList ++ [c] := by
      by_cases hn : c = '\n'
      · simp [writeChar, hn]
      · rw [(ctx.writeChar_of_ne hn).2.2.2, lead, ctx.margin_of_depth h]
        simp
    rw [List.foldl_cons, ih _ (by simpa using h), hc, List.append_assoc, List.singleton_append]

/-- The output of a first line behind which everything is one level deeper. -/
theorem toList_firstLine (layout : Layout) (line : String) :
    ((write { layout := layout } line).nest.newline).code.toList = line.toList ++ ['\n'] := by
  rw [toList_newline, code_nest, toList_write_of_depth _ rfl]
  rfl

theorem mem_indent_of_mem_margin {c : Char} (h : c ∈ ctx.margin.toList) :
    c ∈ ctx.layout.indent.toList := by
  rw [margin, String.toList_join] at h
  obtain ⟨s, hs, hc⟩ := List.mem_flatMap.mp h
  rwa [List.eq_of_mem_replicate hs] at hc

/-- Text on one line is added as it is, behind the margin where a line begins. -/
theorem toList_foldl_writeChar {s : List Char} (hs : '\n' ∉ s) (hne : s ≠ []) :
    (s.foldl writeChar ctx).code.toList = ctx.code.toList ++ ctx.lead ++ s ∧
      (s.foldl writeChar ctx).atLineStart = false := by
  induction s generalizing ctx with
  | nil => exact absurd rfl hne
  | cons c s ih =>
    obtain ⟨hc, hs⟩ := not_or.mp (mt List.mem_cons.mpr hs)
    obtain ⟨-, -, hstart, hcode⟩ := ctx.writeChar_of_ne (Ne.symm hc)
    cases s with
    | nil => exact ⟨hcode, hstart⟩
    | cons d s =>
      have h := ih (ctx.writeChar c) hs (by simp)
      have hlead : (ctx.writeChar c).lead = [] := by simp [lead, hstart]
      rw [hcode, hlead] at h
      rw [List.foldl_cons]
      exact ⟨by rw [h.1]; simp, h.2⟩

theorem toList_write {s : String} (hs : '\n' ∉ s.toList) (hne : s.toList ≠ []) :
    (ctx.write s).code.toList = ctx.code.toList ++ ctx.lead ++ s.toList :=
  ctx.write_eq_foldl s ▸ (ctx.toList_foldl_writeChar hs hne).1

theorem toList_foldl_writeChar_newline {s : List Char} (hs : '\n' ∉ s) (hne : s ≠ []) :
    ((s.foldl writeChar ctx).newline).code.toList =
      ctx.code.toList ++ (ctx.lead ++ (s ++ ['\n'])) := by
  rw [toList_newline, (ctx.toList_foldl_writeChar hs hne).1]
  simp only [List.append_assoc]

theorem toList_writeLine {s : String} (hs : '\n' ∉ s.toList) (hne : s.toList ≠ []) :
    (ctx.writeLine s).code.toList = ctx.code.toList ++ (ctx.lead ++ s.toList ++ ['\n']) := by
  rw [writeLine, toList_newline, ctx.toList_write hs hne]
  simp only [List.append_assoc]

/-- Lines written one after the other from the start of a line, each with its margin. -/
theorem foldl_writeLine {ls : List String} (hs : ctx.atLineStart = true)
    (hl : ∀ l ∈ ls, '\n' ∉ l.toList ∧ l.toList ≠ []) :
    (ls.foldl writeLine ctx).layout = ctx.layout ∧ (ls.foldl writeLine ctx).depth = ctx.depth ∧
      (ls.foldl writeLine ctx).atLineStart = true ∧
      (ls.foldl writeLine ctx).code.toList =
        ctx.code.toList ++ ls.flatMap (fun l => ctx.margin.toList ++ l.toList ++ ['\n']) := by
  induction ls generalizing ctx with
  | nil => simp [hs]
  | cons l ls ih =>
    obtain ⟨hl, hls⟩ := List.forall_mem_cons.mp hl
    obtain ⟨hlayout, hdepth, hstart, hcode⟩ := ih (ctx.writeLine l) rfl hls
    have hm : (ctx.writeLine l).margin = ctx.margin := margin_congr (by simp) (by simp)
    have hlead : ctx.lead = ctx.margin.toList := by simp [lead, hs]
    refine ⟨by simpa using hlayout, by simpa using hdepth, hstart, ?_⟩
    rw [List.foldl_cons, hcode, hm, ctx.toList_writeLine hl.1 hl.2, hlead, List.flatMap_cons,
      List.append_assoc]

end ApiTypings.Printing.Context
