import ApiTypings.Proofs.Printing.Placed

/-!
# Indentation as a property of the whole text

Indentation is written late: a line gets it with its first character. Whatever the order of
operations, the text is the same as if all that is written were first cut into lines and each line
that is not empty then got the indentation for the depth at which its first character was written.
-/
namespace ApiTypings.Printing

inductive Operation where
  | write (s : String)
  | newline
  | nest
  | unnest
  deriving DecidableEq, Repr

namespace Operation

def run (ctx : Context) : Operation → Context
  | write s => ctx.write s
  | newline => ctx.newline
  | nest => ctx.nest
  | unnest => ctx.unnest

def text : Operation → List Char
  | write s => s.toList
  | newline => ['\n']
  | nest => []
  | unnest => []

/-- The depth behind an operation. Depth 0 cannot be left. -/
def depthAfter (depth : Nat) : Operation → Nat
  | write _ => depth
  | newline => depth
  | nest => depth + 1
  | unnest => depth - 1

/-- The characters that operations write, each with the depth in force. -/
def placed (depth : Nat) : List Operation → List Placed
  | [] => []
  | op :: ops => op.text.map (Placed.mk depth) ++ placed (op.depthAfter depth) ops

theorem map_char_placed (depth : Nat) (ops : List Operation) :
    (placed depth ops).map Placed.char = ops.flatMap text := by
  induction ops generalizing depth with
  | nil => rfl
  | cons op ops ih =>
    have hchar : Placed.char ∘ Placed.mk depth = id := rfl
    rw [placed, List.map_append, List.map_map, hchar, List.map_id, ih, List.flatMap_cons]

end Operation

/-! ### The text of lines -/

/-- The lines of placed characters. -/
def placedLines (ps : List Placed) : List (List Placed) := ps.splitOnP (fun p => p.char == '\n')

/-- A line behind the indentation that its first character asks for. -/
def lineText (indent : String) : List Placed → List Char
  | [] => []
  | p :: ps => indentation indent p.depth ++ (p :: ps).map Placed.char

theorem placedLines_newline {p : Placed} (hp : p.char = '\n') (ps : List Placed) :
    placedLines (p :: ps) = [] :: placedLines ps := by
  rw [placedLines, List.splitOnP_cons_eq_if_modifyHead, if_pos (beq_iff_eq.mpr hp)]
  rfl

theorem placedLines_cons {p : Placed} (hp : p.char ≠ '\n') {ps l : List Placed}
    {ls : List (List Placed)} (hlines : placedLines ps = l :: ls) :
    placedLines (p :: ps) = (p :: l) :: ls := by
  rw [placedLines] at hlines
  rw [placedLines, List.splitOnP_cons_eq_if_modifyHead, if_neg (by simpa using hp), hlines]
  rfl

theorem exists_placedLines (ps : List Placed) : ∃ l ls, placedLines ps = l :: ls :=
  List.exists_cons_of_ne_nil (List.splitOnP_ne_nil _ ps)

/-- Placed characters are cut where their text is cut. -/
theorem map_placedLines (ps : List Placed) :
    (placedLines ps).map (fun l => l.map Placed.char) = (ps.map Placed.char).splitOn '\n' := by
  induction ps with
  | nil => rfl
  | cons p ps ih =>
    obtain ⟨l, ls, hlines⟩ := exists_placedLines ps
    rw [hlines, List.splitOn] at ih
    rw [List.map_cons, List.splitOn, List.splitOnP_cons_eq_if_modifyHead, ← ih]
    by_cases hp : p.char = '\n'
    · rw [placedLines_newline hp, hlines, if_pos (beq_iff_eq.mpr hp)]
      rfl
    · rw [placedLines_cons hp hlines, if_neg (by simpa using hp)]
      rfl

theorem intercalate_cons_newline (l : List Char) (ls : List (List Char)) :
    ['\n'].intercalate (l :: ls) = l ++ ls.flatMap ('\n' :: ·) := by
  induction ls generalizing l with
  | nil => simp
  | cons m ls ih => simp [List.intercalate_cons_cons, ih]

/-- The first line is indented if it begins here, and all others are. -/
theorem laidOut_eq (indent : String) (start : Bool) {ps l : List Placed}
    {ls : List (List Placed)} (hlines : placedLines ps = l :: ls) :
    laidOut indent start ps = (if start then lineText indent l else l.map Placed.char) ++
      ls.flatMap (fun l => '\n' :: lineText indent l) := by
  -- The first line is apart because it may have begun before these characters.
  induction ps generalizing start l ls with
  | nil =>
    obtain ⟨rfl, rfl⟩ := List.cons.inj hlines
    cases start <;> rfl
  | cons p ps ih =>
    obtain ⟨m, ms, hrest⟩ := exists_placedLines ps
    by_cases hp : p.char = '\n'
    · rw [placedLines_newline hp, hrest] at hlines
      obtain ⟨rfl, rfl⟩ := List.cons.inj hlines
      rw [laidOut, if_pos hp, ih true hrest, hp]
      cases start <;> rfl
    · rw [placedLines_cons hp hrest] at hlines
      obtain ⟨rfl, rfl⟩ := List.cons.inj hlines
      rw [laidOut, if_neg hp, ih false hrest]
      cases start <;> simp [lineText]

theorem laidOut_of_start (indent : String) (ps : List Placed) :
    laidOut indent true ps = ['\n'].intercalate ((placedLines ps).map (lineText indent)) := by
  obtain ⟨l, ls, hlines⟩ := exists_placedLines ps
  rw [laidOut_eq indent true hlines, hlines, List.map_cons, intercalate_cons_newline,
    List.flatMap_map]
  rfl

/-! ### Runs of operations -/

namespace Operation

/-- What one operation changes. -/
structure Performed (op : Operation) (a b : Context) : Prop where
  layout : b.layout = a.layout
  depth : b.depth = op.depthAfter a.depth
  atLineStart : b.atLineStart = startsLine a.atLineStart (op.text.map (Placed.mk a.depth))
  code : b.code.toList = a.code.toList ++
    laidOut a.layout.indent a.atLineStart (op.text.map (Placed.mk a.depth))

theorem performed_run (op : Operation) (ctx : Context) : Performed op ctx (op.run ctx) := by
  have hunchanged : ctx.code.toList =
      ctx.code.toList ++ laidOut ctx.layout.indent ctx.atLineStart [] :=
    (List.append_nil _).symm
  cases op with
  | write s =>
    obtain ⟨hlayout, hdepth, hstart, hcode⟩ := Adds.write ctx s
    exact ⟨hlayout, hdepth, hstart, hcode⟩
  | newline =>
    obtain ⟨hlayout, hdepth, hstart, hcode⟩ := Adds.newline ctx
    exact ⟨hlayout, hdepth, hstart, hcode⟩
  | nest => exact ⟨rfl, rfl, rfl, hunchanged⟩
  | unnest => exact ⟨rfl, rfl, rfl, hunchanged⟩

theorem toList_foldl_run (ops : List Operation) (ctx : Context) :
    (ops.foldl run ctx).code.toList = ctx.code.toList ++
      laidOut ctx.layout.indent ctx.atLineStart (placed ctx.depth ops) := by
  induction ops generalizing ctx with
  | nil => exact (List.append_nil _).symm
  | cons op ops ih =>
    obtain ⟨hlayout, hdepth, hstart, hcode⟩ := performed_run op ctx
    rw [List.foldl_cons, ih, hlayout, hdepth, hstart, hcode, List.append_assoc, placed,
      laidOut_append]

/-- A line already begun goes on in the same way at every depth. -/
theorem toList_write_of_begun {ctx : Context} (hbegun : ctx.atLineStart = false) {s : String}
    (hs : '\n' ∉ s.toList) : (ctx.write s).code.toList = ctx.code.toList ++ s.toList := by
  by_cases hne : s.toList = []
  · obtain rfl := String.toList_eq_nil_iff.mp hne
    rw [Context.write_eq_foldl]
    exact (List.append_nil _).symm
  · have hlead : ctx.lead = [] := by simp [Context.lead, hbegun]
    rw [ctx.toList_write hs hne, hlead, List.append_nil]

/-- The text of a new output is the lines of all that is written, each but the empty ones behind
the indentation for the depth of its first character. So it makes no difference how a text is
divided, a line end is a character like any other, and a change of depth leaves the present line as
it is. -/
theorem run_indents_lines (layout : Layout) (ops : List Operation) :
    (ops.foldl run { layout := layout }).code.toList =
      ['\n'].intercalate ((placedLines (placed 0 ops)).map (lineText layout.indent)) ∧
    (placedLines (placed 0 ops)).map (fun l => l.map Placed.char) =
      (ops.flatMap text).splitOn '\n' ∧
    ∀ ctx : Context,
      (∀ a b : String, (ctx.write a).write b = ctx.write (a ++ b)) ∧
      ctx.newline = ctx.write "\n" ∧
      ctx.nest.code = ctx.code ∧ ctx.unnest.code = ctx.code ∧
      ∀ s : String, ctx.atLineStart = false → '\n' ∉ s.toList →
        (ctx.nest.write s).code = (ctx.write s).code ∧
        (ctx.unnest.write s).code = (ctx.write s).code := by
  refine ⟨?_, ?_, fun ctx => ⟨fun a b => ?_, ?_, rfl, rfl, fun s hbegun hs => ?_⟩⟩
  · rw [toList_foldl_run, ← laidOut_of_start]
    rfl
  · rw [map_placedLines, map_char_placed]
  · rw [ctx.write_eq_foldl, ctx.foldl_writeChar_write, ctx.write_eq_foldl, String.toList_append]
  · rw [ctx.write_eq_foldl]
    rfl
  · have hwritten := toList_write_of_begun hbegun hs
    have hnested := @toList_write_of_begun ctx.nest hbegun s hs
    have hunnested := @toList_write_of_begun ctx.unnest hbegun s hs
    exact ⟨String.toList_inj.mp (hnested.trans hwritten.symm),
      String.toList_inj.mp (hunnested.trans hwritten.symm)⟩

/-- The depth changes within the first line, and back twice within the second. -/
def zigzag : List Operation :=
  [.write "a", .nest, .write "b\n\nc", .unnest, .unnest, .write "d", .newline, .write "e"]

theorem run_indents_lines_zigzag :
    (zigzag.foldl run { layout := { } }).code.toList = "ab\n\n  cd\ne".toList ∧
    ((Context.write { layout := { } } "a").nest.write "b").code =
      ((Context.write { layout := { } } "a").write "b").code := by
  obtain ⟨htext, -, hstates⟩ := run_indents_lines { } zigzag
  refine ⟨htext.trans (by decide), ?_⟩
  obtain ⟨-, -, -, -, hbegun⟩ := hstates (Context.write { layout := { } } "a")
  exact (hbegun "b" (by decide) (by decide)).1

end Operation

end ApiTypings.Printing
