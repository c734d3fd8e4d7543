import ApiTypings.Proofs.Printing.AddedLines
import ApiTypings.Proofs.Printing.CommentLines
import ApiTypings.Proofs.Printing.Placed
import ApiTypings.Proofs.Schema.Outline
import ApiTypings.Rendering

/-!
# Printing at a greater depth

Two outputs are written side by side, one some levels deeper than the other and as much wider. They
are given the same characters, so comments take one line or several in both, and the deeper output
holds the lines of the other behind a margin. The body of a module is such an output.
-/
namespace ApiTypings.Printing

open Text

/-! ### Two outputs -/

def Placed.deeper (k : Nat) (p : Placed) : Placed := ⟨p.depth + k, p.char⟩

theorem startsLine_deeper (k : Nat) (start : Bool) (ps : List Placed) :
    startsLine start (ps.map (Placed.deeper k)) = startsLine start ps := by
  rw [startsLine, List.foldl_map]
  rfl

/-- Whether the second output is `k` levels deeper than the first and as much wider. -/
structure Deeper (k : Nat) (a b : Context) : Prop where
  indent : b.layout.indent = a.layout.indent
  width : b.layout.width = a.layout.width + k * a.layout.indent.length
  depth : b.depth = a.depth + k
  atLineStart : b.atLineStart = a.atLineStart

theorem Deeper.refl (a : Context) : Deeper 0 a a := ⟨rfl, by rw [Nat.zero_mul]; rfl, rfl, rfl⟩

theorem Deeper.nest {k : Nat} {a b : Context} (h : Deeper k a b) : Deeper k a.nest b.nest := by
  refine ⟨h.indent, h.width, ?_, h.atLineStart⟩
  have ha : a.nest.depth = a.depth + 1 := rfl
  have hb : b.nest.depth = b.depth + 1 := rfl
  rw [ha, hb, h.depth, Nat.add_right_comm]

/-- Whether two outputs are given the same characters, the second `k` levels deeper. -/
def AddsAlike (k : Nat) (a b a' b' : Context) : Prop :=
  ∃ ps, Adds a a' ps ∧ Adds b b' (ps.map (Placed.deeper k))

namespace AddsAlike

variable {k : Nat} {a b a' b' a'' b'' : Context}

theorem refl (k : Nat) (a b : Context) : AddsAlike k a b a b := ⟨[], Adds.refl a, Adds.refl b⟩

theorem trans (h : AddsAlike k a b a' b') (h' : AddsAlike k a' b' a'' b'') :
    AddsAlike k a b a'' b'' := by
  obtain ⟨ps, ha, hb⟩ := h
  obtain ⟨qs, ha', hb'⟩ := h'
  refine ⟨ps ++ qs, ha.trans ha', ?_⟩
  rw [List.map_append]
  exact hb.trans hb'

theorem unnest (h : AddsAlike k a.nest b.nest a' b') : AddsAlike k a b a'.unnest b'.unnest := by
  obtain ⟨ps, ha, hb⟩ := h
  exact ⟨ps, ha.unnest, hb.unnest⟩

/-- Outputs that are given the same stay as deep beside each other. -/
theorem deeper (h : AddsAlike k a b a' b') (hab : Deeper k a b) : Deeper k a' b' := by
  obtain ⟨ps, ha, hb⟩ := h
  refine ⟨?_, ?_, ?_, ?_⟩
  · rw [hb.layout, ha.layout, hab.indent]
  · rw [hb.layout, ha.layout, hab.width]
  · rw [hb.depth, ha.depth, hab.depth]
  · rw [hb.atLineStart, ha.atLineStart, startsLine_deeper, hab.atLineStart]

theorem foldl {α : Type} {f : Context → α → Context}
    (hf : ∀ a b x, Deeper k a b → AddsAlike k a b (f a x) (f b x)) (xs : List α)
    (h : Deeper k a b) : AddsAlike k a b (xs.foldl f a) (xs.foldl f b) := by
  induction xs generalizing a b with
  | nil => exact .refl k a b
  | cons x xs ih =>
    have hfirst := hf a b x h
    exact hfirst.trans (ih (hfirst.deeper h))

/-- Outputs that are given the same at the same depth go on with the same text. -/
theorem exists_toList (h : AddsAlike 0 a b a' b') (hab : Deeper 0 a b) :
    ∃ s, a'.code.toList = a.code.toList ++ s ∧ b'.code.toList = b.code.toList ++ s := by
  obtain ⟨ps, ha, hb⟩ := h
  have hsame : ps.map (Placed.deeper 0) = ps := List.map_id ps
  refine ⟨_, ha.code, ?_⟩
  rw [hb.code, hsame, hab.indent, hab.atLineStart]

end AddsAlike

section Written

variable {k : Nat} {a b : Context} (h : Deeper k a b)

include h

theorem addsAlike_newline : AddsAlike k a b a.newline b.newline := by
  refine ⟨_, Adds.newline a, ?_⟩
  have hb := Adds.newline b
  rwa [h.depth] at hb

theorem addsAlike_write (s : String) : AddsAlike k a b (a.write s) (b.write s) := by
  refine ⟨_, Adds.write a s, ?_⟩
  have hb := Adds.write b s
  rw [h.depth] at hb
  rw [List.map_map]
  exact hb

theorem addsAlike_writeLine (s : String) : AddsAlike k a b (a.writeLine s) (b.writeLine s) := by
  have hs := addsAlike_write h s
  exact hs.trans (addsAlike_newline (hs.deeper h))

/-! ### Comments -/

theorem marginWidth_eq : b.marginWidth = a.marginWidth + k * a.layout.indent.length := by
  rw [Context.marginWidth, Context.marginWidth, h.indent, h.depth, Nat.mul_add, Nat.mul_comm k]

/-- The margin takes from the width what the width has more. -/
theorem fitsOneLine_eq (c : CommentBlock) : fitsOneLine b c = fitsOneLine a c := by
  have hroom : b.marginWidth + c.text.length + 7 ≤ b.layout.width ↔
      a.marginWidth + c.text.length + 7 ≤ a.layout.width := by
    rw [marginWidth_eq h, h.width]
    omega
  rw [fitsOneLine, fitsOneLine, decide_eq_decide.mpr hroom]

theorem textWidth_eq : textWidth b = textWidth a := by
  have hroom : b.layout.width - (b.marginWidth + 3) = a.layout.width - (a.marginWidth + 3) := by
    rw [marginWidth_eq h, h.width]
    omega
  rw [textWidth, textWidth, hroom]

theorem linesOfBlock_eq (cs : List DocComment) : linesOfBlock b cs = linesOfBlock a cs := by
  rw [linesOfBlock, linesOfBlock, textWidth_eq h]

theorem writtenLines_eq (cs : List DocComment) : writtenLines b cs = writtenLines a cs := by
  cases cs with
  | nil => rfl
  | cons c cs =>
    cases cs with
    | nil => rw [writtenLines, writtenLines, fitsOneLine_eq h, linesOfBlock_eq h]
    | cons d cs => exact linesOfBlock_eq h (c :: d :: cs)

theorem addsAlike_writeComments (cs : List DocComment) :
    AddsAlike k a b (writeComments a cs) (writeComments b cs) := by
  rw [writeComments_eq, writeComments_eq, writtenLines_eq h]
  exact .foldl (fun _ _ l h => addsAlike_writeLine h l.string) _ h

theorem addsAlike_writeDescription (description : Option DocComment) :
    AddsAlike k a b (writeDescription a description) (writeDescription b description) := by
  cases description with
  | none => exact .refl k a b
  | some c => exact addsAlike_writeComments h [c]

end Written

/-! ### Types and entries -/

section

variable {k : Nat}

/-- Whether a type adds the same at every depth. -/
def PrintsDeeper (k : Nat) (t : ApiType) : Prop :=
  ∀ a b : Context, Deeper k a b → AddsAlike k a b (writeType a t) (writeType b t)

theorem addsAlike_writeMembers {ms : List ApiType} (hm : ∀ m ∈ ms, PrintsDeeper k m)
    {a b : Context} (h : Deeper k a b) :
    AddsAlike k a b (writeMembers a ms) (writeMembers b ms) := by
  induction ms generalizing a b with
  | nil => exact .refl k a b
  | cons m ms ih =>
    obtain ⟨hfirst, hrest⟩ := List.forall_mem_cons.mp hm
    have hmember := hfirst a b h
    cases ms with
    | nil => exact hmember
    | cons n ms =>
      have hnext := hmember.trans (addsAlike_write (hmember.deeper h) " | ")
      exact hnext.trans (ih hrest (hnext.deeper h))

theorem addsAlike_writeProperties {ps : List Property} (hp : ∀ p ∈ ps, PrintsDeeper k p.type)
    {a b : Context} (h : Deeper k a b) :
    AddsAlike k a b (writeProperties a ps) (writeProperties b ps) := by
  induction ps generalizing a b with
  | nil => exact .refl k a b
  | cons p ps ih =>
    obtain ⟨htype, hrest⟩ := List.forall_mem_cons.mp hp
    obtain ⟨name, type, optional, description⟩ := p
    have hdescribed := addsAlike_writeDescription h description
    have hnamed := hdescribed.trans (addsAlike_write (hdescribed.deeper h) name)
    have hmarked := hnamed.trans
      (addsAlike_write (hnamed.deeper h) (if optional then "?: " else ": "))
    have htyped := hmarked.trans (htype _ _ (hmarked.deeper h))
    have hended := htyped.trans (addsAlike_writeLine (htyped.deeper h) ",")
    exact hended.trans (ih hrest (hended.deeper h))

theorem printsDeeper (t : ApiType) : PrintsDeeper k t := by
  induction t using ApiType.kinds with
  | scalar s => exact fun a b h => addsAlike_write h _
  | any cs => exact fun a b h => addsAlike_write h _
  | named n cs => exact fun a b h => addsAlike_write h n
  | union ms cs ih => exact fun a b h => addsAlike_writeMembers ih h
  | array t cs ih =>
    intro a b h
    have hopen := addsAlike_write h "Array<"
    have hitem := hopen.trans (ih _ _ (hopen.deeper h))
    exact hitem.trans (addsAlike_write (hitem.deeper h) ">")
  | record ps cs ih =>
    intro a b h
    cases ps with
    | nil => exact addsAlike_write h _
    | cons p ps =>
      have hopen := addsAlike_write h "\x7b"
      have hinside := (hopen.deeper h).nest
      have hline := addsAlike_newline hinside
      have hbody := (hline.trans (addsAlike_writeProperties ih (hline.deeper hinside))).unnest
      have hclosed := hopen.trans hbody
      exact hclosed.trans (addsAlike_write (hclosed.deeper h) "\x7d")

theorem addsAlike_writeEntry (d : Dialect) {a b : Context} (h : Deeper k a b) (name : String)
    (t : ApiType) : AddsAlike k a b (writeEntry d a name t) (writeEntry d b name t) := by
  have hdocs := addsAlike_writeComments h t.comments
  have hhead := hdocs.trans (addsAlike_write (hdocs.deeper h) (d.frame name t).head)
  have htype := hhead.trans (printsDeeper t _ _ (hhead.deeper h))
  exact htype.trans (addsAlike_writeLine (htype.deeper h) (d.frame name t).tail)

theorem addsAlike_writeEntries (d : Dialect) (es : List (String × ApiType)) {a b : Context}
    (h : Deeper k a b) : AddsAlike k a b (writeEntries d a es) (writeEntries d b es) := by
  induction es generalizing a b with
  | nil => exact .refl k a b
  | cons e es ih =>
    have hentry := addsAlike_writeEntry d h e.1 e.2
    cases es with
    | nil => exact hentry
    | cons f es =>
      have hblank := hentry.trans (addsAlike_newline (hentry.deeper h))
      exact hblank.trans (ih (hblank.deeper h))

end

/-! ### Lines behind a margin -/

/-- A text with a margin in front of each line that is not empty. The first line has it only if a
line begins there. -/
def deepened (margin : List Char) (start : Bool) (s : List Char) : List Char :=
  match outputLines s with
  | [] => []
  | l :: ls => List.intercalate ['\n']
      ((if start then indented margin l else l) :: ls.map (indented margin))

theorem deepened_nil (margin : List Char) (start : Bool) : deepened margin start [] = [] := by
  cases start <;> rfl

theorem deepened_newline (margin : List Char) (start : Bool) (s : List Char) :
    deepened margin start ('\n' :: s) = '\n' :: deepened margin true s := by
  have hlines : outputLines ('\n' :: s) = [] :: outputLines s := rfl
  have hfirst : (if start then indented margin [] else []) = [] := by cases start <;> rfl
  rw [deepened, deepened, hlines]
  dsimp only
  rw [hfirst]
  cases hs : outputLines s with
  | nil => exact absurd hs (pieces_ne_nil _ s)
  | cons l ls =>
    rw [List.map_cons, List.intercalate_cons_cons]
    rfl

/-- Text on one line gets the margin where a line begins, and what follows goes on. -/
theorem deepened_append (margin : List Char) (start : Bool) {s : List Char} (hs : '\n' ∉ s)
    (hne : s ≠ []) (t : List Char) : deepened margin start (s ++ t) =
      (if start then margin else []) ++ s ++ deepened margin false t := by
  cases ht : outputLines t with
  | nil => exact absurd ht (pieces_ne_nil _ t)
  | cons l ls =>
    have hcons : s ++ l ≠ [] := by simp [hne]
    rw [deepened, deepened, outputLines_append_of_not_mem hs ht, ht]
    cases start <;> cases ls <;>
      simp [indented, hne, List.intercalate_cons_cons, List.intercalate_singleton]

theorem indentation_eq (indent : String) (depth : Nat) :
    indentation indent depth = (List.replicate depth indent).flatMap String.toList :=
  String.toList_join

theorem newline_indentation {indent : String} (h : '\n' ∉ indent.toList) (depth : Nat) :
    '\n' ∉ indentation indent depth := by
  rw [indentation_eq]
  intro hmem
  obtain ⟨s, hs, hmem⟩ := List.mem_flatMap.mp hmem
  exact h (List.eq_of_mem_replicate hs ▸ hmem)

theorem indentation_add (indent : String) (d k : Nat) :
    indentation indent (d + k) = indentation indent k ++ indentation indent d := by
  rw [indentation_eq, Nat.add_comm d k, List.replicate_add, List.flatMap_append, indentation_eq,
    indentation_eq]

/-- Characters that are written deeper make the same lines behind a margin. -/
theorem laidOut_deeper {indent : String} (hindent : '\n' ∉ indent.toList) (k : Nat) (start : Bool)
    (ps : List Placed) : laidOut indent start (ps.map (Placed.deeper k)) =
      deepened (indentation indent k) start (laidOut indent start ps) := by
  induction ps generalizing start with
  | nil => exact (deepened_nil _ start).symm
  | cons p ps ih =>
    rw [List.map_cons, laidOut, laidOut]
    by_cases hp : p.char = '\n'
    · have hchar : (p.deeper k).char = '\n' := hp
      rw [if_pos hp, if_pos hchar, hp, hchar, deepened_newline, ih]
    · have hchar : ¬(p.deeper k).char = '\n' := hp
      have hdepth : (p.deeper k).depth = p.depth + k := rfl
      have hsame : (p.deeper k).char = p.char := rfl
      rw [if_neg hp, if_neg hchar, hdepth, hsame, ih, indentation_add]
      -- The first character and its own indentation are text on one line.
      have hline : '\n' ∉ (if start then indentation indent p.depth else []) ++ [p.char] := by
        have hmargin := newline_indentation hindent p.depth
        cases start <;> simp [hmargin, Ne.symm hp]
      have happend := deepened_append (indentation indent k) start hline (by simp)
        (laidOut indent false ps)
      rw [List.append_assoc, List.singleton_append] at happend
      rw [happend]
      cases start <;> simp

/-- Whether two outputs are given the same lines, the second with a margin in front of each that is
not empty and starts in what it is given. -/
def AddsBehind (margin : List Char) (a b a' b' : Context) : Prop :=
  ∃ s, a'.code.toList = a.code.toList ++ s ∧
    b'.code.toList = b.code.toList ++ deepened margin a.atLineStart s

theorem AddsAlike.behind {k : Nat} {a b a' b' : Context} (h : AddsAlike k a b a' b')
    (hab : Deeper k a b) (hindent : '\n' ∉ a.layout.indent.toList) :
    AddsBehind (indentation a.layout.indent k) a b a' b' := by
  obtain ⟨ps, ha, hb⟩ := h
  refine ⟨laidOut a.layout.indent a.atLineStart ps, ha.code, ?_⟩
  rw [hb.code, hab.indent, hab.atLineStart, laidOut_deeper hindent]

/-! ### The body of a module -/

/-- The text of the entries of a schema, without what stands around them. -/
def entriesText (d : Dialect) (layout : Layout) (s : Schema) : String :=
  (writeEntries d { layout := layout } s.entries).code

/-- The text of entries at a depth. -/
def textAt (d : Dialect) (layout : Layout) (depth : Nat) (es : List (String × ApiType)) :
    List Char :=
  (writeEntries d { layout := layout, depth := depth } es).code.toList

/-- Where a line starts, entries add a text that depends on nothing before them. -/
theorem toList_writeEntries (d : Dialect) {ctx : Context} (h : ctx.atLineStart = true)
    (es : List (String × ApiType)) :
    (writeEntries d ctx es).code.toList = ctx.code.toList ++ textAt d ctx.layout ctx.depth es := by
  let fresh : Context := { layout := ctx.layout, depth := ctx.depth }
  have hfresh : Deeper 0 fresh ctx := ⟨rfl, by rw [Nat.zero_mul]; rfl, rfl, h⟩
  obtain ⟨s, htext, hctx⟩ := (addsAlike_writeEntries d es hfresh).exists_toList hfresh
  have hs : textAt d ctx.layout ctx.depth es = s := htext
  rw [hctx, hs]

/-- The first line of a module. -/
def moduleBegin (module : String) : List Char :=
  ("declare module \"" ++ module ++ "\" \x7b").toList ++ ['\n']

/-- The last line of a module. -/
def moduleEnd : List Char := ['\x7d', '\n']

/-- A module is its first line, the text of the entries one level deeper, and its last line. -/
theorem toList_print_module (module : String) (layout : Layout) (s : Schema) :
    (print (.flow module) layout s).toList =
      moduleBegin module ++ textAt (.flow module) layout 1 s.entries ++ moduleEnd := by
  let opened := (Dialect.flow module).writeBegin { layout := layout }
  let written := writeEntries (.flow module) opened s.entries
  have hopened : opened.layout = layout ∧ opened.depth = 1 := by
    simp [opened, Dialect.writeBegin, Context.nest]
  have hstart : opened.atLineStart = true := rfl
  have hhead : opened.code.toList = moduleBegin module := Context.toList_firstLine layout _
  obtain ⟨ps, hadds, -⟩ := addsAlike_writeEntries (.flow module) s.entries (.refl opened)
  have hdepth : written.unnest.depth = 0 :=
    congrArg (· - 1) (hadds.depth.trans hopened.2)
  have hcode : written.unnest.code.toList =
      moduleBegin module ++ textAt (.flow module) layout 1 s.entries := by
    have hwritten := toList_writeEntries (.flow module) hstart s.entries
    rwa [hhead, hopened.1, hopened.2] at hwritten
  have hclosed : (print (.flow module) layout s).toList =
      (written.unnest.write "\x7d").code.toList ++ ['\n'] := Context.toList_newline _
  rw [hclosed, Context.toList_write_of_depth _ hdepth, hcode, List.append_assoc]
  rfl

theorem toList_print_flow {indent : String} (hindent : '\n' ∉ indent.toList) (module : String)
    (width : Nat) (s : Schema) :
    (print (.flow module) ⟨width + indent.length, indent⟩ s).toList =
      ("declare module \"" ++ module ++ "\" \x7b").toList ++ ['\n'] ++
        deepened indent.toList true (entriesText (.flow module) ⟨width, indent⟩ s).toList ++
        ['\x7d', '\n'] := by
  let outer : Context := { layout := ⟨width, indent⟩ }
  let inner : Context := { layout := ⟨width + indent.length, indent⟩, depth := 1 }
  have hdeeper : Deeper 1 outer inner := ⟨rfl, by rw [Nat.one_mul], rfl, rfl⟩
  have hentries := addsAlike_writeEntries (.flow module) s.entries hdeeper
  obtain ⟨body, houter, hbody⟩ := hentries.behind hdeeper hindent
  have hone : indentation indent 1 = indent.toList := by
    rw [indentation_eq, List.replicate_one, List.flatMap_singleton]
  have htext : (entriesText (.flow module) ⟨width, indent⟩ s).toList = body := houter
  have hinside : textAt (.flow module) ⟨width + indent.length, indent⟩ 1 s.entries =
      deepened (indentation indent 1) true body := hbody
  rw [toList_print_module, hinside, hone, htext]
  rfl

/-- What a type at any position and comments add to an output is added to one that is `k` levels
deeper, and wider by as many indents, with the lines that start in it `k` indents further in. The
body of a module is the text of the entries behind one indent, printed for the remaining width. -/
theorem print_deeper {indent : String} (hindent : '\n' ∉ indent.toList) :
    (∀ k a b, a.layout.indent = indent → Deeper k a b →
      (∀ t, AddsBehind (indentation indent k) a b (writeType a t) (writeType b t)) ∧
      ∀ cs, AddsBehind (indentation indent k) a b (writeComments a cs) (writeComments b cs)) ∧
    ∀ module width s, (print (.flow module) ⟨width + indent.length, indent⟩ s).toList =
      ("declare module \"" ++ module ++ "\" \x7b").toList ++ ['\n'] ++
        deepened indent.toList true (entriesText (.flow module) ⟨width, indent⟩ s).toList ++
        ['\x7d', '\n'] := by
  refine ⟨fun k a b ha hab => ?_, toList_print_flow hindent⟩
  subst ha
  exact ⟨fun t => (printsDeeper t a b hab).behind hab hindent,
    fun cs => (addsAlike_writeComments hab cs).behind hab hindent⟩

/-- A record behind the start of a line, two levels deeper and four characters wider. -/
theorem print_deeper_position :
    let t : ApiType := .record [⟨"id", .scalar .integer, false, some (.ofText "a b c")⟩] []
    let a : Context := { layout := ⟨10, "  "⟩, code := "x: ", atLineStart := false }
    let b : Context := { a with layout := ⟨14, "  "⟩, depth := 2 }
    '\n' ∉ "  ".toList ∧ Deeper 2 a b ∧
      AddsBehind (indentation "  " 2) a b (writeType a t) (writeType b t) ∧
      (print (.flow "api") ⟨10 + 2, "  "⟩ (.ofList [("A", t)])).toList =
        ("declare module \"" ++ "api" ++ "\" \x7b").toList ++ ['\n'] ++
          deepened "  ".toList true
            (entriesText (.flow "api") ⟨10, "  "⟩ (.ofList [("A", t)])).toList ++
          ['\x7d', '\n'] := by
  intro t a b
  have hindent : '\n' ∉ "  ".toList := by decide
  obtain ⟨hadds, hprint⟩ := print_deeper hindent
  have hdeeper : Deeper 2 a b := ⟨rfl, by decide, rfl, rfl⟩
  exact ⟨hindent, hdeeper, (hadds 2 a b rfl hdeeper).1 t, hprint "api" 10 _⟩

end ApiTypings.Printing
