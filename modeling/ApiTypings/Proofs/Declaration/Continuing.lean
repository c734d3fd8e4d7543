import ApiTypings.Declaration.Writer
import ApiTypings.Proofs.Printing.Writing
import Mathlib.Data.List.Infix

/-!
# The writer only adds

Whatever is written for declarations goes behind the text that is there and leaves the depth as
it was. So the text of more declarations goes on from the text of fewer, apart from the line end
that is left out at the end.
-/
namespace ApiTypings.Declaration

open Printing (Context)

/-- Whether an output goes on from an earlier one. -/
structure Continues (a b : Context) : Prop where
  layout : b.layout = a.layout
  depth : b.depth = a.depth
  code : a.code.toList <+: b.code.toList

namespace Continues

variable {a b c : Context}

theorem refl (a : Context) : Continues a a := ⟨rfl, rfl, List.prefix_refl _⟩

theorem trans (h : Continues a b) (h' : Continues b c) : Continues a c :=
  ⟨h'.layout.trans h.layout, h'.depth.trans h.depth, h.code.trans h'.code⟩

theorem foldl {α : Type} {f : Context → α → Context} (h : ∀ ctx x, Continues ctx (f ctx x))
    (xs : List α) (a : Context) : Continues a (xs.foldl f a) := by
  induction xs generalizing a with
  | nil => exact refl a
  | cons x xs ih => exact (h a x).trans (ih (f a x))

end Continues

variable (ctx : Context)

theorem continues_writeChar (c : Char) : Continues ctx (ctx.writeChar c) := by
  refine ⟨ctx.layout_writeChar c, ctx.depth_writeChar c, ?_⟩
  by_cases hc : c = '\n'
  · simp [hc, Context.writeChar]
  · rw [(ctx.writeChar_of_ne hc).2.2.2, List.append_assoc]
    exact List.prefix_append _ _

theorem continues_put (s : String) : Continues ctx (put ctx s) := by
  rw [put, Context.write_eq_foldl]
  exact Continues.foldl continues_writeChar _ ctx

theorem continues_putLine (s : String) : Continues ctx (putLine ctx s) :=
  (continues_put ctx s).trans (continues_put _ "\n")

theorem continues_putDoc (line : String) : Continues ctx (putDoc ctx line) :=
  (continues_put ctx "/// ").trans (continues_putLine _ line)

theorem continues_putField (f : Field) : Continues ctx (putField ctx f) := by
  have hdocs : Continues ctx (f.docs.foldl putDoc ctx) :=
    Continues.foldl continues_putDoc f.docs ctx
  have hfield : ∀ ctx : Context,
      Continues ctx
        (put (put (put (put (put ctx "pub ") f.identifier) ": ") f.type.text) ",\n") := by
    intro ctx
    exact ((((continues_put ctx _).trans (continues_put _ _)).trans (continues_put _ _)).trans
      (continues_put _ _)).trans (continues_put _ _)
  unfold putField
  cases f.wireName with
  | none => exact hdocs.trans (hfield _)
  | some name => exact (hdocs.trans (continues_putLine _ _)).trans (hfield _)

theorem continues_putHead (keyword : String) (d : Declaration) :
    Continues ctx (putHead ctx keyword d) := by
  have hdocs : Continues ctx (putDocs ctx d.docs) := Continues.foldl continues_putDoc _ ctx
  exact ((hdocs.trans (continues_put _ _)).trans (continues_put _ _)).trans (continues_put _ _)

theorem continues_putOpen : Continues ctx (putOpen ctx) := by
  unfold putOpen
  split
  · exact continues_put ctx _
  · exact (continues_put ctx " ").trans (continues_put _ _)

/-- A block goes on up to its closing brace, which stands at the depth of the opening one. -/
theorem continues_block {content : Context → Context} (h : ∀ ctx, Continues ctx (content ctx)) :
    Continues ctx (content (putOpen ctx).nest).unnest := by
  have hinside := h (putOpen ctx).nest
  exact (continues_putOpen ctx).trans ⟨hinside.layout, congrArg (· - 1) hinside.depth, hinside.code⟩

theorem continues_putBlock {content : Context → Context} (h : ∀ ctx, Continues ctx (content ctx)) :
    Continues ctx (putBlock ctx content) :=
  (continues_block ctx h).trans (continues_put _ "\x7d\n")

theorem continues_putVariant (v : Variant) : Continues ctx (putVariant ctx v) :=
  (((continues_put ctx _).trans (continues_put _ _)).trans (continues_put _ _)).trans
    (continues_put _ _)

theorem continues_putDeclaration (d : Declaration) : Continues ctx (putDeclaration ctx d) := by
  unfold putDeclaration
  split
  · next fields _ =>
    exact (continues_putHead ctx "struct" d).trans
      (continues_putBlock _ (Continues.foldl continues_putField fields))
  · exact continues_putLine ctx _
  · exact continues_putLine ctx _
  · exact continues_putLine ctx _

theorem continues_putDeclarations (ds : List Declaration) :
    Continues ctx (putDeclarations ctx ds) := by
  fun_induction putDeclarations ctx ds with
  | case1 ctx => exact Continues.refl ctx
  | case2 ctx d => exact continues_putDeclaration ctx d
  | case3 ctx d e ds ih =>
    exact ((continues_putDeclaration ctx d).trans (continues_put _ "\n")).trans ih

theorem continues_putDeclarations_append (ds es : List Declaration) :
    Continues (putDeclarations ctx ds) (putDeclarations ctx (ds ++ es)) := by
  fun_induction putDeclarations ctx ds with
  | case1 ctx => exact continues_putDeclarations ctx es
  | case2 ctx d =>
    cases es with
    | nil => exact Continues.refl _
    | cons e es => exact (continues_put _ "\n").trans (continues_putDeclarations _ (e :: es))
  | case3 ctx d e ds ih => exact ih

/-- Leaving out a line end at the very end keeps one text the beginning of another. -/
theorem withoutLastNewline_prefix {s t : List Char} (h : s <+: t) :
    withoutLastNewline s <+: withoutLastNewline t := by
  obtain ⟨u, rfl⟩ := h
  cases hu : u.getLast? with
  | none => rw [List.getLast?_eq_none_iff.mp hu, List.append_nil]
  | some c =>
    have hs : withoutLastNewline s <+: s := by
      unfold withoutLastNewline
      split
      · exact List.dropLast_prefix s
      · exact List.prefix_refl s
    have hne : u ≠ [] := by
      rintro rfl
      simp at hu
    have ht : withoutLastNewline (s ++ u) = s ++ withoutLastNewline u := by
      unfold withoutLastNewline
      rw [List.getLast?_append_of_ne_nil s hne]
      split
      · rw [List.dropLast_append_of_ne_nil hne]
      · rfl
    rw [ht]
    exact hs.trans (List.prefix_append s _)

theorem declarationsText_prefix (ds es : List Declaration) :
    (declarationsText ds).toList <+: (declarationsText (ds ++ es)).toList := by
  simp only [declarationsText, String.toList_ofList]
  exact withoutLastNewline_prefix (continues_putDeclarations_append _ ds es).code

end ApiTypings.Declaration
