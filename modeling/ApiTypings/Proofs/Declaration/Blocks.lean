import ApiTypings.Proofs.Declaration.SourceText
import ApiTypings.Proofs.Printing.Deeper

/-!
# Declarations are blocks of text

What a declaration writes does not depend on what stands before it. So a text of declarations is
the line that all share and one block for each declaration, with an empty line above every block.
-/
namespace ApiTypings

open Printing (Context Deeper AddsAlike addsAlike_write)

namespace Declaration

section Alike

variable {k : Nat} {a b : Context} (h : Deeper k a b)

include h

theorem addsAlike_put (s : String) : AddsAlike k a b (put a s) (put b s) := addsAlike_write h _

theorem addsAlike_putLine (s : String) : AddsAlike k a b (putLine a s) (putLine b s) := by
  have hs := addsAlike_put h s
  exact hs.trans (addsAlike_put (hs.deeper h) "\n")

theorem addsAlike_putDoc (line : String) : AddsAlike k a b (putDoc a line) (putDoc b line) := by
  have hsign := addsAlike_put h "/// "
  exact hsign.trans (addsAlike_putLine (hsign.deeper h) line)

theorem addsAlike_putDocLines (docs : List String) :
    AddsAlike k a b (docs.foldl putDoc a) (docs.foldl putDoc b) :=
  .foldl (fun _ _ line h => addsAlike_putDoc h line) docs h

theorem addsAlike_putFieldCode (f : Field) :
    AddsAlike k a b (putFieldCode a f) (putFieldCode b f) := by
  have hcode : ∀ a b : Context, Deeper k a b → AddsAlike k a b
      (put (put (put (put (put a "pub ") f.identifier) ": ") f.type.text) ",\n")
      (put (put (put (put (put b "pub ") f.identifier) ": ") f.type.text) ",\n") := by
    intro a b h
    have hvisible := addsAlike_put h "pub "
    have hnamed := hvisible.trans (addsAlike_put (hvisible.deeper h) f.identifier)
    have hmarked := hnamed.trans (addsAlike_put (hnamed.deeper h) ": ")
    have htyped := hmarked.trans (addsAlike_put (hmarked.deeper h) f.type.text)
    exact htyped.trans (addsAlike_put (htyped.deeper h) ",\n")
  unfold putFieldCode
  cases f.wireName with
  | none => exact hcode a b h
  | some name =>
    have hrename := addsAlike_putLine h ("#[serde(rename = \"" ++ name ++ "\")]")
    exact hrename.trans (hcode _ _ (hrename.deeper h))

theorem addsAlike_putField (f : Field) : AddsAlike k a b (putField a f) (putField b f) := by
  have hdocs := addsAlike_putDocLines h f.docs
  exact hdocs.trans (addsAlike_putFieldCode (hdocs.deeper h) f)

theorem addsAlike_putHead (keyword : String) (d : Declaration) :
    AddsAlike k a b (putHead a keyword d) (putHead b keyword d) := by
  have hdocs := addsAlike_putDocLines h
    ((Text.lines (String.intercalate "\n" d.docs).toList).map String.ofList)
  have hderived := hdocs.trans (addsAlike_put (hdocs.deeper h) deriveLine)
  have hopened := hderived.trans (addsAlike_put (hderived.deeper h) ("pub " ++ keyword ++ " "))
  exact hopened.trans (addsAlike_put (hopened.deeper h) d.name)

theorem addsAlike_putOpen : AddsAlike k a b (putOpen a) (putOpen b) := by
  unfold putOpen
  rw [h.atLineStart]
  split
  · exact addsAlike_put h _
  · have hspace := addsAlike_put h " "
    exact hspace.trans (addsAlike_put (hspace.deeper h) _)

theorem addsAlike_putBlock {content : Context → Context}
    (hcontent : ∀ a b, Deeper k a b → AddsAlike k a b (content a) (content b)) :
    AddsAlike k a b (putBlock a content) (putBlock b content) := by
  have hopened := addsAlike_putOpen h
  have hinside := hopened.trans (hcontent _ _ (hopened.deeper h).nest).unnest
  exact hinside.trans (addsAlike_put (hinside.deeper h) "\x7d\n")

theorem addsAlike_putDeclaration (d : Declaration) :
    AddsAlike k a b (putDeclaration a d) (putDeclaration b d) := by
  obtain ⟨name, docs, body⟩ := d
  cases body with
  | struct fields =>
    have hhead := addsAlike_putHead h "struct" ⟨name, docs, .struct fields⟩
    exact hhead.trans (addsAlike_putBlock (hhead.deeper h) fun _ _ hinside =>
      .foldl (fun _ _ f h => addsAlike_putField h f) fields hinside)
  | placeholder => exact addsAlike_putLine h _
  | enum variants => exact addsAlike_putLine h _
  | «alias» target => exact addsAlike_putLine h _

end Alike

/-! ### Blocks -/

theorem exists_putDeclaration_eq (d : Declaration) :
    ∃ s, (putDeclaration blank d).code.toList = s ++ ['\n'] := by
  have hline : ∀ s, ∃ t, (putLine blank s).code.toList = t ++ ['\n'] := fun s =>
    ⟨_, by rw [putLine, put_newline, Context.toList_newline]⟩
  obtain ⟨name, docs, body⟩ := d
  cases body with
  | struct fields =>
    let head := putHead blank "struct" ⟨name, docs, .struct fields⟩
    have hinside : Continues blank _ := (continues_putHead blank "struct" _).trans
      (continues_block head (Continues.foldl continues_putField fields))
    have hbrace : withoutReturns "\x7d\n".toList = ['\x7d'] ++ ['\n'] := by decide
    have hcode := toList_put_of_depth hinside.depth "\x7d\n"
    rw [hbrace, ← List.append_assoc] at hcode
    exact ⟨_, hcode⟩
  | placeholder => exact hline _
  | enum variants => exact hline _
  | «alias» target => exact hline _

/-- The text of a declaration without the line end behind it. -/
def block (d : Declaration) : List Char := (putDeclaration blank d).code.toList.dropLast

theorem block_append_newline (d : Declaration) :
    (putDeclaration blank d).code.toList = block d ++ ['\n'] := by
  obtain ⟨s, hs⟩ := exists_putDeclaration_eq d
  rw [block, hs, List.dropLast_concat]

theorem toList_putDeclaration {ctx : Context} (h : Deeper 0 blank ctx) (d : Declaration) :
    (putDeclaration ctx d).code.toList = ctx.code.toList ++ (block d ++ ['\n']) := by
  obtain ⟨s, hblank, hctx⟩ := (addsAlike_putDeclaration h d).exists_toList h
  have hs : (putDeclaration blank d).code.toList = s := hblank
  rw [hctx, ← hs, block_append_newline]

theorem deeper_of_continues {a b c : Context} (h : Deeper 0 a b) (hc : Continues b c)
    (hstart : c.atLineStart = a.atLineStart) : Deeper 0 a c :=
  ⟨by rw [hc.layout, h.indent], by rw [hc.layout, h.width], by rw [hc.depth, h.depth], hstart⟩

/-- Between two blocks there is an empty line. -/
theorem toList_putDeclarations {ctx : Context} (h : Deeper 0 blank ctx) {ds : List Declaration}
    (hne : ds ≠ []) : (putDeclarations ctx ds).code.toList =
      ctx.code.toList ++ (['\n', '\n'].intercalate (ds.map block) ++ ['\n']) := by
  fun_induction putDeclarations ctx ds with
  | case1 ctx => exact absurd rfl hne
  | case2 ctx d =>
    rw [toList_putDeclaration h, List.map_singleton, List.intercalate_singleton]
  | case3 ctx d e ds ih =>
    have hframe := (continues_putDeclaration ctx d).trans (continues_put _ "\n")
    have hnext : Deeper 0 blank (put (putDeclaration ctx d) "\n") := by
      refine deeper_of_continues h hframe ?_
      rw [put_newline]
      rfl
    rw [ih hnext (List.cons_ne_nil e ds), put_newline, Context.toList_newline,
      toList_putDeclaration h, List.map_cons, List.map_cons, List.map_cons,
      List.intercalate_cons_cons]
    simp

theorem toList_declarationsText {ds : List Declaration} (hne : ds ≠ []) :
    (declarationsText ds).toList =
      importLine.toList ++ '\n' :: ['\n', '\n'].intercalate (ds.map block) := by
  let start := put (put blank importLine) "\n"
  have himport : withoutReturns importLine.toList = importLine.toList := by decide
  have hline : start = (put blank importLine).newline := put_newline _
  have hstart : Deeper 0 blank start := by
    refine deeper_of_continues (.refl blank)
      ((continues_put blank importLine).trans (continues_put _ "\n")) ?_
    rw [hline]
    rfl
  have hcode : start.code.toList = importLine.toList ++ ['\n'] := by
    rw [hline, Context.toList_newline, toList_put_of_depth rfl, himport]
    rfl
  have hwritten := toList_putDeclarations hstart hne
  rw [declarationsText, String.toList_ofList, hwritten, hcode, ← List.append_assoc,
    withoutLastNewline, if_pos List.getLast?_concat, List.dropLast_concat, List.append_assoc,
    List.singleton_append]

end Declaration

end ApiTypings
