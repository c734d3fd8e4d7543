import ApiTypings.Proofs.Declaration.Undocumented
import ApiTypings.Proofs.Printing.AddedLines
import ApiTypings.Proofs.Printing.CommentLines

/-!
# What comments add to a printed schema

A schema is printed beside itself without documentation. Whatever its names are, the first output
holds the lines of the second and the lines of comments, each behind its margin.
-/
namespace ApiTypings.Printing

open Text

/-- A line that a comment adds at some depth. If it shows text, it keeps the width or shows one
word; if it is a link, then one of a comment with the property. -/
def ShowsComment (layout : Layout) (C : DocComment → Prop) (l : List Char) : Prop :=
  ∃ (depth : Nat) (line : BlockLine),
    l = (Context.margin { layout := layout, depth := depth }).toList ++ line.string.toList ∧
      line.Keeps layout.width l.length C

/-- A documented output beside an undocumented one. -/
structure Beside (layout : Layout) (C : DocComment → Prop) (a b : Context) : Prop where
  adds : AddsLines (ShowsComment layout C) a b
  layout_eq : a.layout = layout

namespace Beside

variable {layout : Layout} {C : DocComment → Prop} {a b : Context}

theorem newline (h : Beside layout C a b) : Beside layout C a.newline b.newline :=
  ⟨h.adds.newline, h.layout_eq⟩

theorem nest (h : Beside layout C a b) : Beside layout C a.nest b.nest :=
  ⟨h.adds.nest, h.layout_eq⟩

theorem unnest (h : Beside layout C a b) : Beside layout C a.unnest b.unnest :=
  ⟨h.adds.unnest, h.layout_eq⟩

theorem write (h : Beside layout C a b) (s : String) : Beside layout C (a.write s) (b.write s) :=
  ⟨h.adds.write s, (a.layout_write s).trans h.layout_eq⟩

theorem writeLine (h : Beside layout C a b) (s : String) :
    Beside layout C (a.writeLine s) (b.writeLine s) :=
  (h.write s).newline

theorem writeBlockLine (h : Beside layout C a b) (hstart : a.atLineStart = true) {l : BlockLine}
    (hnewline : '\n' ∉ l.string.toList)
    (hkeeps : l.Keeps layout.width (a.margin.toList ++ l.string.toList).length C) :
    Beside layout C (writeBlockLine a l) b := by
  have hmargin : a.margin = Context.margin { layout := layout, depth := a.depth } := by
    rw [← h.layout_eq]
    rfl
  have hline : Printing.writeBlockLine a l =
      (l.string.toList.foldl Context.writeChar a).newline :=
    congrArg Context.newline (a.write_eq_foldl l.string)
  refine ⟨hline ▸ h.adds.writeText hstart fun m hm => ?_,
    (a.layout_writeLine _).trans h.layout_eq⟩
  rw [outputLines_of_not_mem hnewline, List.mem_singleton] at hm
  rw [hm, indented, if_neg (string_ne_nil l)]
  exact ⟨a.depth, l, by rw [hmargin], hkeeps⟩

/-- Comments on the first side only. -/
theorem writeComments (h : Beside layout C a b) (hstart : a.atLineStart = true)
    {cs : List DocComment} (hcs : ∀ c ∈ cs, C c) :
    Beside layout C (writeComments a cs) b ∧ (Printing.writeComments a cs).atLineStart = true := by
  have hlines : ∀ l ∈ writtenLines a cs, '\n' ∉ l.string.toList ∧
      l.Keeps layout.width (a.margin.toList ++ l.string.toList).length C := by
    intro l hl
    have hwritten := isWritten_of_mem hl
    exact ⟨hwritten.newline, h.layout_eq ▸ keeps_of_isWritten hcs hwritten⟩
  rw [writeComments_eq]
  generalize writtenLines a cs = ls at hlines
  induction ls generalizing a with
  | nil => exact ⟨h, hstart⟩
  | cons l ls ih =>
    obtain ⟨⟨hnewline, hkeeps⟩, hls⟩ := List.forall_mem_cons.mp hlines
    have hmargin : (Printing.writeBlockLine a l).margin = a.margin :=
      Context.margin_congr (a.layout_writeLine _) (a.depth_writeLine _)
    rw [← hmargin] at hls
    rw [List.foldl_cons]
    exact ih (h.writeBlockLine hstart hnewline hkeeps) rfl hls

theorem writeDescription (h : Beside layout C a b) (hstart : a.atLineStart = true)
    {description : Option DocComment} (hd : ∀ c ∈ description, C c) :
    Beside layout C (writeDescription a description) b := by
  cases description with
  | none => exact h
  | some c => exact (h.writeComments hstart (List.forall_mem_singleton.mpr (hd c rfl))).1

end Beside

/-! ### Schemas -/

section

variable {layout : Layout} {C : DocComment → Prop}

/-- Printing a type beside its bare form adds comments only. -/
def PrintsBeside (layout : Layout) (C : DocComment → Prop) (t : ApiType) : Prop :=
  ∀ a b : Context, Beside layout C a b → Beside layout C (writeType a t) (writeType b t.bare)

theorem beside_writeMembers {ms : List ApiType} (hm : ∀ m ∈ ms, PrintsBeside layout C m)
    {a b : Context} (h : Beside layout C a b) :
    Beside layout C (writeMembers a ms) (writeMembers b (memberOutlines id (.any []) ms)) := by
  induction ms generalizing a b with
  | nil => exact h
  | cons m ms ih =>
    obtain ⟨hfirst, hrest⟩ := List.forall_mem_cons.mp hm
    cases ms with
    | nil => exact hfirst a b h
    | cons n ms => exact ih hrest ((hfirst a b h).write _)

theorem beside_writeProperties {ps : List Property}
    (hp : ∀ p ∈ ps, (∀ c ∈ p.description, C c) ∧ PrintsBeside layout C p.type) {a b : Context}
    (h : Beside layout C a b) (hstart : a.atLineStart = true) :
    Beside layout C (writeProperties a ps)
      (writeProperties b (propertyOutlines id (.any []) ps)) := by
  induction ps generalizing a b with
  | nil => exact h
  | cons p ps ih =>
    obtain ⟨⟨hdescription, htype⟩, hrest⟩ := List.forall_mem_cons.mp hp
    obtain ⟨name, type, optional, description⟩ := p
    have hnamed := ((h.writeDescription hstart hdescription).write name).write
      (if optional then "?: " else ": ")
    exact ih hrest ((htype _ _ hnamed).writeLine ",") rfl

theorem printsBeside (t : ApiType) : (∀ c ∈ t.descriptions, C c) → PrintsBeside layout C t := by
  induction t using ApiType.kinds with
  | scalar s => exact fun _ a b h => h.write _
  | any cs => exact fun _ a b h => h.write _
  | named n cs => exact fun _ a b h => h.write n
  | union ms cs ih =>
    intro hd a b h
    exact beside_writeMembers (fun m hm => ih m hm fun c hc =>
      hd c (ApiType.descriptions_member hm hc)) h
  | array t cs ih =>
    intro hd a b h
    exact (ih hd _ _ (h.write "Array<")).write ">"
  | record ps cs ih =>
    intro hd a b h
    cases ps with
    | nil => exact h.write _
    | cons p ps =>
      have hp : ∀ q ∈ p :: ps, (∀ c ∈ q.description, C c) ∧ PrintsBeside layout C q.type := by
        intro q hq
        have hsub : q.description.toList ++ q.type.descriptions ⊆
            (ApiType.record (p :: ps) cs).descriptions := ApiType.descriptions_property hq
        refine ⟨fun c hc => hd c (hsub (List.mem_append_left _ (by simpa using hc))), ?_⟩
        exact ih q hq fun c hc => hd c (hsub (List.mem_append_right _ hc))
      have hopen := (h.write "\x7b").nest.newline
      have hclosed := (beside_writeProperties hp hopen rfl).unnest
      obtain ⟨name, type, optional, description⟩ := p
      exact hclosed.write "\x7d"

theorem beside_writeEntry (d : Dialect) {a b : Context} (h : Beside layout C a b)
    (hstart : a.atLineStart = true) (name : String) {t : ApiType}
    (ht : ∀ c ∈ t.comments ++ t.descriptions, C c) :
    Beside layout C (writeEntry d a name t) (writeEntry d b name t.bare) := by
  obtain ⟨hcomments, hdescriptions⟩ := List.forall_mem_append.mp ht
  have hdocs := (h.writeComments hstart hcomments).1
  have hwritten := (printsBeside t hdescriptions _ _ (hdocs.write (d.frame name t).head)).writeLine
    (d.frame name t).tail
  rw [writeEntry, writeEntry, frame_bare, comments_bare]
  exact hwritten

theorem beside_writeEntries (d : Dialect) {es : List (String × ApiType)}
    (hes : ∀ e ∈ es, ∀ c ∈ e.2.comments ++ e.2.descriptions, C c) {a b : Context}
    (h : Beside layout C a b) (hstart : a.atLineStart = true) :
    Beside layout C (writeEntries d a es) (writeEntries d b (bareEntries es)) := by
  induction es generalizing a b with
  | nil => exact h
  | cons e es ih =>
    obtain ⟨he, hrest⟩ := List.forall_mem_cons.mp hes
    have hfirst := beside_writeEntry d h hstart e.1 he
    cases es with
    | nil => exact hfirst
    | cons f es => exact ih hrest hfirst.newline rfl

theorem beside_writeBegin (d : Dialect) (hindent : '\n' ∉ layout.indent.toList) :
    Beside layout C (d.writeBegin { layout := layout }) (d.writeBegin { layout := layout }) ∧
      (d.writeBegin { layout := layout }).atLineStart = true := by
  have hblank : Beside layout C { layout := layout } { layout := layout } :=
    ⟨AddsLines.refl hindent fun _ => Or.inl rfl, rfl⟩
  cases d with
  | typeScript => exact ⟨hblank, rfl⟩
  | flow m => exact ⟨(hblank.write _).nest.newline, rfl⟩

theorem beside_writeEnd (d : Dialect) {a b : Context} (h : Beside layout C a b) :
    Beside layout C (d.writeEnd a) (d.writeEnd b) := by
  cases d with
  | typeScript => exact h
  | flow m => exact h.unnest.writeLine _

end

end ApiTypings.Printing
