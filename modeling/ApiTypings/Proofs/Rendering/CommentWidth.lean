import ApiTypings.Proofs.Declaration.AddedDocs
import ApiTypings.Proofs.Printing.AddedComments

/-!
# Comments are kept whole and within the width

In every target, documentation adds lines to the output. Apart from links, those that are longer
than the width show a single word. In printed comments the words of the documentation stand in
order.
-/
namespace ApiTypings

open Text
open Printing (Dialect Layout ShowsComment outputLines writeComments writtenLines writeBlockLine
  escapeClose)
open Declaration (Generator ShowsDocs commentDocs linkedSchema)

/-- The documentation of a schema: that of its entries and of the properties in them. -/
def Schema.comments (s : Schema) : List DocComment :=
  s.entries.flatMap (fun e => e.2.comments ++ e.2.descriptions)

theorem Schema.mem_comments (s : Schema) :
    ∀ e ∈ s.entries, ∀ c ∈ e.2.comments ++ e.2.descriptions, c ∈ s.comments :=
  fun e he _ hc => List.mem_flatMap.mpr ⟨e, he, hc⟩

/-- Up to their order, the lines of a printed schema are those of the schema without documentation
and those of comments. -/
theorem outputLines_print (d : Dialect) {layout : Layout} (hindent : '\n' ∉ layout.indent.toList)
    (s : Schema) : ∃ added, (∀ l ∈ added, ShowsComment layout (· ∈ s.comments) l) ∧
      (outputLines (Printing.print d layout s).toList).Perm
        (added ++ outputLines (Printing.print d layout s.bare).toList) := by
  obtain ⟨hbegin, hstart⟩ := Printing.beside_writeBegin d hindent
  have hentries := Printing.beside_writeEntries d s.mem_comments hbegin hstart
  obtain ⟨added, hadded, hlines⟩ := (Printing.beside_writeEnd d hentries).adds.lines
  have hnone := hlines []
  rw [List.append_nil, List.append_nil] at hnone
  exact ⟨added, hadded, hnone⟩

/-- Whatever the dialect and however often a schema is declared, its documentation adds lines that
show links, or text within the width or of one word. Of the lines of a printed comment, those with
text show the words of the documentation in order, in a form that does not end a comment. The
documentation of declarations shows these words as they are. -/
theorem comments_keep_width (layout : Layout) (hindent : '\n' ∉ layout.indent.toList)
    (s : Schema) :
    (∀ d, ∃ added, (∀ l ∈ added, ShowsComment layout (· ∈ s.comments) l) ∧
      (outputLines (Printing.print d layout s).toList).Perm
        (added ++ outputLines (Printing.print d layout s.bare).toList)) ∧
    (∀ n, ∃ added, (∀ l ∈ added, ShowsDocs layout.width (· ∈ s.comments) l) ∧
      (outputLines (Generator.afterRuns s layout.width n).text.toList).Perm
        (added ++ outputLines (Generator.afterRuns s.bare layout.width n).text.toList)) ∧
    (∀ ctx cs, writeComments ctx cs = (writtenLines ctx cs).foldl writeBlockLine ctx ∧
      (∀ l ∈ writtenLines ctx cs,
        l.Keeps ctx.layout.width (ctx.margin.toList ++ l.string.toList).length (· ∈ cs)) ∧
      (writtenLines ctx cs).flatMap (·.words) =
        cs.flatMap (fun c => (words c.text.toList).map escapeClose)) ∧
    ∀ room c, ∃ texts, commentDocs room c = texts ++ (Page.links c).map ("See " ++ ·) ∧
      (∀ t ∈ texts, t.toList.length ≤ room ∨ (words t.toList).length ≤ 1) ∧
      texts.flatMap (fun t => words t.toList) = words c.text.toList := by
  refine ⟨fun d => outputLines_print d hindent s,
    fun n => Declaration.outputLines_afterRuns s.mem_comments layout.width n, fun ctx cs => ?_,
    fun room c => ?_⟩
  · refine ⟨Printing.writeComments_eq ctx cs, fun l hl => ?_, Printing.words_writtenLines ctx cs⟩
    exact Printing.keeps_of_isWritten (fun _ hc => hc) (Printing.isWritten_of_mem hl)
  · exact ⟨wrap room c.text, rfl, fun t ht => length_of_mem_wrap ht, words_wrap room c.text⟩

def narrow : Layout := ⟨20, "  "⟩

theorem comments_keep_width_narrow :
    '\n' ∉ narrow.indent.toList ∧
    (∃ added, (∀ l ∈ added, ShowsComment narrow (· ∈ linkedSchema.comments) l) ∧
      (outputLines (Printing.print (.flow "api") narrow linkedSchema).toList).Perm
        (added ++ outputLines (Printing.print (.flow "api") narrow linkedSchema.bare).toList)) ∧
    ∃ added, (∀ l ∈ added, ShowsDocs narrow.width (· ∈ linkedSchema.comments) l) ∧
      (outputLines (Generator.afterRuns linkedSchema narrow.width 2).text.toList).Perm
        (added ++
          outputLines (Generator.afterRuns linkedSchema.bare narrow.width 2).text.toList) := by
  have hindent : '\n' ∉ narrow.indent.toList := by decide
  obtain ⟨hprinted, hdeclared, -⟩ := comments_keep_width narrow hindent linkedSchema
  exact ⟨hindent, hprinted (.flow "api"), hdeclared 2⟩

end ApiTypings
