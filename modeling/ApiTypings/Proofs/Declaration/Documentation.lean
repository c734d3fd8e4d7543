import ApiTypings.Proofs.Declaration.Repeated
import ApiTypings.Proofs.Declaration.SourceText

/-!
# Documentation of declarations stays documentation

However often a schema is declared, the lines that are no documentation are those of the schema
without any. Struct and enum documentation is cut into lines before it is written. Descriptions
of properties and the documentation of types without properties are not, so a link target in
them must not hold a line feed.
-/
namespace ApiTypings

open Printing (Context EndsLine AddsLines outputLines outputLines_append_newline indented
  bareEntries)

theorem map_fst_bareEntries (es : List (String × ApiType)) :
    (bareEntries es).map Prod.fst = es.map Prod.fst := by
  rw [bareEntries, List.map_map]
  rfl

/-- The schema without its documentation. -/
def Schema.bare (s : Schema) : Schema :=
  ⟨bareEntries s.entries, (map_fst_bareEntries s.entries).symm ▸ s.nodup⟩

theorem Schema.names_bare (s : Schema) : s.bare.names = s.names := map_fst_bareEntries s.entries

namespace Declaration

theorem atLineStart_putDeclaration (ctx : Context) (d : Declaration) :
    (putDeclaration ctx d).atLineStart = true := by
  have hclose : withoutReturns "\x7d\n".toList = ['\x7d'] ++ ['\n'] := by decide
  obtain ⟨name, docs, body⟩ := d
  cases body with
  | struct fields =>
    simp only [putDeclaration, putBlock]
    exact atLineStart_put _ hclose
  | placeholder => exact atLineStart_putLine ctx _
  | enum variants => exact atLineStart_putLine ctx _
  | «alias» target => exact atLineStart_putLine ctx _

theorem addsLines_putDeclarations {P : List Char → Prop} {a b : Context} (h : AddsLines P a b)
    (hreturn : ∀ l, P l → P (withoutReturn l)) (hlayout : a.layout = blank.layout)
    (hdepth : a.depth = 0) (hstart : a.atLineStart = true) {ds : List Declaration}
    (hds : ∀ d ∈ ds, DocsShow P d) :
    AddsLines P (putDeclarations a ds) (putDeclarations b (ds.map undocumented)) ∧
      (putDeclarations a ds).atLineStart = true := by
  induction ds generalizing a b with
  | nil => exact ⟨h, hstart⟩
  | cons d ds ih =>
    obtain ⟨hd, hds⟩ := List.forall_mem_cons.mp hds
    have hfirst := addsLines_putDeclaration h hreturn hlayout hdepth hstart hd
    cases ds with
    | nil => exact ⟨hfirst, atLineStart_putDeclaration a d⟩
    | cons e ds =>
      have hframe := (continues_putDeclaration a d).trans (continues_put _ "\n")
      exact ih (hfirst.put "\n") (hframe.layout.trans hlayout) (hframe.depth.trans hdepth)
        (by rw [put_newline]; rfl) hds

/-- The line end that is left out at the end is that of an empty line. -/
theorem outputLines_withoutLastNewline {s : List Char} (hs : EndsLine s) (hne : s ≠ []) :
    outputLines s = outputLines (withoutLastNewline s) ++ outputLines [] := by
  rcases hs with rfl | ⟨u, rfl⟩
  · exact absurd rfl hne
  · rw [withoutLastNewline, if_pos List.getLast?_concat, List.dropLast_concat,
      outputLines_append_newline]

/-- Up to their order, the lines of declarations are those of the undocumented ones and those of
documentation. -/
theorem outputLines_declarationsText {P : List Char → Prop}
    (hreturn : ∀ l, P l → P (withoutReturn l)) {ds : List Declaration}
    (hds : ∀ d ∈ ds, DocsShow P d) :
    ∃ added, (∀ l ∈ added, P l) ∧ (outputLines (declarationsText ds).toList).Perm
      (added ++ outputLines (declarationsText (ds.map undocumented)).toList) := by
  let start := put (put blank importLine) "\n"
  have hline : start = (put blank importLine).newline := put_newline _
  have hbegin : AddsLines P start start := ((addsLines_blank P).put importLine).put "\n"
  have hframe := (continues_put blank importLine).trans (continues_put _ "\n")
  have hstart : start.atLineStart = true := by
    rw [hline]
    rfl
  have hne : ∀ ds, (putDeclarations start ds).code.toList ≠ [] := by
    intro ds hnil
    have hprefix := (continues_putDeclarations start ds).code
    rw [hnil, hline, Context.toList_newline, List.prefix_nil] at hprefix
    simp at hprefix
  obtain ⟨h, hend⟩ :=
    addsLines_putDeclarations hbegin hreturn hframe.layout hframe.depth hstart hds
  obtain ⟨ha, hb⟩ := h.endsLine hend
  obtain ⟨added, hadded, hlines⟩ := h.lines
  have hnone := hlines []
  rw [List.append_nil, List.append_nil, outputLines_withoutLastNewline ha (hne _),
    outputLines_withoutLastNewline hb (hne _), ← List.append_assoc] at hnone
  rw [declarationsText, declarationsText, String.toList_ofList, String.toList_ofList]
  exact ⟨added, hadded, (List.perm_append_right_iff _).mp hnone⟩

theorem docsShow_of_docsOnLines {d : Declaration} (hd : DocsOnLines d) :
    DocsShow (isDocLine · = true) d := by
  have hhead : ∀ l ∈ headLines d.docs, isDocLine l = true := by
    intro l hl
    obtain ⟨m, -, rfl⟩ := List.mem_map.mp hl
    exact isDocLine_margin (List.forall_mem_nil _) m
  obtain ⟨name, docs, body⟩ := d
  cases body with
  | struct fields =>
    refine ⟨hhead, fun f hf line hline l hl => ?_⟩
    rw [docPieces_of_not_mem (hd f hf line hline), List.mem_singleton] at hl
    rw [hl, indented, if_neg (by simp)]
    exact isDocLine_margin (by simp) line.toList
  | placeholder =>
    intro line hline l hl
    rw [String.toList_append, Printing.outputLines_of_not_mem (by simpa using hd line hline),
      List.mem_singleton] at hl
    rw [hl]
    exact isDocLine_margin (List.forall_mem_nil _) line.toList
  | enum variants => exact hhead
  | «alias» target => trivial

theorem sourceLines_declarationsText {ds : List Declaration} (hds : ∀ d ∈ ds, DocsOnLines d) :
    (sourceLines (declarationsText ds).toList).Perm
      (sourceLines (declarationsText (ds.map undocumented)).toList) := by
  have hreturn : ∀ l, isDocLine l = true → isDocLine (withoutReturn l) = true := by
    intro l hl
    rw [isDocLine_withoutReturn, hl]
  obtain ⟨added, hadded, hlines⟩ :=
    outputLines_declarationsText hreturn fun d hd => docsShow_of_docsOnLines (hds d hd)
  have hnone : added.filter (fun l => !isDocLine l) = [] :=
    List.filter_eq_nil_iff.mpr fun l hl => by simp [hadded l hl]
  have hkept := hlines.filter (fun l => !isDocLine l)
  rwa [List.filter_append, hnone, List.nil_append] at hkept

/-- However often it is declared, a schema without documentation has the declarations of the
schema, undocumented. -/
theorem undocuments_afterRuns_of {width : Nat} {C : DocComment → Prop} {E : ApiType → Prop}
    {Q : Declaration → Prop} (hrule : DocRule width C E Q) {s : Schema}
    (hs : ∀ e ∈ s.entries, E e.2) (width' n : Nat) :
    Undocuments Q
      ((Generator.afterRuns s width n).declarations, (Generator.afterRuns s width n).taken)
      ((Generator.afterRuns s.bare width' n).declarations,
        (Generator.afterRuns s.bare width' n).taken) := by
  induction n with
  | zero => exact ⟨rfl, s.names_bare, by simp [Generator.afterRuns, Generator.new]⟩
  | succ n ih =>
    have htaken : (Generator.afterRuns s.bare width' n).taken =
        (Generator.afterRuns s width n).taken := ih.taken
    have hrun := undocuments_declareEntries width' hrule hs (Generator.afterRuns s width n).taken
    rw [Generator.declarations_afterRuns_succ, Generator.declarations_afterRuns_succ,
      Generator.taken_afterRuns_succ, Generator.taken_afterRuns_succ, htaken]
    exact ih.append hrun

theorem undocuments_afterRuns {s : Schema}
    (hs : ∀ e ∈ s.entries, ∀ c ∈ e.2.verbatimDocs, c.LinksOnLines) (width width' n : Nat) :
    Undocuments DocsOnLines
      ((Generator.afterRuns s width n).declarations, (Generator.afterRuns s width n).taken)
      ((Generator.afterRuns s.bare width' n).declarations,
        (Generator.afterRuns s.bare width' n).taken) :=
  undocuments_afterRuns_of (docRule_docsOnLines width) hs width' n

/-- Up to their order, the lines of a schema that are no documentation are those of the schema
without documentation, whatever the widths and however often it is declared, if the links of
descriptions and of types without properties are on one line each. -/
theorem sourceLines_afterRuns {s : Schema}
    (hs : ∀ e ∈ s.entries, ∀ c ∈ e.2.verbatimDocs, c.LinksOnLines) (width width' n : Nat) :
    (sourceLines (Generator.afterRuns s width n).text.toList).Perm
      (sourceLines (Generator.afterRuns s.bare width' n).text.toList) := by
  have h := undocuments_afterRuns hs width width' n
  have hbare : (Generator.afterRuns s.bare width' n).declarations =
      (Generator.afterRuns s width n).declarations.map undocumented := h.declarations
  rw [Generator.text, Generator.text, hbare]
  exact sourceLines_declarationsText h.docs

/-- A comment that consists of a link. -/
def linkTo (target : String) : DocComment := ⟨"<a href=\"" ++ target ++ "\">x</a>", "x"⟩

/-- A record and an unknown type with links. The line feed in the link of the record is cut. -/
def linkedSchema : Schema :=
  ⟨[("Chat", .record [⟨"id", .union [.scalar .integer, .scalar .string] [], true,
      some (linkTo "#id")⟩] [linkTo "#chat\nmore"]), ("Empty", .any [linkTo "#empty"])], by simp⟩

theorem sourceLines_afterRuns_linkedSchema :
    (∀ e ∈ linkedSchema.entries, ∀ c ∈ e.2.verbatimDocs, c.LinksOnLines) ∧
      (sourceLines (Generator.afterRuns linkedSchema 72 2).text.toList).Perm
        (sourceLines (Generator.afterRuns linkedSchema.bare 0 2).text.toList) := by
  have hid : (linkTo "#id").LinksOnLines := by
    unfold DocComment.LinksOnLines
    decide +kernel
  have hempty : (linkTo "#empty").LinksOnLines := by
    unfold DocComment.LinksOnLines
    decide +kernel
  have hlinks : ∀ e ∈ linkedSchema.entries, ∀ c ∈ e.2.verbatimDocs, c.LinksOnLines :=
    List.forall_mem_cons.mpr ⟨List.forall_mem_singleton.mpr hid,
      List.forall_mem_singleton.mpr (List.forall_mem_singleton.mpr hempty)⟩
  exact ⟨hlinks, sourceLines_afterRuns hlinks 72 0 2⟩

/-- The text of a single type without properties. -/
theorem toList_declarationsText_placeholder (name : String) (docs : List String) :
    (declarationsText [⟨name, docs, .placeholder⟩]).toList = importLine.toList ++
      '\n' :: withoutReturns (placeholderText ⟨name, docs, .placeholder⟩).toList := by
  let start := put blank importLine
  have hdepth : start.newline.depth = 0 :=
    (Context.depth_newline start).trans (continues_put blank importLine).depth
  have himport : start.code.toList = importLine.toList := by
    have hreturns : withoutReturns importLine.toList = importLine.toList := by decide
    rw [toList_put_of_depth rfl, hreturns]
    rfl
  rw [declarationsText, String.toList_ofList, putDeclarations, putDeclaration, putLine,
    put_newline, put_newline, Context.toList_newline, toList_put_of_depth hdepth,
    Context.toList_newline, himport, withoutLastNewline, if_pos List.getLast?_concat,
    List.dropLast_concat, List.append_assoc, List.singleton_append]

/-- An unknown type with a line feed in a link. -/
def brokenSchema : Schema := ⟨[("Empty", .any [linkTo "#a\nb"])], by simp⟩

/-- The line feed ends the line of documentation, and what follows it becomes source. -/
theorem sourceLines_brokenSchema :
    ¬(sourceLines (Generator.afterRuns brokenSchema 72 1).text.toList).Perm
      (sourceLines (Generator.afterRuns brokenSchema.bare 72 1).text.toList) := by
  have hdeclared : (Generator.afterRuns brokenSchema 72 1).declarations =
      [⟨"Empty", ["x", "See https://core.telegram.org/bots/api#a\nb"], .placeholder⟩] := by
    decide +kernel
  have hbare : (Generator.afterRuns brokenSchema.bare 72 1).declarations =
      [⟨"Empty", [], .placeholder⟩] := by
    decide +kernel
  rw [Generator.text, Generator.text, hdeclared, hbare, toList_declarationsText_placeholder,
    toList_declarationsText_placeholder]
  decide +kernel

end Declaration

end ApiTypings
