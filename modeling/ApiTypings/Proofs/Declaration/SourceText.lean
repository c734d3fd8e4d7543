import ApiTypings.Proofs.Declaration.Continuing
import ApiTypings.Proofs.Declaration.SourceLines
import ApiTypings.Proofs.Declaration.Undocumented
import ApiTypings.Proofs.Printing.AddedLines

/-!
# Documentation in the text of declarations

Declarations are written beside themselves without documentation: equal text on both sides, and
on the first one the lines of documentation as well. The attribute of an enum goes behind the
first line that reads like the derive line, which may be one of the documentation; so lines
are compared up to their order.
-/
namespace ApiTypings

open Text
open Printing (Context AddsLines outputLines outputLines_append_newline indented)

namespace Declaration

theorem put_eq_foldl (ctx : Context) (s : String) :
    put ctx s = (withoutReturns s.toList).foldl Context.writeChar ctx := by
  rw [put, Context.write_eq_foldl, String.toList_ofList]

theorem toList_put_of_depth {ctx : Context} (h : ctx.depth = 0) (s : String) :
    (put ctx s).code.toList = ctx.code.toList ++ withoutReturns s.toList := by
  rw [put, ctx.toList_write_of_depth h, String.toList_ofList]

/-- Text with a line end as its last character brings the output to the start of a line. -/
theorem atLineStart_put (ctx : Context) {s : String} {t : List Char}
    (hs : withoutReturns s.toList = t ++ ['\n']) : (put ctx s).atLineStart = true := by
  rw [put_eq_foldl, hs, List.foldl_append]
  rfl

theorem put_newline (ctx : Context) : put ctx "\n" = ctx.newline := by
  have hnewline : withoutReturns "\n".toList = ['\n'] := by decide
  rw [put_eq_foldl, hnewline]
  rfl

theorem atLineStart_putOpen (ctx : Context) : (putOpen ctx).atLineStart = true := by
  have hline : withoutReturns "\x7b\n".toList = ['\x7b'] ++ ['\n'] := by decide
  exact atLineStart_put _ hline

theorem atLineStart_putLine (ctx : Context) (s : String) : (putLine ctx s).atLineStart = true := by
  rw [putLine, put_newline]
  rfl

theorem atLineStart_putDoc (ctx : Context) (line : String) :
    (putDoc ctx line).atLineStart = true :=
  atLineStart_putLine _ line

/-- Writes a field without its documentation. -/
def putFieldCode (ctx : Context) (f : Field) : Context :=
  let ctx := match f.wireName with
    | none => ctx
    | some name => putLine ctx ("#[serde(rename = \"" ++ name ++ "\")]")
  put (put (put (put (put ctx "pub ") f.identifier) ": ") f.type.text) ",\n"

theorem putField_eq (ctx : Context) (f : Field) :
    putField ctx f = putFieldCode (f.docs.foldl putDoc ctx) f := rfl

theorem atLineStart_putField (ctx : Context) (f : Field) :
    (putField ctx f).atLineStart = true := by
  have hline : withoutReturns ",\n".toList = [','] ++ ['\n'] := by decide
  rw [putField_eq, putFieldCode]
  exact atLineStart_put _ hline

theorem putLine_eq (ctx : Context) (s : String) :
    putLine ctx s = ((withoutReturns s.toList).foldl Context.writeChar ctx).newline := by
  rw [putLine, put_newline, put_eq_foldl]

/-- The lines as which one line of documentation is written. -/
def docPieces (line : String) : List (List Char) :=
  outputLines ("/// ".toList ++ withoutReturns line.toList)

theorem docPieces_of_not_mem {line : String} (h : '\n' ∉ line.toList) :
    docPieces line = ["/// ".toList ++ line.toList] := by
  rw [docPieces, withoutReturns_of_not_mem h, Printing.outputLines_of_not_mem (by simp [h])]

theorem putDoc_eq (ctx : Context) (line : String) : putDoc ctx line =
    (("/// ".toList ++ withoutReturns line.toList).foldl Context.writeChar ctx).newline := by
  have hsign : withoutReturns "/// ".toList = "/// ".toList := by decide
  rw [putDoc, putLine_eq, put_eq_foldl, hsign, List.foldl_append]

/-- The lines of documentation above a struct or enum, which is cut into lines first. -/
def headLines (docs : List String) : List (List Char) :=
  (lines (String.intercalate "\n" docs).toList).map ("/// ".toList ++ ·)

theorem margin_eq_of_continues {a b : Context} (h : Continues a b) : b.margin = a.margin :=
  Context.margin_congr h.layout h.depth

end Declaration

/-! ### Writing beside undocumented text -/

namespace Printing.AddsLines

open Declaration

variable {P : List Char → Prop} {a b : Context}

theorem put (h : AddsLines P a b) (s : String) :
    AddsLines P (Declaration.put a s) (Declaration.put b s) := by
  rw [put_eq_foldl, put_eq_foldl]
  exact h.foldl_writeChar _

theorem putLine (h : AddsLines P a b) (s : String) :
    AddsLines P (Declaration.putLine a s) (Declaration.putLine b s) :=
  (h.put s).put "\n"

/-- Documentation on the first side only. -/
theorem putDocLines (h : AddsLines P a b) (hstart : a.atLineStart = true) {docs : List String}
    (hdocs : ∀ line ∈ docs, ∀ l ∈ docPieces line, P (indented a.margin.toList l)) :
    AddsLines P (docs.foldl putDoc a) b ∧ (docs.foldl putDoc a).atLineStart = true := by
  induction docs generalizing a with
  | nil => exact ⟨h, hstart⟩
  | cons line docs ih =>
    obtain ⟨hline, hdocs⟩ := List.forall_mem_cons.mp hdocs
    have hfirst : AddsLines P (putDoc a line) b := by
      rw [putDoc_eq]
      exact h.writeText hstart hline
    rw [← margin_eq_of_continues (continues_putDoc a line)] at hdocs
    rw [List.foldl_cons]
    exact ih hfirst (atLineStart_putDoc a line) hdocs

theorem putFieldCode (h : AddsLines P a b) (f : Field) :
    AddsLines P (Declaration.putFieldCode a f) (Declaration.putFieldCode b f) := by
  unfold Declaration.putFieldCode
  cases f.wireName with
  | none => exact ((((h.put "pub ").put f.identifier).put ": ").put f.type.text).put ",\n"
  | some name =>
    exact (((((h.putLine _).put "pub ").put f.identifier).put ": ").put f.type.text).put ",\n"

theorem putFields (h : AddsLines P a b) (hstart : a.atLineStart = true) {fields : List Field}
    (hdocs : ∀ f ∈ fields, ∀ line ∈ f.docs, ∀ l ∈ docPieces line,
      P (indented a.margin.toList l)) :
    AddsLines P (fields.foldl putField a)
      ((fields.map Field.undocumented).foldl putField b) := by
  induction fields generalizing a b with
  | nil => exact h
  | cons f fields ih =>
    obtain ⟨hf, hfields⟩ := List.forall_mem_cons.mp hdocs
    have hfirst : AddsLines P (putField a f) (putField b f.undocumented) :=
      (h.putDocLines hstart hf).1.putFieldCode f
    rw [← margin_eq_of_continues (continues_putField a f)] at hfields
    rw [List.map_cons, List.foldl_cons, List.foldl_cons]
    exact ih hfirst (atLineStart_putField a f) hfields

theorem putVariants (h : AddsLines P a b) (variants : List Variant) :
    AddsLines P (variants.foldl putVariant a) (variants.foldl putVariant b) := by
  induction variants generalizing a b with
  | nil => exact h
  | cons v variants ih =>
    rw [List.foldl_cons, List.foldl_cons]
    exact ih ((((h.put v.name).put "(").put v.payload.text).put "),\n")

theorem putHead (h : AddsLines P a b) (hdepth : a.depth = 0) (hstart : a.atLineStart = true)
    (keyword : String) {d : Declaration} (hd : ∀ l ∈ headLines d.docs, P l) :
    AddsLines P (Declaration.putHead a keyword d)
      (Declaration.putHead b keyword d.undocumented) := by
  have hmargin : a.margin.toList = [] := by
    rw [a.margin_of_depth hdepth]
    rfl
  have hlines : ∀ line ∈ (Text.lines (String.intercalate "\n" d.docs).toList).map String.ofList,
      ∀ l ∈ docPieces line, P (indented a.margin.toList l) := by
    intro line hline l hl
    obtain ⟨m, hm, rfl⟩ := List.mem_map.mp hline
    have hline : (String.ofList m).toList = m := String.toList_ofList
    have hnewline : '\n' ∉ (String.ofList m).toList := by
      rw [hline]
      exact newline_of_mem_lines hm
    rw [docPieces_of_not_mem hnewline, hline, List.mem_singleton] at hl
    rw [hl, hmargin, indented_nil]
    exact hd _ (List.mem_map_of_mem hm)
  exact (((h.putDocLines hstart hlines).1.put _).put _).put _

theorem putOpen (h : AddsLines P a b) :
    AddsLines P (Declaration.putOpen a) (Declaration.putOpen b) := by
  unfold Declaration.putOpen
  rw [← h.atLineStart]
  split
  · exact h.put _
  · exact (h.put " ").put _

theorem putBlock (h : AddsLines P a b) {content content' : Context → Context}
    (hcontent : ∀ a' b' : Context, AddsLines P a' b' → a'.atLineStart = true →
      a'.layout = a.layout → a'.depth = a.depth + 1 → AddsLines P (content a') (content' b')) :
    AddsLines P (Declaration.putBlock a content) (Declaration.putBlock b content') := by
  have hopened := h.putOpen.nest
  have hstart := atLineStart_putOpen a
  have hframe := continues_putOpen a
  have hinside := hcontent _ _ hopened ((Context.atLineStart_nest _).trans hstart) hframe.layout
    (congrArg (· + 1) hframe.depth)
  exact hinside.unnest.put "\x7d\n"

/-- Two texts can be written where a line begins, each with the line end behind it, if the lines
of the first are those of the second and some with the property. -/
theorem putTexts (h : AddsLines P a b) (hreturn : ∀ l, P l → P (withoutReturn l))
    (hdepth : a.depth = 0) (hstart : a.atLineStart = true) {s t : String}
    {added : List (List Char)} (hs : s.toList.getLast? ≠ some '\r')
    (ht : t.toList.getLast? ≠ some '\r')
    (hst : (outputLines s.toList).Perm (added ++ outputLines t.toList))
    (hadded : ∀ l ∈ added, P l) :
    AddsLines P (Declaration.putLine a s) (Declaration.putLine b t) := by
  have hmargin : indented a.margin.toList = id := by
    funext l
    rw [a.margin_of_depth hdepth]
    exact indented_nil l
  have hwritten := hst.map withoutReturn
  rw [List.map_append, ← outputLines_withoutReturns hs, ← outputLines_withoutReturns ht] at hwritten
  have hreturned : ∀ l ∈ added.map withoutReturn, P l := by
    intro l hl
    obtain ⟨m, hm, rfl⟩ := List.mem_map.mp hl
    exact hreturn m (hadded m hm)
  rw [putLine_eq, putLine_eq]
  refine h.writeTexts hstart ?_ hreturned
  rw [hmargin, List.map_id, List.map_id]
  exact hwritten

end Printing.AddsLines

namespace Declaration

/-! ### Enums and placeholders -/

/-- The lines of an enum as it is written before its attribute is put in. -/
def enumCode (d : Declaration) (variants : List Variant) : List Char :=
  (putBlock (putHead blank "enum" d) (fun ctx => variants.foldl putVariant ctx)).code.toList

theorem addsLines_blank (P : List Char → Prop) : AddsLines P blank blank :=
  AddsLines.refl (by decide) fun _ => Or.inl rfl

theorem exists_enumCode_eq (d : Declaration) (variants : List Variant) :
    ∃ docs code, enumCode d variants = docs ++ deriveLine.toList ++ (code ++ ['\x7d', '\n']) := by
  let documented := putDocs blank d.docs
  let derived := put documented deriveLine
  let named := put (put derived "pub enum ") d.name
  let closed := (variants.foldl putVariant (putOpen named).nest).unnest
  have hdocumented : Continues blank documented := Continues.foldl continues_putDoc _ blank
  have hderived : derived.code.toList = documented.code.toList ++ deriveLine.toList :=
    toList_put_of_depth hdocumented.depth deriveLine
  have hclosed : Continues derived closed :=
    ((continues_put derived _).trans (continues_put _ _)).trans
      (continues_block named (Continues.foldl continues_putVariant variants))
  have hdepth : closed.depth = 0 :=
    hclosed.depth.trans ((continues_put documented deriveLine).depth.trans hdocumented.depth)
  have hbrace : withoutReturns "\x7d\n".toList = ['\x7d', '\n'] := by decide
  have hcode : enumCode d variants = closed.code.toList ++ ['\x7d', '\n'] :=
    (toList_put_of_depth hdepth "\x7d\n").trans (congrArg _ hbrace)
  obtain ⟨code, hrest⟩ := hclosed.code
  refine ⟨documented.code.toList, code, ?_⟩
  rw [hcode, ← hrest, hderived, List.append_assoc, List.append_assoc]

theorem trimEnd_brace (s : List Char) : trimEnd (s ++ ['\x7d', '\n']) = s ++ ['\x7d'] := by
  have hreverse : (s ++ ['\x7d', '\n']).reverse = '\n' :: '\x7d' :: s.reverse := by simp
  rw [trimEnd, hreverse, List.dropWhile_cons_of_pos (by decide),
    List.dropWhile_cons_of_neg (by decide), List.reverse_cons, List.reverse_reverse]

/-- The attribute is one more line. -/
theorem outputLines_enumText (d : Declaration) (variants : List Variant) :
    (outputLines ((enumText d variants).toList ++ ['\n'])).Perm
        (outputLines "#[serde(untagged)]".toList ++ outputLines (enumCode d variants)) ∧
      (enumText d variants).toList.getLast? = some '\x7d' := by
  let derive := "#[derive(Serialize, Deserialize, Debug, Clone)]".toList
  let untagged := "#[serde(untagged)]".toList
  have hderive : deriveLine.toList = derive ++ ['\n'] := by decide
  have hboth : (deriveLine ++ untaggedLine).toList = derive ++ '\n' :: (untagged ++ ['\n']) := by
    decide
  obtain ⟨docs, code, hcode⟩ := exists_enumCode_eq d variants
  obtain ⟨before, after, hsplit, hreplaced⟩ := replaceFirst_append (by simp [hderive] :
    deriveLine.toList ≠ []) (deriveLine ++ untaggedLine).toList docs (code ++ ['\x7d', '\n'])
  let rest := after ++ (code ++ ['\x7d'])
  have htext : (enumText d variants).toList =
      before ++ derive ++ '\n' :: (untagged ++ '\n' :: rest) := by
    have hwritten : (putBlock (putHead blank "enum" d)
        (fun ctx => variants.foldl putVariant ctx)).code.toList = _ := hcode
    rw [enumText, String.toList_ofList, hwritten, hreplaced, ← List.append_assoc, trimEnd_brace,
      hboth]
    simp [rest]
  have hcode' : enumCode d variants = before ++ derive ++ '\n' :: (rest ++ ['\n']) := by
    rw [hcode, hsplit, hderive]
    simp [rest]
  constructor
  · have hended : (enumText d variants).toList ++ ['\n'] =
        before ++ derive ++ '\n' :: (untagged ++ '\n' :: (rest ++ ['\n'])) := by
      rw [htext]
      simp
    rw [hended, hcode', outputLines_append_newline (before ++ derive),
      outputLines_append_newline untagged, outputLines_append_newline (before ++ derive)]
    exact List.perm_append_comm_assoc _ _ _
  · have hrest : rest.getLast? = some '\x7d' := by simp [rest]
    rw [htext]
    simp [List.getLast?_append, List.getLast?_cons, hrest]

/-- Up to their order, an enum has the lines of the undocumented one and those of its
documentation. -/
theorem outputLines_enumText_undocumented {P : List Char → Prop} {d : Declaration}
    (hd : ∀ l ∈ headLines d.docs, P l) (variants : List Variant) :
    ∃ added, (∀ l ∈ added, P l) ∧ (outputLines (enumText d variants).toList).Perm
      (added ++ outputLines (enumText d.undocumented variants).toList) := by
  have hhead := (addsLines_blank P).putHead rfl rfl "enum" hd
  have hblock := hhead.putBlock fun _ _ h _ _ _ => h.putVariants variants
  obtain ⟨added, hadded, hlines⟩ := hblock.lines
  have hcode : (outputLines (enumCode d variants)).Perm
      (added ++ outputLines (enumCode d.undocumented variants)) := by
    have hnone := hlines []
    rwa [List.append_nil, List.append_nil] at hnone
  have hended : ∀ s : List Char, outputLines (s ++ ['\n']) = outputLines s ++ outputLines [] :=
    fun s => outputLines_append_newline s []
  have h := ((outputLines_enumText d variants).1.trans (hcode.append_left _)).trans
    (List.perm_append_comm_assoc _ _ _)
  have h' := h.trans ((outputLines_enumText d.undocumented variants).1.symm.append_left added)
  rw [hended, hended, ← List.append_assoc] at h'
  exact ⟨added, hadded, (List.perm_append_right_iff _).mp h'⟩

theorem outputLines_intercalate {ls : List String} (hne : ls ≠ []) :
    outputLines (String.intercalate "\n" ls).toList =
      ls.flatMap (fun l => outputLines l.toList) := by
  induction ls with
  | nil => contradiction
  | cons l ls ih =>
    cases ls with
    | nil => rw [String.intercalate_singleton, List.flatMap_singleton]
    | cons k ls =>
      have hend : "\n".toList = ['\n'] := by decide
      rw [String.intercalate_cons_of_ne_nil (by simp), String.toList_append, String.toList_append,
        hend, List.append_assoc, List.singleton_append, outputLines_append_newline, ih (by simp)]
      rfl

/-- Documentation in front of an empty struct adds its own lines. -/
theorem outputLines_placeholderText (name : String) (docs : List String) :
    outputLines (placeholderText ⟨name, docs, .placeholder⟩).toList =
      docs.flatMap (fun l => outputLines ("/// " ++ l).toList) ++
        outputLines (placeholderText ⟨name, [], .placeholder⟩).toList := by
  rw [placeholderText, placeholderText, outputLines_intercalate (by simp),
    outputLines_intercalate (by simp), List.flatMap_append, List.flatMap_map]
  rfl

theorem getLast?_placeholderText (d : Declaration) :
    (placeholderText d).toList.getLast? = some '\x7d' := by
  have hsplit : ∀ x y : String, d.docs.map (fun line => "/// " ++ line) ++ [x, y] =
      (d.docs.map (fun line => "/// " ++ line) ++ [x]) ++ [y] := by simp
  have hlast : ("pub struct " ++ d.name ++ " \x7b\x7d").toList.getLast? = some '\x7d' := by
    rw [String.toList_append, List.getLast?_append]
    rfl
  rw [placeholderText, hsplit, String.intercalate_append_of_ne_nil (by simp) (by simp),
    String.intercalate_singleton, String.toList_append, List.getLast?_append, hlast]
  rfl

/-- What the documentation of a declaration adds has a property, line by line. The documentation
of an alias is not written. -/
def DocsShow (P : List Char → Prop) (d : Declaration) : Prop :=
  match d.body with
  | .struct fields => (∀ l ∈ headLines d.docs, P l) ∧
    ∀ f ∈ fields, ∀ line ∈ f.docs, ∀ l ∈ docPieces line, P (indented "    ".toList l)
  | .placeholder => ∀ line ∈ d.docs, ∀ l ∈ outputLines ("/// " ++ line).toList, P l
  | .enum _ => ∀ l ∈ headLines d.docs, P l
  | .alias _ => True

theorem addsLines_putDeclaration {P : List Char → Prop} {a b : Context}
    (h : AddsLines P a b) (hreturn : ∀ l, P l → P (withoutReturn l))
    (hlayout : a.layout = blank.layout) (hdepth : a.depth = 0) (hstart : a.atLineStart = true)
    {d : Declaration} (hd : DocsShow P d) :
    AddsLines P (putDeclaration a d) (putDeclaration b d.undocumented) := by
  obtain ⟨name, docs, body⟩ := d
  cases body with
  | struct fields =>
    have hhead : AddsLines P (putHead a "struct" ⟨name, docs, .struct fields⟩)
        (putHead b "struct" ⟨name, [], .struct _⟩) := h.putHead hdepth hstart "struct" hd.1
    have hframe := continues_putHead a "struct" ⟨name, docs, .struct fields⟩
    refine hhead.putBlock fun a' b' h' hstart' hlayout' hdepth' => h'.putFields hstart' ?_
    have hmargin : a'.margin.toList = "    ".toList := by
      have hl : a'.layout = blank.layout := hlayout'.trans (hframe.layout.trans hlayout)
      have hd' : a'.depth = 1 := by rw [hdepth', hframe.depth, hdepth]
      rw [Context.margin, hl, hd']
      decide
    rw [hmargin]
    exact hd.2
  | placeholder =>
    have hlines := List.Perm.of_eq (outputLines_placeholderText name docs)
    refine h.putTexts hreturn hdepth hstart ?_ ?_ hlines ?_
    · simp [getLast?_placeholderText]
    · simp [getLast?_placeholderText]
    · intro l hl
      obtain ⟨line, hline, hl⟩ := List.mem_flatMap.mp hl
      exact hd line hline l hl
  | enum variants =>
    obtain ⟨added, hadded, hlines⟩ :=
      outputLines_enumText_undocumented (d := ⟨name, docs, .enum variants⟩) hd variants
    refine h.putTexts hreturn hdepth hstart ?_ ?_ hlines hadded
    · simp [(outputLines_enumText _ variants).2]
    · simp [(outputLines_enumText _ variants).2]
  | «alias» target => exact h.putLine _

end Declaration

end ApiTypings
