import ApiTypings.Rendering
import ApiTypings.Page.Basic
import ApiTypings.Proofs.Page.Shape
import ApiTypings.Proofs.Printing.Code
import ApiTypings.Proofs.Printing.Documentation

/-!
# Lines of entries

The printed form of a schema that a page can describe, line by line: an entry is one line, or
a record with a line for each property. Documentation leaves these lines as they are.
-/
namespace ApiTypings.Printing

open Text
open Page (IsItem IsCellType IsEntryType isIdentifier isIdentifierChar isIdentifier_iff
  forall_isItem_of_names isBlank_of_isIdentifierChar)

mutual

/-- A type on one line, without the properties of records. -/
def typeText : ApiType → List Char
  | .scalar s => (scalarWord s).toList
  | .any _ => "any".toList
  | .named n _ => n.toList
  | .array t _ => "Array<".toList ++ typeText t ++ ">".toList
  | .union ms _ => membersText ms
  | .record _ _ => "\x7b\x7d".toList

def membersText : List ApiType → List Char
  | [] => []
  | [t] => typeText t
  | t :: u :: ts => typeText t ++ " | ".toList ++ membersText (u :: ts)

end

theorem typeText_array (t : ApiType) (cs : List DocComment) :
    typeText (.array t cs) = "Array<".toList ++ typeText t ++ ">".toList := rfl

theorem typeText_union (ms : List ApiType) (cs : List DocComment) :
    typeText (.union ms cs) = membersText ms := rfl

theorem membersText_cons_cons (t u : ApiType) (ts : List ApiType) :
    membersText (t :: u :: ts) = typeText t ++ " | ".toList ++ membersText (u :: ts) := rfl

def propertyLine (p : Property) : List Char :=
  p.name.toList ++ (if p.optional then "?: " else ": ").toList ++ typeText p.type ++ ",".toList

/-- What stands behind the head of an entry on its first line. -/
def opening (tail : List Char) : ApiType → List Char
  | .record (_ :: _) _ => "\x7b".toList
  | t => typeText t ++ tail

/-- The lines of an entry after the first. -/
def following (tail : List Char) : ApiType → List (List Char)
  | .record (p :: ps) _ => (p :: ps).map propertyLine ++ ["\x7d".toList ++ tail]
  | _ => []

/-- The lines of an entry. -/
def entryLines (d : Dialect) (name : String) (t : ApiType) : List (List Char) :=
  let frame := d.frame name t
  (frame.head.toList ++ opening frame.tail.toList t) :: following frame.tail.toList t

/-- Whether writing a type is writing its text. -/
def IsWrittenInline (t : ApiType) : Prop :=
  ∀ ctx : Context, writeType ctx t = (typeText t).foldl Context.writeChar ctx

theorem isWrittenInline_of_isItem {known : String → Prop} {t : ApiType} (h : IsItem known t) :
    IsWrittenInline t := by
  cases h with
  | scalar s => exact fun ctx => ctx.write_eq_foldl _
  | named h => exact fun ctx => ctx.write_eq_foldl _

theorem writeMembers_eq {ms : List ApiType} (h : ∀ m ∈ ms, IsWrittenInline m) (ctx : Context) :
    writeMembers ctx ms = (membersText ms).foldl Context.writeChar ctx := by
  induction ms generalizing ctx with
  | nil => rfl
  | cons m ms ih =>
    obtain ⟨hm, hms⟩ := List.forall_mem_cons.mp h
    cases ms with
    | nil => exact hm ctx
    | cons n ms =>
      rw [writeMembers, hm, ctx.foldl_writeChar_write, ih hms, ← List.foldl_append,
        membersText_cons_cons]

theorem isWrittenInline_of_isCellType {known : String → Prop} {t : ApiType}
    (h : IsCellType known t) : IsWrittenInline t := by
  induction h with
  | item h => exact isWrittenInline_of_isItem h
  | union hlen h => exact writeMembers_eq fun m hm => isWrittenInline_of_isItem (h m hm)
  | array h ih =>
    intro ctx
    rw [writeType, ih, Context.foldl_writeChar_write, Context.write_eq_foldl,
      ← List.foldl_append, typeText_array, List.append_assoc]

theorem IsNameText.isPlainText {s : String} (h : IsNameText s) : IsPlainText s.toList :=
  ⟨fun hc => absurd (h _ hc) (by decide), h.slash⟩

theorem isCodeLine_frame (d : Dialect) {name : String} (hname : IsNameText name) (t : ApiType) :
    IsCodeLine (d.frame name t).head.toList ∧ IsPlainText (d.frame name t).tail.toList := by
  have hplain := hname.isPlainText
  have hhead : ∀ {s u : String}, IsCodeLine s.toList → IsPlainText u.toList →
      IsCodeLine (s ++ name ++ u).toList := by
    intro s u hs hu
    rw [String.toList_append, String.toList_append]
    exact (hs.append hplain).append hu
  have hnone : IsPlainText "".toList := ⟨by decide, by decide⟩
  have hend : IsPlainText ";".toList := ⟨by decide, by decide⟩
  have hblank : IsPlainText " ".toList := ⟨by decide, by decide⟩
  have hequals : IsPlainText " = ".toList := ⟨by decide, by decide⟩
  cases d with
  | typeScript =>
    rw [frame_typeScript]
    split
    · exact ⟨hhead ⟨⟨by decide, by decide⟩, 'e', rfl, by decide⟩ hblank, hnone⟩
    · exact ⟨hhead ⟨⟨by decide, by decide⟩, 'e', rfl, by decide⟩ hequals, hend⟩
  | flow m =>
    rw [frame_flow]
    exact ⟨hhead ⟨⟨by decide, by decide⟩, 'd', rfl, by decide⟩ hequals, hnone⟩

section Known

variable {known : String → Prop} (hknown : ∀ n, known n → IsNameText n)

include hknown

theorem isPlainText_of_isItem {t : ApiType} (h : IsItem known t) : IsPlainText (typeText t) := by
  cases h with
  | scalar s => cases s <;> exact ⟨by decide, by decide⟩
  | named h => exact (hknown _ h).isPlainText

theorem isPlainText_membersText {ms : List ApiType} (h : ∀ m ∈ ms, IsItem known m) :
    IsPlainText (membersText ms) := by
  induction ms with
  | nil => exact ⟨List.not_mem_nil, List.not_mem_nil⟩
  | cons m ms ih =>
    obtain ⟨hm, hms⟩ := List.forall_mem_cons.mp h
    have hfirst := isPlainText_of_isItem hknown hm
    cases ms with
    | nil => exact hfirst
    | cons n ms => exact (hfirst.append ⟨by decide, by decide⟩).append (ih hms)

theorem isPlainText_of_isCellType {t : ApiType} (h : IsCellType known t) :
    IsPlainText (typeText t) := by
  induction h with
  | item h => exact isPlainText_of_isItem hknown h
  | union hlen h => exact isPlainText_membersText hknown h
  | array h ih =>
    have hopen : IsPlainText "Array<".toList := ⟨by decide, by decide⟩
    exact (hopen.append ih).append ⟨by decide, by decide⟩

theorem isCodeLine_propertyLine {p : Property} (hname : isIdentifier p.name.toList = true)
    (htype : IsCellType known p.type) : IsCodeLine (propertyLine p) := by
  have hmark : IsPlainText (if p.optional then "?: " else ": ").toList := by
    cases p.optional <;> exact ⟨by decide, by decide⟩
  have hcomma : IsPlainText ",".toList := ⟨by decide, by decide⟩
  obtain ⟨hne, hall⟩ := isIdentifier_iff.mp hname
  obtain ⟨c, t, hcons⟩ := List.exists_cons_of_ne_nil hne
  have hfirst : IsCodeLine p.name.toList := by
    refine ⟨(isNameText_of_isIdentifier hname).isPlainText, c, by rw [hcons]; rfl, ?_⟩
    exact isBlank_of_isIdentifierChar (hall c (by simp [hcons]))
  exact ((hfirst.append hmark).append (isPlainText_of_isCellType hknown htype)).append hcomma

variable {ctx : Context} (hindent : ∀ c ∈ ctx.layout.indent.toList, isBlank c = true)
  (hstart : ctx.atLineStart = true)

include hindent hstart

/-- A property is one line of code behind its documentation. -/
theorem addsCode_writeProperties {ps : List Property}
    (h : ∀ p ∈ ps, isIdentifier p.name.toList = true ∧ IsCellType known p.type) :
    AddsCode ctx (writeProperties ctx ps) (ps.map propertyLine) := by
  induction ps generalizing ctx with
  | nil => exact .refl hstart
  | cons p ps ih =>
    obtain ⟨⟨hname, htype⟩, hps⟩ := List.forall_mem_cons.mp h
    have hline := isCodeLine_propertyLine hknown hname htype
    obtain ⟨name, type, optional, description⟩ := p
    let described := writeDescription ctx description
    have hdocs : AddsCode ctx described [] := by
      cases description with
      | none => exact .refl hstart
      | some c => exact addsCode_writeComments hindent hstart [c]
    have hwritten : ((writeType ((described.write name).write
        (if optional then "?: " else ": ")) type).writeLine ",") =
        ((propertyLine ⟨name, type, optional, description⟩).foldl Context.writeChar
          described).newline := by
      rw [isWrittenInline_of_isCellType htype, Context.writeLine, Context.foldl_writeChar_write,
        described.write_eq_foldl, Context.foldl_writeChar_write, ← List.foldl_append,
        propertyLine, List.append_assoc _ (typeText type)]
    have hindent' : ∀ c ∈ described.layout.indent.toList, isBlank c = true := by
      rwa [hdocs.layout]
    have hprop := hdocs.trans (addsCode_line hindent' hdocs.atLineStart hline)
    rw [← hwritten] at hprop
    have hrest := ih (by rwa [hprop.layout]) hprop.atLineStart hps
    exact hprop.trans hrest

omit hknown in
theorem addsCode_inlineEntry (d : Dialect) {name : String} (hname : IsNameText name)
    {t : ApiType} (hinline : IsWrittenInline t) (hplain : IsPlainText (typeText t)) :
    AddsCode ctx (writeEntry d ctx name t)
      [(d.frame name t).head.toList ++ (typeText t ++ (d.frame name t).tail.toList)] := by
  let described := writeComments ctx t.comments
  have hdocs : AddsCode ctx described [] := addsCode_writeComments hindent hstart t.comments
  obtain ⟨hhead, htail⟩ := isCodeLine_frame d hname t
  have hindent' : ∀ c ∈ described.layout.indent.toList, isBlank c = true := by rwa [hdocs.layout]
  have hadds := addsCode_line hindent' hdocs.atLineStart (hhead.append (hplain.append htail))
  have hwritten : writeEntry d ctx name t = (((d.frame name t).head.toList ++ (typeText t ++
      (d.frame name t).tail.toList)).foldl Context.writeChar described).newline := by
    rw [writeEntry, hinline, Context.writeLine, Context.foldl_writeChar_write,
      Context.write_eq_foldl, ← List.foldl_append]
  rw [hwritten]
  exact hdocs.trans hadds

theorem addsCode_recordEntry (d : Dialect) {name : String} (hname : IsNameText name)
    {p : Property} {ps : List Property} (cs : List DocComment)
    (h : ∀ q ∈ p :: ps, isIdentifier q.name.toList = true ∧ IsCellType known q.type) :
    AddsCode ctx (writeEntry d ctx name (.record (p :: ps) cs))
      (entryLines d name (.record (p :: ps) cs)) := by
  let frame := d.frame name (.record (p :: ps) cs)
  let described := writeComments ctx cs
  let opened := ((frame.head.toList ++ "\x7b".toList).foldl Context.writeChar described).newline
  let body := (writeProperties opened.nest (p :: ps)).unnest
  obtain ⟨hhead, htail⟩ := isCodeLine_frame d hname (.record (p :: ps) cs)
  have hdocs : AddsCode ctx described [] := addsCode_writeComments hindent hstart cs
  have hopen : AddsCode ctx opened [frame.head.toList ++ "\x7b".toList] := by
    have hline := hhead.append (s := "\x7b".toList) ⟨by decide, by decide⟩
    exact hdocs.trans (addsCode_line (by rwa [hdocs.layout]) hdocs.atLineStart hline)
  have hindent' : ∀ c ∈ opened.nest.layout.indent.toList, isBlank c = true := by
    rwa [show opened.nest.layout = ctx.layout from hopen.layout]
  have hbody : AddsCode opened body ((p :: ps).map propertyLine) :=
    (addsCode_writeProperties hknown hindent' rfl h).unnest
  have hclose : AddsCode body (("\x7d".toList ++ frame.tail.toList).foldl Context.writeChar
      body).newline ["\x7d".toList ++ frame.tail.toList] := by
    have hbrace : IsCodeLine "\x7d".toList := ⟨⟨by decide, by decide⟩, '\x7d', rfl, by decide⟩
    exact addsCode_line (by rwa [hbody.layout]) hbody.atLineStart (hbrace.append htail)
  have hwritten : writeEntry d ctx name (.record (p :: ps) cs) =
      (("\x7d".toList ++ frame.tail.toList).foldl Context.writeChar body).newline := by
    have hopened : ((described.write frame.head).write "\x7b").nest.newline = opened.nest := by
      rw [described.write_eq_foldl, Context.foldl_writeChar_write]
      rfl
    rw [writeEntry, writeType, List.foldl_append]
    change (((writeProperties ((described.write frame.head).write "\x7b").nest.newline
      (p :: ps)).unnest).write "\x7d").writeLine frame.tail = _
    rw [hopened, Context.writeLine, Context.write_eq_foldl, Context.write_eq_foldl]
  rw [hwritten]
  exact hopen.trans (hbody.trans hclose)

/-- An entry is its lines of code behind its documentation. -/
theorem addsCode_writeEntry (d : Dialect) {name : String} (hname : IsNameText name)
    {t : ApiType} (h : IsEntryType known t) :
    AddsCode ctx (writeEntry d ctx name t) (entryLines d name t) := by
  cases h with
  | any cs =>
    have hword : IsPlainText "any".toList := ⟨by decide, by decide⟩
    exact addsCode_inlineEntry hindent hstart d hname (fun ctx => ctx.write_eq_foldl _) hword
  | @union ts h cs =>
    have hitem : ∀ t ∈ ts, IsItem known t := forall_isItem_of_names h
    have hinline : IsWrittenInline (.union ts cs) :=
      writeMembers_eq fun m hm => isWrittenInline_of_isItem (hitem m hm)
    exact addsCode_inlineEntry hindent hstart d hname hinline (isPlainText_membersText hknown hitem)
  | @record ps h cs =>
    cases ps with
    | nil =>
      have hbraces : IsPlainText "\x7b\x7d".toList := ⟨by decide, by decide⟩
      exact addsCode_inlineEntry hindent hstart d hname (fun ctx => ctx.write_eq_foldl _) hbraces
    | cons p ps => exact addsCode_recordEntry hknown hindent hstart d hname cs h

theorem addsCode_writeEntries (d : Dialect) {es : List (String × ApiType)}
    (hes : ∀ e ∈ es, IsNameText e.1 ∧ IsEntryType known e.2) :
    AddsCode ctx (writeEntries d ctx es) (es.flatMap fun e => entryLines d e.1 e.2) := by
  induction es generalizing ctx with
  | nil => exact .refl hstart
  | cons e es ih =>
    obtain ⟨⟨hname, htype⟩, hrest⟩ := List.forall_mem_cons.mp hes
    have hfirst := addsCode_writeEntry hknown hindent hstart d hname htype
    cases es with
    | nil =>
      rw [writeEntries, List.flatMap_singleton]
      exact hfirst
    | cons f es =>
      have hnext := hfirst.newline
      rw [List.flatMap_cons]
      exact hnext.trans (ih (by rwa [hnext.layout]) hnext.atLineStart hrest)

end Known

/-- The lines before the first entry. -/
def headLines : Dialect → List (List Char)
  | .typeScript => []
  | .flow m => (solidLines ((moduleHead m).toList ++ ['\n'])).map trimStart

/-- The lines after the last entry. -/
def tailLines : Dialect → List (List Char)
  | .typeScript => []
  | .flow _ => ["\x7d".toList]

/-- All lines of code of a schema without their margins. -/
def schemaLines (d : Dialect) (s : Schema) : List (List Char) :=
  headLines d ++ s.entries.flatMap (fun e => entryLines d e.1 e.2) ++ tailLines d

theorem isCode_firstLine (layout : Layout) {line : String}
    (hline : Avoids '/' '*' (line.toList ++ ['\n', '*'])) :
    IsCode ((Context.write { layout := layout } line).nest.newline).code.toList
        ((solidLines (line.toList ++ ['\n'])).map trimStart) ∧
      ((Context.write { layout := layout } line).nest.newline).layout = layout ∧
      ((Context.write { layout := layout } line).nest.newline).atLineStart = true := by
  refine ⟨?_, Context.layout_write _ line, rfl⟩
  rw [Context.toList_firstLine]
  exact isCode_of_avoids (by rwa [List.append_assoc]) (Or.inr ⟨line.toList, rfl⟩)

theorem isCode_writeBegin {d : Dialect} (hd : OpensNoComment d) (layout : Layout) :
    IsCode (d.writeBegin { layout := layout }).code.toList (headLines d) ∧
      (d.writeBegin { layout := layout }).layout = layout ∧
      (d.writeBegin { layout := layout }).atLineStart = true := by
  cases d with
  | typeScript => exact ⟨isCode_nil, rfl, rfl⟩
  | flow m =>
    have hm : Avoids '/' '*' m.toList := occursIn_pair_eq_false.mp hd
    rw [writeBegin_flow, headLines]
    exact isCode_firstLine layout (avoids_moduleHead hm)

/-- The code of a printed schema, line by line. -/
theorem trimmed_codeLines_print {d : Dialect} (hd : OpensNoComment d) {layout : Layout}
    (hindent : ∀ c ∈ layout.indent.toList, isBlank c = true) {known : String → Prop}
    (hknown : ∀ n, known n → IsNameText n) {s : Schema}
    (hs : ∀ e ∈ s.entries, IsNameText e.1 ∧ IsEntryType known e.2) :
    (codeLines (print d layout s)).map trimStart = schemaLines d s := by
  obtain ⟨hbegin, hlayout, hstart⟩ := isCode_writeBegin hd layout
  have hentries := addsCode_writeEntries hknown (by rwa [hlayout]) hstart d hs
  have hbody := hentries.isCode hbegin
  suffices h : IsCode (print d layout s).toList (schemaLines d s) from h.trimmed_solidLines
  cases d with
  | typeScript =>
    rw [schemaLines, tailLines, List.append_nil]
    exact hbody
  | flow m =>
    have hbrace : IsCodeLine "\x7d".toList := ⟨⟨by decide, by decide⟩, '\x7d', rfl, by decide⟩
    let next := writeEntries (.flow m) ((Dialect.flow m).writeBegin { layout := layout }) s.entries
    have hindent' : ∀ c ∈ next.unnest.layout.indent.toList, isBlank c = true := by
      rwa [show next.unnest.layout = layout from hentries.layout.trans hlayout]
    exact (addsCode_line hindent' hentries.atLineStart hbrace).isCode hbody

end ApiTypings.Printing
