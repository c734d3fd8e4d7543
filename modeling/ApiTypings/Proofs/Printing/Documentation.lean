import ApiTypings.Rendering
import ApiTypings.Page.Basic
import ApiTypings.Proofs.Printing.BlockComment
import ApiTypings.Proofs.Schema.Outline

/-!
# Documentation never becomes code

A schema is printed beside itself without documentation. At every step the two outputs say
the same code, whatever follows: equal pieces are written on both sides, and what is written
on one side only is a comment on lines of its own.
-/
namespace ApiTypings.Printing

open Text
open Page (isIdentifierChar isIdentifier identifierChars_of_isIdentifier)

/-- Two outputs that say the same code, whatever follows. No comment is open in the first, and
lines are indented with blanks. -/
structure SameCode (a b : Context) : Prop where
  layout : a.layout = b.layout
  indent : ∀ c ∈ a.layout.indent.toList, isBlank c = true
  depth : a.depth = b.depth
  atLineStart : a.atLineStart = b.atLineStart
  settled : ∀ rest, visible false (a.code.toList ++ rest) =
    visible false a.code.toList ++ visible false rest
  endsLine : a.atLineStart = true → EndsLine (visible false a.code.toList)
  lines : ∀ rest, solidLines (visible false (a.code.toList ++ rest)) =
    solidLines (visible false (b.code.toList ++ rest))

namespace SameCode

variable {a b : Context}

theorem margin_eq (h : SameCode a b) : a.margin = b.margin :=
  Context.margin_congr h.layout h.depth

theorem isBlank_margin (h : SameCode a b) : ∀ c ∈ a.margin.toList, isBlank c = true :=
  fun c hc => h.indent c (a.mem_indent_of_mem_margin hc)

/-- Text without a slash can be added on both sides. -/
theorem append (h : SameCode a b) {a' b' : Context} {s : List Char} (hs : '/' ∉ s)
    (hla : a'.layout = a.layout) (hlb : b'.layout = b.layout) (hdepth : a'.depth = b'.depth)
    (hstart : a'.atLineStart = b'.atLineStart)
    (ha : a'.code.toList = a.code.toList ++ s) (hb : b'.code.toList = b.code.toList ++ s)
    (hline : a'.atLineStart = true → ∃ t, s = t ++ ['\n']) : SameCode a' b' := by
  have hvisible : visible false a'.code.toList = visible false a.code.toList ++ s := by
    have hsv := visible_of_not_mem hs []
    rw [visible, List.append_nil] at hsv
    rw [ha, h.settled, hsv]
  refine ⟨by rw [hla, hlb, h.layout], by rw [hla]; exact h.indent, hdepth, hstart,
    fun rest => ?_, fun hl => ?_, fun rest => ?_⟩
  · rw [hvisible, ha, List.append_assoc, h.settled, visible_of_not_mem hs, List.append_assoc]
  · obtain ⟨t, rfl⟩ := hline hl
    exact Or.inr ⟨visible false a.code.toList ++ t, by rw [hvisible, List.append_assoc]⟩
  · rw [ha, hb, List.append_assoc, List.append_assoc, h.lines]

theorem newline (h : SameCode a b) : SameCode a.newline b.newline :=
  h.append (s := ['\n']) (by decide) rfl rfl h.depth rfl (by simp) (by simp)
    (fun _ => ⟨[], rfl⟩)

theorem nest (h : SameCode a b) : SameCode a.nest b.nest :=
  ⟨h.layout, h.indent, congrArg (· + 1) h.depth, h.atLineStart, h.settled, h.endsLine, h.lines⟩

theorem unnest (h : SameCode a b) : SameCode a.unnest b.unnest :=
  ⟨h.layout, h.indent, congrArg (· - 1) h.depth, h.atLineStart, h.settled, h.endsLine, h.lines⟩

theorem writeChar (h : SameCode a b) {c : Char} (hc : c ≠ '/') :
    SameCode (a.writeChar c) (b.writeChar c) := by
  by_cases hn : c = '\n'
  · subst hn
    exact h.newline
  · obtain ⟨hal, had, has, hac⟩ := a.writeChar_of_ne hn
    obtain ⟨hbl, hbd, hbs, hbc⟩ := b.writeChar_of_ne hn
    have hlead : b.lead = a.lead := by
      rw [Context.lead, Context.lead, h.atLineStart, h.margin_eq]
    have hslash : '/' ∉ a.lead ++ [c] := by
      intro hmem
      rcases List.mem_append.mp hmem with hmem | hmem
      · unfold Context.lead at hmem
        split at hmem
        · exact absurd (h.isBlank_margin '/' hmem) (by decide)
        · simp at hmem
      · exact hc (List.mem_singleton.mp hmem).symm
    rw [List.append_assoc] at hac hbc
    rw [hlead] at hbc
    exact h.append hslash hal hbl (by rw [had, hbd, h.depth]) (by rw [has, hbs]) hac hbc
      (by simp [has])

theorem foldl_writeChar (h : SameCode a b) {s : List Char} (hs : '/' ∉ s) :
    SameCode (s.foldl Context.writeChar a) (s.foldl Context.writeChar b) := by
  induction s generalizing a b with
  | nil => exact h
  | cons c s ih =>
    obtain ⟨hc, hs⟩ := not_or.mp (mt List.mem_cons.mpr hs)
    exact ih (h.writeChar (Ne.symm hc)) hs

theorem write (h : SameCode a b) {s : String} (hs : '/' ∉ s.toList) :
    SameCode (a.write s) (b.write s) := by
  rw [a.write_eq_foldl, b.write_eq_foldl]
  exact h.foldl_writeChar hs

theorem writeLine (h : SameCode a b) {s : String} (hs : '/' ∉ s.toList) :
    SameCode (a.writeLine s) (b.writeLine s) :=
  (h.write hs).newline

/-- Documentation on the first side only changes nothing. -/
theorem writeComments (h : SameCode a b) (hstart : a.atLineStart = true) (cs : List DocComment) :
    SameCode (writeComments a cs) b := by
  by_cases hne : cs = []
  · subst hne
    exact h
  · have hblank := h.isBlank_margin
    have hstar : '*' ∉ a.margin.toList := fun hc => absurd (hblank '*' hc) (by decide)
    have hslash : '/' ∉ a.margin.toList := fun hc => absurd (hblank '/' hc) (by decide)
    have hadds := addsComment_writeComments hstar hstart hne
    obtain ⟨s, hcode, hs⟩ := hadds.code
    have hafter : ∀ rest, visible false ((Printing.writeComments a cs).code.toList ++ rest) =
        visible false a.code.toList ++ (a.margin.toList ++ '\n' :: visible false rest) := by
      intro rest
      rw [hcode, List.append_assoc, h.settled, hs.visible_append hslash]
    have hend := hafter []
    rw [List.append_nil] at hend
    refine ⟨hadds.layout.trans h.layout, by rw [hadds.layout]; exact h.indent,
      hadds.depth.trans h.depth, hadds.atLineStart.trans (hstart.symm.trans h.atLineStart),
      fun rest => ?_, fun _ => ?_, fun rest => ?_⟩
    · rw [hafter, hend]
      simp [visible]
    · exact Or.inr ⟨visible false a.code.toList ++ a.margin.toList, by rw [hend]; simp [visible]⟩
    · rw [hafter, solidLines_blank_line (h.endsLine hstart) hblank, ← h.settled, h.lines]

theorem writeDescription (h : SameCode a b) (hstart : a.atLineStart = true)
    (description : Option DocComment) : SameCode (writeDescription a description) b := by
  cases description with
  | none => exact h
  | some c => exact h.writeComments hstart [c]

end SameCode

/-- Whether a text can be a name or a part of one. -/
def IsNameText (s : String) : Prop := ∀ c ∈ s.toList, isIdentifierChar c = true

theorem isNameText_of_isIdentifier {s : String} (h : isIdentifier s.toList = true) :
    IsNameText s :=
  identifierChars_of_isIdentifier h

theorem IsNameText.slash {s : String} (h : IsNameText s) : '/' ∉ s.toList :=
  fun hc => absurd (h '/' hc) (by decide)

/-- The names in a type are names of properties and references. -/
structure PlainNames (t : ApiType) : Prop where
  references : ∀ r ∈ t.references, IsNameText r
  properties : ∀ n ∈ t.propertyNames, IsNameText n

theorem PlainNames.members {ms : List ApiType} {cs : List DocComment}
    (h : PlainNames (.union ms cs)) : ∀ m ∈ ms, PlainNames m := by
  intro m hm
  refine ⟨fun r hr => h.references r ?_, fun n hn => h.properties n ?_⟩
  · rw [ApiType.references, memberReferences_eq_flatMap]
    exact List.mem_flatMap.mpr ⟨m, hm, hr⟩
  · rw [ApiType.propertyNames, memberPropertyNames_eq_flatMap]
    exact List.mem_flatMap.mpr ⟨m, hm, hn⟩

theorem PlainNames.fields {ps : List Property} {cs : List DocComment}
    (h : PlainNames (.record ps cs)) : ∀ p ∈ ps, IsNameText p.name ∧ PlainNames p.type := by
  intro p hp
  have hprops : ∀ n ∈ p.name :: p.type.propertyNames, IsNameText n := by
    intro n hn
    refine h.properties n ?_
    rw [ApiType.propertyNames, ownPropertyNames_eq_flatMap]
    exact List.mem_flatMap.mpr ⟨p, hp, hn⟩
  refine ⟨hprops p.name List.mem_cons_self, fun r hr => h.references r ?_,
    fun n hn => hprops n (List.mem_cons_of_mem _ hn)⟩
  rw [ApiType.references, propertyReferences_eq_flatMap]
  exact List.mem_flatMap.mpr ⟨p, hp, hr⟩

theorem slash_scalarWord (s : Scalar) : '/' ∉ (scalarWord s).toList := by cases s <;> decide

/-- Printing a type beside its bare form keeps the code the same. -/
def PrintsAlike (t : ApiType) : Prop :=
  ∀ a b : Context, SameCode a b → SameCode (writeType a t) (writeType b t.bare)

theorem sameCode_writeMembers {ms : List ApiType} (hm : ∀ m ∈ ms, PrintsAlike m) {a b : Context}
    (h : SameCode a b) :
    SameCode (writeMembers a ms) (writeMembers b (memberOutlines id (.any []) ms)) := by
  induction ms generalizing a b with
  | nil => exact h
  | cons m ms ih =>
    obtain ⟨hfirst, hrest⟩ := List.forall_mem_cons.mp hm
    cases ms with
    | nil => exact hfirst a b h
    | cons n ms => exact ih hrest ((hfirst a b h).write (by decide))

theorem sameCode_writeProperties {ps : List Property}
    (hp : ∀ p ∈ ps, IsNameText p.name ∧ PrintsAlike p.type) {a b : Context} (h : SameCode a b)
    (hstart : a.atLineStart = true) :
    SameCode (writeProperties a ps) (writeProperties b (propertyOutlines id (.any []) ps)) := by
  induction ps generalizing a b with
  | nil => exact h
  | cons p ps ih =>
    obtain ⟨⟨hname, htype⟩, hrest⟩ := List.forall_mem_cons.mp hp
    obtain ⟨name, type, optional, description⟩ := p
    have hnamed := (h.writeDescription hstart description).write hname.slash
    have hmark : '/' ∉ (if optional then "?: " else ": ").toList := by
      cases optional <;> decide
    have hwritten := htype _ _ (hnamed.write hmark)
    exact ih hrest (hwritten.writeLine (by decide)) rfl

theorem printsAlike (t : ApiType) : PlainNames t → PrintsAlike t := by
  induction t using ApiType.kinds with
  | scalar s => exact fun _ a b h => h.write (slash_scalarWord s)
  | any cs => exact fun _ a b h => h.write (by decide)
  | named n cs => exact fun hn a b h => h.write (hn.references n List.mem_cons_self).slash
  | union ms cs ih =>
    exact fun hn a b h => sameCode_writeMembers (fun m hm => ih m hm (hn.members m hm)) h
  | array t cs ih =>
    intro hn a b h
    have hopen : SameCode (a.write "Array<") (b.write "Array<") := h.write (by decide)
    have hitem := ih ⟨hn.references, hn.properties⟩ _ _ hopen
    exact hitem.write (s := ">") (by decide)
  | record ps cs ih =>
    intro hn a b h
    cases ps with
    | nil => exact h.write (by decide)
    | cons p ps =>
      have hp : ∀ q ∈ p :: ps, IsNameText q.name ∧ PrintsAlike q.type :=
        fun q hq => ⟨(hn.fields q hq).1, ih q hq (hn.fields q hq).2⟩
      have hopen := (h.write (s := "\x7b") (by decide)).nest.newline
      have hclosed := (sameCode_writeProperties hp hopen rfl).unnest
      obtain ⟨name, type, optional, description⟩ := p
      exact hclosed.write (s := "\x7d") (by decide)

theorem frame_typeScript (name : String) (t : ApiType) : Dialect.typeScript.frame name t =
    if t.isRecord then ⟨"export interface " ++ name ++ " ", ""⟩
    else ⟨"export type " ++ name ++ " = ", ";"⟩ := rfl

theorem frame_flow (m name : String) (t : ApiType) :
    (Dialect.flow m).frame name t = ⟨"declare type " ++ name ++ " = ", ""⟩ := rfl

theorem isRecord_bare (t : ApiType) : t.bare.isRecord = t.isRecord := by cases t <;> rfl

theorem comments_bare (t : ApiType) : t.bare.comments = [] := by cases t <;> rfl

theorem frame_bare (d : Dialect) (name : String) (t : ApiType) :
    d.frame name t.bare = d.frame name t := by
  cases d with
  | typeScript => rw [frame_typeScript, frame_typeScript, isRecord_bare]
  | flow m => rfl

theorem slash_frame (d : Dialect) {name : String} (hn : IsNameText name) (t : ApiType) :
    '/' ∉ (d.frame name t).head.toList ∧ '/' ∉ (d.frame name t).tail.toList := by
  have hname := hn.slash
  cases d with
  | typeScript =>
    rw [frame_typeScript]
    split <;> simp [hname]
  | flow m => simp [frame_flow, hname]

/-- The entries of a schema without their documentation. -/
def bareEntries (es : List (String × ApiType)) : List (String × ApiType) :=
  es.map (fun e => (e.1, e.2.bare))

theorem sameCode_writeEntry (d : Dialect) {a b : Context} (h : SameCode a b)
    (hstart : a.atLineStart = true) {name : String} {t : ApiType} (hname : IsNameText name)
    (ht : PlainNames t) : SameCode (writeEntry d a name t) (writeEntry d b name t.bare) := by
  obtain ⟨hhead, htail⟩ := slash_frame d hname t
  have hdocs := h.writeComments hstart t.comments
  have hwritten := (printsAlike t ht _ _ (hdocs.write hhead)).writeLine htail
  rw [writeEntry, writeEntry, frame_bare, comments_bare]
  exact hwritten

theorem sameCode_writeEntries (d : Dialect) {es : List (String × ApiType)}
    (hes : ∀ e ∈ es, IsNameText e.1 ∧ PlainNames e.2) {a b : Context} (h : SameCode a b)
    (hstart : a.atLineStart = true) :
    SameCode (writeEntries d a es) (writeEntries d b (bareEntries es)) := by
  induction es generalizing a b with
  | nil => exact h
  | cons e es ih =>
    obtain ⟨⟨hname, ht⟩, hrest⟩ := List.forall_mem_cons.mp hes
    have hfirst := sameCode_writeEntry d h hstart hname ht
    cases es with
    | nil => exact hfirst
    | cons f es => exact ih hrest hfirst.newline rfl

theorem sameCode_refl {a : Context} (hindent : ∀ c ∈ a.layout.indent.toList, isBlank c = true)
    (ha : Avoids '/' '*' (a.code.toList ++ ['*']))
    (hend : a.atLineStart = true → EndsLine a.code.toList) : SameCode a a := by
  have hv : visible false a.code.toList = a.code.toList := by
    have h := visible_append ha []
    rwa [visible, List.append_nil] at h
  exact ⟨rfl, hindent, rfl, rfl, fun rest => by rw [visible_append ha, hv],
    fun h => by rw [hv]; exact hend h, fun _ => rfl⟩

/-- What an output has to hold no comment before its first entry. -/
def OpensNoComment : Dialect → Prop
  | .typeScript => True
  | .flow m => occursIn "/*".toList m.toList = false

/-- The line that opens a module. -/
def moduleHead (m : String) : String := "declare module \"" ++ m ++ "\" \x7b"

theorem toList_moduleHead (m : String) : (moduleHead m).toList =
    "declare module ".toList ++ '"' :: (m.toList ++ '"' :: [' ', '\x7b']) := by
  have hopen : "declare module \"".toList = "declare module ".toList ++ ['"'] := by decide
  have hclose : "\" \x7b".toList = '"' :: [' ', '\x7b'] := by decide
  change ("declare module \"" ++ m ++ "\" \x7b").toList = _
  rw [String.toList_append, String.toList_append, hopen, hclose, List.append_assoc,
    List.append_assoc, List.singleton_append]

theorem writeBegin_flow (m : String) (ctx : Context) :
    (Dialect.flow m).writeBegin ctx = (ctx.write (moduleHead m)).nest.newline := rfl

theorem avoids_moduleHead {m : String} (hm : Avoids '/' '*' m.toList) :
    Avoids '/' '*' ((moduleHead m).toList ++ ['\n', '*']) := by
  have hfirst : Avoids '/' '*' "declare module ".toList := avoids_of_not_mem (by decide)
  have hlast : Avoids '/' '*' [' ', '\x7b', '\n', '*'] := avoids_of_not_mem (by decide)
  have hrest := hm.join (c := '"') (by decide) (by decide) hlast
  rw [toList_moduleHead]
  simpa only [List.append_assoc, List.cons_append, List.nil_append] using
    hfirst.join (c := '"') (by decide) (by decide) hrest

/-- A first line without a comment begins an output that is all code. -/
theorem sameCode_firstLine {layout : Layout}
    (hindent : ∀ c ∈ layout.indent.toList, isBlank c = true) {line : String}
    (hline : Avoids '/' '*' (line.toList ++ ['\n', '*'])) :
    SameCode ((Context.write { layout := layout } line).nest.newline)
      ((Context.write { layout := layout } line).nest.newline) := by
  have hcode := Context.toList_firstLine layout line
  have hlayout : (Context.write { layout := layout } line).nest.newline.layout = layout :=
    Context.layout_write _ line
  refine sameCode_refl (by rwa [← hlayout] at hindent) ?_ (fun _ => Or.inr ⟨_, hcode⟩)
  rwa [hcode, List.append_assoc]

theorem sameCode_writeBegin {d : Dialect} (hd : OpensNoComment d) {layout : Layout}
    (hindent : ∀ c ∈ layout.indent.toList, isBlank c = true) :
    SameCode (d.writeBegin { layout := layout }) (d.writeBegin { layout := layout }) ∧
      (d.writeBegin { layout := layout }).atLineStart = true := by
  cases d with
  | typeScript => exact ⟨sameCode_refl hindent (.singleton _) (fun _ => Or.inl rfl), rfl⟩
  | flow m =>
    have hm : Avoids '/' '*' m.toList := occursIn_pair_eq_false.mp hd
    rw [writeBegin_flow]
    exact ⟨sameCode_firstLine hindent (avoids_moduleHead hm), rfl⟩

theorem sameCode_writeEnd (d : Dialect) {a b : Context} (h : SameCode a b) :
    SameCode (d.writeEnd a) (d.writeEnd b) := by
  cases d with
  | typeScript => exact h
  | flow m => exact h.unnest.writeLine (by decide)

/-- A schema has the same code as its entries without documentation. -/
theorem codeLines_print {d : Dialect} (hd : OpensNoComment d) {layout : Layout}
    (hindent : ∀ c ∈ layout.indent.toList, isBlank c = true) {s : Schema}
    (hs : ∀ e ∈ s.entries, IsNameText e.1 ∧ PlainNames e.2) :
    codeLines (print d layout s) = codeLines (d.writeEnd
      (writeEntries d (d.writeBegin { layout := layout }) (bareEntries s.entries))).code := by
  obtain ⟨hbegin, hstart⟩ := sameCode_writeBegin hd hindent
  have h := (sameCode_writeEnd d (sameCode_writeEntries d hs hbegin hstart)).lines []
  rwa [List.append_nil, List.append_nil] at h

/-- Documentation is always a comment and never becomes code. At the start of a line it adds
one block comment that closes at its end only; and schemas that differ in documentation only
have the same code. -/
theorem documentation_is_comment (layout : Layout)
    (hindent : ∀ c ∈ layout.indent.toList, isBlank c = true) :
    (∀ (ctx : Context) (comments : List DocComment), ctx.layout = layout → comments ≠ [] →
      ctx.atLineStart = true → ∃ comment body,
        (writeComments ctx comments).code.toList = ctx.code.toList ++ comment ∧
        comment = ctx.margin.toList ++ "/**".toList ++ body ++ "*/".toList ++ ['\n'] ∧
        ∀ before after, comment = before ++ "*/".toList ++ after → after = ['\n']) ∧
    (∀ (d : Dialect) (s t : Schema), OpensNoComment d →
      (∀ e ∈ s.entries, IsNameText e.1 ∧ PlainNames e.2) →
      (∀ e ∈ t.entries, IsNameText e.1 ∧ PlainNames e.2) →
      bareEntries s.entries = bareEntries t.entries →
      codeLines (print d layout s) = codeLines (print d layout t)) := by
  constructor
  · intro ctx comments hl hne hstart
    have hstar : '*' ∉ ctx.margin.toList := by
      intro hc
      have hb := hindent '*' (by rw [← hl]; exact ctx.mem_indent_of_mem_margin hc)
      exact absurd hb (by decide)
    obtain ⟨comment, hcode, hs⟩ := (addsComment_writeComments hstar hstart hne).code
    obtain ⟨body, hbody, -⟩ := hs.exists_body
    exact ⟨comment, body, hcode, hbody, fun before after h => hs.eq_newline_of_close h⟩
  · intro d s t hd hs ht hsame
    rw [codeLines_print hd hindent hs, codeLines_print hd hindent ht, hsame]

/-- A text and a link target that try to end the comment they stand in. -/
def closingComment : DocComment := ⟨"<a href=\"*/\">**//</a>", "**//"⟩

/-- A record that is documented, and whose property is. -/
def chatDocumented (cs : List DocComment) : Schema :=
  ⟨[("Chat", .record [⟨"id", .named "Chat" cs, false, cs.head?⟩] cs)], by simp⟩

theorem isNameText_chatDocumented (cs : List DocComment) :
    ∀ e ∈ (chatDocumented cs).entries, IsNameText e.1 ∧ PlainNames e.2 := by
  have hchat : IsNameText "Chat" := isNameText_of_isIdentifier (by decide)
  have hid : IsNameText "id" := isNameText_of_isIdentifier (by decide)
  intro e he
  obtain rfl := List.mem_singleton.mp he
  refine ⟨hchat, fun r hr => ?_, fun n hn => ?_⟩
  · obtain rfl : r = "Chat" := List.mem_singleton.mp hr
    exact hchat
  · obtain rfl : n = "id" := List.mem_singleton.mp hn
    exact hid

theorem documentation_is_comment_closing :
    (∀ c ∈ ({ width := 0, indent := "\t " } : Layout).indent.toList, isBlank c = true) ∧
    (∃ comment body,
      (writeComments { layout := { width := 0, indent := "\t " }, depth := 2 }
        [closingComment]).code.toList = "".toList ++ comment ∧
      comment = "\t \t ".toList ++ "/**".toList ++ body ++ "*/".toList ++ ['\n'] ∧
      ∀ before after, comment = before ++ "*/".toList ++ after → after = ['\n']) ∧
    OpensNoComment (.flow "bot") ∧
    codeLines (print (.flow "bot") { width := 0, indent := "\t " }
        (chatDocumented [closingComment])) =
      codeLines (print (.flow "bot") { width := 0, indent := "\t " } (chatDocumented [])) := by
  have hindent : ∀ c ∈ ({ width := 0, indent := "\t " } : Layout).indent.toList,
      isBlank c = true := List.all_eq_true.mp (by decide)
  have hmodule : OpensNoComment (.flow "bot") := by unfold OpensNoComment; decide
  obtain ⟨hcomment, hcode⟩ := documentation_is_comment { width := 0, indent := "\t " } hindent
  refine ⟨hindent, ?_, hmodule, ?_⟩
  · exact hcomment { layout := { width := 0, indent := "\t " }, depth := 2 } [closingComment] rfl
      (by simp) rfl
  · exact hcode (.flow "bot") _ _ hmodule (isNameText_chatDocumented _)
      (isNameText_chatDocumented _) rfl

end ApiTypings.Printing
