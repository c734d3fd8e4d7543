import ApiTypings.Proofs.Declaration.Documentation
import ApiTypings.Proofs.Printing.CommentLines

/-!
# What documentation adds to declarations

The lines that documentation adds show wrapped text or parts of links. A line with text keeps the
width or shows one word.
-/
namespace ApiTypings.Declaration

open Text
open Printing (outputLines mem_outputLines_append indented)

/-- A line that documentation adds, which shows text or a part of a link. -/
inductive ShowsDocs (width : Nat) (C : DocComment → Prop) : List Char → Prop
  | text (margin text : List Char) (hm : ∀ c ∈ margin, c = ' ') (hreturn : '\r' ∉ text)
    (h : (margin ++ ("/// ".toList ++ text)).length ≤ width ∨ (words text).length ≤ 1) :
    ShowsDocs width C (margin ++ ("/// ".toList ++ text))
  | link (margin lead part : List Char) (hm : ∀ c ∈ margin, c = ' ')
    (hlead : lead = [] ∨ lead = "/// ".toList) {c : DocComment} (hc : C c) {target : String}
    (htarget : target ∈ Page.links c) (hpart : part <:+: ("See " ++ target).toList) :
    ShowsDocs width C (margin ++ (lead ++ part))

variable {width : Nat} {C : DocComment → Prop}

theorem return_not_mem_lead {margin lead : List Char} (hm : ∀ c ∈ margin, c = ' ')
    (hlead : lead = [] ∨ lead = "/// ".toList) : '\r' ∉ margin ++ lead := by
  have hlead' : '\r' ∉ lead := by
    rcases hlead with rfl | rfl
    · simp
    · decide
  have hmargin : '\r' ∉ margin := fun hc => absurd (hm '\r' hc) (by decide)
  simp [hmargin, hlead']

theorem ShowsDocs.withoutReturn {l : List Char} (hl : ShowsDocs width C l) :
    ShowsDocs width C (withoutReturn l) := by
  cases hl with
  | text margin text hm hreturn h =>
    have hnone : '\r' ∉ margin ++ ("/// ".toList ++ text) := by
      rw [← List.append_assoc, List.mem_append]
      exact not_or.mpr ⟨return_not_mem_lead hm (Or.inr rfl), hreturn⟩
    rw [withoutReturn_of_not_mem hnone]
    exact .text margin text hm hreturn h
  | link margin lead part hm hlead hc htarget hpart =>
    rw [← List.append_assoc, withoutReturn_append (return_not_mem_lead hm hlead), List.append_assoc]
    exact .link margin lead _ hm hlead hc htarget ((isInfix_withoutReturn part).trans hpart)

/-- Every line above a struct or enum shows a documentation line or, without the carriage return
at its end, one of the lines into which that falls. -/
theorem exists_of_mem_headLines {docs : List String} {l : List Char} (hl : l ∈ headLines docs) :
    ∃ doc ∈ docs, ∃ p ∈ outputLines doc.toList,
      l = "/// ".toList ++ p ∨ l = "/// ".toList ++ withoutReturn p := by
  obtain ⟨m, hm, rfl⟩ := List.mem_map.mp hl
  have hne : docs ≠ [] := by
    rintro rfl
    cases hm
  obtain ⟨p, hp, h⟩ := exists_of_mem_lines hm
  rw [outputLines_intercalate hne] at hp
  obtain ⟨doc, hdoc, hp⟩ := List.mem_flatMap.mp hp
  exact ⟨doc, hdoc, p, hp, h.imp (congrArg _) (congrArg _)⟩

/-! ### Where documentation comes from -/

/-- Where the documentation lines of comments come from, given the room for text. -/
inductive IsDocText (room : Nat) (C : DocComment → Prop) : String → Prop
  | text {line : String} (hnewline : '\n' ∉ line.toList) (hreturn : '\r' ∉ line.toList)
    (h : line.toList.length ≤ room ∨ (words line.toList).length ≤ 1) : IsDocText room C line
  | link {c : DocComment} (hc : C c) {target : String} (htarget : target ∈ Page.links c) :
    IsDocText room C ("See " ++ target)

theorem isDocText_of_mem_commentDocs {room : Nat} {c : DocComment} (hc : C c) {line : String}
    (hline : line ∈ commentDocs room c) : IsDocText room C line := by
  rcases List.mem_append.mp hline with hline | hline
  · have hkept : '\n' ∉ line.toList ∧ '\r' ∉ line.toList := by
      refine forall_mem_wrap (P := fun s => '\n' ∉ s ∧ '\r' ∉ s) ?_ ?_ line hline
      · intro s t hs ht
        simp [hs, ht]
      · intro w hw
        exact ⟨fun hmem => absurd (not_isBlank_of_mem_words hw hmem) (by decide),
          fun hmem => absurd (not_isBlank_of_mem_words hw hmem) (by decide)⟩
    exact .text hkept.1 hkept.2 (length_of_mem_wrap hline)
  · obtain ⟨target, htarget, rfl⟩ := List.mem_map.mp hline
    exact .link hc htarget

theorem isDocText_of_mem_docLines {room : Nat} {cs : List DocComment} (hcs : ∀ c ∈ cs, C c)
    {line : String} (hline : line ∈ docLines room cs) : IsDocText room C line := by
  fun_induction docLines room cs with
  | case1 => cases hline
  | case2 c => exact isDocText_of_mem_commentDocs (hcs c List.mem_cons_self) hline
  | case3 c d cs ih =>
    obtain ⟨hc, hds⟩ := List.forall_mem_cons.mp hcs
    rcases List.mem_append.mp hline with hline | hline
    · exact isDocText_of_mem_commentDocs hc hline
    · rcases List.mem_cons.mp hline with rfl | hline
      · exact .text (by simp) (by simp) (Or.inl (Nat.zero_le room))
      · exact ih hds hline

/-- The documentation of a declaration comes from comments with a property. -/
structure DocsFrom (width : Nat) (C : DocComment → Prop) (d : Declaration) : Prop where
  head : ∀ line ∈ d.docs, IsDocText (docWidth width 0) C line
  fields : ∀ fields, d.body = .struct fields → ∀ f ∈ fields, ∀ line ∈ f.docs,
    IsDocText (docWidth width 4) C line

theorem isDocText_of_mem_fieldDocs {description : Option DocComment}
    (hd : ∀ c ∈ description, C c) {line : String} (hline : line ∈ fieldDocs width description) :
    IsDocText (docWidth width 4) C line := by
  cases description with
  | none => cases hline
  | some c => exact isDocText_of_mem_docLines (List.forall_mem_singleton.mpr (hd c rfl)) hline

theorem isDocText_of_bodyOf {inner : List (Option String)} {t : ApiType}
    (hdescriptions : ∀ c ∈ t.descriptions, C c) {fields : List Field}
    (hbody : bodyOf width inner t = .struct fields) :
    ∀ f ∈ fields, ∀ line ∈ f.docs, IsDocText (docWidth width 4) C line := by
  intro f hf line hline
  obtain ⟨p, hdocs, hp⟩ := docs_of_mem_bodyOf hbody hf
  rw [hdocs] at hline
  exact isDocText_of_mem_fieldDocs (fun c hc => hdescriptions c (hp c hc)) hline

theorem docRule_docsFrom (width : Nat) (C : DocComment → Prop) : DocRule width C
    (fun t => ∀ c ∈ t.comments ++ t.descriptions, C c) (DocsFrom width C) where
  descriptions := fun t ht c hc => ht c (List.mem_append_right _ hc)
  nested := fun name inner t _ hdescriptions =>
    ⟨by simp, fun fields hbody => isDocText_of_bodyOf hdescriptions hbody⟩
  entry := by
    intro name inner t _ ht
    obtain ⟨hcomments, hdescriptions⟩ := List.forall_mem_append.mp ht
    refine ⟨fun line hline => isDocText_of_mem_docLines hcomments hline, fun fields hbody => ?_⟩
    cases t with
    | union ms cs => exact isDocText_of_bodyOf hdescriptions hbody
    | record ps cs => exact isDocText_of_bodyOf hdescriptions hbody
    | _ => cases hbody

/-! ### The lines of documentation -/

theorem showsDocs_text {margin : List Char} (hm : ∀ c ∈ margin, c = ' ') {line : String}
    (hreturn : '\r' ∉ line.toList)
    (h : line.toList.length ≤ docWidth width margin.length ∨ (words line.toList).length ≤ 1) :
    ShowsDocs width C (margin ++ ("/// ".toList ++ line.toList)) := by
  have hroom : margin.length + 4 + line.toList.length ≤ width ∨ (words line.toList).length ≤ 1 :=
    Printing.length_of_room h
  refine .text margin line.toList hm hreturn (hroom.imp_left fun hlength => ?_)
  rwa [← List.append_assoc, List.length_append, List.length_append]

theorem showsDocs_link {margin : List Char} (hm : ∀ c ∈ margin, c = ' ') {c : DocComment}
    (hc : C c) {target : String} (htarget : target ∈ Page.links c) {l part : List Char}
    (hpart : part <:+: ("See " ++ target).toList) (hl : l = part ∨ l = "/// ".toList ++ part) :
    ShowsDocs width C (indented margin l) := by
  unfold indented
  split
  · exact .link [] [] [] (by simp) (Or.inl rfl) hc htarget List.nil_infix
  · rcases hl with rfl | rfl
    · exact .link margin [] l hm (Or.inl rfl) hc htarget hpart
    · exact .link margin _ part hm (Or.inr rfl) hc htarget hpart

theorem showsDocs_of_mem_headLines {docs : List String}
    (hdocs : ∀ line ∈ docs, IsDocText (docWidth width 0) C line) {l : List Char}
    (hl : l ∈ headLines docs) : ShowsDocs width C l := by
  obtain ⟨line, hline, p, hp, h⟩ := exists_of_mem_headLines hl
  have hpiece : ShowsDocs width C ("/// ".toList ++ p) := by
    cases hdocs line hline with
    | text hnewline hreturn hlength =>
      rw [Printing.outputLines_of_not_mem hnewline, List.mem_singleton] at hp
      rw [hp]
      exact showsDocs_text (List.forall_mem_nil _) hreturn hlength
    | link hc htarget =>
      exact .link [] _ p (by simp) (Or.inr rfl) hc htarget (isInfix_of_mem_pieces hp)
  rcases h with rfl | rfl
  · exact hpiece
  · rw [← withoutReturn_append (by decide)]
    exact hpiece.withoutReturn

theorem showsDocs_of_mem_docPieces {margin : List Char} (hm : ∀ c ∈ margin, c = ' ')
    {line : String} (hline : IsDocText (docWidth width margin.length) C line) {l : List Char}
    (hl : l ∈ docPieces line) : ShowsDocs width C (indented margin l) := by
  cases hline with
  | text hnewline hreturn hlength =>
    rw [docPieces_of_not_mem hnewline, List.mem_singleton] at hl
    rw [hl, indented, if_neg (by simp)]
    exact showsDocs_text hm hreturn hlength
  | link hc htarget =>
    obtain ⟨p, hp, h⟩ := mem_outputLines_append (by decide) hl
    exact showsDocs_link hm hc htarget (isInfix_of_mem_outputLines_withoutReturns hp) h

theorem showsDocs_of_mem_outputLines {line : String}
    (hline : IsDocText (docWidth width 0) C line) {l : List Char}
    (hl : l ∈ outputLines ("/// " ++ line).toList) : ShowsDocs width C l := by
  rw [String.toList_append] at hl
  cases hline with
  | text hnewline hreturn hlength =>
    rw [Printing.outputLines_of_not_mem (by simpa using hnewline), List.mem_singleton] at hl
    rw [hl]
    exact showsDocs_text (List.forall_mem_nil _) hreturn hlength
  | link hc htarget =>
    obtain ⟨p, hp, h⟩ := mem_outputLines_append (by decide) hl
    rw [← Printing.indented_nil l]
    exact showsDocs_link (by simp) hc htarget (isInfix_of_mem_pieces hp) h

theorem docsShow_of_docsFrom {d : Declaration} (hd : DocsFrom width C d) :
    DocsShow (ShowsDocs width C) d := by
  obtain ⟨hhead, hfields⟩ := hd
  have hlines : ∀ l ∈ headLines d.docs, ShowsDocs width C l :=
    fun l hl => showsDocs_of_mem_headLines hhead hl
  obtain ⟨name, docs, body⟩ := d
  cases body with
  | struct fields =>
    refine ⟨hlines, fun f hf line hline l hl => ?_⟩
    exact showsDocs_of_mem_docPieces (by simp) (hfields fields rfl f hf line hline) hl
  | placeholder => exact fun line hline l hl => showsDocs_of_mem_outputLines (hhead line hline) hl
  | enum variants => exact hlines
  | «alias» target => trivial

/-- However often a schema is declared, its text holds the lines of the schema without
documentation and lines of documentation that keep the width. -/
theorem outputLines_afterRuns {s : Schema}
    (hs : ∀ e ∈ s.entries, ∀ c ∈ e.2.comments ++ e.2.descriptions, C c) (width' n : Nat) :
    ∃ added, (∀ l ∈ added, ShowsDocs width C l) ∧
      (outputLines (Generator.afterRuns s width n).text.toList).Perm
        (added ++ outputLines (Generator.afterRuns s.bare width' n).text.toList) := by
  have h := undocuments_afterRuns_of (docRule_docsFrom width C) hs width' n
  have hbare : (Generator.afterRuns s.bare width' n).declarations =
      (Generator.afterRuns s width n).declarations.map undocumented := h.declarations
  rw [Generator.text, Generator.text, hbare]
  exact outputLines_declarationsText (fun _ hl => hl.withoutReturn)
    fun d hd => docsShow_of_docsFrom (h.docs d hd)

end ApiTypings.Declaration
