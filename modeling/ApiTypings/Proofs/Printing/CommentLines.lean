import ApiTypings.Proofs.Printing.CommentText

/-!
# What the lines of a comment say

A comment is written as a list of lines, each of which opens or closes it, stands between two
texts, or shows text or a link. The lines with text hold the words of the documentation in order,
and one that is too long for the width holds a single word.
-/
namespace ApiTypings.Printing

open Text

/-- A line of a comment behind its margin. -/
inductive BlockLine where
  | opening
  /-- The line between two texts. -/
  | between
  | closing
  /-- A comment that is one line. -/
  | whole (text : String)
  | text (text : String)
  | link (target : String)

namespace BlockLine

def string : BlockLine → String
  | opening => "/**"
  | between => " *"
  | closing => " */"
  | whole t => "/** " ++ t ++ " */"
  | text t => " * " ++ t
  | link l => " * @see " ++ commentText l

/-- The words of documentation that a line shows. -/
def words : BlockLine → List (List Char)
  | opening | between | closing | link _ => []
  | whole t | text t => Text.words t.toList

end BlockLine

def linesOfComment (width : Nat) (c : DocComment) : List BlockLine :=
  (wrap width (commentText c.text)).map .text ++ (Page.links c).map .link

def linesOfComments (width : Nat) : List DocComment → List BlockLine
  | [] => []
  | [c] => linesOfComment width c
  | c :: d :: cs => linesOfComment width c ++ .between :: linesOfComments width (d :: cs)

def linesOfBlock (ctx : Context) (cs : List DocComment) : List BlockLine :=
  .opening :: (linesOfComments (textWidth ctx) cs ++ [.closing])

/-- The lines as which documentation is written. -/
def writtenLines (ctx : Context) : List DocComment → List BlockLine
  | [] => []
  | [c] =>
    if fitsOneLine ctx (blockOf c) then [.whole (commentText c.text)] else linesOfBlock ctx [c]
  | c :: d :: cs => linesOfBlock ctx (c :: d :: cs)

def writeBlockLine (ctx : Context) (l : BlockLine) : Context := ctx.writeLine l.string

theorem commentLines_eq (width : Nat) (cs : List DocComment) :
    commentLines width (cs.map blockOf) = (linesOfComments width cs).map BlockLine.string := by
  have hblock : ∀ c, blockLines width (blockOf c) =
      (linesOfComment width c).map BlockLine.string := by
    intro c
    rw [blockLines, linesOfComment, List.map_append, List.map_map, List.map_map]
    rfl
  fun_induction linesOfComments width cs with
  | case1 => rfl
  | case2 c => exact hblock c
  | case3 c d cs ih =>
    have hcons : commentLines width ((c :: d :: cs).map blockOf) = blockLines width (blockOf c) ++
        BlockLine.between.string :: commentLines width ((d :: cs).map blockOf) := rfl
    rw [hcons, hblock, ih, List.map_append, List.map_cons]

theorem writeBlocks_eq (ctx : Context) (cs : List DocComment) :
    writeBlocks ctx (cs.map blockOf) = (linesOfBlock ctx cs).foldl writeBlockLine ctx := by
  rw [writeBlocks, commentLines_eq, linesOfBlock, List.foldl_cons, List.foldl_append,
    List.foldl_map]
  rfl

theorem writeComments_eq (ctx : Context) (cs : List DocComment) :
    writeComments ctx cs = (writtenLines ctx cs).foldl writeBlockLine ctx := by
  cases cs with
  | nil => rfl
  | cons c cs =>
    cases cs with
    | cons d cs => exact writeBlocks_eq ctx (c :: d :: cs)
    | nil =>
      rw [writeComments, List.map_singleton, writtenLines]
      dsimp only
      split
      · rfl
      · exact writeBlocks_eq ctx [c]

/-- Where the lines of a comment come from. -/
inductive IsWritten (ctx : Context) (cs : List DocComment) : BlockLine → Prop
  | opening : IsWritten ctx cs .opening
  | between : IsWritten ctx cs .between
  | closing : IsWritten ctx cs .closing
  | whole {c : DocComment} (hc : c ∈ cs) (hfits : fitsOneLine ctx (blockOf c) = true) :
    IsWritten ctx cs (.whole (commentText c.text))
  | text {c : DocComment} {t : String} (hc : c ∈ cs)
    (ht : t ∈ wrap (textWidth ctx) (commentText c.text)) : IsWritten ctx cs (.text t)
  | link {c : DocComment} {target : String} (hc : c ∈ cs) (htarget : target ∈ Page.links c) :
    IsWritten ctx cs (.link target)

theorem isWritten_of_mem_linesOfComment {ctx : Context} {cs : List DocComment} {c : DocComment}
    (hc : c ∈ cs) {l : BlockLine} (hl : l ∈ linesOfComment (textWidth ctx) c) :
    IsWritten ctx cs l := by
  rcases List.mem_append.mp hl with hl | hl
  · obtain ⟨t, ht, rfl⟩ := List.mem_map.mp hl
    exact .text hc ht
  · obtain ⟨target, htarget, rfl⟩ := List.mem_map.mp hl
    exact .link hc htarget

theorem isWritten_of_mem_linesOfComments {ctx : Context} {cs ds : List DocComment}
    (hds : ds ⊆ cs) {l : BlockLine} (hl : l ∈ linesOfComments (textWidth ctx) ds) :
    IsWritten ctx cs l := by
  fun_induction linesOfComments (textWidth ctx) ds with
  | case1 => cases hl
  | case2 c => exact isWritten_of_mem_linesOfComment (hds List.mem_cons_self) hl
  | case3 c d ds ih =>
    obtain ⟨hc, hrest⟩ := List.cons_subset.mp hds
    rcases List.mem_append.mp hl with hl | hl
    · exact isWritten_of_mem_linesOfComment hc hl
    · rcases List.mem_cons.mp hl with rfl | hl
      · exact .between
      · exact ih hrest hl

theorem isWritten_of_mem_linesOfBlock {ctx : Context} {cs : List DocComment} {l : BlockLine}
    (hl : l ∈ linesOfBlock ctx cs) : IsWritten ctx cs l := by
  rcases List.mem_cons.mp hl with rfl | hl
  · exact .opening
  · rcases List.mem_append.mp hl with hl | hl
    · exact isWritten_of_mem_linesOfComments (List.Subset.refl cs) hl
    · rw [List.mem_singleton.mp hl]
      exact .closing

theorem isWritten_of_mem {ctx : Context} {cs : List DocComment} {l : BlockLine}
    (hl : l ∈ writtenLines ctx cs) : IsWritten ctx cs l := by
  cases cs with
  | nil => cases hl
  | cons c cs =>
    cases cs with
    | cons d cs => exact isWritten_of_mem_linesOfBlock hl
    | nil =>
      rw [writtenLines] at hl
      split at hl
      next hfits =>
        obtain rfl := List.mem_singleton.mp hl
        exact .whole List.mem_cons_self hfits
      next => exact isWritten_of_mem_linesOfBlock hl

theorem IsWritten.newline {ctx : Context} {cs : List DocComment} {l : BlockLine}
    (h : IsWritten ctx cs l) : '\n' ∉ l.string.toList := by
  cases h with
  | opening => decide
  | between => decide
  | closing => decide
  | @whole c hc hfits => simpa [BlockLine.string] using (isCommentText_commentText c.text).newline
  | @text c t hc ht =>
    have htext := isCommentText_of_mem_wrap (isCommentText_commentText c.text) ht
    simpa [BlockLine.string] using htext.newline
  | @link c target hc htarget =>
    simpa [BlockLine.string] using (isCommentText_commentText target).newline

theorem string_ne_nil (l : BlockLine) : l.string.toList ≠ [] := by
  cases l <;> simp [BlockLine.string]

/-! ### Words -/

theorem escapeClose_append_space (s t : List Char) :
    escapeClose (s ++ ' ' :: t) = escapeClose s ++ ' ' :: escapeClose t := by
  fun_induction escapeClose s with
  | case1 cs ih => exact congrArg (fun l => '*' :: '\\' :: '/' :: l) ih
  | case2 c cs hne ih =>
    have hne' : ∀ ds, c = '*' → cs ++ ' ' :: t = '/' :: ds → False := by
      intro ds hc hslash
      cases cs with
      | nil => simp at hslash
      | cons d cs =>
        obtain ⟨rfl, -⟩ := List.cons.inj hslash
        exact hne cs hc rfl
    rw [List.cons_append, escapeClose, ih, List.cons_append]
    exact hne'
  | case3 => rfl

theorem escapeClose_joinWords (ws : List (List Char)) :
    escapeClose (joinWords ws) = joinWords (ws.map escapeClose) := by
  fun_induction joinWords ws with
  | case1 => rfl
  | case2 w => rfl
  | case3 w v ws ih =>
    rw [escapeClose_append_space, ih]
    rfl

theorem areWords_escapeClose {ws : List (List Char)} (hws : AreWords ws) :
    AreWords (ws.map escapeClose) := by
  intro v hv
  obtain ⟨w, hw, rfl⟩ := List.mem_map.mp hv
  obtain ⟨hne, hblank⟩ := hws w hw
  refine ⟨fun hnil => hne ?_, fun c hc => ?_⟩
  · have hhead := head?_escapeClose w
    rw [hnil] at hhead
    exact List.head?_eq_none_iff.mp hhead.symm
  · rcases mem_escapeClose hc with hc | rfl
    · exact hblank c hc
    · decide

theorem words_commentText (s : String) :
    words (commentText s).toList = (words s.toList).map escapeClose := by
  rw [commentText, String.toList_ofList, escapeClose_joinWords]
  exact words_joinWords (areWords_escapeClose (areWords_words s.toList))

theorem words_linesOfComment (width : Nat) (c : DocComment) :
    (linesOfComment width c).flatMap BlockLine.words =
      (words c.text.toList).map escapeClose := by
  have hlinks : ((Page.links c).map BlockLine.link).flatMap BlockLine.words = [] := by
    simp [BlockLine.words]
  rw [linesOfComment, List.flatMap_append, hlinks, List.append_nil, List.flatMap_map,
    ← words_commentText, ← words_wrap width (commentText c.text)]
  rfl

theorem words_linesOfComments (width : Nat) (cs : List DocComment) :
    (linesOfComments width cs).flatMap BlockLine.words =
      cs.flatMap (fun c => (words c.text.toList).map escapeClose) := by
  fun_induction linesOfComments width cs with
  | case1 => rfl
  | case2 c => rw [words_linesOfComment, List.flatMap_singleton]
  | case3 c d cs ih =>
    rw [List.flatMap_append, words_linesOfComment, List.flatMap_cons, ih, List.flatMap_cons]
    rfl

theorem words_linesOfBlock (ctx : Context) (cs : List DocComment) :
    (linesOfBlock ctx cs).flatMap BlockLine.words =
      cs.flatMap (fun c => (words c.text.toList).map escapeClose) := by
  rw [linesOfBlock, List.flatMap_cons, List.flatMap_append, words_linesOfComments]
  simp [BlockLine.words]

/-- The words of documentation are those of the text, in order, in a form that does not end the
comment. -/
theorem words_writtenLines (ctx : Context) (cs : List DocComment) :
    (writtenLines ctx cs).flatMap BlockLine.words =
      cs.flatMap (fun c => (words c.text.toList).map escapeClose) := by
  fun_cases writtenLines ctx cs with
  | case1 => rfl
  | case2 c =>
    rw [List.flatMap_singleton, List.flatMap_singleton]
    exact words_commentText c.text
  | case3 c => exact words_linesOfBlock ctx [c]
  | case4 c d cs => exact words_linesOfBlock ctx (c :: d :: cs)

/-! ### Width -/

theorem length_words_le_one {s : List Char} (hs : s.length ≤ 1) : (words s).length ≤ 1 := by
  rcases s with - | ⟨c, - | ⟨d, s⟩⟩
  · decide
  · rw [words, pieces]
    split <;> simp [pieces, extend]
  · simp at hs

/-- Text that keeps the room that a lead leaves in a width keeps the width behind the lead, unless
it is a single word. -/
theorem length_of_room {width lead : Nat} {s : List Char}
    (hs : s.length ≤ max (width - lead) 1 ∨ (words s).length ≤ 1) :
    lead + s.length ≤ width ∨ (words s).length ≤ 1 := by
  rcases hs with hlength | hword
  · by_cases hroom : lead < width
    · exact Or.inl (by omega)
    · exact Or.inr (length_words_le_one (by omega))
  · exact Or.inr hword

/-- A line of the given length that shows text keeps the width or shows one word; any other is a
delimiter, or a link of the comments. -/
def BlockLine.Keeps (width length : Nat) (C : DocComment → Prop) : BlockLine → Prop
  | link target => ∃ c, C c ∧ target ∈ Page.links c
  | l => length ≤ width ∨ l.words.length ≤ 1

theorem length_margin (ctx : Context) : ctx.margin.toList.length = ctx.marginWidth := by
  rw [Context.margin, Context.marginWidth, String.toList_join, List.length_flatMap,
    List.map_replicate, List.sum_replicate_nat, String.length_toList, Nat.mul_comm]

theorem keeps_of_isWritten {ctx : Context} {cs : List DocComment} {C : DocComment → Prop}
    (hcs : ∀ c ∈ cs, C c) {l : BlockLine} (hl : IsWritten ctx cs l) :
    l.Keeps ctx.layout.width (ctx.margin.toList ++ l.string.toList).length C := by
  rw [List.length_append, length_margin]
  cases hl with
  | opening => exact Or.inr (Nat.zero_le 1)
  | between => exact Or.inr (Nat.zero_le 1)
  | closing => exact Or.inr (Nat.zero_le 1)
  | @whole c hc hfits =>
    have hroom : ctx.marginWidth + (commentText c.text).length + 7 ≤ ctx.layout.width :=
      of_decide_eq_true (Bool.and_eq_true_iff.mp hfits).2
    rw [← String.length_toList] at hroom
    refine Or.inl ?_
    simp [BlockLine.string]
    omega
  | @text c t hc ht =>
    have hroom : ctx.marginWidth + 3 + t.toList.length ≤ ctx.layout.width ∨
        (Text.words t.toList).length ≤ 1 := length_of_room (length_of_mem_wrap ht)
    refine hroom.imp_left fun hlength => ?_
    simp [BlockLine.string]
    omega
  | @link c target hc htarget => exact ⟨c, hcs c hc, htarget⟩

end ApiTypings.Printing
