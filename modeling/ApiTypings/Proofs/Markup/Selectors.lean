import ApiTypings.Markup.Selector
import ApiTypings.Page.Reading
import ApiTypings.Proofs.Text.Wrap

/-!
# Selectors and paths

A path of tags is what a selector asks for that names an element and the parents around it. So
the cells, rows, items and headings from which a page is read are those that selectors name.
-/
namespace ApiTypings

namespace Markup

open Page (isIdentifierChar isBlank_of_isIdentifierChar)
open Text

namespace Selector

/-- A tag that a selector asks for by its name, in small letters. -/
structure IsPlain (tag : String) : Prop where
  isTag : isTag tag.toList = true
  named : tag ≠ "*"
  small : tag.toLower = tag

/-- The selector for a path of tags, which is given from the inside out. -/
def pathText : List String → String
  | [] => ""
  | [tag] => tag
  | tag :: outer => pathText outer ++ " > " ++ tag

/-- The chain that asks for an element and the parents around it. -/
def pathChain (tag : String) (outer : List String) : Chain := ⟨tag, outer.map ((.parent, ·))⟩

variable {tag : String} {outer : List String}

/-! ### Choosing elements -/

theorem IsPlain.matchesName (h : IsPlain tag) (n : ElementName) :
    matchesName tag n = (n.tag == tag) := by
  have hany : (tag == "*") = false := beq_false_of_ne h.named
  rw [Selector.matchesName, hany, h.small, ite_self, Bool.false_or]

theorem enclosedBy_parents (h : ∀ t ∈ outer, IsPlain t) (es : List ElementName) :
    enclosedBy es (outer.map ((.parent, ·))) = outer.isPrefixOf (es.map ElementName.tag) := by
  induction outer generalizing es with
  | nil => cases es <;> rfl
  | cons t outer ih =>
    obtain ⟨ht, houter⟩ := List.forall_mem_cons.mp h
    cases es with
    | nil => rfl
    | cons e es =>
      rw [List.map_cons, List.map_cons, enclosedBy, ht.matchesName, ih houter, List.isPrefixOf,
        Bool.beq_comm]

/-- The chain of a path selects what is on the path. -/
theorem selects_pathChain (h : ∀ t ∈ tag :: outer, IsPlain t) (s : Spot) :
    (pathChain tag outer).selects s = s.isPath (tag :: outer) := by
  obtain ⟨htag, houter⟩ := List.forall_mem_cons.mp h
  rw [Chain.selects, Spot.isPath, Spot.hasTag]
  cases hnode : s.node with
  | element name as cs contents =>
    show (Selector.matchesName tag name && enclosedBy s.enclosing _) = _
    rw [htag.matchesName, pathChain, enclosedBy_parents houter]
    rfl
  | text => rfl
  | comment => rfl
  | doctype => rfl

/-! ### Reading selectors -/

theorem IsPlain.chars (h : IsPlain tag) :
    tag.toList ≠ [] ∧ ∀ c ∈ tag.toList, isBlank c = false ∧ c ≠ '>' ∧ c ≠ ',' := by
  have hstar : (tag.toList == ['*']) = false :=
    beq_false_of_ne fun heq => h.named (String.toList_inj.mp heq)
  have htag := h.isTag
  rw [Selector.isTag, hstar, Bool.false_or, Bool.and_eq_true, List.all_eq_true] at htag
  constructor
  · intro hnil
    rw [hnil] at htag
    exact absurd htag.2 (by decide)
  · intro c hc
    have hsign := htag.1 c hc
    have hkind : isIdentifierChar c = true ∨ c = '-' := by
      rw [isIdentifierChar]
      simp only [Bool.or_eq_true, beq_iff_eq] at hsign ⊢
      tauto
    refine ⟨?_, ?_, ?_⟩
    · rcases hkind with hletter | rfl
      · exact isBlank_of_isIdentifierChar hletter
      · decide
    · rintro rfl
      exact absurd hsign (by decide)
    · rintro rfl
      exact absurd hsign (by decide)

theorem IsPlain.ne_parent (h : IsPlain tag) : tag.toList ≠ ['>'] := by
  intro heq
  have hchar := (h.chars.2 '>' (by rw [heq]; exact List.mem_cons_self)).2.1
  exact hchar rfl

theorem spaced_append (s t : List Char) : spaced (s ++ t) = spaced s ++ spaced t :=
  List.flatMap_append

theorem IsPlain.spaced_eq (h : IsPlain tag) : spaced tag.toList = tag.toList := by
  have hkept : ∀ c ∈ tag.toList, (if c == '>' then [' ', '>', ' '] else [c]) = [c] := by
    intro c hc
    rw [if_neg (by simpa using (h.chars.2 c hc).2.1)]
  rw [spaced, List.flatMap_congr hkept, List.flatMap_singleton']

theorem IsPlain.words_eq (h : IsPlain tag) : words tag.toList = [tag.toList] :=
  words_of_word h.chars.1 fun c hc => (h.chars.2 c hc).1

/-- The words of a path are its tags, with a sign for the parent in front of each but the first. -/
theorem reverse_words_pathText (h : ∀ t ∈ tag :: outer, IsPlain t) :
    (words (spaced (pathText (tag :: outer)).toList)).reverse =
      tag.toList :: outer.flatMap (fun t => [['>'], t.toList]) := by
  induction outer generalizing tag with
  | nil =>
    obtain ⟨htag, -⟩ := List.forall_mem_cons.mp h
    rw [pathText, htag.spaced_eq, htag.words_eq]
    rfl
  | cons u outer ih =>
    obtain ⟨htag, houter⟩ := List.forall_mem_cons.mp h
    have hsign : spaced " > ".toList = [' ', ' ', '>', ' ', ' '] := by decide
    have hparent : words ['>'] = [['>']] := by decide
    have hwords : words (spaced (pathText (tag :: u :: outer)).toList) =
        words (spaced (pathText (u :: outer)).toList) ++ [['>'], tag.toList] := by
      have hcut : ∀ a t : List Char, a ++ [' ', ' ', '>', ' ', ' '] ++ t =
          a ++ ' ' :: ([] ++ ' ' :: (['>'] ++ ' ' :: ([] ++ ' ' :: t))) := by simp
      rw [pathText, String.toList_append, String.toList_append, spaced_append, spaced_append, hsign,
        htag.spaced_eq, hcut, words_append_space, words_append_space, words_append_space,
        words_append_space, hparent, htag.words_eq]
      · rfl
      · simp
    rw [hwords, List.reverse_append, ih houter]
    rfl

theorem ne_comma_of_mem_pathText {path : List String} (h : ∀ t ∈ path, IsPlain t) {c : Char}
    (hc : c ∈ (pathText path).toList) : c ≠ ',' := by
  fun_induction pathText path with
  | case1 => simp at hc
  | case2 tag => exact ((h tag List.mem_cons_self).chars.2 c hc).2.2
  | case3 tag outer hne ih =>
    obtain ⟨htag, houter⟩ := List.forall_mem_cons.mp h
    simp only [String.toList_append, List.mem_append] at hc
    rcases hc with (hc | hc) | hc
    · exact ih houter hc
    · rintro rfl
      exact absurd hc (by decide)
    · exact (htag.chars.2 c hc).2.2

theorem chainOf?_parents (h : ∀ t ∈ outer, IsPlain t) :
    chainOf? .anywhere (outer.flatMap (fun t => [['>'], t.toList])) =
      some (outer.map ((.parent, ·))) := by
  induction outer with
  | nil => rfl
  | cons t outer ih =>
    obtain ⟨ht, houter⟩ := List.forall_mem_cons.mp h
    have htag : (t.toList == ['>']) = false := beq_false_of_ne ht.ne_parent
    have hrest : chainOf? .parent (t.toList :: outer.flatMap (fun t => [['>'], t.toList])) =
        some ((.parent, t) :: outer.map ((.parent, ·))) := by
      rw [chainOf?, htag, ht.isTag, ih houter, String.ofList_toList]
      rfl
    exact hrest

/-- A path is read as the chain that asks for it. -/
theorem ofString?_pathText (h : ∀ t ∈ tag :: outer, IsPlain t) :
    ofString? (pathText (tag :: outer)) = some [pathChain tag outer] := by
  obtain ⟨htag, houter⟩ := List.forall_mem_cons.mp h
  have hchain : Chain.ofText? (pathText (tag :: outer)).toList = some (pathChain tag outer) := by
    rw [Chain.ofText?, reverse_words_pathText h]
    show (if isTag tag.toList then _ else _) = _
    rw [htag.isTag, chainOf?_parents houter, String.ofList_toList]
    rfl
  have hpieces : pieces (fun c => c == ',') (pathText (tag :: outer)).toList =
      [(pathText (tag :: outer)).toList] :=
    pieces_of_forall fun c hc => beq_false_of_ne (ne_comma_of_mem_pathText h hc)
  rw [ofString?, hpieces, List.mapM_cons, hchain]
  rfl

theorem selects_path (h : ∀ t ∈ tag :: outer, IsPlain t) :
    Selector.selects [pathChain tag outer] = Spot.isPath (tag :: outer) := by
  funext s
  rw [Selector.selects, List.any_cons, List.any_nil, Bool.or_false, selects_pathChain h]

end Selector

/-- The spots at and below `s` that a selector in words names. -/
def Spot.select? (text : String) (s : Spot) : Option (List Spot) :=
  (Selector.ofString? text).map (fun sel => s.all.filter sel.selects)

/-- What is on a path of tags is what the selector for the path names. -/
theorem Spot.select?_pathText {path : List String} (hne : path ≠ [])
    (h : ∀ t ∈ path, Selector.IsPlain t) (s : Spot) :
    s.select? (Selector.pathText path) = some (s.withPath path) := by
  obtain ⟨tag, outer, rfl⟩ := List.exists_cons_of_ne_nil hne
  rw [select?, Selector.ofString?_pathText h, Option.map_some, Selector.selects_path h]
  rfl

end Markup

/-! ### The selectors of the reader -/

namespace Page

open Markup

/-- The tags by which a page is read. -/
def readerTags : List String := ["th", "tr", "thead", "tbody", "td", "li", headingTag]

theorem isPlain_of_mem_readerTags {tag : String} (h : tag ∈ readerTags) :
    Selector.IsPlain tag := by
  have hall : ∀ tag ∈ readerTags,
      Selector.isTag tag.toList = true ∧ tag ≠ "*" ∧ tag.toLower = tag := by decide +kernel
  obtain ⟨htag, hnamed, hsmall⟩ := hall tag h
  exact ⟨htag, hnamed, hsmall⟩

/-- The selector for a path of the reader, in words. -/
theorem select?_of_pathText (path : List String) {text : String} (hne : path ≠ [])
    (hpath : path ⊆ readerTags) (htext : Selector.pathText path = text) (s : Spot) :
    s.select? text = some (s.withPath path) := by
  rw [← htext]
  exact Spot.select?_pathText hne (fun t ht => isPlain_of_mem_readerTags (hpath ht)) s

/-- Header cells, rows, cells and items of lists are what these selectors name. -/
theorem reader_selects (s : Spot) :
    s.select? "thead > tr > th" = some (headerCells s) ∧
    s.select? "tbody > tr" = some (bodyRows s) ∧
    (s.select? "td").map (List.map Spot.node) = some (rowCells s) ∧
    (s.select? "li").map (List.mapM (fun item => itemName item.text)) = some (readListing s) := by
  have hcells : s.select? "td" = some (s.withPath ["td"]) :=
    select?_of_pathText ["td"] (by simp) (by decide) rfl s
  have hitems : s.select? "li" = some (s.withPath ["li"]) :=
    select?_of_pathText ["li"] (by simp) (by decide) rfl s
  refine ⟨?_, ?_, ?_, ?_⟩
  · exact select?_of_pathText ["th", "tr", "thead"] (by simp) (by decide) (by decide) s
  · exact select?_of_pathText ["tr", "tbody"] (by simp) (by decide) (by decide) s
  · rw [hcells]
    rfl
  · rw [hitems]
    rfl

/-- The headings of a document are what their tag selects. -/
theorem headings_eq_select (document : List Node) :
    (Selector.ofString? headingTag).map (fun sel => sel.select document) =
      some (headings document) := by
  have hplain : ∀ t ∈ [headingTag], Selector.IsPlain t :=
    List.forall_mem_singleton.mpr (isPlain_of_mem_readerTags (by decide))
  have hpath : Spot.isPath [headingTag] = Spot.hasTag headingTag := by
    funext s
    rw [Spot.isPath, List.isPrefixOf, Bool.and_true]
  have hread : Selector.ofString? headingTag = some [Selector.pathChain headingTag []] :=
    Selector.ofString?_pathText hplain
  rw [hread, Option.map_some, Selector.select, Selector.selects_path hplain, hpath]
  rfl

end Page

end ApiTypings
