import ApiTypings.Page.Reading
import ApiTypings.Proofs.Markup.Spots
import Mathlib.Data.List.TakeWhile
import Mathlib.Data.Option.Basic

/-!
# What a section depends on

A section ends before the next heading or title. What it says depends on the elements up to
there and on nothing behind them.
-/
namespace ApiTypings.Page

open Markup

theorem isPath_congr {a b : Spot} (hn : a.node = b.node) (he : a.enclosing = b.enclosing)
    (path : List String) : a.isPath path = b.isPath path := by
  cases path with
  | nil => rfl
  | cons tag outer => rw [Spot.isPath, Spot.isPath, Spot.hasTag, Spot.hasTag, hn, he]

/-- What is found below a node does not depend on what follows the node. -/
theorem withPath_congr {a b : Spot} (hn : a.node = b.node) (he : a.enclosing = b.enclosing)
    {path : List String} (hpath : a.isPath path = false) : a.withPath path = b.withPath path := by
  have hpath' : b.isPath path = false := by rw [← isPath_congr hn he, hpath]
  rw [Spot.withPath, Spot.withPath, Spot.all, Spot.all, List.filter_cons_of_neg (by simp [hpath]),
    List.filter_cons_of_neg (by simp [hpath']), hn, he]

theorem isPath_eq_false {s : Spot} {tag other : String} {outer : List String}
    (h : s.hasTag tag = true) (hne : tag ≠ other) : s.isPath (other :: outer) = false := by
  have hother : s.hasTag other = false := hasTag_of_hasTag_ne h hne
  rw [Spot.isPath, hother, Bool.false_and]

theorem readTable_congr {a b : Spot} (hn : a.node = b.node) (he : a.enclosing = b.enclosing)
    (h : a.hasTag "table" = true) : readTable a = readTable b := by
  have hheader : headerCells a = headerCells b :=
    withPath_congr hn he (isPath_eq_false h (by decide))
  have hrows : bodyRows a = bodyRows b := withPath_congr hn he (isPath_eq_false h (by decide))
  rw [readTable, readTable, tableColumns, tableColumns, hheader, hrows]

theorem readListing_congr {a b : Spot} (hn : a.node = b.node) (he : a.enclosing = b.enclosing)
    (h : a.hasTag "ul" = true) : readListing a = readListing b := by
  rw [readListing, readListing, withPath_congr hn he (isPath_eq_false h (by decide))]

/-- Whether a section ends before a node. -/
def isSectionEnd (n : Node) : Bool := n.hasTag headingTag || n.hasTag titleTag

/-- The elements of a section, given the siblings after its heading. -/
def sectionNodes (ns : List Node) : List Node :=
  (elementsOf ns).takeWhile (fun n => !isSectionEnd n)

theorem sectionNodes_cons (n : Node) (ns : List Node) : sectionNodes (n :: ns) =
    if isSectionEnd n then [] else if n.isElement then n :: sectionNodes ns
    else sectionNodes ns := by
  cases n with
  | element name as cs contents =>
    have helement : (Node.element name as cs contents).isElement = true := rfl
    rw [sectionNodes, elementsOf, List.filter_cons_of_pos helement, List.takeWhile_cons]
    by_cases hend : isSectionEnd (Node.element name as cs contents) = true
    · rw [if_pos hend, if_neg (by simp [hend])]
    · rw [if_neg hend, if_pos helement, if_pos (by simp [hend])]
      rfl
  | text content => rfl
  | comment content => rfl
  | doctype name => rfl

theorem followingElements_eq (heading : Spot) :
    (followingElements heading).map Spot.node = elementsOf heading.following := by
  rw [followingElements, elementsOf, ← map_node_followers heading, List.filter_map]
  rfl

theorem map_node_sectionElements (heading : Spot) :
    (sectionElements heading).map Spot.node = sectionNodes heading.following := by
  have hend : (fun n : Node => !isSectionEnd n) ∘ Spot.node =
      fun s : Spot => !s.hasTag headingTag && !s.hasTag titleTag := by
    funext s
    exact Bool.not_or ..
  rw [sectionNodes, ← followingElements_eq, List.takeWhile_map, hend]
  rfl

theorem sectionComments_eq_map (heading : Spot) : sectionComments heading =
    ((sectionNodes heading.following).takeWhile (Node.hasTag "p")).map commentOf := by
  have hparagraph : ∀ n : Node, (n.hasTag "p" = true ∧ (!isSectionEnd n) = true) ↔
      n.hasTag "p" = true := by
    intro n
    refine and_iff_left_of_imp fun hp => ?_
    rw [isSectionEnd, hasTag_of_hasTag_ne hp (by decide), hasTag_of_hasTag_ne hp (by decide)]
    rfl
  have hwhile : (sectionNodes heading.following).takeWhile (Node.hasTag "p") =
      (elementsOf heading.following).takeWhile (Node.hasTag "p") := by
    rw [sectionNodes, List.takeWhile_takeWhile]
    simp only [hparagraph, Bool.decide_eq_true]
  rw [hwhile, ← followingElements_eq, List.takeWhile_map, List.map_map, sectionComments]
  rfl

theorem enclosing_of_mem_sectionElements {heading s : Spot} (hs : s ∈ sectionElements heading) :
    s.enclosing = heading.enclosing := by
  have hgo : ∀ ns, ∀ s ∈ Spot.followers.go heading ns, s.enclosing = heading.enclosing := by
    intro ns
    induction ns with
    | nil => simp [Spot.followers.go]
    | cons n ns ih => exact List.forall_mem_cons.mpr ⟨rfl, ih⟩
  exact hgo heading.following s (List.mem_filter.mp ((List.takeWhile_subset _) hs)).1

/-- The tags of the elements whose content a section is read from. -/
def contentTags : List String := ["p", "table", "ul"]

/-- What an element says to the section it stands in; of most elements only that they are
there. -/
def sectionPart (n : Node) : Option Node := if contentTags.any n.hasTag then some n else none

theorem sectionPart_of_hasTag {n : Node} {tag : String} (htag : tag ∈ contentTags)
    (h : n.hasTag tag = true) : sectionPart n = some n :=
  if_pos (List.any_eq_true.mpr ⟨tag, htag, h⟩)

theorem any_sectionPart {tag : String} (htag : tag ∈ contentTags) :
    Option.any (Node.hasTag tag) ∘ sectionPart = Node.hasTag tag := by
  funext n
  by_cases h : n.hasTag tag = true
  · rw [Function.comp_apply, sectionPart_of_hasTag htag h, Option.any_some]
  · rw [Function.comp_apply, sectionPart]
    split
    · rfl
    · exact (Bool.not_eq_true _ ▸ h).symm

theorem takeWhile_of_map_sectionPart {ns ns' : List Node}
    (h : ns.map sectionPart = ns'.map sectionPart) {tag : String} (htag : tag ∈ contentTags) :
    ns.takeWhile (Node.hasTag tag) = ns'.takeWhile (Node.hasTag tag) := by
  have hwhile : ∀ ns : List Node, (ns.map sectionPart).takeWhile (Option.any (Node.hasTag tag)) =
      (ns.takeWhile (Node.hasTag tag)).map some := by
    intro ns
    rw [List.takeWhile_map, any_sectionPart htag]
    exact List.map_congr_left fun n hn =>
      sectionPart_of_hasTag htag (List.mem_takeWhile_imp hn)
  refine List.map_injective_iff.mpr (Option.some_injective Node) ?_
  rw [← hwhile, ← hwhile, h]

theorem find?_of_map_sectionPart {ns ns' : List Node}
    (h : ns.map sectionPart = ns'.map sectionPart) {tag : String} (htag : tag ∈ contentTags) :
    ns.find? (Node.hasTag tag) = ns'.find? (Node.hasTag tag) := by
  have hfind : ∀ ns : List Node, (ns.map sectionPart).find? (Option.any (Node.hasTag tag)) =
      (ns.find? (Node.hasTag tag)).map some := by
    intro ns
    rw [List.find?_map, any_sectionPart htag]
    cases hn : ns.find? (Node.hasTag tag) with
    | none => rfl
    | some n => exact congrArg some (sectionPart_of_hasTag htag (List.find?_some hn))
  refine Option.map_injective (Option.some_injective Node) ?_
  rw [← hfind, ← hfind, h]

/-- The headings of sections that say the same in the same place. -/
structure SameParts (a b : Spot) : Prop where
  enclosing : a.enclosing = b.enclosing
  parts : (sectionNodes a.following).map sectionPart = (sectionNodes b.following).map sectionPart

namespace SameParts

variable {a b : Spot} (h : SameParts a b) {tag : String} (htag : tag ∈ contentTags)

include h htag

/-- Both sections hold the same first element with a tag, or none. -/
theorem find?_sectionElements :
    ((sectionElements a).find? (Spot.hasTag tag) = none ∧
        (sectionElements b).find? (Spot.hasTag tag) = none) ∨
      ∃ s t, (sectionElements a).find? (Spot.hasTag tag) = some s ∧
        (sectionElements b).find? (Spot.hasTag tag) = some t ∧ s.node = t.node ∧
        s.enclosing = t.enclosing ∧ s.hasTag tag = true := by
  have hfind : ∀ heading : Spot, ((sectionElements heading).find? (Spot.hasTag tag)).map Spot.node =
      (sectionNodes heading.following).find? (Node.hasTag tag) := by
    intro heading
    rw [← map_node_sectionElements, List.find?_map]
    rfl
  have hsame := (hfind a).trans ((find?_of_map_sectionPart h.parts htag).trans (hfind b).symm)
  cases hs : (sectionElements a).find? (Spot.hasTag tag) with
  | none =>
    rw [hs] at hsame
    exact Or.inl ⟨rfl, Option.map_eq_none_iff.mp hsame.symm⟩
  | some s =>
    rw [hs] at hsame
    obtain ⟨t, ht, hst⟩ := Option.map_eq_some_iff.mp hsame.symm
    have hsa := enclosing_of_mem_sectionElements (List.mem_of_find?_eq_some hs)
    have htb := enclosing_of_mem_sectionElements (List.mem_of_find?_eq_some ht)
    exact Or.inr ⟨s, t, rfl, ht, hst.symm, by rw [hsa, h.enclosing, htb], List.find?_some hs⟩

omit htag

/-- A section is read from its own parts only. -/
theorem readSection_eq_readSection : readSection a = readSection b := by
  have hcomments : sectionComments a = sectionComments b := by
    rw [sectionComments_eq_map, sectionComments_eq_map,
      takeWhile_of_map_sectionPart h.parts (by decide)]
  have htable : "table" ∈ contentTags := by decide
  have hlisting : "ul" ∈ contentTags := by decide
  rw [readSection, readSection, hcomments]
  rcases h.find?_sectionElements htable with ⟨ha, hb⟩ | ⟨s, t, ha, hb, hn, hen, htag⟩
  · rw [ha, hb]
    rcases h.find?_sectionElements hlisting with ⟨ha, hb⟩ | ⟨s, t, ha, hb, hn, hen, htag⟩
    · rw [ha, hb]
    · simp only [ha, hb, readListing_congr hn hen htag]
  · simp only [ha, hb, readTable_congr hn hen htag]

end SameParts

end ApiTypings.Page
