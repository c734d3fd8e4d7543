import ApiTypings.Page.Comment
import ApiTypings.Proofs.Markup.Places
import Mathlib.Data.List.Induction
import Mathlib.Data.List.Nodup

/-!
# The links of a comment

The links are collected from the beginning of a document to its end, and a link that is there
already is left out. So each link stands where the first element leads to it, whatever the other
elements and however differently their targets are spelled.
-/
namespace ApiTypings.Page

open Markup

/-- The link that a target leads to. An empty target leads nowhere. -/
inductive LeadsTo : String → String → Prop
  | absolute {target : String} : "http".toList <+: target.toList → LeadsTo target target
  | path {target : String} : "/".toList <+: target.toList →
      LeadsTo target (siteAddress ++ target)
  | onPage {target : String} : target ≠ "" → ¬ "http".toList <+: target.toList →
      ¬ "/".toList <+: target.toList → LeadsTo target (pageAddress ++ target)

theorem resolveTarget?_eq (target : String) :
    resolveTarget? target =
      if target = "" then none
      else if "http".toList <+: target.toList then some target
      else if "/".toList <+: target.toList then some (siteAddress ++ target)
      else some (pageAddress ++ target) := by
  have hempty : target = "" ↔ target.toList = [] := by simp
  unfold resolveTarget?
  split
  · next htarget => rw [if_pos (hempty.mpr htarget)]
  · next c cs htarget =>
    have hne : target ≠ "" := fun h => List.cons_ne_nil c cs (htarget.symm.trans (hempty.mp h))
    have hslash : "/".toList <+: c :: cs ↔ (c == '/') = true := by
      show ['/'] <+: c :: cs ↔ (c == '/') = true
      rw [List.cons_prefix_cons, and_iff_left List.nil_prefix, beq_iff_eq, eq_comm]
    rw [if_neg hne, htarget]
    simp only [List.isPrefixOf_iff_prefix, hslash]

theorem not_http_of_slash {target : String} (hslash : "/".toList <+: target.toList) :
    ¬ "http".toList <+: target.toList := by
  rintro ⟨rest, hhttp⟩
  obtain ⟨rest', htarget⟩ := hslash
  exact absurd (List.cons.inj (hhttp.trans htarget.symm)).1 (by decide)

theorem resolveTarget?_eq_some_iff {target l : String} :
    resolveTarget? target = some l ↔ LeadsTo target l := by
  rw [resolveTarget?_eq]
  constructor
  · intro h
    split at h
    · cases h
    · next hne =>
      split at h
      · next hhttp =>
        obtain rfl := Option.some.inj h
        exact .absolute hhttp
      · next hhttp =>
        split at h
        · next hslash =>
          obtain rfl := Option.some.inj h
          exact .path hslash
        · next hslash =>
          obtain rfl := Option.some.inj h
          exact .onPage hne hhttp hslash
  · intro h
    cases h with
    | absolute hhttp =>
      have hne : target ≠ "" := by
        rintro rfl
        exact absurd hhttp (by decide)
      rw [if_neg hne, if_pos hhttp]
    | path hslash =>
      have hne : target ≠ "" := by
        rintro rfl
        exact absurd hslash (by decide)
      rw [if_neg hne, if_neg (not_http_of_slash hslash), if_pos hslash]
    | onPage hne hhttp hslash => rw [if_neg hne, if_neg hhttp, if_neg hslash]

/-- A link is a target itself, and leads to itself. -/
theorem LeadsTo.self {target l : String} (h : LeadsTo target l) : LeadsTo l l := by
  apply LeadsTo.absolute
  cases h with
  | absolute hhttp => exact hhttp
  | path =>
    rw [String.toList_append]
    exact List.IsPrefix.trans (by decide) (List.prefix_append siteAddress.toList _)
  | onPage =>
    rw [String.toList_append]
    exact List.IsPrefix.trans (by decide) (List.prefix_append pageAddress.toList _)

/-- Whether an `a` element stands at a place whose target leads to a link. -/
def LinkAt (document : List Node) (place : List Nat) (l : String) : Prop :=
  ∃ n target, nodeAt? document place = some n ∧ n.hasTag "a" = true ∧
    n.attribute? "href" = some target ∧ LeadsTo target l

/-- The first place at which a link stands. -/
def FirstAt (standsAt : List Nat → String → Prop) (place : List Nat) (l : String) : Prop :=
  standsAt place l ∧ ∀ before < place, ¬ standsAt before l

/-- Whether links are listed once each, in the order of the first places at which they stand. -/
structure ListsLinks (standsAt : List Nat → String → Prop) (ls : List String) : Prop where
  nodup : ls.Nodup
  mem_iff : ∀ l, l ∈ ls ↔ ∃ place, standsAt place l
  first : ∀ l ∈ ls, ∃ place, FirstAt standsAt place l
  ordered : ls.Pairwise fun l m =>
    ∀ p q, FirstAt standsAt p l → FirstAt standsAt q m → p < q

/-- What stands in a document decides the list. -/
theorem ListsLinks.unique {standsAt : List Nat → String → Prop} {ls ms : List String}
    (hls : ListsLinks standsAt ls) (hms : ListsLinks standsAt ms) : ls = ms := by
  have hperm : ls.Perm ms := (List.perm_ext_iff_of_nodup hls.nodup hms.nodup).mpr fun l =>
    (hls.mem_iff l).trans (hms.mem_iff l).symm
  refine hperm.eq_of_pairwise ?_ hls.ordered hms.ordered
  intro l m hl hm hlm hml
  obtain ⟨p, hp⟩ := hls.first l hl
  obtain ⟨q, hq⟩ := hms.first m hm
  exact absurd (hlm p q hp hq) (lt_asymm (hml q p hq hp))

/-! ### Collecting links -/

/-- Whether a link stands at a place, according to a list of places with their links. -/
def StandsIn (items : List (List Nat × String)) (place : List Nat) (l : String) : Prop :=
  (place, l) ∈ items

section Step

variable {items : List (List Nat × String)} {ls : List String} {place p : List Nat} {l m : String}

theorem standsIn_concat :
    StandsIn (items ++ [(place, l)]) p m ↔ StandsIn items p m ∨ p = place ∧ m = l := by
  simp [StandsIn]

/-- The place at the end is a first place exactly for a link that stood nowhere before. -/
theorem firstAt_concat (hlast : ∀ x ∈ items, x.1 < place) :
    FirstAt (StandsIn (items ++ [(place, l)])) p m ↔
      FirstAt (StandsIn items) p m ∨ p = place ∧ m = l ∧ ∀ before, ¬ StandsIn items before l := by
  constructor
  · rintro ⟨hstands, hfirst⟩
    rcases standsIn_concat.mp hstands with hold | ⟨rfl, rfl⟩
    · exact Or.inl ⟨hold, fun before hlt h => hfirst before hlt (standsIn_concat.mpr (.inl h))⟩
    · refine Or.inr ⟨rfl, rfl, fun before h => ?_⟩
      exact hfirst before (hlast _ h) (standsIn_concat.mpr (.inl h))
  · rintro (⟨hold, hfirst⟩ | ⟨rfl, rfl, hnew⟩)
    · refine ⟨standsIn_concat.mpr (.inl hold), fun before hlt h => ?_⟩
      rcases standsIn_concat.mp h with h | ⟨rfl, -⟩
      · exact hfirst before hlt h
      · exact lt_asymm hlt (hlast _ hold)
    · refine ⟨standsIn_concat.mpr (.inr ⟨rfl, rfl⟩), fun before hlt h => ?_⟩
      rcases standsIn_concat.mp h with h | ⟨rfl, -⟩
      · exact hnew before h
      · exact lt_irrefl _ hlt

theorem ListsLinks.exists_standsIn_concat (h : ListsLinks (StandsIn items) ls) :
    (∃ p, StandsIn (items ++ [(place, l)]) p m) ↔ m ∈ ls ∨ m = l := by
  simp only [standsIn_concat, exists_or, h.mem_iff, exists_eq_left]

/-- A link that is listed already can be left out. -/
theorem ListsLinks.concat_of_mem (hlast : ∀ x ∈ items, x.1 < place)
    (h : ListsLinks (StandsIn items) ls) (hl : l ∈ ls) :
    ListsLinks (StandsIn (items ++ [(place, l)])) ls := by
  obtain ⟨old, hold⟩ := (h.mem_iff l).mp hl
  have hsame : ∀ p m, FirstAt (StandsIn (items ++ [(place, l)])) p m ↔
      FirstAt (StandsIn items) p m := by
    intro p m
    rw [firstAt_concat hlast]
    exact or_iff_left fun hnew => hnew.2.2 old hold
  refine ⟨h.nodup, fun m => ?_, ?_, ?_⟩
  · rw [h.exists_standsIn_concat]
    exact (or_iff_left_of_imp fun hm => hm ▸ hl).symm
  · simpa only [hsame] using h.first
  · simpa only [hsame] using h.ordered

/-- A link that is not listed yet comes behind all others. -/
theorem ListsLinks.concat_of_not_mem (hlast : ∀ x ∈ items, x.1 < place)
    (h : ListsLinks (StandsIn items) ls) (hl : l ∉ ls) :
    ListsLinks (StandsIn (items ++ [(place, l)])) (ls ++ [l]) := by
  have hnew : ∀ before, ¬ StandsIn items before l :=
    fun before hstands => hl ((h.mem_iff l).mpr ⟨before, hstands⟩)
  have hold : ∀ p m, m ∈ ls → FirstAt (StandsIn (items ++ [(place, l)])) p m →
      FirstAt (StandsIn items) p m := by
    intro p m hm hfirst
    refine ((firstAt_concat hlast).mp hfirst).resolve_right ?_
    rintro ⟨-, rfl, -⟩
    exact hl hm
  refine ⟨?_, fun m => ?_, ?_, ?_⟩
  · refine List.nodup_append.mpr ⟨h.nodup, List.nodup_singleton l, fun m hm m' hm' => ?_⟩
    rintro rfl
    exact hl (List.mem_singleton.mp hm' ▸ hm)
  · rw [h.exists_standsIn_concat, List.mem_append, List.mem_singleton]
  · intro m hm
    rcases List.mem_append.mp hm with hm | hm
    · obtain ⟨p, hp⟩ := h.first m hm
      exact ⟨p, (firstAt_concat hlast).mpr (.inl hp)⟩
    · obtain rfl := List.mem_singleton.mp hm
      exact ⟨place, (firstAt_concat hlast).mpr (.inr ⟨rfl, rfl, hnew⟩)⟩
  · refine List.pairwise_append.mpr ⟨?_, List.pairwise_singleton .., ?_⟩
    · refine h.ordered.imp_of_mem fun hm hm' hlt p q hp hq => ?_
      exact hlt p q (hold p _ hm hp) (hold q _ hm' hq)
    · intro m hm m' hm' p q hp hq
      obtain rfl := List.mem_singleton.mp hm'
      obtain ⟨rfl, -, -⟩ := ((firstAt_concat hlast).mp hq).resolve_left fun h => hnew q h.1
      exact hlast _ (hold p m hm hp).1

end Step

theorem firstOccurrences_concat (ls : List String) (l : String) :
    firstOccurrences (ls ++ [l]) =
      if l ∈ firstOccurrences ls then firstOccurrences ls else firstOccurrences ls ++ [l] := by
  simp [firstOccurrences]

/-- Keeping the first of equal links lists the links of items whose places ascend. -/
theorem listsLinks_firstOccurrences {items : List (List Nat × String)}
    (h : items.Pairwise fun x y => x.1 < y.1) :
    ListsLinks (StandsIn items) (firstOccurrences (items.map Prod.snd)) := by
  -- The loop adds links at the end, so the induction takes items from the end.
  induction items using List.reverseRecOn with
  | nil => exact ⟨.nil, by simp [firstOccurrences, StandsIn], by simp [firstOccurrences], .nil⟩
  | append_singleton items x ih =>
    obtain ⟨hitems, -, hlast⟩ := List.pairwise_append.mp h
    have hbefore : ∀ y ∈ items, y.1 < x.1 := fun y hy => hlast y hy x List.mem_cons_self
    rw [List.map_append, List.map_singleton, firstOccurrences_concat]
    split
    · next hx => exact (ih hitems).concat_of_mem hbefore hx
    · next hx => exact (ih hitems).concat_of_not_mem hbefore hx

/-! ### The links of a document -/

/-- The link that a node leads to, if it is an `a` element with a target. -/
def linkOf? (n : Node) : Option String :=
  if n.hasTag "a" then (n.attribute? "href").bind resolveTarget? else none

theorem linkAt_iff {document : List Node} {place : List Nat} {l : String} :
    LinkAt document place l ↔ ∃ n, nodeAt? document place = some n ∧ linkOf? n = some l := by
  refine exists_congr fun n => ?_
  unfold linkOf?
  split
  · next ha => simp [ha, Option.bind_eq_some_iff, resolveTarget?_eq_some_iff]
  · next ha => simp [ha]

/-- The links of a document with their places, in document order. -/
def placedLinks (document : List Node) : List (List Nat × String) :=
  (placedNodes 0 document).filterMap fun x => (linkOf? x.2).map fun l => (x.1, l)

theorem map_snd_placedLinks (document : List Node) :
    (placedLinks document).map Prod.snd = linkTargets document := by
  have hspots : linkTargets document =
      ((spotsOfAll [] document).map Spot.node).filterMap linkOf? := by
    rw [List.filterMap_map]
    rfl
  rw [hspots, ← map_snd_placedNodes 0, List.filterMap_map, placedLinks, List.map_filterMap]
  refine List.filterMap_congr fun x _ => ?_
  simp [Function.comp_def]

theorem standsIn_placedLinks {document : List Node} {place : List Nat} {l : String} :
    StandsIn (placedLinks document) place l ↔ LinkAt document place l := by
  rw [linkAt_iff, StandsIn, placedLinks, List.mem_filterMap]
  constructor
  · rintro ⟨⟨place', n⟩, hnode, hlink⟩
    obtain ⟨l', hl', heq⟩ := Option.map_eq_some_iff.mp hlink
    obtain ⟨rfl, rfl⟩ := Prod.mk.inj heq
    exact ⟨n, mem_placedNodes_zero.mp hnode, hl'⟩
  · rintro ⟨n, hnode, hl⟩
    exact ⟨(place, n), mem_placedNodes_zero.mpr hnode, by rw [hl]; rfl⟩

theorem pairwise_placedLinks (document : List Node) :
    (placedLinks document).Pairwise fun x y => x.1 < y.1 := by
  refine List.pairwise_filterMap.mpr ((pairwise_placedNodes 0 document).imp ?_)
  intro x y hlt x' hx y' hy
  obtain ⟨l, -, rfl⟩ := Option.map_eq_some_iff.mp hx
  obtain ⟨m, -, rfl⟩ := Option.map_eq_some_iff.mp hy
  exact hlt

theorem listsLinks_documentLinks (document : List Node) :
    ListsLinks (LinkAt document) (documentLinks document) := by
  have hplaced : StandsIn (placedLinks document) = LinkAt document := by
    funext place l
    exact propext standsIn_placedLinks
  have hlists := listsLinks_firstOccurrences (pairwise_placedLinks document)
  rwa [hplaced, map_snd_placedLinks] at hlists

/-- The links of a comment are listed once each: exactly those that some `a` element of its document
leads to, in the order of the first elements that do. Since a link leads to itself, a target and
its absolute form are one link. -/
theorem links_in_document_order (c : DocComment) :
    (∀ ls, links c = ls ↔ ListsLinks (LinkAt (readDocument c.markup)) ls) ∧
      ∀ target l, LeadsTo target l → LeadsTo l l := by
  have hlinks : ListsLinks (LinkAt (readDocument c.markup)) (links c) :=
    listsLinks_documentLinks (readDocument c.markup)
  refine ⟨fun ls => ⟨?_, hlinks.unique⟩, fun target l => LeadsTo.self⟩
  rintro rfl
  exact hlinks

/-- A place on the page and its absolute form are one link. -/
example :
    documentLinks
      [.element ⟨.html, "a"⟩ [⟨.plain, "href", "#x"⟩] [] [],
        .element ⟨.html, "a"⟩ [⟨.plain, "href", "https://core.telegram.org/bots/api#x"⟩] [] []] =
      ["https://core.telegram.org/bots/api#x"] := by decide

end ApiTypings.Page
