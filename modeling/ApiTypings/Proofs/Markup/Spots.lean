import ApiTypings.Markup.Spot
import Mathlib.Data.List.Forall2

/-!
# Nodes at and below a list of siblings

What holds of every node of a document does not depend on where the document stands. Nodes on
a path of tags are found level by level, among the child elements of what encloses them.
-/
namespace ApiTypings.Markup

/-- To prove a property of all lists of siblings, prove it from the children and the later
siblings of the first. -/
theorem siblings_induction {P : List Node → Prop} (nil : P [])
    (cons : ∀ n ns, P n.children → P ns → P (n :: ns)) : ∀ ns, P ns :=
  @Node.rec_1 (fun n => P n.children) P
    (fun _ _ _ _ h _ => h) (fun _ => nil) (fun _ => nil) (fun _ => nil) nil
    (fun n ns hn hns => cons n ns hn hns)

theorem hasTag_of_hasTag_ne {n : Node} {s t : String} (h : n.hasTag s = true) (hne : s ≠ t) :
    n.hasTag t = false := by
  cases n with
  | element name as cs contents =>
    rw [Node.hasTag, beq_iff_eq] at h
    rw [Node.hasTag, h, beq_eq_false_iff_ne]
    exact hne
  | text content => rfl
  | comment content => rfl
  | doctype name => rfl

/-- The names of the elements around the children of a node. -/
def Node.around (n : Node) (enclosing : List ElementName) : List ElementName :=
  n.elementName?.toList ++ enclosing

theorem spotsBelow_eq (enclosing : List ElementName) (n : Node) :
    spotsBelow enclosing n = spotsOfAll (n.around enclosing) n.children := by
  cases n <;> rfl

theorem spotsOfAll_cons (enclosing : List ElementName) (n : Node) (ns : List Node) :
    spotsOfAll enclosing (n :: ns) =
      ⟨n, ns, enclosing⟩ ::
        (spotsOfAll (n.around enclosing) n.children ++ spotsOfAll enclosing ns) := by
  rw [spotsOfAll, spotsBelow_eq]

/-- Whether a property holds of every node at or below siblings. -/
def AllNodes (P : Node → Prop) (ns : List Node) : Prop := ∀ s ∈ spotsOfAll [] ns, P s.node

section AllNodes

variable {P : Node → Prop}

theorem forall_spots_congr (ns : List Node) (e e' : List ElementName) :
    (∀ s ∈ spotsOfAll e ns, P s.node) ↔ ∀ s ∈ spotsOfAll e' ns, P s.node := by
  induction ns using siblings_induction generalizing e e' with
  | nil => simp [spotsOfAll]
  | cons n ns hn hns =>
    rw [spotsOfAll_cons, spotsOfAll_cons, List.forall_mem_cons, List.forall_mem_cons,
      List.forall_mem_append, List.forall_mem_append, hn _ (n.around e'), hns e e']

theorem allNodes_iff {ns : List Node} (enclosing : List ElementName) :
    AllNodes P ns ↔ ∀ s ∈ spotsOfAll enclosing ns, P s.node :=
  forall_spots_congr ns [] enclosing

theorem allNodes_nil : AllNodes P [] := by simp [AllNodes, spotsOfAll]

theorem allNodes_cons {n : Node} {ns : List Node} :
    AllNodes P (n :: ns) ↔ P n ∧ AllNodes P n.children ∧ AllNodes P ns := by
  rw [AllNodes, spotsOfAll_cons, List.forall_mem_cons, List.forall_mem_append,
    ← allNodes_iff, ← allNodes_iff]

end AllNodes

/-- Siblings lack a tag if their elements and what is below them do. -/
theorem lacks_of_elements {tag : String} {ns : List Node}
    (h : ∀ n ∈ ns.filter Node.isElement,
      n.hasTag tag = false ∧ AllNodes (fun n => n.hasTag tag = false) n.children) :
    AllNodes (fun n => n.hasTag tag = false) ns := by
  induction ns with
  | nil => exact allNodes_nil
  | cons n ns ih =>
    have hns : AllNodes (fun n => n.hasTag tag = false) ns :=
      ih fun m hm => h m (by rw [List.filter_cons]; split <;> simp [List.mem_filter.mp hm])
    cases n with
    | element name as cs contents =>
      obtain ⟨hn, hbelow⟩ := h (.element name as cs contents)
        (by simp [Node.isElement, Node.elementName?])
      exact allNodes_cons.mpr ⟨hn, hbelow, hns⟩
    | text content => exact allNodes_cons.mpr ⟨rfl, allNodes_nil, hns⟩
    | comment content => exact allNodes_cons.mpr ⟨rfl, allNodes_nil, hns⟩
    | doctype name => exact allNodes_cons.mpr ⟨rfl, allNodes_nil, hns⟩

section Filter

variable {p : Node → Bool} {ns : List Node} (enclosing : List ElementName)

theorem filter_spots_eq_nil (h : AllNodes (fun n => p n = false) ns) :
    (spotsOfAll enclosing ns).filter (fun s => p s.node) = [] := by
  rw [List.filter_eq_nil_iff]
  intro s hs
  rw [(allNodes_iff enclosing).mp h s hs]
  exact Bool.false_ne_true

/-- Siblings without a node that is looked for can be skipped. -/
theorem filter_spots_append (h : AllNodes (fun n => p n = false) ns) (ms : List Node) :
    (spotsOfAll enclosing (ns ++ ms)).filter (fun s => p s.node) =
      (spotsOfAll enclosing ms).filter (fun s => p s.node) := by
  induction ns with
  | nil => rfl
  | cons n ns ih =>
    obtain ⟨hn, hbelow, hns⟩ := allNodes_cons.mp h
    rw [List.cons_append, spotsOfAll_cons, List.filter_cons_of_neg (by simp [hn]),
      List.filter_append, filter_spots_eq_nil _ hbelow, List.nil_append, ih hns]

theorem filter_spots_cons_of_pos {n : Node} (hn : p n = true)
    (hbelow : AllNodes (fun n => p n = false) n.children) :
    (spotsOfAll enclosing (n :: ns)).filter (fun s => p s.node) =
      ⟨n, ns, enclosing⟩ :: (spotsOfAll enclosing ns).filter (fun s => p s.node) := by
  rw [spotsOfAll_cons, List.filter_cons_of_pos (by simp [hn]), List.filter_append,
    filter_spots_eq_nil _ hbelow, List.nil_append]

end Filter

theorem map_node_followers (s : Spot) : s.followers.map Spot.node = s.following := by
  have hgo : ∀ ns, (Spot.followers.go s ns).map Spot.node = ns := by
    intro ns
    induction ns with
    | nil => rfl
    | cons n ns ih => rw [Spot.followers.go, List.map_cons, ih]
  exact hgo s.following

/-- The elements among siblings. -/
def elementsOf (ns : List Node) : List Node := ns.filter Node.isElement

/-- The nodes on a path of tags at or below siblings, in document order. -/
def nodesAt (path : List String) (enclosing : List ElementName) (ns : List Node) : List Node :=
  ((spotsOfAll enclosing ns).filter (Spot.isPath path)).map Spot.node

theorem map_node_withPath (path : List String) (s : Spot) :
    (s.withPath path).map Spot.node = nodesAt path s.enclosing [s.node] := by
  have hsame : Spot.isPath path ⟨s.node, [], s.enclosing⟩ = Spot.isPath path s := by
    cases path <;> rfl
  rw [Spot.withPath, Spot.all, spotsBelow_eq, nodesAt, spotsOfAll_cons, spotsOfAll,
    List.append_nil, List.filter_cons, List.filter_cons, hsame]
  split <;> rfl

section Path

variable {tag : String} {outer : List String} (enclosing : List ElementName)

theorem nodesAt_cons (n : Node) (ns : List Node) :
    nodesAt (tag :: outer) enclosing (n :: ns) =
      (if n.hasTag tag && outer.isPrefixOf (enclosing.map ElementName.tag) then [n] else []) ++
        nodesAt (tag :: outer) (n.around enclosing) n.children ++
        nodesAt (tag :: outer) enclosing ns := by
  have hpath : Spot.isPath (tag :: outer) ⟨n, ns, enclosing⟩ =
      (n.hasTag tag && outer.isPrefixOf (enclosing.map ElementName.tag)) := rfl
  rw [nodesAt, nodesAt, nodesAt, spotsOfAll_cons, List.filter_cons, List.filter_append, hpath]
  split <;> simp

theorem nodesAt_of_not_element {n : Node} (h : n.isElement = false) (ns : List Node) :
    nodesAt (tag :: outer) enclosing (n :: ns) = nodesAt (tag :: outer) enclosing ns := by
  rw [nodesAt_cons]
  cases n with
  | element name as cs contents => simp [Node.isElement, Node.elementName?] at h
  | text content => rfl
  | comment content => rfl
  | doctype name => rfl

/-- Only elements lead to the nodes on a path. -/
theorem nodesAt_eq_flatMap (ns : List Node) :
    nodesAt (tag :: outer) enclosing ns =
      (elementsOf ns).flatMap (fun n => nodesAt (tag :: outer) enclosing [n]) := by
  induction ns with
  | nil => rfl
  | cons n ns ih =>
    rw [elementsOf, List.filter_cons]
    split
    · next h =>
      rw [List.flatMap_cons, nodesAt_cons, nodesAt_cons, ih]
      simp [nodesAt, spotsOfAll, elementsOf]
    · next h =>
      rw [nodesAt_of_not_element enclosing (by simpa using h), ih]
      rfl

theorem nodesAt_eq_nil {ns : List Node} (h : AllNodes (fun n => n.hasTag tag = false) ns) :
    nodesAt (tag :: outer) enclosing ns = [] := by
  rw [nodesAt, List.map_eq_nil_iff, List.filter_eq_nil_iff]
  intro s hs
  simp [Spot.isPath, Spot.hasTag, (allNodes_iff enclosing).mp h s hs]

theorem nodesAt_of_hasTag {n : Node} (h : n.hasTag tag = true)
    (houter : outer <+: enclosing.map ElementName.tag)
    (hbelow : AllNodes (fun n => n.hasTag tag = false) n.children) :
    nodesAt (tag :: outer) enclosing [n] = [n] := by
  rw [nodesAt_cons, nodesAt_eq_nil _ hbelow, h, List.isPrefixOf_iff_prefix.mpr houter]
  rfl

/-- A node that is not on the path leads to what its child elements lead to. -/
theorem nodesAt_of_not_hasTag {n : Node}
    (h : n.hasTag tag = false ∨ outer.isPrefixOf (enclosing.map ElementName.tag) = false) :
    nodesAt (tag :: outer) enclosing [n] =
      (elementsOf n.children).flatMap
        (fun c => nodesAt (tag :: outer) (n.around enclosing) [c]) := by
  have hskip : (n.hasTag tag && outer.isPrefixOf (enclosing.map ElementName.tag)) = false := by
    rcases h with h | h <;> simp [h]
  rw [nodesAt_cons, hskip, nodesAt_eq_flatMap (n.around enclosing)]
  simp [nodesAt, spotsOfAll]

theorem map_tag_around {n : Node} {t : String} (h : n.hasTag t = true) :
    (n.around enclosing).map ElementName.tag = t :: enclosing.map ElementName.tag := by
  cases n with
  | element name as cs contents =>
    rw [Node.around, Node.elementName?, Option.toList, List.singleton_append, List.map_cons,
      beq_iff_eq.mp h]
  | text content => exact absurd h Bool.false_ne_true
  | comment content => exact absurd h Bool.false_ne_true
  | doctype name => exact absurd h Bool.false_ne_true

end Path

/-- The nodes on a path among siblings are those at or below the first and those behind it. -/
theorem nodesAt_cons_append {tag : String} {outer : List String} (enclosing : List ElementName)
    (n : Node) (ns : List Node) : nodesAt (tag :: outer) enclosing (n :: ns) =
      nodesAt (tag :: outer) enclosing [n] ++ nodesAt (tag :: outer) enclosing ns := by
  have hnil : nodesAt (tag :: outer) enclosing [] = [] := rfl
  rw [nodesAt_cons, nodesAt_cons enclosing n [], hnil, List.append_nil]

theorem isPrefixOf_append_cons {t : String} {outer : List String} (h : t ∉ outer)
    (inner rest : List String) :
    outer.isPrefixOf (inner ++ t :: rest) = outer.isPrefixOf inner := by
  induction inner generalizing outer with
  | nil =>
    cases outer with
    | nil => rfl
    | cons s outer =>
      have hne : s ≠ t := fun hst => h (hst ▸ List.mem_cons_self)
      simp [List.isPrefixOf, hne]
  | cons u inner ih =>
    cases outer with
    | nil => rfl
    | cons s outer =>
      have htail : t ∉ outer := fun hmem => h (List.mem_cons_of_mem s hmem)
      rw [List.cons_append, List.isPrefixOf, List.isPrefixOf, ih htail]

/-- Inside an element that is no part of a path, the nodes on the path do not depend on where the
element stands. -/
theorem nodesAt_around {tag t : String} {outer : List String} (hpath : t ∉ outer) {n : Node}
    (hn : n.hasTag t = true) (enclosing : List ElementName) (ns : List Node) :
    nodesAt (tag :: outer) (n.around enclosing) ns = nodesAt (tag :: outer) [] ns := by
  have hprefix : ∀ inner : List ElementName,
      outer.isPrefixOf ((inner ++ n.around enclosing).map ElementName.tag) =
        outer.isPrefixOf (inner.map ElementName.tag) := by
    intro inner
    rw [List.map_append, map_tag_around enclosing hn, isPrefixOf_append_cons hpath]
  have hinner : ∀ inner, nodesAt (tag :: outer) (inner ++ n.around enclosing) ns =
      nodesAt (tag :: outer) inner ns := by
    induction ns using siblings_induction with
    | nil => exact fun _ => rfl
    | cons m ns hm hns =>
      intro inner
      have haround : m.around (inner ++ n.around enclosing) =
          m.around inner ++ n.around enclosing := (List.append_assoc ..).symm
      rw [nodesAt_cons, nodesAt_cons, hprefix, haround, hm, hns]
  exact hinner []

/-- A path of one tag does not ask what encloses a node. -/
theorem nodesAt_tag (tag : String) (enclosing : List ElementName) (ns : List Node) :
    nodesAt [tag] enclosing ns = nodesAt [tag] [] ns := by
  induction ns using siblings_induction generalizing enclosing with
  | nil => rfl
  | cons n ns hn hns =>
    rw [nodesAt_cons, nodesAt_cons [], hn (n.around enclosing), hn (n.around []), hns enclosing]
    rfl

end ApiTypings.Markup
