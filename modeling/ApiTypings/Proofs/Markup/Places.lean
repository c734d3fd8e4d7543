import ApiTypings.Proofs.Markup.Spots
import Mathlib.Data.List.Lex

/-!
# Places in a document

A place is the number of a node among the outermost ones and the numbers of the children on the
way down from there. Template contents have no places. Who reads a document from its beginning to
its end, every node before its children, meets the places in lexicographic order.
-/
namespace ApiTypings.Markup

/-- The node at a place below a node. -/
def Node.at? (n : Node) : List Nat → Option Node
  | [] => some n
  | i :: place => n.children[i]?.bind fun c => c.at? place

/-- The node at a place of a document. -/
def nodeAt? (document : List Node) : List Nat → Option Node
  | [] => none
  | i :: place => document[i]?.bind fun n => n.at? place

mutual

/-- Siblings, the first of which has number `i`, and all nodes below them with their places. -/
def placedNodes (i : Nat) : List Node → List (List Nat × Node)
  | [] => []
  | n :: ns =>
    ([i], n) :: ((placedBelow n).map (fun x => (i :: x.1, x.2)) ++ placedNodes (i + 1) ns)

def placedBelow : Node → List (List Nat × Node)
  | .element _ _ cs _ => placedNodes 0 cs
  | .text _ => []
  | .comment _ => []
  | .doctype _ => []

end

theorem placedNodes_cons (i : Nat) (n : Node) (ns : List Node) :
    placedNodes i (n :: ns) =
      ([i], n) :: ((placedNodes 0 n.children).map (fun x => (i :: x.1, x.2)) ++
        placedNodes (i + 1) ns) := by
  have hbelow : placedBelow n = placedNodes 0 n.children := by cases n <;> rfl
  rw [placedNodes, hbelow]

/-- The places are those of the nodes of a document, in the same order. -/
theorem map_snd_placedNodes (i : Nat) (enclosing : List ElementName) (ns : List Node) :
    (placedNodes i ns).map Prod.snd = (spotsOfAll enclosing ns).map Spot.node := by
  induction ns using siblings_induction generalizing i enclosing with
  | nil => rfl
  | cons n ns hn hns =>
    have hmap : ∀ xs : List (List Nat × Node),
        (xs.map fun x => (i :: x.1, x.2)).map Prod.snd = xs.map Prod.snd :=
      fun xs => List.map_map
    rw [placedNodes_cons, spotsOfAll_cons, List.map_cons, List.map_cons, List.map_append,
      List.map_append, hmap, hn 0 (n.around enclosing), hns (i + 1) enclosing]

/-- Siblings that are numbered from `i` on stand at places that begin with such a number. -/
theorem mem_placedNodes {i : Nat} {ns : List Node} {place : List Nat} {m : Node} :
    (place, m) ∈ placedNodes i ns ↔
      ∃ j below, place = (i + j) :: below ∧ nodeAt? ns (j :: below) = some m := by
  induction ns using siblings_induction generalizing i place m with
  | nil => simp [placedNodes, nodeAt?]
  | cons n ns hn hns =>
    simp only [placedNodes_cons, List.mem_cons, List.mem_append, List.mem_map, hns]
    constructor
    · rintro (hroot | ⟨⟨below, c⟩, hbelow, hplace⟩ | ⟨j, below, hplace, hnode⟩)
      · obtain ⟨rfl, rfl⟩ := Prod.mk.inj hroot
        exact ⟨0, [], rfl, rfl⟩
      · obtain ⟨rfl, rfl⟩ := Prod.mk.inj hplace
        obtain ⟨j, rest, rfl, hnode⟩ := hn.mp hbelow
        rw [Nat.zero_add]
        exact ⟨0, j :: rest, rfl, hnode⟩
      · refine ⟨j + 1, below, ?_, hnode⟩
        rw [hplace, Nat.add_right_comm, Nat.add_assoc]
    · rintro ⟨j, below, rfl, hnode⟩
      cases j with
      | zero =>
        cases below with
        | nil =>
          obtain rfl : n = m := Option.some.inj hnode
          exact Or.inl rfl
        | cons k rest =>
          have hbelow : (k :: rest, m) ∈ placedNodes 0 n.children :=
            hn.mpr ⟨k, rest, by rw [Nat.zero_add], hnode⟩
          exact Or.inr (Or.inl ⟨_, hbelow, rfl⟩)
      | succ j =>
        refine Or.inr (Or.inr ⟨j, below, ?_, hnode⟩)
        rw [Nat.add_right_comm, Nat.add_assoc]

theorem mem_placedNodes_zero {document : List Node} {place : List Nat} {n : Node} :
    (place, n) ∈ placedNodes 0 document ↔ nodeAt? document place = some n := by
  simp only [mem_placedNodes, Nat.zero_add]
  cases place with
  | nil => simp [nodeAt?]
  | cons i below => simp

/-- Document order is the order of places. -/
theorem pairwise_placedNodes (i : Nat) (ns : List Node) :
    (placedNodes i ns).Pairwise (fun x y => x.1 < y.1) := by
  induction ns using siblings_induction generalizing i with
  | nil => exact .nil
  | cons n ns hn hns =>
    have hlater : ∀ x ∈ placedNodes (i + 1) ns, ∀ place, i :: place < x.1 := by
      intro x hx place
      obtain ⟨j, below, hplace, -⟩ := mem_placedNodes.mp hx
      rw [hplace]
      exact List.cons_lt_cons_iff.mpr (Or.inl (by omega))
    rw [placedNodes_cons]
    refine List.pairwise_cons.mpr ⟨fun x hx => ?_, List.pairwise_append.mpr ⟨?_, hns (i + 1), ?_⟩⟩
    · rcases List.mem_append.mp hx with hbelow | hx
      · obtain ⟨y, hy, rfl⟩ := List.mem_map.mp hbelow
        obtain ⟨j, below, hplace, -⟩ := mem_placedNodes.mp hy
        rw [hplace]
        exact List.cons_lt_cons_iff.mpr (Or.inr ⟨rfl, List.nil_lt_cons _ _⟩)
      · exact hlater x hx []
    · refine List.pairwise_map.mpr ((hn 0).imp fun hlt => ?_)
      exact List.cons_lt_cons_iff.mpr (Or.inr ⟨rfl, hlt⟩)
    · intro x hx y hy
      obtain ⟨z, -, rfl⟩ := List.mem_map.mp hx
      exact hlater y hy z.1

end ApiTypings.Markup
