import ApiTypings.Proofs.Page.SectionScope
import ApiTypings.Proofs.Page.Layout

/-!
# Headings and titles are borders

No section goes on behind the next heading or title among its siblings. So siblings that are cut in
front of one have the sections of the two parts, each read as if the other part were not there.
-/
namespace ApiTypings.Page

open Markup

theorem sectionNodes_append {border : Node} (h : isSectionEnd border = true)
    (before after : List Node) :
    sectionNodes (before ++ border :: after) = sectionNodes before := by
  induction before with
  | nil => rw [List.nil_append, sectionNodes_cons, if_pos h]; rfl
  | cons n ns ih => rw [List.cons_append, sectionNodes_cons, sectionNodes_cons, ih]

section Border

variable {border : Node} (h : isSectionEnd border = true) (heading : Node)
  (before after : List Node) (enclosing : List ElementName)

include h

theorem sectionComments_append :
    sectionComments ⟨heading, before ++ border :: after, enclosing⟩ =
      sectionComments ⟨heading, before, enclosing⟩ := by
  rw [sectionComments_eq_map, sectionComments_eq_map]
  change ((sectionNodes (before ++ border :: after)).takeWhile _).map _ = _
  rw [sectionNodes_append h]

theorem readSection_append :
    readSection ⟨heading, before ++ border :: after, enclosing⟩ =
      readSection ⟨heading, before, enclosing⟩ := by
  have hnodes := sectionNodes_append h before after
  have hsame : SameParts ⟨heading, before ++ border :: after, enclosing⟩
      ⟨heading, before, enclosing⟩ := ⟨rfl, congrArg (List.map sectionPart) hnodes⟩
  exact hsame.readSection_eq_readSection

end Border

/-- The name of a section and what reading it yields, an error included. -/
def sectionReading (heading : Spot) : String × Except PageError ApiType :=
  (sectionName heading, readSection heading)

/-- The readings of all sections at and below siblings, in document order. `enclosing` are the
names of the parent of the siblings and of the elements around it. -/
def sectionReadings (enclosing : List ElementName) (siblings : List Node) :
    List (String × Except PageError ApiType) :=
  ((spotsOfAll enclosing siblings).filter (Spot.hasTag headingTag)).map sectionReading

theorem sectionReadings_cons (enclosing : List ElementName) (n : Node) (ns : List Node) :
    sectionReadings enclosing (n :: ns) =
      (if n.hasTag headingTag then [sectionReading ⟨n, ns, enclosing⟩] else []) ++
        (sectionReadings (n.around enclosing) n.children ++ sectionReadings enclosing ns) := by
  have hspot : Spot.hasTag headingTag ⟨n, ns, enclosing⟩ = n.hasTag headingTag := rfl
  rw [sectionReadings, spotsOfAll_cons, List.filter_cons, List.filter_append, hspot]
  by_cases hn : n.hasTag headingTag = true
  · rw [if_pos hn, if_pos hn, List.map_cons, List.map_append]
    rfl
  · rw [if_neg hn, if_neg hn, List.map_append]
    rfl

/-- Siblings that are cut in front of a heading or title have the sections of the part before it
and then those of the part from it on, failing ones included. What comes at or after the border
changes neither the documentation nor the type nor the error of a section before it. -/
theorem sectionReadings_append {border : Node} (h : isSectionEnd border = true)
    (before after : List Node) (enclosing : List ElementName) :
    sectionReadings enclosing (before ++ border :: after) =
        sectionReadings enclosing before ++ sectionReadings enclosing (border :: after) ∧
      ∀ heading : Node,
        sectionComments ⟨heading, before ++ border :: after, enclosing⟩ =
            sectionComments ⟨heading, before, enclosing⟩ ∧
          readSection ⟨heading, before ++ border :: after, enclosing⟩ =
            readSection ⟨heading, before, enclosing⟩ := by
  refine ⟨?_, fun heading => ⟨sectionComments_append h heading before after enclosing,
    readSection_append h heading before after enclosing⟩⟩
  induction before with
  | nil => rfl
  | cons n ns ih =>
    have hreading : sectionReading ⟨n, ns ++ border :: after, enclosing⟩ =
        sectionReading ⟨n, ns, enclosing⟩ :=
      Prod.ext rfl (readSection_append h n ns after enclosing)
    rw [List.cons_append, sectionReadings_cons, sectionReadings_cons, ih, hreading,
      List.append_assoc, List.append_assoc]

/-- A heading inside a block, then one whose table has no columns. -/
def faultySection : List Node :=
  [plainElement "div" [plainElement "h4" [.text "Dot"], plainElement "p" [.text "Nothing."]],
    plainElement "h4" [.text "Chat"], .text "\n", plainElement "table" []]

def emptySection : List Node := [plainElement "h4" [.text "User"], plainElement "p" []]

theorem sectionReadings_append_faulty :
    isSectionEnd (plainElement "h3" []) = true ∧
      sectionReadings [⟨.html, "body"⟩] faultySection =
        [("Dot", .ok (.any [.ofText "Nothing."])), ("Chat", .error (.missingColumn "Field"))] ∧
      sectionReadings [⟨.html, "body"⟩] (faultySection ++ plainElement "h3" [] :: emptySection) =
        sectionReadings [⟨.html, "body"⟩] faultySection ++
          sectionReadings [⟨.html, "body"⟩] (plainElement "h3" [] :: emptySection) := by
  have htitle : isSectionEnd (plainElement "h3" []) = true := by decide
  exact ⟨htitle, rfl, (sectionReadings_append htitle faultySection emptySection _).1⟩

end ApiTypings.Page
