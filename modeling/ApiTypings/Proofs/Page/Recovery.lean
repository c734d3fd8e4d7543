import ApiTypings.Proofs.Page.SectionScope
import ApiTypings.Proofs.Page.TableLayout
import ApiTypings.Proofs.Text.Pieces

/-!
# A page gives back what it was laid out from

A section ends where the next heading or title stands, so each is read by itself. Reading a
page whose references lead to its own entries yields exactly these entries, in order.
-/
namespace ApiTypings.Page

open Markup Text

/-- Siblings at which a section ends: their first element is a heading or a title. -/
def EndsSection (ns : List Node) : Prop :=
  ∀ n ∈ (elementsOf ns).head?, n.hasTag headingTag = true ∨ n.hasTag titleTag = true

theorem IsPage.endsSection {es : List (String × ApiType)} {ns : List Node} (h : IsPage es ns) :
    EndsSection ns := by
  have hfirst : ∀ {n : Node} {tag : String} {ms : List Node}, n.hasTag tag = true →
      (elementsOf (n :: ms)).head? = some n := by
    intro n tag ms htag
    cases n <;> first | rfl | exact absurd htag Bool.false_ne_true
  intro n hn
  cases h with
  | nil => simp [elementsOf] at hn
  | entry h hpage =>
    obtain rfl := Option.some.inj ((hfirst h.tag).symm.trans hn)
    exact Or.inl h.tag
  | aside h hpage =>
    rcases h.tag with htag | htag
    · obtain rfl := Option.some.inj ((hfirst htag).symm.trans hn)
      exact Or.inl htag
    · obtain rfl := Option.some.inj ((hfirst htag).symm.trans hn)
      exact Or.inr htag

theorem IsBody.tag {comments : List DocComment} {type : ApiType} {body : List Node}
    (h : IsBody comments type body) :
    ∀ n ∈ body, n.hasTag "table" = true ∨ n.hasTag "ul" = true := by
  cases h with
  | table h => simpa using Or.inl h.tag
  | listing h => simpa using Or.inr h.tag
  | nothing => simp

theorem map_takeWhile_node (p : Node → Bool) (ss : List Spot) :
    (ss.takeWhile fun s => p s.node).map Spot.node = (ss.map Spot.node).takeWhile p := by
  rw [List.takeWhile_map]
  rfl

section Section

variable {heading : Node} {rest ns paragraphs body : List Node}
  (hparts : elementsOf rest = paragraphs ++ body)
  (hparagraphs : ∀ n ∈ paragraphs, n.hasTag "p" = true)
  (hbody : ∀ n ∈ body, n.hasTag "table" = true ∨ n.hasTag "ul" = true) (hns : EndsSection ns)
  (enclosing : List ElementName)

include hparts in
theorem map_node_followingElements :
    (followingElements ⟨heading, rest ++ ns, enclosing⟩).map Spot.node =
      paragraphs ++ (body ++ elementsOf ns) := by
  rw [followingElements_eq, elementsOf, List.filter_append, ← List.append_assoc]
  exact congrArg (· ++ elementsOf ns) hparts

include hparts hparagraphs hbody hns

theorem sectionElements_eq :
    (sectionElements ⟨heading, rest ++ ns, enclosing⟩).map Spot.node = paragraphs ++ body := by
  have hwhile := map_takeWhile_node (fun n => !n.hasTag headingTag && !n.hasTag titleTag)
    (followingElements ⟨heading, rest ++ ns, enclosing⟩)
  rw [map_node_followingElements hparts enclosing, ← List.append_assoc] at hwhile
  refine hwhile.trans (takeWhile_append_of_stop (fun n hn => ?_) fun n hn => ?_)
  · have htag : ∃ tag ∈ ["p", "table", "ul"], n.hasTag tag = true := by
      rcases List.mem_append.mp hn with hn | hn
      · exact ⟨"p", by simp, hparagraphs n hn⟩
      · rcases hbody n hn with h | h
        · exact ⟨"table", by simp, h⟩
        · exact ⟨"ul", by simp, h⟩
    obtain ⟨tag, hmem, htag⟩ := htag
    have hne : ∀ t ∈ ["p", "table", "ul"], t ≠ headingTag ∧ t ≠ titleTag := by decide
    simp [hasTag_of_hasTag_ne htag (hne tag hmem).1, hasTag_of_hasTag_ne htag (hne tag hmem).2]
  · rcases hns n hn with h | h <;> simp [h]

theorem sectionComments_eq :
    sectionComments ⟨heading, rest ++ ns, enclosing⟩ = paragraphs.map commentOf := by
  have hwhile := map_takeWhile_node (Node.hasTag "p")
    (followingElements ⟨heading, rest ++ ns, enclosing⟩)
  have hstop : ∀ n ∈ (body ++ elementsOf ns).head?, n.hasTag "p" = false := by
    intro n hn
    cases body with
    | nil =>
      rcases hns n hn with h | h
      · exact hasTag_of_hasTag_ne h (by decide)
      · exact hasTag_of_hasTag_ne h (by decide)
    | cons b body =>
      obtain rfl : b = n := Option.some.inj hn
      rcases hbody b List.mem_cons_self with h | h
      · exact hasTag_of_hasTag_ne h (by decide)
      · exact hasTag_of_hasTag_ne h (by decide)
  rw [map_node_followingElements hparts enclosing,
    takeWhile_append_of_stop hparagraphs hstop] at hwhile
  rw [← hwhile, List.map_map]
  rfl

end Section

/-- The first element with a tag that none of the earlier ones has. -/
theorem exists_find?_of_nodes {tag : String} {ss : List Spot} {before after : List Node} {n : Node}
    (h : ss.map Spot.node = before ++ n :: after)
    (hbefore : ∀ m ∈ before, m.hasTag tag = false) (hn : n.hasTag tag = true) :
    ∃ s, ss.find? (Spot.hasTag tag) = some s ∧ s.node = n := by
  have hfind : (ss.map Spot.node).find? (Node.hasTag tag) = some n := by
    rw [h, List.find?_append, List.find?_eq_none.mpr fun m hm => by simp [hbefore m hm],
      List.find?_cons_of_pos hn]
    rfl
  rw [List.find?_map] at hfind
  exact Option.map_eq_some_iff.mp hfind

theorem find?_eq_none_of_nodes {tag : String} {ss : List Spot}
    (h : ∀ n ∈ ss.map Spot.node, n.hasTag tag = false) : ss.find? (Spot.hasTag tag) = none := by
  rw [List.find?_eq_none]
  intro s hs
  have hn := h s.node (List.mem_map_of_mem hs)
  simp [Spot.hasTag, hn]

/-- The paragraphs of a section are no table or list, so its body is found behind them. -/
theorem readSection_eq {name : String} {type : ApiType} {heading : Node} {rest ns : List Node}
    (h : IsSection name type heading rest) (hns : EndsSection ns) (enclosing : List ElementName) :
    readSection ⟨heading, rest ++ ns, enclosing⟩ = .ok type := by
  obtain ⟨paragraphs, body, hparts, hparagraphs, hbody⟩ := h.parts
  have hsection : (sectionElements ⟨heading, rest ++ ns, enclosing⟩).map Spot.node =
      paragraphs ++ body :=
    sectionElements_eq hparts hparagraphs hbody.tag hns enclosing
  have hcomments : sectionComments ⟨heading, rest ++ ns, enclosing⟩ = paragraphs.map commentOf :=
    sectionComments_eq hparts hparagraphs hbody.tag hns enclosing
  have hlack : ∀ {tag : String}, "p" ≠ tag → ∀ n ∈ paragraphs, n.hasTag tag = false :=
    fun hne n hn => hasTag_of_hasTag_ne (hparagraphs n hn) hne
  have hnone : ∀ tag : String, "p" ≠ tag → (∀ n ∈ body, n.hasTag tag = false) →
      (sectionElements ⟨heading, rest ++ ns, enclosing⟩).find? (Spot.hasTag tag) = none := by
    intro tag hne hb
    refine find?_eq_none_of_nodes fun n hn => ?_
    rw [hsection, List.mem_append] at hn
    rcases hn with hn | hn
    · exact hlack hne n hn
    · exact hb n hn
  rw [readSection, hcomments]
  cases hbody with
  | table htable =>
    obtain ⟨s, hs, hnode⟩ := exists_find?_of_nodes hsection (hlack (by decide)) htable.tag
    rw [hs]
    exact map_eq_ok.mpr ⟨_, readTable_eq (by rwa [hnode]), rfl⟩
  | @listing names listing hlisting =>
    obtain ⟨s, hs, hnode⟩ := exists_find?_of_nodes hsection (hlack (by decide)) hlisting.tag
    have hbody : ∀ n ∈ [listing], n.hasTag "table" = false :=
      List.forall_mem_singleton.mpr (hasTag_of_hasTag_ne hlisting.tag (by decide))
    rw [hnone "table" (by decide) hbody, hs]
    exact map_eq_ok.mpr ⟨_, readListing_eq (by rwa [hnode]), rfl⟩
  | nothing => rw [hnone "table" (by decide) (by simp), hnone "ul" (by decide) (by simp)]

/-- A section is read as its entry, whatever follows it. -/
theorem readEntry_eq {name : String} {type : ApiType} {heading : Node} {rest ns : List Node}
    (h : IsSection name type heading rest) (hns : EndsSection ns) (enclosing : List ElementName) :
    readEntry ⟨heading, rest ++ ns, enclosing⟩ = .ok (name, type) := by
  have hname : sectionName ⟨heading, rest ++ ns, enclosing⟩ = name := h.text
  rw [readEntry, readSection_eq h hns enclosing, hname]

theorem typeHeadings_eq (document : List Node) :
    typeHeadings document = (spotsOfAll [] document).filter fun s => isTypeHeading s.node := by
  rw [typeHeadings, headings, List.filter_filter]
  refine List.filter_congr fun s _ => ?_
  rw [Bool.and_comm]
  rfl

/-- The headings of a page are read as its entries, in order. -/
theorem mapM_readEntry_eq {es : List (String × ApiType)} {ns : List Node} (h : IsPage es ns)
    (enclosing : List ElementName) :
    ((spotsOfAll enclosing ns).filter fun s => isTypeHeading s.node).mapM readEntry = .ok es := by
  induction h with
  | nil => rfl
  | @entry name type heading rest ns es h hpage ih =>
    have hheading : isTypeHeading heading = true := by
      rw [isTypeHeading, h.tag, h.text, h.name]
      rfl
    rw [filter_spots_cons_of_pos enclosing hheading h.quiet.1,
      filter_spots_append enclosing h.quiet.2, List.mapM_cons,
      readEntry_eq h hpage.endsSection enclosing, ih]
    rfl
  | @aside title rest ns es h hpage ih =>
    rw [← List.cons_append, filter_spots_append enclosing h.quiet]
    exact ih

theorem Surrounds.filter_spots {siblings document : List Node} (h : Surrounds siblings document)
    (enclosing : List ElementName) :
    ∃ inner, ((spotsOfAll enclosing document).filter fun s => isTypeHeading s.node) =
      (spotsOfAll inner siblings).filter fun s => isTypeHeading s.node := by
  induction h generalizing enclosing with
  | here => exact ⟨enclosing, rfl⟩
  | @inside name attributes before children contents after h houter hbefore hafter ih =>
    obtain ⟨inner, hinner⟩ := ih (name :: enclosing)
    refine ⟨inner, ?_⟩
    rw [filter_spots_append enclosing hbefore, spotsOfAll_cons,
      List.filter_cons_of_neg (by simp [houter]), List.filter_append,
      filter_spots_eq_nil enclosing hafter, List.append_nil]
    exact hinner

/-- Entries with distinct names and no reference out of them are accepted. -/
theorem readSchema_of_mapM {document : List Node} {es : List (String × ApiType)}
    (hread : (typeHeadings document).mapM readEntry = .ok es) (hnames : (es.map Prod.fst).Nodup)
    (hclosed : ∀ e ∈ es, ∀ r ∈ e.2.references, r ∈ es.map Prod.fst) :
    readSchema document = .ok (Schema.ofList es) := by
  have hdangling : (Schema.ofList es).dangling? = none := by
    rw [Schema.dangling?_eq_none, Schema.names, Schema.entries_ofList hnames]
    exact hclosed
  refine bind_eq_ok.mpr ⟨es, hread, ?_⟩
  rw [checkClosed, hdangling]

theorem references_events (s : Scalar) :
    ((eventsEntries s).map Prod.fst).Nodup ∧
      ∀ e ∈ eventsEntries s, ∀ r ∈ e.2.references, r ∈ (eventsEntries s).map Prod.fst := by
  cases s <;> decide

theorem readSchema_events (s : Scalar) :
    readSchema (eventsPage s) = .ok (Schema.ofList (eventsEntries s)) := by
  obtain ⟨hnames, hclosed⟩ := references_events s
  refine readSchema_of_mapM ?_ hnames hclosed
  rw [typeHeadings_eq]
  exact mapM_readEntry_eq (isPage_events s) []

/-- Reading a page yields the entries that it was laid out from, whatever surrounds them, if
their names are distinct and all references are names of entries. -/
theorem readSchema_of_isPage {es : List (String × ApiType)} {before siblings document : List Node}
    (hpage : IsPage es siblings) (hbefore : Quiet before)
    (hdocument : Surrounds (before ++ siblings) document) (hnames : (es.map Prod.fst).Nodup)
    (hclosed : ∀ e ∈ es, ∀ r ∈ e.2.references, r ∈ es.map Prod.fst) :
    ∃ s, readSchema document = .ok s ∧ s.entries = es := by
  obtain ⟨inner, hspots⟩ := hdocument.filter_spots []
  have hread : (typeHeadings document).mapM readEntry = .ok es := by
    rw [typeHeadings_eq, hspots, filter_spots_append inner hbefore]
    exact mapM_readEntry_eq hpage inner
  exact ⟨Schema.ofList es, readSchema_of_mapM hread hnames hclosed, Schema.entries_ofList hnames⟩

theorem readSchema_of_isPage_events :
    IsPage (eventsEntries .float) (eventsPage .float) ∧ Quiet [.text "\n"] ∧
      Surrounds ([.text "\n"] ++ eventsPage .float) (eventsDocument .float) ∧
      ((eventsEntries .float).map Prod.fst).Nodup ∧
      (∀ e ∈ eventsEntries .float, ∀ r ∈ e.2.references,
        r ∈ (eventsEntries .float).map Prod.fst) ∧
      ∃ s, readSchema (eventsDocument .float) = .ok s ∧ s.entries = eventsEntries .float := by
  obtain ⟨hnames, hclosed⟩ := references_events .float
  exact ⟨isPage_events .float, quiet_newline, surrounds_events .float, hnames, hclosed,
    readSchema_of_isPage (isPage_events .float) quiet_newline (surrounds_events .float) hnames
      hclosed⟩

end ApiTypings.Page
