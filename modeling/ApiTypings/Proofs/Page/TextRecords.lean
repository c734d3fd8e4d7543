import ApiTypings.Page.Basic
import ApiTypings.Proofs.Page.Recovery

/-!
# Records of texts on a page

A section that describes a record of texts can be laid out for any identifiers, and it is read as
that record.
-/
namespace ApiTypings.Page

open Markup Text

/-- A property whose values are texts. -/
def textProperty (name : String) : Property := ⟨name, .scalar .string, false, none⟩

def textRecord (names : List String) : ApiType := .record (names.map textProperty) []

def textHeader : Node :=
  plainElement "tr" [plainElement "th" [.text "Field"], plainElement "th" [.text "Type"]]

def textRow (name : String) : Node :=
  plainElement "tr" [plainElement "td" [.text name], plainElement "td" [.text "String"]]

def textTable (names : List String) : Node :=
  plainElement "table"
    [plainElement "thead" [textHeader], plainElement "tbody" (names.map textRow)]

/-- Identifiers have nothing to trim. -/
theorem trimmed_of_isIdentifier {name : String} (h : isIdentifier name.toList = true) :
    trimmed name = name := by
  have hchars : ∀ c ∈ name.toList, isBlank c = false := fun c hc =>
    isBlank_of_isIdentifierChar (identifierChars_of_isIdentifier h c hc)
  have hkept : ∀ s : List Char, (∀ c ∈ s, isBlank c = false) → s.dropWhile isBlank = s := by
    intro s hs
    cases s with
    | nil => rfl
    | cons c s => rw [List.dropWhile_cons, hs c List.mem_cons_self]; rfl
  have hend : ∀ c ∈ name.toList.reverse, isBlank c = false :=
    fun c hc => hchars c (List.mem_reverse.mp hc)
  rw [trimmed, trim, trimStart, hkept _ hchars, trimEnd, hkept _ hend, List.reverse_reverse,
    String.ofList_toList]

theorem textContent_plainElement (tag content : String) :
    (plainElement tag [.text content]).textContent = content :=
  String.append_empty

/-! ### Cells -/

theorem holdsNoTableParts_text (content : String) : HoldsNoTableParts [.text content] :=
  allNodes_cons.mpr ⟨fun _ _ => rfl, allNodes_nil, allNodes_nil⟩

theorem trimmed_plainElement (tag : String) {name : String} (h : isIdentifier name.toList = true) :
    trimmed (plainElement tag [.text name]).textContent = name := by
  rw [textContent_plainElement, trimmed_of_isIdentifier h]

theorem spellsType_scalar {words : String} {s : Scalar} (h : Scalar.ofWords? words = some s) :
    SpellsType (.scalar s) (signsOf words) :=
  ⟨0, [.scalar s], [signsOf words], by simp, .cons (.scalar h) .nil, rfl,
    by rw [List.intercalate_singleton]; rfl⟩

/-! ### Tables -/

theorem isRow_textRow {name : String} (h : isIdentifier name.toList = true) :
    IsRow [.field, .type] (textProperty name) (textRow name) where
  tag := rfl
  cells := List.forall_mem_cons.mpr ⟨⟨rfl, holdsNoTableParts_text name⟩,
    List.forall_mem_singleton.mpr ⟨rfl, holdsNoTableParts_text "String"⟩⟩
  name := h
  contents := by
    have htype : SpellsType (.scalar .string) (signsOf "String") := spellsType_scalar rfl
    exact .cons (trimmed_plainElement "td" h) (.cons ⟨_, rfl, htype⟩ .nil)
  description := fun _ => rfl
  optional := by simp [textProperty]

theorem elementsOf_textRows (names : List String) :
    elementsOf (names.map textRow) = names.map textRow := by
  rw [elementsOf, List.filter_eq_self]
  intro row hrow
  obtain ⟨name, -, rfl⟩ := List.mem_map.mp hrow
  rfl

theorem isPropertyTable_textTable {names : List String}
    (h : ∀ n ∈ names, isIdentifier n.toList = true) :
    IsPropertyTable (names.map textProperty) (textTable names) := by
  have hheader : IsHeader [.field, .type] textHeader :=
    ⟨rfl, by unfold HoldsNoTableParts AllNodes; decide, .cons rfl (.cons rfl .nil),
      ⟨.field, by decide, rfl⟩, by decide⟩
  have hrows : List.Forall₂ (IsRow [.field, .type]) (names.map textProperty)
      (elementsOf (names.map textRow)) := by
    rw [elementsOf_textRows, List.forall₂_map_left_iff, List.forall₂_map_right_iff,
      List.forall₂_same]
    exact fun n hn => isRow_textRow (h n hn)
  exact ⟨rfl, _, _, _, _, rfl, rfl, rfl, hheader, rfl, hrows⟩

/-- No part of the table is a heading. -/
theorem quiet_textTable (names : List String) : Quiet [textTable names] := by
  have htext : ∀ content : String, Quiet [.text content] :=
    fun content => allNodes_cons.mpr ⟨rfl, allNodes_nil, allNodes_nil⟩
  have hrows : Quiet (names.map textRow) := by
    induction names with
    | nil => exact allNodes_nil
    | cons n names ih =>
      have hcells : Quiet (textRow n).children := allNodes_cons.mpr ⟨rfl, htext n,
        allNodes_cons.mpr ⟨rfl, htext "String", allNodes_nil⟩⟩
      exact allNodes_cons.mpr ⟨rfl, hcells, ih⟩
  have hheader : Quiet [textHeader] := by unfold Quiet AllNodes; decide
  have hparts : Quiet (textTable names).children := allNodes_cons.mpr ⟨rfl, hheader,
    allNodes_cons.mpr ⟨rfl, hrows, allNodes_nil⟩⟩
  exact allNodes_cons.mpr ⟨rfl, hparts, allNodes_nil⟩

theorem isSection_textSection {name : String} (hname : isTypeName name.toList = true)
    {names : List String} (h : ∀ n ∈ names, isIdentifier n.toList = true) :
    IsSection name (textRecord names) (plainElement "h4" [.text name]) [textTable names] where
  tag := rfl
  text := by
    rw [textContent_plainElement, trimmed_of_isIdentifier (isIdentifier_of_isTypeName hname)]
  name := hname
  quiet := ⟨allNodes_cons.mpr ⟨rfl, allNodes_nil, allNodes_nil⟩, quiet_textTable names⟩
  parts := ⟨[], [textTable names], rfl, by simp, .table (isPropertyTable_textTable h)⟩

theorem references_textRecord (names : List String) : (textRecord names).references = [] := by
  rw [textRecord, ApiType.references, propertyReferences_eq_flatMap, List.flatMap_eq_nil_iff]
  intro p hp
  obtain ⟨n, -, rfl⟩ := List.mem_map.mp hp
  rfl

/-- A page with one such section is accepted. -/
theorem readSchema_textTable {name : String} (hname : isTypeName name.toList = true)
    {names : List String} (h : ∀ n ∈ names, isIdentifier n.toList = true) :
    readSchema [plainElement "h4" [.text name], textTable names] =
      .ok (Schema.ofList [(name, textRecord names)]) := by
  refine readSchema_of_mapM ?_ (by simp) ?_
  · rw [typeHeadings_eq]
    exact mapM_readEntry_eq (.entry (isSection_textSection hname h) .nil) []
  · rw [List.forall_mem_singleton, references_textRecord]
    exact fun r hr => absurd hr List.not_mem_nil

end ApiTypings.Page
