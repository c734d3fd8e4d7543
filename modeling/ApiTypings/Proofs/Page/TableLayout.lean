import ApiTypings.Proofs.Page.Layout
import ApiTypings.Proofs.Page.TableFaults

/-!
# Reading what was laid out in a table or a list

A table is read as the properties it was laid out for, whatever the order of its columns, and
a list as its names.
-/
namespace ApiTypings.Page

open Markup Text

theorem HoldsNoTableParts.lacks {ns : List Node} (h : HoldsNoTableParts ns) {tag : String}
    (ht : tag ∈ ["thead", "tbody", "tr", "th", "td"]) :
    AllNodes (fun n => n.hasTag tag = false) ns :=
  fun s hs => h s hs tag ht

section Row

variable {p : Property} {columns : List Column} {row : Node}

theorem validCell_of_isCellOf (hname : isIdentifier p.name.toList = true) {column : Column}
    {cell : Node} (h : IsCellOf p column cell) : ValidCell column cell := by
  cases column with
  | parameter | field =>
    have htext : trimmed cell.textContent = p.name := h
    show isIdentifier (trimmed cell.textContent).toList = true
    rw [htext]
    exact hname
  | type =>
    obtain ⟨ss, hsigns, hspells⟩ := h
    exact ⟨p.type, ss, hsigns, writesType_of_spells hspells⟩
  | required =>
    rw [IsCellOf] at h
    cases hoptional : p.optional <;> rw [hoptional] at h
    · exact Or.inl h
    · exact Or.inr h
  | description => trivial

theorem IsRow.validRow (h : IsRow columns p row) : ValidRow columns (elementsOf row.children) :=
  ⟨h.contents.length_eq.le,
    fun _ hc => validCell_of_isCellOf h.name (List.forall₂_zip h.contents hc)⟩

theorem IsRow.isCellOf_lastCell? (h : IsRow columns p row) {kind : Column → Bool} {cell : Node}
    (hlast : lastCell? kind (columns.zip (elementsOf row.children)) = some cell) :
    ∃ column, kind column = true ∧ IsCellOf p column cell := by
  obtain ⟨c, hc, hkind, rfl⟩ := mem_of_lastCell? hlast
  exact ⟨c.1, hkind, List.forall₂_zip h.contents hc⟩

theorem IsRow.not_mem (h : IsRow columns p row) {column : Column}
    (hlast : lastCell? (· == column) (columns.zip (elementsOf row.children)) = none) :
    column ∉ columns := by
  intro hmem
  obtain ⟨cell, hcell⟩ := @exists_lastCell? (· == column) _ _
    ⟨column, hmem, beq_self_eq_true column⟩ h.validRow.enough
  cases hlast.symm.trans hcell

/-- The cells of a row fill in what their columns ask for. -/
theorem IsRow.isPropertyOf (h : IsRow columns p row)
    (hname : ∃ column ∈ columns, column.isName = true) (htype : .type ∈ columns) :
    IsPropertyOf columns (elementsOf row.children) p := by
  have hdescription : p.description =
      (lastCell? (· == .description) (columns.zip (elementsOf row.children))).map commentOf := by
    cases hlast : lastCell? (· == .description) (columns.zip (elementsOf row.children)) with
    | some cell =>
      obtain ⟨column, hcolumn, hcell⟩ := h.isCellOf_lastCell? hlast
      obtain rfl : column = .description := eq_of_beq hcolumn
      exact hcell
    | none => exact h.description (h.not_mem hlast)
  refine ⟨?_, ?_, hdescription, ?_⟩
  · obtain ⟨cell, hlast⟩ := exists_lastCell? hname h.validRow.enough
    obtain ⟨column, hcolumn, hcell⟩ := h.isCellOf_lastCell? hlast
    refine ⟨cell, hlast, ?_⟩
    cases column with
    | parameter | field => exact hcell.symm
    | type | required | description => cases hcolumn
  · obtain ⟨cell, hlast⟩ := @exists_lastCell? (· == .type) _ _ ⟨.type, htype, rfl⟩
      h.validRow.enough
    obtain ⟨column, hcolumn, hcell⟩ := h.isCellOf_lastCell? hlast
    obtain rfl : column = .type := eq_of_beq hcolumn
    obtain ⟨ss, hsigns, hspells⟩ := hcell
    exact ⟨cell, hlast, ss, hsigns, writesType_of_spells hspells⟩
  · rw [saysOptional, ← hdescription]
    cases hlast : lastCell? (· == .required) (columns.zip (elementsOf row.children)) with
    | some cell =>
      obtain ⟨column, hcolumn, hcell⟩ := h.isCellOf_lastCell? hlast
      obtain rfl : column = .required := eq_of_beq hcolumn
      have htext : trimmed cell.textContent = if p.optional then "Optional" else "Yes" := hcell
      show p.optional = (trimmed cell.textContent == "Optional")
      rw [htext]
      cases p.optional <;> rfl
    | none =>
      rw [Bool.eq_iff_iff, h.optional (h.not_mem hlast)]
      cases p.description <;> simp [List.isPrefixOf_iff_prefix]

end Row

/-- Child elements that are all on the path are what is found below a node. -/
theorem nodesAt_children (enclosing : List ElementName) {tag : String} {outer : List String}
    {ns : List Node} (hns : ∀ n ∈ elementsOf ns, nodesAt (tag :: outer) enclosing [n] = [n]) :
    (elementsOf ns).flatMap (fun n => nodesAt (tag :: outer) enclosing [n]) = elementsOf ns := by
  rw [List.flatMap_congr hns]
  simp

/-- The cells of a row hold no parts of a table but themselves. -/
theorem cells_lack {cellTag tag : String} {row : Node}
    (hcells : ∀ cell ∈ elementsOf row.children,
      cell.hasTag cellTag = true ∧ HoldsNoTableParts cell.children)
    (ht : tag ∈ ["thead", "tbody", "tr", "th", "td"]) (hne : cellTag ≠ tag) :
    AllNodes (fun n => n.hasTag tag = false) row.children :=
  lacks_of_elements fun cell hcell =>
    ⟨hasTag_of_hasTag_ne (hcells cell hcell).1 hne, (hcells cell hcell).2.lacks ht⟩

theorem rowCells_eq {columns : List Column} {p : Property} {row : Spot}
    (h : IsRow columns p row.node) : rowCells row = elementsOf row.node.children := by
  have hrow : row.node.hasTag "td" = false := hasTag_of_hasTag_ne h.tag (by decide)
  rw [rowCells, map_node_withPath, nodesAt_of_not_hasTag _ (Or.inl hrow)]
  refine nodesAt_children _ fun cell hcell => ?_
  obtain ⟨htd, hparts⟩ := h.cells cell hcell
  exact nodesAt_of_hasTag _ htd List.nil_prefix (hparts.lacks (by decide))

section Table

variable {table head headRow body : Node} {columns : List Column} {ps : List Property}
  (htable : table.hasTag "table" = true) (hparts : elementsOf table.children = [head, body])
  (hhead : head.hasTag "thead" = true) (hrow : elementsOf head.children = [headRow])
  (hheader : IsHeader columns headRow) (hbody : body.hasTag "tbody" = true)
  (hrows : ∀ row ∈ elementsOf body.children, ∃ p ∈ ps, IsRow columns p row)
  (following : List Node) (enclosing : List ElementName)

include htable hparts hhead hrow hheader hbody hrows

theorem headerCells_eq :
    (headerCells ⟨table, following, enclosing⟩).map Spot.node = elementsOf headRow.children := by
  have hth : ∀ {n : Node} {s : String}, n.hasTag s = true → s ≠ "th" → n.hasTag "th" = false :=
    fun h hne => hasTag_of_hasTag_ne h hne
  have hlacks : AllNodes (fun n => n.hasTag "th" = false) [body] := by
    refine allNodes_cons.mpr
      ⟨hth hbody (by decide), lacks_of_elements fun row hmem => ?_, allNodes_nil⟩
    obtain ⟨p, -, hp⟩ := hrows row hmem
    exact ⟨hth hp.tag (by decide), cells_lack hp.cells (by decide) (by decide)⟩
  have htags := map_tag_around (head.around (table.around enclosing)) hheader.tag
  rw [map_tag_around _ hhead, map_tag_around _ htable] at htags
  rw [headerCells, map_node_withPath, nodesAt_of_not_hasTag _ (Or.inl (hth htable (by decide))),
    hparts, List.flatMap_cons, List.flatMap_singleton, nodesAt_eq_nil _ hlacks,
    nodesAt_of_not_hasTag _ (Or.inl (hth hhead (by decide))), hrow, List.flatMap_singleton,
    nodesAt_of_not_hasTag _ (Or.inl (hth hheader.tag (by decide))), List.append_nil]
  refine nodesAt_children _ fun cell hcell => ?_
  obtain ⟨hcellTag, hcellParts⟩ := hheader.cells cell hcell
  exact nodesAt_of_hasTag _ hcellTag (by rw [htags]; simp) (hcellParts.lacks (by decide))

theorem bodyRows_eq :
    (bodyRows ⟨table, following, enclosing⟩).map Spot.node = elementsOf body.children := by
  have htr : ∀ {n : Node} {s : String}, n.hasTag s = true → s ≠ "tr" → n.hasTag "tr" = false :=
    fun h hne => hasTag_of_hasTag_ne h hne
  have hhead' := map_tag_around (table.around enclosing) hhead
  have hbody' := map_tag_around (table.around enclosing) hbody
  -- The row of the header is a row, but not one of the body.
  have hnone : nodesAt ["tr", "tbody"] (head.around (table.around enclosing)) [headRow] = [] := by
    rw [nodesAt_of_not_hasTag _ (Or.inr (by rw [hhead']; rfl)), ← nodesAt_eq_flatMap]
    exact nodesAt_eq_nil _ (cells_lack hheader.cells (by decide) (by decide))
  rw [bodyRows, map_node_withPath, nodesAt_of_not_hasTag _ (Or.inl (htr htable (by decide))),
    hparts, List.flatMap_cons, List.flatMap_singleton,
    nodesAt_of_not_hasTag _ (Or.inl (htr hhead (by decide))), hrow, List.flatMap_singleton, hnone,
    nodesAt_of_not_hasTag _ (Or.inl (htr hbody (by decide))), List.nil_append]
  refine nodesAt_children _ fun row hmem => ?_
  obtain ⟨p, -, hp⟩ := hrows row hmem
  exact nodesAt_of_hasTag _ hp.tag (by rw [hbody']; simp)
    (cells_lack hp.cells (by decide) (by decide))

end Table

/-- A table is read as the properties it was laid out for. -/
theorem readTable_eq {ps : List Property} {table : Spot} (h : IsPropertyTable ps table.node) :
    readTable table = .ok ps := by
  obtain ⟨head, headRow, body, columns, hparts, hhead, hrow, hheader, hbody, hps⟩ := h.parts
  have hrows : ∀ row ∈ elementsOf body.children, ∃ p ∈ ps, IsRow columns p row :=
    fun row hmem => exists_of_mem_forall₂ hps hmem
  have hcells := headerCells_eq h.tag hparts hhead hrow hheader hbody hrows table.following
    table.enclosing
  have hspots := bodyRows_eq h.tag hparts hhead hrow hheader hbody hrows table.following
    table.enclosing
  have htitles := hheader.titles
  rw [← hcells, List.forall₂_map_right_iff] at htitles
  have hcolumns : HasColumns table columns := by
    refine ⟨?_, hheader.name, hheader.type⟩
    rw [headerTitles, ← List.forall₂_eq_eq_eq, List.forall₂_map_left_iff,
      List.forall₂_map_right_iff]
    exact (htitles.imp fun column th htitle => ofTitle?_eq_some_iff.mp htitle).flip
  refine readTable_eq_ok_iff.mpr ⟨columns, hcolumns, ?_⟩
  rw [← hspots, List.forall₂_map_right_iff] at hps
  rw [bodyCells, List.forall₂_map_left_iff]
  refine (hps.imp fun p row hp => ?_).flip
  rw [flip, rowCells_eq hp]
  exact ⟨hp.validRow, hp.isPropertyOf hheader.name hheader.type⟩

theorem itemName_of_name {text name : String} (h : trimmed text = name)
    (hname : isTypeName name.toList = true) : itemName text = .ok (.named name []) :=
  itemName_eq_ok.mpr ⟨by rw [h]; exact hname, by rw [h]⟩

/-- A list is read as its names. -/
theorem readListing_eq {names : List String} {listing : Spot}
    (h : IsNameList names listing.node) :
    readListing listing = .ok (names.map fun n => .named n []) := by
  have hitems : (listing.withPath ["li"]).map Spot.node = elementsOf listing.node.children := by
    have hlisting : listing.node.hasTag "li" = false := hasTag_of_hasTag_ne h.tag (by decide)
    rw [map_node_withPath, nodesAt_of_not_hasTag _ (Or.inl hlisting)]
    refine nodesAt_children _ fun item hitem => ?_
    obtain ⟨hli, hnested⟩ := h.items item hitem
    exact nodesAt_of_hasTag _ hli List.nil_prefix hnested
  have hnames := h.names
  rw [← hitems, List.forall₂_map_right_iff] at hnames
  rw [readListing, mapM_eq_ok, List.forall₂_map_right_iff]
  exact (hnames.imp fun name item hitem => itemName_of_name hitem.1 hitem.2).flip

end ApiTypings.Page
