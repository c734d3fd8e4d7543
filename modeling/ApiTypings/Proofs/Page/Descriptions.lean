import ApiTypings.Proofs.Page.TableFaults
import ApiTypings.Proofs.Page.TextRecords

/-!
# What a description may hold

The parts of a table are looked for at any depth. What stands in a description is therefore free
only as long as nothing in it is taken for a header cell, a row or a cell.
-/
namespace ApiTypings.Page

open Markup Text

/-! ### Tables with other descriptions -/

/-- The cells at or below siblings. -/
def cellsIn (ns : List Node) : List Node := nodesAt ["td"] [] ns

/-- Content in which nothing is taken for a header cell, a row or a cell. -/
structure PartFree (content : List Node) : Prop where
  headers : nodesAt ["th", "tr", "thead"] [] content = []
  rows : nodesAt ["tr", "tbody"] [] content = []
  cells : cellsIn content = []

/-- Elements with a tag that differ in their children only, as `R` says. -/
inductive Inside (tag : String) (R : List Node → List Node → Prop) : Node → Node → Prop
  | intro {name : ElementName} {attributes : List Attribute}
    {children children' contents : List Node} (htag : name.tag = tag) (h : R children children') :
    Inside tag R (.element name attributes children contents)
      (.element name attributes children' contents)

section Inside

variable {tag : String} {R : List Node → List Node → Prop} {n n' : Node} (h : Inside tag R n n')

include h

theorem Inside.hasTag : n.hasTag tag = true ∧ n'.hasTag tag = true := by
  obtain ⟨htag, -⟩ := h
  exact ⟨beq_iff_eq.mpr htag, beq_iff_eq.mpr htag⟩

theorem Inside.children : R n.children n'.children := by
  obtain ⟨-, h⟩ := h
  exact h

theorem Inside.around (enclosing : List ElementName) :
    n.around enclosing = n'.around enclosing := by
  obtain ⟨-, -⟩ := h
  rfl

end Inside

/-- Siblings that are the same but for some that differ as `R` says. -/
def Each (R : Node → Node → Prop) (ns ns' : List Node) : Prop :=
  List.Forall₂ (fun n n' => n = n' ∨ R n n') ns ns'

/-- The children of two rows that are the same but for what stands in the cells of a description.
The titles are those of the cells from here on, where cells inside of other cells count as well. -/
inductive SameCells (free : List Node → Prop) : List String → List Node → List Node → Prop
  | nil {titles : List String} : SameCells free titles [] []
  | same {titles : List String} {n : Node} {ns ns' : List Node}
    (h : SameCells free (titles.drop (cellsIn [n]).length) ns ns') :
    SameCells free titles (n :: ns) (n :: ns')
  | description {titles : List String} {td td' : Node} {ns ns' : List Node}
    (hcell : Inside "td" (fun content content' => free content ∧ free content') td td')
    (h : SameCells free titles ns ns') :
    SameCells free ("Description" :: titles) (td :: ns) (td' :: ns')

/-- Two tables that are the same but for what stands in the descriptions of their own rows, all of
it free content. -/
structure SameButDescriptions (free : List Node → Prop) (table table' : Spot) : Prop where
  enclosing : table.enclosing = table'.enclosing
  node : Inside "table" (Each (Inside "tbody" (Each (Inside "tr"
    (SameCells free (headerTitles table)))))) table.node table'.node

/-- Properties that are the same but for what their descriptions say. -/
structure SameButDescription (titles : List String) (p p' : Property) : Prop where
  name : p.name = p'.name
  type : p.type = p'.type
  optional : "Required" ∈ titles → p.optional = p'.optional

/-! ### Finding the same parts -/

theorem cellsIn_cons (n : Node) (ns : List Node) : cellsIn (n :: ns) =
    (if n.hasTag "td" then [n] else []) ++ cellsIn n.children ++ cellsIn ns := by
  rw [cellsIn, nodesAt_cons, nodesAt_tag "td" (n.around []), List.map_nil, List.isPrefixOf,
    Bool.and_true]
  rfl

theorem cellsIn_row {row : Node} (h : row.hasTag "tr" = true) :
    cellsIn [row] = cellsIn row.children := by
  have hnil : cellsIn [] = [] := rfl
  rw [cellsIn_cons, hasTag_of_hasTag_ne h (by decide), hnil, List.append_nil]
  rfl

theorem headerTitles_eq (table : Spot) : headerTitles table =
    (nodesAt ["th", "tr", "thead"] table.enclosing [table.node]).map
      fun th => trimmed th.textContent := by
  rw [headerTitles, headerCells, ← map_node_withPath, List.map_map]
  rfl

theorem bodyCells_eq (table : Spot) : bodyCells table =
    (nodesAt ["tr", "tbody"] table.enclosing [table.node]).map fun row => cellsIn [row] := by
  have hcells : ∀ row : Spot, rowCells row = cellsIn [row.node] := by
    intro row
    rw [rowCells, map_node_withPath, nodesAt_tag, cellsIn]
  rw [bodyCells, bodyRows, ← map_node_withPath, List.map_map]
  exact List.map_congr_left fun row _ => hcells row

/-- Whether what is found on a path is alike, one by one. -/
def FindsAlike (S : Node → Node → Prop) (path : List String) (ns ns' : List Node) : Prop :=
  ∀ enclosing, List.Forall₂ S (nodesAt path enclosing ns) (nodesAt path enclosing ns')

section FindsAlike

variable {S : Node → Node → Prop} {tag t : String} {outer : List String} {n n' : Node}
  {ns ns' : List Node}

theorem FindsAlike.refl (hS : ∀ n, S n n) (path : List String) (ns : List Node) :
    FindsAlike S path ns ns :=
  fun _ => List.forall₂_same.mpr fun n _ => hS n

theorem FindsAlike.cons (hn : FindsAlike S (tag :: outer) [n] [n'])
    (hns : FindsAlike S (tag :: outer) ns ns') :
    FindsAlike S (tag :: outer) (n :: ns) (n' :: ns') := by
  intro enclosing
  rw [nodesAt_cons_append, nodesAt_cons_append enclosing n' ns']
  exact List.rel_append (hn enclosing) (hns enclosing)

theorem FindsAlike.each (hS : ∀ n, S n n) {R : Node → Node → Prop}
    (hR : ∀ n n', R n n' → FindsAlike S (tag :: outer) [n] [n']) (h : Each R ns ns') :
    FindsAlike S (tag :: outer) ns ns' := by
  induction h with
  | nil => exact FindsAlike.refl hS _ []
  | cons hn _ ih =>
    rcases hn with rfl | hn
    · exact (FindsAlike.refl hS _ _).cons ih
    · exact (hR _ _ hn).cons ih

theorem FindsAlike.inside {R : List Node → List Node → Prop}
    (hR : ∀ ns ns', R ns ns' → FindsAlike S (tag :: outer) ns ns') (hself : t = tag → S n n')
    (h : Inside t R n n') : FindsAlike S (tag :: outer) [n] [n'] := by
  intro enclosing
  obtain ⟨hn, hn'⟩ := h.hasTag
  rw [nodesAt_cons, nodesAt_cons enclosing n', h.around]
  refine List.rel_append (List.rel_append ?_ (hR _ _ h.children _)) .nil
  by_cases ht : t = tag
  · rw [← ht, hn, hn']
    split
    · exact .cons (hself ht) .nil
    · exact .nil
  · rw [hasTag_of_hasTag_ne hn ht, hasTag_of_hasTag_ne hn' ht]
    exact .nil

end FindsAlike

/-- What is found in a cell does not depend on where the cell stands. -/
theorem nodesAt_cell {tag : String} {outer : List String} (htag : "td" ∉ tag :: outer) {td : Node}
    (htd : td.hasTag "td" = true) (enclosing : List ElementName) :
    nodesAt (tag :: outer) enclosing [td] = nodesAt (tag :: outer) [] td.children := by
  obtain ⟨hne, houter⟩ := not_or.mp (List.mem_cons.not.mp htag)
  rw [nodesAt_cons, hasTag_of_hasTag_ne htd hne, nodesAt_around houter htd]
  exact List.append_nil _

section Free

variable {free : List Node → Prop} {titles : List String} {ns ns' : List Node}
  {table table' : Spot}

section Path

variable {S : Node → Node → Prop} (hS : ∀ n, S n n) {tag : String} {outer : List String}
  (hfree : ∀ content, free content → nodesAt (tag :: outer) [] content = [])

include hS hfree in
theorem SameCells.findsAlike (htag : "td" ∉ tag :: outer) (h : SameCells free titles ns ns') :
    FindsAlike S (tag :: outer) ns ns' := by
  induction h with
  | nil => exact FindsAlike.refl hS _ []
  | same _ ih => exact (FindsAlike.refl hS _ _).cons ih
  | description hcell _ ih =>
    refine FindsAlike.cons (fun enclosing => ?_) ih
    obtain ⟨htd, htd'⟩ := hcell.hasTag
    obtain ⟨hcontent, hcontent'⟩ := hcell.children
    rw [nodesAt_cell htag htd, nodesAt_cell htag htd', hfree _ hcontent, hfree _ hcontent']
    exact .nil

include hS hfree in
/-- Free content does not change what is found in a table, own rows apart. -/
theorem SameButDescriptions.findsAlike (h : SameButDescriptions free table table')
    (htable : "table" ≠ tag) (htbody : "tbody" ≠ tag) (htd : "td" ∉ tag :: outer)
    (htr : "tr" = tag → ∀ row row',
      Inside "tr" (SameCells free (headerTitles table)) row row' → S row row') :
    FindsAlike S (tag :: outer) [table.node] [table'.node] := by
  -- Level by level down to the cells; of what differs, only a row can itself be looked for.
  refine FindsAlike.inside (fun bodies bodies' hbodies => ?_) (fun ht => absurd ht htable) h.node
  refine FindsAlike.each hS (fun body body' hbody => ?_) hbodies
  refine FindsAlike.inside (fun rows rows' hrows => ?_) (fun ht => absurd ht htbody) hbody
  refine FindsAlike.each hS (fun row row' hrow => ?_) hrows
  exact FindsAlike.inside (fun _ _ hcells => hcells.findsAlike hS hfree htd)
    (fun ht => htr ht row row' hrow) hrow

end Path

/-! ### Reading the same properties -/

/-- As many cells, and the same ones but for those of a description. -/
structure CellsAlike (titles : List String) (cells cells' : List Node) : Prop where
  length : cells.length = cells'.length
  same : ∀ i : Nat, titles[i]? ≠ some "Description" → cells[i]? = cells'[i]?

theorem CellsAlike.refl (titles : List String) (cells : List Node) :
    CellsAlike titles cells cells :=
  ⟨rfl, fun _ _ => rfl⟩

theorem CellsAlike.append {cells cells' : List Node} (before : List Node)
    (h : CellsAlike (titles.drop before.length) cells cells') :
    CellsAlike titles (before ++ cells) (before ++ cells') := by
  constructor
  · simp [h.length]
  · intro i hi
    by_cases hlt : i < before.length
    · rw [List.getElem?_append_left hlt, List.getElem?_append_left hlt]
    · have hle := Nat.le_of_not_lt hlt
      rw [List.getElem?_append_right hle, List.getElem?_append_right hle]
      apply h.same
      rwa [List.getElem?_drop, Nat.add_sub_cancel' hle]

theorem CellsAlike.description {cells cells' : List Node} (td td' : Node)
    (h : CellsAlike titles cells cells') :
    CellsAlike ("Description" :: titles) (td :: cells) (td' :: cells') := by
  constructor
  · simp [h.length]
  · rintro (_ | i) hi
    · exact absurd rfl hi
    · exact h.same i hi

theorem SameCells.cellsAlike (hfree : ∀ content, free content → PartFree content)
    (h : SameCells free titles ns ns') : CellsAlike titles (cellsIn ns) (cellsIn ns') := by
  induction h with
  | nil => exact .refl _ _
  | @same titles n ns ns' _ ih =>
    have hsplit : ∀ ms, cellsIn (n :: ms) = cellsIn [n] ++ cellsIn ms :=
      fun ms => nodesAt_cons_append [] n ms
    rw [hsplit ns, hsplit ns']
    exact ih.append (cellsIn [n])
  | description hcell _ ih =>
    obtain ⟨htd, htd'⟩ := hcell.hasTag
    obtain ⟨hcontent, hcontent'⟩ := hcell.children
    rw [cellsIn_cons, cellsIn_cons, (hfree _ hcontent).cells, (hfree _ hcontent').cells, htd, htd']
    exact ih.description _ _

theorem SameButDescriptions.headerTitles_eq (hfree : ∀ content, free content → PartFree content)
    (h : SameButDescriptions free table table') : headerTitles table = headerTitles table' := by
  have hfinds : FindsAlike Eq ["th", "tr", "thead"] [table.node] [table'.node] :=
    h.findsAlike (fun _ => rfl) (fun content hcontent => (hfree content hcontent).headers)
      (by decide) (by decide) (by decide) (by simp)
  have hnodes := hfinds table.enclosing
  rw [List.forall₂_eq_eq_eq] at hnodes
  rw [Page.headerTitles_eq, Page.headerTitles_eq, hnodes, h.enclosing]

theorem SameButDescriptions.bodyCells_alike (hfree : ∀ content, free content → PartFree content)
    (h : SameButDescriptions free table table') :
    List.Forall₂ (CellsAlike (headerTitles table)) (bodyCells table) (bodyCells table') := by
  have hfinds : FindsAlike (fun row row' => row = row' ∨
      Inside "tr" (SameCells free (headerTitles table)) row row') ["tr", "tbody"]
      [table.node] [table'.node] :=
    h.findsAlike (fun _ => Or.inl rfl) (fun content hcontent => (hfree content hcontent).rows)
      (by decide) (by decide) (by decide) (fun _ _ _ => Or.inr)
  rw [bodyCells_eq, bodyCells_eq, ← h.enclosing, List.forall₂_map_left_iff,
    List.forall₂_map_right_iff]
  refine (hfinds table.enclosing).imp fun row row' hrow => ?_
  rcases hrow with rfl | hrow
  · exact .refl _ _
  · obtain ⟨htr, htr'⟩ := hrow.hasTag
    rw [cellsIn_row htr, cellsIn_row htr']
    exact hrow.children.cellsAlike hfree

end Free

/-- Cells with their columns, but for what is in a description. -/
def SameCell (c c' : Column × Node) : Prop := c.1 = c'.1 ∧ (c.1 ≠ .description → c.2 = c'.2)

section Row

variable {columns : List Column} {cells cells' : List Node}

theorem CellsAlike.of_cons {title : String} {titles : List String} {cell cell' : Node}
    (h : CellsAlike (title :: titles) (cell :: cells) (cell' :: cells')) :
    (title ≠ "Description" → cell = cell') ∧ CellsAlike titles cells cells' :=
  ⟨fun hne => Option.some.inj (h.same 0 fun htitle => hne (Option.some.inj htitle)),
    Nat.succ.inj h.length, fun i hi => h.same (i + 1) hi⟩

/-- In each column stands the same cell, unless it is one of a description. -/
theorem CellsAlike.zip (h : CellsAlike (columns.map Column.title) cells cells') :
    List.Forall₂ SameCell (columns.zip cells) (columns.zip cells') := by
  induction columns generalizing cells cells' with
  | nil => exact .nil
  | cons column columns ih =>
    have hlength := h.length
    cases cells with
    | nil =>
      rw [List.eq_nil_of_length_eq_zero hlength.symm]
      exact .nil
    | cons cell cells =>
      obtain ⟨cell', cells', rfl⟩ := List.exists_cons_of_length_eq_add_one hlength.symm
      obtain ⟨hcell, hcells⟩ := h.of_cons
      exact .cons ⟨rfl, fun hne => hcell (Column.title_injective.ne hne)⟩ (ih hcells)

theorem lastCell?_congr {kind : Column → Bool} (hkind : kind .description = false)
    {cs cs' : List (Column × Node)} (h : List.Forall₂ SameCell cs cs') :
    lastCell? kind cs = lastCell? kind cs' := by
  have hfind : ∀ {xs ys}, List.Forall₂ SameCell xs ys →
      (xs.find? fun c => kind c.1).map Prod.snd = (ys.find? fun c => kind c.1).map Prod.snd := by
    intro xs ys hxs
    induction hxs with
    | nil => rfl
    | @cons c c' xs ys hc _ ih =>
      rw [List.find?_cons, List.find?_cons, ← hc.1]
      cases hcolumn : kind c.1 with
      | true =>
        have hne : c.1 ≠ .description := fun heq => by simp [heq, hkind] at hcolumn
        exact congrArg some (hc.2 hne)
      | false => exact ih
  exact hfind (List.forall₂_reverse_iff.mpr h)

theorem CellsAlike.validRow (h : CellsAlike (columns.map Column.title) cells cells')
    (hrow : ValidRow columns cells) : ValidRow columns cells' := by
  refine ⟨h.length ▸ hrow.enough, fun c' hc' => ?_⟩
  obtain ⟨c, hc, hcolumn, hcell⟩ := exists_of_mem_forall₂ h.zip hc'
  by_cases hdescription : c.1 = .description
  · rw [← hcolumn, hdescription]
    trivial
  · rw [← hcolumn, ← hcell hdescription]
    exact hrow.cells c hc

/-- Other descriptions leave the rest of a property as it is. -/
theorem CellsAlike.property (h : CellsAlike (columns.map Column.title) cells cells') {p : Property}
    (hrow : ValidRow columns cells) (hp : IsPropertyOf columns cells p) :
    ∃ p', IsPropertyOf columns cells' p' ∧ SameButDescription (columns.map Column.title) p p' := by
  have hname := @lastCell?_congr Column.isName rfl _ _ h.zip
  have htype := @lastCell?_congr (· == .type) rfl _ _ h.zip
  have hrequired := @lastCell?_congr (· == .required) rfl _ _ h.zip
  -- The description is read off the other cells, and so is the flag unless a column has it.
  refine ⟨⟨p.name, p.type, saysOptional (columns.zip cells'),
    (lastCell? (· == .description) (columns.zip cells')).map commentOf⟩,
    ⟨hname ▸ hp.name, htype ▸ hp.type, rfl, rfl⟩, rfl, rfl, fun hmem => ?_⟩
  obtain ⟨column, hcolumn, htitle⟩ := List.mem_map.mp hmem
  obtain rfl : column = .required := Column.title_injective htitle
  obtain ⟨cell, hcell⟩ := @exists_lastCell? (· == .required) columns cells
    ⟨.required, hcolumn, rfl⟩ hrow.enough
  rw [hp.optional, saysOptional, saysOptional, ← hrequired, hcell]

/-- Row by row, other descriptions leave the rest of the properties as it is. -/
theorem exists_properties_alike {rows rows' : List (List Node)} {ps : List Property}
    (halike : List.Forall₂ (CellsAlike (columns.map Column.title)) rows rows')
    (h : List.Forall₂ (fun row p => ValidRow columns row ∧ IsPropertyOf columns row p) rows ps) :
    ∃ ps', List.Forall₂ (fun row p => ValidRow columns row ∧ IsPropertyOf columns row p) rows' ps' ∧
      List.Forall₂ (SameButDescription (columns.map Column.title)) ps ps' := by
  induction halike generalizing ps with
  | nil =>
    cases h
    exact ⟨[], .nil, .nil⟩
  | cons hrow _ ih =>
    obtain ⟨p, rest, ⟨hvalid, hp⟩, hrest, rfl⟩ := List.forall₂_cons_left_iff.mp h
    obtain ⟨p', hp', hsame⟩ := hrow.property hvalid hp
    obtain ⟨rest', hrest', hsameRest⟩ := ih hrest
    exact ⟨p' :: rest', .cons ⟨hrow.validRow hvalid, hp'⟩ hrest', .cons hsame hsameRest⟩

end Row

/-- A table with other descriptions in which nothing is taken for a part of it is read as the same
properties. -/
theorem readTable_of_sameButDescriptions {free : List Node → Prop}
    (hfree : ∀ content, free content → PartFree content) {table table' : Spot}
    (h : SameButDescriptions free table table') {ps : List Property}
    (hread : readTable table = .ok ps) : ∃ ps', readTable table' = .ok ps' ∧
      List.Forall₂ (SameButDescription (headerTitles table)) ps ps' := by
  obtain ⟨columns, hcolumns, hrows⟩ := readTable_eq_ok_iff.mp hread
  have halike := h.bodyCells_alike hfree
  rw [hcolumns.titles] at halike ⊢
  obtain ⟨ps', hrows', hsame⟩ := exists_properties_alike halike hrows
  have hcolumns' : HasColumns table' columns :=
    ⟨(h.headerTitles_eq hfree).symm.trans hcolumns.titles, hcolumns.name, hcolumns.type⟩
  exact ⟨ps', readTable_eq_ok_iff.mpr ⟨columns, hcolumns', hrows'⟩, hsame⟩

/-! ### Contents that are no free content -/

def describedHeader : Node :=
  plainElement "tr" [plainElement "th" [.text "Description"], plainElement "th" [.text "Field"],
    plainElement "th" [.text "Type"]]

def describedRow (content : List Node) (name : String) : Node :=
  plainElement "tr"
    [plainElement "td" content, plainElement "td" [.text name], plainElement "td" [.text "Integer"]]

/-- A table whose first row has `content` for its description and `name` for its field. -/
def describedTable (content : List Node) (name : String) : Spot :=
  ⟨plainElement "table" [plainElement "thead" [describedHeader],
    plainElement "tbody" [describedRow content name, describedRow [] "title"]], [], []⟩

/-- The property of a row without description. -/
def plainProperty (name : String) : Property := ⟨name, .scalar .integer, false, some ⟨"", ""⟩⟩

theorem isRow_describedRow {name : String} (h : isIdentifier name.toList = true) :
    IsRow [.description, .field, .type] (plainProperty name) (describedRow [] name) where
  tag := rfl
  cells := List.forall_mem_cons.mpr ⟨⟨rfl, allNodes_nil⟩, List.forall_mem_cons.mpr
    ⟨⟨rfl, holdsNoTableParts_text name⟩,
      List.forall_mem_singleton.mpr ⟨rfl, holdsNoTableParts_text "Integer"⟩⟩⟩
  name := h
  contents := by
    have htype : SpellsType (.scalar .integer) (signsOf "Integer") := spellsType_scalar rfl
    exact .cons rfl (.cons (trimmed_plainElement "td" h) (.cons ⟨_, rfl, htype⟩ .nil))
  description := by simp
  optional := by
    simp only [plainProperty, Option.mem_some_iff, exists_eq_left']
    decide

theorem readTable_describedTable_nil {name : String} (h : isIdentifier name.toList = true) :
    readTable (describedTable [] name) = .ok [plainProperty name, plainProperty "title"] := by
  refine readTable_eq ⟨rfl, _, _, _, [.description, .field, .type], rfl, rfl, rfl, ?_, rfl,
    .cons (isRow_describedRow h) (.cons (isRow_describedRow (by decide)) .nil)⟩
  exact ⟨rfl, by unfold HoldsNoTableParts AllNodes; decide, .cons rfl (.cons rfl (.cons rfl .nil)),
    ⟨.field, by decide, rfl⟩, by decide⟩

section Described

variable {tag : String} {outer : List String} (content : List Node) (name : String)

theorem nodesAt_plainElement {t : String} (enclosing : List ElementName) (children : List Node) :
    nodesAt (tag :: outer) enclosing [plainElement t children] =
      (if t == tag && outer.isPrefixOf (enclosing.map ElementName.tag)
        then [plainElement t children] else []) ++
      nodesAt (tag :: outer) (⟨.html, t⟩ :: enclosing) children := by
  rw [nodesAt_cons]
  exact List.append_nil _

theorem nodesAt_describedRow (htag : "td" ∉ tag :: outer) (enclosing : List ElementName) :
    nodesAt (tag :: outer) enclosing [describedRow content name] =
      (if "tr" == tag && outer.isPrefixOf (enclosing.map ElementName.tag)
        then [describedRow content name] else []) ++ nodesAt (tag :: outer) [] content := by
  rw [describedRow, nodesAt_plainElement, nodesAt_cons_append,
    nodesAt_cons_append _ (plainElement "td" [.text name]), nodesAt_cell htag rfl,
    nodesAt_cell htag rfl, nodesAt_cell htag rfl]
  exact congrArg _ (List.append_nil _)

/-- Below the table, what its first description holds is found among its own parts. -/
theorem nodesAt_describedTable (htag : "td" ∉ tag :: outer) (htable : "table" ≠ tag)
    (hbody : "tbody" ≠ tag) : nodesAt (tag :: outer) [] [(describedTable content name).node] =
      nodesAt (tag :: outer) [⟨.html, "table"⟩] [plainElement "thead" [describedHeader]] ++
        ((if "tr" == tag && outer.isPrefixOf ["tbody", "table"]
            then [describedRow content name] else []) ++ nodesAt (tag :: outer) [] content ++
          if "tr" == tag && outer.isPrefixOf ["tbody", "table"]
            then [describedRow [] "title"] else []) := by
  have hnil : nodesAt (tag :: outer) [] [] = [] := rfl
  have hrows : nodesAt (tag :: outer) [⟨.html, "tbody"⟩, ⟨.html, "table"⟩]
      [describedRow content name, describedRow [] "title"] = _ :=
    nodesAt_cons_append _ (describedRow content name) _
  rw [nodesAt_describedRow content name htag, nodesAt_describedRow [] "title" htag, hnil,
    List.append_nil] at hrows
  rw [describedTable, nodesAt_plainElement, beq_false_of_ne htable, nodesAt_cons_append,
    nodesAt_plainElement _ [describedRow content name, describedRow [] "title"],
    beq_false_of_ne hbody, hrows]
  rfl

theorem headerTitles_describedTable :
    headerTitles (describedTable content name) = ["Description", "Field", "Type"] ++
      (nodesAt ["th", "tr", "thead"] [] content).map fun th => trimmed th.textContent := by
  have hnodes := @nodesAt_describedTable "th" ["tr", "thead"] content name (by decide) (by decide)
    (by decide)
  rw [headerTitles_eq]
  refine (congrArg (List.map _) hnodes).trans ?_
  rw [List.map_append, List.map_append, List.map_append]
  exact congrArg (_ ++ ·) (List.append_nil _)

theorem bodyCells_describedTable :
    bodyCells (describedTable content name) =
      (plainElement "td" content :: (cellsIn content ++
        [plainElement "td" [.text name], plainElement "td" [.text "Integer"]])) ::
      ((nodesAt ["tr", "tbody"] [] content).map (fun row => cellsIn [row]) ++
        [(describedRow [] "title").children]) := by
  have hnodes := @nodesAt_describedTable "tr" ["tbody"] content name (by decide) (by decide)
    (by decide)
  have hcells : cellsIn [describedRow content name] = plainElement "td" content ::
      (cellsIn content ++
        [plainElement "td" [.text name], plainElement "td" [.text "Integer"]]) := by
    rw [cellsIn_row rfl, describedRow, plainElement, Node.children, cellsIn_cons]
    rfl
  rw [bodyCells_eq]
  refine (congrArg (List.map _) hnodes).trans ?_
  rw [List.map_append, List.map_append, List.map_append, ← hcells]
  rfl

theorem sameButDescriptions_describedTable {free : List Node → Prop} (hempty : free [])
    (hcontent : free content) :
    SameButDescriptions free (describedTable [] name) (describedTable content name) := by
  have htitles : headerTitles (describedTable [] name) = ["Description", "Field", "Type"] :=
    headerTitles_describedTable [] name
  have hcells : SameCells free (headerTitles (describedTable [] name))
      (describedRow [] name).children (describedRow content name).children := by
    rw [htitles]
    exact .description (.intro rfl ⟨hempty, hcontent⟩) (.same (.same .nil))
  have hrow : Inside "tr" (SameCells free (headerTitles (describedTable [] name)))
      (describedRow [] name) (describedRow content name) := .intro rfl hcells
  exact ⟨rfl, .intro rfl (.cons (Or.inl rfl) (.cons
    (Or.inr (.intro rfl (.cons (Or.inr hrow) (.cons (Or.inl rfl) .nil)))) .nil))⟩

variable {content name}

/-- A cell in the first description comes before the field of its row. -/
theorem name_of_describedTable {cell : Node} {cells : List Node}
    (hheaders : nodesAt ["th", "tr", "thead"] [] content = [])
    (hcells : cellsIn content = cell :: cells) {p : Property} {ps : List Property}
    (h : readTable (describedTable content name) = .ok (p :: ps)) :
    p.name = trimmed cell.textContent := by
  obtain ⟨columns, hcolumns, hrows⟩ := readTable_eq_ok_iff.mp h
  have htitles := hcolumns.titles
  rw [headerTitles_describedTable, hheaders] at htitles
  obtain rfl : [.description, .field, .type] = columns :=
    List.map_injective_iff.mpr Column.title_injective htitles
  rw [bodyCells_describedTable, hcells] at hrows
  obtain ⟨⟨-, hp⟩, -⟩ := List.forall₂_cons.mp hrows
  obtain ⟨field, hfield, hname⟩ := hp.name
  have hcell : lastCell? Column.isName ([Column.description, .field, .type].zip
      (plainElement "td" content :: (cell :: cells ++
        [plainElement "td" [.text name], plainElement "td" [.text "Integer"]]))) = some cell := by
    cases cells <;> rfl
  obtain rfl : cell = field := Option.some.inj (hcell.symm.trans hfield)
  exact hname

/-- More header cells make the second row too short, and more rows more properties. -/
theorem found_nothing_of_describedTable {p p' : Property}
    (h : readTable (describedTable content name) = .ok [p, p']) :
    nodesAt ["th", "tr", "thead"] [] content = [] ∧ nodesAt ["tr", "tbody"] [] content = [] := by
  obtain ⟨columns, hcolumns, hrows⟩ := readTable_eq_ok_iff.mp h
  rw [bodyCells_describedTable] at hrows
  constructor
  · obtain ⟨q, -, hlast, -⟩ := exists_of_mem_forall₂ hrows.flip
      (List.mem_cons_of_mem _ (List.mem_append_right _ (List.mem_singleton_self _)))
    have henough : columns.length ≤ 3 := hlast.enough
    have htitles := congrArg List.length hcolumns.titles
    rw [headerTitles_describedTable, List.length_append, List.length_map,
      List.length_map] at htitles
    have hthree : ["Description", "Field", "Type"].length = 3 := rfl
    exact List.length_eq_zero_iff.mp (by omega)
  · have hlength := hrows.length_eq
    simp only [List.length_cons, List.length_append, List.length_map, List.length_nil] at hlength
    exact List.length_eq_zero_iff.mp (by omega)

end Described

/-- Descriptions can hold whatever one likes, without a change to the number, the names and the
types of the properties that are read, or to whether they are optional in a table that says so in a
column, exactly as long as nothing in them is taken for a header cell, a row or a cell. -/
theorem readTable_sameButDescriptions_iff {free : List Node → Prop} (hempty : free []) :
    (∀ table table', SameButDescriptions free table table' → ∀ ps, readTable table = .ok ps →
      ∃ ps', readTable table' = .ok ps' ∧
        List.Forall₂ (SameButDescription (headerTitles table)) ps ps') ↔
      ∀ content, free content → PartFree content := by
  refine ⟨fun h content hcontent => ?_, fun hfree table table' hsame ps hread =>
    readTable_of_sameButDescriptions hfree hsame hread⟩
  have hread : ∀ name, isIdentifier name.toList = true → ∃ p p',
      readTable (describedTable content name) = .ok [p, p'] ∧ p.name = name := by
    intro name hname
    obtain ⟨ps, hps, hsame⟩ := h _ _
      (sameButDescriptions_describedTable content name hempty hcontent) _
      (readTable_describedTable_nil hname)
    obtain ⟨p, rest, hp, hrest, rfl⟩ := List.forall₂_cons_left_iff.mp hsame
    obtain ⟨p', rest', -, hnil, rfl⟩ := List.forall₂_cons_left_iff.mp hrest
    cases hnil
    exact ⟨p, p', hps, hp.name.symm⟩
  obtain ⟨p, p', ha, hpa⟩ := hread "a" (by decide)
  obtain ⟨hheaders, hrows⟩ := found_nothing_of_describedTable ha
  refine ⟨hheaders, hrows, ?_⟩
  -- A cell in the description would name the first property, whatever stands in its own field.
  cases hcells : cellsIn content with
  | nil => rfl
  | cons cell cells =>
    obtain ⟨q, q', hb, hqb⟩ := hread "b" (by decide)
    have hname := (name_of_describedTable hheaders hcells ha).trans
      (name_of_describedTable hheaders hcells hb).symm
    rw [hpa, hqb] at hname
    exact absurd hname (by decide)

/-- A description with markup in it. -/
def emphasis : List Node := [.text "Where ", plainElement "em" [.text "it"], .text " happened"]

theorem readTable_sameButDescriptions_iff_emphasis :
    ([] ∈ [[], emphasis]) ∧
      ∀ table table', SameButDescriptions (· ∈ [[], emphasis]) table table' →
        ∀ ps, readTable table = .ok ps → ∃ ps', readTable table' = .ok ps' ∧
          List.Forall₂ (SameButDescription (headerTitles table)) ps ps' := by
  have hempty : [] ∈ [[], emphasis] := List.mem_cons_self
  refine ⟨hempty, (readTable_sameButDescriptions_iff hempty).mpr fun content hcontent => ?_⟩
  rcases List.mem_cons.mp hcontent with rfl | hcontent
  · exact ⟨rfl, rfl, rfl⟩
  · obtain rfl := List.mem_singleton.mp hcontent
    exact ⟨rfl, rfl, rfl⟩

/-- A description that explains its values in a table of its own. -/
def valueTable : List Node :=
  [plainElement "table"
    [plainElement "thead" [plainElement "tr" [plainElement "th" [.text "Value"]]],
    plainElement "tbody" [plainElement "tr" [plainElement "td" [.text "1"]]]]]

theorem readTable_valueTable :
    SameButDescriptions (fun _ => True) (describedTable [] "id") (describedTable valueTable "id") ∧
      readTable (describedTable [] "id") = .ok [plainProperty "id", plainProperty "title"] ∧
      readTable (describedTable valueTable "id") = .error (.unrecognizedColumn "Value") :=
  ⟨sameButDescriptions_describedTable valueTable "id" trivial trivial,
    readTable_describedTable_nil (by decide), rfl⟩

end ApiTypings.Page
