import ApiTypings.Proofs.Page.CellLanguage
import ApiTypings.Proofs.Page.Shape

/-!
# Valid tables and the first fault of the others

What is wrong with a table is said without reading it: each fault is given by what stands before
it and is in order. A table is read exactly if it has no fault, and every property is made of its
own row; the error of any other table is its first fault.
-/
namespace ApiTypings.Page

open Markup Text

/-! ### Columns -/

def Column.title : Column → String
  | parameter => "Parameter"
  | field => "Field"
  | type => "Type"
  | required => "Required"
  | description => "Description"

/-- What stands in the header of a table. -/
def headerTitles (table : Spot) : List String :=
  (headerCells table).map fun th => trimmed th.text

/-- The cells of each row in the body of a table. -/
def bodyCells (table : Spot) : List (List Node) := (bodyRows table).map rowCells

theorem ofTitle?_eq_some_iff {title : String} {column : Column} :
    Column.ofTitle? title = some column ↔ title = column.title := by
  constructor
  · intro h
    unfold Column.ofTitle? at h
    split at h <;> cases h <;> rfl
  · rintro rfl
    cases column <;> rfl

theorem Column.title_injective : Function.Injective Column.title := by
  intro column other h
  have hcolumn : ofTitle? column.title = some other := ofTitle?_eq_some_iff.mpr h
  exact Option.some.inj ((ofTitle?_eq_some_iff.mpr rfl).symm.trans hcolumn)

theorem columnOf_eq_ok_iff {title : String} {column : Column} :
    columnOf title = .ok column ↔ title = column.title := by
  rw [← ofTitle?_eq_some_iff, columnOf]
  cases Column.ofTitle? title <;> simp

theorem columnOf_eq_error_iff {title : String} {e : PageError} :
    columnOf title = .error e ↔
      (∀ column : Column, title ≠ column.title) ∧ e = .unrecognizedColumn title := by
  simp only [ne_eq, ← ofTitle?_eq_some_iff, columnOf]
  cases Column.ofTitle? title <;> simp [eq_comm]

/-- The columns of a table, among them one for names and one for types. -/
structure HasColumns (table : Spot) (columns : List Column) : Prop where
  titles : headerTitles table = columns.map Column.title
  name : ∃ column ∈ columns, column.isName = true
  type : .type ∈ columns

/-- Which column is missing first. -/
inductive LacksColumn (columns : List Column) : String → Prop
  | name (h : ∀ column ∈ columns, column.isName = false) : LacksColumn columns "Field"
  | type (hname : ∃ column ∈ columns, column.isName = true) (h : .type ∉ columns) :
    LacksColumn columns "Type"

theorem mapM_columnOf_eq_ok_iff {table : Spot} {columns : List Column} :
    (headerCells table).mapM (fun th => columnOf (trimmed th.text)) = .ok columns ↔
      headerTitles table = columns.map Column.title := by
  rw [mapM_eq_ok, headerTitles, ← List.forall₂_eq_eq_eq, List.forall₂_map_left_iff,
    List.forall₂_map_right_iff]
  simp only [columnOf_eq_ok_iff]

/-- The first title that is none of a column. -/
def UnknownTitle (titles : List String) (title : String) : Prop :=
  ∃ before after, titles = before ++ title :: after ∧
    (∀ t ∈ before, ∃ column : Column, t = column.title) ∧ ∀ column : Column, title ≠ column.title

theorem mapM_columnOf_eq_error_iff {table : Spot} {e : PageError} :
    (headerCells table).mapM (fun th => columnOf (trimmed th.text)) = .error e ↔
      ∃ title, UnknownTitle (headerTitles table) title ∧ e = .unrecognizedColumn title := by
  have htitles : (headerTitles table).mapM columnOf =
      (headerCells table).mapM fun th => columnOf (trimmed th.text) := by
    simp only [headerTitles, List.mapM_map, Function.comp_def]
  rw [← htitles, mapM_eq_error_iff]
  simp only [columnOf_eq_ok_iff, columnOf_eq_error_iff]
  constructor
  · rintro ⟨before, title, after, hsplit, hbefore, hunknown, rfl⟩
    exact ⟨title, ⟨before, after, hsplit, hbefore, hunknown⟩, rfl⟩
  · rintro ⟨title, ⟨before, after, hsplit, hbefore, hunknown⟩, rfl⟩
    exact ⟨before, title, after, hsplit, hbefore, hunknown, rfl⟩

theorem tableColumns_eq_ok_iff {table : Spot} {columns : List Column} :
    tableColumns table = .ok columns ↔ HasColumns table columns := by
  rw [tableColumns, bind_eq_ok]
  constructor
  · rintro ⟨cs, hcs, h⟩
    by_cases hname : cs.any Column.isName = true
    · by_cases htype : cs.contains .type = true
      · simp only [hname, htype] at h
        obtain rfl : cs = columns := Except.ok.inj h
        exact ⟨mapM_columnOf_eq_ok_iff.mp hcs, List.any_eq_true.mp hname,
          List.contains_iff_mem.mp htype⟩
      · simp only [hname, htype] at h
        cases h
    · simp only [hname] at h
      cases h
  · rintro ⟨htitles, hname, htype⟩
    refine ⟨columns, mapM_columnOf_eq_ok_iff.mpr htitles, ?_⟩
    rw [List.any_eq_true.mpr hname, List.contains_iff_mem.mpr htype]
    rfl

theorem tableColumns_eq_error_iff {table : Spot} {e : PageError} :
    tableColumns table = .error e ↔
      (∃ title, UnknownTitle (headerTitles table) title ∧ e = .unrecognizedColumn title) ∨
      ∃ columns name, headerTitles table = columns.map Column.title ∧ LacksColumn columns name ∧
        e = .missingColumn name := by
  rw [tableColumns, bind_eq_error, mapM_columnOf_eq_error_iff]
  apply or_congr_right
  constructor
  · rintro ⟨columns, hcolumns, h⟩
    have htitles := mapM_columnOf_eq_ok_iff.mp hcolumns
    by_cases hname : columns.any Column.isName = true
    · by_cases htype : columns.contains .type = true
      · simp only [hname, htype] at h
        cases h
      · simp only [hname, htype] at h
        exact ⟨columns, "Type", htitles,
          .type (List.any_eq_true.mp hname) (by simpa using htype), (Except.error.inj h).symm⟩
    · simp only [hname] at h
      exact ⟨columns, "Field", htitles, .name (by simpa using hname), (Except.error.inj h).symm⟩
  · rintro ⟨columns, name, htitles, hlacks, rfl⟩
    refine ⟨columns, mapM_columnOf_eq_ok_iff.mpr htitles, ?_⟩
    cases hlacks with
    | name h =>
      have hname : columns.any Column.isName = false := by simpa using h
      rw [hname]
      rfl
    | type hname h =>
      have htype : columns.contains .type = false := by simpa using h
      rw [List.any_eq_true.mpr hname, htype]
      rfl

/-! ### Cells -/

/-- Whether a cell says what its column asks for. -/
def ValidCell (column : Column) (cell : Node) : Prop :=
  match column with
  | .parameter | .field => isIdentifier (trimmed cell.textContent).toList = true
  | .type => ∃ t ss, signs? cell.children = some ss ∧ WritesType t ss
  | .required => trimmed cell.textContent = "Yes" ∨ trimmed cell.textContent = "Optional"
  | .description => True

/-- What is wrong with a cell. -/
inductive CellFault (cell : Node) : Column → PageError → Prop
  | identifier {column : Column} (hname : column.isName = true)
    (h : isIdentifier (trimmed cell.textContent).toList = false) :
    CellFault cell column (.invalidIdentifier (trimmed cell.textContent))
  | type {text : String} (h : cellType cell = .error (.invalidType text)) :
    CellFault cell .type (.invalidType text)
  | scalar {words : String} (h : cellType cell = .error (.unknownScalar words)) :
    CellFault cell .type (.unknownScalar words)
  | required (hyes : trimmed cell.textContent ≠ "Yes")
    (hoptional : trimmed cell.textContent ≠ "Optional") :
    CellFault cell .required (.invalidRequired (trimmed cell.textContent))

theorem nameCell_eq_error_iff {cell : Node} {e : PageError} : nameCell cell = .error e ↔
    isIdentifier (trimmed cell.textContent).toList = false ∧
      e = .invalidIdentifier (trimmed cell.textContent) := by
  rw [nameCell]
  split
  next h => simp [h]
  next h => simp [h, eq_comm]

theorem requiredCell_eq_ok_iff {cell : Node} {b : Bool} :
    requiredCell cell = .ok b ↔ trimmed cell.textContent = if b then "Yes" else "Optional" := by
  rw [requiredCell]
  split
  next h => cases b <;> simp [h]
  next h => cases b <;> simp [h]
  next hyes hoptional =>
    cases b
    · exact iff_of_false (by simp) hoptional
    · exact iff_of_false (by simp) hyes

theorem requiredCell_eq_error_iff {cell : Node} {e : PageError} : requiredCell cell = .error e ↔
    trimmed cell.textContent ≠ "Yes" ∧ trimmed cell.textContent ≠ "Optional" ∧
      e = .invalidRequired (trimmed cell.textContent) := by
  rw [requiredCell]
  split
  next h => simp [h]
  next h => simp [h]
  next hyes hoptional =>
    exact ⟨fun h => ⟨hyes, hoptional, (Except.error.inj h).symm⟩, fun h => congrArg _ h.2.2.symm⟩

/-- What a cell adds to what has been read of its row. -/
inductive Adds (r : RowContent) (cell : Node) : Column → RowContent → Prop
  | name {column : Column} (hname : column.isName = true)
    (h : isIdentifier (trimmed cell.textContent).toList = true) :
    Adds r cell column { r with name := some (trimmed cell.textContent) }
  | type {t : ApiType} (h : cellType cell = .ok t) : Adds r cell .type { r with type := some t }
  | required {b : Bool} (h : trimmed cell.textContent = if b then "Yes" else "Optional") :
    Adds r cell .required { r with required := some b }
  | description : Adds r cell .description { r with description := some (commentOf cell) }

theorem add_eq_ok_iff {r next : RowContent} {column : Column} {cell : Node} :
    r.add column cell = .ok next ↔ Adds r cell column next := by
  constructor
  · intro h
    cases column with
    | parameter | field =>
      rw [RowContent.add, map_eq_ok] at h
      obtain ⟨n, hn, rfl⟩ := h
      obtain ⟨rfl, hidentifier⟩ := nameCell_eq_ok.mp hn
      exact .name rfl hidentifier
    | type =>
      rw [RowContent.add, map_eq_ok] at h
      obtain ⟨t, ht, rfl⟩ := h
      exact .type ht
    | required =>
      rw [RowContent.add, map_eq_ok] at h
      obtain ⟨b, hb, rfl⟩ := h
      exact .required (requiredCell_eq_ok_iff.mp hb)
    | description =>
      cases h
      exact .description
  · intro h
    cases h with
    | name hname h =>
      have hcell : nameCell cell = .ok (trimmed cell.textContent) := nameCell_eq_ok.mpr ⟨rfl, h⟩
      cases column with
      | parameter | field => rw [RowContent.add, hcell, Except.map]
      | type | required | description => cases hname
    | type h => rw [RowContent.add, h, Except.map]
    | required h => rw [RowContent.add, requiredCell_eq_ok_iff.mpr h, Except.map]
    | description => rw [RowContent.add]

theorem add_eq_error_iff {r : RowContent} {column : Column} {cell : Node} {e : PageError} :
    r.add column cell = .error e ↔ CellFault cell column e := by
  constructor
  · intro h
    cases column with
    | parameter | field =>
      rw [RowContent.add, map_eq_error] at h
      obtain ⟨hidentifier, rfl⟩ := nameCell_eq_error_iff.mp h
      exact .identifier rfl hidentifier
    | type =>
      rw [RowContent.add, map_eq_error] at h
      rcases cellType_eq_error h with ⟨s, rfl⟩ | ⟨s, rfl⟩
      · exact .type h
      · exact .scalar h
    | required =>
      rw [RowContent.add, map_eq_error] at h
      obtain ⟨hyes, hoptional, rfl⟩ := requiredCell_eq_error_iff.mp h
      exact .required hyes hoptional
    | description => cases h
  · intro h
    cases h with
    | identifier hname h =>
      have hcell := nameCell_eq_error_iff.mpr ⟨h, rfl⟩
      cases column with
      | parameter | field => rw [RowContent.add, map_eq_error, hcell]
      | type | required | description => cases hname
    | type h => rw [RowContent.add, map_eq_error, h]
    | scalar h => rw [RowContent.add, map_eq_error, h]
    | required hyes hoptional =>
      rw [RowContent.add, map_eq_error, requiredCell_eq_error_iff]
      exact ⟨hyes, hoptional, rfl⟩

theorem validCell_of_add {r next : RowContent} {column : Column} {cell : Node}
    (h : r.add column cell = .ok next) : ValidCell column cell := by
  cases add_eq_ok_iff.mp h with
  | name hname hidentifier =>
    cases column with
    | parameter | field => exact hidentifier
    | type | required | description => cases hname
  | type ht => exact ⟨_, (cellType_eq_ok_iff cell _).mp ht⟩
  | @required b htext =>
    cases b
    · exact Or.inr htext
    · exact Or.inl htext
  | description => trivial

theorem exists_add_eq_ok {column : Column} {cell : Node} (h : ValidCell column cell)
    (r : RowContent) : ∃ next, r.add column cell = .ok next := by
  simp only [add_eq_ok_iff]
  cases column with
  | parameter | field => exact ⟨_, .name rfl h⟩
  | type =>
    obtain ⟨t, ht⟩ := h
    exact ⟨_, .type ((cellType_eq_ok_iff cell t).mpr ht)⟩
  | required =>
    rcases h with hyes | hoptional
    · exact ⟨_, .required (b := true) hyes⟩
    · exact ⟨_, .required (b := false) hoptional⟩
  | description => exact ⟨_, .description⟩

/-! ### Rows -/

/-- The last cell in a column of a kind. -/
def lastCell? (kind : Column → Bool) (cells : List (Column × Node)) : Option Node :=
  (cells.reverse.find? fun c => kind c.1).map Prod.snd

theorem lastCell?_concat (kind : Column → Bool) (cells : List (Column × Node)) (column : Column)
    (cell : Node) : lastCell? kind (cells ++ [(column, cell)]) =
      if kind column then some cell else lastCell? kind cells := by
  rw [lastCell?, List.reverse_concat, List.find?_cons]
  cases hkind : kind column <;> simp [lastCell?]

/-- What cells have said: of the cells of a kind, the last one counts. -/
structure HasRead (cells : List (Column × Node)) (r : RowContent) : Prop where
  name : r.name = (lastCell? Column.isName cells).map fun cell => trimmed cell.textContent
  type : r.type = (lastCell? (· == .type) cells).bind fun cell => (cellType cell).toOption
  required : r.required =
    (lastCell? (· == .required) cells).map fun cell => trimmed cell.textContent != "Optional"
  description : r.description = (lastCell? (· == .description) cells).map commentOf

theorem hasRead_nil : HasRead [] {} := ⟨rfl, rfl, rfl, rfl⟩

/-- The next cell replaces what an earlier one of its kind has said. -/
theorem HasRead.add {cells : List (Column × Node)} {r next : RowContent} (hr : HasRead cells r)
    {column : Column} {cell : Node} (h : r.add column cell = .ok next) :
    HasRead (cells ++ [(column, cell)]) next := by
  obtain ⟨hname, htype, hrequired, hdescription⟩ := hr
  cases add_eq_ok_iff.mp h with
  | name hcolumn =>
    cases column with
    | parameter | field =>
      constructor <;> rw [lastCell?_concat]
      exacts [rfl, htype, hrequired, hdescription]
    | type | required | description => cases hcolumn
  | type ht =>
    constructor <;> rw [lastCell?_concat]
    exacts [hname, by simp [ht, Except.toOption], hrequired, hdescription]
  | @required b htext =>
    have hsaid : (trimmed cell.textContent != "Optional") = b := by
      rw [htext]
      cases b <;> rfl
    constructor <;> rw [lastCell?_concat]
    exacts [hname, htype, congrArg some hsaid.symm, hdescription]
  | description =>
    constructor <;> rw [lastCell?_concat]
    exacts [hname, htype, hrequired, rfl]

theorem HasRead.readCells {before cells : List (Column × Node)} {r next : RowContent}
    (hr : HasRead before r) (h : readCells r cells = .ok next) :
    HasRead (before ++ cells) next := by
  induction cells generalizing before r with
  | nil =>
    cases h
    rwa [List.append_nil]
  | cons c cells ih =>
    obtain ⟨r', hadd, hrest⟩ := bind_eq_ok.mp h
    rw [List.append_cons]
    exact ih (hr.add hadd) hrest

theorem exists_readCells_eq_ok {cells : List (Column × Node)}
    (h : ∀ c ∈ cells, ValidCell c.1 c.2) (r : RowContent) :
    ∃ next, readCells r cells = .ok next := by
  induction cells generalizing r with
  | nil => exact ⟨r, rfl⟩
  | cons c cells ih =>
    obtain ⟨hc, hcells⟩ := List.forall_mem_cons.mp h
    obtain ⟨r', hadd⟩ := exists_add_eq_ok hc r
    obtain ⟨next, hnext⟩ := ih hcells r'
    exact ⟨next, bind_eq_ok.mpr ⟨r', hadd, hnext⟩⟩

theorem validCell_of_readCells {cells : List (Column × Node)} {r next : RowContent}
    (h : readCells r cells = .ok next) : ∀ c ∈ cells, ValidCell c.1 c.2 := by
  induction cells generalizing r with
  | nil => simp
  | cons c cells ih =>
    obtain ⟨r', hadd, hrest⟩ := bind_eq_ok.mp h
    exact List.forall_mem_cons.mpr ⟨validCell_of_add hadd, ih hrest⟩

theorem readCells_append {before after : List (Column × Node)} {r : RowContent} :
    readCells r (before ++ after) = readCells r before >>= (readCells · after) := by
  induction before generalizing r with
  | nil => rfl
  | cons c before ih =>
    rw [List.cons_append, readCells, readCells, bind_assoc]
    exact congrArg _ (funext fun r' => ih)

/-- The error of cells is that of the first one that is not valid. -/
theorem readCells_eq_error_iff {cells : List (Column × Node)} {r : RowContent} {e : PageError} :
    readCells r cells = .error e ↔ ∃ before column cell after,
      cells = before ++ (column, cell) :: after ∧ (∀ c ∈ before, ValidCell c.1 c.2) ∧
        CellFault cell column e := by
  constructor
  · intro h
    -- Whether a cell is valid does not depend on what has been read of the row before it.
    induction cells generalizing r with
    | nil => cases h
    | cons c cells ih =>
      rcases bind_eq_error.mp h with hadd | ⟨r', hadd, hrest⟩
      · exact ⟨[], c.1, c.2, cells, rfl, by simp, add_eq_error_iff.mp hadd⟩
      · obtain ⟨before, column, cell, after, rfl, hbefore, hfault⟩ := ih hrest
        exact ⟨c :: before, column, cell, after, rfl,
          List.forall_mem_cons.mpr ⟨validCell_of_add hadd, hbefore⟩, hfault⟩
  · rintro ⟨before, column, cell, after, rfl, hbefore, hfault⟩
    obtain ⟨r', hread⟩ := exists_readCells_eq_ok hbefore r
    rw [readCells_append, bind_eq_error]
    exact Or.inr ⟨r', hread, bind_eq_error.mpr (Or.inl (add_eq_error_iff.mpr hfault))⟩

/-- A row with enough cells, each of which is valid in its column. Further cells do not count. -/
structure ValidRow (columns : List Column) (cells : List Node) : Prop where
  enough : columns.length ≤ cells.length
  cells : ∀ c ∈ columns.zip cells, ValidCell c.1 c.2

/-- What is wrong with a row: the number of cells, or else the first cell that is not valid. -/
inductive RowFault (columns : List Column) (cells : List Node) : PageError → Prop
  | short (h : cells.length < columns.length) :
    RowFault columns cells (.malformedRow columns.length cells.length)
  | cell {before after : List (Column × Node)} {column : Column} {cell : Node} {e : PageError}
    (henough : columns.length ≤ cells.length)
    (hsplit : columns.zip cells = before ++ (column, cell) :: after)
    (hbefore : ∀ c ∈ before, ValidCell c.1 c.2) (h : CellFault cell column e) :
    RowFault columns cells e

/-- Whether a row makes its property optional, in a cell for just that or else with the first word
of its description. -/
def saysOptional (cells : List (Column × Node)) : Bool :=
  match lastCell? (· == .required) cells with
  | some cell => trimmed cell.textContent == "Optional"
  | none => ((lastCell? (· == .description) cells).map commentOf).any fun d =>
    "Optional.".toList.isPrefixOf (trimStart d.text.toList)

/-- The property of a row. Of several cells of a kind, the last one counts. -/
structure IsPropertyOf (columns : List Column) (cells : List Node) (p : Property) : Prop where
  name : ∃ cell, lastCell? Column.isName (columns.zip cells) = some cell ∧
    p.name = trimmed cell.textContent
  type : ∃ cell, lastCell? (· == .type) (columns.zip cells) = some cell ∧
    ∃ ss, signs? cell.children = some ss ∧ WritesType p.type ss
  description : p.description =
    (lastCell? (· == .description) (columns.zip cells)).map commentOf
  optional : p.optional = saysOptional (columns.zip cells)

theorem mem_of_lastCell? {kind : Column → Bool} {cells : List (Column × Node)} {cell : Node}
    (h : lastCell? kind cells = some cell) : ∃ c ∈ cells, kind c.1 = true ∧ c.2 = cell := by
  obtain ⟨c, hfind, hcell⟩ := Option.map_eq_some_iff.mp h
  have hkind := @List.find?_some _ (fun c : Column × Node => kind c.1) _ _ hfind
  exact ⟨c, List.mem_reverse.mp (List.mem_of_find?_eq_some hfind), hkind, hcell⟩

/-- A row with enough cells has a cell in every column. -/
theorem exists_lastCell? {kind : Column → Bool} {columns : List Column} {cells : List Node}
    (h : ∃ column ∈ columns, kind column = true) (henough : columns.length ≤ cells.length) :
    ∃ cell, lastCell? kind (columns.zip cells) = some cell := by
  obtain ⟨column, hcolumn, hkind⟩ := h
  rw [← List.map_fst_zip henough] at hcolumn
  obtain ⟨c, hc, rfl⟩ := List.mem_map.mp hcolumn
  cases hfind : (columns.zip cells).reverse.find? fun c => kind c.1 with
  | none => exact absurd hkind (List.find?_eq_none.mp hfind c (List.mem_reverse.mpr hc))
  | some d => exact ⟨d.2, congrArg (Option.map Prod.snd) hfind⟩

theorem property_eq_ok_iff {r : RowContent} {p : Property} : r.property = .ok p ↔
    r.name = some p.name ∧ r.type = some p.type ∧ r.optional = p.optional ∧
      r.description = p.description := by
  obtain ⟨name, type, required, description⟩ := r
  obtain ⟨pname, ptype, poptional, pdescription⟩ := p
  cases name <;> cases type <;> simp [RowContent.property]

section Row

variable {columns : List Column} {cells : List Node}

theorem HasRead.property_eq_ok_iff {r : RowContent} {p : Property}
    (h : HasRead (columns.zip cells) r) : r.property = .ok p ↔ IsPropertyOf columns cells p := by
  have hoptional : r.optional = saysOptional (columns.zip cells) := by
    rw [RowContent.optional, saysOptional, h.required, h.description]
    cases lastCell? (· == .required) (columns.zip cells) with
    | some cell => exact Bool.not_not _
    | none => cases lastCell? (· == .description) (columns.zip cells) <;> rfl
  rw [Page.property_eq_ok_iff, h.name, h.type, h.description, hoptional, Option.map_eq_some_iff,
    Option.bind_eq_some_iff]
  simp only [toOption_eq_some_iff, cellType_eq_ok_iff]
  constructor
  · rintro ⟨⟨name, hname, hnameText⟩, htype, hoptional, hdescription⟩
    exact ⟨⟨name, hname, hnameText.symm⟩, htype, hdescription.symm, hoptional.symm⟩
  · rintro ⟨⟨name, hname, hnameText⟩, htype, hdescription, hoptional⟩
    exact ⟨⟨name, hname, hnameText.symm⟩, htype, hoptional.symm, hdescription.symm⟩

theorem readRow_eq_ok_iff {p : Property} : readRow columns cells = .ok p ↔
    ValidRow columns cells ∧ IsPropertyOf columns cells p := by
  constructor
  · intro h
    rw [readRow] at h
    split at h
    next => cases h
    next hlength =>
      obtain ⟨r, hread, hp⟩ := bind_eq_ok.mp h
      exact ⟨⟨Nat.le_of_not_lt hlength, validCell_of_readCells hread⟩,
        (hasRead_nil.readCells hread).property_eq_ok_iff.mp hp⟩
  · rintro ⟨hrow, hp⟩
    obtain ⟨r, hread⟩ := exists_readCells_eq_ok hrow.cells {}
    rw [readRow, if_neg (Nat.not_lt.mpr hrow.enough)]
    exact bind_eq_ok.mpr ⟨r, hread, (hasRead_nil.readCells hread).property_eq_ok_iff.mpr hp⟩

variable (hname : ∃ column ∈ columns, column.isName = true) (htype : .type ∈ columns)

include hname htype in
theorem exists_isPropertyOf (h : ValidRow columns cells) : ∃ p, IsPropertyOf columns cells p := by
  obtain ⟨nameCell, hnameCell⟩ := exists_lastCell? hname h.enough
  obtain ⟨typeCell, htypeCell⟩ := @exists_lastCell? (· == .type) columns cells
    ⟨.type, htype, rfl⟩ h.enough
  obtain ⟨⟨column, cell⟩, hmem, hcolumn, rfl⟩ := mem_of_lastCell? htypeCell
  obtain rfl : column = .type := eq_of_beq hcolumn
  obtain ⟨t, ht⟩ := h.cells _ hmem
  exact ⟨⟨trimmed nameCell.textContent, t, _, _⟩, ⟨nameCell, hnameCell, rfl⟩,
    ⟨cell, htypeCell, ht⟩, rfl, rfl⟩

include hname htype in
theorem readRow_eq_error_iff {e : PageError} :
    readRow columns cells = .error e ↔ RowFault columns cells e := by
  constructor
  · intro h
    rw [readRow] at h
    split at h
    next hlength =>
      cases h
      exact .short hlength
    next hlength =>
      have henough := Nat.le_of_not_lt hlength
      rcases bind_eq_error.mp h with hread | ⟨r, hread, hproperty⟩
      · obtain ⟨before, column, cell, after, hsplit, hbefore, hfault⟩ :=
          readCells_eq_error_iff.mp hread
        exact .cell henough hsplit hbefore hfault
      · obtain ⟨p, hp⟩ := exists_isPropertyOf hname htype
          ⟨henough, validCell_of_readCells hread⟩
        cases hproperty.symm.trans ((hasRead_nil.readCells hread).property_eq_ok_iff.mpr hp)
  · intro h
    cases h with
    | short h => rw [readRow, if_pos h]
    | cell henough hsplit hbefore h =>
      rw [readRow, if_neg (Nat.not_lt.mpr henough)]
      exact bind_eq_error.mpr
        (Or.inl (readCells_eq_error_iff.mpr ⟨_, _, _, _, hsplit, hbefore, h⟩))

end Row

/-! ### Tables -/

/-- What is wrong with a table: its first title that is none of a column, or else the column that
it lacks, or else its first row that is not valid. -/
inductive TableFault (table : Spot) : PageError → Prop
  | title {title : String} (h : UnknownTitle (headerTitles table) title) :
    TableFault table (.unrecognizedColumn title)
  | column {columns : List Column} {name : String}
    (htitles : headerTitles table = columns.map Column.title) (h : LacksColumn columns name) :
    TableFault table (.missingColumn name)
  | row {columns : List Column} {before after : List (List Node)} {cells : List Node}
    {e : PageError} (hcolumns : HasColumns table columns)
    (hsplit : bodyCells table = before ++ cells :: after)
    (hbefore : ∀ row ∈ before, ValidRow columns row) (h : RowFault columns cells e) :
    TableFault table e

section Table

variable {table : Spot}

theorem readTable_eq_bind : readTable table =
    tableColumns table >>= fun columns => (bodyCells table).mapM (readRow columns) := by
  simp only [readTable, bodyCells, List.mapM_map]
  rfl

theorem readTable_eq_ok_iff {ps : List Property} : readTable table = .ok ps ↔
    ∃ columns, HasColumns table columns ∧
      List.Forall₂ (fun row p => ValidRow columns row ∧ IsPropertyOf columns row p)
        (bodyCells table) ps := by
  rw [readTable_eq_bind, bind_eq_ok]
  simp only [tableColumns_eq_ok_iff, mapM_eq_ok, readRow_eq_ok_iff]

theorem exists_readRow_eq_ok_iff {columns : List Column} (h : HasColumns table columns)
    {cells : List Node} : (∃ p, readRow columns cells = .ok p) ↔ ValidRow columns cells := by
  simp only [readRow_eq_ok_iff, exists_and_left]
  exact ⟨And.left, fun hrow => ⟨hrow, exists_isPropertyOf h.name h.type hrow⟩⟩

theorem exists_readTable_eq_ok_iff : (∃ ps, readTable table = .ok ps) ↔
    ∃ columns, HasColumns table columns ∧ ∀ row ∈ bodyCells table, ValidRow columns row := by
  constructor
  · rintro ⟨ps, h⟩
    obtain ⟨columns, hcolumns, hrows⟩ := readTable_eq_ok_iff.mp h
    exact ⟨columns, hcolumns, ((List.forall₂_and_left _ _).mp hrows).1⟩
  · rintro ⟨columns, hcolumns, hrows⟩
    obtain ⟨ps, hps⟩ := exists_mapM_eq_ok fun row hrow =>
      (exists_readRow_eq_ok_iff hcolumns).mpr (hrows row hrow)
    exact ⟨ps, readTable_eq_bind.trans (bind_eq_ok.mpr
      ⟨columns, tableColumns_eq_ok_iff.mpr hcolumns, hps⟩)⟩

theorem readTable_eq_error_iff {e : PageError} :
    readTable table = .error e ↔ TableFault table e := by
  rw [readTable_eq_bind, bind_eq_error, tableColumns_eq_error_iff]
  constructor
  · rintro ((⟨title, h, rfl⟩ | ⟨columns, name, htitles, h, rfl⟩) | ⟨columns, hcolumns, hrows⟩)
    · exact .title h
    · exact .column htitles h
    · have hcolumns := tableColumns_eq_ok_iff.mp hcolumns
      obtain ⟨before, row, after, hsplit, hbefore, hrow⟩ := mapM_eq_error_iff.mp hrows
      exact .row hcolumns hsplit
        (fun r hr => (exists_readRow_eq_ok_iff hcolumns).mp (hbefore r hr))
        ((readRow_eq_error_iff hcolumns.name hcolumns.type).mp hrow)
  · intro h
    cases h with
    | title h => exact Or.inl (Or.inl ⟨_, h, rfl⟩)
    | column htitles h => exact Or.inl (Or.inr ⟨_, _, htitles, h, rfl⟩)
    | row hcolumns hsplit hbefore h =>
      have hrow := (readRow_eq_error_iff hcolumns.name hcolumns.type).mpr h
      refine Or.inr ⟨_, tableColumns_eq_ok_iff.mpr hcolumns, mapM_eq_error_iff.mpr
        ⟨_, _, _, hsplit, fun r hr => ?_, hrow⟩⟩
      exact (exists_readRow_eq_ok_iff hcolumns).mpr (hbefore r hr)

/-- No row lacks a column. -/
theorem RowFault.ne_missingColumn {columns : List Column} {cells : List Node} {e : PageError}
    (h : RowFault columns cells e) (name : String) : e ≠ .missingColumn name := by
  cases h with
  | short => simp
  | cell _ _ _ h => cases h <;> simp

/-- A table is read exactly if it has columns for names and types and all its rows are valid, and
then as one property for each row, in order, made of that row alone. Any other table fails with its
first fault, and only the header of a table can lack a column. -/
theorem readTable_first_fault (table : Spot) :
    ((∃ ps, readTable table = .ok ps) ↔ ∃ columns, HasColumns table columns ∧
      ∀ row ∈ bodyCells table, ValidRow columns row) ∧
    (∀ ps, readTable table = .ok ps ↔ ∃ columns, HasColumns table columns ∧
      List.Forall₂ (fun row p => ValidRow columns row ∧ IsPropertyOf columns row p)
        (bodyCells table) ps) ∧
    (∀ e, readTable table = .error e ↔ TableFault table e) ∧
    ∀ name, readTable table = .error (.missingColumn name) ↔
      ∃ columns, headerTitles table = columns.map Column.title ∧ LacksColumn columns name := by
  refine ⟨exists_readTable_eq_ok_iff, fun ps => readTable_eq_ok_iff,
    fun e => readTable_eq_error_iff, fun name => ?_⟩
  rw [readTable_eq_error_iff]
  constructor
  · intro h
    cases h with
    | column htitles h => exact ⟨_, htitles, h⟩
    | row _ _ _ h => exact absurd rfl (h.ne_missingColumn name)
  · rintro ⟨columns, htitles, h⟩
    exact .column htitles h

end Table

end ApiTypings.Page
