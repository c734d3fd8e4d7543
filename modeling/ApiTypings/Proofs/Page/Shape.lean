import ApiTypings.Page.Reading
import ApiTypings.Proofs.Page.Traversal
import ApiTypings.Proofs.Schema.Closed
import ApiTypings.Proofs.Schema.Insertion

/-!
# What an accepted page can say

Whatever the page, a schema that is read from it has few kinds of types: an entry is a record,
a union of names or unknown, and a property has a type that one cell can spell. Every name in
it is the name of an entry.
-/
namespace ApiTypings.Page

open Markup Text

/-- What one item of a type cell stands for: a scalar, or a name out of `known`. -/
inductive IsItem (known : String → Prop) : ApiType → Prop
  | scalar (s : Scalar) : IsItem known (.scalar s)
  | named {n : String} (h : known n) : IsItem known (.named n [])

/-- What a type cell stands for: arrays around one item or around the union of several. -/
inductive IsCellType (known : String → Prop) : ApiType → Prop
  | item {t : ApiType} (h : IsItem known t) : IsCellType known t
  | union {ts : List ApiType} (hlen : 2 ≤ ts.length) (h : ∀ t ∈ ts, IsItem known t) :
    IsCellType known (.union ts [])
  | array {t : ApiType} (h : IsCellType known t) : IsCellType known (.array t [])

/-- What a section stands for. -/
inductive IsEntryType (known : String → Prop) : ApiType → Prop
  | any (cs : List DocComment) : IsEntryType known (.any cs)
  | union {ts : List ApiType} (h : ∀ t ∈ ts, ∃ n, known n ∧ t = .named n [])
    (cs : List DocComment) : IsEntryType known (.union ts cs)
  | record {ps : List Property}
    (h : ∀ p ∈ ps, isIdentifier p.name.toList = true ∧ IsCellType known p.type)
    (cs : List DocComment) : IsEntryType known (.record ps cs)

section Known

variable {known listed : String → Prop}

theorem forall_isItem_of_names {ts : List ApiType}
    (h : ∀ t ∈ ts, ∃ n, known n ∧ t = .named n []) : ∀ t ∈ ts, IsItem known t := by
  intro t ht
  obtain ⟨n, hn, rfl⟩ := h t ht
  exact .named hn

theorem IsItem.imp {t : ApiType} (h : IsItem known t)
    (hr : ∀ r ∈ t.references, known r → listed r) : IsItem listed t := by
  cases h with
  | scalar s => exact .scalar s
  | named h => exact .named (hr _ List.mem_cons_self h)

theorem IsCellType.imp {t : ApiType} (h : IsCellType known t)
    (hr : ∀ r ∈ t.references, known r → listed r) : IsCellType listed t := by
  induction h with
  | item h => exact .item (h.imp hr)
  | @union ts hlen h =>
    rw [ApiType.references, memberReferences_eq_flatMap] at hr
    refine .union hlen fun t ht => (h t ht).imp fun r hmem => ?_
    exact hr r (List.mem_flatMap.mpr ⟨t, ht, hmem⟩)
  | array h ih => exact .array (ih hr)

/-- Whatever else is known of the names that an entry refers to can be added. -/
theorem IsEntryType.imp {t : ApiType} (h : IsEntryType known t)
    (hr : ∀ r ∈ t.references, known r → listed r) : IsEntryType listed t := by
  cases h with
  | any cs => exact .any cs
  | union h cs =>
    rw [ApiType.references, memberReferences_eq_flatMap] at hr
    refine .union (fun t ht => ?_) cs
    obtain ⟨n, hn, rfl⟩ := h t ht
    exact ⟨n, hr n (List.mem_flatMap.mpr ⟨_, ht, List.mem_cons_self⟩) hn, rfl⟩
  | record h cs =>
    rw [ApiType.references, propertyReferences_eq_flatMap] at hr
    refine .record (fun p hp => ⟨(h p hp).1, (h p hp).2.imp fun r hmem => ?_⟩) cs
    exact hr r (List.mem_flatMap.mpr ⟨p, hp, hmem⟩)

theorem isCellType_oneOf {ts : List ApiType} (hne : ts ≠ []) (h : ∀ t ∈ ts, IsItem known t) :
    IsCellType known (oneOf ts) := by
  cases ts with
  | nil => exact absurd rfl hne
  | cons t ts =>
    cases ts with
    | nil => exact .item (h t List.mem_cons_self)
    | cons u ts => exact .union (by simp) h

theorem isCellType_arraysOf {t : ApiType} (h : IsCellType known t) (n : Nat) :
    IsCellType known (arraysOf n t) := by
  induction n with
  | zero => exact h
  | succ n ih => exact .array ih

/-- A type in a cell is spelled as arrays around a list of items. -/
theorem IsCellType.exists_arraysOf {t : ApiType} (h : IsCellType known t) :
    ∃ n ts, ts ≠ [] ∧ (∀ u ∈ ts, IsItem known u) ∧ t = arraysOf n (oneOf ts) := by
  induction h with
  | @item t h => exact ⟨0, [t], by simp, by simpa using h, rfl⟩
  | @union ts hlen h =>
    match ts, hlen with
    | t :: u :: ts, _ => exact ⟨0, t :: u :: ts, by simp, h, rfl⟩
  | array h ih =>
    obtain ⟨n, ts, hne, hts, rfl⟩ := ih
    exact ⟨n + 1, ts, hne, hts, rfl⟩

end Known

/-- Before references are checked, a name in a cell is at least an identifier. -/
def IsWord (n : String) : Prop := isIdentifier n.toList = true

theorem isItem_of_itemType {source : String} {item : List Segment} {t : ApiType}
    (h : itemType source item = .ok t) : IsItem IsWord t := by
  unfold itemType at h
  split at h
  · split at h
    · split at h
      · cases h
        exact .scalar _
      · cases h
    · cases h
  · split at h
    · next target text hlink =>
      cases h
      simp only [Bool.and_eq_true] at hlink
      exact .named hlink.2
    · cases h
  · cases h

theorem addPieces_ne_nil {ps : List (List Char)} {is : List (List Segment)} (h : is ≠ []) :
    addPieces ps is ≠ [] := by
  have hfirst : ∀ (q : List Char) (js : List (List Segment)), js ≠ [] →
      addTextToFirst q js ≠ [] := by
    intro q js hjs
    unfold addTextToFirst
    split
    · exact hjs
    · cases js <;> simp [addToFirst]
  fun_cases addPieces ps is with
  | case1 => exact h
  | case2 q => exact hfirst q is h
  | case3 q r qs => exact hfirst q _ (by simp)

theorem items_ne_nil (segments : List Segment) : items segments ≠ [] := by
  fun_induction items segments with
  | case1 => simp
  | case2 s rest ih => exact addPieces_ne_nil ih
  | case3 target text rest ih =>
    cases h : items rest <;> simp [addToFirst]

theorem isCellType_of_cellType {cell : Node} {t : ApiType} (h : cellType cell = .ok t) :
    IsCellType IsWord t := by
  unfold cellType at h
  split at h
  · cases h
  · next segments _ =>
    obtain ⟨ts, hts, ht⟩ := bind_eq_ok.mp h
    cases ht
    have hlen := (mapM_eq_ok.mp hts).length_eq
    have hitems := items_ne_nil (withoutArrays segments).2
    refine isCellType_arraysOf (isCellType_oneOf ?_ fun t ht => ?_) _
    · rintro rfl
      exact hitems (List.length_eq_zero_iff.mp hlen)
    · obtain ⟨item, -, hitem⟩ := exists_of_mem_mapM hts ht
      exact isItem_of_itemType hitem

theorem nameCell_eq_ok {cell : Node} {n : String} :
    nameCell cell = .ok n ↔ trimmed cell.textContent = n ∧ isIdentifier n.toList = true := by
  rw [nameCell]
  split
  · next h =>
    constructor
    · rintro ⟨⟩
      exact ⟨rfl, h⟩
    · rintro ⟨rfl, -⟩
      rfl
  · next h =>
    constructor
    · simp
    · rintro ⟨rfl, hid⟩
      exact absurd hid h

theorem itemName_eq_ok {text : String} {t : ApiType} :
    itemName text = .ok t ↔
      isTypeName (trimmed text).toList = true ∧ t = .named (trimmed text) [] := by
  rw [itemName]
  split
  · next h => simp [h, eq_comm]
  · next h => simp [h]

/-- What has been read of a row so far. -/
structure IsRowContent (r : RowContent) : Prop where
  name : ∀ n ∈ r.name, isIdentifier n.toList = true
  type : ∀ t ∈ r.type, IsCellType IsWord t

theorem IsRowContent.add {r next : RowContent} (hr : IsRowContent r) {column : Column}
    {cell : Node} (h : r.add column cell = .ok next) : IsRowContent next := by
  cases column with
  | parameter | field =>
    rw [RowContent.add, map_eq_ok] at h
    obtain ⟨n, hn, rfl⟩ := h
    refine ⟨fun m hm => ?_, hr.type⟩
    obtain rfl := Option.some.inj hm
    exact (nameCell_eq_ok.mp hn).2
  | type =>
    rw [RowContent.add, map_eq_ok] at h
    obtain ⟨t, ht, rfl⟩ := h
    refine ⟨hr.name, fun u hu => ?_⟩
    obtain rfl := Option.some.inj hu
    exact isCellType_of_cellType ht
  | required =>
    rw [RowContent.add, map_eq_ok] at h
    obtain ⟨b, -, rfl⟩ := h
    exact ⟨hr.name, hr.type⟩
  | description =>
    cases h
    exact ⟨hr.name, hr.type⟩

theorem IsRowContent.readCells {r next : RowContent} (hr : IsRowContent r)
    {cells : List (Column × Node)} (h : readCells r cells = .ok next) : IsRowContent next := by
  induction cells generalizing r with
  | nil =>
    cases h
    exact hr
  | cons c cells ih =>
    obtain ⟨r', hadd, hrest⟩ := bind_eq_ok.mp h
    exact ih (hr.add hadd) hrest

theorem isProperty_of_readRow {columns : List Column} {cells : List Node} {p : Property}
    (h : readRow columns cells = .ok p) :
    isIdentifier p.name.toList = true ∧ IsCellType IsWord p.type := by
  unfold readRow at h
  split at h
  · cases h
  · obtain ⟨r, hcells, hp⟩ := bind_eq_ok.mp h
    have hr : IsRowContent r := IsRowContent.readCells ⟨by simp, by simp⟩ hcells
    unfold RowContent.property at hp
    split at hp
    · cases hp
    · cases hp
    · next name type hname htype =>
      cases hp
      exact ⟨hr.name name hname, hr.type type htype⟩

theorem isProperty_of_readTable {table : Spot} {ps : List Property}
    (h : readTable table = .ok ps) :
    ∀ p ∈ ps, isIdentifier p.name.toList = true ∧ IsCellType IsWord p.type := by
  intro p hp
  obtain ⟨columns, -, hrows⟩ := bind_eq_ok.mp h
  obtain ⟨row, -, hrow⟩ := exists_of_mem_mapM hrows hp
  exact isProperty_of_readRow hrow

theorem isName_of_readListing {listing : Spot} {ts : List ApiType}
    (h : readListing listing = .ok ts) : ∀ t ∈ ts, ∃ n, IsWord n ∧ t = .named n [] := by
  intro t ht
  obtain ⟨item, -, hitem⟩ := exists_of_mem_mapM h ht
  obtain ⟨hname, rfl⟩ := itemName_eq_ok.mp hitem
  exact ⟨_, isIdentifier_of_isTypeName hname, rfl⟩

theorem isEntryType_of_readSection {heading : Spot} {t : ApiType}
    (h : readSection heading = .ok t) : IsEntryType IsWord t := by
  unfold readSection at h
  dsimp only at h
  split at h
  · obtain ⟨ps, hps, rfl⟩ := map_eq_ok.mp h
    exact .record (isProperty_of_readTable hps) _
  · split at h
    · obtain ⟨ts, hts, rfl⟩ := map_eq_ok.mp h
      exact .union (isName_of_readListing hts) _
    · cases h
      exact .any _

theorem isEntryType_of_readEntry {heading : Spot} {e : String × ApiType}
    (h : readEntry heading = .ok e) :
    e.1 = sectionName heading ∧ IsEntryType IsWord e.2 := by
  unfold readEntry at h
  split at h
  · next t ht =>
    cases h
    exact ⟨rfl, isEntryType_of_readSection ht⟩
  · cases h

/-- An accepted page has the schema of its headings, in which every reference leads to an entry. -/
theorem exists_entries_of_readSchema {document : List Node} {s : Schema}
    (h : readSchema document = .ok s) :
    ∃ es, (typeHeadings document).mapM readEntry = .ok es ∧ s = Schema.ofList es ∧
      ∀ e ∈ s.entries, ∀ r ∈ e.2.references, r ∈ s.names := by
  obtain ⟨es, hes, hclosed⟩ := bind_eq_ok.mp h
  unfold checkClosed at hclosed
  split at hclosed
  · next hnone =>
    cases hclosed
    exact ⟨es, hes, rfl, Schema.dangling?_eq_none.mp hnone⟩
  · cases hclosed

/-- Every entry of an accepted page has a type name and a type that a section can describe, in
which all names are names of entries. -/
theorem isEntryType_of_readSchema {document : List Node} {s : Schema}
    (h : readSchema document = .ok s) {e : String × ApiType} (he : e ∈ s.entries) :
    isTypeName e.1.toList = true ∧ IsEntryType (· ∈ s.names) e.2 := by
  obtain ⟨es, hes, rfl, hclosed⟩ := exists_entries_of_readSchema h
  obtain ⟨heading, hheading, hread⟩ := exists_of_mem_mapM hes (Schema.mem_of_mem_ofList he)
  obtain ⟨hname, htype⟩ := isEntryType_of_readEntry hread
  have htypeName := (List.mem_filter.mp hheading).2
  exact ⟨by rw [hname]; exact htypeName, htype.imp fun r hr _ => hclosed e he r hr⟩

theorem isTypeName_of_mem_names {document : List Node} {s : Schema}
    (h : readSchema document = .ok s) {n : String} (hn : n ∈ s.names) :
    isTypeName n.toList = true := by
  obtain ⟨e, he, rfl⟩ := List.mem_map.mp hn
  exact (isEntryType_of_readSchema h he).1

end ApiTypings.Page
