import ApiTypings.Proofs.Page.Recovery
import ApiTypings.Proofs.Schema.Insertion

/-!
# What the headings of a page define

Every heading of a type defines its name. The schema has the names in the order in which they
come first, each with the type of its last section, unless a section cannot be read. Nothing
outside the sections of types says anything.
-/
namespace ApiTypings.Page

open Markup

theorem readEntry_eq_ok {heading : Spot} {e : String × ApiType} :
    readEntry heading = .ok e ↔ sectionName heading = e.1 ∧ readSection heading = .ok e.2 := by
  obtain ⟨name, type⟩ := e
  rw [readEntry]
  cases readSection heading <;> simp

theorem readEntry_eq_error {heading : Spot} {e : PageError} :
    readEntry heading = .error e ↔
      ∃ cause, readSection heading = .error cause ∧ e = .inEntry (sectionName heading) cause := by
  rw [readEntry]
  cases readSection heading <;> simp [eq_comm]

/-! ### The schema of the headings -/

/-- A schema with the names of the headings in the order in which they come first, each with the
type of its last section. -/
structure Defines (hs : List Spot) (s : Schema) : Prop where
  names : s.names = (hs.map sectionName).eraseDups
  types : ∀ before heading after, hs = before ++ heading :: after →
    (∀ h ∈ after, sectionName h ≠ sectionName heading) →
    ∃ type, readSection heading = .ok type ∧ s.get? (sectionName heading) = some type

theorem map_fst_of_mapM_readEntry {hs : List Spot} {es : List (String × ApiType)}
    (h : hs.mapM readEntry = .ok es) : es.map Prod.fst = hs.map sectionName := by
  have hread := mapM_eq_ok.mp h
  clear h
  induction hread with
  | nil => rfl
  | cons he _ ih => rw [List.map_cons, List.map_cons, ih, (readEntry_eq_ok.mp he).1]

/-- Inserting the entries of headings one after the other yields the schema that they define. -/
theorem defines_ofList {hs : List Spot} {es : List (String × ApiType)}
    (h : hs.mapM readEntry = .ok es) : Defines hs (Schema.ofList es) where
  names := by rw [Schema.names_ofList, map_fst_of_mapM_readEntry h]
  types := by
    rintro before heading after rfl hlast
    obtain ⟨_, e, later, rfl, -, he, hlater⟩ := mapM_append_cons_eq_ok h
    obtain ⟨hname, htype⟩ := readEntry_eq_ok.mp he
    have hnone : later.reverse.lookup e.1 = none := by
      rw [List.lookup_eq_none_iff]
      intro f hf
      have hmem : f.1 ∈ after.map sectionName := by
        rw [← map_fst_of_mapM_readEntry hlater]
        exact List.mem_map_of_mem (List.mem_reverse.mp hf)
      obtain ⟨g, hg, hgf⟩ := List.mem_map.mp hmem
      simpa [hname, hgf] using (hlast g hg).symm
    refine ⟨e.2, htype, ?_⟩
    rw [hname, Schema.get?_ofList, List.reverse_append, List.reverse_cons, List.append_assoc,
      List.lookup_append, hnone, Option.none_or, List.singleton_append, List.lookup_cons_self]

/-- The schema of an accepted page is what its headings define. -/
theorem defines_of_readSchema {document : List Node} {s : Schema}
    (h : readSchema document = .ok s) : Defines (typeHeadings document) s := by
  obtain ⟨es, hes, rfl, -⟩ := exists_entries_of_readSchema h
  exact defines_ofList hes

theorem Defines.mem_names {hs : List Spot} {s : Schema} (h : Defines hs s) {n : String} :
    n ∈ s.names ↔ ∃ heading ∈ hs, sectionName heading = n := by
  rw [h.names, List.mem_eraseDups, List.mem_map]

/-- A name has a last heading. -/
theorem exists_last_heading {hs : List Spot} {n : String} (h : n ∈ hs.map sectionName) :
    ∃ before heading after, hs = before ++ heading :: after ∧ sectionName heading = n ∧
      ∀ g ∈ after, sectionName g ≠ n := by
  induction hs with
  | nil => simp at h
  | cons g hs ih =>
    by_cases hlater : n ∈ hs.map sectionName
    · obtain ⟨before, heading, after, rfl, hlast⟩ := ih hlater
      exact ⟨g :: before, heading, after, rfl, hlast⟩
    · have hname := (List.mem_cons.mp h).resolve_right hlater
      exact ⟨[], g, hs, rfl, hname.symm,
        fun f hf hfn => hlater (hfn ▸ List.mem_map_of_mem hf)⟩

/-- Whether a heading is the last one of its name. -/
def Settles (hs : List Spot) (heading : Spot) : Prop :=
  ∃ before after, hs = before ++ heading :: after ∧
    ∀ h ∈ after, sectionName h ≠ sectionName heading

/-- The entries are the sections of those headings that are the last ones of their names. -/
theorem Defines.mem_entries {hs : List Spot} {s : Schema} (h : Defines hs s) {n : String}
    {t : ApiType} : (n, t) ∈ s.entries ↔
      ∃ heading, Settles hs heading ∧ sectionName heading = n ∧ readSection heading = .ok t := by
  rw [Schema.mem_entries_iff]
  constructor
  · intro hget
    have hn : n ∈ s.names := List.mem_map_of_mem (Schema.mem_entries_iff.mpr hget)
    rw [h.names, List.mem_eraseDups] at hn
    obtain ⟨before, heading, after, hsplit, rfl, hlast⟩ := exists_last_heading hn
    obtain ⟨type, htype, hfound⟩ := h.types before heading after hsplit hlast
    obtain rfl := Option.some.inj (hget.symm.trans hfound)
    exact ⟨heading, ⟨before, after, hsplit, hlast⟩, rfl, htype⟩
  · rintro ⟨heading, ⟨before, after, hsplit, hlast⟩, rfl, hread⟩
    obtain ⟨type, htype, hfound⟩ := h.types before heading after hsplit hlast
    rw [hfound, Except.ok.inj (htype.symm.trans hread)]

/-- Headings define one schema at most. -/
theorem Defines.unique {hs : List Spot} {s t : Schema} (hsDefines : Defines hs s)
    (htDefines : Defines hs t) : s = t := by
  refine Schema.ext_get? (hsDefines.names.trans htDefines.names.symm) fun n hn => ?_
  rw [hsDefines.names, List.mem_eraseDups] at hn
  obtain ⟨before, heading, after, hsplit, rfl, hlast⟩ := exists_last_heading hn
  obtain ⟨type, htype, hget⟩ := hsDefines.types before heading after hsplit hlast
  obtain ⟨type', htype', hget'⟩ := htDefines.types before heading after hsplit hlast
  rw [hget, hget', Except.ok.inj (htype.symm.trans htype')]

/-! ### What stands outside the sections of types -/

/-- Whether the siblings after a node stand in the section of a type. -/
def inSectionAfter (n : Node) (inSection : Bool) : Bool :=
  if isSectionEnd n then isTypeHeading n else inSection

/-- Siblings that differ only in what stands outside the sections of types. The flag says
whether they stand in such a section, which is kept but for what is below elements that a
section is not read from. Outside, everything without the heading of a type can be exchanged. -/
inductive SameSections : Bool → List Node → List Node → Prop
  | nil {inSection : Bool} : SameSections inSection [] []
  | keep {inSection : Bool} {n : Node} {ns ns' : List Node}
    (h : SameSections (inSectionAfter n inSection) ns ns') :
    SameSections inSection (n :: ns) (n :: ns')
  | drop {n : Node} {ns ns' : List Node} (hn : Quiet [n]) (h : SameSections false ns ns') :
    SameSections false (n :: ns) ns'
  | add {n : Node} {ns ns' : List Node} (hn : Quiet [n]) (h : SameSections false ns ns') :
    SameSections false ns (n :: ns')
  | inside {inSection : Bool} {name : ElementName} {attributes : List Attribute}
    {children children' contents contents' ns ns' : List Node}
    (hchildren : SameSections false children children')
    (hn : isTypeHeading (.element name attributes children contents) = false)
    (hn' : isTypeHeading (.element name attributes children' contents') = false)
    (htag : inSection = true → name.tag ∉ contentTags)
    (h : SameSections
      (inSectionAfter (.element name attributes children contents) inSection) ns ns') :
    SameSections inSection (.element name attributes children contents :: ns)
      (.element name attributes children' contents' :: ns')

theorem isSectionEnd_of_isTypeHeading {n : Node} (h : isTypeHeading n = true) :
    isSectionEnd n = true := by
  rw [isSectionEnd, (Bool.and_eq_true_iff.mp h).1, Bool.true_or]

/-- In the section of a type, what the section says is the same. -/
theorem SameSections.parts {inSection : Bool} {ns ns' : List Node}
    (h : SameSections inSection ns ns') (hin : inSection = true) :
    (sectionNodes ns).map sectionPart = (sectionNodes ns').map sectionPart := by
  induction h with
  | nil => rfl
  | @keep inSection n ns ns' h ih =>
    rw [sectionNodes_cons, sectionNodes_cons]
    by_cases hend : isSectionEnd n = true
    · rw [if_pos hend, if_pos hend]
    · have hns := ih (by rw [inSectionAfter, if_neg hend, hin])
      rw [if_neg hend, if_neg hend]
      split
      · rw [List.map_cons, List.map_cons, hns]
      · exact hns
  | drop => cases hin
  | add => cases hin
  | @inside inSection name attributes children children' contents contents' ns ns' hchildren hn
      hn' htag h ihchildren ih =>
    rw [sectionNodes_cons, sectionNodes_cons]
    by_cases hend : isSectionEnd (.element name attributes children contents) = true
    · have hend' : isSectionEnd (.element name attributes children' contents') = true := hend
      rw [if_pos hend, if_pos hend']
    · have hns := ih (by rw [inSectionAfter, if_neg hend, hin])
      have hend' : ¬isSectionEnd (.element name attributes children' contents') = true := hend
      have hpart : ∀ cs ds, sectionPart (.element name attributes cs ds) = none := by
        intro cs ds
        refine if_neg fun hany => ?_
        obtain ⟨tag, hmem, hname⟩ := List.any_eq_true.mp hany
        exact htag hin (by rwa [beq_iff_eq.mp hname])
      have helement : ∀ cs ds, (Node.element name attributes cs ds).isElement = true :=
        fun _ _ => rfl
      rw [if_neg hend, if_neg hend', if_pos (helement _ _), if_pos (helement _ _), List.map_cons,
        List.map_cons, hns, hpart, hpart]

/-- Whether the headings of types at or below siblings are the same and their sections say the
same. -/
def SameDefinitions (enclosing : List ElementName) (ns ns' : List Node) : Prop :=
  List.Forall₂ (fun a b => a.node = b.node ∧ SameParts a b)
    ((spotsOfAll enclosing ns).filter fun s => isTypeHeading s.node)
    ((spotsOfAll enclosing ns').filter fun s => isTypeHeading s.node)

theorem sameDefinitions_refl (enclosing : List ElementName) (ns : List Node) :
    SameDefinitions enclosing ns ns :=
  List.forall₂_same.mpr fun _ _ => ⟨rfl, rfl, rfl⟩

theorem SameSections.sameDefinitions {inSection : Bool} {ns ns' : List Node}
    (h : SameSections inSection ns ns') (enclosing : List ElementName) :
    SameDefinitions enclosing ns ns' := by
  induction h generalizing enclosing with
  | nil => exact .nil
  | @keep inSection n ns ns' h ih =>
    have hbelow := List.rel_append (sameDefinitions_refl (n.around enclosing) n.children)
      (ih enclosing)
    rw [SameDefinitions, spotsOfAll_cons, spotsOfAll_cons, List.filter_cons, List.filter_cons,
      List.filter_append, List.filter_append]
    by_cases hn : isTypeHeading n = true
    · have hparts := h.parts (by rw [inSectionAfter, if_pos (isSectionEnd_of_isTypeHeading hn), hn])
      rw [if_pos hn, if_pos hn]
      exact .cons ⟨rfl, rfl, hparts⟩ hbelow
    · rw [if_neg hn, if_neg hn]
      exact hbelow
  | @drop n ns ns' hn h ih =>
    rw [SameDefinitions, ← List.singleton_append, filter_spots_append enclosing hn]
    exact ih enclosing
  | @add n ns ns' hn h ih =>
    rw [SameDefinitions, ← List.singleton_append, filter_spots_append enclosing hn]
    exact ih enclosing
  | inside hchildren hn hn' htag h ihchildren ih =>
    rw [SameDefinitions, spotsOfAll_cons, spotsOfAll_cons, List.filter_cons_of_neg (by simp [hn]),
      List.filter_cons_of_neg (by simp [hn']), List.filter_append, List.filter_append]
    exact List.rel_append (ihchildren _) (ih enclosing)

theorem SameSections.readSchema_eq {document document' : List Node}
    (h : SameSections false document document') : readSchema document' = readSchema document := by
  have hread : (typeHeadings document').mapM readEntry =
      (typeHeadings document).mapM readEntry := by
    rw [typeHeadings_eq, typeHeadings_eq]
    refine (mapM_congr_forall₂ ((h.sameDefinitions []).imp fun a b hab => ?_)).symm
    rw [readEntry, readEntry, sectionName, sectionName, Spot.text, Spot.text, hab.1,
      hab.2.readSection_eq_readSection]
  rw [readSchema, readSchema, hread]

/-- A page defines what its headings of types do: the first section that cannot be read is the
error; else the schema of the last definitions is the result if it is closed. What stands outside
the sections of types makes no difference. -/
theorem readSchema_defines (document : List Node) :
    ((∃ heading ∈ typeHeadings document, ∃ e, readSection heading = .error e) →
      ∃ before heading after e, typeHeadings document = before ++ heading :: after ∧
        (∀ h ∈ before, ∃ type, readSection h = .ok type) ∧ readSection heading = .error e ∧
        readSchema document = .error (.inEntry (sectionName heading) e)) ∧
    ((∀ heading ∈ typeHeadings document, ∃ type, readSection heading = .ok type) →
      ∃ s, (∀ t, Defines (typeHeadings document) t ↔ t = s) ∧
        ((∀ e ∈ s.entries, ∀ r ∈ e.2.references, r ∈ s.names) → readSchema document = .ok s) ∧
        ((∃ e ∈ s.entries, ∃ r ∈ e.2.references, r ∉ s.names) →
          ∃ r type, readSchema document = .error (.unresolvedReference r) ∧
            (r.referencedBy, type) ∈ s.entries ∧ r.name ∈ type.references ∧
            r.name ∉ s.names)) ∧
    ∀ document', SameSections false document document' →
      readSchema document' = readSchema document := by
  refine ⟨fun herror => ?_, fun hread => ?_, fun document' h => h.readSchema_eq⟩
  · obtain ⟨heading, hmem, e, he⟩ := herror
    obtain ⟨before, first, after, _, hheadings, hbefore, hfirst, hread⟩ :=
      mapM_eq_error ⟨heading, hmem, _, readEntry_eq_error.mpr ⟨e, he, rfl⟩⟩
    obtain ⟨cause, hcause, rfl⟩ := readEntry_eq_error.mp hfirst
    refine ⟨before, first, after, cause, hheadings, fun h hh => ?_, hcause, ?_⟩
    · obtain ⟨entry, hentry⟩ := hbefore h hh
      exact ⟨entry.2, (readEntry_eq_ok.mp hentry).2⟩
    · rw [readSchema, hread]
      rfl
  · obtain ⟨es, hes⟩ : ∃ es, (typeHeadings document).mapM readEntry = .ok es := by
      refine exists_mapM_eq_ok fun heading hmem => ?_
      obtain ⟨type, htype⟩ := hread heading hmem
      exact ⟨(sectionName heading, type), readEntry_eq_ok.mpr ⟨rfl, htype⟩⟩
    have hschema : readSchema document = checkClosed (Schema.ofList es) := by
      rw [readSchema, hes]
      rfl
    have hdefines := defines_ofList hes
    refine ⟨Schema.ofList es, fun t => ⟨fun ht => ht.unique hdefines, fun ht => ht ▸ hdefines⟩,
      fun hclosed => ?_, fun hopen => ?_⟩
    · rw [hschema, checkClosed, Schema.dangling?_eq_none.mpr hclosed]
    · cases hdangling : (Schema.ofList es).dangling? with
      | none =>
        obtain ⟨e, he, r, hr, hrnames⟩ := hopen
        exact absurd (Schema.dangling?_eq_none.mp hdangling e he r hr) hrnames
      | some r =>
        obtain ⟨type, htype, hr, hrnames⟩ := Schema.dangling?_eq_some hdangling
        refine ⟨r, type, ?_, htype, hr, hrnames⟩
        rw [hschema, checkClosed, hdangling]

/-! ### A page that defines a type twice -/

/-- A page with two sections for one type and what belongs to a method between them. -/
def chatPage (item : String) (method : List Node) : List Node :=
  [plainElement "h4" [.text "Chat"], plainElement "ul" [plainElement "li" [.text item]],
    plainElement "h4" [.text "Empty"], plainElement "h4" [.text "getChat"]] ++ (method ++
  [plainElement "h4" [.text "Chat"], plainElement "ul" [plainElement "li" [.text "Empty"]]])

/-- A table without the columns that describe properties. -/
def resultTable : Node :=
  plainElement "table"
    [plainElement "thead" [plainElement "tr" [plainElement "th" [.text "Result"]]]]

theorem sameSections_chatPage (item : String) :
    SameSections false (chatPage item [resultTable]) (chatPage item []) := by
  have hquiet : Quiet [resultTable] := by unfold Quiet AllNodes; decide
  exact .keep (.keep (.keep (.keep (.drop hquiet (.keep (.keep .nil))))))

theorem readSchema_defines_chatPage :
    (∃ heading ∈ typeHeadings (chatPage "no name" []), ∃ e, readSection heading = .error e) ∧
      (∃ name e, readSchema (chatPage "no name" []) = .error (.inEntry name e)) ∧
      (∀ heading ∈ typeHeadings (chatPage "Gone" [resultTable]), ∃ type,
        readSection heading = .ok type) ∧
      (∃ s, Defines (typeHeadings (chatPage "Gone" [resultTable])) s ∧
        (∀ e ∈ s.entries, ∀ r ∈ e.2.references, r ∈ s.names) ∧
        readSchema (chatPage "Gone" [resultTable]) = .ok s) ∧
      SameSections false (chatPage "Gone" [resultTable]) (chatPage "Gone" []) ∧
      readSchema (chatPage "Gone" []) = readSchema (chatPage "Gone" [resultTable]) := by
  have hfails : ∃ heading ∈ typeHeadings (chatPage "no name" []), ∃ e,
      readSection heading = .error e :=
    ⟨_, List.mem_cons_self, .invalidListItem "no name", rfl⟩
  have hread : ∀ heading ∈ typeHeadings (chatPage "Gone" [resultTable]), ∃ type,
      readSection heading = .ok type :=
    List.forall_mem_cons.mpr ⟨⟨.union [.named "Gone" []] [], rfl⟩, List.forall_mem_cons.mpr
      ⟨⟨.any [], rfl⟩, List.forall_mem_singleton.mpr ⟨.union [.named "Empty" []] [], rfl⟩⟩⟩
  have hsame := sameSections_chatPage "Gone"
  have haccepted : ∃ s, readSchema (chatPage "Gone" [resultTable]) = .ok s :=
    ⟨Schema.ofList [("Chat", .union [.named "Empty" []] []), ("Empty", .any [])], rfl⟩
  obtain ⟨-, heading, -, e, -, -, -, hbroken⟩ :=
    (readSchema_defines (chatPage "no name" [])).1 hfails
  obtain ⟨-, hdefined, hexchanged⟩ := readSchema_defines (chatPage "Gone" [resultTable])
  obtain ⟨s, hs, hclosed, hopen⟩ := hdefined hread
  have hreferences : ∀ e ∈ s.entries, ∀ r ∈ e.2.references, r ∈ s.names := by
    by_contra hnot
    push Not at hnot
    obtain ⟨t, ht⟩ := haccepted
    obtain ⟨r, type, herror, -⟩ := hopen hnot
    cases ht.symm.trans herror
  exact ⟨hfails, ⟨sectionName heading, e, hbroken⟩, hread,
    ⟨s, (hs s).mpr rfl, hreferences, hclosed hreferences⟩, hsame, hexchanged _ hsame⟩

end ApiTypings.Page
