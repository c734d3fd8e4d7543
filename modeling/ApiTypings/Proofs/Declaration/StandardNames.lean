import ApiTypings.Proofs.Declaration.Containment
import ApiTypings.Proofs.Declaration.Origin
import ApiTypings.Proofs.Page.Definitions
import ApiTypings.Proofs.Page.TextRecords

/-!
# Names that declarations rely on

Scalars, lists, boxes and optional values are written with names that are declared elsewhere, and
so are the derived traits. A name made from owner and field is never one of these. The name of an
entry is, if the page has a heading that says so.
-/
namespace ApiTypings.Declaration

open Page (isTypeName readSchema typeHeadings typeHeadings_eq sectionName plainElement textTable
  textRecord isSection_textSection IsSection Quiet mapM_readEntry_eq readSchema_of_mapM
  readEntry map_fst_of_mapM_readEntry)

/-- The names in declarations that stand for something that is not declared there. -/
def standardNames : List String := builtinNames ++ ["Serialize", "Deserialize"]

section Origin

variable {s : Schema} {width : Nat} {d : Declaration} {us : List (String × ApiType)}

/-- Where entries begin with a capital, all declarations do. -/
theorem Originates.capital (hnames : ∀ n ∈ s.names, isTypeName n.toList = true)
    (h : Originates s width d us) : ∃ c cs, d.name.toList = c :: cs ∧ c.isUpper = true := by
  induction h with
  | @entry name t inner hmem _ =>
    exact Page.isUpper_head_of_isTypeName (hnames name (List.mem_map_of_mem hmem))
  | @used owner us field name t inner _ _ _ hname _ ih =>
    obtain ⟨taken, -, rfl⟩ := hname
    obtain ⟨c, cs, howner, hc⟩ := ih
    obtain ⟨rest, hrest⟩ := exists_freshName_eq_append owner.name field taken
    exact ⟨c, cs ++ rest, by rw [hrest, howner, List.cons_append], hc⟩

/-- A word of one character and small letters behind it is declared only as an entry. -/
theorem Originates.mem_names_of_word (hnames : ∀ n ∈ s.names, isTypeName n.toList = true)
    (h : Originates s width d us) (hword : ∀ c ∈ d.name.toList.tail, c.isLower = true) :
    d.name ∈ s.names := by
  generalize hn : d.name = word at hword ⊢
  induction h with
  | @entry name t inner hmem _ => exact hn ▸ List.mem_map_of_mem hmem
  | @used owner us field name t inner howner _ _ hname _ ih =>
    subst hn
    obtain ⟨taken, hknown, hfresh⟩ := hname
    -- The owner is either this very word, which is taken then, or it makes the name another one.
    by_cases hsame : owner.name = name
    · exact absurd (hknown (ih hsame)) (hfresh ▸ freshName_not_mem _ taken)
    · obtain ⟨c, cs, hc, -⟩ := howner.capital hnames
      exact absurd hfresh.symm (freshName_ne taken hword (by simp [hc]) hsame)

end Origin

/-- Of the standard names, those that begin with a capital go on in small letters. -/
theorem tail_isLower_of_mem_standardNames {word : String} (h : word ∈ standardNames)
    (hcapital : ∃ c cs, word.toList = c :: cs ∧ c.isUpper = true) :
    ∀ c ∈ word.toList.tail, c.isLower = true := by
  have hall : ∀ w ∈ standardNames, w.toList.head?.any Char.isUpper = true →
      ∀ c ∈ w.toList.tail, c.isLower = true := by
    simp [standardNames, builtinNames]
  obtain ⟨c, cs, hc, hupper⟩ := hcapital
  exact hall word h (by simp [hc, hupper])

/-- However often the schema of an accepted page is declared, a name that declarations rely on is
declared exactly if a heading on the page is that name. -/
theorem declares_standardName_iff {document : List Markup.Node} {s : Schema}
    (h : readSchema document = .ok s) (width n : Nat) : ∀ word ∈ standardNames,
    (∃ d ∈ (Generator.afterRuns s width (n + 1)).declarations, d.name = word) ↔
      ∃ heading ∈ typeHeadings document, sectionName heading = word := by
  have hnames : ∀ n ∈ s.names, isTypeName n.toList = true :=
    fun n hn => Page.isTypeName_of_mem_names h hn
  intro word hword
  rw [← (Page.defines_of_readSchema h).mem_names]
  constructor
  · rintro ⟨d, hd, rfl⟩
    obtain ⟨us, horigin⟩ := originates_afterRuns s width (n + 1) d hd
    exact horigin.mem_names_of_word hnames
      (tail_isLower_of_mem_standardNames hword (horigin.capital hnames))
  · exact fun hmem => exists_declaration hmem width n

/-! ### A page with a heading that is such a name -/

def shadowingPage : List Markup.Node :=
  [plainElement "h4" [.text "Chat"], textTable ["title"], plainElement "h4" [.text "String"]]

def shadowingEntries : List (String × ApiType) :=
  [("Chat", textRecord ["title"]), ("String", .any [])]

def shadowingSchema : Schema := Schema.ofList shadowingEntries

theorem readEntries_shadowingPage :
    (typeHeadings shadowingPage).mapM readEntry = .ok shadowingEntries := by
  have hchat : IsSection "Chat" (textRecord ["title"]) (plainElement "h4" [.text "Chat"])
      [textTable ["title"]] :=
    isSection_textSection (by decide) (by decide)
  have hstring : IsSection "String" (.any []) (plainElement "h4" [.text "String"]) [] :=
    ⟨rfl, rfl, by decide, by unfold Quiet Markup.AllNodes; decide, [], [], rfl, by simp, .nothing⟩
  rw [typeHeadings_eq]
  exact mapM_readEntry_eq (.entry hchat (.entry hstring .nil)) []

theorem readSchema_shadowingPage : readSchema shadowingPage = .ok shadowingSchema :=
  readSchema_of_mapM readEntries_shadowingPage (by decide) (by decide)

theorem declares_standardName_iff_shadowing :
    readSchema shadowingPage = .ok shadowingSchema ∧
      (∃ d ∈ (Generator.afterRuns shadowingSchema 72 2).declarations, d.name = "String") ∧
      ¬∃ d ∈ (Generator.afterRuns shadowingSchema 72 2).declarations, d.name = "Vec" := by
  have hheadings : (typeHeadings shadowingPage).map sectionName = ["Chat", "String"] :=
    (map_fst_of_mapM_readEntry readEntries_shadowingPage).symm
  have hread := readSchema_shadowingPage
  refine ⟨hread, ?_, ?_⟩
  · refine (declares_standardName_iff hread 72 1 "String" (by decide)).mpr ?_
    rw [← List.mem_map, hheadings]
    decide
  · rw [declares_standardName_iff hread 72 1 "Vec" (by decide), ← List.mem_map, hheadings]
    decide

/-- The field of one declaration is written with the name of the other. -/
theorem shadowed_String : readSchema shadowingPage = .ok shadowingSchema ∧
    "String" ∈ standardNames ∧
    ∃ d ∈ (Generator.new shadowingSchema 72).generate.declarations, d.name = "String" ∧
      ∃ f, ⟨"Chat", [], .struct [f]⟩ ∈ (Generator.new shadowingSchema 72).generate.declarations ∧
        f.type.text = d.name := by
  refine ⟨readSchema_shadowingPage, by decide, ⟨"String", [], .placeholder⟩, ?_, rfl,
    ⟨[], none, "title", .scalar .string⟩, ?_, rfl⟩
  · decide +kernel
  · decide +kernel

end ApiTypings.Declaration
