import ApiTypings.Proofs.Declaration.Origin
import ApiTypings.Proofs.Page.TextRecords

/-!
# The identifiers of fields

A field is called after its property, and a property that is called like a reserved word gets
another identifier. What identifiers a declaration may use is laid down here without regard to how
they are made, and it is told for which names the identifiers of fields are among them and differ.
-/
namespace ApiTypings.Declaration

open Page (isIdentifier isIdentifierChar isIdentifier_iff identifierChars_of_isIdentifier
  forall_isIdentifierChar readTable isProperty_of_readTable readTable_eq textTable textProperty
  textRecord isPropertyTable_textTable)

/-! ### Identifiers that a declaration may use -/

/-- The words that mean something in declarations or may mean something one day. -/
def reservedWords : List String :=
  ["as", "break", "const", "continue", "crate", "else", "enum", "extern", "false", "fn", "for",
   "if", "impl", "in", "let", "loop", "match", "mod", "move", "mut", "pub", "ref", "return", "self",
   "Self", "static", "struct", "super", "trait", "true", "type", "unsafe", "use", "where", "while",
   "async", "await", "dyn", "abstract", "become", "box", "do", "final", "macro", "override", "priv",
   "typeof", "unsized", "virtual", "yield", "try"]

/-- The reserved words that stand for parts of a path, however they are written. -/
def pathWords : List String := ["self", "super", "crate", "Self"]

/-- Whether a text begins with a letter or an underscore, goes on with letters, digits and
underscores, and is more than an underscore. -/
def isWordShaped : List Char → Bool
  | [] => false
  | c :: cs => (c.isAlpha || c == '_' && !cs.isEmpty) && cs.all isIdentifierChar

/-- Whether a field can be called so: by a word that is not reserved, or by a raw identifier. -/
inductive IsFieldName : String → Prop
  | plain {n : String} (hshape : isWordShaped n.toList = true) (hfree : n ∉ reservedWords) :
    IsFieldName n
  | raw {n : String} (hshape : isWordShaped n.toList = true) (hfree : n ∉ pathWords) :
    IsFieldName ("r#" ++ n)

/-! ### The identifier of a field -/

/-- A name gets an underscore, or is written raw, or is kept. -/
theorem fieldIdentifier_cases (n : String) :
    (n ∈ strictKeywords ∧ fieldIdentifier n = n ++ "_") ∨
      (n ∈ keywords ∧ fieldIdentifier n = "r#" ++ n) ∨
      (n ∉ strictKeywords ∧ n ∉ keywords ∧ fieldIdentifier n = n) := by
  by_cases hstrict : n ∈ strictKeywords
  · exact Or.inl ⟨hstrict, by simp [fieldIdentifier, hstrict]⟩
  · by_cases hkey : n ∈ keywords
    · exact Or.inr (Or.inl ⟨hkey, by simp [fieldIdentifier, hstrict, hkey]⟩)
    · exact Or.inr (Or.inr ⟨hstrict, hkey, by simp [fieldIdentifier, hstrict, hkey]⟩)

theorem hash_not_mem {n : String} (h : isIdentifier n.toList = true) : '#' ∉ n.toList :=
  fun hmem => absurd (identifierChars_of_isIdentifier h '#' hmem) (by decide)

/-- What is written raw is neither a name nor a name with an underscore. -/
theorem raw_ne {n m : String} (h : isIdentifier n.toList = true) :
    n ≠ "r#" ++ m ∧ n ++ "_" ≠ "r#" ++ m := by
  constructor
  · intro he
    exact hash_not_mem h (by simp [he])
  · intro he
    have hmem : '#' ∈ (n ++ "_").toList := by simp [he]
    exact hash_not_mem h (by simpa using hmem)

/-- Whether one name is a path word and the other the same word with an underscore. -/
def Clash (n m : String) : Prop := n ∈ pathWords ∧ m = n ++ "_"

theorem Clash.eq {n m : String} (h : Clash n m) : fieldIdentifier n = fieldIdentifier m := by
  obtain ⟨hn, rfl⟩ := h
  have hall : ∀ w ∈ pathWords, fieldIdentifier w = fieldIdentifier (w ++ "_") := by decide
  exact hall n hn

theorem fieldIdentifier_eq_iff {n m : String} (hn : isIdentifier n.toList = true)
    (hm : isIdentifier m.toList = true) :
    fieldIdentifier n = fieldIdentifier m ↔ n = m ∨ Clash n m ∨ Clash m n := by
  constructor
  · intro h
    -- Only raw identifiers hold a number sign, so both names are written raw or neither is.
    obtain ⟨hraw, hrawStrict⟩ := raw_ne (m := m) hn
    obtain ⟨hraw', hrawStrict'⟩ := raw_ne (m := n) hm
    rcases fieldIdentifier_cases n with ⟨hns, hne⟩ | ⟨-, hne⟩ | ⟨-, -, hne⟩
    · rcases fieldIdentifier_cases m with ⟨-, hme⟩ | ⟨-, hme⟩ | ⟨-, -, hme⟩
      · exact Or.inl ((String.append_left_inj "_").mp (hne.symm.trans (h.trans hme)))
      · exact absurd (hne.symm.trans (h.trans hme)) hrawStrict
      · exact Or.inr (Or.inl ⟨hns, hme.symm.trans (h.symm.trans hne)⟩)
    · rcases fieldIdentifier_cases m with ⟨-, hme⟩ | ⟨-, hme⟩ | ⟨-, -, hme⟩
      · exact absurd (hme.symm.trans (h.symm.trans hne)) hrawStrict'
      · exact Or.inl ((String.append_right_inj "r#").mp (hne.symm.trans (h.trans hme)))
      · exact absurd (hme.symm.trans (h.symm.trans hne)) hraw'
    · rcases fieldIdentifier_cases m with ⟨hms, hme⟩ | ⟨-, hme⟩ | ⟨-, -, hme⟩
      · exact Or.inr (Or.inr ⟨hms, hne.symm.trans (h.trans hme)⟩)
      · exact absurd (hne.symm.trans (h.trans hme)) hraw
      · exact Or.inl (hne.symm.trans (h.trans hme))
  · rintro (rfl | h | h)
    · rfl
    · exact h.eq
    · exact h.eq.symm

/-- An identifier is shaped like a word unless it is an underscore or begins with a digit. -/
theorem isWordShaped_iff {n : String} (h : isIdentifier n.toList = true) :
    isWordShaped n.toList = true ↔ n ≠ "_" ∧ ∀ c ∈ n.toList.head?, c.isDigit = false := by
  have hlone : n ≠ "_" ↔ n.toList ≠ ['_'] := by
    rw [ne_eq, ne_eq, ← String.toList_inj]
    rfl
  obtain ⟨hne, hchars⟩ := isIdentifier_iff.mp h
  rw [hlone]
  cases hn : n.toList with
  | nil => exact absurd hn hne
  | cons c cs =>
    rw [hn] at hchars
    obtain ⟨hc, hcs⟩ := List.forall_mem_cons.mp hchars
    have hkind : (c.isAlpha = true ∨ c = '_') ↔ c.isDigit = false :=
      forall_isIdentifierChar (P := fun c => (c.isAlpha = true ∨ c = '_') ↔ c.isDigit = false)
        (by decide +kernel) hc
    have hrest : cs.all isIdentifierChar = true := List.all_eq_true.mpr hcs
    simp only [isWordShaped, hrest, Bool.and_true, Bool.or_eq_true, Bool.and_eq_true, beq_iff_eq,
      Bool.not_eq_true', List.isEmpty_eq_false_iff, List.head?_cons, Option.mem_some_iff,
      forall_eq', ← hkind]
    by_cases hlow : c = '_'
    · subst hlow
      simp
    · simp [hlow]

/-- A name is permitted, as it is changed, unless it is an underscore or begins with a digit. -/
theorem isFieldName_fieldIdentifier {n : String} (h : isIdentifier n.toList = true) :
    IsFieldName (fieldIdentifier n) ↔ n ≠ "_" ∧ ∀ c ∈ n.toList.head?, c.isDigit = false := by
  rw [← isWordShaped_iff h]
  rcases fieldIdentifier_cases n with ⟨hn, he⟩ | ⟨hn, he⟩ | ⟨hstrict, hkey, he⟩
  · have hall : ∀ w ∈ strictKeywords, isWordShaped (w ++ "_").toList = true ∧
        w ++ "_" ∉ reservedWords ∧ isWordShaped w.toList = true := by decide
    obtain ⟨hshape, hfree, hword⟩ := hall n hn
    rw [he]
    exact iff_of_true (.plain hshape hfree) hword
  · have hall : ∀ w ∈ keywords, isWordShaped w.toList = true ∧ w ∉ pathWords := by decide
    obtain ⟨hshape, hfree⟩ := hall n hn
    rw [he]
    exact iff_of_true (.raw hshape hfree) hshape
  · have hfree : n ∉ reservedWords := by
      have hall : ∀ w ∈ reservedWords, w ∈ strictKeywords ∨ w ∈ keywords := by decide
      exact fun hmem => (hall n hmem).elim hstrict hkey
    rw [he]
    refine ⟨fun hname => ?_, fun hshape => .plain hshape hfree⟩
    cases hname with
    | plain hshape _ => exact hshape
    | raw _ _ => exact absurd (by simp) (hash_not_mem h)

/-! ### The fields of a record -/

theorem identifiers_fields (width : Nat) {ps : List Property} {inner : List (Option String)}
    (h : ps.length = inner.length) :
    (List.zipWith (fieldOf width) ps inner).map Field.identifier =
      ps.map fun p => fieldIdentifier p.name := by
  induction ps generalizing inner with
  | nil => rfl
  | cons p ps ih =>
    cases inner with
    | nil => cases h
    | cons i inner =>
      rw [List.zipWith_cons_cons, List.map_cons, List.map_cons, ih (Nat.succ_inj.mp h)]
      rfl

/-- Different names have different identifiers unless a path word stands beside its replacement. -/
theorem nodup_identifiers_iff {names : List String} (h : ∀ n ∈ names, isIdentifier n.toList = true)
    (hnames : names.Nodup) : (names.map fieldIdentifier).Nodup ↔
      ∀ word ∈ pathWords, word ∈ names → word ++ "_" ∉ names := by
  rw [List.nodup_map_iff_inj_on hnames]
  constructor
  · intro hinj word hword hmem hmem'
    have hclash : Clash word (word ++ "_") := ⟨hword, rfl⟩
    have hsame := hinj word hmem _ hmem' hclash.eq
    have hlength := congrArg String.length hsame
    rw [String.length_append] at hlength
    exact absurd hlength (by simp)
  · intro hno n hn m hm heq
    rcases (fieldIdentifier_eq_iff (h n hn) (h m hm)).mp heq with
      hsame | ⟨hword, rfl⟩ | ⟨hword, rfl⟩
    · exact hsame
    · exact absurd hm (hno n hword hn)
    · exact absurd hn (hno m hword hm)

/-- However often a record from a table is declared, its struct has the properties as fields in
order. Their identifiers differ unless a path word stands beside the same word with an underscore,
and a field can be called so unless its name is an underscore or begins with a digit. -/
theorem nodup_fields_iff {table : Markup.Spot} {ps : List Property}
    (htable : readTable table = .ok ps) (hnames : (ps.map Property.name).Nodup) {s : Schema}
    {name : String} {cs : List DocComment} (hentry : (name, .record ps cs) ∈ s.entries)
    (width n : Nat) :
    (∃ d ∈ (Generator.afterRuns s width (n + 1)).declarations, d.name = name) ∧
    ∀ d ∈ (Generator.afterRuns s width (n + 1)).declarations, d.name = name →
      ∃ fields, d.body = structBody fields ∧
        fields.map Field.identifier = ps.map (fun p => fieldIdentifier p.name) ∧
        ((fields.map Field.identifier).Nodup ↔ ∀ word ∈ pathWords,
          word ∈ ps.map Property.name → word ++ "_" ∉ ps.map Property.name) ∧
        ∀ p ∈ ps, IsFieldName (fieldIdentifier p.name) ↔
          p.name ≠ "_" ∧ ∀ c ∈ p.name.toList.head?, c.isDigit = false := by
  have hidentifiers : ∀ p ∈ ps, isIdentifier p.name.toList = true :=
    fun p hp => (isProperty_of_readTable htable p hp).1
  refine ⟨exists_declaration (List.mem_map_of_mem hentry) width n, fun d hd hname => ?_⟩
  subst hname
  obtain ⟨us, horigin⟩ := originates_afterRuns s width (n + 1) d hd
  obtain ⟨inner, hinner, -, hbody⟩ := horigin.exists_entry hentry
  have hlength : ps.length = inner.length := by simpa [entryUses, uses] using hinner.length_eq
  have hfields := identifiers_fields width hlength
  refine ⟨List.zipWith (fieldOf width) ps inner, hbody, hfields, ?_, fun p hp =>
    isFieldName_fieldIdentifier (hidentifiers p hp)⟩
  have hmap : ps.map (fun p => fieldIdentifier p.name) =
      (ps.map Property.name).map fieldIdentifier := by
    rw [List.map_map]
    rfl
  rw [hfields, hmap]
  exact nodup_identifiers_iff (List.forall_mem_map.mpr hidentifiers) hnames

/-- A schema with one record of texts. -/
def textSchema (names : List String) : Schema := Schema.ofList [("Chat", textRecord names)]

/-- Reserved words of both kinds beside a plain name. -/
def reservedFields : List String := ["type", "self", "id"]

theorem nodup_fields_iff_reserved :
    readTable ⟨textTable reservedFields, [], []⟩ = .ok (reservedFields.map textProperty) ∧
      ((reservedFields.map textProperty).map Property.name).Nodup ∧
      ("Chat", textRecord reservedFields) ∈ (textSchema reservedFields).entries ∧
      ∃ d ∈ (Generator.afterRuns (textSchema reservedFields) 72 2).declarations, d.name = "Chat" ∧
        ∃ fields, d.body = structBody fields ∧ (fields.map Field.identifier).Nodup ∧
          ∀ f ∈ fields, IsFieldName f.identifier := by
  have htable : readTable ⟨textTable reservedFields, [], []⟩ =
      .ok (reservedFields.map textProperty) :=
    readTable_eq (isPropertyTable_textTable (by decide))
  have hnames : ((reservedFields.map textProperty).map Property.name).Nodup := by decide
  have hentry : ("Chat", textRecord reservedFields) ∈ (textSchema reservedFields).entries :=
    List.mem_singleton.mpr rfl
  obtain ⟨⟨d, hd, hname⟩, hall⟩ := nodup_fields_iff htable hnames hentry 72 1
  obtain ⟨fields, hbody, hidentifiers, hnodup, hlegal⟩ := hall d hd hname
  refine ⟨htable, hnames, hentry, d, hd, hname, fields, hbody, hnodup.mpr (by decide), ?_⟩
  intro f hf
  have hmem := List.mem_map_of_mem (f := Field.identifier) hf
  rw [hidentifiers] at hmem
  obtain ⟨p, hp, hpf⟩ := List.mem_map.mp hmem
  have hplain : ∀ p ∈ reservedFields.map textProperty,
      p.name ≠ "_" ∧ ∀ c ∈ p.name.toList.head?, c.isDigit = false := by
    simp [reservedFields, textProperty]
  exact hpf ▸ (hlegal p hp).mpr (hplain p hp)

/-- Names that are accepted although two fields get one identifier and two others a bad one. -/
def clashingFields : List String := ["self", "self_", "_", "2fa"]

theorem clashing_fields :
    readTable ⟨textTable clashingFields, [], []⟩ = .ok (clashingFields.map textProperty) ∧
      ((clashingFields.map textProperty).map Property.name).Nodup ∧
      Page.readSchema [Page.plainElement "h4" [.text "Chat"], textTable clashingFields] =
        .ok (textSchema clashingFields) ∧
      ∃ d ∈ (Generator.new (textSchema clashingFields) 72).generate.declarations,
        d.name = "Chat" ∧ ∃ fields, d.body = .struct fields ∧
          ¬(fields.map Field.identifier).Nodup ∧ ∃ f ∈ fields, ¬IsFieldName f.identifier := by
  have hidentifiers : ∀ n ∈ clashingFields, isIdentifier n.toList = true := by decide
  have hdigit : ¬IsFieldName (fieldIdentifier "2fa") := by
    rw [isFieldName_fieldIdentifier (by decide)]
    simp
  let fields := clashingFields.map fun n => fieldOf 72 (textProperty n) none
  refine ⟨readTable_eq (isPropertyTable_textTable hidentifiers), by decide,
    Page.readSchema_textTable (by decide) hidentifiers, ⟨"Chat", [], .struct fields⟩, ?_, rfl,
    fields, rfl, by decide, fieldOf 72 (textProperty "2fa") none, ?_, hdigit⟩
  · decide +kernel
  · exact List.mem_map_of_mem (by decide)

end ApiTypings.Declaration
