import ApiTypings.Proofs.Declaration.Reading

/-!
# What a declaration says about its type

In a well-named schema every expression at a use site reads as the type that is used there,
and every body reads as the type it was made for, if the use sites in it are found again.
-/
namespace ApiTypings.Declaration

open Page (isTypeName isIdentifier isIdentifierChar isIdentifier_of_isTypeName
  identifierChars_of_isIdentifier)

/-- The names that declarations would take for types of their own. -/
def reservedNames : List String := ["String", "Vec", "Option", "Box"]

/-- A type name that does not read like a scalar. -/
def IsDeclarable (n : String) : Prop := isTypeName n.toList = true ∧ n ≠ "String"

theorem IsDeclarable.identifierChars {n : String} (h : IsDeclarable n) :
    ∀ c ∈ n.toList, isIdentifierChar c = true :=
  identifierChars_of_isIdentifier (isIdentifier_of_isTypeName h.1)

theorem IsDeclarable.isPlainName {n : String} (h : IsDeclarable n) : IsPlainName n := by
  refine ⟨isIdentifier_of_isTypeName h.1, ?_⟩
  unfold ofWord
  split
  · exact absurd h.1 (by decide)
  · exact absurd h.1 (by decide)
  · exact absurd h.1 (by decide)
  · exact absurd rfl h.2
  · rfl

theorem isDeclarable_freshName {owner field : String} (taken : List String)
    (ho : IsDeclarable owner) (hf : ∀ c ∈ field.toList, isIdentifierChar c = true) :
    IsDeclarable (freshName (owner ++ Text.camelCase field) taken) := by
  refine ⟨isTypeName_freshName taken ho.1 hf, freshName_ne taken (by simp) ?_ ho.2⟩
  intro he
  have h := ho.1
  rw [he] at h
  exact Bool.false_ne_true h

/-- The names in a type are as a schema has them: references lead to entries with names that
can be declared, and properties are identifiers. -/
structure WellNamed (known : List String) (t : ApiType) : Prop where
  references : ∀ r ∈ t.references, r ∈ known ∧ IsDeclarable r
  properties : ∀ n ∈ t.propertyNames, isIdentifier n.toList = true

theorem WellNamed.innermost {known : List String} {t : ApiType} (h : WellNamed known t) :
    WellNamed known (innermost t) := by
  induction t using ApiType.kinds with
  | array t cs ih => exact ih ⟨h.references, h.properties⟩
  | scalar s => exact h
  | any cs => exact h
  | named n cs => exact h
  | union ms cs ih => exact h
  | record ps cs ih => exact h

theorem variantName_identifier {known : List String} {t : ApiType} (h : WellNamed known t) :
    ∀ c ∈ (variantName t).toList, isIdentifierChar c = true := by
  induction t using ApiType.kinds with
  | scalar s => cases s <;> exact identifierChars_of_isIdentifier (by decide)
  | any cs => exact identifierChars_of_isIdentifier (s := "Any".toList) (by decide)
  | named n cs => exact (h.references n (by simp [ApiType.references])).2.identifierChars
  | union ms cs ih =>
    exact identifierChars_of_isIdentifier (s := "Variants".toList) (by decide)
  | array t cs ih =>
    intro c hc
    rw [variantName, String.toList_append, List.mem_append] at hc
    rcases hc with hc | hc
    · exact identifierChars_of_isIdentifier (s := "ArrayOf".toList) (by decide) c hc
    · exact ih ⟨h.references, h.properties⟩ c hc
  | record ps cs ih =>
    exact identifierChars_of_isIdentifier (s := "Structure".toList) (by decide)

/-- What is used by a well-named type is well-named, and so are the fields that use it. -/
theorem WellNamed.uses {known : List String} {t : ApiType} (h : WellNamed known t) :
    ∀ u ∈ uses t, WellNamed known u.2 ∧ ∀ c ∈ u.1.toList, isIdentifierChar c = true := by
  cases t with
  | scalar s => simp [Declaration.uses]
  | any cs => simp [Declaration.uses]
  | named n cs => simp [Declaration.uses]
  | array t cs => simp [Declaration.uses]
  | union ms cs =>
    intro u hu
    obtain ⟨m, hm, rfl⟩ := List.mem_map.mp hu
    have hw : WellNamed known m := by
      constructor
      · intro r hr
        refine h.references r ?_
        rw [ApiType.references, memberReferences_eq_flatMap]
        exact List.mem_flatMap.mpr ⟨m, hm, hr⟩
      · intro n hn
        refine h.properties n ?_
        rw [ApiType.propertyNames, memberPropertyNames_eq_flatMap]
        exact List.mem_flatMap.mpr ⟨m, hm, hn⟩
    exact ⟨hw, variantName_identifier hw⟩
  | record ps cs =>
    intro u hu
    obtain ⟨p, hp, rfl⟩ := List.mem_map.mp hu
    have hprops : ∀ n ∈ p.name :: p.type.propertyNames, isIdentifier n.toList = true := by
      intro n hn
      refine h.properties n ?_
      rw [ApiType.propertyNames, ownPropertyNames_eq_flatMap]
      exact List.mem_flatMap.mpr ⟨p, hp, hn⟩
    refine ⟨⟨fun r hr => h.references r ?_, fun n hn => hprops n (List.mem_cons_of_mem _ hn)⟩,
      identifierChars_of_isIdentifier (hprops p.name List.mem_cons_self)⟩
    rw [ApiType.references, propertyReferences_eq_flatMap]
    exact List.mem_flatMap.mpr ⟨p, hp, hr⟩

section Expressions

variable {find : String → Option ApiType}

/-- How a use site is found again: the name taken for it resolves to the innermost item. -/
structure Resolved (find : String → Option ApiType) (t : ApiType) (i : Option String) : Prop where
  isSome : i.isSome = needsName t
  name : ∀ n ∈ i, IsDeclarable n ∧ find n = some (declaredOutline (innermost t))

theorem Resolved.item {t : ApiType} {cs : List DocComment} {i : Option String}
    (h : Resolved find (.array t cs) i) : Resolved find t i := ⟨h.isSome, h.name⟩

theorem Resolved.eq_some {t : ApiType} {i : Option String} (h : Resolved find t i)
    (hn : needsName t = true) : ∃ n, i = some n ∧ IsDeclarable n ∧
      find n = some (declaredOutline (innermost t)) := by
  obtain ⟨n, hi⟩ := Option.isSome_iff_exists.mp (h.isSome.trans hn)
  exact ⟨n, hi, h.name n hi⟩

theorem readExpr_boxedIf (boxed : Bool) (e : TypeExpr) :
    readExpr find (boxedIf boxed e) = readExpr find e := by
  cases boxed <;> rfl

theorem names_boxedIf (boxed : Bool) (e : TypeExpr) : (boxedIf boxed e).names = e.names := by
  cases boxed <;> rfl

/-- The expression at a use site holds declarable names only and reads as the type used. -/
theorem readExpr_expression {known : List String} (hfind : ∀ r ∈ known, find r = some (.named r []))
    {t : ApiType} (hw : WellNamed known t) {i : Option String} (hi : Resolved find t i)
    (boxed : Bool) : (∀ n ∈ (expression i boxed t).names, IsDeclarable n) ∧
      readExpr find (expression i boxed t) = some (declaredOutline t) := by
  induction t using ApiType.kinds generalizing boxed with
  | scalar s => exact ⟨by simp [expression, TypeExpr.names], rfl⟩
  | any cs =>
    obtain ⟨n, rfl, hd, hf⟩ := hi.eq_some rfl
    rw [expression, names_boxedIf, readExpr_boxedIf]
    exact ⟨by simpa [TypeExpr.names] using hd, hf⟩
  | named n cs =>
    have hr := hw.references n (by simp [ApiType.references])
    rw [expression, names_boxedIf, readExpr_boxedIf]
    exact ⟨by simpa [TypeExpr.names] using hr.2, hfind n hr.1⟩
  | union ms cs ih =>
    obtain ⟨n, rfl, hd, hf⟩ := hi.eq_some rfl
    exact ⟨by simpa [expression, TypeExpr.names] using hd, hf⟩
  | array t cs ih =>
    have h := ih ⟨hw.references, hw.properties⟩ hi.item false
    refine ⟨h.1, ?_⟩
    rw [expression, readExpr, h.2]
    rfl
  | record ps cs ih =>
    obtain ⟨n, rfl, hd, hf⟩ := hi.eq_some rfl
    rw [expression, names_boxedIf, readExpr_boxedIf]
    exact ⟨by simpa [TypeExpr.names] using hd, hf⟩

theorem readPayload_expression {known : List String}
    (hfind : ∀ r ∈ known, find r = some (.named r [])) {t : ApiType} (hw : WellNamed known t)
    {i : Option String} (hi : Resolved find t i) (boxed : Bool) :
    readPayload find (expression i boxed t) = some (declaredOutline t) := by
  obtain ⟨hn, hr⟩ := readExpr_expression hfind hw hi boxed
  rw [readPayload, typeOfText?_text fun n h => (hn n h).isPlainName]
  exact hr

theorem dataName_fieldOf (width : Nat) {p : Property} (hp : isIdentifier p.name.toList = true)
    (i : Option String) : (fieldOf width p i).dataName = p.name := by
  simp only [Field.dataName, fieldOf, wireName?, fieldIdentifier]
  split
  · rfl
  · rw [Option.getD_none]
    split
    · simp [withoutRawMark]
    · unfold withoutRawMark
      split
      · next cs he =>
        have hc := identifierChars_of_isIdentifier hp '#' (by simp [he])
        exact absurd hc (by decide)
      · rfl

theorem expression_ne_option (i : Option String) (boxed : Bool) (t : ApiType) (e : TypeExpr) :
    expression i boxed t ≠ .option e := by
  cases t <;> cases boxed <;> simp [expression, boxedIf]

/-- A field reads as its property without the description. -/
theorem readField_fieldOf {known : List String} (hfind : ∀ r ∈ known, find r = some (.named r []))
    (width : Nat) {p : Property} (hp : isIdentifier p.name.toList = true)
    (hw : WellNamed known p.type) {i : Option String} (hi : Resolved find p.type i) :
    readField find (fieldOf width p i) =
      some (propertyOutline id (.record [] []) p) := by
  obtain ⟨hn, hr⟩ := readExpr_expression hfind hw hi true
  have htext : typeOfText? (fieldOf width p i).type.text = some (fieldOf width p i).type := by
    refine typeOfText?_text fun n h => (hn n ?_).isPlainName
    cases ho : p.optional <;> simpa [fieldOf, ho, TypeExpr.names] using h
  have hd := dataName_fieldOf width hp i
  rw [readField, htext, hd, propertyOutline]
  cases ho : p.optional with
  | true =>
    have ht : (fieldOf width p i).type = .option (expression i true p.type) := by
      simp [fieldOf, ho]
    simp only [ht, hr, Option.map_some, declaredOutline]
  | false =>
    have ht : (fieldOf width p i).type = expression i true p.type := by simp [fieldOf, ho]
    rw [ht]
    split
    · next e he => exact absurd (Option.some.inj he) (expression_ne_option i true p.type e)
    · next e _ he =>
      obtain rfl := Option.some.inj he
      simp only [hr, Option.map_some, declaredOutline]
    · next he => simp at he

theorem mapM_variants {known : List String} (hfind : ∀ r ∈ known, find r = some (.named r []))
    {ms : List ApiType} {inner : List (Option String)} (hw : ∀ m ∈ ms, WellNamed known m)
    (hi : List.Forall₂ (Resolved find) ms inner) :
    (List.zipWith variantOf ms inner).mapM (fun v => readPayload find v.payload) =
      some (ms.map declaredOutline) := by
  induction hi with
  | nil => rfl
  | @cons m i ms inner hmi _ ih =>
    have hm := readPayload_expression hfind (hw m List.mem_cons_self) hmi true
    have hms := ih fun n hn => hw n (List.mem_cons_of_mem m hn)
    rw [List.zipWith_cons_cons, List.mapM_cons, hms, variantOf, hm]
    rfl

theorem mapM_fields {known : List String} (hfind : ∀ r ∈ known, find r = some (.named r []))
    (width : Nat) {ps : List Property} {inner : List (Option String)}
    (hp : ∀ p ∈ ps, isIdentifier p.name.toList = true) (hw : ∀ p ∈ ps, WellNamed known p.type)
    (hi : List.Forall₂ (fun p => Resolved find p.type) ps inner) :
    (List.zipWith (fieldOf width) ps inner).mapM (readField find) =
      some (ps.map (propertyOutline id (.record [] []))) := by
  induction hi with
  | nil => rfl
  | @cons p i ps inner hpi _ ih =>
    have hf := readField_fieldOf hfind width (hp p List.mem_cons_self)
      (hw p List.mem_cons_self) hpi
    have hfs := ih (fun q hq => hp q (List.mem_cons_of_mem p hq))
      (fun q hq => hw q (List.mem_cons_of_mem p hq))
    rw [List.zipWith_cons_cons, List.mapM_cons, hfs, hf]
    rfl

theorem readBody_structBody (fields : List Field) :
    readBody find (structBody fields) =
      (fields.mapM (readField find)).map (fun ps => .record ps []) := by
  cases fields <;> rfl

/-- The body made for a type reads as that type, if its use sites are found again. -/
theorem readBody_bodyOf {known : List String} (hfind : ∀ r ∈ known, find r = some (.named r []))
    (width : Nat) {t : ApiType} (hn : needsName t = true) (hw : WellNamed known t)
    {inner : List (Option String)}
    (hi : List.Forall₂ (fun u => Resolved find u.2) (uses (innermost t)) inner) :
    readBody find (bodyOf width inner (innermost t)) = some (declaredOutline (innermost t)) := by
  induction t using ApiType.kinds with
  | scalar s => simp [needsName] at hn
  | any cs => rfl
  | named n cs => simp [needsName] at hn
  | union ms cs _ =>
    have hu := hw.uses
    simp only [innermost, uses, List.forall₂_map_left_iff, List.forall_mem_map] at hi hu
    rw [innermost, bodyOf, readBody, mapM_variants hfind (fun m hm => (hu m hm).1) hi,
      declaredOutline, typeOutline, memberOutlines_eq_map]
    · rfl
    · simp
  | array t cs ih => exact ih hn ⟨hw.references, hw.properties⟩ hi
  | record ps cs _ =>
    have hu := hw.uses
    have hp : ∀ p ∈ ps, isIdentifier p.name.toList = true := by
      intro p hp
      refine hw.properties p.name ?_
      rw [ApiType.propertyNames, ownPropertyNames_eq_flatMap]
      exact List.mem_flatMap.mpr ⟨p, hp, List.mem_cons_self⟩
    simp only [innermost, uses, List.forall₂_map_left_iff, List.forall_mem_map] at hi hu
    rw [innermost, bodyOf, readBody_structBody,
      mapM_fields hfind width hp (fun p hp => (hu p hp).1) hi, declaredOutline, typeOutline,
      propertyOutlines_eq_map]
    · rfl
    · simp

end Expressions

end ApiTypings.Declaration
