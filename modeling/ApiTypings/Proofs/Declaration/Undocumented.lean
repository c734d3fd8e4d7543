import ApiTypings.Proofs.Declaration.Naming
import ApiTypings.Proofs.Printing.Documentation
import ApiTypings.Proofs.Text.Wrap

/-!
# Declarations without documentation

Names and bodies are chosen without looking at documentation. So a schema without it has the same
declarations, only undocumented, whatever the widths. Descriptions of fields, and the
documentation of structs without fields, are kept as lines that are written one by one.
-/
namespace ApiTypings

open Text

mutual

/-- The descriptions of the properties in a type, at any depth. -/
def ApiType.descriptions : ApiType → List DocComment
  | .scalar _ => []
  | .any _ => []
  | .named _ _ => []
  | .union ms _ => memberDescriptions ms
  | .array t _ => t.descriptions
  | .record ps _ => ownDescriptions ps

def memberDescriptions : List ApiType → List DocComment
  | [] => []
  | t :: ts => t.descriptions ++ memberDescriptions ts

def ownDescriptions : List Property → List DocComment
  | [] => []
  | ⟨_, t, _, d⟩ :: ps => (d.toList ++ t.descriptions) ++ ownDescriptions ps

end

/-- The documentation of an entry that is written line by line as it is. -/
def ApiType.verbatimDocs : ApiType → List DocComment
  | .any cs => cs
  | .record [] cs => cs
  | t => t.descriptions

/-- Whether each link of a comment is on one line. -/
def DocComment.LinksOnLines (c : DocComment) : Prop := ∀ l ∈ Page.links c, '\n' ∉ l.toList

theorem ApiType.descriptions_subset_verbatimDocs (t : ApiType) :
    t.descriptions ⊆ t.verbatimDocs := by
  cases t with
  | any cs => exact List.nil_subset _
  | record ps cs =>
    cases ps with
    | nil => exact List.nil_subset _
    | cons p ps => exact List.Subset.refl _
  | _ => exact List.Subset.refl _

theorem memberDescriptions_eq_flatMap (ts : List ApiType) :
    memberDescriptions ts = ts.flatMap ApiType.descriptions := by
  induction ts with
  | nil => rfl
  | cons t ts ih => rw [memberDescriptions, ih, List.flatMap_cons]

theorem ownDescriptions_eq_flatMap (ps : List Property) :
    ownDescriptions ps = ps.flatMap (fun p => p.description.toList ++ p.type.descriptions) := by
  induction ps with
  | nil => rfl
  | cons p ps ih =>
    obtain ⟨n, t, o, d⟩ := p
    rw [ownDescriptions, ih, List.flatMap_cons]

theorem ApiType.descriptions_member {ms : List ApiType} {cs : List DocComment} {m : ApiType}
    (hm : m ∈ ms) : m.descriptions ⊆ (ApiType.union ms cs).descriptions := by
  intro c hc
  rw [ApiType.descriptions, memberDescriptions_eq_flatMap]
  exact List.mem_flatMap.mpr ⟨m, hm, hc⟩

theorem ApiType.descriptions_property {ps : List Property} {cs : List DocComment} {p : Property}
    (hp : p ∈ ps) :
    p.description.toList ++ p.type.descriptions ⊆ (ApiType.record ps cs).descriptions := by
  intro c hc
  rw [ApiType.descriptions, ownDescriptions_eq_flatMap]
  exact List.mem_flatMap.mpr ⟨p, hp, hc⟩

theorem ApiType.bare_union (ms : List ApiType) (cs : List DocComment) :
    (ApiType.union ms cs).bare = .union (ms.map ApiType.bare) [] :=
  congrArg (ApiType.union · []) (memberOutlines_eq_map id (.any []) ms)

theorem ApiType.bare_record (ps : List Property) (cs : List DocComment) :
    (ApiType.record ps cs).bare = .record (ps.map (propertyOutline id (.any []))) [] :=
  congrArg (ApiType.record · []) (propertyOutlines_eq_map id (.any []) ps)

namespace Declaration

def Field.undocumented (f : Field) : Field := { f with docs := [] }

def Body.undocumented : Body → Body
  | .struct fields => .struct (fields.map Field.undocumented)
  | .placeholder => .placeholder
  | .enum variants => .enum variants
  | .alias target => .alias target

/-- The declaration without its documentation and that of its fields. -/
def undocumented (d : Declaration) : Declaration := ⟨d.name, [], d.body.undocumented⟩

/-- Whether documentation that is written line by line holds one line each. -/
def DocsOnLines (d : Declaration) : Prop :=
  match d.body with
  | .struct fields => ∀ f ∈ fields, ∀ l ∈ f.docs, '\n' ∉ l.toList
  | .placeholder => ∀ l ∈ d.docs, '\n' ∉ l.toList
  | .enum _ => True
  | .alias _ => True

theorem newline_of_mem_docLines {width : Nat} {cs : List DocComment}
    (hcs : ∀ c ∈ cs, c.LinksOnLines) : ∀ l ∈ docLines width cs, '\n' ∉ l.toList := by
  have hcomment : ∀ c : DocComment, c.LinksOnLines →
      ∀ l ∈ commentDocs width c, '\n' ∉ l.toList := by
    intro c hc l hl
    rcases List.mem_append.mp hl with hl | hl
    · have hwords : ∀ w ∈ words c.text.toList, '\n' ∉ w :=
        fun w hw hmem => absurd (not_isBlank_of_mem_words hw hmem) (by decide)
      exact forall_mem_wrap (fun s t hs ht => by simp [hs, ht]) hwords l hl
    · obtain ⟨link, hlink, rfl⟩ := List.mem_map.mp hl
      simpa using hc link hlink
  fun_induction docLines width cs with
  | case1 => simp
  | case2 c => exact hcomment c (hcs c List.mem_cons_self)
  | case3 c d cs ih =>
    obtain ⟨hc, hds⟩ := List.forall_mem_cons.mp hcs
    exact List.forall_mem_append.mpr
      ⟨hcomment c hc, List.forall_mem_cons.mpr ⟨by simp, ih hds⟩⟩

/-! ### Names and types do not depend on documentation -/

theorem needsName_bare (t : ApiType) : needsName t.bare = needsName t := by
  induction t using ApiType.kinds with
  | array t cs ih => exact ih
  | _ => rfl

theorem variantName_bare (t : ApiType) : variantName t.bare = variantName t := by
  induction t using ApiType.kinds with
  | scalar s => cases s <;> rfl
  | array t cs ih => exact congrArg ("ArrayOf" ++ ·) ih
  | _ => rfl

theorem expression_bare (i : Option String) (boxed : Bool) (t : ApiType) :
    expression i boxed t.bare = expression i boxed t := by
  induction t using ApiType.kinds generalizing boxed with
  | array t cs ih => exact congrArg TypeExpr.list (ih false)
  | _ => rfl

theorem innermost_bare (t : ApiType) : innermost t.bare = (innermost t).bare := by
  induction t using ApiType.kinds with
  | array t cs ih => exact ih
  | _ => rfl

/-- Use sites without the documentation of their types. -/
def bareUses (us : List (String × ApiType)) : List (String × ApiType) :=
  us.map (fun u => (u.1, u.2.bare))

theorem uses_bare (t : ApiType) : uses t.bare = bareUses (uses t) := by
  cases t with
  | union ms cs =>
    rw [ApiType.bare_union, uses, uses, bareUses, List.map_map, List.map_map]
    exact List.map_congr_left fun m _ => by simp [variantName_bare]
  | record ps cs =>
    rw [ApiType.bare_record, uses, uses, bareUses, List.map_map, List.map_map]
    rfl
  | _ => rfl

theorem takeNames_bareUses (owner : String) (us : List (String × ApiType)) :
    takeNames owner (bareUses us) = takeNames owner us := by
  have hname : (fun u : String × ApiType => innerName owner u.1 u.2.bare) =
      fun u => innerName owner u.1 u.2 := by
    funext u
    rw [innerName, innerName, needsName_bare]
  exact List.mapM_map.trans (congrArg us.mapM hname)

theorem fieldOf_bare (width width' : Nat) (p : Property) (i : Option String) :
    fieldOf width' (propertyOutline id (.any []) p) i = (fieldOf width p i).undocumented := by
  have htype : expression i true (typeOutline id (.any []) p.type) = expression i true p.type :=
    expression_bare i true p.type
  rw [fieldOf, fieldOf, Field.undocumented, propertyOutline, htype]
  rfl

theorem variantOf_bare (m : ApiType) (i : Option String) : variantOf m.bare i = variantOf m i := by
  rw [variantOf, variantOf, variantName_bare, expression_bare]

theorem structBody_undocumented (fields : List Field) :
    structBody (fields.map Field.undocumented) = (structBody fields).undocumented := by
  cases fields <;> rfl

theorem bodyOf_bare (width width' : Nat) (inner : List (Option String)) (t : ApiType) :
    bodyOf width' inner t.bare = (bodyOf width inner t).undocumented := by
  cases t with
  | union ms cs =>
    rw [ApiType.bare_union, bodyOf, bodyOf, List.zipWith_map_left]
    simp only [variantOf_bare]
    rfl
  | record ps cs =>
    rw [ApiType.bare_record, bodyOf, bodyOf, List.zipWith_map_left, ← structBody_undocumented,
      List.map_zipWith]
    simp only [fieldOf_bare width width']
  | _ => rfl

theorem entryUses_bare (t : ApiType) : entryUses t.bare = bareUses (entryUses t) := by
  cases t with
  | union ms cs => exact uses_bare (.union ms cs)
  | record ps cs => exact uses_bare (.record ps cs)
  | _ => rfl

theorem entryBody_bare (width width' : Nat) (inner : List (Option String)) (t : ApiType) :
    entryBody width' inner t.bare = (entryBody width inner t).undocumented := by
  cases t with
  | union ms cs => exact bodyOf_bare width width' inner (.union ms cs)
  | record ps cs => exact bodyOf_bare width width' inner (.record ps cs)
  | array t cs =>
    have hbare : ApiType.bare (.array t cs) = .array t.bare [] := rfl
    have htarget := expression_bare inner.head?.join false (.array t cs)
    rw [hbare] at htarget ⊢
    exact congrArg Body.alias htarget
  | _ => rfl

/-! ### Lines of documentation -/

theorem descriptions_innermost (t : ApiType) : (innermost t).descriptions = t.descriptions := by
  induction t using ApiType.kinds with
  | array t cs ih => exact ih
  | _ => rfl

theorem descriptions_uses {t : ApiType} {u : String × ApiType} (hu : u ∈ uses t) :
    u.2.descriptions ⊆ t.descriptions := by
  cases t with
  | union ms cs =>
    obtain ⟨m, hm, rfl⟩ := List.mem_map.mp hu
    exact ApiType.descriptions_member hm
  | record ps cs =>
    obtain ⟨p, hp, rfl⟩ := List.mem_map.mp hu
    exact fun c hc => ApiType.descriptions_property hp (List.mem_append_right _ hc)
  | _ => simp [uses] at hu

theorem descriptions_entryUses {t : ApiType} {u : String × ApiType} (hu : u ∈ entryUses t) :
    u.2.descriptions ⊆ t.descriptions := by
  cases t with
  | any cs => simp [entryUses, uses] at hu
  | union ms cs => exact descriptions_uses hu
  | record ps cs => exact descriptions_uses hu
  | _ =>
    obtain rfl := List.mem_singleton.mp hu
    exact List.Subset.refl _

theorem newline_of_mem_fieldDocs {width : Nat} {p : Property}
    (hp : ∀ c ∈ p.description, c.LinksOnLines) :
    ∀ l ∈ fieldDocs width p.description, '\n' ∉ l.toList := by
  cases hd : p.description with
  | none => simp [fieldDocs]
  | some c => exact newline_of_mem_docLines (List.forall_mem_singleton.mpr (hp c hd))

/-- The documentation of a field is that of a description in the type of the struct. -/
theorem docs_of_mem_bodyOf {width : Nat} {inner : List (Option String)} {t : ApiType}
    {fields : List Field} (hbody : bodyOf width inner t = .struct fields) {f : Field}
    (hf : f ∈ fields) : ∃ p : Property, f.docs = fieldDocs width p.description ∧
      ∀ c ∈ p.description, c ∈ t.descriptions := by
  cases t with
  | record ps cs =>
    have hfields : fields = List.zipWith (fieldOf width) ps inner := by
      rw [bodyOf] at hbody
      cases hzip : List.zipWith (fieldOf width) ps inner with
      | nil =>
        rw [hzip] at hbody
        cases hbody
      | cons g gs =>
        rw [hzip] at hbody
        exact (Body.struct.inj hbody).symm
    rw [hfields, ← List.map_uncurry_zip_eq_zipWith] at hf
    obtain ⟨⟨p, i⟩, hpi, rfl⟩ := List.mem_map.mp hf
    refine ⟨p, rfl, fun c hc => ApiType.descriptions_property (List.of_mem_zip hpi).1 ?_⟩
    exact List.mem_append_left _ (by simpa using hc)
  | _ => cases hbody

theorem docsOnLines_bodyOf {width : Nat} {inner : List (Option String)} {t : ApiType}
    {docs : List String} (name : String)
    (hi : List.Forall₂ (fun u i => i.isSome = needsName u.2) (uses t) inner)
    (hdescriptions : ∀ c ∈ t.descriptions, c.LinksOnLines)
    (hdocs : uses t = [] → ∀ l ∈ docs, '\n' ∉ l.toList) :
    DocsOnLines ⟨name, docs, bodyOf width inner t⟩ := by
  cases t with
  | union ms cs => trivial
  | record ps cs =>
    cases ps with
    | nil => exact hdocs rfl
    | cons p ps =>
      cases hi with
      | @cons _ i _ inner hp hps =>
        intro f hf
        have hbody : bodyOf width (i :: inner) (.record (p :: ps) cs) =
            .struct (List.zipWith (fieldOf width) (p :: ps) (i :: inner)) := rfl
        obtain ⟨q, hdocs, hq⟩ := docs_of_mem_bodyOf hbody hf
        rw [hdocs]
        exact newline_of_mem_fieldDocs fun c hc => hdescriptions c (hq c hc)
  | _ => exact hdocs rfl

theorem docsOnLines_entryBody {width : Nat} {inner : List (Option String)} {t : ApiType}
    (name : String) (hi : List.Forall₂ (fun u i => i.isSome = needsName u.2) (entryUses t) inner)
    (ht : ∀ c ∈ t.verbatimDocs, c.LinksOnLines) :
    DocsOnLines ⟨name, entryDocs width t.comments, entryBody width inner t⟩ := by
  have hdescriptions : ∀ c ∈ t.descriptions, c.LinksOnLines :=
    fun c hc => ht c (t.descriptions_subset_verbatimDocs hc)
  cases t with
  | any cs => exact newline_of_mem_docLines ht
  | union ms cs => trivial
  | record ps cs =>
    have huses : List.Forall₂ (fun u i => i.isSome = needsName u.2) (uses (.record ps cs)) inner :=
      hi
    refine docsOnLines_bodyOf name huses hdescriptions fun hnone => ?_
    obtain rfl := List.map_eq_nil_iff.mp hnone
    exact newline_of_mem_docLines ht
  | _ => trivial

/-- A property of declarations that they have through what they document: the descriptions in a
type without comments of its own, and all of the documentation of an entry. -/
structure DocRule (width : Nat) (C : DocComment → Prop) (E : ApiType → Prop)
    (Q : Declaration → Prop) : Prop where
  descriptions : ∀ t, E t → ∀ c ∈ t.descriptions, C c
  nested : ∀ (name : String) (inner : List (Option String)) (t : ApiType),
    List.Forall₂ (fun u i => i.isSome = needsName u.2) (uses t) inner →
    (∀ c ∈ t.descriptions, C c) → Q ⟨name, [], bodyOf width inner t⟩
  entry : ∀ (name : String) (inner : List (Option String)) (t : ApiType),
    List.Forall₂ (fun u i => i.isSome = needsName u.2) (entryUses t) inner → E t →
    Q ⟨name, entryDocs width t.comments, entryBody width inner t⟩

theorem docRule_docsOnLines (width : Nat) : DocRule width DocComment.LinksOnLines
    (fun t => ∀ c ∈ t.verbatimDocs, c.LinksOnLines) DocsOnLines where
  descriptions := fun t ht c hc => ht c (t.descriptions_subset_verbatimDocs hc)
  nested := fun name _ _ hi hdescriptions => docsOnLines_bodyOf name hi hdescriptions (by simp)
  entry := fun name _ _ hi ht => docsOnLines_entryBody name hi ht

/-- Two runs that take the same names, the second of which documents nothing. The declarations of
the first have a property. -/
structure Undocuments (Q : Declaration → Prop) (documented bare : List Declaration × List String) :
    Prop where
  declarations : bare.1 = documented.1.map undocumented
  taken : bare.2 = documented.2
  docs : ∀ d ∈ documented.1, Q d

theorem undocuments_nil (Q : Declaration → Prop) (taken : List String) :
    Undocuments Q ([], taken) ([], taken) :=
  ⟨rfl, rfl, by simp⟩

theorem Undocuments.append {Q : Declaration → Prop} {ds ds' es es' : List Declaration}
    {t t' u u' : List String} (h : Undocuments Q (ds, t) (ds', t'))
    (h' : Undocuments Q (es, u) (es', u')) : Undocuments Q (ds ++ es, u) (ds' ++ es', u') := by
  refine ⟨?_, h'.taken, List.forall_mem_append.mpr ⟨h.docs, h'.docs⟩⟩
  have hds : ds' = ds.map undocumented := h.declarations
  have hes : es' = es.map undocumented := h'.declarations
  rw [hds, hes, List.map_append]

section Run

variable {width : Nat} (width' : Nat) {C : DocComment → Prop} {E : ApiType → Prop}
  {Q : Declaration → Prop}

theorem undocuments_declareMembers {us : List (String × ApiType)} {inner : List (Option String)}
    (hi : List.Forall₂ (fun u i => i.isSome = needsName u.2) us inner)
    (hu : ∀ u ∈ us, needsName u.2 = true → ∀ name taken,
      Undocuments Q ((declare width name [] u.2).run taken)
        ((declare width' name [] u.2.bare).run taken)) (taken : List String) :
    Undocuments Q ((declareMembers width inner (us.map Prod.snd)).run taken)
      ((declareMembers width' inner ((bareUses us).map Prod.snd)).run taken) := by
  induction hi generalizing taken with
  | nil => exact undocuments_nil Q taken
  | @cons u i us inner hui _ ih =>
    have hus := ih fun v hv => hu v (List.mem_cons_of_mem u hv)
    have hcons : (bareUses (u :: us)).map Prod.snd = u.2.bare :: (bareUses us).map Prod.snd := rfl
    rw [hcons, List.map_cons]
    cases i with
    | none =>
      rw [declareMembers_cons_none, declareMembers_cons_none]
      exact hus taken
    | some name =>
      have here := hu u List.mem_cons_self hui.symm name taken
      have rest : Undocuments Q
          ((declareMembers width inner (us.map Prod.snd)).run
            ((declare width name [] u.2).run taken).2)
          ((declareMembers width' inner ((bareUses us).map Prod.snd)).run
            ((declare width' name [] u.2.bare).run taken).2) := by
        rw [here.taken]
        exact hus _
      rw [run_declareMembers_cons_some, run_declareMembers_cons_some]
      exact here.append rest

theorem undocuments_declareWith (name : String) {docs : List String}
    {body body' : List (Option String) → Body} {us : List (String × ApiType)}
    (hbody : ∀ inner, body' inner = (body inner).undocumented)
    (hdocs : ∀ inner, List.Forall₂ (fun u i => i.isSome = needsName u.2) us inner →
      Q ⟨name, docs, body inner⟩)
    (hu : ∀ u ∈ us, needsName u.2 = true → ∀ name taken,
      Undocuments Q ((declare width name [] u.2).run taken)
        ((declare width' name [] u.2.bare).run taken)) (taken : List String) :
    Undocuments Q ((declareWith width name docs body us).run taken)
      ((declareWith width' name [] body' (bareUses us)).run taken) := by
  have hc := chosen_takeNames name us taken
  let chosen := (takeNames name us).run taken
  have hrun : (declareWith width name docs body us).run taken =
      (⟨name, docs, body chosen.1⟩ ::
        ((declareMembers width chosen.1 (us.map Prod.snd)).run chosen.2).1,
        ((declareMembers width chosen.1 (us.map Prod.snd)).run chosen.2).2) := rfl
  have hbare : (declareWith width' name [] body' (bareUses us)).run taken =
      (⟨name, [], body' chosen.1⟩ ::
        ((declareMembers width' chosen.1 ((bareUses us).map Prod.snd)).run chosen.2).1,
        ((declareMembers width' chosen.1 ((bareUses us).map Prod.snd)).run chosen.2).2) := by
    rw [declareWith, takeNames_bareUses]
    rfl
  have hrest := undocuments_declareMembers width' hc.forall₂ hu chosen.2
  rw [hrun, hbare]
  refine ⟨?_, hrest.taken, List.forall_mem_cons.mpr ⟨hdocs chosen.1 hc.forall₂, hrest.docs⟩⟩
  rw [List.map_cons, hrest.declarations, hbody]
  rfl

/-- A type is declared as its bare form is. -/
theorem undocuments_declare (hrule : DocRule width C E Q) (t : ApiType) : needsName t = true →
    (∀ c ∈ t.descriptions, C c) → ∀ name taken,
      Undocuments Q ((declare width name [] t).run taken)
        ((declare width' name [] t.bare).run taken) := by
  induction t using uses_induction with
  | h t ih =>
    intro hn hdescriptions name taken
    have hbody := fun inner => bodyOf_bare width width' inner (innermost t)
    rw [declare_eq width name [] hn, declare_eq width' name [] (by rw [needsName_bare, hn]),
      innermost_bare, uses_bare]
    rw [← descriptions_innermost] at hdescriptions
    refine undocuments_declareWith width' name hbody (fun inner hi => ?_) ?_ taken
    · exact hrule.nested name inner _ hi hdescriptions
    · exact fun u hu hn => ih u hu hn fun c hc => hdescriptions c (descriptions_uses hu hc)

theorem undocuments_declareEntry (hrule : DocRule width C E Q) (name : String) {t : ApiType}
    (ht : E t) (taken : List String) :
    Undocuments Q ((declareEntry width name t).run taken)
      ((declareEntry width' name t.bare).run taken) := by
  have hdocs : entryDocs width' t.bare.comments = [] := by
    rw [Printing.comments_bare]
    rfl
  have hbody := fun inner => entryBody_bare width width' inner t
  rw [declareEntry_eq, declareEntry_eq, hdocs, entryUses_bare]
  refine undocuments_declareWith width' name hbody
    (fun inner hi => hrule.entry name inner t hi ht) (fun u hu hn => ?_) taken
  exact undocuments_declare width' hrule u.2 hn fun c hc =>
    hrule.descriptions t ht c (descriptions_entryUses hu hc)

theorem undocuments_declareEntries (hrule : DocRule width C E Q) {es : List (String × ApiType)}
    (hes : ∀ e ∈ es, E e.2) (taken : List String) :
    Undocuments Q ((declareEntries width es).run taken)
      ((declareEntries width' (Printing.bareEntries es)).run taken) := by
  induction es generalizing taken with
  | nil => exact undocuments_nil Q taken
  | cons e es ih =>
    obtain ⟨name, t⟩ := e
    obtain ⟨ht, hes⟩ := List.forall_mem_cons.mp hes
    have here := undocuments_declareEntry width' hrule name ht taken
    have rest : Undocuments Q
        ((declareEntries width es).run ((declareEntry width name t).run taken).2)
        ((declareEntries width' (Printing.bareEntries es)).run
          ((declareEntry width' name t.bare).run taken).2) := by
      rw [here.taken]
      exact ih hes _
    exact here.append rest

end Run

end Declaration

end ApiTypings
