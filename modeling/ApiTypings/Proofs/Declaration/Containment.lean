import ApiTypings.Proofs.Declaration.Bodies
import ApiTypings.Proofs.Page.Shape
import Mathlib.Data.List.Nodup
import Mathlib.Logic.Relation

/-!
# Types of finite size

A value of a declared type holds values of all types that it mentions outside of lists and
boxes. Only a type that is declared for a use site, or the target of an alias, is mentioned so.
Since declarations for use sites follow the one that uses them, nothing but aliases can hold
itself.
-/
namespace ApiTypings.Declaration

open Page (isTypeName)
open Relation (TransGen)

/-- The names that a type mentions outside of lists and boxes. -/
def TypeExpr.valueNames : TypeExpr → List String
  | scalar s => [scalarName s]
  | name n => [n]
  | list _ => ["Vec"]
  | boxed _ => ["Box"]
  | option e => "Option" :: e.valueNames

/-- The types that a declaration is made of. -/
def Body.types : Body → List TypeExpr
  | struct fields => fields.map Field.type
  | placeholder => []
  | enum variants => variants.map Variant.payload
  | .alias target => [target]

def Body.valueNames (b : Body) : List String := b.types.flatMap TypeExpr.valueNames

/-- Whether the declaration `d` contains the declaration `e` by value. -/
def Contains (ds : List Declaration) (d e : Declaration) : Prop :=
  d ∈ ds ∧ e ∈ ds ∧ e.name ∈ d.body.valueNames

/-- The names in types that are not declared. -/
def builtinNames : List String := ["bool", "i64", "f64", "String", "Vec", "Box", "Option"]

/-- A name that begins with a capital and is none of the built-in ones. -/
structure Unreserved (n : String) : Prop where
  capital : ∃ c cs, n.toList = c :: cs ∧ c.isUpper = true
  not_reserved : n ∉ reservedNames

theorem Unreserved.not_builtin {n : String} (h : Unreserved n) : n ∉ builtinNames := by
  obtain ⟨c, cs, hn, hc⟩ := h.capital
  have hsmall : ∀ w ∈ ["bool", "i64", "f64"], n ≠ w := by
    rintro w hw rfl
    have hfirst : ∀ w ∈ ["bool", "i64", "f64"], w.toList.head?.all (!·.isUpper) = true := by
      decide
    have hsmall := hfirst n hw
    rw [hn, List.head?_cons, Option.all_some, hc] at hsmall
    exact Bool.false_ne_true hsmall
  intro hmem
  have hsplit : builtinNames = ["bool", "i64", "f64"] ++ ["String", "Vec", "Box", "Option"] := rfl
  rw [hsplit, List.mem_append] at hmem
  rcases hmem with hmem | hmem
  · exact hsmall n hmem rfl
  · have hsub : ∀ w ∈ ["String", "Vec", "Box", "Option"], w ∈ reservedNames := by decide
    exact h.not_reserved (hsub n hmem)

theorem unreserved_of_isTypeName {n : String} (h : isTypeName n.toList = true)
    (hn : n ∉ reservedNames) : Unreserved n :=
  ⟨Page.isUpper_head_of_isTypeName h, hn⟩

/-- A name made from an owner that is not reserved is not reserved, whatever the field. -/
theorem unreserved_freshName {owner : String} (ho : Unreserved owner) (field : String)
    (taken : List String) : Unreserved (freshName (owner ++ Text.camelCase field) taken) := by
  obtain ⟨c, cs, hc, hupper⟩ := ho.capital
  have hwords : ∀ w ∈ reservedNames, ∀ c ∈ w.toList.tail, c.isLower = true := by
    simp [reservedNames]
  constructor
  · obtain ⟨rest, hrest⟩ := exists_freshName_eq_append owner field taken
    exact ⟨c, cs ++ rest, by rw [hrest, hc, List.cons_append], hupper⟩
  · intro hmem
    have hne : owner ≠ freshName (owner ++ Text.camelCase field) taken :=
      fun he => ho.not_reserved (he ▸ hmem)
    exact freshName_ne taken (hwords _ hmem) (by simp [hc]) hne rfl

section Bodies

/-- At a use site that boxes, a name stands by value only if it was taken for that site. -/
theorem valueNames_expression {t : ApiType} {i : Option String} (hi : i.isSome = needsName t) :
    ∀ n ∈ (expression i true t).valueNames, n ∈ builtinNames ∨ n ∈ i := by
  intro n hn
  cases t with
  | scalar s =>
    obtain rfl := List.mem_singleton.mp hn
    exact Or.inl (by cases s <;> decide)
  | any cs =>
    obtain rfl := List.mem_singleton.mp hn
    exact Or.inl (by decide)
  | named m cs =>
    obtain rfl := List.mem_singleton.mp hn
    exact Or.inl (by decide)
  | union ms cs =>
    obtain ⟨m, rfl⟩ := Option.isSome_iff_exists.mp hi
    obtain rfl := List.mem_singleton.mp hn
    exact Or.inr rfl
  | array t cs =>
    obtain rfl := List.mem_singleton.mp hn
    exact Or.inl (by decide)
  | record ps cs =>
    obtain rfl := List.mem_singleton.mp hn
    exact Or.inl (by decide)

theorem valueNames_fieldOf (width : Nat) {p : Property} {i : Option String}
    (hi : i.isSome = needsName p.type) :
    ∀ n ∈ (fieldOf width p i).type.valueNames, n ∈ builtinNames ∨ n ∈ i := by
  have htype : (fieldOf width p i).type =
      if p.optional then .option (expression i true p.type) else expression i true p.type := rfl
  intro n hn
  rw [htype] at hn
  split at hn
  · rcases List.mem_cons.mp hn with rfl | hn
    · exact Or.inl (by decide)
    · exact valueNames_expression hi n hn
  · exact valueNames_expression hi n hn

/-- What is made of use sites one by one mentions by value what each of them mentions. -/
theorem valueNames_zipWith {α β : Type} {make : α → Option String → β} {type : β → TypeExpr}
    {needs : α → Bool} {xs : List α} {inner : List (Option String)}
    (hmake : ∀ x i, i.isSome = needs x →
      ∀ n ∈ (type (make x i)).valueNames, n ∈ builtinNames ∨ n ∈ i)
    (hi : List.Forall₂ (fun x i => i.isSome = needs x) xs inner) :
    ∀ n ∈ ((List.zipWith make xs inner).map type).flatMap TypeExpr.valueNames,
      n ∈ builtinNames ∨ some n ∈ inner := by
  induction hi with
  | nil => simp
  | @cons x i xs inner hx _ ih =>
    intro n hn
    rw [List.zipWith_cons_cons, List.map_cons, List.flatMap_cons, List.mem_append] at hn
    rcases hn with hn | hn
    · exact (hmake x i hx n hn).imp_right fun h => by simp [Option.mem_def.mp h]
    · exact (ih n hn).imp_right (List.mem_cons_of_mem i)

theorem types_structBody (fields : List Field) :
    (structBody fields).types = fields.map Field.type := by
  cases fields <;> rfl

/-- The declaration of a union or record mentions by value only what was named for it. -/
theorem valueNames_bodyOf (width : Nat) {t : ApiType} {inner : List (Option String)}
    (hi : List.Forall₂ (fun u i => i.isSome = needsName u.2) (uses t) inner) :
    ∀ n ∈ (bodyOf width inner t).valueNames, n ∈ builtinNames ∨ some n ∈ inner := by
  cases t with
  | union ms cs =>
    rw [uses, List.forall₂_map_left_iff] at hi
    exact valueNames_zipWith (fun m i => valueNames_expression) hi
  | record ps cs =>
    rw [uses, List.forall₂_map_left_iff] at hi
    rw [bodyOf, Body.valueNames, types_structBody]
    exact valueNames_zipWith (fun p i => valueNames_fieldOf width) hi
  | scalar s => simp [bodyOf, Body.valueNames, Body.types]
  | any cs => simp [bodyOf, Body.valueNames, Body.types]
  | named m cs => simp [bodyOf, Body.valueNames, Body.types]
  | array t cs => simp [bodyOf, Body.valueNames, Body.types]

end Bodies

/-- Whether a declaration is an entry that stands for another name. -/
def IsNameAlias (s : Schema) (d : Declaration) : Prop :=
  ∃ n cs, (d.name, .named n cs) ∈ s.entries ∧ d.body = .alias (.name n)

/-- Apart from aliases of names, declarations contain by value only what is declared after them
for a use site. -/
inductive Layered (s : Schema) : List Declaration → Prop
  | nil : Layered s []
  | cons {d : Declaration} {ds : List Declaration} (hname : Unreserved d.name)
    (hvalues : IsNameAlias s d ∨ ∀ n ∈ d.body.valueNames,
      n ∈ builtinNames ∨ n ∉ s.names ∧ n ∈ ds.map Declaration.name)
    (h : Layered s ds) : Layered s (d :: ds)

section Layered

variable {s : Schema}

theorem Layered.append {ds es : List Declaration} (h : Layered s ds) (h' : Layered s es) :
    Layered s (ds ++ es) := by
  induction h with
  | nil => exact h'
  | @cons d ds hname hvalues _ ih =>
    refine .cons hname (hvalues.imp_right fun hv n hn => ?_) ih
    have hsub : ds.map Declaration.name ⊆ (ds ++ es).map Declaration.name :=
      List.map_subset _ (List.subset_append_left ds es)
    exact (hv n hn).imp_right fun h => ⟨h.1, hsub h.2⟩

/-- Whether all declarations that a type gives rise to are in layers. -/
def DeclaresLayered (width : Nat) (s : Schema) (t : ApiType) : Prop :=
  ∀ (name : String) (docs taken : List String), Unreserved name → s.names ⊆ taken → taken.Nodup →
    Layered s ((declare width name docs t).run taken).1

variable {width : Nat}

theorem layered_declareMembers {us : List (String × ApiType)} {inner : List (Option String)}
    (hi : List.Forall₂ (fun u i => i.isSome = needsName u.2) us inner)
    (hn : ∀ i ∈ inner, ∀ n ∈ i, Unreserved n)
    (hu : ∀ u ∈ us, needsName u.2 = true → DeclaresLayered width s u.2)
    {taken : List String} (hk : s.names ⊆ taken) (hd : taken.Nodup) :
    Layered s ((declareMembers width inner (us.map Prod.snd)).run taken).1 := by
  induction hi generalizing taken with
  | nil => exact .nil
  | @cons u i us inner hui _ ih =>
    have hus := fun v hv => hu v (List.mem_cons_of_mem u hv)
    obtain ⟨hname, hnames⟩ := List.forall_mem_cons.mp hn
    rw [List.map_cons]
    cases i with
    | none =>
      rw [declareMembers_cons_none]
      exact ih hnames hus hk hd
    | some name =>
      have here := declares_declare width u.2 hui.symm name [] taken hd
      have hfirst := hu u List.mem_cons_self hui.symm name [] taken (hname name rfl) hk hd
      rw [run_declareMembers_cons_some]
      exact hfirst.append (ih hnames hus (List.Subset.trans hk here.subset) here.nodup)

theorem layered_declareWith {name : String} (hname : Unreserved name) (docs : List String)
    {body : List (Option String) → Body} {us : List (String × ApiType)}
    (hbody : ∀ inner, List.Forall₂ (fun u i => i.isSome = needsName u.2) us inner →
      IsNameAlias s ⟨name, docs, body inner⟩ ∨
        ∀ n ∈ (body inner).valueNames, n ∈ builtinNames ∨ some n ∈ inner)
    (hu : ∀ u ∈ us, needsName u.2 = true → DeclaresLayered width s u.2)
    {taken : List String} (hk : s.names ⊆ taken) (hd : taken.Nodup) :
    Layered s ((declareWith width name docs body us).run taken).1 := by
  have hc := chosen_takeNames name us taken
  have hnames := hc.forall_names (fun u _ => unreserved_freshName hname u.1) hk
  have hk' : s.names ⊆ ((takeNames name us).run taken).2 := by
    rw [hc.taken_eq]
    exact List.Subset.trans hk (List.subset_append_right _ taken)
  have hinner : List.Forall₂ (fun t i => i.isSome = needsName t) (us.map Prod.snd)
      ((takeNames name us).run taken).1 := List.forall₂_map_left_iff.mpr hc.forall₂
  have hrest := declares_declareMembers width hinner
    (fun t _ => declares_declare width t) (hc.nodup hd)
  refine .cons hname ((hbody _ hc.forall₂).imp_right fun hv n hn => ?_)
    (layered_declareMembers hc.forall₂ (fun i hi n hn => (hnames i hi n hn).1) hu hk' (hc.nodup hd))
  refine (hv n hn).imp_right fun hmem => ⟨(hnames _ hmem n rfl).2, hrest.own_subset ?_⟩
  exact List.reduceOption_mem_iff.mpr hmem

theorem declaresLayered (t : ApiType) :
    needsName t = true → DeclaresLayered width s t := by
  induction t using uses_induction with
  | h t ih =>
    intro hn name docs taken hname hk hd
    rw [declare_eq width name docs hn]
    exact layered_declareWith hname docs (fun inner hi => Or.inr (valueNames_bodyOf width hi))
      ih hk hd

theorem layered_declareEntry {name : String} {t : ApiType} (hmem : (name, t) ∈ s.entries)
    (hname : Unreserved name) {taken : List String} (hk : s.names ⊆ taken) (hd : taken.Nodup) :
    Layered s ((declareEntry width name t).run taken).1 := by
  rw [declareEntry_eq]
  refine layered_declareWith hname _ (fun inner hi => ?_) (fun u _ => declaresLayered u.2) hk hd
  cases t with
  | named n cs => exact Or.inl ⟨n, cs, hmem, rfl⟩
  | scalar s =>
    refine Or.inr fun n hn => Or.inl ?_
    obtain rfl : n = scalarName s := by simpa [entryBody, Body.valueNames, Body.types, expression,
      TypeExpr.valueNames] using hn
    cases s <;> decide
  | array t cs =>
    refine Or.inr fun n hn => Or.inl ?_
    obtain rfl : n = "Vec" := by simpa [entryBody, Body.valueNames, Body.types, expression,
      TypeExpr.valueNames] using hn
    decide
  | any cs => exact Or.inr (valueNames_bodyOf (t := .any cs) width hi)
  | union ms cs => exact Or.inr (valueNames_bodyOf (t := .union ms cs) width hi)
  | record ps cs => exact Or.inr (valueNames_bodyOf (t := .record ps cs) width hi)

theorem layered_declareEntries {es : List (String × ApiType)}
    (hes : ∀ e ∈ es, e ∈ s.entries ∧ Unreserved e.1) {taken : List String} (hk : s.names ⊆ taken)
    (hd : taken.Nodup) : Layered s ((declareEntries width es).run taken).1 := by
  induction es generalizing taken with
  | nil => exact .nil
  | cons e es ih =>
    obtain ⟨name, t⟩ := e
    obtain ⟨hname, hrest⟩ := List.forall_mem_cons.mp hes
    have here := declares_declareEntry width name t hd
    rw [run_declareEntries_cons]
    exact (layered_declareEntry hname.1 hname.2 hk hd).append
      (ih hrest (List.Subset.trans hk here.subset) here.nodup)

theorem Layered.unreserved {ds : List Declaration} (h : Layered s ds) :
    ∀ d ∈ ds, Unreserved d.name := by
  induction h with
  | nil => simp
  | cons hname _ _ ih => exact List.forall_mem_cons.mpr ⟨hname, ih⟩

theorem Layered.exists_later {ds : List Declaration} (h : Layered s ds) {d : Declaration}
    (hd : d ∈ ds) : IsNameAlias s d ∨ ∃ before after, ds = before ++ d :: after ∧
      ∀ n ∈ d.body.valueNames, n ∈ builtinNames ∨
        n ∉ s.names ∧ n ∈ after.map Declaration.name := by
  induction h with
  | nil => simp at hd
  | @cons e ds _ hvalues _ ih =>
    rcases List.mem_cons.mp hd with rfl | hd
    · exact hvalues.imp_right fun hv => ⟨[], ds, rfl, hv⟩
    · refine (ih hd).imp_right fun ⟨before, after, hds, hv⟩ => ⟨e :: before, after, ?_, hv⟩
      rw [hds, List.cons_append]

/-- What a declaration contains by value is no alias and stands behind it, unless the declaration
is an alias itself. -/
theorem Layered.step {ds : List Declaration} (h : Layered s ds)
    (hnodup : (ds.map Declaration.name).Nodup) {d e : Declaration} (hc : Contains ds d e)
    (hd : ¬ IsNameAlias s d) : ¬ IsNameAlias s e ∧ ds.idxOf d < ds.idxOf e := by
  obtain ⟨hdmem, hemem, hname⟩ := hc
  obtain ⟨before, after, rfl, hv⟩ := (h.exists_later hdmem).resolve_left hd
  obtain ⟨hnew, hlater⟩ := (hv e.name hname).resolve_left (h.unreserved e hemem).not_builtin
  constructor
  · rintro ⟨n, cs, hentry, -⟩
    exact hnew (List.mem_map_of_mem hentry)
  · obtain ⟨e', he', hee'⟩ := List.mem_map.mp hlater
    have hmem' : e' ∈ before ++ d :: after :=
      List.mem_append_right before (List.mem_cons_of_mem d he')
    obtain rfl : e' = e := List.inj_on_of_nodup_map hnodup hmem' hemem hee'
    obtain ⟨-, hrest, hdisjoint⟩ := List.nodup_append.mp hnodup.of_map
    have hbefore : d ∉ before := fun hb => hdisjoint d hb d List.mem_cons_self rfl
    have hbefore' : e' ∉ before :=
      fun hb => hdisjoint e' hb e' (List.mem_cons_of_mem d he') rfl
    have hne : d ≠ e' := fun heq => (List.nodup_cons.mp hrest).1 (heq ▸ he')
    rw [List.idxOf_append_of_notMem hbefore, List.idxOf_append_of_notMem hbefore',
      List.idxOf_cons_self, List.idxOf_cons_ne _ hne]
    omega

theorem Layered.path {ds : List Declaration} (h : Layered s ds)
    (hnodup : (ds.map Declaration.name).Nodup) {d e : Declaration}
    (hpath : TransGen (Contains ds) d e) (hd : ¬ IsNameAlias s d) :
    ¬ IsNameAlias s e ∧ ds.idxOf d < ds.idxOf e := by
  induction hpath with
  | single hc => exact h.step hnodup hc hd
  | tail _ hc ih =>
    obtain ⟨hmiddle, hlt⟩ := ih
    obtain ⟨hlast, hlt'⟩ := h.step hnodup hc hmiddle
    exact ⟨hlast, Nat.lt_trans hlt hlt'⟩

/-- Only aliases of names lie on cycles. -/
theorem Layered.isNameAlias_of_cycle {ds : List Declaration} (h : Layered s ds)
    (hnodup : (ds.map Declaration.name).Nodup) {d : Declaration}
    (hcycle : TransGen (Contains ds) d d) : IsNameAlias s d := by
  by_contra hd
  exact Nat.lt_irrefl _ (h.path hnodup hcycle hd).2

end Layered

theorem nodup_names_generate (s : Schema) (width : Nat) :
    ((Generator.new s width).generate.declarations.map Declaration.name).Nodup := by
  have hdeclares := declares_declareEntries width s.entries s.nodup
  obtain ⟨new, hnew, hp⟩ := hdeclares.exists_new
  have hnodup := hdeclares.nodup
  rw [hnew] at hnodup
  exact (hp.trans List.perm_append_comm).nodup_iff.mpr hnodup

theorem layered_generate {s : Schema} (hnames : ∀ n ∈ s.names, isTypeName n.toList = true ∧
    n ∉ reservedNames) (width : Nat) :
    Layered s (Generator.new s width).generate.declarations := by
  refine layered_declareEntries (fun e he => ⟨he, ?_⟩) (List.Subset.refl s.names) s.nodup
  obtain ⟨htype, hfree⟩ := hnames e.1 (List.mem_map_of_mem he)
  exact unreserved_of_isTypeName htype hfree

/-- Whether an entry is declared as an alias. -/
def IsAliasEntry : ApiType → Prop
  | .scalar _ | .named .. | .array .. => True
  | .any _ | .union .. | .record .. => False

theorem not_isAliasEntry_of_readSchema {document : List Markup.Node} {s : Schema}
    (h : Page.readSchema document = .ok s) : ∀ e ∈ s.entries, ¬ IsAliasEntry e.2 := by
  intro e he
  obtain ⟨name, t⟩ := e
  obtain ⟨-, htype⟩ := Page.isEntryType_of_readSchema h he
  cases htype <;> exact id

/-- Declared types have a finite size, whatever refers to what: a declaration that contains
itself by value, be it through others, is an entry that is no more than another name. Without
alias entries there is no such declaration, and a page yields no alias entries. -/
theorem isNameAlias_of_contains_itself (s : Schema) (width : Nat)
    (hnames : ∀ n ∈ s.names, isTypeName n.toList = true ∧ n ∉ reservedNames) :
    let ds := (Generator.new s width).generate.declarations
    (∀ d, TransGen (Contains ds) d d →
      ∃ n cs, (d.name, .named n cs) ∈ s.entries ∧ d.body = .alias (.name n)) ∧
      ((∀ e ∈ s.entries, ¬ IsAliasEntry e.2) → ∀ d, ¬ TransGen (Contains ds) d d) ∧
      (∀ document, Page.readSchema document = .ok s → ∀ e ∈ s.entries, ¬ IsAliasEntry e.2) := by
  intro ds
  have hcycle : ∀ d, TransGen (Contains ds) d d → IsNameAlias s d :=
    fun d => (layered_generate hnames width).isNameAlias_of_cycle (nodup_names_generate s width)
  refine ⟨hcycle, fun hplain d hd => ?_, fun document => not_isAliasEntry_of_readSchema⟩
  obtain ⟨n, cs, hentry, -⟩ := hcycle d hd
  exact hplain _ hentry trivial

/-- A record that refers to itself in all ways, and an alias that is only another name of itself. -/
def treeSchema : Schema where
  entries := [
    ("Loop", .named "Loop" []),
    ("Tree", .record [
      ⟨"parent", .named "Tree" [], true, none⟩,
      ⟨"children", .array (.named "Tree" []) [], false, none⟩,
      ⟨"value", .union [.named "Tree" [], .union [.named "Loop" []] [], .record [] []] [], true,
        none⟩] [])]
  nodup := by decide

theorem isNameAlias_of_contains_itself_treeSchema :
    (∀ n ∈ treeSchema.names, isTypeName n.toList = true ∧ n ∉ reservedNames) ∧
      (let ds := (Generator.new treeSchema 72).generate.declarations
      Contains ds ⟨"Loop", [], .alias (.name "Loop")⟩ ⟨"Loop", [], .alias (.name "Loop")⟩ ∧
        ∀ d, TransGen (Contains ds) d d → d.name = "Loop") := by
  have hnames : ∀ n ∈ treeSchema.names, isTypeName n.toList = true ∧ n ∉ reservedNames := by
    decide
  have hloop : ⟨"Loop", [], .alias (.name "Loop")⟩ ∈
      (Generator.new treeSchema 72).generate.declarations := by decide
  refine ⟨hnames, ⟨hloop, hloop, List.mem_singleton.mpr rfl⟩, fun d hd => ?_⟩
  obtain ⟨n, cs, hentry, -⟩ := (isNameAlias_of_contains_itself treeSchema 72 hnames).1 d hd
  simp only [treeSchema, List.mem_cons, Prod.mk.injEq, List.not_mem_nil, or_false] at hentry
  rcases hentry with ⟨hname, -⟩ | ⟨-, hrecord⟩
  · exact hname
  · cases hrecord

end ApiTypings.Declaration
