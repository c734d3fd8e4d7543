import ApiTypings.Proofs.Declaration.Repeated
import ApiTypings.Proofs.Page.Recovery

/-!
# The variants of enums

Every union in a schema is declared as one enum, with a variant for each member in order. A
variant is named after its member alone. So an enum has two variants of one name exactly if its
union has two members of one name, which an accepted page can ask for.
-/
namespace ApiTypings

mutual

/-- The members of every union in a type, at any depth, in the order of their declarations. -/
def ApiType.unions : ApiType → List (List ApiType)
  | .scalar _ => []
  | .any _ => []
  | .named _ _ => []
  | .union members _ => members :: memberUnions members
  | .array item _ => item.unions
  | .record properties _ => propertyUnions properties

def memberUnions : List ApiType → List (List ApiType)
  | [] => []
  | t :: ts => t.unions ++ memberUnions ts

def propertyUnions : List Property → List (List ApiType)
  | [] => []
  | ⟨_, t, _, _⟩ :: ps => t.unions ++ propertyUnions ps

end

def Schema.unions (s : Schema) : List (List ApiType) := s.entries.flatMap fun e => e.2.unions

namespace Declaration

/-- The unions in the types of use sites. -/
def usedUnions (us : List (String × ApiType)) : List (List ApiType) :=
  us.flatMap fun u => u.2.unions

/-- The members of a type that is a union itself. -/
def ownUnion : ApiType → List (List ApiType)
  | .union ms _ => [ms]
  | _ => []

theorem memberUnions_eq (ms : List ApiType) :
    memberUnions ms = usedUnions (uses (.union ms [])) := by
  induction ms with
  | nil => rfl
  | cons m ms ih =>
    rw [memberUnions, ih]
    rfl

theorem propertyUnions_eq (ps : List Property) :
    propertyUnions ps = usedUnions (uses (.record ps [])) := by
  induction ps with
  | nil => rfl
  | cons p ps ih =>
    obtain ⟨n, t, o, d⟩ := p
    rw [propertyUnions, ih]
    rfl

theorem unions_of_not_needsName {t : ApiType} (h : needsName t = false) : t.unions = [] := by
  induction t using ApiType.kinds with
  | scalar s => rfl
  | any cs => simp [needsName] at h
  | named n cs => rfl
  | union ms cs ih => simp [needsName] at h
  | array t cs ih => exact ih h
  | record ps cs ih => simp [needsName] at h

/-- The unions in a type are that of its innermost item and those which that one uses. -/
theorem unions_eq (t : ApiType) :
    t.unions = ownUnion (innermost t) ++ usedUnions (uses (innermost t)) := by
  induction t using ApiType.kinds with
  | scalar s => rfl
  | any cs => rfl
  | named n cs => rfl
  | union ms cs ih => exact congrArg (ms :: ·) (memberUnions_eq ms)
  | array t cs ih => exact ih
  | record ps cs ih => exact propertyUnions_eq ps

theorem unions_entry (t : ApiType) : t.unions = ownUnion t ++ usedUnions (entryUses t) := by
  have hitem : ∀ t : ApiType, t.unions = usedUnions [("item", t)] :=
    fun t => (List.append_nil t.unions).symm
  cases t with
  | any cs => rfl
  | union ms cs => exact congrArg (ms :: ·) (memberUnions_eq ms)
  | record ps cs => exact propertyUnions_eq ps
  | _ => exact hitem _

/-- The names of the variants of a declaration that is an enum. -/
def variantNames? (d : Declaration) : Option (List String) :=
  match d.body with
  | .enum vs => some (vs.map Variant.name)
  | _ => none

/-- The names of the variants of each enum among declarations. -/
def enumNames (ds : List Declaration) : List (List String) := ds.filterMap variantNames?

theorem enumNames_append (ds es : List Declaration) :
    enumNames (ds ++ es) = enumNames ds ++ enumNames es :=
  List.filterMap_append

/-- The names that variants have for each of several unions. -/
def memberNames (us : List (List ApiType)) : List (List String) := us.map (List.map variantName)

theorem memberNames_append (us vs : List (List ApiType)) :
    memberNames (us ++ vs) = memberNames us ++ memberNames vs :=
  List.map_append

theorem names_variants {ms : List ApiType} {inner : List (Option String)}
    (h : ms.length = inner.length) :
    (List.zipWith variantOf ms inner).map Variant.name = ms.map variantName := by
  induction ms generalizing inner with
  | nil => rfl
  | cons m ms ih =>
    cases inner with
    | nil => simp at h
    | cons i inner =>
      rw [List.zipWith_cons_cons, List.map_cons, List.map_cons, ih (by simpa using h)]
      rfl

/-- A body is an enum exactly for a union, and then its variants are those of the members. -/
theorem enumNames_bodyOf {t : ApiType} {inner : List (Option String)} (width : Nat) (name : String)
    (docs : List String) (h : (uses t).length = inner.length) (ds : List Declaration) :
    enumNames (⟨name, docs, bodyOf width inner t⟩ :: ds) =
      memberNames (ownUnion t) ++ enumNames ds := by
  cases t with
  | union ms cs =>
    have hlen : ms.length = inner.length := by simpa [uses] using h
    have hnames : variantNames? ⟨name, docs, bodyOf width inner (.union ms cs)⟩ =
        some (ms.map variantName) := congrArg some (names_variants hlen)
    rw [enumNames, List.filterMap_cons, hnames]
    rfl
  | record ps cs =>
    have hbody : variantNames? ⟨name, docs, bodyOf width inner (.record ps cs)⟩ = none := by
      rw [bodyOf]
      cases List.zipWith (fieldOf width) ps inner <;> rfl
    rw [enumNames, List.filterMap_cons, hbody]
    rfl
  | _ => rfl

theorem enumNames_entryBody {t : ApiType} {inner : List (Option String)} (width : Nat)
    (name : String) (docs : List String) (h : (entryUses t).length = inner.length)
    (ds : List Declaration) :
    enumNames (⟨name, docs, entryBody width inner t⟩ :: ds) =
      memberNames (ownUnion t) ++ enumNames ds := by
  cases t with
  | any cs => rfl
  | union ms cs => exact enumNames_bodyOf (t := .union ms cs) width name docs h ds
  | record ps cs => exact enumNames_bodyOf (t := .record ps cs) width name docs h ds
  | _ => rfl

section Run

variable (width : Nat)

theorem enumNames_declareMembers {us : List (String × ApiType)} {inner : List (Option String)}
    (hi : List.Forall₂ (fun u i => i.isSome = needsName u.2) us inner)
    (hu : ∀ u ∈ us, needsName u.2 = true → ∀ name docs taken,
      enumNames ((declare width name docs u.2).run taken).1 = memberNames u.2.unions)
    (taken : List String) :
    enumNames ((declareMembers width inner (us.map Prod.snd)).run taken).1 =
      memberNames (usedUnions us) := by
  induction hi generalizing taken with
  | nil => rfl
  | @cons u i us inner hui _ ih =>
    have hus := ih fun v hv => hu v (List.mem_cons_of_mem u hv)
    have hunions : usedUnions (u :: us) = u.2.unions ++ usedUnions us := rfl
    rw [List.map_cons, hunions, memberNames_append]
    cases i with
    | none =>
      rw [declareMembers_cons_none, hus, unions_of_not_needsName hui.symm]
      rfl
    | some name =>
      have here := hu u List.mem_cons_self hui.symm name [] taken
      simp only [run_declareMembers_cons_some, enumNames_append, here, hus]

theorem enumNames_declareWith {name : String} {docs : List String}
    {body : List (Option String) → Body} {us : List (String × ApiType)} {own : List (List ApiType)}
    (hbody : ∀ inner ds, us.length = inner.length →
      enumNames (⟨name, docs, body inner⟩ :: ds) = memberNames own ++ enumNames ds)
    (hu : ∀ u ∈ us, needsName u.2 = true → ∀ name docs taken,
      enumNames ((declare width name docs u.2).run taken).1 = memberNames u.2.unions)
    (taken : List String) :
    enumNames ((declareWith width name docs body us).run taken).1 =
      memberNames (own ++ usedUnions us) := by
  have hc := chosen_takeNames name us taken
  rw [memberNames_append, ← enumNames_declareMembers width hc.forall₂ hu]
  exact hbody _ _ hc.forall₂.length_eq

/-- The enums among the declarations of a type are those of its unions. -/
theorem enumNames_declare (t : ApiType) : needsName t = true → ∀ name docs taken,
    enumNames ((declare width name docs t).run taken).1 = memberNames t.unions := by
  induction t using uses_induction with
  | h t ih =>
    intro hn name docs taken
    rw [declare_eq width name docs hn, unions_eq]
    exact enumNames_declareWith width (fun inner ds h => enumNames_bodyOf width name docs h ds) ih
      taken

theorem enumNames_declareEntry (name : String) (t : ApiType) (taken : List String) :
    enumNames ((declareEntry width name t).run taken).1 = memberNames t.unions := by
  rw [declareEntry_eq, unions_entry]
  exact enumNames_declareWith width (fun inner ds h => enumNames_entryBody width name _ h ds)
    (fun u _ => enumNames_declare width u.2) taken

theorem enumNames_declareEntries (es : List (String × ApiType)) (taken : List String) :
    enumNames ((declareEntries width es).run taken).1 =
      memberNames (es.flatMap fun e => e.2.unions) := by
  induction es generalizing taken with
  | nil => rfl
  | cons e es ih =>
    obtain ⟨name, t⟩ := e
    rw [run_declareEntries_cons, List.flatMap_cons, memberNames_append]
    simp only [enumNames_append, enumNames_declareEntry, ih]

end Run

/-- However often a schema is declared, its enums are those of its unions, once for each run. -/
theorem enumNames_afterRuns (s : Schema) (width n : Nat) :
    enumNames (Generator.afterRuns s width n).declarations =
      (List.replicate n (memberNames s.unions)).flatten := by
  induction n with
  | zero => rfl
  | succ n ih =>
    rw [Generator.declarations_afterRuns_succ, enumNames_append, ih, enumNames_declareEntries,
      List.replicate_succ', List.flatten_append, List.flatten_singleton]
    rfl

theorem forall_enums_iff {P : List String → Prop} (ds : List Declaration) :
    (∀ d ∈ ds, ∀ vs, d.body = .enum vs → P (vs.map Variant.name)) ↔
      ∀ names ∈ enumNames ds, P names := by
  constructor
  · intro h names hnames
    obtain ⟨d, hd, hvariants⟩ := List.mem_filterMap.mp hnames
    unfold variantNames? at hvariants
    split at hvariants
    · next vs hbody =>
      obtain rfl := Option.some.inj hvariants
      exact h d hd vs hbody
    · cases hvariants
  · intro h d hd vs hbody
    refine h _ (List.mem_filterMap.mpr ⟨d, hd, ?_⟩)
    rw [variantNames?, hbody]

/-! ### Members that get the same name -/

def scalarTitle : Scalar → String
  | .boolean => "Boolean"
  | .integer => "Integer"
  | .float => "Float"
  | .string => "String"

/-- Whether two members of a union are told apart by name: two scalars are of different kinds, two
references are spelled differently, and no reference is spelled like the title of a scalar. -/
def ToldApart : ApiType → ApiType → Prop
  | .scalar s, .scalar s' => s ≠ s'
  | .named n _, .named m _ => n ≠ m
  | .scalar s, .named n _ => n ≠ scalarTitle s
  | .named n _, .scalar s => n ≠ scalarTitle s
  | _, _ => True

theorem scalarTitle_injective {s s' : Scalar} (h : scalarTitle s = scalarTitle s') : s = s' := by
  revert h
  cases s <;> cases s' <;> decide

theorem variantName_scalar (s : Scalar) : variantName (.scalar s) = scalarTitle s := by
  cases s <;> rfl

theorem variantName_ne_iff {known : String → Prop} {t u : ApiType} (ht : Page.IsItem known t)
    (hu : Page.IsItem known u) : variantName t ≠ variantName u ↔ ToldApart t u := by
  cases ht with
  | scalar s =>
    cases hu with
    | scalar s' =>
      rw [variantName_scalar, variantName_scalar]
      exact ⟨fun h hs => h (congrArg scalarTitle hs), fun h hs => h (scalarTitle_injective hs)⟩
    | named _ =>
      rw [variantName_scalar]
      exact ne_comm
  | named _ =>
    cases hu with
    | scalar s' =>
      rw [variantName_scalar]
      exact Iff.rfl
    | named _ => exact Iff.rfl

theorem nodup_names_iff {known : String → Prop} {ts : List ApiType}
    (h : ∀ t ∈ ts, Page.IsItem known t) :
    (ts.map variantName).Nodup ↔ ts.Pairwise ToldApart := by
  rw [List.Nodup, List.pairwise_map]
  exact List.Pairwise.iff_of_mem fun ht hu => variantName_ne_iff (h _ ht) (h _ hu)

end Declaration

namespace Page

open Markup

section Known

variable {known : String → Prop} {t : ApiType}

theorem IsItem.unions (h : IsItem known t) : t.unions = [] := by
  cases h <;> rfl

theorem memberUnions_of_isItem {ts : List ApiType} (h : ∀ t ∈ ts, IsItem known t) :
    memberUnions ts = [] := by
  induction ts with
  | nil => rfl
  | cons t ts ih =>
    obtain ⟨ht, hts⟩ := List.forall_mem_cons.mp h
    rw [memberUnions, ht.unions, ih hts, List.append_nil]

theorem IsCellType.isItem_of_mem_unions (h : IsCellType known t) :
    ∀ ts ∈ t.unions, ∀ u ∈ ts, IsItem known u := by
  induction h with
  | item h => simp [h.unions]
  | union hlen h => simpa [ApiType.unions, memberUnions_of_isItem h] using h
  | array h ih => exact ih

/-- The members of all unions on an accepted page are scalars and names. -/
theorem IsEntryType.isItem_of_mem_unions (h : IsEntryType known t) :
    ∀ ts ∈ t.unions, ∀ u ∈ ts, IsItem known u := by
  cases h with
  | any cs => simp [ApiType.unions]
  | union h cs =>
    have hitems := forall_isItem_of_names h
    simpa [ApiType.unions, memberUnions_of_isItem hitems] using hitems
  | record h cs =>
    intro ts hts
    rw [ApiType.unions, Declaration.propertyUnions_eq] at hts
    obtain ⟨u, hu, hts⟩ := List.mem_flatMap.mp hts
    obtain ⟨p, hp, rfl⟩ := List.mem_map.mp hu
    exact (h p hp).2.isItem_of_mem_unions ts hts

end Known

/-! ### A page that names a kind twice -/

def flagHeader : Node :=
  plainElement "tr" [plainElement "th" [.text "Field"], plainElement "th" [.text "Type"]]

def flagRow : Node :=
  plainElement "tr" [plainElement "td" [.text "flag"], plainElement "td" [.text "Boolean or True"]]

/-- A property whose kind is named by both of its words. -/
def flagPage : List Node :=
  [plainElement "h4" [.text "Chat"],
    plainElement "table" [plainElement "thead" [flagHeader], plainElement "tbody" [flagRow]]]

def flagProperty : Property := ⟨"flag", .union [.scalar .boolean, .scalar .boolean] [], false, none⟩

def flagSchema : Schema := Schema.ofList [("Chat", .record [flagProperty] [])]

theorem isRow_flagRow : IsRow [.field, .type] flagProperty flagRow where
  tag := rfl
  cells := by unfold HoldsNoTableParts AllNodes; decide
  name := by decide
  contents := by
    have hboolean : SpellsItem (.scalar .boolean) (signsOf "Boolean") := .scalar rfl
    have htrue : SpellsItem (.scalar .boolean) (signsOf "True") := .scalar rfl
    have htype : SpellsType flagProperty.type
        (signsOf "Boolean" ++ signsOf " or " ++ signsOf "True") :=
      ⟨0, _, _, by simp, .cons hboolean (.cons htrue .nil), rfl,
        by rw [List.intercalate_cons_cons, List.intercalate_singleton]; rfl⟩
    exact .cons rfl (.cons ⟨_, rfl, htype⟩ .nil)
  description := fun _ => rfl
  optional := by simp [flagProperty]

theorem readSchema_flagPage : readSchema flagPage = .ok flagSchema := by
  have hheader : IsHeader [.field, .type] flagHeader :=
    ⟨rfl, by unfold HoldsNoTableParts AllNodes; decide, .cons rfl (.cons rfl .nil),
      ⟨.field, by decide, rfl⟩, by decide⟩
  have htable : IsPropertyTable [flagProperty] (plainElement "table"
      [plainElement "thead" [flagHeader], plainElement "tbody" [flagRow]]) :=
    ⟨rfl, _, _, _, _, rfl, rfl, rfl, hheader, rfl, .cons isRow_flagRow .nil⟩
  have hsection : IsSection "Chat" (.record [flagProperty] [])
      (plainElement "h4" [.text "Chat"]) [plainElement "table"
        [plainElement "thead" [flagHeader], plainElement "tbody" [flagRow]]] :=
    ⟨rfl, rfl, by decide, by unfold Quiet AllNodes; decide, [], _, rfl, by simp,
      .table htable⟩
  refine readSchema_of_mapM ?_ (by decide) (by decide)
  rw [typeHeadings_eq]
  exact mapM_readEntry_eq (.entry hsection .nil) []

end Page

namespace Declaration

open Markup (Node)
open Page (readSchema eventsPage eventsEntries readSchema_events flagPage flagSchema)

/-- However often the schema of an accepted page is declared, the variants of every enum have
distinct names exactly if the members of every union are told apart by name. -/
theorem nodup_variants_iff {document : List Node} {s : Schema} (h : readSchema document = .ok s)
    (width n : Nat) :
    (∀ d ∈ (Generator.afterRuns s width (n + 1)).declarations, ∀ vs, d.body = .enum vs →
      (vs.map Variant.name).Nodup) ↔ ∀ ts ∈ s.unions, ts.Pairwise ToldApart := by
  have hitems : ∀ ts ∈ s.unions, ∀ u ∈ ts, Page.IsItem (· ∈ s.names) u := by
    intro ts hts
    obtain ⟨e, he, hts⟩ := List.mem_flatMap.mp hts
    exact (Page.isEntryType_of_readSchema h he).2.isItem_of_mem_unions ts hts
  rw [forall_enums_iff, enumNames_afterRuns]
  simp only [List.mem_flatten, List.mem_replicate]
  constructor
  · intro hnodup ts hts
    refine (nodup_names_iff (hitems ts hts)).mp (hnodup _ ⟨_, ⟨by omega, rfl⟩, ?_⟩)
    exact List.mem_map_of_mem hts
  · rintro happart names ⟨_, ⟨-, rfl⟩, hnames⟩
    obtain ⟨ts, hts, rfl⟩ := List.mem_map.mp hnames
    exact (nodup_names_iff (hitems ts hts)).mpr (happart ts hts)

theorem nodup_variants_iff_events :
    readSchema (eventsPage .float) = .ok (Schema.ofList (eventsEntries .float)) ∧
      (∀ ts ∈ (Schema.ofList (eventsEntries .float)).unions, ts.Pairwise ToldApart) ∧
      ∀ d ∈ (Generator.afterRuns (Schema.ofList (eventsEntries .float)) 72 1).declarations,
        ∀ vs, d.body = .enum vs → (vs.map Variant.name).Nodup := by
  have happart : ∀ ts ∈ (Schema.ofList (eventsEntries .float)).unions, ts.Pairwise ToldApart := by
    have hunions : (Schema.ofList (eventsEntries .float)).unions =
        [[.named "Chat" [], .scalar .float], [.named "Update" [], .named "Empty" []]] := rfl
    simp [hunions, ToldApart, scalarTitle]
  exact ⟨readSchema_events .float, happart,
    (nodup_variants_iff (readSchema_events .float) 72 0).mpr happart⟩

/-- Both members are boolean, and so are the names of both variants. -/
theorem repeated_variants_flagPage : readSchema flagPage = .ok flagSchema ∧
    ¬∀ d ∈ (Generator.new flagSchema 72).generate.declarations, ∀ vs, d.body = .enum vs →
      (vs.map Variant.name).Nodup := by
  refine ⟨Page.readSchema_flagPage, fun h => ?_⟩
  have hmem : ⟨"ChatFlag", [],
      .enum [⟨"Boolean", .scalar .boolean⟩, ⟨"Boolean", .scalar .boolean⟩]⟩ ∈
      (Generator.new flagSchema 72).generate.declarations := by
    decide +kernel
  exact absurd (h _ hmem _ rfl) (by decide)

end Declaration

end ApiTypings
