import ApiTypings.Page.Reading
import ApiTypings.Proofs.Declaration.Bodies
import ApiTypings.Proofs.Schema.Closed
import Mathlib.Data.List.Nodup

/-!
# Declarations keep the schema

Every use of a type without a name of its own resolves to the declaration made for that use,
and to no entry. So the declarations of a closed schema read back as its types, in order.
-/
namespace ApiTypings.Declaration

open Page (isTypeName isIdentifier isIdentifierChar identifierChars_of_isIdentifier)

variable {width : Nat} {known : List String} {env : List Declaration}

theorem Chosen.declarable {owner : String} {us : List (String × ApiType)}
    {taken taken' : List String} {inner : List (Option String)}
    (h : Chosen owner us taken inner taken') (ho : IsDeclarable owner)
    (hu : ∀ u ∈ us, ∀ c ∈ u.1.toList, isIdentifierChar c = true) (hk : known ⊆ taken) :
    ∀ i ∈ inner, ∀ n ∈ i, IsDeclarable n ∧ n ∉ known :=
  h.forall_names (fun u hmem taken => isDeclarable_freshName taken ho (hu u hmem)) hk

/-- The first declaration made for a type is its own and reads as its innermost item, in any
surroundings that hold the other declarations made for it. -/
def ReadsBack (width : Nat) (known : List String) (env : List Declaration) (t : ApiType) : Prop :=
  ∀ (name : String) (docs taken : List String) (fuel : Nat), IsDeclarable name → known ⊆ taken →
    taken.Nodup → ((declare width name docs t).run taken).1.tail ⊆ env →
    ((declare width name docs t).run taken).1.tail.length ≤ fuel →
    ∃ d, ((declare width name docs t).run taken).1.head? = some d ∧ d.name = name ∧
      readBody (resolve known env fuel) d.body = some (declaredOutline (innermost t))

/-- Among declarations with distinct names, a name taken for a type is found again. -/
theorem ReadsBack.resolve {t : ApiType} (h : ReadsBack width known env t)
    (henv : (env.map Declaration.name).Nodup) {name : String} {taken : List String} {fuel : Nat}
    (hname : IsDeclarable name) (hnew : name ∉ known) (hk : known ⊆ taken) (hd : taken.Nodup)
    (hsub : ((declare width name [] t).run taken).1 ⊆ env)
    (hlen : ((declare width name [] t).run taken).1.length ≤ fuel) :
    resolve known env fuel name = some (declaredOutline (innermost t)) := by
  generalize hds : ((declare width name [] t).run taken).1 = ds at hsub hlen
  have hr := h name [] taken
  rw [hds] at hr
  have htail : ds.tail ⊆ env := fun d hd => hsub (List.mem_of_mem_tail hd)
  obtain ⟨d, hhead, -⟩ := hr ds.tail.length hname hk hd htail (Nat.le_refl _)
  obtain ⟨rest, rfl⟩ := List.head?_eq_some_iff.mp hhead
  cases fuel with
  | zero => simp at hlen
  | succ fuel =>
    obtain ⟨e, he, hen, hbody⟩ := hr fuel hname hk hd htail (by simpa using hlen)
    obtain rfl : d = e := by simpa using he
    have hnot : d.name ∉ known := by rwa [hen]
    rw [← hen, resolve_declared henv (hsub List.mem_cons_self) hnot fuel]
    exact hbody

theorem resolved_declareMembers (henv : (env.map Declaration.name).Nodup)
    {us : List (String × ApiType)} {inner : List (Option String)}
    (hi : List.Forall₂ (fun u i => i.isSome = needsName u.2) us inner)
    (hn : ∀ i ∈ inner, ∀ n ∈ i, IsDeclarable n ∧ n ∉ known)
    (hu : ∀ u ∈ us, needsName u.2 = true → ReadsBack width known env u.2)
    {taken : List String} {fuel : Nat} (hk : known ⊆ taken) (hd : taken.Nodup)
    (hsub : ((declareMembers width inner (us.map Prod.snd)).run taken).1 ⊆ env)
    (hlen : ((declareMembers width inner (us.map Prod.snd)).run taken).1.length ≤ fuel) :
    List.Forall₂ (fun u => Resolved (resolve known env fuel) u.2) us inner := by
  induction hi generalizing taken with
  | nil => exact .nil
  | @cons u i us inner hui _ ih =>
    have hn' := fun j hj => hn j (List.mem_cons_of_mem i hj)
    have hu' := fun v hv => hu v (List.mem_cons_of_mem u hv)
    rw [List.map_cons] at hsub hlen
    cases i with
    | none =>
      rw [declareMembers_cons_none] at hsub hlen
      exact .cons ⟨hui, by simp⟩ (ih hn' hu' hk hd hsub hlen)
    | some name =>
      have hneeds : needsName u.2 = true := hui.symm
      obtain ⟨hname, hnew⟩ := hn (some name) List.mem_cons_self name rfl
      have here := declares_declare width u.2 hneeds name [] taken hd
      rw [run_declareMembers_cons_some] at hsub hlen
      simp only [List.length_append] at hlen
      have hsub₁ := (List.append_subset.mp hsub).1
      have hsub₂ := (List.append_subset.mp hsub).2
      refine .cons ⟨hui, ?_⟩
        (ih hn' hu' (List.Subset.trans hk here.subset) here.nodup hsub₂ (by omega))
      rintro n hn
      obtain rfl := Option.some.inj hn
      exact ⟨hname, (hu u List.mem_cons_self hneeds).resolve henv hname hnew hk hd hsub₁ (by omega)⟩

theorem resolved_declareWith (henv : (env.map Declaration.name).Nodup) {name : String}
    (hname : IsDeclarable name) (docs : List String) (body : List (Option String) → Body)
    {us : List (String × ApiType)} (hf : ∀ u ∈ us, ∀ c ∈ u.1.toList, isIdentifierChar c = true)
    (hu : ∀ u ∈ us, needsName u.2 = true → ReadsBack width known env u.2)
    {taken : List String} (fuel : Nat) (hk : known ⊆ taken) (hd : taken.Nodup)
    (hsub : ((declareWith width name docs body us).run taken).1.tail ⊆ env)
    (hlen : ((declareWith width name docs body us).run taken).1.tail.length ≤ fuel) :
    ∃ inner, ((declareWith width name docs body us).run taken).1.head? =
        some ⟨name, docs, body inner⟩ ∧
      List.Forall₂ (fun u => Resolved (resolve known env fuel) u.2) us inner := by
  have hc := chosen_takeNames name us taken
  have hk' : known ⊆ ((takeNames name us).run taken).2 := by
    rw [hc.taken_eq]
    exact List.Subset.trans hk (List.subset_append_right _ taken)
  exact ⟨((takeNames name us).run taken).1, rfl,
    resolved_declareMembers henv hc.forall₂ (hc.declarable hname hf hk) hu hk' (hc.nodup hd)
      hsub hlen⟩

theorem readsBack (henv : (env.map Declaration.name).Nodup) (t : ApiType) :
    needsName t = true → WellNamed known t → ReadsBack width known env t := by
  induction t using uses_induction with
  | h t ih =>
    intro hn hw name docs taken fuel hname hk hd hsub hlen
    rw [declare_eq width name docs hn] at hsub hlen ⊢
    have hu := hw.innermost.uses
    obtain ⟨inner, hhead, hi⟩ := resolved_declareWith henv hname docs _ (fun u h => (hu u h).2)
      (fun u h hneeds => ih u h hneeds (hu u h).1) fuel hk hd hsub hlen
    exact ⟨_, hhead, rfl, readBody_bodyOf (fun r hr => resolve_known hr env fuel) width hn hw hi⟩

theorem WellNamed.entryUses {t : ApiType} (h : WellNamed known t) :
    ∀ u ∈ entryUses t, WellNamed known u.2 ∧ ∀ c ∈ u.1.toList, isIdentifierChar c = true := by
  have hitem : ∀ c ∈ "item".toList, isIdentifierChar c = true :=
    identifierChars_of_isIdentifier (by decide)
  cases t with
  | scalar s => exact List.forall_mem_singleton.mpr ⟨h, hitem⟩
  | named n cs => exact List.forall_mem_singleton.mpr ⟨h, hitem⟩
  | array t cs => exact List.forall_mem_singleton.mpr ⟨h, hitem⟩
  | any cs => exact h.uses
  | union ms cs => exact h.uses
  | record ps cs => exact h.uses

theorem readBody_alias {find : String → Option ApiType}
    (hfind : ∀ r ∈ known, find r = some (.named r [])) {t : ApiType} (hw : WellNamed known t)
    {inner : List (Option String)}
    (hi : List.Forall₂ (fun u : String × ApiType => Resolved find u.2) [("item", t)] inner) :
    readBody find (.alias (expression inner.head?.join false t)) = some (declaredOutline t) := by
  obtain ⟨i, rest, hitem, -, rfl⟩ := List.forall₂_cons_left_iff.mp hi
  exact readPayload_expression hfind hw hitem false

theorem readBody_entryBody {find : String → Option ApiType}
    (hfind : ∀ r ∈ known, find r = some (.named r [])) {t : ApiType} (hw : WellNamed known t)
    {inner : List (Option String)}
    (hi : List.Forall₂ (fun u => Resolved find u.2) (entryUses t) inner) :
    readBody find (entryBody width inner t) = some (declaredOutline t) := by
  cases t with
  | scalar s => exact readBody_alias hfind hw hi
  | named n cs => exact readBody_alias hfind hw hi
  | array t cs => exact readBody_alias hfind hw hi
  | any cs => rfl
  | union ms cs => exact readBody_bodyOf (t := .union ms cs) hfind width rfl hw hi
  | record ps cs => exact readBody_bodyOf (t := .record ps cs) hfind width rfl hw hi

variable (width) in
/-- An entry is declared first, under its name and with its type, and nothing that follows bears
the name of an entry. -/
theorem declareEntry_spec (henv : (env.map Declaration.name).Nodup) {name : String} {t : ApiType}
    (hname : IsDeclarable name) (hw : WellNamed known t) {taken : List String} (fuel : Nat)
    (hk : known ⊆ taken) (hd : taken.Nodup)
    (hsub : ((declareEntry width name t).run taken).1 ⊆ env)
    (hlen : ((declareEntry width name t).run taken).1.length ≤ fuel) :
    ∃ d rest, ((declareEntry width name t).run taken).1 = d :: rest ∧ d.name = name ∧
      readBody (resolve known env fuel) d.body = some (declaredOutline t) ∧
      ∀ e ∈ rest, e.name ∉ known := by
  have hdeclares := declares_declareEntry width name t hd
  rw [declareEntry_eq] at hsub hlen hdeclares ⊢
  generalize hresult : (declareWith width name _ _ (entryUses t)).run taken = result
    at hsub hlen hdeclares ⊢
  obtain ⟨new, hnew, hp⟩ := hdeclares.exists_new
  have hu := hw.entryUses
  obtain ⟨inner, hhead, hi⟩ := resolved_declareWith henv hname
    (entryDocs width t.comments) (fun inner => entryBody width inner t) (fun u h => (hu u h).2)
    (fun u h hneeds => readsBack henv u.2 hneeds (hu u h).1) fuel hk hd
    (by rw [hresult]; exact fun d hd => hsub (List.mem_of_mem_tail hd))
    (by rw [hresult, List.length_tail]; omega)
  rw [hresult] at hhead
  obtain ⟨rest, hrest⟩ := List.head?_eq_some_iff.mp hhead
  refine ⟨_, rest, hrest, rfl, readBody_entryBody (fun r hr => resolve_known hr env fuel) hw hi, ?_⟩
  rw [hrest, List.map_cons, List.singleton_append] at hp
  intro e he hknown
  have hmem : e.name ∈ new := hp.cons_inv.subset (List.mem_map_of_mem he)
  have hnodup := hdeclares.nodup
  rw [hnew] at hnodup
  exact List.disjoint_of_nodup_append hnodup hmem (hk hknown)

variable (width) in
/-- The entries among the declarations of a schema are its own, in order, and read as its types. -/
theorem declareEntries_spec (henv : (env.map Declaration.name).Nodup)
    {es : List (String × ApiType)} (hes : ∀ e ∈ es, e.1 ∈ known ∧ IsDeclarable e.1 ∧
      WellNamed known e.2) {taken : List String} (fuel : Nat) (hk : known ⊆ taken)
    (hd : taken.Nodup) (hsub : ((declareEntries width es).run taken).1 ⊆ env)
    (hlen : ((declareEntries width es).run taken).1.length ≤ fuel) :
    (((declareEntries width es).run taken).1.map Declaration.name).filter (· ∈ known) =
        es.map Prod.fst ∧
      (((declareEntries width es).run taken).1.filter (fun d => d.name ∈ known)).mapM
        (fun d => (readBody (resolve known env fuel) d.body).map (fun t => (d.name, t))) =
        some (es.map (fun e => (e.1, declaredOutline e.2))) := by
  induction es generalizing taken with
  | nil => exact ⟨rfl, rfl⟩
  | cons e es ih =>
    obtain ⟨name, t⟩ := e
    have here := declares_declareEntry width name t hd
    have hentry := hes (name, t) List.mem_cons_self
    have hspec := declareEntry_spec width henv hentry.2.1 hentry.2.2 fuel hk hd
    rw [run_declareEntries_cons] at hsub hlen ⊢
    generalize (declareEntry width name t).run taken = first at here hspec hsub hlen ⊢
    simp only [List.length_append] at hlen
    obtain ⟨hsub₁, hsub₂⟩ := List.append_subset.mp hsub
    obtain ⟨d, rest, hfirst, hdname, hbody, hrest⟩ := hspec hsub₁ (by omega)
    obtain ⟨ihn, ihr⟩ := ih (fun e h => hes e (List.mem_cons_of_mem _ h))
      (List.Subset.trans hk here.subset) here.nodup hsub₂ (by omega)
    have hnone : rest.filter (fun d => d.name ∈ known) = [] := by simpa using hrest
    have hnone' : (rest.map Declaration.name).filter (· ∈ known) = [] := by simpa using hrest
    have hdmem : d.name ∈ known := by rw [hdname]; exact hentry.1
    simp only [hfirst]
    constructor
    · rw [List.map_append, List.map_cons, List.filter_append, ihn,
        List.filter_cons_of_pos (by simpa using hdmem), hnone', hdname]
      rfl
    · rw [List.filter_append, List.filter_cons_of_pos (by simpa using hdmem), hnone,
        List.singleton_append, List.mapM_cons, ihr, hbody, hdname]
      rfl

/-- Declaring a closed schema once declares every entry once and in order, and the declarations
read back as the schema: the same properties and members in the same order. Documentation is
not read, and an unknown type is a record without properties. -/
theorem readBack_generate (s : Schema) (width : Nat) (hclosed : Page.checkClosed s = .ok s)
    (hnames : ∀ n ∈ s.names, isTypeName n.toList = true ∧ n ∉ reservedNames)
    (hprops : ∀ e ∈ s.entries, ∀ n ∈ e.2.propertyNames, isIdentifier n.toList = true) :
    let ds := (Generator.new s width).generate.declarations
    (∀ n ∈ s.names, (ds.map Declaration.name).count n = 1) ∧
      (ds.map Declaration.name).filter (· ∈ s.names) = s.names ∧
      readBack s.names ds = some (s.entries.map (fun e => (e.1, declaredOutline e.2))) := by
  intro ds
  have hdangling : s.dangling? = none := by
    unfold Page.checkClosed at hclosed
    split at hclosed
    · assumption
    · simp at hclosed
  have hrefs := Schema.dangling?_eq_none.mp hdangling
  have hdeclarable : ∀ n ∈ s.names, IsDeclarable n := by
    intro n hn
    obtain ⟨ht, hr⟩ := hnames n hn
    exact ⟨ht, fun he => hr (by simp [he, reservedNames])⟩
  have hes : ∀ e ∈ s.entries, e.1 ∈ s.names ∧ IsDeclarable e.1 ∧ WellNamed s.names e.2 := by
    intro e he
    have hmem : e.1 ∈ s.names := List.mem_map_of_mem he
    refine ⟨hmem, hdeclarable e.1 hmem, ⟨fun r hr => ?_, hprops e he⟩⟩
    exact ⟨hrefs e he r hr, hdeclarable r (hrefs e he r hr)⟩
  have hdeclares := declares_declareEntries width s.entries s.nodup
  have hds : ds = ((declareEntries width s.entries).run s.names).1 := rfl
  obtain ⟨new, hnew, hp⟩ := hdeclares.exists_new
  have hnodup := hdeclares.nodup
  rw [hnew] at hnodup
  have hperm : (ds.map Declaration.name).Perm (new ++ s.names) := hp.trans List.perm_append_comm
  have henv : (ds.map Declaration.name).Nodup := hperm.nodup_iff.mpr hnodup
  obtain ⟨hfilter, hread⟩ := declareEntries_spec width henv hes ds.length
    (List.Subset.refl _) s.nodup (List.Subset.refl _) (Nat.le_refl _)
  refine ⟨fun n hn => ?_, hfilter, hread⟩
  exact List.count_eq_one_of_mem henv (hperm.symm.subset (List.mem_append_right new hn))

/-- A chat whose inner types want names that an entry and the chat itself already have. -/
def chatSchema : Schema where
  entries := [
    ("ChatId", .scalar .integer),
    ("Chat", .record [
      ⟨"id", .union [.scalar .integer, .scalar .string] [], true, none⟩,
      ⟨"type", .array (.record [⟨"self", .named "Chat" [], false, none⟩] []) [], false, none⟩,
      ⟨"_", .any [], false, some (.ofText "Reserved")⟩] [])]
  nodup := by decide

theorem readBack_generate_chatSchema :
    Page.checkClosed chatSchema = .ok chatSchema ∧
      (∀ n ∈ chatSchema.names, isTypeName n.toList = true ∧ n ∉ reservedNames) ∧
      (∀ e ∈ chatSchema.entries, ∀ n ∈ e.2.propertyNames, isIdentifier n.toList = true) ∧
      readBack chatSchema.names (Generator.new chatSchema 72).generate.declarations = some [
        ("ChatId", .scalar .integer),
        ("Chat", .record [
          ⟨"id", .union [.scalar .integer, .scalar .string] [], true, none⟩,
          ⟨"type", .array (.record [⟨"self", .named "Chat" [], false, none⟩] []) [], false, none⟩,
          ⟨"_", .record [] [], false, none⟩] [])] := by
  have hclosed : Page.checkClosed chatSchema = .ok chatSchema := rfl
  have hnames : ∀ n ∈ chatSchema.names, isTypeName n.toList = true ∧ n ∉ reservedNames := by
    decide
  have hprops : ∀ e ∈ chatSchema.entries, ∀ n ∈ e.2.propertyNames,
      isIdentifier n.toList = true := by decide
  exact ⟨hclosed, hnames, hprops, (readBack_generate chatSchema 72 hclosed hnames hprops).2.2⟩

end ApiTypings.Declaration
