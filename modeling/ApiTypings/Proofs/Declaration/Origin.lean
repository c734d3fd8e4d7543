import ApiTypings.Proofs.Declaration.Repeated

/-!
# Where declarations come from

Every declaration is that of an entry or that of a type which another declaration uses, and the
latter bears a name that was free beside all entries. What holds of all declarations is proved by
induction on where they come from, without following the order in which they are made.
-/
namespace ApiTypings.Declaration

/-- Whether a name for the type of a field was made from owner and field, while names were taken
that were known before. -/
def IsFreshFor (known : List String) (owner field name : String) : Prop :=
  ∃ taken, known ⊆ taken ∧ name = freshName (owner ++ Text.camelCase field) taken

theorem IsFreshFor.not_mem {known : List String} {owner field name : String}
    (h : IsFreshFor known owner field name) : name ∉ known := by
  obtain ⟨taken, hknown, rfl⟩ := h
  exact fun hmem => freshName_not_mem _ taken (hknown hmem)

/-- The declarations that a schema gives rise to, each with the types it uses. -/
inductive Originates (s : Schema) (width : Nat) : Declaration → List (String × ApiType) → Prop
  | entry {name : String} {t : ApiType} {inner : List (Option String)}
    (hmem : (name, t) ∈ s.entries)
    (hinner : List.Forall₂ (fun u i => i.isSome = needsName u.2) (entryUses t) inner) :
    Originates s width ⟨name, entryDocs width t.comments, entryBody width inner t⟩ (entryUses t)
  | used {owner : Declaration} {us : List (String × ApiType)} {field name : String} {t : ApiType}
    {inner : List (Option String)} (howner : Originates s width owner us) (hmem : (field, t) ∈ us)
    (hneeds : needsName t = true) (hname : IsFreshFor s.names owner.name field name)
    (hinner : List.Forall₂ (fun u i => i.isSome = needsName u.2) (uses (innermost t)) inner) :
    Originates s width ⟨name, [], bodyOf width inner (innermost t)⟩ (uses (innermost t))

variable {s : Schema} {width : Nat}

/-- A declaration with the name of an entry is that of the entry. -/
theorem Originates.exists_entry {d : Declaration} {us : List (String × ApiType)}
    (h : Originates s width d us) {t : ApiType} (hmem : (d.name, t) ∈ s.entries) :
    ∃ inner, List.Forall₂ (fun u i => i.isSome = needsName u.2) (entryUses t) inner ∧
      d.docs = entryDocs width t.comments ∧ d.body = entryBody width inner t := by
  cases h with
  | @entry name t' inner hmem' hinner =>
    obtain rfl : t' = t :=
      congrArg Prod.snd (List.inj_on_of_nodup_map s.nodup hmem' hmem rfl)
    exact ⟨inner, hinner, rfl, rfl⟩
  | used _ _ _ hname _ => exact absurd (List.mem_map_of_mem hmem) hname.not_mem

/-- Names are taken while everything known before is still taken. -/
theorem Chosen.forall₂_isFreshFor {owner : String} {us : List (String × ApiType)}
    {taken taken' : List String} {inner : List (Option String)} {known : List String}
    (h : Chosen owner us taken inner taken') (hk : known ⊆ taken) :
    List.Forall₂ (fun u i => i.isSome = needsName u.2 ∧
      ∀ name ∈ i, IsFreshFor known owner u.1 name) us inner := by
  induction h with
  | nil taken => exact .nil
  | plain hn _ ih => exact .cons ⟨hn.symm, by simp⟩ (ih hk)
  | @named u us taken taken' inner name hn hname _ ih =>
    refine .cons ⟨hn.symm, fun n hmem => ?_⟩
      (ih (List.Subset.trans hk (List.subset_cons_self name taken)))
    obtain rfl := Option.some.inj hmem
    exact ⟨taken, hk, hname⟩

section Run

/-- Whether all declarations of a type come from the declaration that uses it. -/
def DeclaresOriginating (s : Schema) (width : Nat) (t : ApiType) : Prop :=
  ∀ (owner : Declaration) (us : List (String × ApiType)) (field name : String)
    (taken : List String), Originates s width owner us → (field, t) ∈ us →
    IsFreshFor s.names owner.name field name → s.names ⊆ taken → taken.Nodup →
    ∀ d ∈ ((declare width name [] t).run taken).1, ∃ vs, Originates s width d vs

theorem originates_declareMembers {owner : Declaration} {vs us : List (String × ApiType)}
    {inner : List (Option String)} (howner : Originates s width owner vs) (hsub : us ⊆ vs)
    (hi : List.Forall₂ (fun u i => i.isSome = needsName u.2 ∧
      ∀ name ∈ i, IsFreshFor s.names owner.name u.1 name) us inner)
    (hu : ∀ u ∈ us, needsName u.2 = true → DeclaresOriginating s width u.2)
    {taken : List String} (hk : s.names ⊆ taken) (hd : taken.Nodup) :
    ∀ d ∈ ((declareMembers width inner (us.map Prod.snd)).run taken).1,
      ∃ ws, Originates s width d ws := by
  induction hi generalizing taken with
  | nil => exact fun d hd => absurd hd List.not_mem_nil
  | @cons u i us inner hui _ ih =>
    obtain ⟨hfirst, hrest⟩ := List.cons_subset.mp hsub
    have hus := fun v hv => hu v (List.mem_cons_of_mem u hv)
    rw [List.map_cons]
    cases i with
    | none =>
      rw [declareMembers_cons_none]
      exact ih hrest hus hk hd
    | some name =>
      have hneeds : needsName u.2 = true := hui.1.symm
      have here := declares_declare width u.2 hneeds name [] taken hd
      rw [run_declareMembers_cons_some]
      intro d hmem
      rcases List.mem_append.mp hmem with hmem | hmem
      · exact hu u List.mem_cons_self hneeds owner vs u.1 name taken howner hfirst
          (hui.2 name rfl) hk hd d hmem
      · exact ih hrest hus (List.Subset.trans hk here.subset) here.nodup d hmem

theorem originates_declareWith {name : String} {docs : List String}
    {body : List (Option String) → Body} {us : List (String × ApiType)}
    (hown : ∀ inner, List.Forall₂ (fun u i => i.isSome = needsName u.2) us inner →
      Originates s width ⟨name, docs, body inner⟩ us)
    (hu : ∀ u ∈ us, needsName u.2 = true → DeclaresOriginating s width u.2)
    {taken : List String} (hk : s.names ⊆ taken) (hd : taken.Nodup) :
    ∀ d ∈ ((declareWith width name docs body us).run taken).1, ∃ vs, Originates s width d vs := by
  have hc := chosen_takeNames name us taken
  have howner := hown _ hc.forall₂
  have hk' : s.names ⊆ ((takeNames name us).run taken).2 := by
    rw [hc.taken_eq]
    exact List.Subset.trans hk (List.subset_append_right _ taken)
  exact List.forall_mem_cons.mpr ⟨⟨us, howner⟩, originates_declareMembers howner
    (List.Subset.refl us) (hc.forall₂_isFreshFor hk) hu hk' (hc.nodup hd)⟩

theorem declaresOriginating (t : ApiType) :
    needsName t = true → DeclaresOriginating s width t := by
  induction t using uses_induction with
  | h t ih =>
    intro hn owner us field name taken howner hmem hname hk hd
    rw [declare_eq width name [] hn]
    exact originates_declareWith (fun inner hi => .used howner hmem hn hname hi) ih hk hd

theorem originates_declareEntries {es : List (String × ApiType)} (hes : es ⊆ s.entries)
    {taken : List String} (hk : s.names ⊆ taken) (hd : taken.Nodup) :
    ∀ d ∈ ((declareEntries width es).run taken).1, ∃ us, Originates s width d us := by
  induction es generalizing taken with
  | nil => exact fun d hd => absurd hd List.not_mem_nil
  | cons e es ih =>
    obtain ⟨name, t⟩ := e
    obtain ⟨hmem, hrest⟩ := List.cons_subset.mp hes
    have here := declares_declareEntry width name t hd
    rw [run_declareEntries_cons]
    intro d hdecl
    rcases List.mem_append.mp hdecl with hdecl | hdecl
    · rw [declareEntry_eq] at hdecl
      exact originates_declareWith (fun inner hi => .entry hmem hi)
        (fun u _ => declaresOriginating u.2) hk hd d hdecl
    · exact ih hrest (List.Subset.trans hk here.subset) here.nodup d hdecl

/-- However often a schema is declared, every declaration comes from an entry or from another
declaration that uses it. -/
theorem originates_afterRuns (s : Schema) (width n : Nat) :
    ∀ d ∈ (Generator.afterRuns s width n).declarations, ∃ us, Originates s width d us := by
  induction n with
  | zero => exact fun d hd => absurd hd List.not_mem_nil
  | succ n ih =>
    have hbefore := Generator.declares_afterRuns s width n
    rw [Generator.declarations_afterRuns_succ]
    intro d hd
    rcases List.mem_append.mp hd with hd | hd
    · exact ih d hd
    · exact originates_declareEntries (List.Subset.refl _) hbefore.subset hbefore.nodup d hd

end Run

/-- Every run declares every entry. -/
theorem exists_declaration {n : String} (h : n ∈ s.names) (width runs : Nat) :
    ∃ d ∈ (Generator.afterRuns s width (runs + 1)).declarations, d.name = n := by
  have hown := (Generator.declares_afterRuns s width (runs + 1)).own_subset
  have hmem : n ∈ (List.replicate (runs + 1) s.names).flatten :=
    List.mem_flatten.mpr ⟨s.names, List.mem_replicate.mpr ⟨runs.succ_ne_zero, rfl⟩, h⟩
  exact List.mem_map.mp (hown hmem)

end ApiTypings.Declaration
