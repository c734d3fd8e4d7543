import ApiTypings.Proofs.Declaration.Uses
import Mathlib.Data.List.Perm.Basic

/-!
# The names of declarations

What is declared bears the names that were taken for it, each once. Names stay taken, so no
name is given twice, neither in one run nor in several.
-/
namespace ApiTypings.Declaration

/-- How names are taken for use sites, from left to right. -/
inductive Chosen (owner : String) : List (String × ApiType) → List String →
    List (Option String) → List String → Prop
  | nil (taken : List String) : Chosen owner [] taken [] taken
  | plain {u : String × ApiType} {us : List (String × ApiType)} {taken taken' : List String}
      {inner : List (Option String)} : needsName u.2 = false → Chosen owner us taken inner taken' →
      Chosen owner (u :: us) taken (none :: inner) taken'
  | named {u : String × ApiType} {us : List (String × ApiType)} {taken taken' : List String}
      {inner : List (Option String)} {name : String} : needsName u.2 = true →
      name = freshName (owner ++ Text.camelCase u.1) taken →
      Chosen owner us (name :: taken) inner taken' →
      Chosen owner (u :: us) taken (some name :: inner) taken'

variable {owner : String} {us : List (String × ApiType)} {taken taken' : List String}
  {inner : List (Option String)}

theorem chosen_takeNames (owner : String) (us : List (String × ApiType)) (taken : List String) :
    Chosen owner us taken ((takeNames owner us).run taken).1
      ((takeNames owner us).run taken).2 := by
  induction us generalizing taken with
  | nil => exact .nil taken
  | cons u us ih =>
    rw [takeNames, List.mapM_cons]
    cases hn : needsName u.2 with
    | false =>
      have hi : innerName owner u.1 u.2 = pure none := by simp [innerName, hn]
      rw [hi, pure_bind]
      exact .plain hn (ih taken)
    | true =>
      have hi : innerName owner u.1 u.2 = some <$> takeName owner u.1 := by simp [innerName, hn]
      rw [hi]
      exact .named hn rfl (ih _)

/-- The names taken for use sites come in front of those taken before. -/
theorem Chosen.taken_eq (h : Chosen owner us taken inner taken') :
    taken' = inner.reduceOption.reverse ++ taken := by
  induction h with
  | nil taken => rfl
  | plain _ _ ih => rw [ih, List.reduceOption_cons_of_none]
  | named _ _ _ ih =>
    rw [ih, List.reduceOption_cons_of_some, List.reverse_cons, List.append_assoc,
      List.singleton_append]

theorem Chosen.nodup (h : Chosen owner us taken inner taken') (hd : taken.Nodup) :
    taken'.Nodup := by
  induction h with
  | nil taken => exact hd
  | plain _ _ ih => exact ih hd
  | named _ hname _ ih => exact ih (List.nodup_cons.mpr ⟨hname ▸ freshName_not_mem _ _, hd⟩)

/-- A use site has a name exactly if its type needs one. -/
theorem Chosen.forall₂ (h : Chosen owner us taken inner taken') :
    List.Forall₂ (fun u i => i.isSome = needsName u.2) us inner := by
  induction h with
  | nil taken => exact .nil
  | plain hn _ ih => exact .cons hn.symm ih
  | named hn _ _ ih => exact .cons hn.symm ih

/-- What holds of every fresh name of a use site holds of the names taken, and none of them is
one of the names that were known before. -/
theorem Chosen.forall_names {P : String → Prop} {known : List String}
    (h : Chosen owner us taken inner taken')
    (hP : ∀ u ∈ us, ∀ taken, P (freshName (owner ++ Text.camelCase u.1) taken))
    (hk : known ⊆ taken) : ∀ i ∈ inner, ∀ n ∈ i, P n ∧ n ∉ known := by
  induction h with
  | nil taken => simp
  | plain _ _ ih => simpa using ih (fun u hu => hP u (List.mem_cons_of_mem _ hu)) hk
  | @named u us taken taken' inner name _ hname _ ih =>
    have hfresh : name ∉ taken := hname ▸ freshName_not_mem _ _
    have hrest := ih (fun v hv => hP v (List.mem_cons_of_mem u hv))
      (List.Subset.trans hk (List.subset_cons_self name taken))
    refine List.forall_mem_cons.mpr ⟨fun n hn => ?_, hrest⟩
    obtain rfl := Option.some.inj hn
    exact ⟨hname ▸ hP u List.mem_cons_self taken, fun hmem => hfresh (hk hmem)⟩

section Run

variable (width : Nat)

theorem declareMembers_cons_none (inner : List (Option String)) (t : ApiType) (ts : List ApiType) :
    declareMembers width (none :: inner) (t :: ts) = declareMembers width inner ts := by
  simp [declareMembers]

theorem run_declareMembers_cons_some (name : String) (inner : List (Option String)) (t : ApiType)
    (ts : List ApiType) (taken : List String) :
    (declareMembers width (some name :: inner) (t :: ts)).run taken =
      let here := (declare width name [] t).run taken
      let rest := (declareMembers width inner ts).run here.2
      (here.1 ++ rest.1, rest.2) := rfl

/-- A run that declares `own` keeps names distinct: its declarations bear the names in `own`
and the names it takes. -/
structure Declares (own : List String) (taken : List String)
    (result : List Declaration × List String) : Prop where
  exists_new : ∃ new, result.2 = new ++ taken ∧ (result.1.map Declaration.name).Perm (own ++ new)
  nodup : result.2.Nodup

theorem declares_nil (hd : taken.Nodup) : Declares [] taken ([], taken) :=
  ⟨⟨[], rfl, .nil⟩, hd⟩

theorem Declares.append {own own' : List String} {ds ds' : List Declaration}
    {taken₁ taken₂ : List String} (h : Declares own taken (ds, taken₁))
    (h' : Declares own' taken₁ (ds', taken₂)) :
    Declares (own ++ own') taken (ds ++ ds', taken₂) := by
  obtain ⟨new, rfl, hp⟩ := h.exists_new
  obtain ⟨new', rfl, hp'⟩ := h'.exists_new
  refine ⟨⟨new' ++ new, (List.append_assoc new' new taken).symm, ?_⟩, h'.nodup⟩
  rw [List.map_append, List.perm_iff_count]
  intro n
  have hn := hp.count_eq n
  have hn' := hp'.count_eq n
  simp only [List.count_append] at hn hn' ⊢
  omega

theorem Declares.subset {own : List String} {result : List Declaration × List String}
    (h : Declares own taken result) : taken ⊆ result.2 := by
  obtain ⟨new, hnew, -⟩ := h.exists_new
  rw [hnew]
  exact List.subset_append_right new taken

theorem Declares.own_subset {own : List String} {result : List Declaration × List String}
    (h : Declares own taken result) : own ⊆ result.1.map Declaration.name := by
  obtain ⟨new, -, hp⟩ := h.exists_new
  exact fun n hn => hp.symm.subset (List.mem_append_left new hn)

/-- Members declare the names taken for them, if each type declares its own. -/
theorem declares_declareMembers {inner : List (Option String)} {ts : List ApiType}
    (hi : List.Forall₂ (fun t i => i.isSome = needsName t) ts inner)
    (ht : ∀ t ∈ ts, needsName t = true → ∀ name docs taken, taken.Nodup →
      Declares [name] taken ((declare width name docs t).run taken))
    {taken : List String} (hd : taken.Nodup) :
    Declares inner.reduceOption taken ((declareMembers width inner ts).run taken) := by
  induction hi generalizing taken with
  | nil => exact declares_nil hd
  | @cons t i ts inner hti _ ih =>
    have hts := fun u hu => ht u (List.mem_cons_of_mem t hu)
    cases i with
    | none =>
      rw [declareMembers_cons_none, List.reduceOption_cons_of_none]
      exact ih hts hd
    | some name =>
      have here := ht t List.mem_cons_self hti.symm name [] taken hd
      have rest := ih hts here.nodup
      rw [run_declareMembers_cons_some, List.reduceOption_cons_of_some]
      exact here.append rest

theorem declares_declareWith (name : String) (docs : List String)
    (body : List (Option String) → Body) {us : List (String × ApiType)}
    (hu : ∀ u ∈ us, needsName u.2 = true → ∀ name docs taken, taken.Nodup →
      Declares [name] taken ((declare width name docs u.2).run taken))
    {taken : List String} (hd : taken.Nodup) :
    Declares [name] taken ((declareWith width name docs body us).run taken) := by
  have hc := chosen_takeNames name us taken
  let inner := ((takeNames name us).run taken).1
  have hi : List.Forall₂ (fun t i => i.isSome = needsName t) (us.map Prod.snd) inner :=
    List.forall₂_map_left_iff.mpr hc.forall₂
  have hr := declares_declareMembers width hi (by simpa using fun u f h => hu (f, u) h)
    (hc.nodup hd)
  obtain ⟨new, hnew, hp⟩ := hr.exists_new
  refine ⟨⟨new ++ inner.reduceOption.reverse, ?_, ?_⟩, hr.nodup⟩
  · rw [List.append_assoc, ← hc.taken_eq]
    exact hnew
  · refine List.Perm.cons name (hp.trans ?_)
    exact List.perm_append_comm.trans ((List.reverse_perm _).symm.append_left new)

/-- Declaring a type under a name declares that name and the names it takes, each once. -/
theorem declares_declare (t : ApiType) : needsName t = true → ∀ (name : String)
    (docs taken : List String), taken.Nodup →
      Declares [name] taken ((declare width name docs t).run taken) := by
  induction t using uses_induction with
  | h t ih =>
    intro hn name docs taken hd
    rw [declare_eq width name docs hn]
    exact declares_declareWith width name docs _ ih hd

theorem declares_declareEntry (name : String) (t : ApiType) {taken : List String}
    (hd : taken.Nodup) : Declares [name] taken ((declareEntry width name t).run taken) := by
  rw [declareEntry_eq]
  exact declares_declareWith width name _ _ (fun u _ => declares_declare width u.2) hd

theorem run_declareEntries_cons (name : String) (t : ApiType) (es : List (String × ApiType))
    (taken : List String) :
    (declareEntries width ((name, t) :: es)).run taken =
      let first := (declareEntry width name t).run taken
      let rest := (declareEntries width es).run first.2
      (first.1 ++ rest.1, rest.2) := rfl

/-- All entries of a schema are declared under their own names. -/
theorem declares_declareEntries (es : List (String × ApiType)) {taken : List String}
    (hd : taken.Nodup) :
    Declares (es.map Prod.fst) taken ((declareEntries width es).run taken) := by
  induction es generalizing taken with
  | nil => exact declares_nil hd
  | cons e es ih =>
    obtain ⟨name, t⟩ := e
    have here := declares_declareEntry width name t hd
    exact here.append (ih here.nodup)

end Run

end ApiTypings.Declaration
