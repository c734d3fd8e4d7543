import ApiTypings.Schema.Basic

/-!
# Inserting entries

Inserting brings nothing into a schema but the entry that is inserted. Entries whose names
differ stand in a schema as they were inserted. In general, names keep their first place and
have their last type.
-/
namespace ApiTypings

theorem eq_or_mem_of_mem_putEntry {name : String} {type : ApiType}
    {es : List (String × ApiType)} {e : String × ApiType} (h : e ∈ putEntry name type es) :
    e = (name, type) ∨ e ∈ es := by
  induction es with
  | nil => exact Or.inl (List.mem_singleton.mp h)
  | cons f es ih =>
    unfold putEntry at h
    split at h
    · rcases List.mem_cons.mp h with h | h
      · exact Or.inl h
      · exact Or.inr (List.mem_cons_of_mem f h)
    · rcases List.mem_cons.mp h with rfl | h
      · exact Or.inr List.mem_cons_self
      · exact (ih h).imp_right (List.mem_cons_of_mem f)

theorem putEntry_of_not_mem {name : String} {type : ApiType} {es : List (String × ApiType)}
    (h : name ∉ es.map Prod.fst) : putEntry name type es = es ++ [(name, type)] := by
  induction es with
  | nil => rfl
  | cons f es ih =>
    obtain ⟨hf, hes⟩ := not_or.mp (mt List.mem_cons.mpr h)
    rw [putEntry, if_neg (Ne.symm hf), ih hes, List.cons_append]

theorem names_putEntry (name : String) (type : ApiType) (es : List (String × ApiType)) :
    (putEntry name type es).map Prod.fst =
      if name ∈ es.map Prod.fst then es.map Prod.fst else es.map Prod.fst ++ [name] := by
  split
  · next h =>
    induction es with
    | nil => simp at h
    | cons e es ih =>
      rw [putEntry]
      split
      · next he => rw [List.map_cons, List.map_cons, he]
      · next he =>
        have hes := (List.mem_cons.mp h).resolve_left (Ne.symm he)
        rw [List.map_cons, List.map_cons, ih hes]
  · next h => rw [putEntry_of_not_mem h, List.map_append]; rfl

theorem lookup_cons_eq_ite (e : String × ApiType) (es : List (String × ApiType)) (n : String) :
    (e :: es).lookup n = if n = e.1 then some e.2 else es.lookup n := by
  rw [List.lookup_cons]
  by_cases hn : n = e.1
  · simp [hn]
  · simp [hn, beq_false_of_ne hn]

theorem lookup_putEntry (name n : String) (type : ApiType) (es : List (String × ApiType)) :
    (putEntry name type es).lookup n = if n = name then some type else es.lookup n := by
  induction es with
  | nil => rw [putEntry, lookup_cons_eq_ite]
  | cons e es ih =>
    rw [putEntry]
    by_cases he : e.1 = name
    · rw [if_pos he, lookup_cons_eq_ite, lookup_cons_eq_ite, he]
      by_cases hn : n = name <;> simp [hn]
    · rw [if_neg he, lookup_cons_eq_ite, lookup_cons_eq_ite, ih]
      by_cases hn : n = name
      · simp [hn, Ne.symm he]
      · simp [hn]

/-- Keeping what is not there yet keeps the first of equal names. -/
theorem foldl_keep_eq (kept names : List String) :
    names.foldl (fun kept n => if n ∈ kept then kept else kept ++ [n]) kept =
      kept ++ (names.filter (· ∉ kept)).eraseDups := by
  induction names generalizing kept with
  | nil => simp
  | cons n names ih =>
    rw [List.foldl_cons, ih]
    by_cases hn : n ∈ kept
    · rw [if_pos hn, List.filter_cons_of_neg (by simpa using hn)]
    · have hfilter : names.filter (· ∉ kept ++ [n]) =
          (names.filter (· ∉ kept)).filter (fun m => !m == n) := by
        rw [List.filter_filter]
        refine List.filter_congr fun m _ => ?_
        by_cases hm : m = n <;> simp [hm]
      rw [if_neg hn, List.filter_cons_of_pos (by simpa using hn), List.eraseDups_cons, hfilter,
        List.append_assoc, List.singleton_append]

namespace Schema

theorem mem_of_mem_foldl_insert {s : Schema} {es : List (String × ApiType)}
    {e : String × ApiType} (h : e ∈ (es.foldl (fun s e => s.insert e.1 e.2) s).entries) :
    e ∈ s.entries ∨ e ∈ es := by
  induction es generalizing s with
  | nil => exact Or.inl h
  | cons f es ih =>
    rcases ih h with h | h
    · rcases eq_or_mem_of_mem_putEntry h with rfl | h
      · exact Or.inr List.mem_cons_self
      · exact Or.inl h
    · exact Or.inr (List.mem_cons_of_mem f h)

theorem mem_of_mem_ofList {es : List (String × ApiType)} {e : String × ApiType}
    (h : e ∈ (ofList es).entries) : e ∈ es := by
  rcases mem_of_mem_foldl_insert h with h | h
  · simp [empty] at h
  · exact h

theorem entries_foldl_insert {s : Schema} {es : List (String × ApiType)}
    (h : ((s.entries ++ es).map Prod.fst).Nodup) :
    (es.foldl (fun s e => s.insert e.1 e.2) s).entries = s.entries ++ es := by
  induction es generalizing s with
  | nil => rw [List.foldl_nil, List.append_nil]
  | cons f es ih =>
    have hfresh : f.1 ∉ s.entries.map Prod.fst := by
      rw [List.map_append, List.map_cons] at h
      exact fun hmem => (List.nodup_append.mp h).2.2 f.1 hmem f.1 List.mem_cons_self rfl
    have hput : (s.insert f.1 f.2).entries = s.entries ++ [f] := putEntry_of_not_mem hfresh
    have hnext : (((s.insert f.1 f.2).entries ++ es).map Prod.fst).Nodup := by
      rwa [hput, List.append_assoc, List.singleton_append]
    rw [List.foldl_cons, ih hnext, hput, List.append_assoc, List.singleton_append]

/-- Entries with distinct names are inserted one behind the other. -/
theorem entries_ofList {es : List (String × ApiType)} (h : (es.map Prod.fst).Nodup) :
    (ofList es).entries = es :=
  entries_foldl_insert h

theorem names_foldl_insert (s : Schema) (es : List (String × ApiType)) :
    (es.foldl (fun s e => s.insert e.1 e.2) s).names =
      (es.map Prod.fst).foldl (fun kept n => if n ∈ kept then kept else kept ++ [n]) s.names := by
  induction es generalizing s with
  | nil => rfl
  | cons e es ih =>
    rw [List.foldl_cons, ih, List.map_cons, List.foldl_cons]
    exact congrArg (fun names => List.foldl _ names _) (names_putEntry e.1 e.2 s.entries)

/-- The names of a schema are those inserted, in the order in which they came first. -/
theorem names_ofList (es : List (String × ApiType)) :
    (ofList es).names = (es.map Prod.fst).eraseDups := by
  have hempty : empty.names = [] := rfl
  rw [ofList, names_foldl_insert, hempty, foldl_keep_eq, List.nil_append]
  exact congrArg List.eraseDups (List.filter_eq_self.mpr (by simp))

theorem get?_foldl_insert (s : Schema) (es : List (String × ApiType)) (n : String) :
    (es.foldl (fun s e => s.insert e.1 e.2) s).get? n = (es.reverse.lookup n).or (s.get? n) := by
  induction es generalizing s with
  | nil => rfl
  | cons e es ih =>
    have hinsert : (s.insert e.1 e.2).get? n = if n = e.1 then some e.2 else s.get? n :=
      lookup_putEntry e.1 n e.2 s.entries
    rw [List.foldl_cons, ih, hinsert, List.reverse_cons, List.lookup_append, lookup_cons_eq_ite,
      Option.or_assoc]
    by_cases hn : n = e.1 <;> simp [hn]

/-- A name has the type that it was inserted with last. -/
theorem get?_ofList (es : List (String × ApiType)) (n : String) :
    (ofList es).get? n = es.reverse.lookup n := by
  have hempty : empty.get? n = none := rfl
  rw [ofList, get?_foldl_insert, hempty, Option.or_none]

/-- Entries with the same names in the same order and the same type under each name are equal. -/
theorem entries_eq_of_lookup {es fs : List (String × ApiType)}
    (hnames : es.map Prod.fst = fs.map Prod.fst) (hnodup : (es.map Prod.fst).Nodup)
    (hlookup : ∀ n ∈ es.map Prod.fst, es.lookup n = fs.lookup n) : es = fs := by
  induction es generalizing fs with
  | nil => exact (List.map_eq_nil_iff.mp hnames.symm).symm
  | cons e es ih =>
    cases fs with
    | nil => simp at hnames
    | cons f fs =>
      obtain ⟨hname, hrest⟩ := List.cons.inj hnames
      obtain ⟨hfresh, hnodup⟩ := List.nodup_cons.mp hnodup
      have htype : e.2 = f.2 := by
        have h := hlookup e.1 List.mem_cons_self
        rw [lookup_cons_eq_ite, lookup_cons_eq_ite, if_pos rfl, if_pos hname] at h
        exact Option.some.inj h
      rw [Prod.ext hname htype, ih hrest hnodup fun n hn => ?_]
      have hne : n ≠ e.1 := fun h => hfresh (h ▸ hn)
      have h := hlookup n (List.mem_cons_of_mem _ hn)
      rwa [lookup_cons_eq_ite, lookup_cons_eq_ite, if_neg hne, if_neg (hname ▸ hne)] at h

/-- The entries are the types that are found under their names. -/
theorem mem_entries_iff {s : Schema} {n : String} {t : ApiType} :
    (n, t) ∈ s.entries ↔ s.get? n = some t := by
  rw [get?, List.lookup_eq_some_iff]
  constructor
  · intro h
    obtain ⟨before, after, hsplit⟩ := List.mem_iff_append.mp h
    refine ⟨before, after, hsplit, fun e he => ?_⟩
    have hnodup := s.nodup
    rw [hsplit, List.map_append, List.map_cons] at hnodup
    have hne : n ≠ e.1 := fun heq => (List.nodup_append.mp hnodup).2.2 e.1
      (List.mem_map_of_mem he) n List.mem_cons_self heq.symm
    exact bne_iff_ne.mpr hne
  · rintro ⟨before, after, hsplit, -⟩
    rw [hsplit]
    exact List.mem_append_right before List.mem_cons_self

theorem ext_get? {s t : Schema} (hnames : s.names = t.names)
    (hget : ∀ n ∈ s.names, s.get? n = t.get? n) : s = t := by
  have hentries : s.entries = t.entries := entries_eq_of_lookup hnames s.nodup hget
  cases s
  cases t
  congr

end Schema

end ApiTypings
