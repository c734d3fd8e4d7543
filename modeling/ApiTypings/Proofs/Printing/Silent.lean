import ApiTypings.Proofs.Printing.Deeper

/-!
# Types that are written as nothing

Writing never takes anything away, so a type is written as nothing only if all its parts are. The
only types with parts and no text of their own are unions of less than two members.
-/
namespace ApiTypings.Printing

/-! ### What is written stays -/

theorem exists_adds_writeType (ctx : Context) (t : ApiType) :
    ∃ ps, Adds ctx (writeType ctx t) ps :=
  (printsDeeper t ctx ctx (.refl ctx)).imp fun _ h => h.1

theorem exists_adds_writeMembers (ctx : Context) (ms : List ApiType) :
    ∃ ps, Adds ctx (writeMembers ctx ms) ps :=
  (addsAlike_writeMembers (fun m _ => printsDeeper m) (.refl ctx)).imp fun _ h => h.1

theorem exists_adds_writeProperties (ctx : Context) (ps : List Property) :
    ∃ qs, Adds ctx (writeProperties ctx ps) qs :=
  (addsAlike_writeProperties (fun p _ => printsDeeper p.type) (.refl ctx)).imp fun _ h => h.1

/-- Whether the code of one output is longer than that of another. -/
def Shorter (a b : Context) : Prop := a.code.toList.length < b.code.toList.length

theorem Shorter.code_ne {a b : Context} (h : Shorter a b) : b.code ≠ a.code :=
  fun heq => absurd h (by rw [Shorter, heq]; exact Nat.lt_irrefl _)

theorem shorter_write (ctx : Context) {s : String} (hs : s.toList ≠ []) :
    Shorter ctx (ctx.write s) := by
  have hlength := (Adds.write ctx s).length_le
  rw [List.length_map] at hlength
  have hpos := List.length_pos_of_ne_nil hs
  unfold Shorter
  omega

theorem Shorter.adds {a b c : Context} {ps : List Placed} (h : Shorter a b) (hadds : Adds b c ps) :
    Shorter a c := by
  have hlength := hadds.length_le
  unfold Shorter at h ⊢
  omega

theorem Adds.shorter {a b c : Context} {ps : List Placed} (hadds : Adds a b ps) (h : Shorter b c) :
    Shorter a c := by
  have hlength := hadds.length_le
  unfold Shorter at h ⊢
  omega

/-! ### What is written as nothing -/

/-- The types without text: empty names, and unions of no member or of one without text. -/
inductive Silent : ApiType → Prop
  | named (cs : List DocComment) : Silent (.named "" cs)
  | none (cs : List DocComment) : Silent (.union [] cs)
  | one {t : ApiType} (h : Silent t) (cs : List DocComment) : Silent (.union [t] cs)

theorem Silent.writeType_eq {t : ApiType} (h : Silent t) (ctx : Context) :
    writeType ctx t = ctx := by
  induction h with
  | named cs => rfl
  | none cs => rfl
  | one h cs ih => exact ih

theorem shorter_writeType {t : ApiType} (h : ¬Silent t) (ctx : Context) :
    Shorter ctx (writeType ctx t) := by
  induction t using ApiType.kinds generalizing ctx with
  | scalar s => exact shorter_write ctx (by cases s <;> decide)
  | any cs => exact shorter_write ctx (by decide)
  | named n cs =>
    refine shorter_write ctx fun hn => h ?_
    obtain rfl : n = "" := String.toList_inj.mp hn
    exact .named cs
  | array t cs ih =>
    obtain ⟨ps, hitem⟩ := exists_adds_writeType (ctx.write "Array<") t
    exact ((shorter_write ctx (by decide)).adds hitem).adds (Adds.write _ ">")
  | union ms cs ih =>
    match ms, ih with
    | [], _ => exact absurd (.none cs) h
    | [t], ih => exact ih t List.mem_cons_self (fun ht => h (.one ht cs)) ctx
    | t :: u :: ms, _ =>
      obtain ⟨ps, hfirst⟩ := exists_adds_writeType ctx t
      obtain ⟨qs, hrest⟩ := exists_adds_writeMembers ((writeType ctx t).write " | ") (u :: ms)
      exact (hfirst.shorter (shorter_write _ (by decide))).adds hrest
  | record ps cs ih =>
    cases ps with
    | nil => exact shorter_write ctx (by decide)
    | cons p ps =>
      obtain ⟨qs, hbody⟩ := exists_adds_writeProperties (ctx.write "\x7b").nest.newline (p :: ps)
      have hinside := ((Adds.newline (ctx.write "\x7b").nest).trans hbody).unnest
      exact ((shorter_write ctx (by decide)).adds hinside).adds (Adds.write _ "\x7d")

/-- A type is written as nothing exactly if it is silent. -/
theorem code_writeType_eq_iff (ctx : Context) (t : ApiType) :
    (writeType ctx t).code = ctx.code ↔ Silent t := by
  constructor
  · intro h
    by_contra ht
    exact (shorter_writeType ht ctx).code_ne h
  · intro h
    rw [h.writeType_eq]

end ApiTypings.Printing
