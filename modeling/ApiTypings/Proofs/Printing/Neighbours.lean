import ApiTypings.Proofs.Printing.Deeper
import ApiTypings.Proofs.Schema.Insertion
import Mathlib.Data.List.Nodup

/-!
# Entries are printed independently of their neighbours

A type leaves the depth as it was, and an entry ends where a line starts, at the depth at which it
began. So what entries add to an output depends on the layout and the depth only, and schemas one
behind the other are printed as their texts with a line end in between.
-/
namespace ApiTypings

namespace Schema

/-- The entries of a schema and then those of another, inserted one by one. -/
def followedBy (a b : Schema) : Schema := b.entries.foldl (fun s e => s.insert e.1 e.2) a

theorem entries_followedBy {a b : Schema} (h : a.names.Disjoint b.names) :
    (a.followedBy b).entries = a.entries ++ b.entries := by
  apply entries_foldl_insert
  rw [List.map_append]
  exact List.Nodup.append a.nodup b.nodup h

/-- Whether two schemas have entries and no name in common. -/
structure Apart (a b : Schema) : Prop where
  left : a.entries ≠ []
  right : b.entries ≠ []
  names : a.names.Disjoint b.names

end Schema

namespace Printing

theorem depth_writeType (ctx : Context) (t : ApiType) : (writeType ctx t).depth = ctx.depth := by
  obtain ⟨ps, h, -⟩ := printsDeeper t ctx ctx (.refl ctx)
  exact h.depth

theorem atLineStart_writeEntry (d : Dialect) (ctx : Context) (name : String) (t : ApiType) :
    (writeEntry d ctx name t).atLineStart = true := rfl

theorem depth_writeEntry (d : Dialect) (ctx : Context) (name : String) (t : ApiType) :
    (writeEntry d ctx name t).depth = ctx.depth := by
  obtain ⟨ps, h, -⟩ := addsAlike_writeEntry d (.refl ctx) name t
  exact h.depth

theorem writeEntries_cons (d : Dialect) (ctx : Context) (e : String × ApiType)
    {es : List (String × ApiType)} (h : es ≠ []) :
    writeEntries d ctx (e :: es) = writeEntries d (writeEntry d ctx e.1 e.2).newline es := by
  obtain ⟨f, fs, rfl⟩ := List.exists_cons_of_ne_nil h
  rfl

/-- Behind entries there is a line end, and the next ones go on where a line starts. -/
theorem writeEntries_append (d : Dialect) (ctx : Context) {es fs : List (String × ApiType)}
    (hes : es ≠ []) (hfs : fs ≠ []) :
    writeEntries d ctx (es ++ fs) = writeEntries d (writeEntries d ctx es).newline fs := by
  induction es generalizing ctx with
  | nil => exact absurd rfl hes
  | cons e es ih =>
    by_cases hrest : es = []
    · subst hrest
      exact writeEntries_cons d ctx e hfs
    · rw [List.cons_append, writeEntries_cons d ctx e (by simp [hrest]), ih _ hrest,
        writeEntries_cons d ctx e hrest]

theorem textAt_append (d : Dialect) (layout : Layout) (depth : Nat)
    {es fs : List (String × ApiType)} (hes : es ≠ []) (hfs : fs ≠ []) :
    textAt d layout depth (es ++ fs) =
      textAt d layout depth es ++ '\n' :: textAt d layout depth fs := by
  let fresh : Context := { layout := layout, depth := depth }
  obtain ⟨ps, hbefore, -⟩ := addsAlike_writeEntries d es (.refl fresh)
  have hstart : (writeEntries d fresh es).newline.atLineStart = true := rfl
  rw [textAt, writeEntries_append d fresh hes hfs, toList_writeEntries d hstart,
    Context.toList_newline, Context.layout_newline, Context.depth_newline, hbefore.layout,
    hbefore.depth, List.append_assoc]
  rfl

theorem toList_print_typeScript (layout : Layout) (s : Schema) :
    (print .typeScript layout s).toList = textAt .typeScript layout 0 s.entries := rfl

/-- Types and entries keep the depth, and an entry ends where a line starts. Of two schemas without
a common name, one behind the other is printed as the text of the first, a line end and the text of
the second. In a module this holds of the bodies, which stand between its first and last line. -/
theorem print_followedBy (layout : Layout) :
    (∀ ctx t, (writeType ctx t).depth = ctx.depth) ∧
    (∀ d ctx name t, (writeEntry d ctx name t).depth = ctx.depth ∧
      (writeEntry d ctx name t).atLineStart = true) ∧
    (∀ a b : Schema, a.Apart b → (print .typeScript layout (a.followedBy b)).toList =
      (print .typeScript layout a).toList ++ '\n' :: (print .typeScript layout b).toList) ∧
    ∀ module, ∃ body : Schema → List Char,
      (∀ s, (print (.flow module) layout s).toList =
        moduleBegin module ++ body s ++ moduleEnd) ∧
      ∀ a b : Schema, a.Apart b → (print (.flow module) layout (a.followedBy b)).toList =
        moduleBegin module ++ (body a ++ '\n' :: body b) ++ moduleEnd := by
  refine ⟨depth_writeType, fun d ctx name t => ?_, fun a b h => ?_, fun module => ?_⟩
  · exact ⟨depth_writeEntry d ctx name t, atLineStart_writeEntry d ctx name t⟩
  · rw [toList_print_typeScript, Schema.entries_followedBy h.names,
      textAt_append _ _ _ h.left h.right]
    rfl
  · refine ⟨fun s => textAt (.flow module) layout 1 s.entries,
      toList_print_module module layout, fun a b h => ?_⟩
    rw [toList_print_module, Schema.entries_followedBy h.names,
      textAt_append _ _ _ h.left h.right]

def dotSchema : Schema := .ofList [("Dot", .record [] [.ofText "Nothing."])]

/-- A record inside a list, both with documentation. -/
def pairSchema : Schema :=
  .ofList [("Pair", .record [⟨"at", .array (.record [⟨"x", .scalar .float, true, none⟩] []) [],
    false, some (.ofText "Where.")⟩] [])]

theorem print_followedBy_pairSchema :
    dotSchema.Apart pairSchema ∧
      (print .typeScript {} (dotSchema.followedBy pairSchema)).toList =
        (print .typeScript {} dotSchema).toList ++
          '\n' :: (print .typeScript {} pairSchema).toList ∧
      ∃ body : Schema → List Char, (print (.flow "api") {} pairSchema).toList =
          moduleBegin "api" ++ body pairSchema ++ moduleEnd ∧
        (print (.flow "api") {} (dotSchema.followedBy pairSchema)).toList =
          moduleBegin "api" ++ (body dotSchema ++ '\n' :: body pairSchema) ++ moduleEnd := by
  have hapart : dotSchema.Apart pairSchema := by
    constructor
    · exact List.cons_ne_nil _ _
    · exact List.cons_ne_nil _ _
    · exact List.disjoint_left.mpr (by decide)
  obtain ⟨-, -, hplain, hmodule⟩ := print_followedBy {}
  obtain ⟨body, hbody, hfollowed⟩ := hmodule "api"
  exact ⟨hapart, hplain _ _ hapart, body, hbody pairSchema, hfollowed _ _ hapart⟩

end Printing

end ApiTypings
