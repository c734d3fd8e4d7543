import ApiTypings.Proofs.Declaration.Variants
import ApiTypings.Proofs.Page.Accepted
import ApiTypings.Proofs.Page.Definitions
import ApiTypings.Proofs.Printing.Silent

/-!
# Unions without members

A cell always names a type, but a list need not have items. So an entry can be a union without
members, which is the only type of an accepted page that is written as nothing.
-/
namespace ApiTypings

open Markup (Node Spot)
open Page (IsItem IsCellType IsEntryType readSection sectionElements sectionComments readListing
  readSchema typeHeadings Settles plainElement forall_isItem_of_names memberUnions_of_isItem)
open Printing (Context Silent writeType code_writeType_eq_iff)

section Known

variable {known : String → Prop} {t : ApiType}

theorem Page.IsCellType.length_of_mem_unions (h : IsCellType known t) :
    ∀ ts ∈ t.unions, 2 ≤ ts.length := by
  induction h with
  | item h => simp [h.unions]
  | union hlen h => simpa [ApiType.unions, memberUnions_of_isItem h] using hlen
  | array h ih => exact ih

/-- Only an entry itself can be a union without members. -/
theorem Page.IsEntryType.hasEmptyUnion_iff (h : IsEntryType known t) :
    [] ∈ t.unions ↔ ∃ cs, t = .union [] cs := by
  cases h with
  | any cs => simp [ApiType.unions]
  | union h cs => simp [ApiType.unions, memberUnions_of_isItem (forall_isItem_of_names h), eq_comm]
  | record h cs =>
    refine iff_of_false (fun hmem => ?_) (by simp)
    rw [ApiType.unions, Declaration.propertyUnions_eq] at hmem
    obtain ⟨u, hu, hmem⟩ := List.mem_flatMap.mp hmem
    obtain ⟨p, hp, rfl⟩ := List.mem_map.mp hu
    exact absurd ((h p hp).2.length_of_mem_unions [] hmem) (by simp)

variable (hknown : ∀ n, known n → n ≠ "")

include hknown

theorem Page.IsItem.not_silent (h : IsItem known t) : ¬Silent t := by
  intro hsilent
  cases h with
  | scalar s => cases hsilent
  | named h =>
    cases hsilent
    exact hknown "" h rfl

theorem Page.IsCellType.not_silent (h : IsCellType known t) : ¬Silent t := by
  intro hsilent
  cases h with
  | item h => exact h.not_silent hknown hsilent
  | union hlen h => cases hsilent <;> simp at hlen
  | array h => cases hsilent

theorem Page.IsEntryType.silent_iff (h : IsEntryType known t) :
    Silent t ↔ ∃ cs, t = .union [] cs := by
  refine ⟨fun hsilent => ?_, by rintro ⟨cs, rfl⟩; exact .none cs⟩
  cases h with
  | any cs => cases hsilent
  | union h cs =>
    cases hsilent with
    | none => exact ⟨cs, rfl⟩
    | one hmember =>
      exact absurd hmember ((forall_isItem_of_names h _ List.mem_cons_self).not_silent hknown)
  | record h cs => cases hsilent

end Known

/-! ### Lists without items -/

/-- Whether a section has a list and no table, and the first list has no items. -/
structure ListsNothing (heading : Spot) : Prop where
  table : (sectionElements heading).find? (Spot.hasTag "table") = none
  listing : ∃ listing, (sectionElements heading).find? (Spot.hasTag "ul") = some listing ∧
    listing.withPath ["li"] = []

theorem readListing_eq_nil_iff {listing : Spot} :
    readListing listing = .ok [] ↔ listing.withPath ["li"] = [] := by
  rw [readListing, Page.mapM_eq_ok, List.forall₂_nil_right_iff]

theorem readSection_eq_union_nil_iff {heading : Spot} :
    (∃ cs, readSection heading = .ok (.union [] cs)) ↔ ListsNothing heading := by
  constructor
  · rintro ⟨cs, hread⟩
    unfold readSection at hread
    dsimp only at hread
    split at hread
    · obtain ⟨ps, -, hrecord⟩ := Page.map_eq_ok.mp hread
      cases hrecord
    · next htable =>
      split at hread
      · next listing hlisting =>
        obtain ⟨ts, hts, hunion⟩ := Page.map_eq_ok.mp hread
        cases hunion
        exact ⟨htable, listing, hlisting, readListing_eq_nil_iff.mp hts⟩
      · cases hread
  · rintro ⟨htable, listing, hlisting, hitems⟩
    refine ⟨sectionComments heading, ?_⟩
    rw [readSection, htable, hlisting]
    exact Page.map_eq_ok.mpr ⟨[], readListing_eq_nil_iff.mpr hitems, rfl⟩

/-- Among the types of an accepted page there is a union without members exactly if the last section
of some name lists nothing. Such a union is an entry, and no other type is written as nothing. -/
theorem nil_mem_unions_iff {document : List Node} {s : Schema} (h : readSchema document = .ok s) :
    ([] ∈ s.unions ↔ ∃ heading, Settles (typeHeadings document) heading ∧ ListsNothing heading) ∧
      ∀ e ∈ s.entries, ∀ ctx : Context,
        (∀ t ∈ e.2.parts, (writeType ctx t).code ≠ ctx.code) ∧
        ((writeType ctx e.2).code = ctx.code ↔ ∃ cs, e.2 = .union [] cs) := by
  have hentries : ∀ e ∈ s.entries, IsEntryType (· ∈ s.names) e.2 :=
    fun e he => (Page.isEntryType_of_readSchema h he).2
  have hnames : ∀ n, n ∈ s.names → n ≠ "" := by
    rintro n hn rfl
    exact absurd (Page.isTypeName_of_mem_names h hn) (by decide)
  refine ⟨?_, fun e he ctx => ⟨fun t ht => ?_, ?_⟩⟩
  · have hdefines := Page.defines_of_readSchema h
    constructor
    · intro hmem
      obtain ⟨e, he, hmem⟩ := List.mem_flatMap.mp hmem
      obtain ⟨cs, hunion⟩ := (hentries e he).hasEmptyUnion_iff.mp hmem
      obtain ⟨heading, hsettles, -, hread⟩ := hdefines.mem_entries.mp (show (e.1, e.2) ∈ _ from he)
      exact ⟨heading, hsettles, readSection_eq_union_nil_iff.mp ⟨cs, hunion ▸ hread⟩⟩
    · rintro ⟨heading, hsettles, hnothing⟩
      obtain ⟨cs, hread⟩ := readSection_eq_union_nil_iff.mpr hnothing
      have he := hdefines.mem_entries.mpr ⟨heading, hsettles, rfl, hread⟩
      exact List.mem_flatMap.mpr ⟨_, he, (hentries _ he).hasEmptyUnion_iff.mpr ⟨cs, rfl⟩⟩
  · rw [ne_eq, code_writeType_eq_iff]
    exact ((hentries e he).isCellType_of_mem_parts t ht).not_silent hnames
  · rw [code_writeType_eq_iff]
    exact (hentries e he).silent_iff hnames

/-! ### A page with an empty list -/

def pollPage : List Node :=
  [plainElement "h4" [.text "Poll"], plainElement "ul" [], plainElement "h4" [.text "Vote"],
    plainElement "ul" [plainElement "li" [.text "Poll"]]]

def pollSchema : Schema :=
  Schema.ofList [("Poll", .union [] []), ("Vote", .union [.named "Poll" []] [])]

theorem nil_mem_unions_iff_pollPage :
    readSchema pollPage = .ok pollSchema ∧
      (∃ heading, Settles (typeHeadings pollPage) heading ∧ ListsNothing heading) ∧
      ∀ ctx, (writeType ctx (.union [] [])).code = ctx.code ∧
        (writeType ctx (.named "Poll" [])).code ≠ ctx.code := by
  have hread : readSchema pollPage = .ok pollSchema := rfl
  obtain ⟨hunions, hwritten⟩ := nil_mem_unions_iff hread
  refine ⟨hread, hunions.mp List.mem_cons_self, fun ctx => ⟨?_, ?_⟩⟩
  · exact (hwritten ("Poll", .union [] []) List.mem_cons_self ctx).2.mpr ⟨[], rfl⟩
  · exact (hwritten ("Vote", .union [.named "Poll" []] []) (List.mem_cons_of_mem _
      List.mem_cons_self) ctx).1 _ List.mem_cons_self

/-- The declaration of the first entry has no type. -/
theorem print_pollPage : readSchema pollPage = .ok pollSchema ∧ [] ∈ pollSchema.unions ∧
    Printing.print .typeScript {} pollSchema =
      "export type Poll = ;\n\nexport type Vote = Poll;\n" ∧
    Printing.print (.flow "api") {} pollSchema =
      "declare module \"api\" \x7b\n  declare type Poll = \n\n  declare type Vote = Poll\n\x7d\n" :=
  ⟨rfl, List.mem_cons_self, by decide +kernel, by decide +kernel⟩

end ApiTypings
