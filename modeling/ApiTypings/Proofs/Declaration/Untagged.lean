import ApiTypings.Proofs.Declaration.BlockLines
import ApiTypings.Proofs.Declaration.Origin

/-!
# The attribute of enums

An enum has an attribute of its own, which belongs between the derive attribute and the enum. It is
put behind the first line above the enum that ends like the derive attribute. So it is in its place
exactly if no line of documentation ends like that.
-/
namespace ApiTypings.Declaration

open Text
open Printing (outputLines outputLines_flatMap indented newline_of_mem_outputLines newline_indented)

/-- The lines of documentation in the block of an enum. -/
def shownDocs (docs : List String) : List (List Char) := (headLines docs).map withoutReturn

/-- Whether a text is documentation, the derive attribute, that of an enum, and the enum. -/
def IsUntagged (docs : List (List Char)) (text : List Char) : Prop :=
  ∃ code, text = (docs ++ [deriveAttribute, untaggedAttribute]).flatMap (· ++ ['\n']) ++
    ("pub enum ".toList ++ code)

/-! ### Lines that are no attribute -/

theorem prefix_withoutReturn (l : List Char) : withoutReturn l <+: l := by
  unfold withoutReturn
  split
  · exact List.dropLast_prefix l
  · exact List.prefix_rfl

theorem withoutReturn_untaggedAttribute :
    withoutReturn untaggedAttribute = untaggedAttribute := by decide

theorem withoutReturn_ne_untagged {l : List Char} (h : l.head? ≠ some '#') :
    withoutReturn l ≠ untaggedAttribute := by
  intro heq
  obtain ⟨t, rfl⟩ := heq ▸ prefix_withoutReturn l
  exact h rfl

theorem untagged_not_mem_map {ls : List (List Char)} (h : ∀ l ∈ ls, l.head? ≠ some '#') :
    untaggedAttribute ∉ ls.map withoutReturn := by
  intro hmem
  obtain ⟨l, hl, heq⟩ := List.mem_map.mp hmem
  exact withoutReturn_ne_untagged (h l hl) heq

theorem untagged_not_mem_shownDocs (docs : List String) : untaggedAttribute ∉ shownDocs docs := by
  refine untagged_not_mem_map fun l hl => ?_
  obtain ⟨m, -, rfl⟩ := List.mem_map.mp hl
  change some '/' ≠ some '#'
  decide

/-- The lines above an enum hold its attribute once, behind the first that ends like the derive
attribute. -/
theorem exists_map_enumHead (docs : List String) :
    ∃ us u vs, headLines docs ++ [deriveAttribute] = us ++ u :: vs ∧
      (∀ l ∈ us, ¬deriveAttribute <:+ l) ∧
      (enumHead docs).map withoutReturn =
        (us ++ [u]).map withoutReturn ++ untaggedAttribute :: vs.map withoutReturn ∧
      untaggedAttribute ∉ (us ++ [u]).map withoutReturn ∧
      untaggedAttribute ∉ vs.map withoutReturn := by
  obtain ⟨us, u, vs, hsplit, hus, -, hhead⟩ := exists_enumHead docs
  have hnone : untaggedAttribute ∉ shownDocs docs ++ [deriveAttribute] :=
    List.not_mem_append (untagged_not_mem_shownDocs docs) (by decide)
  have hshown : shownDocs docs ++ [deriveAttribute] =
      (us ++ [u]).map withoutReturn ++ vs.map withoutReturn := by
    have hlines := congrArg (List.map withoutReturn) hsplit
    rw [List.map_append, List.map_singleton, withoutReturn_deriveAttribute] at hlines
    rw [shownDocs, hlines]
    simp
  rw [hshown, List.mem_append, not_or] at hnone
  refine ⟨us, u, vs, hsplit, hus, ?_, hnone.1, hnone.2⟩
  rw [hhead]
  simp [withoutReturn_untaggedAttribute]

theorem newline_of_mem_shownDocs {docs : List String} {l : List Char} (h : l ∈ shownDocs docs) :
    '\n' ∉ l := by
  obtain ⟨m, hm, rfl⟩ := List.mem_map.mp h
  exact fun hc => newline_of_mem_headLines hm ((prefix_withoutReturn m).subset hc)

/-! ### The place of the attribute -/

theorem exists_enumBody_eq (name : String) (variants : List Variant) :
    ∃ code, withoutReturns (enumBody name variants ++ ['\x7d']) = "pub enum ".toList ++ code := by
  have hopened : ∀ a b c t : List Char, a ++ b ++ c ++ t = a ++ (b ++ c ++ t) := by simp
  have hkeyword : '\r' ∉ "pub enum ".toList := by decide
  exact ⟨_, (congrArg withoutReturns (hopened _ _ _ _)).trans
    (withoutReturns_append_left hkeyword _)⟩

theorem map_enumHead_of_isUntagged {name : String} {docs : List String}
    {variants : List Variant}
    (h : IsUntagged (shownDocs docs) (block ⟨name, docs, .enum variants⟩)) :
    (enumHead docs).map withoutReturn = shownDocs docs ++ [deriveAttribute, untaggedAttribute] := by
  obtain ⟨code, htext⟩ := h
  have hlines : ∀ l ∈ shownDocs docs ++ [deriveAttribute, untaggedAttribute], '\n' ∉ l :=
    List.forall_mem_append.mpr ⟨fun l hl => newline_of_mem_shownDocs hl, by decide⟩
  have hlength : ((enumHead docs).map withoutReturn).length =
      (shownDocs docs ++ [deriveAttribute, untaggedAttribute]).length := by
    obtain ⟨us, u, vs, hsplit, -, -, hhead⟩ := exists_enumHead docs
    have hcount := congrArg List.length hsplit
    rw [shownDocs, hhead]
    simp only [List.length_append, List.length_map, List.length_cons, List.length_nil] at hcount ⊢
    omega
  have hblock := outputLines_block_enum name docs variants
  rw [htext, outputLines_flatMap hlines] at hblock
  exact (List.append_inj hblock.symm hlength).1

theorem isUntagged_block_iff (name : String) (docs : List String) (variants : List Variant) :
    IsUntagged (shownDocs docs) (block ⟨name, docs, .enum variants⟩) ↔
      ∀ l ∈ headLines docs, ¬deriveAttribute <:+ l := by
  constructor
  · -- The attribute stands behind `u` and nothing below it, so `us` is all of the documentation.
    intro huntagged
    obtain ⟨us, u, vs, hsplit, hus, hhead, habove, hbelow⟩ := exists_map_enumHead docs
    have hplaced : (us ++ [u]).map withoutReturn ++ untaggedAttribute :: vs.map withoutReturn =
        shownDocs docs ++ [deriveAttribute] ++ [untaggedAttribute] := by
      rw [← hhead, map_enumHead_of_isUntagged huntagged, List.append_assoc]
      rfl
    obtain ⟨-, -, hnil⟩ := (List.append_cons_inj_of_notMem habove hbelow).mp hplaced
    obtain rfl := List.map_eq_nil_iff.mp hnil
    obtain ⟨hdocs, -⟩ := List.append_inj' hsplit rfl
    rwa [hdocs]
  · intro hnone
    have hhead : enumHead docs = headLines docs ++ [deriveAttribute, untaggedAttribute] := by
      rw [enumHead, insertBehind_append _ hnone, insertBehind, if_pos List.suffix_rfl]
    obtain ⟨code, hcode⟩ := exists_enumBody_eq name variants
    refine ⟨code, ?_⟩
    rw [block_enum, hcode, hhead, List.map_append, List.map_cons, List.map_singleton,
      withoutReturn_deriveAttribute, withoutReturn_untaggedAttribute]
    rfl

/-! ### The number of attributes -/

theorem line_of_mem_variantLines {variants : List Variant} {l : List Char}
    (h : l ∈ variantLines variants) :
    '\n' ∉ l ∧ l.head? ≠ some '#' := by
  obtain ⟨v, -, hv⟩ := List.mem_flatMap.mp h
  obtain ⟨m, hm, rfl⟩ := List.mem_map.mp hv
  refine ⟨newline_indented (by decide) (newline_of_mem_outputLines hm), ?_⟩
  rw [indented]
  split
  · simp
  · change some ' ' ≠ some '#'
    decide

/-- The lines of an enum behind those above it. -/
theorem outputLines_enumBody {name : String} (hname : '\n' ∉ name.toList)
    (variants : List Variant) : outputLines (enumBody name variants ++ ['\x7d']) =
      ("pub enum ".toList ++ (name.toList ++ " \x7b".toList)) ::
        (variantLines variants ++ [['\x7d']]) := by
  have hfirst : '\n' ∉ "pub enum ".toList ++ (name.toList ++ " \x7b".toList) := by
    simpa using hname
  have hlines : ∀ l ∈ ("pub enum ".toList ++ (name.toList ++ " \x7b".toList)) ::
      variantLines variants, '\n' ∉ l :=
    List.forall_mem_cons.mpr ⟨hfirst, fun l hl => (line_of_mem_variantLines hl).1⟩
  -- For any texts, since appending to a literal would unfold it.
  have hcut : ∀ a b c s t : List Char,
      a ++ b ++ (c ++ ['\n'] ++ s) ++ t = (a ++ (b ++ c) ++ ['\n'] ++ s) ++ t := by simp
  have hbody : enumBody name variants ++ ['\x7d'] =
      (("pub enum ".toList ++ (name.toList ++ " \x7b".toList)) :: variantLines variants).flatMap
        (· ++ ['\n']) ++ ['\x7d'] := by
    have hbrace : " \x7b\n".toList = " \x7b".toList ++ ['\n'] := by decide
    have hopened : enumBody name variants = "pub enum ".toList ++ name.toList ++
        (" \x7b".toList ++ ['\n'] ++ (variantLines variants).flatMap (· ++ ['\n'])) := by
      rw [← hbrace]
      unfold enumBody
      rw [withoutReturns_of_not_mem hname, openingBrace_of_not_mem hname]
    exact (congrArg (· ++ ['\x7d']) hopened).trans (hcut _ _ _ _ _)
  rw [hbody, outputLines_flatMap hlines]
  rfl

theorem count_untagged_block {name : String} (hname : '\n' ∉ name.toList) (docs : List String)
    (variants : List Variant) :
    (outputLines (block ⟨name, docs, .enum variants⟩)).count untaggedAttribute = 1 := by
  have hlast : (enumBody name variants ++ ['\x7d']).getLast? = some '\x7d' :=
    List.getLast?_concat
  have hbody : untaggedAttribute ∉
      (outputLines (enumBody name variants ++ ['\x7d'])).map withoutReturn := by
    refine untagged_not_mem_map ?_
    rw [outputLines_enumBody hname]
    refine List.forall_mem_cons.mpr ⟨?_, List.forall_mem_append.mpr ⟨?_, ?_⟩⟩
    · change some 'p' ≠ some '#'
      decide
    · exact fun l hl => (line_of_mem_variantLines hl).2
    · exact List.forall_mem_singleton.mpr (by decide)
  obtain ⟨us, u, vs, -, -, hhead, habove, hbelow⟩ := exists_map_enumHead docs
  rw [outputLines_block_enum, outputLines_withoutReturns (getLast?_ne_return hlast), hhead,
    List.count_append, List.count_append, List.count_cons_self, List.count_eq_zero.mpr habove,
    List.count_eq_zero.mpr hbelow, List.count_eq_zero.mpr hbody]

/-! ### The enums of a schema -/

/-- The text of a schema is one block for each declaration. Only the enum of an entry has
documentation, that of the entry. Its attribute stands behind the first line above it that ends like
the derive attribute, so between that attribute and the enum exactly if no line of documentation
ends like it; and there is no other one unless the name of the enum is cut into lines. -/
theorem untagged_afterRuns {s : Schema} {width runs : Nat} {d : Declaration}
    {variants : List Variant} (hd : d ∈ (Generator.afterRuns s width runs).declarations)
    (hbody : d.body = .enum variants) :
    (Generator.afterRuns s width runs).text.toList = importLine.toList ++ '\n' ::
        ['\n', '\n'].intercalate ((Generator.afterRuns s width runs).declarations.map block) ∧
      (∀ t, (d.name, t) ∈ s.entries → d.docs = entryDocs width t.comments) ∧
      (d.name ∉ s.names → d.docs = []) ∧
      (∃ us u vs code, headLines d.docs ++ [deriveAttribute] = us ++ u :: vs ∧
        (∀ l ∈ us, ¬deriveAttribute <:+ l) ∧ deriveAttribute <:+ u ∧
        block d = ((us ++ u :: untaggedAttribute :: vs).map withoutReturn).flatMap (· ++ ['\n']) ++
          ("pub enum ".toList ++ code)) ∧
      (IsUntagged (shownDocs d.docs) (block d) ↔
        ∀ l ∈ headLines d.docs, ¬deriveAttribute <:+ l) ∧
      ('\n' ∉ d.name.toList → (outputLines (block d)).count untaggedAttribute = 1) := by
  obtain ⟨us, horigin⟩ := originates_afterRuns s width runs d hd
  refine ⟨toList_declarationsText (List.ne_nil_of_mem hd), fun t ht => ?_, fun hnone => ?_, ?_⟩
  · obtain ⟨inner, -, hdocs, -⟩ := horigin.exists_entry ht
    exact hdocs
  · cases horigin with
    | entry hmem hinner => exact absurd (List.mem_map_of_mem hmem) hnone
    | used howner hmem hneeds hname hinner => rfl
  · obtain ⟨name, docs, body⟩ := d
    obtain rfl : body = .enum variants := hbody
    refine ⟨?_, isUntagged_block_iff name docs variants,
      fun hname => count_untagged_block hname docs variants⟩
    obtain ⟨us, u, vs, hsplit, hus, hu, hhead⟩ := exists_enumHead docs
    obtain ⟨code, hcode⟩ := exists_enumBody_eq name variants
    refine ⟨us, u, vs, code, hsplit, hus, hu, ?_⟩
    rw [block_enum, hcode, hhead]

/-- A union with one member and one comment. -/
def commentedUnion (comment : String) : Schema :=
  ⟨[("Id", .union [.named "User" []] [.ofText comment]), ("User", .any [])], by simp⟩

/-- The enum of that union with its documentation. -/
def commentedEnum (docs : List String) : Declaration :=
  ⟨"Id", docs, .enum [⟨"User", .boxed (.name "User")⟩]⟩

theorem untagged_afterRuns_commentedUnion :
    commentedEnum ["See #[derive(Clone)]", "and others"] ∈ (Generator.afterRuns
        (commentedUnion "See #[derive(Clone)] and others") 25 1).declarations ∧
      IsUntagged (shownDocs ["See #[derive(Clone)]", "and others"])
        (block (commentedEnum ["See #[derive(Clone)]", "and others"])) ∧
      (outputLines (block (commentedEnum ["See #[derive(Clone)]", "and others"]))).count
        untaggedAttribute = 1 := by
  have hd : commentedEnum ["See #[derive(Clone)]", "and others"] ∈ (Generator.afterRuns
      (commentedUnion "See #[derive(Clone)] and others") 25 1).declarations := by
    decide +kernel
  obtain ⟨-, -, -, -, hplace, hcount⟩ := untagged_afterRuns hd rfl
  exact ⟨hd, hplace.mpr (by decide +kernel), hcount (by decide)⟩

/-- Documentation that ends like the derive attribute draws the attribute of the enum to itself. -/
theorem misplaced_commentedUnion :
    ¬∀ d ∈ (Generator.afterRuns (commentedUnion
        "Use #[derive(Serialize, Deserialize, Debug, Clone)]") 72 1).declarations,
      ∀ variants, d.body = .enum variants → IsUntagged (shownDocs d.docs) (block d) := by
  intro hall
  have hplace : ∀ docs, IsUntagged (shownDocs (commentedEnum docs).docs)
      (block (commentedEnum docs)) → ∀ l ∈ headLines docs, ¬deriveAttribute <:+ l :=
    fun docs => (isUntagged_block_iff "Id" docs _).mp
  have hd : commentedEnum ["Use #[derive(Serialize, Deserialize, Debug, Clone)]"] ∈
      (Generator.afterRuns (commentedUnion
        "Use #[derive(Serialize, Deserialize, Debug, Clone)]") 72 1).declarations := by
    decide +kernel
  have hnone := hplace _ (hall _ hd _ rfl)
  exact absurd hnone (by decide +kernel)

end ApiTypings.Declaration
