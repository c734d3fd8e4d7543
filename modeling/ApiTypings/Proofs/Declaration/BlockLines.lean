import ApiTypings.Proofs.Declaration.Blocks

/-!
# The lines of a block

A block is lines above code: those of the documentation and then an attribute. Struct and enum
documentation is cut into lines before it is written, and the attribute of an enum stands behind
the first of the lines above it that ends like the derive attribute.
-/
namespace ApiTypings

open Text
open Printing (Context Deeper outputLines outputLines_append_newline outputLines_flatMap
  newline_of_mem_outputLines indented)

namespace Declaration

/-! ### Lines above code -/

theorem intercalate_outputLines (s : List Char) : ['\n'].intercalate (outputLines s) = s := by
  induction s with
  | nil => rfl
  | cons c s ih =>
    have hne : outputLines s ≠ [] := pieces_ne_nil _ s
    obtain ⟨l, ls, hlines⟩ := List.exists_cons_of_ne_nil hne
    rw [hlines] at ih
    by_cases hc : c = '\n'
    · subst hc
      have hcut : outputLines ('\n' :: s) = [] :: outputLines s := rfl
      rw [hcut, hlines, List.intercalate_cons_cons, ih]
      rfl
    · have hkept : outputLines (c :: s) = (c :: l) :: ls := by
        rw [outputLines, pieces, if_neg (by simpa using hc)]
        exact congrArg (extend c) hlines
      rw [hkept]
      cases ls with
      | nil => simpa using ih
      | cons m ls =>
        rw [List.intercalate_cons_cons] at ih ⊢
        rw [← ih]
        simp

theorem eq_of_outputLines {s t : List Char} {above : List (List Char)}
    (h : outputLines s = above ++ outputLines t) : s = above.flatMap (· ++ ['\n']) ++ t := by
  have habove : ∀ l ∈ above, '\n' ∉ l := fun l hl =>
    newline_of_mem_outputLines (s := s) (h ▸ List.mem_append_left _ hl)
  rw [← intercalate_outputLines s, h, ← outputLines_flatMap habove, intercalate_outputLines]

theorem withoutReturns_append_left {s : List Char} (hs : '\r' ∉ s) (t : List Char) :
    withoutReturns (s ++ t) = s ++ withoutReturns t := by
  induction s with
  | nil => rfl
  | cons c s ih =>
    obtain ⟨hc, hs⟩ := not_or.mp (mt List.mem_cons.mpr hs)
    rw [List.cons_append, withoutReturns_cons fun h => absurd h.symm hc, ih hs]
    rfl

/-! ### Fields -/

theorem toList_foldl_putDoc (ctx : Context) (hstart : ctx.atLineStart = true) {docs : List String}
    (hdocs : ∀ l ∈ docs, '\n' ∉ l.toList) : (docs.foldl putDoc ctx).code.toList =
      ctx.code.toList ++
        (docs.map (fun l => ctx.margin.toList ++ ("/// ".toList ++ l.toList))).flatMap
          (· ++ ['\n']) := by
  induction docs generalizing ctx with
  | nil => exact (List.append_nil _).symm
  | cons line docs ih =>
    obtain ⟨hline, hdocs⟩ := List.forall_mem_cons.mp hdocs
    have hpieces : outputLines ("/// ".toList ++ withoutReturns line.toList) =
        ["/// ".toList ++ line.toList] := docPieces_of_not_mem hline
    have hfirst : (putDoc ctx line).code.toList = ctx.code.toList ++
        (ctx.margin.toList ++ ("/// ".toList ++ line.toList) ++ ['\n']) := by
      rw [putDoc_eq, Context.toList_newline_foldl_of_atLineStart hstart, hpieces]
      simp [indented]
    rw [List.foldl_cons, ih _ (atLineStart_putDoc ctx line) hdocs, hfirst,
      margin_eq_of_continues (continues_putDoc ctx line), List.map_cons, List.flatMap_cons,
      List.append_assoc]

/-- Where a field is written. -/
def inside : Context := blank.nest

theorem toList_margin_inside : inside.margin.toList = "    ".toList := by decide

def deriveAttribute : List Char := "#[derive(Serialize, Deserialize, Debug, Clone)]".toList

def untaggedAttribute : List Char := "#[serde(untagged)]".toList

theorem deriveLine_eq : deriveLine.toList = deriveAttribute ++ ['\n'] := by decide

theorem withoutReturn_deriveAttribute : withoutReturn deriveAttribute = deriveAttribute := by decide

theorem toList_putHead (keyword : String) (hkeyword : '\n' ∉ ("pub " ++ keyword ++ " ").toList)
    (d : Declaration) : (putHead blank keyword d).code.toList =
      (headLines d.docs ++ [deriveAttribute]).flatMap (· ++ ['\n']) ++
        (("pub " ++ keyword ++ " ").toList ++ withoutReturns d.name.toList) := by
  let lines := (Text.lines (String.intercalate "\n" d.docs).toList).map String.ofList
  have hlines : ∀ l ∈ lines, '\n' ∉ l.toList := by
    intro l hl
    obtain ⟨m, hm, rfl⟩ := List.mem_map.mp hl
    rw [String.toList_ofList]
    exact newline_of_mem_lines hm
  have hshown : lines.map (fun l => blank.margin.toList ++ ("/// ".toList ++ l.toList)) =
      headLines d.docs := by
    rw [List.map_map]
    refine List.map_congr_left fun m _ => ?_
    have hmargin : blank.margin.toList = [] := by decide
    rw [Function.comp_apply, @String.toList_ofList m, hmargin]
    rfl
  have hdocs : (putDocs blank d.docs).code.toList = (headLines d.docs).flatMap (· ++ ['\n']) := by
    have hwritten := toList_foldl_putDoc blank rfl hlines
    rw [hshown] at hwritten
    exact hwritten
  have hframe : Continues blank (putDocs blank d.docs) := Continues.foldl continues_putDoc _ blank
  have hderived := hframe.trans (continues_put _ deriveLine)
  have hopened := hderived.trans (continues_put _ ("pub " ++ keyword ++ " "))
  have hderive : withoutReturns deriveLine.toList = deriveAttribute ++ ['\n'] := by decide
  rw [putHead, toList_put_of_depth hopened.depth, toList_put_of_depth hderived.depth,
    toList_put_of_depth hframe.depth, hdocs, hderive, withoutReturns_of_not_mem hkeyword]
  simp

/-- The brace behind a declared name. It begins a line where the name ends one. -/
def openingBrace (name : String) : List Char :=
  if name.toList.getLast? = some '\n' then "\x7b\n".toList else " \x7b\n".toList

theorem openingBrace_of_not_mem {name : String} (h : '\n' ∉ name.toList) :
    openingBrace name = " \x7b\n".toList :=
  if_neg fun hlast => h (List.mem_of_getLast? hlast)

theorem getLast?_withoutReturns (s : List Char) : (withoutReturns s).getLast? = s.getLast? := by
  fun_induction withoutReturns s with
  | case1 cs ih => simp [List.getLast?_cons, ih]
  | case2 c cs h ih => simp [List.getLast?_cons, ih]
  | case3 => rfl

theorem atLineStart_foldl_writeChar (ctx : Context) (s : List Char) :
    (s.foldl Context.writeChar ctx).atLineStart =
      (s.getLast?.map (· == '\n')).getD ctx.atLineStart := by
  rcases List.eq_nil_or_concat s with rfl | ⟨s, c, rfl⟩
  · rfl
  · rw [List.concat_eq_append, List.foldl_concat, List.getLast?_concat]
    by_cases hc : c = '\n'
    · subst hc
      rfl
    · rw [(Context.writeChar_of_ne _ hc).2.2.1]
      simp [hc]

theorem atLineStart_putHead (ctx : Context) (keyword : String) (d : Declaration) :
    (putHead ctx keyword d).atLineStart = true ↔ d.name.toList.getLast? = some '\n' := by
  have hkeyword : ("pub " ++ keyword ++ " ").toList.getLast? = some ' ' := by
    rw [String.toList_append, List.getLast?_append]
    rfl
  rw [putHead, put_eq_foldl, atLineStart_foldl_writeChar, getLast?_withoutReturns]
  cases d.name.toList.getLast? with
  | none =>
    rw [put_eq_foldl, atLineStart_foldl_writeChar, getLast?_withoutReturns, hkeyword]
    simp
  | some c => simp

theorem toList_putOpen {ctx : Context} (hdepth : ctx.depth = 0) :
    (putOpen ctx).code.toList =
      ctx.code.toList ++ if ctx.atLineStart then "\x7b\n".toList else " \x7b\n".toList := by
  have hbrace : withoutReturns "\x7b\n".toList = "\x7b\n".toList := by decide
  have hspace : withoutReturns " ".toList ++ "\x7b\n".toList = " \x7b\n".toList := by decide
  unfold putOpen
  split
  · rw [toList_put_of_depth hdepth, hbrace]
  · rw [toList_put_of_depth ((continues_put ctx " ").depth.trans hdepth),
      toList_put_of_depth hdepth, hbrace, List.append_assoc, hspace]

theorem toList_putOpen_putHead (keyword : String) (d : Declaration) :
    (putOpen (putHead blank keyword d)).code.toList =
      (putHead blank keyword d).code.toList ++ openingBrace d.name := by
  rw [toList_putOpen (continues_putHead blank keyword d).depth,
    if_congr (atLineStart_putHead blank keyword d) rfl rfl]
  rfl

theorem toList_putBlock (ctx : Context) (hdepth : ctx.depth = 0) {content : Context → Context}
    (hcontent : ∀ ctx, Continues ctx (content ctx)) {s brace : List Char}
    (hbrace : (putOpen ctx).code.toList = ctx.code.toList ++ brace)
    (hs : (content (putOpen ctx).nest).code.toList = (putOpen ctx).code.toList ++ s) :
    (putBlock ctx content).code.toList =
      ctx.code.toList ++ (brace ++ (s ++ ['\x7d', '\n'])) := by
  have hframe := continues_block ctx hcontent
  have hclose : withoutReturns "\x7d\n".toList = ['\x7d', '\n'] := by decide
  have hclosed : (content (putOpen ctx).nest).unnest.code.toList =
      ctx.code.toList ++ brace ++ s := by
    rw [← hbrace, ← hs]
    rfl
  rw [putBlock, toList_put_of_depth (hframe.depth.trans hdepth), hclosed, hclose]
  simp

theorem block_eq_of_append {d : Declaration} {s : List Char}
    (h : (putDeclaration blank d).code.toList = s ++ ['\n']) : block d = s := by
  rw [block, h, List.dropLast_concat]

theorem block_of_putLine {d : Declaration} {s : String}
    (h : putDeclaration blank d = putLine blank s) : block d = withoutReturns s.toList := by
  apply block_eq_of_append
  rw [h, putLine, put_newline, Context.toList_newline, toList_put_of_depth rfl]
  rfl

theorem getLast?_ne_return {s : List Char} (h : s.getLast? = some '\x7d') :
    s.getLast? ≠ some '\r' := by
  rw [h]
  decide

/-- A variant without the line end behind it. -/
def variantText (v : Variant) : List Char :=
  withoutReturns v.name.toList ++ ('(' :: (withoutReturns v.payload.text.toList ++ [')', ',']))

/-- The lines of variants. Even a name that is cut into lines is indented in all of them. -/
def variantLines (variants : List Variant) : List (List Char) :=
  variants.flatMap (fun v => (outputLines (variantText v)).map (indented "    ".toList))

/-- An enum up to its closing brace, without what stands above it. -/
def enumBody (name : String) (variants : List Variant) : List Char :=
  "pub enum ".toList ++ withoutReturns name.toList ++
    (openingBrace name ++ (variantLines variants).flatMap (· ++ ['\n']))

theorem putVariant_eq (ctx : Context) (v : Variant) :
    putVariant ctx v = ((variantText v).foldl Context.writeChar ctx).newline := by
  have hopen : withoutReturns "(".toList = ['('] := by decide
  have hclose : withoutReturns "),\n".toList = [')', ',', '\n'] := by decide
  rw [putVariant, put_eq_foldl, put_eq_foldl, put_eq_foldl, put_eq_foldl, hopen, hclose,
    variantText]
  simp only [List.foldl_append, List.foldl_cons, List.foldl_nil]
  rfl

theorem toList_putVariants {ctx : Context} (hstart : ctx.atLineStart = true)
    (hmargin : ctx.margin.toList = "    ".toList) (variants : List Variant) :
    (variants.foldl putVariant ctx).code.toList =
      ctx.code.toList ++ (variantLines variants).flatMap (· ++ ['\n']) := by
  induction variants generalizing ctx with
  | nil => exact (List.append_nil _).symm
  | cons v variants ih =>
    have hwritten := Context.toList_newline_foldl_of_atLineStart hstart (variantText v)
    have hmargin' : (putVariant ctx v).margin.toList = "    ".toList := by
      rw [margin_eq_of_continues (continues_putVariant ctx v), hmargin]
    have hstart' : (putVariant ctx v).atLineStart = true := by rw [putVariant_eq]; rfl
    rw [List.foldl_cons, ih hstart' hmargin', putVariant_eq, hwritten, hmargin, variantLines,
      variantLines, List.flatMap_cons, List.flatMap_append, List.append_assoc]

theorem margin_nest_of_continues {a b : Context} (h : Continues a b) :
    b.nest.margin = a.nest.margin :=
  Context.margin_congr h.layout (congrArg (· + 1) h.depth)

theorem enumCode_eq (d : Declaration) (variants : List Variant) : enumCode d variants =
    (headLines d.docs ++ [deriveAttribute]).flatMap (· ++ ['\n']) ++
      (enumBody d.name variants ++ ['\x7d', '\n']) := by
  let head := putHead blank "enum" d
  have hframe : Continues blank head := continues_putHead blank "enum" d
  have hmargin : (putOpen head).nest.margin.toList = "    ".toList := by
    rw [margin_nest_of_continues (hframe.trans (continues_putOpen head))]
    exact toList_margin_inside
  have hstart : (putOpen head).nest.atLineStart = true :=
    (Context.atLineStart_nest _).trans (atLineStart_putOpen head)
  have hbrace := toList_putOpen_putHead "enum" d
  have hblock := toList_putBlock head hframe.depth (Continues.foldl continues_putVariant variants)
    hbrace (toList_putVariants hstart hmargin variants)
  have hhead := toList_putHead "enum" (by decide) d
  -- For any texts, since appending to a literal would unfold it.
  have hclosed : ∀ a b c s t : List Char,
      a ++ b ++ (c ++ (s ++ t)) = a ++ (b ++ (c ++ s) ++ t) := by simp
  rw [enumCode, hblock, hhead]
  exact hclosed _ _ _ _ _

theorem newline_of_mem_headLines {docs : List String} {l : List Char} (hl : l ∈ headLines docs) :
    '\n' ∉ l := by
  obtain ⟨m, hm, rfl⟩ := List.mem_map.mp hl
  simpa using newline_of_mem_lines hm

/-- The lines above an enum: its attribute stands behind the first that ends like the derive
attribute. -/
def enumHead (docs : List String) : List (List Char) :=
  insertBehind deriveAttribute untaggedAttribute (headLines docs ++ [deriveAttribute])

theorem exists_enumHead (docs : List String) :
    ∃ us u vs, headLines docs ++ [deriveAttribute] = us ++ u :: vs ∧
      (∀ l ∈ us, ¬deriveAttribute <:+ l) ∧ deriveAttribute <:+ u ∧
      enumHead docs = us ++ u :: untaggedAttribute :: vs :=
  exists_insertBehind _ _ ⟨deriveAttribute, by simp, List.suffix_rfl⟩

theorem enumText_eq (d : Declaration) (variants : List Variant) : (enumText d variants).toList =
    (enumHead d.docs).flatMap (· ++ ['\n']) ++ (enumBody d.name variants ++ ['\x7d']) := by
  have hlines : ∀ l ∈ headLines d.docs ++ [deriveAttribute], '\n' ∉ l :=
    List.forall_mem_append.mpr ⟨fun l hl => newline_of_mem_headLines hl,
      List.forall_mem_singleton.mpr (by decide)⟩
  have hends : ∃ l ∈ headLines d.docs ++ [deriveAttribute], deriveAttribute <:+ l :=
    ⟨deriveAttribute, by simp, List.suffix_rfl⟩
  have hboth : (deriveLine ++ untaggedLine).toList =
      deriveAttribute ++ '\n' :: (untaggedAttribute ++ ['\n']) := by decide
  have hreplaced := replaceFirst_lines (by decide) untaggedAttribute hlines hends
    (enumBody d.name variants ++ ['\x7d', '\n'])
  rw [← enumCode_eq, ← deriveLine_eq, ← hboth, ← List.append_assoc] at hreplaced
  rw [enumText, String.toList_ofList, ← enumCode, hreplaced, trimEnd_brace, List.append_assoc]
  rfl

theorem outputLines_block_enum (name : String) (docs : List String) (variants : List Variant) :
    outputLines (block ⟨name, docs, .enum variants⟩) =
      (enumHead docs).map withoutReturn ++
        outputLines (withoutReturns (enumBody name variants ++ ['\x7d'])) := by
  let d : Declaration := ⟨name, docs, .enum variants⟩
  have hlines : ∀ l ∈ enumHead docs, '\n' ∉ l := by
    obtain ⟨us, u, vs, hsplit, -, -, hhead⟩ := exists_enumHead docs
    have habove : ∀ l ∈ us ++ u :: vs, '\n' ∉ l := hsplit ▸ List.forall_mem_append.mpr
      ⟨fun l hl => newline_of_mem_headLines hl, List.forall_mem_singleton.mpr (by decide)⟩
    intro l hl
    rw [hhead] at hl
    by_cases huntagged : l = untaggedAttribute
    · rw [huntagged]
      decide
    · exact habove l (by simpa [huntagged] using hl)
  have hbody : (enumBody name variants ++ ['\x7d']).getLast? = some '\x7d' :=
    List.getLast?_concat
  have hlast := getLast?_ne_return (outputLines_enumText d variants).2
  rw [block_of_putLine (d := d) rfl, outputLines_withoutReturns hlast,
    outputLines_withoutReturns (getLast?_ne_return hbody), enumText_eq, outputLines_flatMap hlines,
    List.map_append]

theorem block_enum (name : String) (docs : List String) (variants : List Variant) :
    block ⟨name, docs, .enum variants⟩ =
      ((enumHead docs).map withoutReturn).flatMap (· ++ ['\n']) ++
        withoutReturns (enumBody name variants ++ ['\x7d']) :=
  eq_of_outputLines (outputLines_block_enum name docs variants)

end Declaration

end ApiTypings
