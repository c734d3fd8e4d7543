import ApiTypings.Page.Basic
import ApiTypings.Proofs.Page.CellGrammar
import ApiTypings.Proofs.Page.Traversal
import Mathlib.Data.List.TakeWhile

/-!
# The language of type cells

Blanks and array words are taken off the front of a cell for as long as there are any. What remains
has to be items with " or " between them, blanks around each item apart. These cells are read, each
as the type that its items name, and all others are refused.
-/
namespace ApiTypings.Page

open Markup Text

def AllBlank (s : List Char) : Prop := ∀ c ∈ s, isBlank c = true

/-! ### Blanks around a text -/

theorem trimStart_append {blanks : List Char} (h : AllBlank blanks) (s : List Char) :
    trimStart (blanks ++ s) = trimStart s :=
  List.dropWhile_append_of_pos h

theorem trimStart_of_head {s : List Char} (h : ∀ c ∈ s.head?, isBlank c = false) :
    trimStart s = s := by
  cases s with
  | nil => rfl
  | cons c s => exact List.dropWhile_cons_of_neg (by simp [h c rfl])

theorem head_trimStart (s : List Char) : ∀ c ∈ (trimStart s).head?, isBlank c = false := by
  intro c hc
  have hnot := List.head?_dropWhile_not isBlank s
  rw [← trimStart, hc] at hnot
  simpa using hnot

theorem exists_trimStart (s : List Char) : ∃ blanks, AllBlank blanks ∧ s = blanks ++ trimStart s :=
  ⟨s.takeWhile isBlank, fun _ hc => List.mem_takeWhile_imp hc,
    List.takeWhile_append_dropWhile.symm⟩

theorem trimEnd_append {blanks : List Char} (h : AllBlank blanks) (s : List Char) :
    trimEnd (s ++ blanks) = trimEnd s := by
  rw [trimEnd, List.reverse_append, List.dropWhile_append_of_pos
    (fun c hc => h c (List.mem_reverse.mp hc))]
  rfl

theorem exists_trimEnd (s : List Char) : ∃ blanks, AllBlank blanks ∧ s = trimEnd s ++ blanks := by
  obtain ⟨blanks, hblank, hs⟩ := exists_trimStart s.reverse
  refine ⟨blanks.reverse, fun c hc => hblank c (List.mem_reverse.mp hc), ?_⟩
  rw [trimEnd, ← trimStart, ← List.reverse_append, ← hs, List.reverse_reverse]

theorem exists_trim (s : List Char) : ∃ before after, AllBlank before ∧ AllBlank after ∧
    s = before ++ (trim s ++ after) := by
  obtain ⟨before, hbefore, hs⟩ := exists_trimStart s
  obtain ⟨after, hafter, hrest⟩ := exists_trimEnd (trimStart s)
  exact ⟨before, after, hbefore, hafter, hs.trans (congrArg (before ++ ·) hrest)⟩

theorem trim_append {before after : List Char} (hbefore : AllBlank before)
    (hafter : AllBlank after) (s : List Char) : trim (before ++ (s ++ after)) = trim s := by
  rw [trim, trimStart_append hbefore]
  by_cases hs : trimStart s = []
  · have hnone : trimStart (s ++ after) = trimStart after := by
      rw [trimStart, List.dropWhile_append, ← trimStart, hs]
      rfl
    have hall : trimStart after = [] := List.dropWhile_eq_nil_iff.mpr hafter
    rw [trim, hs, hnone, hall]
  · have hsome : trimStart (s ++ after) = trimStart s ++ after := by
      rw [trimStart, List.dropWhile_append, ← trimStart, if_neg (by simpa using hs)]
    rw [hsome, trimEnd_append hafter, trim]

/-! ### Array words -/

/-- "Array of" in capital or small letters, and blanks behind it. -/
def IsArrayWord (w : List Char) : Prop :=
  ∃ letters blanks, w = letters ++ blanks ∧ letters.map Char.toLower = "array of".toList ∧
    AllBlank blanks

theorem afterArray?_eq_some_iff {s r : List Char} : afterArray? s = some r ↔
    ∃ letters, letters.map Char.toLower = "array of".toList ∧
      ∃ t, s = letters ++ t ∧ r = trimStart t := by
  constructor
  · intro h
    unfold afterArray? at h
    split at h
    · next hletters =>
      exact ⟨s.take 8, hletters, s.drop 8, (List.take_append_drop 8 s).symm,
        (Option.some.inj h).symm⟩
    · cases h
  · rintro ⟨letters, hletters, t, rfl, rfl⟩
    have hlength : letters.length = 8 := by
      rw [← List.length_map Char.toLower, hletters]
      rfl
    rw [afterArray?, List.take_left' hlength, List.drop_left' hlength, if_pos hletters]

theorem IsArrayWord.afterArray? {w : List Char} (h : IsArrayWord w) (s : List Char) :
    Page.afterArray? (w ++ s) = some (trimStart s) := by
  obtain ⟨letters, blanks, rfl, hletters, hblanks⟩ := h
  rw [afterArray?_eq_some_iff]
  exact ⟨letters, hletters, blanks ++ s, List.append_assoc .., (trimStart_append hblanks s).symm⟩

theorem isBlank_of_toLower {c : Char} (h : c.toLower = 'a') : isBlank c = false := by
  unfold Char.toLower at h
  split at h
  · next hupper =>
    have hcapital : c.isUpper = true := decide_eq_true hupper
    exact isBlank_of_isIdentifierChar (isIdentifierChar_of_isUpper hcapital)
  · rw [h]
    decide

theorem IsArrayWord.trimStart {w : List Char} (h : IsArrayWord w) (s : List Char) :
    Text.trimStart (w ++ s) = w ++ s := by
  obtain ⟨letters, blanks, rfl, hletters, -⟩ := h
  cases letters with
  | nil => exact absurd hletters (by decide)
  | cons c letters =>
    have hc : isBlank c = false := isBlank_of_toLower (List.cons.inj hletters).1
    exact List.dropWhile_cons_of_neg (by simp [hc])

/-- Array words in front of a text are counted one by one. -/
theorem leadingArrays_append {words : List (List Char)} (h : ∀ w ∈ words, IsArrayWord w)
    (s : List Char) : leadingArrays (trimStart (words.flatten ++ s)) =
      ((leadingArrays (trimStart s)).1 + words.length, (leadingArrays (trimStart s)).2) := by
  induction words with
  | nil => rfl
  | cons w ws ih =>
    obtain ⟨hw, hws⟩ := List.forall_mem_cons.mp h
    rw [List.flatten_cons, List.append_assoc, hw.trimStart,
      leadingArrays_of_some (hw.afterArray? _), ih hws]
    rfl

theorem exists_arrayWords (s : List Char) : ∃ words : List (List Char),
    (∀ w ∈ words, IsArrayWord w) ∧ words.length = (leadingArrays s).1 ∧
      s = words.flatten ++ (leadingArrays s).2 := by
  fun_induction leadingArrays s with
  | case1 s h => exact ⟨[], by simp, rfl, rfl⟩
  | case2 s r h _ ih =>
    obtain ⟨letters, hletters, t, rfl, rfl⟩ := afterArray?_eq_some_iff.mp h
    obtain ⟨blanks, hblanks, ht⟩ := exists_trimStart t
    obtain ⟨words, hwords, hlength, hs⟩ := ih
    refine ⟨(letters ++ blanks) :: words,
      List.forall_mem_cons.mpr ⟨⟨letters, blanks, rfl, hletters, hblanks⟩, hwords⟩,
      congrArg (· + 1) hlength, ?_⟩
    rw [List.flatten_cons, List.append_assoc, List.append_assoc, ← hs, ← ht]

/-- Behind the array words there is neither a blank nor another one. -/
theorem leadingArrays_ends {s : List Char} (h : ∀ c ∈ s.head?, isBlank c = false) :
    afterArray? (leadingArrays s).2 = none ∧
      ∀ c ∈ (leadingArrays s).2.head?, isBlank c = false := by
  fun_induction leadingArrays s with
  | case1 s hnone => exact ⟨hnone, h⟩
  | case2 s r hr _ ih =>
    obtain ⟨letters, hletters, t, rfl, rfl⟩ := afterArray?_eq_some_iff.mp hr
    exact ih (head_trimStart t)

/-- Whether a row of signs is blanks, `n` array words and then `rest`, with no more blanks or array
words to take off. -/
structure Strips (ss : List Sign) (n : Nat) (rest : List Sign) : Prop where
  split : ∃ (blanks : List Char) (words : List (List Char)), AllBlank blanks ∧
    (∀ w ∈ words, IsArrayWord w) ∧ words.length = n ∧
    ss = (blanks ++ words.flatten).map .char ++ rest
  no_blank : ∀ c, rest.head? = some (.char c) → isBlank c = false
  no_word : ∀ w, IsArrayWord w → ¬ w.map .char <+: rest

theorem Strips.of_text {s : List Char} {ss : List Sign} (hlink : BeginsWithLink ss) {n : Nat}
    {rest : List Sign} (h : Strips (s.map .char ++ ss) n rest) :
    n = (leadingArrays (trimStart s)).1 ∧
      rest = (leadingArrays (trimStart s)).2.map .char ++ ss := by
  obtain ⟨⟨blanks, words, hblanks, hwords, rfl, hss⟩, hblank, hword⟩ := h
  obtain ⟨r, rfl, rfl⟩ := exists_text_of_append_eq hlink hss
  have htrim : trimStart r = r := by
    refine trimStart_of_head fun c hc => ?_
    obtain ⟨t, rfl⟩ := List.head?_eq_some_iff.mp hc
    exact hblank c rfl
  have hnone : afterArray? r = none := by
    refine Option.eq_none_iff_forall_ne_some.mpr fun x hx => ?_
    obtain ⟨letters, hletters, t, rfl, -⟩ := afterArray?_eq_some_iff.mp hx
    apply hword letters ⟨letters, [], (List.append_nil _).symm, hletters, by simp [AllBlank]⟩
    rw [List.map_append, List.append_assoc]
    exact List.prefix_append ..
  rw [List.append_assoc, trimStart_append hblanks, leadingArrays_append hwords, htrim,
    leadingArrays_of_none hnone, Nat.zero_add]
  exact ⟨rfl, rfl⟩

theorem strips_text (s : List Char) {ss : List Sign} (hlink : BeginsWithLink ss) :
    Strips (s.map .char ++ ss) (leadingArrays (trimStart s)).1
      ((leadingArrays (trimStart s)).2.map .char ++ ss) := by
  obtain ⟨blanks, hblanks, hs⟩ := exists_trimStart s
  obtain ⟨words, hwords, hlength, hrest⟩ := exists_arrayWords (trimStart s)
  obtain ⟨hnone, hhead⟩ := leadingArrays_ends (head_trimStart s)
  constructor
  · refine ⟨blanks, words, hblanks, hwords, hlength, ?_⟩
    rw [← List.append_assoc, ← List.map_append, List.append_assoc, ← hrest, ← hs]
  · intro c hc
    cases hr : (leadingArrays (trimStart s)).2 with
    | nil =>
      rw [hr] at hc
      exact absurd hc (hlink c)
    | cons d r =>
      rw [hr] at hc hhead
      obtain rfl : d = c := by simpa using hc
      exact hhead d rfl
  · rintro w hw ⟨js, hjs⟩
    obtain ⟨r, hr, -⟩ := exists_text_of_append_eq hlink hjs.symm
    rw [hr, hw.afterArray?] at hnone
    cases hnone

theorem strips_text_iff (s : List Char) {ss : List Sign} (hlink : BeginsWithLink ss) {n : Nat}
    {rest : List Sign} : Strips (s.map .char ++ ss) n rest ↔
      n = (leadingArrays (trimStart s)).1 ∧
        rest = (leadingArrays (trimStart s)).2.map .char ++ ss := by
  constructor
  · exact Strips.of_text hlink
  · rintro ⟨rfl, rfl⟩
    exact strips_text s hlink

theorem strips_iff {segments : List Segment} (h : Alternates segments) {n : Nat}
    {rest : List Sign} : Strips (allSigns segments) n rest ↔
      n = (withoutArrays segments).1 ∧ rest = allSigns (withoutArrays segments).2 := by
  have hempty : ∀ ss, BeginsWithLink ss → (Strips ss n rest ↔ n = 0 ∧ rest = ss) := by
    intro ss hlink
    have hnone : leadingArrays (trimStart []) = (0, []) := leadingArrays_of_none rfl
    have hstrips : Strips ss n rest ↔ _ := strips_text_iff [] hlink
    rwa [hnone] at hstrips
  cases segments with
  | nil => exact hempty [] beginsWithLink_nil
  | cons first segments =>
    cases first with
    | text s => exact strips_text_iff s h.1
    | link target label => exact hempty _ (beginsWithLink_link target label (allSigns segments))

theorem alternates_withoutArrays {segments : List Segment} (h : Alternates segments) :
    Alternates (withoutArrays segments).2 := by
  cases segments with
  | nil => exact h
  | cons first segments => cases first <;> exact h

/-! ### Items -/

/-- Whether a part is an item with blanks around it. -/
def Padded (item part : List Sign) : Prop :=
  ∃ before after : List Char, AllBlank before ∧ AllBlank after ∧
    part = before.map .char ++ (item ++ after.map .char)

/-- How an item stands in a cell. -/
def SpellsPart (t : ApiType) (part : List Sign) : Prop :=
  ∃ item, SpellsItem t item ∧ Padded item part

theorem foldr_prepend (ss : List Sign) (p : List Sign) (ps : List (List Sign)) :
    ss.foldr prepend (p :: ps) = (ss ++ p) :: ps := by
  induction ss with
  | nil => rfl
  | cons s ss ih => rw [List.foldr_cons, ih]; rfl

theorem cut_cons {s : Sign} {ss : List Sign} (h : ss.head? ≠ some (.char 'o')) :
    cut (s :: ss) = prepend s (cut ss) := by
  rw [cut]
  rintro ss' - rfl
  exact h rfl

/-- Blanks are not divided, unless they belong to a separator. -/
theorem cut_blanks {blanks : List Char} (h : AllBlank blanks) {ss : List Sign}
    (hss : ss.head? ≠ some (.char 'o')) :
    cut (blanks.map .char ++ ss) = (blanks.map .char).foldr prepend (cut ss) := by
  induction blanks with
  | nil => rfl
  | cons c blanks ih =>
    obtain ⟨-, hblanks⟩ := List.forall_mem_cons.mp h
    have hhead : (blanks.map Sign.char ++ ss).head? ≠ some (.char 'o') := by
      cases blanks with
      | nil => exact hss
      | cons d blanks =>
        have hd : isBlank d = true := hblanks d List.mem_cons_self
        rintro hd'
        obtain rfl : d = 'o' := by simpa using hd'
        exact absurd hd (by decide)
    rw [List.map_cons, List.cons_append, cut_cons hhead, ih hblanks]
    rfl

/-- No separator begins in an item. -/
theorem cut_item_append {t : ApiType} {item : List Sign} (h : SpellsItem t item) (ss : List Sign) :
    (item ++ ss).head? ≠ some (.char 'o') ∧ cut (item ++ ss) = item.foldr prepend (cut ss) := by
  cases h with
  | link ht hn => exact ⟨by simp, rfl⟩
  | scalar h =>
    refine forall_scalarWords (P := fun w => (signsOf w ++ ss).head? ≠ some (.char 'o') ∧
      cut (signsOf w ++ ss) = (signsOf w).foldr prepend (cut ss)) ?_ h
    simp only [List.forall_mem_cons]
    exact ⟨⟨by simp [signsOf], rfl⟩, ⟨by simp [signsOf], rfl⟩, ⟨by simp [signsOf], rfl⟩,
      ⟨by simp [signsOf], rfl⟩, ⟨by simp [signsOf], rfl⟩, ⟨by simp [signsOf], rfl⟩, by simp⟩

theorem cut_part_append {t : ApiType} {part : List Sign} (h : SpellsPart t part) (ss : List Sign)
    (hss : ss.head? ≠ some (.char 'o')) : cut (part ++ ss) = part.foldr prepend (cut ss) := by
  obtain ⟨item, hitem, before, after, hbefore, hafter, rfl⟩ := h
  obtain ⟨hhead, hcut⟩ := cut_item_append hitem (after.map .char ++ ss)
  rw [List.append_assoc, List.append_assoc, cut_blanks hbefore hhead, hcut, cut_blanks hafter hss,
    List.foldr_append, List.foldr_append]

theorem cut_parts {types : List ApiType} {parts : List (List Sign)}
    (h : List.Forall₂ SpellsPart types parts) (hne : types ≠ []) :
    cut ((signsOf " or ").intercalate parts) = parts := by
  induction h with
  | nil => exact absurd rfl hne
  | @cons t part ts parts hpart hparts ih =>
    cases hparts with
    | nil =>
      have hcut := cut_part_append hpart [] (by simp)
      rw [List.append_nil, cut, foldr_prepend, List.append_nil] at hcut
      rw [List.intercalate_singleton, hcut]
    | cons hnext hrest =>
      have hseparator : ∀ ss, cut (signsOf " or " ++ ss) = [] :: cut ss := fun _ => rfl
      rw [List.intercalate_cons_cons, List.append_assoc,
        cut_part_append hpart _ (by simp [signsOf]), hseparator, ih (by simp), foldr_prepend,
        List.append_nil]

theorem intercalate_prepend (s : Sign) {parts : List (List Sign)} (h : parts ≠ []) :
    (signsOf " or ").intercalate (prepend s parts) = s :: (signsOf " or ").intercalate parts := by
  obtain ⟨p, ps, rfl⟩ := List.exists_cons_of_ne_nil h
  cases ps <;> simp [prepend]

/-- The parts of a cell are the cell, with the separators between them. -/
theorem intercalate_cut (ss : List Sign) : (signsOf " or ").intercalate (cut ss) = ss := by
  fun_induction cut ss with
  | case1 ss ih =>
    obtain ⟨p, ps, hcut⟩ := List.exists_cons_of_ne_nil (cut_ne_nil ss)
    rw [hcut] at ih ⊢
    rw [List.intercalate_cons_cons, ih]
    rfl
  | case2 s ss h ih => rw [intercalate_prepend s (cut_ne_nil ss), ih]
  | case3 => rfl

/-! ### Items that are read -/

theorem allBlank_of_trim {s : List Char} (h : trim s = []) : AllBlank s := by
  obtain ⟨before, after, hbefore, hafter, hs⟩ := exists_trim s
  rw [hs, h]
  exact List.forall_mem_append.mpr ⟨hbefore, hafter⟩

theorem trim_of_allBlank {s : List Char} (h : AllBlank s) : trim s = [] := by
  have hstart := trimStart_append h []
  rw [List.append_nil] at hstart
  rw [trim, hstart]
  rfl

theorem tidy_blanks {blanks : List Char} (h : AllBlank blanks) {ss : List Sign}
    (hlink : BeginsWithLink ss) : tidy (blanks.map .char ++ ss) = tidy ss := by
  rw [tidy_append blanks hlink, trim_of_allBlank h]
  rfl

theorem tidy_text {before after : List Char} (hbefore : AllBlank before) (hafter : AllBlank after)
    (s : List Char) :
    tidy (before.map .char ++ (s.map .char ++ after.map .char)) = tidy (s.map .char) := by
  have hpadded := tidy_append (before ++ (s ++ after)) beginsWithLink_nil
  have hbare := tidy_append s beginsWithLink_nil
  rw [trim_append hbefore hafter, ← hbare, List.append_nil, List.append_nil, List.map_append,
    List.map_append] at hpadded
  exact hpadded

theorem tidy_part {t : ApiType} {item part : List Sign} (h : SpellsItem t item)
    (hpart : Padded item part) : tidy part = tidy item := by
  obtain ⟨before, after, hbefore, hafter, rfl⟩ := hpart
  cases h with
  | scalar h => exact tidy_text hbefore hafter _
  | @link target name ht hn =>
    have hafter := tidy_blanks hafter beginsWithLink_nil
    rw [List.append_nil] at hafter
    rw [List.singleton_append, tidy_blanks hbefore (beginsWithLink_link target name _)]
    exact congrArg (Segment.link target name :: ·) hafter

theorem exists_text_append (ss : List Sign) : ∃ (s : List Char) (rest : List Sign),
    BeginsWithLink rest ∧ ss = s.map .char ++ rest := by
  induction ss with
  | nil => exact ⟨[], [], beginsWithLink_nil, rfl⟩
  | cons sign ss ih =>
    cases sign with
    | link target label => exact ⟨[], _, beginsWithLink_link target label ss, rfl⟩
    | char c =>
      obtain ⟨s, rest, hrest, rfl⟩ := ih
      exact ⟨c :: s, rest, hrest, rfl⟩

theorem itemType_eq_ok {source : String} {item : List Segment} {t : ApiType}
    (h : itemType source item = .ok t) :
    (∃ words s, item = [.text words] ∧ Scalar.ofWords? (String.ofList words) = some s ∧
      t = .scalar s) ∨
    ∃ target name, item = [.link target name] ∧ SpellsItem t [.link target name] := by
  unfold itemType at h
  split at h
  · next words =>
    split at h
    · split at h
      · next s hs => exact Or.inl ⟨words, s, rfl, hs, (Except.ok.inj h).symm⟩
      · cases h
    · cases h
  · next target name =>
    split at h
    · next hlink =>
      cases h
      rw [Bool.and_eq_true, List.isPrefixOf_iff_prefix] at hlink
      exact Or.inr ⟨target, name, rfl, .link hlink.1 hlink.2⟩
    · cases h
  · cases h

theorem tidy_link (target label : String) (ss : List Sign) :
    tidy (.link target label :: ss) = .link target label :: tidy ss := rfl

theorem exists_blanks_of_tidy {ss : List Sign} (h : tidy ss = []) :
    ∃ blanks, AllBlank blanks ∧ ss = blanks.map .char := by
  obtain ⟨s, rest, hlink, rfl⟩ := exists_text_append ss
  rw [tidy_append s hlink] at h
  split at h
  · next hs =>
    rcases hlink.cases with rfl | ⟨target, label, rest, rfl⟩
    · exact ⟨s, allBlank_of_trim (List.isEmpty_iff.mp hs), List.append_nil _⟩
    · cases h
  · cases h

/-- A part with nothing but a text in it is that text and blanks around it. -/
theorem padded_of_tidy_text {part : List Sign} {words : List Char} (h : tidy part = [.text words]) :
    Padded (words.map .char) part := by
  obtain ⟨s, rest, hlink, rfl⟩ := exists_text_append part
  rw [tidy_append s hlink] at h
  rcases hlink.cases with rfl | ⟨target, label, rest, rfl⟩
  · split at h
    · cases h
    · obtain ⟨before, after, hbefore, hafter, hs⟩ := exists_trim s
      obtain rfl : trim s = words := Segment.text.inj (List.cons.inj h).1
      refine ⟨before, after, hbefore, hafter, ?_⟩
      rw [List.append_nil, ← List.map_append, ← List.map_append, ← hs]
  · rw [tidy_link] at h
    split at h <;> cases h

theorem padded_of_tidy_link {part : List Sign} {target name : String}
    (h : tidy part = [.link target name]) : Padded [.link target name] part := by
  obtain ⟨s, rest, hlink, rfl⟩ := exists_text_append part
  rw [tidy_append s hlink] at h
  rcases hlink.cases with rfl | ⟨target', label, rest, rfl⟩
  · split at h <;> cases h
  · rw [tidy_link] at h
    split at h
    · next hs =>
      obtain ⟨hfirst, hrest⟩ := List.cons.inj h
      cases hfirst
      obtain ⟨after, hafter, rfl⟩ := exists_blanks_of_tidy hrest
      exact ⟨s, after, allBlank_of_trim (List.isEmpty_iff.mp hs), hafter, rfl⟩
    · cases h

theorem itemType_tidy_eq_ok_iff (source : String) {part : List Sign} {t : ApiType} :
    itemType source (tidy part) = .ok t ↔ SpellsPart t part := by
  constructor
  · intro h
    rcases itemType_eq_ok h with ⟨words, s, htidy, hs, rfl⟩ | ⟨target, name, htidy, hitem⟩
    · have hpart := padded_of_tidy_text htidy
      have hsigns : signsOf (String.ofList words) = words.map .char := by
        rw [signsOf, String.toList_ofList]
      exact ⟨signsOf (String.ofList words), .scalar hs, hsigns ▸ hpart⟩
    · exact ⟨_, hitem, padded_of_tidy_link htidy⟩
  · rintro ⟨item, hitem, hpart⟩
    rw [tidy_part hitem hpart]
    exact itemType_of_spells hitem source

theorem itemType_eq_error {source : String} {item : List Segment} {e : PageError}
    (h : itemType source item = .error e) :
    (∃ s, e = .invalidType s) ∨ ∃ s, e = .unknownScalar s := by
  unfold itemType at h
  split at h
  · split at h
    · split at h
      · cases h
      · exact Or.inr ⟨_, (Except.error.inj h).symm⟩
    · exact Or.inl ⟨_, (Except.error.inj h).symm⟩
  · split at h
    · cases h
    · exact Or.inl ⟨_, (Except.error.inj h).symm⟩
  · exact Or.inl ⟨_, (Except.error.inj h).symm⟩

/-! ### Cells -/

/-- How a type is written in a cell: array words, and items behind them with " or " in between. -/
def WritesType (t : ApiType) (ss : List Sign) : Prop :=
  ∃ n rest types parts, Strips ss n rest ∧ types ≠ [] ∧ List.Forall₂ SpellsPart types parts ∧
    rest = (signsOf " or ").intercalate parts ∧ t = arraysOf n (oneOf types)

theorem mapM_itemType_eq_ok_iff (source : String) {segments : List Segment}
    (h : Alternates segments) {types : List ApiType} :
    (items segments).mapM (itemType source) = .ok types ↔
      List.Forall₂ SpellsPart types (cut (allSigns segments)) := by
  rw [items_eq h, List.mapM_map, mapM_eq_ok]
  constructor
  · intro hread
    exact (hread.imp fun _ _ hpart => (itemType_tidy_eq_ok_iff source).mp hpart).flip
  · intro hparts
    exact (hparts.imp fun _ _ hpart => (itemType_tidy_eq_ok_iff source).mpr hpart).flip

/-- The signs of segments write the types that their items name. -/
theorem writesType_iff (source : String) {segments : List Segment} (h : Alternates segments)
    {t : ApiType} : WritesType t (allSigns segments) ↔
      ∃ types, (items (withoutArrays segments).2).mapM (itemType source) = .ok types ∧
        arraysOf (withoutArrays segments).1 (oneOf types) = t := by
  have hread := @mapM_itemType_eq_ok_iff source _ (alternates_withoutArrays h)
  constructor
  · rintro ⟨n, rest, types, parts, hstrips, hne, hparts, rfl, rfl⟩
    obtain ⟨rfl, hrest⟩ := (strips_iff h).mp hstrips
    refine ⟨types, hread.mpr ?_, rfl⟩
    rwa [← hrest, cut_parts hparts hne]
  · rintro ⟨types, htypes, rfl⟩
    have hparts := hread.mp htypes
    refine ⟨_, _, types, _, (strips_iff h).mpr ⟨rfl, rfl⟩, ?_, hparts, ?_, rfl⟩
    · rintro rfl
      exact cut_ne_nil _ (List.forall₂_nil_left_iff.mp hparts)
    · rw [intercalate_cut]

/-- A cell is read as the type that its signs write. -/
theorem cellType_eq_ok_iff (cell : Node) (t : ApiType) : cellType cell = .ok t ↔
    ∃ ss, signs? cell.children = some ss ∧ WritesType t ss := by
  obtain ⟨hsigns, halternates⟩ := segments?_spec cell.children
  rw [cellType, ← hsigns]
  cases hcell : segments? cell.children with
  | none => simp
  | some segments =>
    have hwrites := writesType_iff cell.textContent (halternates segments hcell) (t := t)
    simp only [Option.map_some, Option.some.injEq, exists_eq_left', hwrites]
    rw [bind_eq_ok]
    exact exists_congr fun types => and_congr_right fun _ => ⟨Except.ok.inj, congrArg Except.ok⟩

theorem strips_arrayWords (n : Nat) {ss : List Sign}
    (h : ∀ c, ss.head? = some (.char c) → isBlank c = false ∧ c.toLower ≠ 'a') :
    Strips ((arrayWords n).map .char ++ ss) n ss := by
  have hblank : AllBlank [' '] := List.forall_mem_singleton.mpr (by decide)
  have hword : IsArrayWord "Array of ".toList :=
    ⟨"Array of".toList, [' '], rfl, by decide, hblank⟩
  constructor
  · refine ⟨[], List.replicate n "Array of ".toList, by simp [AllBlank], ?_, ?_, rfl⟩
    · exact fun w hw => List.eq_of_mem_replicate hw ▸ hword
    · exact List.length_replicate
  · exact fun c hc => (h c hc).1
  · rintro w ⟨letters, blanks, rfl, hletters, -⟩ ⟨rest, rfl⟩
    cases letters with
    | nil => exact absurd hletters (by decide)
    | cons c letters => exact (h c rfl).2 (List.cons.inj hletters).1

theorem writesType_of_spells {t : ApiType} {ss : List Sign} (h : SpellsType t ss) :
    WritesType t ss := by
  obtain ⟨n, types, parts, hne, hparts, rfl, rfl⟩ := h
  have hbare : ∀ u part, SpellsItem u part → SpellsPart u part := fun u part hpart =>
    ⟨part, hpart, [], [], by simp [AllBlank], by simp [AllBlank], by simp⟩
  exact ⟨n, _, types, parts, strips_arrayWords n (head_of_intercalate hparts hne).2, hne,
    hparts.imp hbare, rfl, rfl⟩

/-- What an error in a type cell says. -/
theorem cellType_eq_error {cell : Node} {e : PageError} (h : cellType cell = .error e) :
    (∃ s, e = .invalidType s) ∨ ∃ s, e = .unknownScalar s := by
  rw [cellType] at h
  cases hcell : segments? cell.children with
  | none =>
    rw [hcell] at h
    exact Or.inl ⟨_, (Except.error.inj h).symm⟩
  | some segments =>
    rw [hcell] at h
    rcases bind_eq_error.mp h with hread | ⟨types, -, hok⟩
    · obtain ⟨item, -, hitem⟩ := exists_of_mapM_eq_error hread
      exact itemType_eq_error hitem
    · cases hok

/-- A cell is read as a type exactly if its signs write that type; any other cell is refused, as no
type or for the name of a scalar. -/
theorem cellType_accepts (cell : Node) :
    (∀ t, cellType cell = .ok t ↔ ∃ ss, signs? cell.children = some ss ∧ WritesType t ss) ∧
      ((∃ t, cellType cell = .ok t) ∨ (∃ s, cellType cell = .error (.invalidType s)) ∨
        ∃ s, cellType cell = .error (.unknownScalar s)) := by
  refine ⟨cellType_eq_ok_iff cell, ?_⟩
  cases hread : cellType cell with
  | ok t => exact Or.inl ⟨t, rfl⟩
  | error e =>
    rcases cellType_eq_error hread with ⟨s, rfl⟩ | ⟨s, rfl⟩
    · exact Or.inr (Or.inl ⟨s, rfl⟩)
    · exact Or.inr (Or.inr ⟨s, rfl⟩)

end ApiTypings.Page
