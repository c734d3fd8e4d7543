import ApiTypings.Page.TypeCell
import Mathlib.Data.List.Chain

/-!
# Cells sign by sign

A type cell is a row of signs, each a character or a link; where its text is divided into
nodes does not matter. The items of a cell are what remains when the row is cut at every
" or " and the text of each part is trimmed.
-/
namespace ApiTypings.Page

open Markup Text

/-- What a reader meets in a cell, one after the other. -/
inductive Sign where
  | char (c : Char)
  | link (target : String) (label : String)
  deriving DecidableEq, Repr

/-- The signs of a cell, or `none` if it holds an element that is no link. -/
def signs? : List Node → Option (List Sign)
  | [] => some []
  | .text s :: ns => (signs? ns).map (s.toList.map .char ++ ·)
  | .comment _ :: ns => signs? ns
  | .doctype _ :: ns => signs? ns
  | .element name as cs contents :: ns =>
    if name.tag == "a" then
      (signs? ns).map (.link (((Node.element name as cs contents).attribute? "href").getD "")
        (Node.element name as cs contents).textContent :: ·)
    else none

def Segment.signs : Segment → List Sign
  | .text s => s.map .char
  | .link target label => [.link target label]

def allSigns (segments : List Segment) : List Sign := segments.flatMap Segment.signs

/-- Whether a row of signs does not begin with a character. -/
def BeginsWithLink (ss : List Sign) : Prop := ∀ c, ss.head? ≠ some (.char c)

/-- Whether every text is followed by a link, if by anything. -/
def Alternates : List Segment → Prop
  | [] => True
  | .text _ :: rest => BeginsWithLink (allSigns rest) ∧ Alternates rest
  | .link _ _ :: rest => Alternates rest

theorem allSigns_cons (s : Segment) (rest : List Segment) :
    allSigns (s :: rest) = s.signs ++ allSigns rest :=
  List.flatMap_cons

theorem beginsWithLink_nil : BeginsWithLink [] := by simp [BeginsWithLink]

theorem beginsWithLink_link (target label : String) (ss : List Sign) :
    BeginsWithLink (.link target label :: ss) := by simp [BeginsWithLink]

theorem joinText_spec (s : List Char) {segments : List Segment} (h : Alternates segments) :
    allSigns (joinText s segments) = s.map .char ++ allSigns segments ∧
      Alternates (joinText s segments) := by
  cases segments with
  | nil => exact ⟨rfl, beginsWithLink_nil, trivial⟩
  | cons first rest =>
    cases first with
    | text t =>
      refine ⟨?_, h⟩
      rw [joinText, allSigns_cons, allSigns_cons, Segment.signs, Segment.signs, List.map_append,
        List.append_assoc]
    | link target label => exact ⟨rfl, beginsWithLink_link target label _, h⟩

/-- Where a cell has segments, they are its signs with the text between links in one piece. -/
theorem segments?_spec (ns : List Node) :
    (segments? ns).map allSigns = signs? ns ∧ ∀ segments ∈ segments? ns, Alternates segments := by
  fun_induction segments? ns with
  | case1 => exact ⟨rfl, by simp [Alternates]⟩
  | case2 s ns ih =>
    obtain ⟨hsigns, hall⟩ := ih
    rw [signs?, ← hsigns]
    cases hsegments : segments? ns with
    | none => exact ⟨rfl, by simp⟩
    | some segments =>
      obtain ⟨hjoin, halternates⟩ := joinText_spec s.toList (hall segments hsegments)
      exact ⟨congrArg some hjoin, by simpa using halternates⟩
  | case3 s ns ih => exact ih
  | case4 s ns ih => exact ih
  | case5 name as cs contents ns ha ih =>
    obtain ⟨hsigns, hall⟩ := ih
    rw [signs?, if_pos ha, ← hsigns]
    cases hsegments : segments? ns with
    | none => exact ⟨rfl, by simp⟩
    | some segments => exact ⟨rfl, by simpa [Alternates] using hall segments hsegments⟩
  | case6 name as cs contents ns ha => exact ⟨by rw [signs?, if_neg ha]; rfl, by simp⟩

/-- Puts a sign in front of the first part. -/
def prepend (s : Sign) : List (List Sign) → List (List Sign)
  | [] => [[s]]
  | p :: ps => (s :: p) :: ps

/-- Cuts a row of signs at every " or ". -/
def cut : List Sign → List (List Sign)
  | .char ' ' :: .char 'o' :: .char 'r' :: .char ' ' :: ss => [] :: cut ss
  | s :: ss => prepend s (cut ss)
  | [] => [[]]

/-- The segments of a row of signs. -/
def runs : List Sign → List Segment
  | [] => []
  | .char c :: ss => joinText [c] (runs ss)
  | .link target label :: ss => .link target label :: runs ss

/-- A segment without the blanks around it, if anything else is in it. -/
def tidySegment : Segment → Option Segment
  | .text s => if (trim s).isEmpty then none else some (.text (trim s))
  | .link target label => some (.link target label)

def tidy (ss : List Sign) : List Segment := (runs ss).filterMap tidySegment

theorem BeginsWithLink.cases {ss : List Sign} (h : BeginsWithLink ss) :
    ss = [] ∨ ∃ target label rest, ss = .link target label :: rest := by
  cases ss with
  | nil => exact Or.inl rfl
  | cons s rest =>
    cases s with
    | char c => exact absurd rfl (h c)
    | link target label => exact Or.inr ⟨target, label, rest, rfl⟩

theorem runs_append (s : List Char) {ss : List Sign} (h : BeginsWithLink ss) :
    runs (s.map .char ++ ss) = if s.isEmpty then runs ss else .text s :: runs ss := by
  have hjoin : ∀ c, joinText [c] (runs ss) = .text [c] :: runs ss := by
    intro c
    rcases h.cases with rfl | ⟨target, label, rest, rfl⟩ <;> rfl
  induction s with
  | nil => rfl
  | cons c s ih =>
    rw [List.map_cons, List.cons_append, runs, ih]
    cases s with
    | nil => exact hjoin c
    | cons d s => rfl

theorem tidy_append (s : List Char) {ss : List Sign} (h : BeginsWithLink ss) :
    tidy (s.map .char ++ ss) =
      if (trim s).isEmpty then tidy ss else .text (trim s) :: tidy ss := by
  rw [tidy, runs_append s h]
  cases s with
  | nil => rfl
  | cons c s =>
    rw [List.isEmpty_cons, if_neg Bool.false_ne_true, List.filterMap_cons, tidySegment]
    split <;> simp_all [tidy]

theorem cut_ne_nil (ss : List Sign) : cut ss ≠ [] := by
  fun_cases cut ss with
  | case1 ss => simp
  | case2 s ss h => cases cut ss <;> simp [prepend]
  | case3 => simp

theorem exists_cut_of_beginsWithLink {ss : List Sign} (h : BeginsWithLink ss) :
    ∃ p ps, cut ss = p :: ps ∧ BeginsWithLink p := by
  rcases h.cases with rfl | ⟨target, label, rest, rfl⟩
  · exact ⟨[], [], rfl, beginsWithLink_nil⟩
  · cases hcut : cut rest with
    | nil => exact absurd hcut (cut_ne_nil rest)
    | cons p ps =>
      exact ⟨.link target label :: p, ps, by rw [cut, hcut, prepend]; simp,
        beginsWithLink_link target label p⟩

/-- Puts pieces of text in front of parts: the last piece joins the first part. -/
def joinPieces : List (List Char) → List (List Sign) → List (List Sign)
  | [], parts => parts
  | [p], [] => [p.map .char]
  | [p], part :: parts => (p.map .char ++ part) :: parts
  | p :: q :: ps, parts => p.map .char :: joinPieces (q :: ps) parts

theorem joinPieces_extend (c : Char) {ps : List (List Char)} (h : ps ≠ [])
    (parts : List (List Sign)) :
    joinPieces (extend c ps) parts = prepend (.char c) (joinPieces ps parts) := by
  match ps, parts with
  | [], _ => exact absurd rfl h
  | [p], [] => rfl
  | [p], part :: parts => rfl
  | p :: q :: ps, parts => rfl

theorem alternatives_ne_nil (s : List Char) : alternatives s ≠ [] := by
  fun_cases alternatives s with
  | case1 cs => simp
  | case2 c cs h => cases alternatives cs <;> simp [extend]
  | case3 => simp

theorem cut_append (s : List Char) {ss : List Sign} (h : BeginsWithLink ss) :
    cut (s.map .char ++ ss) = joinPieces (alternatives s) (cut ss) := by
  fun_induction alternatives s with
  | case1 cs ih =>
    obtain ⟨q, qs, hq⟩ := List.exists_cons_of_ne_nil (alternatives_ne_nil cs)
    rw [hq] at ih ⊢
    rw [joinPieces, ← ih]
    rfl
  | case2 c cs hne ih =>
    rw [joinPieces_extend c (alternatives_ne_nil cs), ← ih, List.map_cons, List.cons_append, cut]
    intro ss' hc hrest
    -- A separator cannot reach over a link, so it would stand in the text.
    match cs with
    | [] => exact h 'o' (by rw [show ss = _ from hrest]; rfl)
    | [_] => exact h 'r' (by rw [show ss = _ from (List.cons.inj hrest).2]; rfl)
    | [_, _] =>
      exact h ' ' (by rw [show ss = _ from (List.cons.inj (List.cons.inj hrest).2).2]; rfl)
    | o :: r :: b :: cs' =>
      simp only [List.map_cons, List.cons_append, List.cons.injEq, Sign.char.injEq] at hc hrest
      obtain ⟨rfl, rfl, rfl, -⟩ := hrest
      exact hne cs' hc rfl
  | case3 =>
    obtain ⟨p, ps, hcut, -⟩ := exists_cut_of_beginsWithLink h
    rw [List.map_nil, List.nil_append, hcut, joinPieces]
    rfl

theorem tidy_joinPieces {ps : List (List Char)} (hps : ps ≠ []) {part : List Sign}
    (hpart : BeginsWithLink part) (parts : List (List Sign)) :
    (joinPieces ps (part :: parts)).map tidy = addPieces ps ((part :: parts).map tidy) := by
  have hadd : ∀ (p : List Char) (ss : List Sign), BeginsWithLink ss → ∀ is,
      tidy (p.map .char ++ ss) :: is = addTextToFirst p (tidy ss :: is) := by
    intro p ss hss is
    rw [tidy_append p hss, addTextToFirst]
    split <;> rfl
  induction ps with
  | nil => exact absurd rfl hps
  | cons p ps ih =>
    cases ps with
    | nil =>
      rw [joinPieces, List.map_cons, List.map_cons, hadd p part hpart]
      rfl
    | cons q ps =>
      have hp := hadd p [] beginsWithLink_nil (addPieces (q :: ps) ((part :: parts).map tidy))
      rw [List.append_nil] at hp
      rw [joinPieces, List.map_cons, ih (by simp), hp]
      rfl

/-- The items of a cell are its signs cut at every " or ", each part tidied. -/
theorem items_eq {segments : List Segment} (h : Alternates segments) :
    items segments = (cut (allSigns segments)).map tidy := by
  induction segments with
  | nil => rfl
  | cons first rest ih =>
    cases first with
    | link target label =>
      obtain ⟨p, ps, hcut⟩ := List.exists_cons_of_ne_nil (cut_ne_nil (allSigns rest))
      rw [items, ih h, allSigns_cons, Segment.signs, List.singleton_append, cut, hcut]
      · rfl
      · simp
    | text s =>
      obtain ⟨hlink, hrest⟩ := h
      obtain ⟨p, ps, hcut, hp⟩ := exists_cut_of_beginsWithLink hlink
      rw [items, ih hrest, allSigns_cons, Segment.signs, cut_append s hlink, hcut,
        tidy_joinPieces (alternatives_ne_nil s) hp]

end ApiTypings.Page
