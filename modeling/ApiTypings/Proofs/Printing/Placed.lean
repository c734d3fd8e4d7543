import ApiTypings.Proofs.Printing.Writing

/-!
# Characters and the depth at which they are written

What writing adds to an output is given by the characters that are written, each with the depth in
force at that moment. The text follows from them: a line gets the indentation of its first
character, whatever the depth is before and after.
-/
namespace ApiTypings.Printing

/-- A character and the depth at which it is written. -/
structure Placed where
  depth : Nat
  char : Char

/-- The indentation of a line. -/
def indentation (indent : String) (depth : Nat) : List Char :=
  (String.join (List.replicate depth indent)).toList

/-- The text that placed characters make. `start` says whether a line begins in front of them. -/
def laidOut (indent : String) (start : Bool) : List Placed → List Char
  | [] => []
  | p :: ps =>
    if p.char = '\n' then p.char :: laidOut indent true ps
    else (if start then indentation indent p.depth else []) ++
      p.char :: laidOut indent false ps

/-- Whether a line begins behind placed characters. -/
def startsLine (start : Bool) (ps : List Placed) : Bool :=
  ps.foldl (fun _ p => p.char == '\n') start

theorem startsLine_append (start : Bool) (ps qs : List Placed) :
    startsLine start (ps ++ qs) = startsLine (startsLine start ps) qs :=
  List.foldl_append

theorem laidOut_append (indent : String) (start : Bool) (ps qs : List Placed) :
    laidOut indent start (ps ++ qs) =
      laidOut indent start ps ++ laidOut indent (startsLine start ps) qs := by
  induction ps generalizing start with
  | nil => rfl
  | cons p ps ih =>
    have hstart : startsLine start (p :: ps) = startsLine (p.char == '\n') ps := rfl
    rw [List.cons_append, laidOut, laidOut, hstart]
    split
    · next hp => rw [ih, beq_iff_eq.mpr hp, List.cons_append]
    · next hp => rw [ih, beq_false_of_ne hp, List.append_assoc, List.cons_append]

theorem length_le_laidOut (indent : String) (start : Bool) (ps : List Placed) :
    ps.length ≤ (laidOut indent start ps).length := by
  induction ps generalizing start with
  | nil => exact Nat.le_refl 0
  | cons p ps ih =>
    rw [laidOut]
    split
    · exact Nat.succ_le_succ (ih true)
    · have hrest := ih false
      rw [List.length_append, List.length_cons, List.length_cons]
      omega

/-! ### What an output has been given -/

/-- Whether an output goes on from an earlier one by placed characters. -/
structure Adds (a b : Context) (ps : List Placed) : Prop where
  layout : b.layout = a.layout
  depth : b.depth = a.depth
  atLineStart : b.atLineStart = startsLine a.atLineStart ps
  code : b.code.toList = a.code.toList ++ laidOut a.layout.indent a.atLineStart ps

namespace Adds

variable {a b c : Context} {ps qs : List Placed}

theorem refl (a : Context) : Adds a a [] := ⟨rfl, rfl, rfl, (List.append_nil _).symm⟩

theorem trans (h : Adds a b ps) (k : Adds b c qs) : Adds a c (ps ++ qs) where
  layout := k.layout.trans h.layout
  depth := k.depth.trans h.depth
  atLineStart := by rw [k.atLineStart, h.atLineStart, startsLine_append]
  code := by
    rw [k.code, h.code, h.layout, h.atLineStart, laidOut_append, List.append_assoc]

theorem newline (a : Context) : Adds a a.newline [⟨a.depth, '\n'⟩] :=
  ⟨rfl, rfl, rfl, a.toList_newline⟩

theorem writeChar (a : Context) (c : Char) : Adds a (a.writeChar c) [⟨a.depth, c⟩] := by
  by_cases hc : c = '\n'
  · subst hc
    exact newline a
  · obtain ⟨hlayout, hdepth, hstart, hcode⟩ := a.writeChar_of_ne hc
    have hlead : a.lead = if a.atLineStart then indentation a.layout.indent a.depth else [] := rfl
    refine ⟨hlayout, hdepth, hstart.trans (beq_false_of_ne hc).symm, ?_⟩
    rw [hcode, hlead, laidOut, if_neg hc, laidOut, List.append_assoc]

theorem write (a : Context) (s : String) :
    Adds a (a.write s) (s.toList.map (Placed.mk a.depth)) := by
  rw [Context.write_eq_foldl]
  induction s.toList generalizing a with
  | nil => exact refl a
  | cons c cs ih =>
    have hrest := ih (a.writeChar c)
    rw [(writeChar a c).depth] at hrest
    exact (writeChar a c).trans hrest

/-- What is added one level deeper is added. -/
theorem unnest (h : Adds a.nest b ps) : Adds a b.unnest ps where
  layout := h.layout
  depth := by
    have hdepth : b.unnest.depth = b.depth - 1 := rfl
    rw [hdepth, h.depth]
    exact Nat.add_sub_cancel a.depth 1
  atLineStart := h.atLineStart
  code := h.code

/-- No character is lost. -/
theorem length_le (h : Adds a b ps) :
    a.code.toList.length + ps.length ≤ b.code.toList.length := by
  rw [h.code, List.length_append]
  exact Nat.add_le_add_left (length_le_laidOut _ _ ps) _

end Adds

end ApiTypings.Printing
