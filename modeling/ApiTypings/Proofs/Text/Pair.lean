import ApiTypings.Text.Basic
import Mathlib.Data.List.Chain

/-!
# Texts in which two characters never meet

Comments begin and end with two characters in a row. A text avoids such a pair if no two of
its neighbours are the pair; a character that is not in the pair can join two such texts.
-/
namespace ApiTypings.Text

/-- Whether `a` is nowhere followed by `b`. -/
def Avoids (a b : Char) (s : List Char) : Prop := s.IsChain (fun c d => ¬ (c = a ∧ d = b))

variable {a b : Char} {s t : List Char}

theorem avoids_nil : Avoids a b [] := .nil

theorem avoids_of_not_mem (h : a ∉ s) : Avoids a b s := by
  induction s with
  | nil => exact .nil
  | cons c s ih =>
    obtain ⟨hc, hs⟩ := not_or.mp (mt List.mem_cons.mpr h)
    exact List.isChain_cons.mpr ⟨fun d _ hp => hc hp.1.symm, ih hs⟩

theorem Avoids.part (h : Avoids a b s) (ht : t <:+: s) : Avoids a b t := List.IsChain.infix h ht

/-- Texts may follow each other if the first does not end, or the second does not begin, with a
part of the pair. -/
theorem Avoids.append (hs : Avoids a b s) (ht : Avoids a b t)
    (h : s.getLast? ≠ some a ∨ t.head? ≠ some b) : Avoids a b (s ++ t) := by
  refine List.IsChain.append hs ht ?_
  rintro x hx y hy ⟨rfl, rfl⟩
  rcases h with h | h
  · exact h hx
  · exact h hy

theorem Avoids.join {c : Char} (ha : c ≠ a) (hb : c ≠ b) (hs : Avoids a b s)
    (ht : Avoids a b t) : Avoids a b (s ++ c :: t) := by
  have hc : Avoids a b (c :: t) := List.isChain_cons.mpr ⟨fun d _ hp => ha hp.1, ht⟩
  exact hs.append hc (Or.inr (by simpa using hb))

theorem occursIn_pair_eq_false : occursIn [a, b] s = false ↔ Avoids a b s := by
  induction s with
  | nil => simp [occursIn, avoids_nil]
  | cons c s ih =>
    rw [occursIn, Bool.or_eq_false_iff, ih, Avoids, Avoids, List.isChain_cons]
    refine and_congr_left fun _ => ?_
    cases s with
    | nil => simp [List.isPrefixOf]
    | cons d s =>
      have hd : [a, b].isPrefixOf (c :: d :: s) = true ↔ c = a ∧ d = b := by
        simp only [List.isPrefixOf, Bool.and_true, Bool.and_eq_true, beq_iff_eq]
        exact ⟨fun h => ⟨h.1.symm, h.2.symm⟩, fun h => ⟨h.1.symm, h.2.symm⟩⟩
      rw [← Bool.not_eq_true, hd]
      simp

theorem Avoids.ne_append (h : Avoids a b s) (u v : List Char) : s ≠ u ++ a :: b :: v :=
  fun he => List.isChain_iff_forall_rel_of_append_cons_cons.mp h he ⟨rfl, rfl⟩

/-- If a text avoids the pair up to the point where it stands, and after, then it stands nowhere
else. -/
theorem Avoids.eq_of_append_eq (hab : a ≠ b) {x y before after : List Char}
    (hx : Avoids a b (x ++ [a])) (hy : Avoids a b (b :: y))
    (he : x ++ a :: b :: y = before ++ a :: b :: after) : before = x ∧ after = y := by
  induction x generalizing before with
  | nil =>
    cases before with
    | nil => simpa using he.symm
    | cons c before => exact absurd (List.cons.inj he).2 (hy.ne_append before after)
  | cons c x ih =>
    cases before with
    | nil =>
      simp only [List.cons_append, List.nil_append, List.cons.injEq] at he
      obtain ⟨rfl, he⟩ := he
      cases x with
      | nil => exact absurd (List.cons.inj he).1 hab
      | cons d x =>
        obtain rfl : d = b := (List.cons.inj he).1
        exact absurd rfl (hx.ne_append [] (x ++ [c]))
    | cons d before =>
      simp only [List.cons_append, List.cons.injEq] at he
      obtain ⟨rfl, he⟩ := he
      obtain ⟨rfl, rfl⟩ := ih (hx.part ⟨[c], [], by simp⟩) he
      exact ⟨rfl, rfl⟩

end ApiTypings.Text
