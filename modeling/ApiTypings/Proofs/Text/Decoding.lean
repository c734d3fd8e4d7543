import ApiTypings.Text.Utf8
import ApiTypings.Proofs.Text.Pieces
import Mathlib.Algebra.Group.Nat.Defs
import Mathlib.Data.List.Infix

/-!
# Bytes of the ASCII range in decoded text

Bytes that begin a character, and those that go on with one, only ever become characters beyond the
ASCII range or replacement characters. So a character of the ASCII range stands in a text exactly
where its byte does, and what stands before and after it is decoded apart, however broken it is.
-/
namespace ApiTypings.Text.Utf8

namespace Unfinished

/-- The least number that an unfinished character can still become. -/
def least (u : Unfinished) : Nat := (u.bits * 64 + (u.low - 0x80)) * 64 ^ u.after

/-- What the number of an unfinished character stays below. -/
def bound (u : Unfinished) : Nat := (u.bits * 64 + (u.high - 0x80) + 1) * 64 ^ u.after

/-- Whether an unfinished character can only become one beyond the ASCII range. -/
structure Sound (u : Unfinished) : Prop where
  low : 0x80 ≤ u.low
  beyond : 0x80 ≤ u.least
  valid : u.bound ≤ 0xD800 ∨ (0xE000 ≤ u.least ∧ u.bound ≤ 0x110000)

end Unfinished

/-- What is shown in place of a character or an invalid sequence. -/
def shown (c : Option Char) : Char := c.getD '\uFFFD'

/-- The text of bytes after the beginning of a character. -/
def decodeFrom (begun : Option Unfinished) (bs : Bytes) : List Char := (scan begun bs).map shown

theorem decodeLossy_eq (bs : Bytes) : decodeLossy bs = decodeFrom none bs := rfl

/-! ### What one byte can do -/

theorem toNat_ofNat_of_valid {n : Nat} (h : n.isValidChar) : (Char.ofNat n).toNat = n := by
  rw [Char.ofNat, dif_pos h]
  rfl

theorem toNat_ofNat_of_lt {n : Nat} (h : n < 0x80) : (Char.ofNat n).toNat = n :=
  toNat_ofNat_of_valid (Or.inl (by omega))

/-- A byte beyond the ASCII range is invalid or begins a character. The ranges of second bytes leave
out overlong forms, surrogates and numbers that are too large. -/
theorem first_of_le {b : Nat} (hb : 0x80 ≤ b) :
    first b = ([none], none) ∨ ∃ u, u.Sound ∧ first b = ([], some u) := by
  rw [first, if_neg (by omega)]
  split
  · exact Or.inl rfl
  split
  · refine Or.inr ⟨_, ⟨Nat.le_refl _, ?_, Or.inl ?_⟩, rfl⟩
    · simp only [Unfinished.least]
      omega
    · simp only [Unfinished.bound]
      omega
  split
  · refine Or.inr ⟨_, ⟨?_, ?_, ?_⟩, rfl⟩
    · simp only
      split <;> omega
    · simp only [Unfinished.least]
      split <;> omega
    · simp only [Unfinished.least, Unfinished.bound]
      split <;> split <;> omega
  split
  · refine Or.inr ⟨_, ⟨?_, ?_, Or.inr ?_⟩, rfl⟩
    · simp only
      split <;> omega
    · simp only [Unfinished.least]
      split <;> omega
    · simp only [Unfinished.least, Unfinished.bound]
      split <;> split <;> omega
  · exact Or.inl rfl

/-- One more byte narrows down what an unfinished character can become. -/
theorem Unfinished.Sound.next {u : Unfinished} (h : u.Sound) {n b : Nat} (hafter : u.after = n + 1)
    (hlow : u.low ≤ b) (hhigh : b ≤ u.high) :
    Unfinished.Sound ⟨u.bits * 64 + (b - 0x80), n, 0x80, 0xBF⟩ := by
  let v : Unfinished := ⟨u.bits * 64 + (b - 0x80), n, 0x80, 0xBF⟩
  have hleast : u.least ≤ v.least := by
    rw [Unfinished.least, Unfinished.least, hafter, Nat.pow_succ', ← Nat.mul_assoc]
    exact Nat.mul_le_mul_right _ (by simp only [v]; omega)
  have hbound : v.bound ≤ u.bound := by
    rw [Unfinished.bound, Unfinished.bound, hafter, Nat.pow_succ', ← Nat.mul_assoc]
    exact Nat.mul_le_mul_right _ (by simp only [v]; omega)
  refine ⟨Nat.le_refl _, h.beyond.trans hleast, ?_⟩
  rcases h.valid with hvalid | ⟨hvalid, hlast⟩
  · exact Or.inl (hbound.trans hvalid)
  · exact Or.inr ⟨hvalid.trans hleast, hbound.trans hlast⟩

/-- With its last byte, a character beyond the ASCII range is finished. -/
theorem Unfinished.Sound.last {u : Unfinished} (h : u.Sound) {b : Nat} (hafter : u.after = 0)
    (hlow : u.low ≤ b) (hhigh : b ≤ u.high) :
    0x80 ≤ (shown (some (Char.ofNat (u.bits * 64 + (b - 0x80))))).toNat := by
  obtain ⟨-, hbeyond, hvalid⟩ := h
  rw [Unfinished.least, hafter] at hbeyond hvalid
  rw [Unfinished.bound, hafter] at hvalid
  rw [shown, Option.getD_some, toNat_ofNat_of_valid]
  · omega
  · unfold Nat.isValidChar
    omega

/-- A state of decoding: no character has begun, or one beyond the ASCII range. -/
def SoundState (begun : Option Unfinished) : Prop := ∀ u ∈ begun, u.Sound

theorem soundState_none : SoundState none := fun u hu => absurd hu (Option.not_mem_none u)

theorem Unfinished.Sound.state {u : Unfinished} (h : u.Sound) : SoundState (some u) := by
  simpa [SoundState] using h

/-- What comes of a byte beyond the ASCII range: nothing of that range, and unless a character has
begun, something. -/
structure StaysBeyond (result : List (Option Char) × Option Unfinished) : Prop where
  beyond : ∀ c ∈ result.1, 0x80 ≤ (shown c).toNat
  state : SoundState result.2
  progress : result.2 = none → result.1 ≠ []

theorem beyond_replacement : 0x80 ≤ (shown none).toNat := by decide

theorem staysBeyond_first {b : Nat} (hb : 0x80 ≤ b) : StaysBeyond (first b) := by
  rcases first_of_le hb with h | ⟨u, hu, h⟩
  · rw [h]
    exact ⟨List.forall_mem_singleton.mpr beyond_replacement, soundState_none, by simp⟩
  · rw [h]
    exact ⟨by simp, hu.state, by simp⟩

theorem staysBeyond_step {begun : Option Unfinished} (h : SoundState begun) {b : Nat}
    (hb : 0x80 ≤ b) : StaysBeyond (step begun b) := by
  cases begun with
  | none => exact staysBeyond_first hb
  | some u =>
    have hu := h u rfl
    rw [step]
    split
    next hrange =>
      rw [Bool.and_eq_true, decide_eq_true_iff, decide_eq_true_iff] at hrange
      obtain ⟨hlow, hhigh⟩ := hrange
      split
      · next hafter =>
        have hlast := hu.last hafter hlow hhigh
        exact ⟨List.forall_mem_singleton.mpr hlast, soundState_none, by simp⟩
      · next n hafter => exact ⟨by simp, (hu.next hafter hlow hhigh).state, by simp⟩
    next =>
      obtain ⟨hbeyond, hstate, -⟩ := staysBeyond_first hb
      exact ⟨List.forall_mem_cons.mpr ⟨beyond_replacement, hbeyond⟩, hstate, by simp⟩

theorem step_of_soundState {begun : Option Unfinished} (h : SoundState begun) {b : Nat}
    (hb : b < 0x80) :
    step begun b = ((if begun.isSome then [none] else []) ++ [some (Char.ofNat b)], none) :=
  step_of_lt hb begun fun u hu => (h u hu).low

theorem SoundState.step {begun : Option Unfinished} (h : SoundState begun) (b : Nat) :
    SoundState (step begun b).2 := by
  by_cases hb : b < 0x80
  · rw [step_of_soundState h hb]
    exact soundState_none
  · exact (staysBeyond_step h (by omega)).state

theorem step_progress {begun : Option Unfinished} (h : SoundState begun) {b : Nat}
    (hnone : (step begun b).2 = none) : (step begun b).1 ≠ [] := by
  by_cases hb : b < 0x80
  · rw [step_of_soundState h hb]
    simp
  · exact (staysBeyond_step h (by omega)).progress hnone

/-! ### What many bytes do -/

/-- The character for which a byte of the ASCII range stands. -/
def plain (b : UInt8) : Char := Char.ofNat b.toNat

theorem decodeFrom_cons (begun : Option Unfinished) (b : UInt8) (bs : Bytes) :
    decodeFrom begun (b :: bs) =
      (step begun b.toNat).1.map shown ++ decodeFrom (step begun b.toNat).2 bs := by
  rw [decodeFrom, scan_cons, List.map_append]
  rfl

theorem exists_of_append_eq {pre l x y : List Char} {c : Char} (hc : c ∉ pre)
    (h : pre ++ l = x ++ c :: y) : ∃ z, x = pre ++ z ∧ l = z ++ c :: y := by
  rcases List.append_eq_append_iff.mp h with ⟨z, hx, hl⟩ | ⟨z, hpre, hl⟩
  · exact ⟨z, hx, hl⟩
  · cases z with
    | nil => exact ⟨[], by simpa using hpre.symm, hl.symm⟩
    | cons d z =>
      obtain rfl : c = d := (List.cons.inj hl).1
      exact absurd (by rw [hpre]; simp) hc

section

variable {begun : Option Unfinished} (h : SoundState begun)

include h

/-- A byte of the ASCII range stands for itself, and what stands behind it is decoded as if nothing
stood in front. -/
theorem decodeFrom_append {b : UInt8} (hb : b.toNat < 0x80) (s t : Bytes) :
    decodeFrom begun (s ++ b :: t) = decodeFrom begun s ++ plain b :: decodeFrom none t := by
  induction s generalizing begun with
  | nil =>
    have hnil : decodeFrom begun [] = (if begun.isSome then [none] else []).map shown := rfl
    rw [List.nil_append, decodeFrom_cons, step_of_soundState h hb, hnil, List.map_append,
      List.append_assoc]
    rfl
  | cons a s ih =>
    rw [List.cons_append, decodeFrom_cons, decodeFrom_cons, ih (h.step a.toNat), List.append_assoc]

theorem beyond_of_mem_decodeFrom_nil {c : Char} (hc : c ∈ decodeFrom begun []) :
    0x80 ≤ c.toNat := by
  cases begun with
  | none => cases hc
  | some u =>
    obtain rfl := List.mem_singleton.mp hc
    exact beyond_replacement

/-- Where a character of the ASCII range stands, its byte does. -/
theorem exists_of_decodeFrom_eq {c : Char} (hc : c.toNat < 0x80) {bs : Bytes} {x y : List Char}
    (heq : decodeFrom begun bs = x ++ c :: y) : ∃ s b t, bs = s ++ b :: t ∧
      plain b = c ∧ b.toNat < 0x80 ∧ x = decodeFrom begun s ∧ y = decodeFrom none t := by
  induction bs generalizing begun x with
  | nil =>
    have hbeyond := beyond_of_mem_decodeFrom_nil h (c := c) (by rw [heq]; simp)
    omega
  | cons a bs ih =>
    by_cases ha : a.toNat < 0x80
    · have hone : ∀ s, decodeFrom begun (a :: s) =
          decodeFrom begun [] ++ plain a :: decodeFrom none s := decodeFrom_append h ha []
      rw [hone] at heq
      have hnot : c ∉ decodeFrom begun [] := fun hmem => by
        have hbeyond := beyond_of_mem_decodeFrom_nil h hmem
        omega
      obtain ⟨z, rfl, hrest⟩ := exists_of_append_eq hnot heq
      cases z with
      | nil =>
        obtain ⟨hac, hy⟩ := List.cons.inj hrest
        exact ⟨[], a, bs, rfl, hac, ha, List.append_nil _, hy.symm⟩
      | cons d z =>
        obtain ⟨rfl, hbehind⟩ := List.cons.inj hrest
        obtain ⟨s, b, t, rfl, hb, hlt, rfl, rfl⟩ := ih soundState_none hbehind
        exact ⟨a :: s, b, t, rfl, hb, hlt, (hone s).symm, rfl⟩
    · have hstays := staysBeyond_step h (Nat.le_of_not_lt ha)
      rw [decodeFrom_cons] at heq
      have hnot : c ∉ (step begun a.toNat).1.map shown := fun hmem => by
        obtain ⟨o, ho, rfl⟩ := List.mem_map.mp hmem
        have hbeyond := hstays.beyond o ho
        omega
      obtain ⟨z, rfl, hrest⟩ := exists_of_append_eq hnot heq
      obtain ⟨s, b, t, rfl, hb, hlt, rfl, rfl⟩ := ih hstays.state hrest
      exact ⟨a :: s, b, t, rfl, hb, hlt, (decodeFrom_cons ..).symm, rfl⟩

/-- No bytes are lost. -/
theorem eq_nil_of_decodeFrom_eq_nil {bs : Bytes} (hbs : decodeFrom begun bs = []) :
    bs = [] ∧ begun = none := by
  induction bs generalizing begun with
  | nil =>
    cases begun with
    | none => exact ⟨rfl, rfl⟩
    | some u => cases hbs
  | cons a bs ih =>
    rw [decodeFrom_cons, List.append_eq_nil_iff, List.map_eq_nil_iff] at hbs
    obtain ⟨-, hnone⟩ := ih (h.step a.toNat) hbs.2
    exact absurd hbs.1 (step_progress h hnone)

end

theorem plain_inj {a b : UInt8} (ha : a.toNat < 0x80) (hb : b.toNat < 0x80)
    (h : plain a = plain b) : a = b := by
  have hnat := congrArg Char.toNat h
  rw [plain, plain, toNat_ofNat_of_lt ha, toNat_ofNat_of_lt hb] at hnat
  exact UInt8.toNat_inj.mp hnat

/-- Text of the ASCII range at the beginning of decoded text is there byte by byte. -/
theorem exists_of_decodeFrom_eq_map {p : Bytes} (hp : ∀ b ∈ p, b.toNat < 0x80) {bs : Bytes}
    {y : List Char} (heq : decodeFrom none bs = p.map plain ++ y) : ∃ t, bs = p ++ t := by
  induction p generalizing bs with
  | nil => exact ⟨bs, rfl⟩
  | cons a p ih =>
    obtain ⟨ha, hrest⟩ := List.forall_mem_cons.mp hp
    have hplain : (plain a).toNat < 0x80 := (toNat_ofNat_of_lt ha).trans_lt ha
    obtain ⟨s, b, t, rfl, hb, hlt, hnone, hbehind⟩ :=
      exists_of_decodeFrom_eq (x := []) soundState_none hplain heq
    obtain ⟨rfl, -⟩ := eq_nil_of_decodeFrom_eq_nil soundState_none hnone.symm
    obtain rfl := plain_inj ha hlt hb.symm
    obtain ⟨t, rfl⟩ := ih hrest hbehind.symm
    exact ⟨t, rfl⟩

theorem decodeFrom_map {p : Bytes} (hp : ∀ b ∈ p, b.toNat < 0x80) (t : Bytes) :
    decodeFrom none (p ++ t) = p.map plain ++ decodeFrom none t := by
  induction p with
  | nil => rfl
  | cons a p ih =>
    obtain ⟨ha, hrest⟩ := List.forall_mem_cons.mp hp
    have hone := decodeFrom_append soundState_none ha [] (p ++ t)
    rw [ih hrest] at hone
    exact hone

/-- Bytes of the ASCII range stand in other bytes where their text stands in the decoded text. -/
theorem infix_decodeLossy_iff {p : Bytes} (hp : ∀ b ∈ p, b.toNat < 0x80) (bs : Bytes) :
    p.map plain <:+: decodeLossy bs ↔ p <:+: bs := by
  cases p with
  | nil => simp
  | cons a p =>
    obtain ⟨ha, hrest⟩ := List.forall_mem_cons.mp hp
    have hplain : (plain a).toNat < 0x80 := (toNat_ofNat_of_lt ha).trans_lt ha
    constructor
    · rintro ⟨x, y, heq⟩
      have hsplit : decodeFrom none bs = x ++ plain a :: (p.map plain ++ y) := by
        rw [List.map_cons, List.append_assoc, List.cons_append] at heq
        exact heq.symm
      obtain ⟨s, b, t, rfl, hb, hlt, -, hbehind⟩ :=
        exists_of_decodeFrom_eq soundState_none hplain hsplit
      obtain rfl := plain_inj ha hlt hb.symm
      obtain ⟨t, rfl⟩ := exists_of_decodeFrom_eq_map hrest hbehind.symm
      exact ⟨s, t, by simp⟩
    · rintro ⟨s, t, rfl⟩
      have hdecoded := decodeFrom_append soundState_none ha s (p ++ t)
      rw [decodeFrom_map hrest] at hdecoded
      refine ⟨decodeFrom none s, decodeFrom none t, ?_⟩
      rw [decodeLossy_eq, List.append_assoc s, List.cons_append, hdecoded]
      simp

/-- Lines can be cut before or after they are decoded. -/
theorem pieces_decodeLossy (bs : Bytes) :
    pieces (· == '\n') (decodeLossy bs) = (bs.splitOn 0x0A).map decodeLossy := by
  induction hlength : bs.length using Nat.strong_induction_on generalizing bs with
  | _ n ih =>
    by_cases hmem : 0x0A ∈ bs
    · obtain ⟨s, t, rfl⟩ := List.append_of_mem hmem
      have hcut := decodeFrom_append soundState_none (b := 0x0A) (by decide) s t
      rw [List.length_append, List.length_cons] at hlength
      have hs := ih s.length (by omega) s rfl
      have ht := ih t.length (by omega) t rfl
      rw [List.splitOn_append_cons_self, List.map_append, ← hs, ← ht]
      exact (congrArg _ hcut).trans (pieces_append_cons rfl _ _)
    · have hnot : '\n' ∉ decodeLossy bs := by
        intro hnewline
        obtain ⟨x, y, heq⟩ := List.append_of_mem hnewline
        obtain ⟨s, b, t, rfl, hb, hlt, -⟩ := exists_of_decodeFrom_eq soundState_none (by decide) heq
        obtain rfl := plain_inj (b := 0x0A) hlt (by decide) hb
        simp at hmem
      rw [List.splitOn_eq_singleton hmem, List.map_singleton]
      exact pieces_of_forall fun c hc => beq_false_of_ne fun h => hnot (h ▸ hc)

end ApiTypings.Text.Utf8
