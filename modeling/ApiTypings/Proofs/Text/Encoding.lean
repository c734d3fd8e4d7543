import ApiTypings.Proofs.Text.Decoding

/-!
# The bytes of a text

Strict decoding and encoding are inverse to each other: bytes are read as a text exactly if they are
its bytes. A character has one to four bytes, and from what its first byte says decoding goes on
byte by byte.
-/
namespace ApiTypings.Text.Utf8

open String (utf8EncodeChar)

/-! ### The bytes of a character -/

section

variable {n : Nat}

theorem utf8EncodeChar_one (h : n < 0x80) : utf8EncodeChar (Char.ofNat n) = [UInt8.ofNat n] := by
  have hn : (Char.ofNat n).val.toNat = n := toNat_ofNat_of_lt h
  simp only [utf8EncodeChar, hn]
  rw [if_pos (by omega)]

theorem utf8EncodeChar_two (hlow : 0x80 ≤ n) (hhigh : n < 0x800) :
    utf8EncodeChar (Char.ofNat n) = [UInt8.ofNat (n / 64 + 0xC0), UInt8.ofNat (n % 64 + 0x80)] := by
  have hn : (Char.ofNat n).val.toNat = n := toNat_ofNat_of_valid (Or.inl (by omega))
  have hbits : n / 64 % 32 = n / 64 := Nat.mod_eq_of_lt (by omega)
  simp only [utf8EncodeChar, hn, hbits]
  rw [if_neg (by omega), if_pos (by omega)]

theorem utf8EncodeChar_three (hlow : 0x800 ≤ n) (hhigh : n < 0x10000) (hvalid : n.isValidChar) :
    utf8EncodeChar (Char.ofNat n) = [UInt8.ofNat (n / 4096 + 0xE0),
      UInt8.ofNat (n / 64 % 64 + 0x80), UInt8.ofNat (n % 64 + 0x80)] := by
  have hn : (Char.ofNat n).val.toNat = n := toNat_ofNat_of_valid hvalid
  have hbits : n / 4096 % 16 = n / 4096 := Nat.mod_eq_of_lt (by omega)
  simp only [utf8EncodeChar, hn, hbits]
  rw [if_neg (by omega), if_neg (by omega), if_pos (by omega)]

theorem utf8EncodeChar_four (hlow : 0x10000 ≤ n) (hhigh : n < 0x110000) :
    utf8EncodeChar (Char.ofNat n) = [UInt8.ofNat (n / 262144 + 0xF0),
      UInt8.ofNat (n / 4096 % 64 + 0x80), UInt8.ofNat (n / 64 % 64 + 0x80),
      UInt8.ofNat (n % 64 + 0x80)] := by
  have hn : (Char.ofNat n).val.toNat = n := toNat_ofNat_of_valid (Or.inr ⟨by omega, by omega⟩)
  have hbits : n / 262144 % 8 = n / 262144 := Nat.mod_eq_of_lt (by omega)
  simp only [utf8EncodeChar, hn, hbits]
  rw [if_neg (by omega), if_neg (by omega), if_neg (by omega)]

end

/-! ### Single steps -/

section

variable {b : UInt8} {bits n low high : Nat} {bs : Bytes}

theorem scan_one (h : b.toNat < 0x80) :
    scan none (b :: bs) = some (Char.ofNat b.toNat) :: scan none bs := by
  rw [scan_cons, step, first, if_pos h]
  rfl

theorem scan_two (hlow : 0xC2 ≤ b.toNat) (hhigh : b.toNat < 0xE0) :
    scan none (b :: bs) = scan (some ⟨b.toNat - 0xC0, 0, 0x80, 0xBF⟩) bs := by
  rw [scan_cons, step, first, if_neg (by omega), if_neg (by omega), if_pos hhigh]
  rfl

theorem scan_three (hlow : 0xE0 ≤ b.toNat) (hhigh : b.toNat < 0xF0) :
    scan none (b :: bs) = scan (some ⟨b.toNat - 0xE0, 1, if b.toNat = 0xE0 then 0xA0 else 0x80,
      if b.toNat = 0xED then 0x9F else 0xBF⟩) bs := by
  rw [scan_cons, step, first, if_neg (by omega), if_neg (by omega), if_neg (by omega),
    if_pos hhigh]
  rfl

theorem scan_four (hlow : 0xF0 ≤ b.toNat) (hhigh : b.toNat < 0xF5) :
    scan none (b :: bs) = scan (some ⟨b.toNat - 0xF0, 2, if b.toNat = 0xF0 then 0x90 else 0x80,
      if b.toNat = 0xF4 then 0x8F else 0xBF⟩) bs := by
  rw [scan_cons, step, first, if_neg (by omega), if_neg (by omega), if_neg (by omega),
    if_neg (by omega), if_pos hhigh]
  rfl

theorem scan_last (hlow : low ≤ b.toNat) (hhigh : b.toNat ≤ high) :
    scan (some ⟨bits, 0, low, high⟩) (b :: bs) =
      some (Char.ofNat (bits * 64 + (b.toNat - 0x80))) :: scan none bs := by
  rw [scan_cons, step, if_pos (by simp [hlow, hhigh])]
  rfl

theorem scan_next (hlow : low ≤ b.toNat) (hhigh : b.toNat ≤ high) :
    scan (some ⟨bits, n + 1, low, high⟩) (b :: bs) =
      scan (some ⟨bits * 64 + (b.toNat - 0x80), n, 0x80, 0xBF⟩) bs := by
  rw [scan_cons, step, if_pos (by simp [hlow, hhigh])]
  rfl

/-- Within a character, only a byte of the range goes on without a fault. -/
theorem exists_of_scan_eq {u : Unfinished} {cs : List Char} (h : scan (some u) bs = cs.map some) :
    ∃ b rest, bs = b :: rest ∧ u.low ≤ b.toNat ∧ b.toNat ≤ u.high := by
  have hfault : ∀ ds : List (Option Char), none :: ds ≠ cs.map some := by
    intro ds heq
    have hmem : none ∈ cs.map some := heq ▸ List.mem_cons_self
    simp at hmem
  cases bs with
  | nil => exact absurd h (hfault [])
  | cons b rest =>
    refine ⟨b, rest, rfl, ?_⟩
    by_contra hrange
    have hout : ¬(decide (u.low ≤ b.toNat) && decide (b.toNat ≤ u.high)) = true := by
      simpa using hrange
    rw [scan_cons, step, if_neg hout] at h
    exact hfault _ h

end

/-! ### Whole characters -/

/-- The bytes that stand for a number. The leading byte tells how many follow, and with the next
byte it leaves out overlong forms, surrogates and numbers that are too large. -/
inductive Spells : Nat → Bytes → Prop
  | one {b : UInt8} (hlead : b.toNat < 0x80) : Spells b.toNat [b]
  | two {b b₁ : UInt8} (hlow : 0xC2 ≤ b.toNat) (hhigh : b.toNat < 0xE0)
      (hlast : 0x80 ≤ b₁.toNat ∧ b₁.toNat ≤ 0xBF) :
      Spells ((b.toNat - 0xC0) * 64 + (b₁.toNat - 0x80)) [b, b₁]
  | three {b b₁ b₂ : UInt8} (hlow : 0xE0 ≤ b.toNat) (hhigh : b.toNat < 0xF0)
      (hnext : (if b.toNat = 0xE0 then 0xA0 else 0x80) ≤ b₁.toNat ∧
        b₁.toNat ≤ if b.toNat = 0xED then 0x9F else 0xBF)
      (hlast : 0x80 ≤ b₂.toNat ∧ b₂.toNat ≤ 0xBF) :
      Spells (((b.toNat - 0xE0) * 64 + (b₁.toNat - 0x80)) * 64 + (b₂.toNat - 0x80)) [b, b₁, b₂]
  | four {b b₁ b₂ b₃ : UInt8} (hlow : 0xF0 ≤ b.toNat) (hhigh : b.toNat < 0xF5)
      (hnext : (if b.toNat = 0xF0 then 0x90 else 0x80) ≤ b₁.toNat ∧
        b₁.toNat ≤ if b.toNat = 0xF4 then 0x8F else 0xBF)
      (hthird : 0x80 ≤ b₂.toNat ∧ b₂.toNat ≤ 0xBF) (hlast : 0x80 ≤ b₃.toNat ∧ b₃.toNat ≤ 0xBF) :
      Spells ((((b.toNat - 0xF0) * 64 + (b₁.toNat - 0x80)) * 64 + (b₂.toNat - 0x80)) * 64 +
        (b₃.toNat - 0x80)) [b, b₁, b₂, b₃]

theorem toNat_byte {k : Nat} (h : k < 0x100) : (UInt8.ofNat k).toNat = k :=
  UInt8.toNat_ofNat_of_lt' h

theorem byte_eq {k : Nat} {b : UInt8} (h : k = b.toNat) : UInt8.ofNat k = b := by
  rw [h, UInt8.ofNat_toNat]

namespace Spells

variable {n : Nat} {bytes : Bytes}

theorem scan_append (h : Spells n bytes) (bs : Bytes) :
    scan none (bytes ++ bs) = some (Char.ofNat n) :: scan none bs := by
  cases h with
  | one hlead => exact scan_one hlead
  | two hlow hhigh hlast => exact (scan_two hlow hhigh).trans (scan_last hlast.1 hlast.2)
  | three hlow hhigh hnext hlast =>
    exact (scan_three hlow hhigh).trans ((scan_next hnext.1 hnext.2).trans
      (scan_last hlast.1 hlast.2))
  | four hlow hhigh hnext hthird hlast =>
    exact (scan_four hlow hhigh).trans ((scan_next hnext.1 hnext.2).trans
      ((scan_next hthird.1 hthird.2).trans (scan_last hlast.1 hlast.2)))

theorem utf8EncodeChar_eq (h : Spells n bytes) : utf8EncodeChar (Char.ofNat n) = bytes := by
  cases h with
  | one hlead => rw [utf8EncodeChar_one hlead, UInt8.ofNat_toNat]
  | two hlow hhigh hlast =>
    rw [utf8EncodeChar_two (by omega) (by omega)]
    simp only [List.cons.injEq, and_true]
    exact ⟨byte_eq (by omega), byte_eq (by omega)⟩
  | @three b b₁ b₂ hlow hhigh hnext hlast =>
    have hvalid : (((b.toNat - 0xE0) * 64 + (b₁.toNat - 0x80)) * 64 +
        (b₂.toNat - 0x80)).isValidChar := by
      unfold Nat.isValidChar
      split at hnext <;> split at hnext <;> omega
    have hlong : 0x800 ≤ ((b.toNat - 0xE0) * 64 + (b₁.toNat - 0x80)) * 64 + (b₂.toNat - 0x80) := by
      split at hnext <;> omega
    have htail : 0x80 ≤ b₁.toNat ∧ b₁.toNat ≤ 0xBF := by
      split at hnext <;> split at hnext <;> omega
    rw [utf8EncodeChar_three hlong (by omega) hvalid]
    simp only [List.cons.injEq, and_true]
    exact ⟨byte_eq (by omega), byte_eq (by omega), byte_eq (by omega)⟩
  | @four b b₁ b₂ b₃ hlow hhigh hnext hthird hlast =>
    have hlong : 0x10000 ≤ (((b.toNat - 0xF0) * 64 + (b₁.toNat - 0x80)) * 64 +
        (b₂.toNat - 0x80)) * 64 + (b₃.toNat - 0x80) := by
      split at hnext <;> omega
    have hbound : (((b.toNat - 0xF0) * 64 + (b₁.toNat - 0x80)) * 64 +
        (b₂.toNat - 0x80)) * 64 + (b₃.toNat - 0x80) < 0x110000 := by
      split at hnext <;> split at hnext <;> omega
    have htail : 0x80 ≤ b₁.toNat ∧ b₁.toNat ≤ 0xBF := by
      split at hnext <;> split at hnext <;> omega
    rw [utf8EncodeChar_four hlong hbound]
    simp only [List.cons.injEq, and_true]
    exact ⟨byte_eq (by omega), byte_eq (by omega), byte_eq (by omega), byte_eq (by omega)⟩

end Spells

theorem Spells.of_eq {m n : Nat} {bytes : Bytes} (h : Spells m bytes) (heq : m = n) :
    Spells n bytes := heq ▸ h

/-- Every character is spelled by some bytes. -/
theorem exists_spells {n : Nat} (hvalid : n.isValidChar) : ∃ bytes, Spells n bytes := by
  unfold Nat.isValidChar at hvalid
  have hlast : (UInt8.ofNat (n % 64 + 0x80)).toNat = n % 64 + 0x80 := toNat_byte (by omega)
  have hnext : (UInt8.ofNat (n / 64 % 64 + 0x80)).toNat = n / 64 % 64 + 0x80 :=
    toNat_byte (by omega)
  by_cases hone : n < 0x80
  · have hb : (UInt8.ofNat n).toNat = n := toNat_byte (by omega)
    exact ⟨_, (Spells.one (by omega)).of_eq hb⟩
  by_cases htwo : n < 0x800
  · have hb : (UInt8.ofNat (n / 64 + 0xC0)).toNat = n / 64 + 0xC0 := toNat_byte (by omega)
    refine ⟨[UInt8.ofNat (n / 64 + 0xC0), UInt8.ofNat (n % 64 + 0x80)],
      (Spells.two ?_ ?_ ?_).of_eq ?_⟩
    · omega
    · omega
    · omega
    · omega
  by_cases hthree : n < 0x10000
  · have hb : (UInt8.ofNat (n / 4096 + 0xE0)).toNat = n / 4096 + 0xE0 := toNat_byte (by omega)
    refine ⟨[UInt8.ofNat (n / 4096 + 0xE0), UInt8.ofNat (n / 64 % 64 + 0x80),
      UInt8.ofNat (n % 64 + 0x80)], (Spells.three ?_ ?_ ?_ ?_).of_eq ?_⟩
    · omega
    · omega
    · constructor <;> split <;> omega
    · omega
    · omega
  · have hb : (UInt8.ofNat (n / 262144 + 0xF0)).toNat = n / 262144 + 0xF0 :=
      toNat_byte (by omega)
    have hthird : (UInt8.ofNat (n / 4096 % 64 + 0x80)).toNat = n / 4096 % 64 + 0x80 :=
      toNat_byte (by omega)
    refine ⟨[UInt8.ofNat (n / 262144 + 0xF0), UInt8.ofNat (n / 4096 % 64 + 0x80),
      UInt8.ofNat (n / 64 % 64 + 0x80), UInt8.ofNat (n % 64 + 0x80)],
      (Spells.four ?_ ?_ ?_ ?_ ?_).of_eq ?_⟩
    · omega
    · omega
    · constructor <;> split <;> omega
    · omega
    · omega
    · omega

/-- What is decoded to a character first begins with the bytes that spell it. -/
theorem exists_spells_of_scan {bs : Bytes} {c : Char} {cs : List Char}
    (h : scan none bs = (c :: cs).map some) :
    ∃ n bytes rest, Spells n bytes ∧ Char.ofNat n = c ∧ bs = bytes ++ rest ∧
      scan none rest = cs.map some := by
  have hnone : ∀ ds : List (Option Char), none :: ds ≠ (c :: cs).map some := by
    intro ds heq
    cases heq
  cases bs with
  | nil => cases h
  | cons b bs =>
    by_cases hone : b.toNat < 0x80
    · rw [scan_one hone] at h
      obtain ⟨hc, hrest⟩ := List.cons.inj h
      exact ⟨_, [b], bs, .one hone, Option.some.inj hc, rfl, hrest⟩
    by_cases hfault : b.toNat < 0xC2
    · rw [scan_cons, step, first, if_neg hone, if_pos hfault] at h
      exact absurd h (hnone _)
    by_cases htwo : b.toNat < 0xE0
    · rw [scan_two (by omega) htwo] at h
      obtain ⟨b₁, rest, rfl, hlast⟩ := exists_of_scan_eq h
      rw [scan_last hlast.1 hlast.2] at h
      obtain ⟨hc, hrest⟩ := List.cons.inj h
      exact ⟨_, _, rest, .two (by omega) htwo hlast, Option.some.inj hc, rfl, hrest⟩
    by_cases hthree : b.toNat < 0xF0
    · rw [scan_three (by omega) hthree] at h
      obtain ⟨b₁, bs, rfl, hnext⟩ := exists_of_scan_eq h
      rw [scan_next hnext.1 hnext.2] at h
      obtain ⟨b₂, rest, rfl, hlast⟩ := exists_of_scan_eq h
      rw [scan_last hlast.1 hlast.2] at h
      obtain ⟨hc, hrest⟩ := List.cons.inj h
      exact ⟨_, _, rest, .three (by omega) hthree hnext hlast, Option.some.inj hc, rfl, hrest⟩
    by_cases hfour : b.toNat < 0xF5
    · rw [scan_four (by omega) hfour] at h
      obtain ⟨b₁, bs, rfl, hnext⟩ := exists_of_scan_eq h
      rw [scan_next hnext.1 hnext.2] at h
      obtain ⟨b₂, bs, rfl, hthird⟩ := exists_of_scan_eq h
      rw [scan_next hthird.1 hthird.2] at h
      obtain ⟨b₃, rest, rfl, hlast⟩ := exists_of_scan_eq h
      rw [scan_last hlast.1 hlast.2] at h
      obtain ⟨hc, hrest⟩ := List.cons.inj h
      exact ⟨_, _, rest, .four (by omega) hfour hnext hthird hlast, Option.some.inj hc, rfl, hrest⟩
    · rw [scan_cons, step, first, if_neg hone, if_neg hfault, if_neg htwo, if_neg hthree,
        if_neg hfour] at h
      exact absurd h (hnone _)

/-! ### Texts -/

theorem decode?_eq_some_iff_scan {bs : Bytes} {cs : List Char} :
    decode? bs = some cs ↔ scan none bs = cs.map some := by
  rw [decode?]
  generalize scan none bs = ds
  induction ds generalizing cs with
  | nil => cases cs <;> simp
  | cons d ds ih =>
    rw [List.mapM_cons]
    cases d with
    | none => cases cs <;> simp
    | some c =>
      show ((ds.mapM id).bind fun rest => some (c :: rest)) = some cs ↔ _
      rw [Option.bind_eq_some_iff]
      cases cs with
      | nil => simp
      | cons e cs => simp [ih, and_comm]

theorem encode_ofList (cs : List Char) : encode (String.ofList cs) = cs.flatMap utf8EncodeChar := by
  rw [encode, String.toUTF8, String.toByteArray_ofList, List.utf8Encode]
  simp

theorem scan_flatMap (cs : List Char) : scan none (cs.flatMap utf8EncodeChar) = cs.map some := by
  induction cs with
  | nil => rfl
  | cons c cs ih =>
    obtain ⟨bytes, hspells⟩ := exists_spells c.valid
    have hbytes : utf8EncodeChar c = bytes := by
      rw [← hspells.utf8EncodeChar_eq]
      exact congrArg _ (Char.ofNat_toNat c).symm
    rw [List.flatMap_cons, hbytes, hspells.scan_append, ih]
    exact congrArg (fun d => some d :: _) (Char.ofNat_toNat c)

/-- Bytes are read as a text exactly if they are its bytes. -/
theorem decode?_eq_some_iff {bs : Bytes} {cs : List Char} :
    decode? bs = some cs ↔ encode (String.ofList cs) = bs := by
  rw [decode?_eq_some_iff_scan, encode_ofList]
  constructor
  · intro h
    induction cs generalizing bs with
    | nil =>
      have hnone : decodeFrom none bs = [] := congrArg (List.map shown) h
      obtain ⟨rfl, -⟩ := eq_nil_of_decodeFrom_eq_nil soundState_none hnone
      rfl
    | cons c cs ih =>
      obtain ⟨n, bytes, rest, hspells, rfl, rfl, hrest⟩ := exists_spells_of_scan h
      rw [List.flatMap_cons, hspells.utf8EncodeChar_eq, ih hrest]
  · rintro rfl
    exact scan_flatMap cs

theorem decode?_encode (text : String) : decode? (encode text) = some text.toList :=
  decode?_eq_some_iff.mpr (congrArg encode String.ofList_toList)

theorem decode?_eq_none_iff {bs : Bytes} : decode? bs = none ↔ ∀ text, encode text ≠ bs := by
  constructor
  · rintro hnone text rfl
    rw [decode?_encode] at hnone
    cases hnone
  · intro h
    cases htext : decode? bs with
    | none => rfl
    | some cs => exact absurd (decode?_eq_some_iff.mp htext) (h _)

end ApiTypings.Text.Utf8
