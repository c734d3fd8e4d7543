/-!
# UTF-8

Bytes are decoded one at a time. A byte that cannot go on with the character begun before it
ends that character as invalid and is looked at afresh, so an invalid sequence never takes a
byte away from what follows. Strict decoding refuses invalid sequences, lossy decoding puts a
replacement character in place of each.
-/
namespace ApiTypings.Text.Utf8

abbrev Bytes := List UInt8

/-- The beginning of a character: its bits, how many bytes are missing after the next one,
and the range in which the next one has to be. -/
structure Unfinished where
  bits : Nat
  after : Nat
  low : Nat
  high : Nat
  deriving DecidableEq, Repr

/-- A byte where no character has begun. Finished characters are listed, with `none` for an
invalid sequence. The ranges leave out overlong forms, surrogates and all that lies beyond
the last code point. -/
def first (b : Nat) : List (Option Char) × Option Unfinished :=
  if b < 0x80 then ([some (Char.ofNat b)], none)
  else if b < 0xC2 then ([none], none)
  else if b < 0xE0 then ([], some ⟨b - 0xC0, 0, 0x80, 0xBF⟩)
  else if b < 0xF0 then
    ([], some ⟨b - 0xE0, 1, if b = 0xE0 then 0xA0 else 0x80, if b = 0xED then 0x9F else 0xBF⟩)
  else if b < 0xF5 then
    ([], some ⟨b - 0xF0, 2, if b = 0xF0 then 0x90 else 0x80, if b = 0xF4 then 0x8F else 0xBF⟩)
  else ([none], none)

def step (begun : Option Unfinished) (b : Nat) : List (Option Char) × Option Unfinished :=
  match begun with
  | none => first b
  | some u =>
    if u.low ≤ b && b ≤ u.high then
      let bits := u.bits * 64 + (b - 0x80)
      match u.after with
      | 0 => ([some (Char.ofNat bits)], none)
      | n + 1 => ([], some ⟨bits, n, 0x80, 0xBF⟩)
    else (none :: (first b).1, (first b).2)

/-- The characters of a sequence of bytes after the beginning of one. -/
def scan (begun : Option Unfinished) : Bytes → List (Option Char)
  | [] => if begun.isSome then [none] else []
  | b :: bs => (step begun b.toNat).1 ++ scan (step begun b.toNat).2 bs

/-- The text of bytes without invalid sequences. -/
def decode? (bs : Bytes) : Option (List Char) := (scan none bs).mapM id

def decodeLossy (bs : Bytes) : List Char := (scan none bs).map (fun c => c.getD '\uFFFD')

def encode (s : String) : Bytes := s.toUTF8.data.toList

theorem scan_nil : scan none [] = [] := rfl

theorem scan_cons (begun : Option Unfinished) (b : UInt8) (bs : Bytes) :
    scan begun (b :: bs) = (step begun b.toNat).1 ++ scan (step begun b.toNat).2 bs := rfl

/-- A byte of the ASCII range stands for itself, whatever came before it. -/
theorem step_of_lt {b : Nat} (h : b < 0x80) (begun : Option Unfinished)
    (hb : ∀ u ∈ begun, 0x80 ≤ u.low) :
    step begun b = ((if begun.isSome then [none] else []) ++ [some (Char.ofNat b)], none) := by
  cases begun with
  | none => simp [step, first, h]
  | some u =>
    have hu : 0x80 ≤ u.low := hb u rfl
    have hn : ¬ u.low ≤ b := by omega
    simp [step, first, h, hn]

end ApiTypings.Text.Utf8
