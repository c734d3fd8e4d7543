/-!
# Letters and their case

Case classes and case mappings of the Latin letters: ASCII, Latin-1 Supplement, Latin
Extended-A and -B, and Latin Extended Additional. Other scripts count as letters without case.
-/
namespace ApiTypings.Text.Letter

/-- Runs in which every second code is a capital, followed by its small letter. -/
def alternatingRuns : List (Nat × Nat) :=
  [(0x100, 0x12E), (0x132, 0x136), (0x139, 0x147), (0x14A, 0x176), (0x179, 0x17D),
   (0x182, 0x184), (0x187, 0x187), (0x18B, 0x18B), (0x191, 0x191), (0x198, 0x198),
   (0x1A0, 0x1A4), (0x1A7, 0x1A7), (0x1AC, 0x1AC), (0x1AF, 0x1AF), (0x1B3, 0x1B5),
   (0x1B8, 0x1B8), (0x1BC, 0x1BC), (0x1CD, 0x1DB), (0x1DE, 0x1EE), (0x1F4, 0x1F4),
   (0x1F8, 0x21E), (0x222, 0x232), (0x23B, 0x23B), (0x241, 0x241), (0x246, 0x24E),
   (0x1E00, 0x1E94), (0x1EA0, 0x1EFE)]

/-- Capitals that stand apart from their small letters. -/
def scatteredPairs : List (Nat × Nat) :=
  [(0x178, 0xFF), (0x181, 0x253), (0x186, 0x254), (0x189, 0x256), (0x18A, 0x257),
   (0x18E, 0x1DD), (0x18F, 0x259), (0x190, 0x25B), (0x193, 0x260), (0x194, 0x263),
   (0x196, 0x269), (0x197, 0x268), (0x19C, 0x26F), (0x19D, 0x272), (0x19F, 0x275),
   (0x1A6, 0x280), (0x1A9, 0x283), (0x1AE, 0x288), (0x1B1, 0x28A), (0x1B2, 0x28B),
   (0x1B7, 0x292), (0x1C4, 0x1C6), (0x1C7, 0x1C9), (0x1CA, 0x1CC), (0x1F1, 0x1F3),
   (0x1F6, 0x195), (0x1F7, 0x1BF), (0x220, 0x19E), (0x23D, 0x19A), (0x243, 0x180),
   (0x244, 0x289), (0x245, 0x28C), (0x23A, 0x2C65), (0x23E, 0x2C66), (0x2C7E, 0x23F),
   (0x2C7F, 0x240)]

/-- The middle forms of digraphs, a capital before a small letter, each with the codes of its
capital and its small form. -/
def middleForms : List (Nat × Nat × Nat) :=
  [(0x1C5, 0x1C4, 0x1C6), (0x1C8, 0x1C7, 0x1C9), (0x1CB, 0x1CA, 0x1CC), (0x1F2, 0x1F1, 0x1F3)]

/-- Small letters whose capital form is another letter's capital or several characters. -/
def expandingCapitals : List (Nat × List Nat) :=
  [(0xB5, [0x39C]), (0xDF, [0x53, 0x53]), (0x131, [0x49]), (0x149, [0x2BC, 0x4E]),
   (0x17F, [0x53]), (0x1F0, [0x4A, 0x30C]), (0x1E96, [0x48, 0x331]), (0x1E97, [0x54, 0x308]),
   (0x1E98, [0x57, 0x30A]), (0x1E99, [0x59, 0x30A]), (0x1E9A, [0x41, 0x2BE]), (0x1E9B, [0x1E60])]

/-- Small letters without a capital. -/
def uncapitalised : List Nat :=
  [0xAA, 0xBA, 0x138, 0x18D, 0x19B, 0x1AA, 0x1AB, 0x1BA, 0x1BE, 0x221, 0x234, 0x235, 0x236,
   0x237, 0x238, 0x239, 0x1E9C, 0x1E9D, 0x1E9F]

/-- The code of the small letter of a capital. -/
def smallCode? (n : Nat) : Option Nat :=
  if 0x41 ≤ n && n ≤ 0x5A then some (n + 32)
  else if 0xC0 ≤ n && n ≤ 0xDE && n != 0xD7 then some (n + 32)
  else if n == 0x1E9E then some 0xDF
  else if alternatingRuns.any (fun r => r.1 ≤ n && n ≤ r.2 && (n - r.1) % 2 == 0) then some (n + 1)
  else (scatteredPairs.find? (fun p => p.1 == n)).map (fun p => p.2)

/-- The code of the one capital of a small letter. -/
def capitalCode? (n : Nat) : Option Nat :=
  if 0x61 ≤ n && n ≤ 0x7A then some (n - 32)
  else if 0xE0 ≤ n && n ≤ 0xFE && n != 0xF7 then some (n - 32)
  else if alternatingRuns.any (fun r => r.1 < n && n ≤ r.2 + 1 && (n - r.1) % 2 == 1) then
    some (n - 1)
  else (scatteredPairs.find? (fun p => p.2 == n)).map (fun p => p.1)

def isCapital (c : Char) : Bool := (smallCode? c.toNat).isSome || c.toNat == 0x130

def isSmall (c : Char) : Bool :=
  (capitalCode? c.toNat).isSome || (expandingCapitals.lookup c.toNat).isSome ||
    uncapitalised.contains c.toNat

/-- The capital form, which may be longer than one character. -/
def capitals (c : Char) : List Char :=
  match expandingCapitals.lookup c.toNat, middleForms.lookup c.toNat with
  | some codes, _ => codes.map Char.ofNat
  | none, some (n, _) => [Char.ofNat n]
  | none, none => match capitalCode? c.toNat with
    | some n => [Char.ofNat n]
    | none => [c]

/-- The small form, which may be longer than one character. -/
def smalls (c : Char) : List Char :=
  if c.toNat == 0x130 then ['i', Char.ofNat 0x307]
  else match middleForms.lookup c.toNat, smallCode? c.toNat with
    | some (_, n), _ => [Char.ofNat n]
    | none, some n => [Char.ofNat n]
    | none, none => [c]

/-- The letters, raised digits and fractions among the signs of the Latin-1 Supplement. -/
def latinSigns : List Nat := [0xAA, 0xB2, 0xB3, 0xB5, 0xB9, 0xBA, 0xBC, 0xBD, 0xBE]

/-- Letters and digits. Beyond Latin-1 every character counts as one. -/
def isAlphanumeric (c : Char) : Bool :=
  c.isAlphanum || latinSigns.contains c.toNat ||
    (0xC0 ≤ c.toNat && c.toNat != 0xD7 && c.toNat != 0xF7)

end ApiTypings.Text.Letter
