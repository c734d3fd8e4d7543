import ApiTypings.Markup.NamedCharacters

/-!
# Character references

What follows an ampersand in markup may stand for other characters: a decimal or hexadecimal
code, or a name. The longest name that matches counts. In attribute values an older name
without its semicolon is plain text when a letter, a digit or an equals sign follows.
-/
namespace ApiTypings.Markup

/-- The characters that codes from 128 to 159 stand for, where they are not the code itself. -/
def windowsCodes : List (Nat × Nat) :=
  [(0x80, 0x20AC), (0x82, 0x201A), (0x83, 0x0192), (0x84, 0x201E), (0x85, 0x2026), (0x86, 0x2020),
   (0x87, 0x2021), (0x88, 0x02C6), (0x89, 0x2030), (0x8A, 0x0160), (0x8B, 0x2039), (0x8C, 0x0152),
   (0x8E, 0x017D), (0x91, 0x2018), (0x92, 0x2019), (0x93, 0x201C), (0x94, 0x201D), (0x95, 0x2022),
   (0x96, 0x2013), (0x97, 0x2014), (0x98, 0x02DC), (0x99, 0x2122), (0x9A, 0x0161), (0x9B, 0x203A),
   (0x9C, 0x0153), (0x9E, 0x017E), (0x9F, 0x0178)]

def replacement : Char := '\uFFFD'

/-- The character of a numeric reference. -/
def ofCode (n : Nat) : Char :=
  if n == 0 || n > 0x10FFFF || (0xD800 ≤ n && n ≤ 0xDFFF) then replacement
  else Char.ofNat ((windowsCodes.lookup n).getD n)

def digitValue? (base : Nat) (c : Char) : Option Nat :=
  let n := c.toNat
  let v := if 0x30 ≤ n && n ≤ 0x39 then some (n - 0x30)
    else if 0x41 ≤ n && n ≤ 0x46 then some (n - 0x41 + 10)
    else if 0x61 ≤ n && n ≤ 0x66 then some (n - 0x61 + 10)
    else none
  v.filter (fun d => d < base)

/-- A code in the given base: its value, and how many digits it has. -/
def leadingCode (base : Nat) (s : List Char) : Nat × Nat :=
  let digits := (s.takeWhile (fun c => (digitValue? base c).isSome)).filterMap (digitValue? base)
  (digits.foldl (fun n d => n * base + d) 0, digits.length)

/-- Reads digits after `skipped` characters and an optional semicolon. -/
def numericReference? (base skipped : Nat) (s : List Char) : Option (List Char × Nat) :=
  let code := leadingCode base s
  if code.2 == 0 then none
  else
    let close := if (s.drop code.2).head? == some ';' then 1 else 0
    some ([ofCode code.1], skipped + code.2 + close)

/-- The longest name that a text starts with. -/
def longestName? (s : List Char) : Option (List Char × List Char) :=
  namedCharacters.foldl (fun best row =>
    if row.1.isPrefixOf s && (best.map (fun b => b.1.length)).getD 0 < row.1.length
    then some row else best) none

def namedReference? (inValue : Bool) (s : List Char) : Option (List Char × Nat) := do
  let row ← longestName? s
  let closed := row.1.getLast? == some ';'
  let continued := match (s.drop row.1.length).head? with
    | some c => c == '=' || c.isAlphanum
    | none => false
  if inValue && !closed && continued then none else some (row.2, row.1.length)

/-- What the text after an ampersand stands for, and how many of its characters are read. -/
def reference? (inValue : Bool) (s : List Char) : Option (List Char × Nat) :=
  match s with
  | '#' :: 'x' :: cs => numericReference? 16 2 cs
  | '#' :: 'X' :: cs => numericReference? 16 2 cs
  | '#' :: cs => numericReference? 10 1 cs
  | _ => namedReference? inValue s

/-- Replaces the references of a text; the next `skip` characters belong to one. -/
def decodeFrom (inValue : Bool) (skip : Nat) : List Char → List Char
  | [] => []
  | c :: cs =>
    match skip with
    | n + 1 => decodeFrom inValue n cs
    | 0 =>
      if c == '&' then
        match reference? inValue cs with
        | some (text, n) => text ++ decodeFrom inValue n cs
        | none => '&' :: decodeFrom inValue 0 cs
      else c :: decodeFrom inValue 0 cs

def decodeReferences (inValue : Bool) (s : List Char) : List Char := decodeFrom inValue 0 s

end ApiTypings.Markup
