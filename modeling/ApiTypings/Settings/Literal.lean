import ApiTypings.Text.Basic

/-!
# Literals of a configuration file

Strings in four forms, numbers in four bases, and dates. Underscores may stand between
digits, leading zeros may not, and integers have to fit into 64 bits.
-/
namespace ApiTypings.Settings.Literal

def isSpace (c : Char) : Bool := c == ' ' || c == '\t'

/-- Characters that may stand in comments and strings. -/
def isPlain (c : Char) : Bool := c == '\t' || (0x20 ≤ c.toNat && c.toNat != 0x7F)

def isDigit (c : Char) : Bool := c.isDigit

def hexValue? (c : Char) : Option Nat :=
  let n := c.toNat
  if c.isDigit then some (n - 0x30)
  else if 0x41 ≤ n && n ≤ 0x46 then some (n - 0x41 + 10)
  else if 0x61 ≤ n && n ≤ 0x66 then some (n - 0x61 + 10)
  else none

/-! ## Strings -/

/-- The character of an escape with `n` hexadecimal digits. -/
def hexEscape? (n : Nat) (s : List Char) : Option (Char × Nat) :=
  let values := (s.take n).filterMap hexValue?
  let code := values.foldl (fun m d => m * 16 + d) 0
  if values.length == n && code ≤ 0x10FFFF && !(0xD800 ≤ code && code ≤ 0xDFFF) then
    some (Char.ofNat code, n + 1)
  else none

/-- The character of an escape, and how many characters after the backslash it takes. -/
def escape? : List Char → Option (Char × Nat)
  | 'b' :: _ => some ('\x08', 1)
  | 't' :: _ => some ('\t', 1)
  | 'n' :: _ => some ('\n', 1)
  | 'f' :: _ => some ('\x0C', 1)
  | 'r' :: _ => some ('\r', 1)
  | '"' :: _ => some ('"', 1)
  | '\\' :: _ => some ('\\', 1)
  | 'u' :: cs => hexEscape? 4 cs
  | 'U' :: cs => hexEscape? 8 cs
  | _ => none

def prepend (c : Char) (r : List Char × List Char) : List Char × List Char := (c :: r.1, r.2)

/-- A string in double quotes after its opening; the next `skip` characters are read already. -/
def quoted (skip : Nat) : List Char → Option (List Char × List Char)
  | [] => none
  | c :: cs =>
    match skip with
    | n + 1 => quoted n cs
    | 0 =>
      if c == '"' then some ([], cs)
      else if c == '\\' then
        match escape? cs with
        | some (d, n) => (quoted n cs).map (prepend d)
        | none => none
      else if isPlain c then (quoted 0 cs).map (prepend c)
      else none

/-- A string in single quotes after its opening. -/
def verbatim : List Char → Option (List Char × List Char)
  | [] => none
  | c :: cs =>
    if c == '\'' then some ([], cs)
    else if isPlain c then (verbatim cs).map (prepend c)
    else none

/-- How many characters of white space and line ends lead a text. -/
def lineSpace : List Char → Nat
  | ' ' :: cs => lineSpace cs + 1
  | '\t' :: cs => lineSpace cs + 1
  | '\n' :: cs => lineSpace cs + 1
  | '\r' :: '\n' :: cs => lineSpace cs + 2
  | _ => 0

def startsLine : List Char → Bool
  | '\n' :: _ => true
  | '\r' :: '\n' :: _ => true
  | _ => false

/-- Where three or more quotes close a string: the quotes that still belong to it, and what
follows. Up to two quotes may stand right before the closing ones. -/
def closing? (q : Char) (s : List Char) : Option (List Char × List Char) :=
  let n := (s.takeWhile (· == q)).length
  if n < 3 then none else some (List.replicate (min n 5 - 3) q, s.drop (min n 5))

/-- A string in three double quotes. A backslash at the end of a line takes the line end and
the white space after it away. -/
def quotedLines (skip : Nat) : List Char → Option (List Char × List Char)
  | [] => none
  | c :: cs =>
    match skip with
    | n + 1 => quotedLines n cs
    | 0 =>
      match closing? '"' (c :: cs) with
      | some r => some r
      | none =>
        if c == '\\' then
          if startsLine (cs.dropWhile isSpace) then quotedLines (lineSpace cs) cs
          else match escape? cs with
            | some (d, n) => (quotedLines n cs).map (prepend d)
            | none => none
        else if c == '\r' then
          if startsLine (c :: cs) then quotedLines 0 cs else none
        else if c == '\n' || isPlain c then (quotedLines 0 cs).map (prepend c)
        else none

/-- A string in three single quotes. -/
def verbatimLines : List Char → Option (List Char × List Char)
  | [] => none
  | c :: cs =>
    match closing? '\'' (c :: cs) with
    | some r => some r
    | none =>
      if c == '\r' then if startsLine (c :: cs) then verbatimLines cs else none
      else if c == '\n' || isPlain c then (verbatimLines cs).map (prepend c)
      else none

/-- A line end right after the opening does not belong to a string of several lines. -/
def withoutFirstLineEnd : List Char → List Char
  | '\n' :: cs => cs
  | '\r' :: '\n' :: cs => cs
  | cs => cs

/-- A string that starts with the given text. -/
def string? (s : List Char) : Option (String × List Char) :=
  let r := match s with
    | '"' :: '"' :: '"' :: cs => quotedLines 0 (withoutFirstLineEnd cs)
    | '\'' :: '\'' :: '\'' :: cs => verbatimLines (withoutFirstLineEnd cs)
    | '"' :: cs => quoted 0 cs
    | '\'' :: cs => verbatim cs
    | _ => none
  r.map (fun r => (String.ofList r.1, r.2))

/-! ## Numbers -/

/-- Digits with single underscores between them. -/
def digits? (isDigit : Char → Bool) (s : List Char) : Option (List Char) :=
  let parts := Text.pieces (· == '_') s
  if parts.all (fun p => !p.isEmpty && p.all isDigit) then some parts.flatten else none

def value (base : Nat) (ds : List Char) : Nat :=
  ds.foldl (fun n c => n * base + (hexValue? c).getD 0) 0

/-- Decimal digits without leading zeros. -/
def decimal? (s : List Char) : Option (List Char) :=
  match digits? isDigit s with
  | some ['0'] => some ['0']
  | some ('0' :: _) => none
  | r => r

def fits (n : Int) : Option Int :=
  if -0x8000000000000000 ≤ n ∧ n < 0x8000000000000000 then some n else none

def integer? (s : List Char) : Option Int :=
  match s with
  | '0' :: 'x' :: ds =>
    (digits? (fun c => (hexValue? c).isSome) ds).bind (fun ds => fits (value 16 ds))
  | '0' :: 'o' :: ds =>
    (digits? (fun c => c.isDigit && c != '8' && c != '9') ds).bind (fun ds => fits (value 8 ds))
  | '0' :: 'b' :: ds =>
    (digits? (fun c => c == '0' || c == '1') ds).bind (fun ds => fits (value 2 ds))
  | '-' :: ds => (decimal? ds).bind (fun ds => fits (-(value 10 ds : Int)))
  | '+' :: ds => (decimal? ds).bind (fun ds => fits (value 10 ds))
  | ds => (decimal? ds).bind (fun ds => fits (value 10 ds))

/-- Whether the digits times a power of ten are at least half a step beyond all finite
numbers of double precision. -/
def overflows (ds : List Char) (exponent : Int) : Bool :=
  let ds := ds.dropWhile (· == '0')
  let magnitude : Int := ds.length + exponent
  if ds.isEmpty || magnitude < 309 then false
  else if 309 < magnitude then true
  else
    let bound := Nat.pow 2 1024 - Nat.pow 2 970
    let n := value 10 ds
    if 0 ≤ exponent then bound ≤ n * Nat.pow 10 exponent.toNat
    else bound * Nat.pow 10 (-exponent).toNat ≤ n

def splitSign : List Char → Bool × List Char
  | '-' :: s => (true, s)
  | '+' :: s => (false, s)
  | s => (false, s)

/-- Splits at the first of some characters, which is left out. -/
def splitAt? (sep : Char → Bool) (s : List Char) : List Char × Option (List Char) :=
  match s.dropWhile (fun c => !sep c) with
  | [] => (s, none)
  | _ :: after => (s.takeWhile (fun c => !sep c), some after)

/-- Whether a text is a number with a fraction or an exponent. -/
def isFloat (s : List Char) : Bool :=
  let (negative, body) := splitSign s
  if body == "inf".toList || body == "nan".toList then true
  else
    let (mantissa, exponent) := splitAt? (fun c => c == 'e' || c == 'E') body
    let (whole, fraction) := splitAt? (· == '.') mantissa
    let power : Option Int := match exponent with
      | none => if fraction.isSome then some 0 else none
      | some e =>
        let (down, ds) := splitSign e
        (digits? isDigit ds).map (fun ds =>
          if down then -(value 10 ds : Int) else (value 10 ds : Int))
    let decimals := match fraction with
      | none => some []
      | some f => digits? isDigit f
    match decimal? whole, decimals, power with
    | some w, some f, some p => negative || !overflows (w ++ f) (p - f.length)
    | _, _, _ => false

/-! ## Dates -/

/-- A number of exactly `n` digits in the given range, and what follows. -/
def fixed? (n low high : Nat) (s : List Char) : Option (Nat × List Char) :=
  let ds := s.take n
  let v := value 10 ds
  if ds.length == n && ds.all isDigit && low ≤ v && v ≤ high then some (v, s.drop n) else none

def expect? (c : Char) : List Char → Option (List Char)
  | [] => none
  | d :: cs => if c == d then some cs else none

def daysIn (year month : Nat) : Nat :=
  if month == 2 then
    if (year % 4 == 0 && year % 100 != 0) || year % 400 == 0 then 29 else 28
  else if [4, 6, 9, 11].contains month then 30
  else 31

/-- A date, and what follows. -/
def date? (s : List Char) : Option (List Char) := do
  let (year, s) ← fixed? 4 0 9999 s
  let s ← expect? '-' s
  let (month, s) ← fixed? 2 1 12 s
  let s ← expect? '-' s
  let (_, s) ← fixed? 2 1 (daysIn year month) s
  pure s

def fraction? (s : List Char) : Option (List Char) :=
  match s with
  | '.' :: cs => if (cs.head?.map isDigit).getD false then some (cs.dropWhile isDigit) else none
  | _ => some s

/-- A time of day, and what follows. -/
def time? (s : List Char) : Option (List Char) := do
  let (_, s) ← fixed? 2 0 23 s
  let s ← expect? ':' s
  let (_, s) ← fixed? 2 0 59 s
  let s ← expect? ':' s
  let (_, s) ← fixed? 2 0 60 s
  fraction? s

/-- Whether a text is nothing or the distance from universal time. -/
def isOffset (s : List Char) : Bool :=
  match s with
  | [] => true
  | ['Z'] => true
  | ['z'] => true
  | c :: cs =>
    (c == '+' || c == '-') && (do
      let (_, s) ← fixed? 2 0 23 cs
      let s ← expect? ':' s
      let (_, s) ← fixed? 2 0 59 s
      pure s) == some []

/-- Whether a text is a date, a time, or both. -/
def isMoment (s : List Char) : Bool :=
  match date? s with
  | some [] => true
  | some (c :: cs) =>
    (c == 'T' || c == 't' || c == ' ') && ((time? cs).map isOffset).getD false
  | none => time? s == some []

/-! ## Words -/

def isWordChar (c : Char) : Bool :=
  c.isAlphanum || c == '_' || c == '+' || c == '-' || c == '.' || c == ':'

/-- The word that a text starts with. A date and a time may be separated by a space. -/
def word (s : List Char) : List Char × List Char :=
  let w := s.takeWhile isWordChar
  let rest := s.dropWhile isWordChar
  match rest with
  | ' ' :: d :: cs =>
    if date? w == some [] && isDigit d then
      (w ++ ' ' :: (d :: cs).takeWhile isWordChar, (d :: cs).dropWhile isWordChar)
    else (w, rest)
  | _ => (w, rest)

end ApiTypings.Settings.Literal
