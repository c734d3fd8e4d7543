/-!
# Blanks, words and lines of text

A character is blank when it has the Unicode property White_Space. A text is the
sequence of its words with blank runs between them; trimming removes the outer runs. Words are
put on lines as long as they fit. Searches go from left to right and report the first occurrence.
-/
namespace ApiTypings.Text

/-- The Unicode property White_Space. The zero-width space is not in it. -/
def isBlank (c : Char) : Bool :=
  let n := c.toNat
  (9 ≤ n && n ≤ 13) || n == 0x20 || n == 0x85 || n == 0xA0 || n == 0x1680 ||
    (0x2000 ≤ n && n ≤ 0x200A) || n == 0x2028 || n == 0x2029 || n == 0x202F ||
    n == 0x205F || n == 0x3000

def trimStart (s : List Char) : List Char := s.dropWhile isBlank

def trimEnd (s : List Char) : List Char := (s.reverse.dropWhile isBlank).reverse

def trim (s : List Char) : List Char := trimEnd (trimStart s)

/-- Puts a character in front of the first piece. -/
def extend (c : Char) : List (List Char) → List (List Char)
  | [] => [[c]]
  | p :: ps => (c :: p) :: ps

/-- Cuts a text at every character of a class. There is one piece more than there are
cuts, and pieces may be empty. -/
def pieces (cut : Char → Bool) : List Char → List (List Char)
  | [] => [[]]
  | c :: cs => if cut c then [] :: pieces cut cs else extend c (pieces cut cs)

/-- The maximal runs of characters that are not blank. -/
def words (s : List Char) : List (List Char) :=
  (pieces isBlank s).filter (fun p => !p.isEmpty)

/-- The words of a text joined by single spaces. -/
def joinWords : List (List Char) → List Char
  | [] => []
  | [w] => w
  | w :: v :: ws => w ++ ' ' :: joinWords (v :: ws)

def trimmed (s : String) : String := String.ofList (trim s.toList)

theorem pieces_ne_nil (cut : Char → Bool) (s : List Char) : pieces cut s ≠ [] := by
  cases s with
  | nil => simp [pieces]
  | cons c cs =>
    unfold pieces
    split
    · simp
    · cases pieces cut cs <;> simp [extend]

/-! ### Filling of lines -/

/-- Continues the line `line` with the words that follow. Words are put on the current line as long
as they fit, and one longer than the width stands on a line of its own. Lengths are counted in
characters. -/
def fill (width : Nat) (line : List Char) : List (List Char) → List (List Char)
  | [] => [line]
  | w :: ws =>
    if line.length + 1 + w.length ≤ width then fill width (line ++ ' ' :: w) ws
    else line :: fill width w ws

def wrapWords (width : Nat) : List (List Char) → List (List Char)
  | [] => []
  | w :: ws => fill width w ws

def wrap (width : Nat) (text : String) : List String :=
  (wrapWords width (words text.toList)).map String.ofList

/-! ### Finding and replacing -/

/-- Whether a pattern occurs somewhere in a text. -/
def occursIn (pattern : List Char) : List Char → Bool
  | [] => pattern.isEmpty
  | c :: cs => pattern.isPrefixOf (c :: cs) || occursIn pattern cs

/-- Replaces the first occurrence of a pattern and keeps a text without one as it is. -/
def replaceFirst (old new : List Char) : List Char → List Char
  | [] => if old.isEmpty then new else []
  | c :: cs =>
    if old.isPrefixOf (c :: cs) then new ++ (c :: cs).drop old.length
    else c :: replaceFirst old new cs

/-- The lines of a text: it is cut at line feeds, a carriage return in front of a line feed
is dropped, and a final line feed opens no further line. -/
def lines (s : List Char) : List (List Char) :=
  go [] s
where
  go (line : List Char) : List Char → List (List Char)
    | [] => if line.isEmpty then [] else [line.reverse]
    | '\r' :: '\n' :: cs => line.reverse :: go [] cs
    | '\n' :: cs => line.reverse :: go [] cs
    | c :: cs => go (c :: line) cs

end ApiTypings.Text
