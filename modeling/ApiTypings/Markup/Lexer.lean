import ApiTypings.Markup.Token
import ApiTypings.Markup.CharacterReference

/-!
# Reading tokens

One step reads at least one character and gives the tokens it stands for together with the
rest of the text. A tag that the text ends in the middle of is dropped. The result of every
step records that its rest is shorter, so reading a whole text ends.
-/
namespace ApiTypings.Markup.Lexer

/-- The white space that separates the parts of a tag. -/
def isSpace (c : Char) : Bool :=
  c == ' ' || c == '\n' || c == '\t' || c == '\x0C' || c == '\r'

/-- A null character is not allowed and stands for the replacement character. -/
def repaired (c : Char) : Char := if c == '\x00' then replacement else c

def text (s : List Char) : String := String.ofList (s.map repaired)

def lowerText (s : List Char) : String := String.ofList (s.map (fun c => repaired c.toLower))

/-- What a step read from a text, and what is left. -/
structure Step (s : List Char) where
  tokens : List Token
  rest : List Char
  shorter : rest.length ≤ s.length

theorem length_dropWhile_le (p : Char → Bool) (s : List Char) :
    (s.dropWhile p).length ≤ s.length := by
  induction s with
  | nil => simp
  | cons c cs ih =>
    rw [List.dropWhile_cons]
    split
    · exact Nat.le_succ_of_le ih
    · exact Nat.le_refl _

theorem length_drop_le (n : Nat) (s : List Char) : (s.drop n).length ≤ s.length := by
  rw [List.length_drop]
  exact Nat.sub_le _ _

/-- Whether a text starts with a word in whatever case. -/
def startsWithWord (word : String) (s : List Char) : Bool :=
  word.toList.isPrefixOf ((s.take word.length).map Char.toLower)

/-! ## Attributes and tags -/

/-- The value after an equals sign and white space, with what follows it. -/
def attributeValue (s : List Char) : Option (List Char × List Char) :=
  match s with
  | [] => none
  | '"' :: cs => quoted '"' cs
  | '\'' :: cs => quoted '\'' cs
  | c :: cs =>
    if c == '>' then some ([], c :: cs)
    else some ((c :: cs).takeWhile (fun d => !isSpace d && d != '>'),
      (c :: cs).dropWhile (fun d => !isSpace d && d != '>'))
where
  quoted (q : Char) (cs : List Char) : Option (List Char × List Char) :=
    match cs.dropWhile (fun d => d != q) with
    | [] => none
    | _ :: after => some (cs.takeWhile (fun d => d != q), after)

theorem quoted_shorter {q : Char} {cs : List Char} {v : List Char × List Char}
    (h : attributeValue.quoted q cs = some v) : v.2.length ≤ cs.length := by
  unfold attributeValue.quoted at h
  split at h
  · cases h
  · next after hd =>
    cases h
    have hl := length_dropWhile_le (fun d => d != q) cs
    rw [hd, List.length_cons] at hl
    exact Nat.le_of_succ_le hl

theorem attributeValue_shorter {s : List Char} {v : List Char × List Char}
    (h : attributeValue s = some v) : v.2.length ≤ s.length := by
  unfold attributeValue at h
  split at h
  · cases h
  · exact Nat.le_succ_of_le (quoted_shorter h)
  · exact Nat.le_succ_of_le (quoted_shorter h)
  · split at h
    · cases h; exact Nat.le_refl _
    · cases h; exact length_dropWhile_le _ _

/-- An attribute whose name starts with `c`, and what follows it. -/
def readAttribute (c : Char) (s : List Char) : Option ((String × String) × List Char) :=
  let inName := fun d => !isSpace d && d != '/' && d != '>' && d != '='
  let name := lowerText (c :: s.takeWhile inName)
  let after := s.dropWhile inName
  match after.dropWhile isSpace with
  | '=' :: cs =>
    (attributeValue (cs.dropWhile isSpace)).map (fun v =>
      ((name, String.ofList (decodeReferences true (v.1.map repaired))), v.2))
  | _ => some ((name, ""), after)

theorem readAttribute_shorter {c : Char} {s : List Char} {a : (String × String) × List Char}
    (h : readAttribute c s = some a) : a.2.length ≤ s.length := by
  unfold readAttribute at h
  dsimp only at h
  split at h
  · next cs hcs =>
    obtain ⟨v, hv, rfl⟩ := Option.map_eq_some_iff.1 h
    have h1 := attributeValue_shorter hv
    have h2 := length_dropWhile_le isSpace cs
    have h3 := length_dropWhile_le isSpace
      (s.dropWhile (fun d => !isSpace d && d != '/' && d != '>' && d != '='))
    have h4 := length_dropWhile_le (fun d => !isSpace d && d != '/' && d != '>' && d != '=') s
    rw [hcs, List.length_cons] at h3
    dsimp only
    omega
  · cases h
    exact length_dropWhile_le _ _

/-- Keeps the first of two attributes of one name. -/
def addAttribute (found : List (String × String)) (a : String × String) :
    List (String × String) :=
  if found.any (fun b => b.1 == a.1) then found else found ++ [a]

/-- The attributes of a tag up to its end, and whether it closes itself. -/
def attributes (found : List (String × String)) (s : List Char) :
    Option ((List (String × String) × Bool) × List Char) :=
  match s with
  | [] => none
  | c :: cs =>
    if c == '>' then some ((found, false), cs)
    else if isSpace c then attributes found cs
    else if c == '/' then
      if cs.head? == some '>' then some ((found, true), cs.drop 1) else attributes found cs
    else
      match h : readAttribute c cs with
      | none => none
      | some a =>
        have := readAttribute_shorter h
        attributes (addAttribute found a.1) a.2
termination_by s.length

theorem attributes_shorter {found : List (String × String)} {s : List Char}
    {r : (List (String × String) × Bool) × List Char} (h : attributes found s = some r) :
    r.2.length ≤ s.length := by
  fun_induction attributes found s with
  | case1 => cases h
  | case2 => cases h; simp
  | case3 _ _ _ _ _ ih => have := ih h; simp only [List.length_cons]; omega
  | case4 => cases h; simp only [List.length_cons, List.length_drop]; omega
  | case5 _ _ _ _ _ _ _ ih => have := ih h; simp only [List.length_cons]; omega
  | case6 => cases h
  | case7 _ _ _ _ _ _ a ha _ ih =>
    have h1 := ih h
    have h2 := readAttribute_shorter ha
    simp only [List.length_cons]
    omega

/-- Reads a tag from its name on. -/
def tag (make : String → List (String × String) → Bool → Token) (s : List Char) : Step s :=
  let inName := fun c => !isSpace c && c != '/' && c != '>'
  match h : attributes [] (s.dropWhile inName) with
  | none => ⟨[], [], Nat.zero_le _⟩
  | some r =>
    ⟨[make (lowerText (s.takeWhile inName)) r.1.1 r.1.2], r.2,
      Nat.le_trans (attributes_shorter h) (length_dropWhile_le _ _)⟩

/-! ## Comments and declarations -/

/-- The content of a comment and what follows it. -/
def commentBody : List Char → List Char × List Char
  | '-' :: '-' :: '>' :: cs => ([], cs)
  | '-' :: '-' :: '!' :: '>' :: cs => ([], cs)
  | ['-', '-', '!'] => ([], [])
  | ['-', '-'] => ([], [])
  | ['-'] => ([], [])
  | c :: cs => (c :: (commentBody cs).1, (commentBody cs).2)
  | [] => ([], [])

theorem commentBody_shorter (s : List Char) : (commentBody s).2.length ≤ s.length := by
  fun_induction commentBody s with
  | case1 => simp only [List.length_cons]; omega
  | case2 => simp only [List.length_cons]; omega
  | case3 => simp
  | case4 => simp
  | case5 => simp
  | case6 c cs _ _ _ _ _ ih => simp only [List.length_cons]; omega
  | case7 => simp

/-- Like `commentBody`, but a comment can also close right after its opening. -/
def commentText : List Char → List Char × List Char
  | '>' :: cs => ([], cs)
  | '-' :: '>' :: cs => ([], cs)
  | s => commentBody s

theorem commentText_shorter (s : List Char) : (commentText s).2.length ≤ s.length := by
  unfold commentText
  split
  · simp only [List.length_cons]; omega
  · simp only [List.length_cons]; omega
  · exact commentBody_shorter _

/-- Reads a comment after its opening. -/
def comment (s : List Char) : Step s :=
  ⟨[.comment (text (commentText s).1)], (commentText s).2, commentText_shorter s⟩

/-- Reads what is no proper markup as a comment up to the next closing bracket. -/
def bogusComment (s : List Char) : Step s :=
  ⟨[.comment (text (s.takeWhile (fun c => c != '>')))], (s.dropWhile (fun c => c != '>')).drop 1,
    Nat.le_trans (length_drop_le _ _) (length_dropWhile_le _ _)⟩

/-- A quoted identifier of a document type: its text, whether it was closed, and the rest. -/
def quotedIdentifier? (s : List Char) : Option (String × Bool × List Char) :=
  match s with
  | [] => none
  | q :: cs =>
    if q == '"' || q == '\'' then
      let inside := fun c => c != q && c != '>'
      let after := cs.dropWhile inside
      some (text (cs.takeWhile inside), after.head? == some q,
        if after.head? == some q then after.drop 1 else after)
    else none

/-- What follows the name of a document type, up to its closing bracket. -/
def doctypeIdentifiers (name : String) (s : List Char) : Doctype :=
  let s := s.dropWhile isSpace
  let closes := fun (r : List Char) => r.head? == some '>'
  if closes s then ⟨name, none, none, false⟩
  else if startsWithWord "public" s then
    match quotedIdentifier? ((s.drop 6).dropWhile isSpace) with
    | none => ⟨name, none, none, true⟩
    | some (publicId, false, _) => ⟨name, some publicId, none, true⟩
    | some (publicId, true, after) =>
      let after := after.dropWhile isSpace
      if closes after then ⟨name, some publicId, none, false⟩
      else match quotedIdentifier? after with
        | none => ⟨name, some publicId, none, true⟩
        | some (systemId, closed, last) =>
          ⟨name, some publicId, some systemId, !closed || (last.dropWhile isSpace).isEmpty⟩
  else if startsWithWord "system" s then
    match quotedIdentifier? ((s.drop 6).dropWhile isSpace) with
    | none => ⟨name, none, none, true⟩
    | some (systemId, closed, last) =>
      ⟨name, none, some systemId, !closed || (last.dropWhile isSpace).isEmpty⟩
  else ⟨name, none, none, true⟩

/-- Reads a document type declaration after its keyword. -/
def doctype (s : List Char) : Step s :=
  let body := s.dropWhile isSpace
  let inName := fun c => !isSpace c && c != '>'
  let name := lowerText (body.takeWhile inName)
  let d := if (body.head?.getD '>') == '>' then ⟨"", none, none, true⟩
    else doctypeIdentifiers name (body.dropWhile inName)
  ⟨[.doctype d], (s.dropWhile (fun c => c != '>')).drop 1,
    Nat.le_trans (length_drop_le _ _) (length_dropWhile_le _ _)⟩

/-! ## Text -/

/-- Whether a text goes on with the end of the element whose start tag had this name. -/
def closes (name : String) (s : List Char) : Bool :=
  match s with
  | '/' :: cs => startsWithWord name cs && (match (cs.drop name.length).head? with
    | some c => isSpace c || c == '/' || c == '>'
    | none => false)
  | _ => false

/-- Takes characters up to the place where `stop` holds; the state follows the text. -/
def takeText {σ : Type} (stop : σ → Char → List Char → Bool) (next : σ → Char → List Char → σ)
    (state : σ) : List Char → List Char × List Char
  | [] => ([], [])
  | c :: cs =>
    if stop state c cs then ([], c :: cs)
    else
      let more := takeText stop next (next state c cs) cs
      (c :: more.1, more.2)

theorem takeText_shorter {σ : Type} (stop : σ → Char → List Char → Bool)
    (next : σ → Char → List Char → σ) (state : σ) (s : List Char) :
    (takeText stop next state s).2.length ≤ s.length := by
  induction s generalizing state with
  | nil => simp [takeText]
  | cons c cs ih =>
    unfold takeText
    split
    · exact Nat.le_refl _
    · exact Nat.le_succ_of_le (ih _)

/-- Where a script stands: in plain text, in a comment, or in a script inside that comment;
with the number of dashes just read. -/
inductive ScriptState where
  | plain
  | escaped (dashes : Nat)
  | nested (dashes : Nat)

/-- Whether a text goes on with the start of a script. -/
def opensScript (s : List Char) : Bool := closes "script" ('/' :: s)

def ScriptState.after (state : ScriptState) (c : Char) (cs : List Char) : ScriptState :=
  match state with
  | .plain => if c == '<' && ['!', '-', '-'].isPrefixOf cs then .escaped 0 else .plain
  | .escaped n =>
    if c == '-' then .escaped (n + 1)
    else if c == '>' && 2 ≤ n then .plain
    else if c == '<' && opensScript cs then .nested 0
    else .escaped 0
  | .nested n =>
    if c == '-' then .nested (n + 1)
    else if c == '>' && 2 ≤ n then .plain
    else if c == '<' && closes "script" cs then .escaped 0
    else .nested 0

def ScriptState.ends (state : ScriptState) (c : Char) (cs : List Char) : Bool :=
  match state with
  | .nested _ => false
  | _ => c == '<' && closes "script" cs

/-- The text of a section that quotes its content, and what follows it. -/
def quotedSection : List Char → List Char × List Char
  | ']' :: ']' :: '>' :: cs => ([], cs)
  | c :: cs => (c :: (quotedSection cs).1, (quotedSection cs).2)
  | [] => ([], [])

theorem quotedSection_shorter (s : List Char) : (quotedSection s).2.length ≤ s.length := by
  fun_induction quotedSection s with
  | case1 => simp only [List.length_cons]; omega
  | case2 _ _ _ ih => simp only [List.length_cons]; omega
  | case3 => simp

def characters (s : List Char) : List Token := s.map Token.character

/-! ## One step -/

/-- Gives a step on the end of a text as a step on the whole text. -/
def Step.of {s t : List Char} (step : Step s) (h : s.length ≤ t.length) : Step t :=
  ⟨step.tokens, step.rest, Nat.le_trans step.shorter h⟩

/-- Reads on after `<!`. Quoted sections exist outside the HTML vocabulary only. -/
def declaration (foreign : Bool) (s : List Char) : Step s :=
  if "--".toList.isPrefixOf s then (comment (s.drop 2)).of (length_drop_le _ _)
  else if startsWithWord "doctype" s then (doctype (s.drop 7)).of (length_drop_le _ _)
  else if foreign && "[CDATA[".toList.isPrefixOf s then
    ⟨characters (quotedSection (s.drop 7)).1, (quotedSection (s.drop 7)).2,
      Nat.le_trans (quotedSection_shorter _) (length_drop_le _ _)⟩
  else bogusComment s

/-- Reads on after `<`. -/
def afterBracket (foreign : Bool) (s : List Char) : Step s :=
  match s with
  | '!' :: cs => (declaration foreign cs).of (Nat.le_succ _)
  | '?' :: cs => bogusComment ('?' :: cs)
  | '/' :: '>' :: cs => ⟨[], cs, by simp only [List.length_cons]; omega⟩
  | ['/'] => ⟨characters ['<', '/'], [], by simp⟩
  | '/' :: c :: cs =>
    if c.isAlpha then (tag (fun name _ _ => .endTag name) (c :: cs)).of (Nat.le_succ _)
    else (bogusComment (c :: cs)).of (Nat.le_succ _)
  | c :: cs =>
    if c.isAlpha then tag (fun name as closed => .startTag ⟨name, as, closed⟩) (c :: cs)
    else ⟨[.character '<'], c :: cs, Nat.le_refl _⟩
  | [] => ⟨[.character '<'], [], Nat.le_refl _⟩

/-- Reads one piece of markup that starts with `c`. -/
def markup (foreign : Bool) (c : Char) (s : List Char) : Step s :=
  if c == '<' then afterBracket foreign s
  else if c == '&' then
    match reference? false s with
    | some (chars, n) => ⟨characters chars, s.drop n, length_drop_le _ _⟩
    | none => ⟨[.character '&'], s, Nat.le_refl _⟩
  else ⟨[.character c], s, Nat.le_refl _⟩

/-- Reads text that starts with `c` up to where it ends. -/
def textRun {σ : Type} (stop : σ → Char → List Char → Bool) (next : σ → Char → List Char → σ)
    (state : σ) (decode : List Char → List Char) (c : Char) (s : List Char) : Step s :=
  let run := takeText stop next (next state c s) s
  ⟨characters ((decode (c :: run.1)).map repaired), run.2, takeText_shorter _ _ _ _⟩

/-- Reads one step of a text that starts with `c`. -/
def step (model : ContentModel) (foreign : Bool) (c : Char) (s : List Char) : Step s :=
  let toEnd := fun name (_ : Unit) d rest => d == '<' && closes name rest
  match model with
  | .markup => markup foreign c s
  | .referenceText name =>
    if toEnd name () c s then markup foreign c s
    else textRun (toEnd name) (fun _ _ _ => ()) () (decodeReferences false) c s
  | .rawText name =>
    if toEnd name () c s then markup foreign c s
    else textRun (toEnd name) (fun _ _ _ => ()) () id c s
  | .script =>
    if ScriptState.plain.ends c s then markup foreign c s
    else textRun ScriptState.ends ScriptState.after .plain id c s
  | .plainText => textRun (fun _ _ _ => false) (fun _ _ _ => ()) () id c s

end ApiTypings.Markup.Lexer
