import ApiTypings.Proofs.Page.Recovery
import ApiTypings.Proofs.Printing.EntryLines

/-!
# The printed text determines the schema

Line by line, the text of a schema that was read from a page leaves no choice: a word ends
where its identifier ends, and what follows it says whether a type goes on. So two schemas
with one text differ at most in documentation and in the kind of their numbers.
-/
namespace ApiTypings.Printing

open Text
open Page (IsItem IsCellType IsEntryType isIdentifier isIdentifierChar isIdentifier_iff
  identifierChars_of_isIdentifier isTypeName isIdentifier_of_isTypeName
  isUpper_head_of_isTypeName forall_isItem_of_names oneOf arraysOf)

/-- Integers and floats are written as the same word. -/
def asNumber : Scalar → Scalar
  | .float => .integer
  | s => s

/-- What a printed type says: no documentation, and numbers of one kind. -/
def printedOutline (t : ApiType) : ApiType := typeOutline asNumber (.any []) t

/-- Two entries that print alike: of one kind, with the same members or properties in order. -/
inductive SaysTheSame : ApiType → ApiType → Prop
  | any (cs ds : List DocComment) : SaysTheSame (.any cs) (.any ds)
  | union {ms ns : List ApiType} (h : ms.map printedOutline = ns.map printedOutline)
    (cs ds : List DocComment) : SaysTheSame (.union ms cs) (.union ns ds)
  | record {ps qs : List Property}
    (h : ps.map (propertyOutline asNumber (.any [])) = qs.map (propertyOutline asNumber (.any [])))
    (cs ds : List DocComment) : SaysTheSame (.record ps cs) (.record qs ds)

/-- A name as it stands for a reference in a closed schema. -/
def IsEntryName (n : String) : Prop := isTypeName n.toList = true

/-- Where an identifier ends is seen from what follows. -/
theorem identifier_append_inj {w v r r' : List Char} (hw : ∀ c ∈ w, isIdentifierChar c = true)
    (hv : ∀ c ∈ v, isIdentifierChar c = true) (hr : ∀ c ∈ r.head?, isIdentifierChar c = false)
    (hr' : ∀ c ∈ r'.head?, isIdentifierChar c = false) (h : w ++ r = v ++ r') :
    w = v ∧ r = r' := by
  have heq : w = v := by
    rw [← takeWhile_append_of_stop hw hr, h, takeWhile_append_of_stop hv hr']
  subst heq
  exact ⟨rfl, List.append_cancel_left h⟩

/-- What can stand behind a type. -/
def EndsType (r : List Char) : Prop := ∀ c ∈ r.head?, c ∈ [',', '>', ';']

theorem EndsType.not_identifier {r : List Char} (h : EndsType r) :
    ∀ c ∈ r.head?, isIdentifierChar c = false := by
  intro c hc
  have hforall : ∀ d ∈ [',', '>', ';'], isIdentifierChar d = false := by
    simp [isIdentifierChar]
  exact hforall c (h c hc)

theorem item_text {t : ApiType} (h : IsItem IsEntryName t) :
    typeText t ≠ [] ∧ ∀ c ∈ typeText t, isIdentifierChar c = true := by
  cases h with
  | scalar s => cases s <;> exact isIdentifier_iff.mp rfl
  | named h => exact isIdentifier_iff.mp (isIdentifier_of_isTypeName h)

/-- Only a name begins with a capital. -/
theorem item_text_injective {t u : ApiType} (ht : IsItem IsEntryName t)
    (hu : IsItem IsEntryName u) (h : typeText t = typeText u) :
    printedOutline t = printedOutline u := by
  have hword : ∀ (s : Scalar) (n : String), IsEntryName n → (scalarWord s).toList ≠ n.toList := by
    intro s n hn hs
    obtain ⟨c, r, hcons, hupper⟩ := isUpper_head_of_isTypeName hn
    have hhead : ∀ d ∈ (scalarWord s).toList.head?, d.isUpper = false := by
      cases s <;> simp [scalarWord]
    rw [hs, hcons] at hhead
    simp [hhead c rfl] at hupper
  cases ht with
  | scalar s =>
    cases hu with
    | scalar s' => cases s <;> cases s' <;> first | rfl | exact absurd h (by decide)
    | named hn => exact absurd h (hword s _ hn)
  | named hn =>
    cases hu with
    | scalar s' => exact absurd h.symm (hword s' _ hn)
    | named hm =>
      rw [String.toList_inj.mp h]

/-- The members of a union after the first. -/
def furtherText (ms : List ApiType) : List Char := ms.flatMap fun m => " | ".toList ++ typeText m

theorem membersText_cons (m : ApiType) (ms : List ApiType) :
    membersText (m :: ms) = typeText m ++ furtherText ms := by
  induction ms generalizing m with
  | nil => exact (List.append_nil _).symm
  | cons n ms ih =>
    rw [membersText_cons_cons, ih, furtherText, furtherText, List.flatMap_cons, List.append_assoc,
      List.append_assoc]

theorem furtherText_not_identifier {ms : List ApiType} {r : List Char} (hr : EndsType r) :
    ∀ c ∈ (furtherText ms ++ r).head?, isIdentifierChar c = false := by
  cases ms with
  | nil => exact hr.not_identifier
  | cons m ms =>
    intro c hc
    obtain rfl : ' ' = c := Option.some.inj hc
    decide

theorem not_endsType_item {t : ApiType} (h : IsItem IsEntryName t) (s : List Char) :
    ¬ EndsType (typeText t ++ s) := by
  intro he
  obtain ⟨hne, hall⟩ := item_text h
  obtain ⟨c, u, hcons⟩ := List.exists_cons_of_ne_nil hne
  rw [hcons] at he hall
  have hc := he.not_identifier c rfl
  rw [hall c List.mem_cons_self] at hc
  exact absurd hc (by decide)

section Members

variable {ms ns : List ApiType} (hms : ∀ m ∈ ms, IsItem IsEntryName m)
  (hns : ∀ n ∈ ns, IsItem IsEntryName n) {r r' : List Char} (hr : EndsType r) (hr' : EndsType r')

include hms hns hr hr'

theorem furtherText_append_inj (h : furtherText ms ++ r = furtherText ns ++ r') :
    ms.map printedOutline = ns.map printedOutline ∧ r = r' := by
  induction ms generalizing ns with
  | nil =>
    cases ns with
    | nil => exact ⟨rfl, h⟩
    | cons n ns =>
      rw [show r = ' ' :: ([ '|', ' '] ++ typeText n ++ furtherText ns ++ r') from h] at hr
      exact absurd (hr ' ' rfl) (by decide)
  | cons m ms ih =>
    cases ns with
    | nil =>
      rw [show r' = ' ' :: ([ '|', ' '] ++ typeText m ++ furtherText ms ++ r) from h.symm] at hr'
      exact absurd (hr' _ rfl) (by decide)
    | cons n ns =>
      obtain ⟨hm, hms⟩ := List.forall_mem_cons.mp hms
      obtain ⟨hn, hns⟩ := List.forall_mem_cons.mp hns
      rw [furtherText, furtherText, List.flatMap_cons, List.flatMap_cons] at h
      simp only [List.append_assoc] at h
      obtain ⟨htext, hrest⟩ := identifier_append_inj (item_text hm).2 (item_text hn).2
        (furtherText_not_identifier hr) (furtherText_not_identifier hr')
        (List.append_cancel_left h)
      obtain ⟨hmap, htail⟩ := ih hms hns hrest
      exact ⟨by rw [List.map_cons, List.map_cons, hmap, item_text_injective hm hn htext], htail⟩

theorem membersText_append_inj (h : membersText ms ++ r = membersText ns ++ r') :
    ms.map printedOutline = ns.map printedOutline ∧ r = r' := by
  cases ms with
  | nil =>
    cases ns with
    | nil => exact ⟨rfl, h⟩
    | cons n ns =>
      rw [membersText_cons, List.append_assoc] at h
      have hn := not_endsType_item (hns n List.mem_cons_self) (furtherText ns ++ r')
      exact absurd (h ▸ hr) hn
  | cons m ms =>
    obtain ⟨hm, hms⟩ := List.forall_mem_cons.mp hms
    rw [membersText_cons, List.append_assoc] at h
    cases ns with
    | nil => exact absurd (h ▸ hr') (not_endsType_item hm (furtherText ms ++ r))
    | cons n ns =>
      obtain ⟨hn, hns⟩ := List.forall_mem_cons.mp hns
      rw [membersText_cons, List.append_assoc] at h
      obtain ⟨htext, hrest⟩ := identifier_append_inj (item_text hm).2 (item_text hn).2
        (furtherText_not_identifier hr) (furtherText_not_identifier hr') h
      obtain ⟨hmap, htail⟩ := furtherText_append_inj hms hns hr hr' hrest
      exact ⟨by rw [List.map_cons, List.map_cons, hmap, item_text_injective hm hn htext], htail⟩

end Members

theorem typeText_oneOf (ts : List ApiType) : typeText (oneOf ts) = membersText ts := by
  fun_cases oneOf ts with
  | case1 t => rfl
  | case2 ts h => rfl

theorem printedOutline_oneOf {ts us : List ApiType}
    (h : ts.map printedOutline = us.map printedOutline) :
    printedOutline (oneOf ts) = printedOutline (oneOf us) := by
  have hunion : ∀ vs : List ApiType,
      printedOutline (.union vs []) = .union (vs.map printedOutline) [] :=
    fun vs => congrArg (ApiType.union · []) (memberOutlines_eq_map asNumber (.any []) vs)
  have hlen : ts.length = us.length := by simpa using congrArg List.length h
  match ts, us, hlen with
  | [], [], _ => rfl
  | [t], [u], _ => exact (List.cons.inj h).1
  | t :: t' :: ts, u :: u' :: us, _ =>
    rw [show oneOf (t :: t' :: ts) = .union (t :: t' :: ts) [] from rfl,
      show oneOf (u :: u' :: us) = .union (u :: u' :: us) [] from rfl, hunion, hunion, h]

theorem typeText_array_append (t : ApiType) (r : List Char) :
    typeText (.array t []) ++ r = "Array".toList ++ '<' :: (typeText t ++ '>' :: r) := by
  rw [typeText_array]
  simp

/-- A word that looks like an array is followed by something else. -/
theorem typeText_array_ne_members {ts : List ApiType} (hts : ∀ u ∈ ts, IsItem IsEntryName u)
    (hne : ts ≠ []) {r r' : List Char} (hr : EndsType r) (t : ApiType) :
    membersText ts ++ r ≠ typeText (.array t []) ++ r' := by
  intro h
  obtain ⟨u, us, rfl⟩ := List.exists_cons_of_ne_nil hne
  rw [membersText_cons, List.append_assoc, typeText_array_append] at h
  have hword : ∀ c ∈ "Array".toList, isIdentifierChar c = true :=
    identifierChars_of_isIdentifier (by decide)
  obtain ⟨-, hrest⟩ := identifier_append_inj (item_text (hts u List.mem_cons_self)).2 hword
    (furtherText_not_identifier hr) (by simp [isIdentifierChar]) h
  cases us with
  | nil => exact absurd (hr '<' (by rw [show r = _ from hrest]; rfl)) (by decide)
  | cons v us => exact absurd (List.cons.inj hrest).1 (by decide)

/-- In front of whatever ends it, the text of a type determines the type. -/
theorem typeText_append_inj {t u : ApiType} (ht : IsCellType IsEntryName t)
    (hu : IsCellType IsEntryName u) {r r' : List Char} (hr : EndsType r) (hr' : EndsType r')
    (h : typeText t ++ r = typeText u ++ r') : printedOutline t = printedOutline u ∧ r = r' := by
  obtain ⟨n, ts, htne, hts, rfl⟩ := ht.exists_arraysOf
  obtain ⟨m, us, hune, hus, rfl⟩ := hu.exists_arraysOf
  clear ht hu
  induction n generalizing m r r' with
  | zero =>
    rw [arraysOf, typeText_oneOf] at h
    cases m with
    | zero =>
      rw [arraysOf, typeText_oneOf] at h
      obtain ⟨hmap, hrest⟩ := membersText_append_inj hts hus hr hr' h
      exact ⟨printedOutline_oneOf hmap, hrest⟩
    | succ m => exact absurd h (typeText_array_ne_members hts htne hr _)
  | succ n ih =>
    cases m with
    | zero =>
      rw [arraysOf, arraysOf, typeText_oneOf] at h
      exact absurd h.symm (typeText_array_ne_members hus hune hr' _)
    | succ m =>
      rw [arraysOf, arraysOf, typeText_array_append, typeText_array_append] at h
      have hinner := (List.cons.inj (List.append_cancel_left h)).2
      have hends : ∀ s, EndsType ('>' :: s) := fun s c hc => by
        obtain rfl := Option.some.inj hc
        decide
      obtain ⟨hout, hrest⟩ := ih (hends r) (hends r') m hinner
      exact ⟨congrArg (ApiType.array · []) hout, (List.cons.inj hrest).2⟩

/-- What a table can say about a property. -/
def IsPrintedProperty (p : Property) : Prop :=
  isIdentifier p.name.toList = true ∧ IsCellType IsEntryName p.type

theorem propertyLine_injective {p q : Property} (hp : IsPrintedProperty p)
    (hq : IsPrintedProperty q) (h : propertyLine p = propertyLine q) :
    propertyOutline asNumber (.any []) p = propertyOutline asNumber (.any []) q := by
  have hcolon : ∀ (o : Bool) (s : List Char),
      ∀ c ∈ ((if o then "?: " else ": ").toList ++ s).head?, isIdentifierChar c = false := by
    intro o s c hc
    cases o
    · obtain rfl : ':' = c := Option.some.inj hc
      decide
    · obtain rfl : '?' = c := Option.some.inj hc
      decide
  rw [propertyLine, propertyLine] at h
  simp only [List.append_assoc] at h
  obtain ⟨hname, hrest⟩ := identifier_append_inj (isIdentifier_iff.mp hp.1).2
    (isIdentifier_iff.mp hq.1).2 (hcolon p.optional _) (hcolon q.optional _) h
  have hoptional : p.optional = q.optional ∧
      typeText p.type ++ ",".toList = typeText q.type ++ ",".toList := by
    cases ho : p.optional <;> cases ho' : q.optional
    all_goals rw [ho, ho'] at hrest
    · exact ⟨rfl, List.append_cancel_left hrest⟩
    · exact absurd (List.cons.inj hrest).1 (by decide)
    · exact absurd (List.cons.inj hrest).1 (by decide)
    · exact ⟨rfl, List.append_cancel_left hrest⟩
  have hcomma : EndsType ",".toList := fun c hc => by
    obtain rfl : ',' = c := Option.some.inj hc
    decide
  have htype := (typeText_append_inj hp.2 hq.2 hcomma hcomma hoptional.2).1
  rw [propertyOutline, propertyOutline, String.toList_inj.mp hname, hoptional.1]
  exact congrArg (fun t => Property.mk _ t _ none) htype

theorem closing_ne_propertyLine {p : Property} (hp : IsPrintedProperty p) (s : List Char) :
    "\x7d".toList ++ s ≠ propertyLine p := by
  intro h
  obtain ⟨hne, hall⟩ := isIdentifier_iff.mp hp.1
  obtain ⟨c, t, hcons⟩ := List.exists_cons_of_ne_nil hne
  rw [propertyLine, hcons] at h
  obtain rfl : '\x7d' = c := (List.cons.inj h).1
  exact absurd (hall '\x7d' (by simp [hcons])) (by decide)

/-- The lines of properties determine them, up to the line that closes the record. -/
theorem propertyLines_append_inj {ps qs : List Property} (hps : ∀ p ∈ ps, IsPrintedProperty p)
    (hqs : ∀ q ∈ qs, IsPrintedProperty q) {tail : List Char} {ls ms : List (List Char)}
    (h : ps.map propertyLine ++ ("\x7d".toList ++ tail) :: ls =
      qs.map propertyLine ++ ("\x7d".toList ++ tail) :: ms) :
    ps.map (propertyOutline asNumber (.any [])) = qs.map (propertyOutline asNumber (.any [])) ∧
      ls = ms := by
  induction ps generalizing qs with
  | nil =>
    cases qs with
    | nil => exact ⟨rfl, (List.cons.inj h).2⟩
    | cons q qs =>
      exact absurd (List.cons.inj h).1 (closing_ne_propertyLine (hqs q List.mem_cons_self) tail)
  | cons p ps ih =>
    obtain ⟨hp, hps⟩ := List.forall_mem_cons.mp hps
    cases qs with
    | nil => exact absurd (List.cons.inj h).1.symm (closing_ne_propertyLine hp tail)
    | cons q qs =>
      obtain ⟨hq, hqs⟩ := List.forall_mem_cons.mp hqs
      obtain ⟨hline, hrest⟩ := List.cons.inj h
      obtain ⟨hmap, htail⟩ := ih hps hqs hrest
      exact ⟨by rw [List.map_cons, List.map_cons, hmap, propertyLine_injective hp hq hline], htail⟩

theorem records_append_inj {tail : List Char} {ps qs : List Property}
    (hps : ∀ p ∈ ps, IsPrintedProperty p) (hqs : ∀ q ∈ qs, IsPrintedProperty q)
    {cs ds : List DocComment}
    (hopen : opening tail (.record ps cs) = opening tail (.record qs ds))
    {ls ms : List (List Char)}
    (h : following tail (.record ps cs) ++ ls = following tail (.record qs ds) ++ ms) :
    SaysTheSame (.record ps cs) (.record qs ds) ∧ ls = ms := by
  cases ps with
  | nil =>
    cases qs with
    | nil => exact ⟨.record rfl cs ds, h⟩
    | cons q qs => exact absurd (List.cons.inj hopen).2 (by simp)
  | cons p ps =>
    cases qs with
    | nil => exact absurd (List.cons.inj hopen).2.symm (by simp)
    | cons q qs =>
      rw [following, following, List.append_assoc, List.append_assoc] at h
      obtain ⟨hmap, hrest⟩ := propertyLines_append_inj hps hqs h
      exact ⟨.record hmap cs ds, hrest⟩

section Frame

variable {n n' : String} (hn : IsEntryName n) (hn' : IsEntryName n')

include hn hn'

theorem named_append_inj (a : String) {z : String}
    (hz : ∃ c ∈ z.toList.head?, isIdentifierChar c = false) {b b' : List Char}
    (h : (a ++ n ++ z).toList ++ b = (a ++ n' ++ z).toList ++ b') : n = n' ∧ b = b' := by
  have hstop : ∀ s : List Char, ∀ c ∈ (z.toList ++ s).head?, isIdentifierChar c = false := by
    intro s c hc
    obtain ⟨e, he, hout⟩ := hz
    rw [List.head?_append, Option.mem_def.mp he] at hc
    obtain rfl := Option.some.inj hc
    exact hout
  simp only [String.toList_append, List.append_assoc] at h
  obtain ⟨hname, hrest⟩ := identifier_append_inj
    (isIdentifier_iff.mp (isIdentifier_of_isTypeName hn)).2
    (isIdentifier_iff.mp (isIdentifier_of_isTypeName hn')).2 (hstop b) (hstop b')
    (List.append_cancel_left h)
  exact ⟨String.toList_inj.mp hname, List.append_cancel_left hrest⟩

/-- What stands before the type of an entry determines its name and what stands behind. -/
theorem frame_append_inj (d : Dialect) {t t' : ApiType} {b b' : List Char}
    (h : (d.frame n t).head.toList ++ b = (d.frame n' t').head.toList ++ b') :
    n = n' ∧ b = b' ∧ (d.frame n t).tail = (d.frame n' t').tail := by
  have hblank : ∃ c ∈ " ".toList.head?, isIdentifierChar c = false := ⟨' ', rfl, by decide⟩
  have hequals : ∃ c ∈ " = ".toList.head?, isIdentifierChar c = false := ⟨' ', rfl, by decide⟩
  have hkind : ∀ s s' : List Char,
      "export interface ".toList ++ s ≠ "export type ".toList ++ s' := by
    intro s s' hs
    have hinterface : "export interface ".toList = "export ".toList ++ "interface ".toList := by
      decide
    have htype : "export type ".toList = "export ".toList ++ "type ".toList := by decide
    rw [hinterface, htype, List.append_assoc, List.append_assoc] at hs
    exact absurd (List.cons.inj (List.append_cancel_left hs)).1 (by decide)
  cases d with
  | typeScript =>
    rw [frame_typeScript, frame_typeScript] at h ⊢
    cases ht : t.isRecord <;> cases ht' : t'.isRecord
    all_goals rw [ht, ht'] at h
    · obtain ⟨hname, hbody⟩ := named_append_inj hn hn' _ hequals h
      exact ⟨hname, hbody, rfl⟩
    · simp only [if_true, Bool.false_eq_true, if_false, String.toList_append,
        List.append_assoc] at h
      exact absurd h.symm (hkind _ _)
    · simp only [if_true, Bool.false_eq_true, if_false, String.toList_append,
        List.append_assoc] at h
      exact absurd h (hkind _ _)
    · obtain ⟨hname, hbody⟩ := named_append_inj hn hn' _ hblank h
      exact ⟨hname, hbody, rfl⟩
  | flow m =>
    rw [frame_flow, frame_flow] at h ⊢
    obtain ⟨hname, hbody⟩ := named_append_inj hn hn' _ hequals h
    exact ⟨hname, hbody, rfl⟩

end Frame

section Body

variable {tail : List Char} (htail : EndsType tail)

include htail

/-- The text of a union of names begins with a capital, or there is none. -/
theorem opening_union_head {ms : List ApiType}
    (h : ∀ m ∈ ms, ∃ n, IsEntryName n ∧ m = .named n []) (cs : List DocComment) :
    ∀ c ∈ (opening tail (.union ms cs)).head?, c ≠ 'a' ∧ c ≠ '\x7b' := by
  have hends : ∀ c ∈ [',', '>', ';'], c ≠ 'a' ∧ c ≠ '\x7b' := by simp
  intro c hc
  cases ms with
  | nil => exact hends c (htail c hc)
  | cons m ms =>
    obtain ⟨n, hn, rfl⟩ := h m List.mem_cons_self
    obtain ⟨d, u, hcons, hupper⟩ := isUpper_head_of_isTypeName hn
    have htext : opening tail (.union (.named n [] :: ms) cs) =
        n.toList ++ (furtherText ms ++ tail) := by
      rw [opening, typeText_union, membersText_cons, List.append_assoc]
      · rfl
      · simp
    rw [htext, hcons] at hc
    obtain rfl : d = c := Option.some.inj hc
    constructor <;> (rintro rfl; exact absurd hupper (by decide))

/-- The lines of an entry behind its head determine its type. -/
theorem body_append_inj {t t' : ApiType} (ht : IsEntryType IsEntryName t)
    (ht' : IsEntryType IsEntryName t') (hopen : opening tail t = opening tail t')
    {ls ms : List (List Char)} (h : following tail t ++ ls = following tail t' ++ ms) :
    SaysTheSame t t' ∧ ls = ms := by
  -- The first character tells the kinds apart.
  have hany : ∀ cs, (opening tail (.any cs)).head? = some 'a' := fun cs => rfl
  have hrecord : ∀ ps cs, (opening tail (.record ps cs)).head? = some '\x7b' := by
    intro ps cs
    cases ps <;> rfl
  have hhead := congrArg List.head? hopen
  cases ht with
  | any cs =>
    cases ht' with
    | any ds => exact ⟨.any cs ds, h⟩
    | union hns ds => exact absurd rfl (opening_union_head htail hns ds 'a' hhead.symm).1
    | @record qs hqs ds =>
      rw [hany, hrecord] at hhead
      exact absurd hhead (by decide)
  | @union ns hns cs =>
    cases ht' with
    | any ds => exact absurd rfl (opening_union_head htail hns cs 'a' hhead).1
    | @union ns' hns' ds =>
      have hmap := (membersText_append_inj (forall_isItem_of_names hns)
        (forall_isItem_of_names hns') htail htail hopen).1
      exact ⟨.union hmap cs ds, h⟩
    | @record qs hqs ds =>
      rw [hrecord] at hhead
      exact absurd rfl (opening_union_head htail hns cs '\x7b' hhead).2
  | @record ps hps cs =>
    rw [hrecord] at hhead
    cases ht' with
    | any ds => exact absurd hhead (by rw [hany]; decide)
    | union hns ds => exact absurd rfl (opening_union_head htail hns ds '\x7b' hhead.symm).2
    | record hqs ds => exact records_append_inj hps hqs hopen h

end Body

theorem endsType_frame (d : Dialect) (name : String) (t : ApiType) :
    EndsType (d.frame name t).tail.toList := by
  have hends : ∀ s ∈ ["", ";"], EndsType s.toList := by
    simp [EndsType]
  refine hends _ ?_
  cases d with
  | typeScript =>
    rw [frame_typeScript]
    split <;> simp
  | flow m => simp [frame_flow]

/-- An entry of a closed schema that was read from a page. -/
def IsPrintedEntry (e : String × ApiType) : Prop :=
  IsEntryName e.1 ∧ IsEntryType IsEntryName e.2

theorem entryLines_append_inj (d : Dialect) {e e' : String × ApiType} (he : IsPrintedEntry e)
    (he' : IsPrintedEntry e') {ls ms : List (List Char)}
    (h : entryLines d e.1 e.2 ++ ls = entryLines d e'.1 e'.2 ++ ms) :
    (e.1 = e'.1 ∧ SaysTheSame e.2 e'.2) ∧ ls = ms := by
  obtain ⟨hfirst, hrest⟩ := List.cons.inj h
  obtain ⟨hname, hopen, htail⟩ := frame_append_inj he.1 he'.1 d hfirst
  rw [← htail] at hopen hrest
  obtain ⟨hsame, hls⟩ := body_append_inj (endsType_frame d e.1 e.2) he.2 he'.2 hopen hrest
  exact ⟨⟨hname, hsame⟩, hls⟩

theorem entryLines_ne_tailLines (d : Dialect) (e : String × ApiType) (ls : List (List Char)) :
    entryLines d e.1 e.2 ++ ls ≠ tailLines d := by
  intro h
  cases d with
  | typeScript => exact absurd h (List.cons_ne_nil _ _)
  | flow m =>
    have hfirst := (List.cons.inj h).1
    rw [frame_flow] at hfirst
    simp only [String.toList_append, List.append_assoc] at hfirst
    exact absurd (List.cons.inj hfirst).1 (by decide)

theorem entries_append_inj (d : Dialect) {es fs : List (String × ApiType)}
    (hes : ∀ e ∈ es, IsPrintedEntry e) (hfs : ∀ f ∈ fs, IsPrintedEntry f)
    (h : es.flatMap (fun e => entryLines d e.1 e.2) ++ tailLines d =
      fs.flatMap (fun f => entryLines d f.1 f.2) ++ tailLines d) :
    List.Forall₂ (fun e f => e.1 = f.1 ∧ SaysTheSame e.2 f.2) es fs := by
  induction es generalizing fs with
  | nil =>
    cases fs with
    | nil => exact .nil
    | cons f fs =>
      rw [List.flatMap_cons, List.append_assoc] at h
      exact absurd h.symm (entryLines_ne_tailLines d f _)
  | cons e es ih =>
    obtain ⟨he, hes⟩ := List.forall_mem_cons.mp hes
    rw [List.flatMap_cons, List.append_assoc] at h
    cases fs with
    | nil => exact absurd h (entryLines_ne_tailLines d e _)
    | cons f fs =>
      obtain ⟨hf, hfs⟩ := List.forall_mem_cons.mp hfs
      rw [List.flatMap_cons, List.append_assoc] at h
      obtain ⟨hsame, hrest⟩ := entryLines_append_inj d he hf h
      exact .cons hsame (ih hes hfs hrest)

theorem isPrintedEntry_of_readSchema {page : List Markup.Node} {s : Schema}
    (hs : Page.readSchema page = .ok s) : ∀ e ∈ s.entries, IsPrintedEntry e := by
  intro e he
  obtain ⟨hname, htype⟩ := Page.isEntryType_of_readSchema hs he
  exact ⟨hname, htype.imp fun n _ hn => Page.isTypeName_of_mem_names hs hn⟩

/-- The code of a schema that was read from a page is the lines of its entries. -/
theorem trimmed_codeLines_of_readSchema {d : Dialect} (hd : OpensNoComment d) {layout : Layout}
    (hindent : ∀ c ∈ layout.indent.toList, isBlank c = true) {page : List Markup.Node}
    {s : Schema} (hs : Page.readSchema page = .ok s) :
    (codeLines (print d layout s)).map trimStart = schemaLines d s := by
  have hknown : ∀ n, IsEntryName n → IsNameText n :=
    fun n hn => isNameText_of_isIdentifier (isIdentifier_of_isTypeName hn)
  refine trimmed_codeLines_print hd hindent hknown fun e he => ?_
  obtain ⟨hname, htype⟩ := isPrintedEntry_of_readSchema hs e he
  exact ⟨hknown e.1 hname, htype⟩

/-- Schemas that were read from pages and print as the same text have the same names in order,
and under each name both are unknown, unions of the same members or records of the same
properties. The layouts may even differ. -/
theorem print_determines_schema {d : Dialect} (hd : OpensNoComment d) {layout layout' : Layout}
    (hindent : ∀ c ∈ layout.indent.toList, isBlank c = true)
    (hindent' : ∀ c ∈ layout'.indent.toList, isBlank c = true) {page page' : List Markup.Node}
    {s t : Schema} (hs : Page.readSchema page = .ok s) (ht : Page.readSchema page' = .ok t)
    (h : print d layout s = print d layout' t) :
    List.Forall₂ (fun e f => e.1 = f.1 ∧ SaysTheSame e.2 f.2) s.entries t.entries := by
  have hlines : schemaLines d s = schemaLines d t := by
    rw [← trimmed_codeLines_of_readSchema hd hindent hs, h,
      trimmed_codeLines_of_readSchema hd hindent' ht]
  rw [schemaLines, schemaLines, List.append_assoc, List.append_assoc] at hlines
  exact entries_append_inj d (isPrintedEntry_of_readSchema hs) (isPrintedEntry_of_readSchema ht)
    (List.append_cancel_left hlines)

theorem print_determines_schema_events :
    OpensNoComment (.flow "bot") ∧ (∀ c ∈ ({} : Layout).indent.toList, isBlank c = true) ∧
      Page.readSchema (Page.eventsPage .integer) = .ok (.ofList (Page.eventsEntries .integer)) ∧
      Page.readSchema (Page.eventsPage .float) = .ok (.ofList (Page.eventsEntries .float)) ∧
      print (.flow "bot") {} (.ofList (Page.eventsEntries .integer)) =
        print (.flow "bot") {} (.ofList (Page.eventsEntries .float)) ∧
      List.Forall₂ (fun e f => e.1 = f.1 ∧ SaysTheSame e.2 f.2)
        (Schema.ofList (Page.eventsEntries .integer)).entries
        (Schema.ofList (Page.eventsEntries .float)).entries := by
  have hmodule : OpensNoComment (.flow "bot") := by unfold OpensNoComment; decide
  have hindent : ∀ c ∈ ({} : Layout).indent.toList, isBlank c = true :=
    List.all_eq_true.mp (by decide)
  have hprint : print (.flow "bot") {} (.ofList (Page.eventsEntries .integer)) =
      print (.flow "bot") {} (.ofList (Page.eventsEntries .float)) := by
    rw [print, print, Schema.entries_ofList (Page.references_events .integer).1,
      Schema.entries_ofList (Page.references_events .float).1]
    simp only [Page.eventsEntries, Page.eventsProperty, writeEntries, writeEntry, writeType,
      writeMembers, writeProperties, frame_flow, scalarWord, ApiType.comments]
  exact ⟨hmodule, hindent, Page.readSchema_events .integer, Page.readSchema_events .float, hprint,
    print_determines_schema hmodule hindent hindent (Page.readSchema_events .integer)
      (Page.readSchema_events .float) hprint⟩

end ApiTypings.Printing
