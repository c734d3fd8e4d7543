import ApiTypings.Proofs.Declaration.SourceLines
import ApiTypings.Proofs.Page.CellLanguage
import ApiTypings.Proofs.Text.Decoding
import ApiTypings.Session.SyntaxCheck

/-!
# Diagnostics in a report of bytes

What the syntax checker reports is bytes of any kind. The diagnostics are its lines with the mark of
an error, each decoded alone, and nothing that cannot be decoded touches them. No diagnostics means
that the checker was started, succeeded and marked no line.
-/
namespace ApiTypings.Session

open Declaration (exists_lines withoutReturn isInfix_withoutReturn)
open Text
open Text.Utf8 (Bytes decodeLossy plain infix_decodeLossy_iff pieces_decodeLossy)

def errorBytes : Bytes := Text.Utf8.encode "error TS"

/-- The lines of bytes in which an error is named. -/
def markedLines (output : Bytes) : List Bytes :=
  (output.splitOn 0x0A).filter (fun l => decide (errorBytes <:+: l))

/-- The text of bytes without blanks around it. -/
def trimmedText (bs : Bytes) : String := String.ofList (trim (decodeLossy bs))

/-! ### Lines of text -/

theorem trim_withoutReturn (l : List Char) : trim (withoutReturn l) = trim l := by
  unfold withoutReturn
  split
  · next h =>
    obtain ⟨u, rfl⟩ := List.getLast?_eq_some_iff.mp h
    rw [List.dropLast_concat]
    have hblank : Page.AllBlank ['\r'] := List.forall_mem_singleton.mpr (by decide)
    exact (@Page.trim_append [] ['\r'] (fun c hc => by cases hc) hblank u).symm
  · rfl

/-- The mark does not end in a carriage return. -/
theorem occursIn_withoutReturn (l : List Char) :
    occursIn errorMark (withoutReturn l) = occursIn errorMark l := by
  rw [Bool.eq_iff_iff, occursIn_iff_infix, occursIn_iff_infix]
  refine ⟨fun h => h.trans (isInfix_withoutReturn l), fun h => ?_⟩
  unfold withoutReturn
  split
  · next hreturn =>
    obtain ⟨u, rfl⟩ := List.getLast?_eq_some_iff.mp hreturn
    rw [List.dropLast_concat]
    refine (List.infix_concat_iff.mp h).resolve_left fun hsuffix => ?_
    have hmark : '\r' ∉ errorMark := by decide
    rcases List.suffix_concat_iff.mp hsuffix with hnil | ⟨t, hend, -⟩
    · exact absurd hnil (by decide)
    · exact hmark (by rw [hend]; simp)
  · exact h

/-- A last line that is empty, and carriage returns at the end of lines, make no difference. -/
theorem diagnostics_eq (s : List Char) :
    diagnostics s = ((pieces (· == '\n') s).filter (occursIn errorMark)).map
      (fun l => String.ofList (trim l)) := by
  obtain ⟨ls, last, hlines, hcut⟩ := exists_lines s
  have hpieces : pieces (· == '\n') s = ls ++ [last] := hlines
  have hsame : occursIn errorMark ∘ withoutReturn = occursIn errorMark :=
    funext occursIn_withoutReturn
  have hshown : (fun l => String.ofList (trim l)) ∘ withoutReturn =
      fun l => String.ofList (trim l) :=
    funext fun l => congrArg String.ofList (trim_withoutReturn l)
  have hlast : (if last.isEmpty then [] else [last]).filter (occursIn errorMark) =
      [last].filter (occursIn errorMark) := by
    split
    · next hempty =>
      rw [List.isEmpty_iff.mp hempty]
      decide
    · rfl
  rw [diagnostics, hcut, hpieces, List.filter_append, List.filter_append, hlast, List.filter_map,
    hsame, List.map_append, List.map_append, List.map_map, hshown]

/-! ### Lines of bytes -/

theorem occursIn_decodeLossy (l : Bytes) :
    occursIn errorMark (decodeLossy l) = decide (errorBytes <:+: l) := by
  have hmark : errorMark = errorBytes.map plain := by decide
  rw [Bool.eq_iff_iff, occursIn_iff_infix, hmark, infix_decodeLossy_iff (by decide +kernel),
    decide_eq_true_iff]

/-- Each line with the mark is a diagnostic. -/
theorem diagnostics_decodeLossy (output : Bytes) :
    diagnostics (decodeLossy output) = (markedLines output).map trimmedText := by
  have hsame : occursIn errorMark ∘ decodeLossy = fun l => decide (errorBytes <:+: l) :=
    funext occursIn_decodeLossy
  rw [diagnostics_eq, pieces_decodeLossy, List.filter_map, hsame, List.map_map]
  rfl

theorem markedLines_eq_nil_iff {output : Bytes} :
    markedLines output = [] ↔ ∀ l ∈ output.splitOn 0x0A, ¬errorBytes <:+: l := by
  simp [markedLines, List.filter_eq_nil_iff]

theorem judge_eq (r : Report) : judge r =
    if markedLines r.output = [] ∧ r.status ≠ 0 then .error (.checker (trimmedText r.errors))
    else .ok ((markedLines r.output).map trimmedText) := by
  rw [judge, diagnostics_decodeLossy]
  simp [trimmedText]

/-! ### The verdict -/

theorem judge_eq_error_iff {r : Report} {e : Failure} : judge r = .error e ↔
    r.status ≠ 0 ∧ markedLines r.output = [] ∧ e = .checker (trimmedText r.errors) := by
  rw [judge_eq]
  split
  · next h => simp [h, eq_comm]
  · next h =>
    exact ⟨fun hok => (nomatch hok), fun ⟨hstatus, hmarked, _⟩ => absurd ⟨hmarked, hstatus⟩ h⟩

theorem judge_eq_ok_iff {r : Report} {found : List String} : judge r = .ok found ↔
    (r.status = 0 ∨ markedLines r.output ≠ []) ∧
      found = (markedLines r.output).map trimmedText := by
  rw [judge_eq]
  split
  · next h =>
    exact ⟨fun hfault => (nomatch hfault),
      fun ⟨hfound, _⟩ => (hfound.elim h.2 fun hsome => hsome h.1).elim⟩
  · next h =>
    have hfound : r.status = 0 ∨ markedLines r.output ≠ [] := by
      by_cases hstatus : r.status = 0
      · exact .inl hstatus
      · exact .inr fun hmarked => h ⟨hmarked, hstatus⟩
    rw [Except.ok.injEq, eq_comm (a := found)]
    exact ⟨fun heq => ⟨hfound, heq⟩, fun ⟨_, heq⟩ => heq⟩

/-- A check is clean exactly when the checker was started, succeeded and marked no line. It fails
exactly when it was not started, or failed and marked none. In all other cases every marked line is
a diagnostic: the text of that line alone. -/
theorem judgeLaunch_diagnoses (outcome : Except LaunchFault Report) :
    (judgeLaunch outcome = .ok [] ↔ ∃ r, outcome = .ok r ∧ r.status = 0 ∧
      ∀ l ∈ r.output.splitOn 0x0A, ¬errorBytes <:+: l) ∧
    (∀ e, judgeLaunch outcome = .error e ↔
      (∃ fault, outcome = .error fault ∧ e = .checker (checkerName ++ ": " ++ fault.message)) ∨
      ∃ r, outcome = .ok r ∧ r.status ≠ 0 ∧
        (∀ l ∈ r.output.splitOn 0x0A, ¬errorBytes <:+: l) ∧
        e = .checker (trimmedText r.errors)) ∧
    ∀ found, judgeLaunch outcome = .ok found ↔ ∃ r, outcome = .ok r ∧
      (r.status = 0 ∨ ∃ l ∈ r.output.splitOn 0x0A, errorBytes <:+: l) ∧
      found = ((r.output.splitOn 0x0A).filter (fun l => decide (errorBytes <:+: l))).map
        (fun l => String.ofList (trim (decodeLossy l))) := by
  cases outcome with
  | error fault => simp [judgeLaunch, eq_comm]
  | ok r =>
    have hsome : markedLines r.output ≠ [] ↔ ∃ l ∈ r.output.splitOn 0x0A, errorBytes <:+: l := by
      rw [Ne, markedLines_eq_nil_iff]
      simp
    refine ⟨?_, fun e => ?_, fun found => ?_⟩
    · rw [judgeLaunch, judge_eq_ok_iff, eq_comm (a := []), List.map_eq_nil_iff]
      simp only [Except.ok.injEq, exists_eq_left', ← markedLines_eq_nil_iff]
      exact ⟨fun ⟨h, hnone⟩ => ⟨h.resolve_right fun hne => hne hnone, hnone⟩,
        fun ⟨h, hnone⟩ => ⟨.inl h, hnone⟩⟩
    · rw [judgeLaunch, judge_eq_error_iff, markedLines_eq_nil_iff]
      simp
    · rw [judgeLaunch, judge_eq_ok_iff, hsome]
      simp only [Except.ok.injEq, exists_eq_left']
      rfl

/-- A broken sequence in front of the end of a line stays in its line. -/
example : judgeLaunch (.ok ⟨[0xE2, 0x82, 0x0A] ++ errorBytes ++ [0x31, 0xF0], [], 2⟩) =
    .ok [String.ofList ("error TS1".toList ++ ['\uFFFD'])] := by
  decide +kernel

end ApiTypings.Session
