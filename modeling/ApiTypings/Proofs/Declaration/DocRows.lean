import ApiTypings.Proofs.Declaration.SourceText
import ApiTypings.Proofs.Text.Wrap

/-!
# What lines of documentation carry

The lines of documentation are rows of text and rows of links. The rows of text carry the words of
comments in order, and they still do when rows of links are cut into lines and when carriage returns
at the end of rows are left out.
-/
namespace ApiTypings.Declaration

open Text
open Printing (outputLines)

/-- A line of documentation behind its sign, with text or with a part of a link. -/
inductive DocRow where
  | text (s : List Char)
  | link (s : List Char)

namespace DocRow

def shown : DocRow → List Char
  | text s | link s => s

/-- The words of documentation that a row shows. -/
def words : DocRow → List (List Char)
  | text s => Text.words s
  | link _ => []

def withoutReturn : DocRow → DocRow
  | text s => text (Declaration.withoutReturn s)
  | link s => link (Declaration.withoutReturn s)

/-- The line of a row at the margin of the text. -/
def line (r : DocRow) : List Char := "/// ".toList ++ r.shown

/-- The rows into which a row is cut when its lines are written one by one. -/
def pieces : DocRow → List DocRow
  | text s => [text s]
  | link s => (outputLines s).map link

end DocRow

/-- The words of comments, in order. -/
def wordsOf (cs : List DocComment) : List (List Char) := cs.flatMap (fun c => words c.text.toList)

/-- Whether rows carry the words of comments, with nothing between them but parts of links. -/
structure Carries (cs : List DocComment) (rows : List DocRow) : Prop where
  words : rows.flatMap DocRow.words = wordsOf cs
  links : ∀ s, .link s ∈ rows →
    ∃ c ∈ cs, ∃ target ∈ Page.links c, s <:+: ("See " ++ target).toList

/-! ### Rows as they are made -/

theorem words_withoutReturn (s : List Char) : words (withoutReturn s) = words s := by
  unfold withoutReturn
  split
  · next h =>
    obtain ⟨u, rfl⟩ := List.getLast?_eq_some_iff.mp h
    rw [List.dropLast_concat, words, words, pieces_append_cons (by decide), List.filter_append]
    exact (List.append_nil _).symm
  · rfl

namespace DocRow

theorem words_withoutReturn (r : DocRow) : r.withoutReturn.words = r.words := by
  cases r with
  | text s => exact Declaration.words_withoutReturn s
  | link s => rfl

theorem words_pieces (r : DocRow) : r.pieces.flatMap DocRow.words = r.words := by
  cases r with
  | text s => exact List.flatMap_singleton ..
  | link s =>
    rw [pieces, List.flatMap_map]
    exact List.flatMap_eq_nil_iff.mpr fun _ _ => rfl

end DocRow

namespace Carries

variable {cs : List DocComment} {rows rest : List DocRow}

theorem pieces (h : Carries cs rows) : Carries cs (rows.flatMap DocRow.pieces) := by
  constructor
  · rw [List.flatMap_assoc, ← h.words]
    exact List.flatMap_congr fun r _ => r.words_pieces
  · intro s hs
    obtain ⟨r, hr, hs⟩ := List.mem_flatMap.mp hs
    cases r with
    | text t => cases List.mem_singleton.mp hs
    | link t =>
      obtain ⟨l, hl, hrow⟩ := List.mem_map.mp hs
      cases hrow
      obtain ⟨c, hc, target, htarget, hinfix⟩ := h.links t hr
      exact ⟨c, hc, target, htarget, (isInfix_of_mem_pieces hl).trans hinfix⟩

/-- Carriage returns at the end of rows do not count, nor does a last row without words. -/
theorem withoutReturns {last : List DocRow} (h : Carries cs (rows ++ rest)) (hlast : last ⊆ rest)
    (hwords : last.flatMap DocRow.words = rest.flatMap DocRow.words) :
    Carries cs (rows.map DocRow.withoutReturn ++ last) := by
  constructor
  · rw [List.flatMap_append, List.flatMap_map, hwords, ← h.words, List.flatMap_append]
    exact congrArg (· ++ _) (List.flatMap_congr fun r _ => r.words_withoutReturn)
  · intro s hs
    rcases List.mem_append.mp hs with hs | hs
    · obtain ⟨r, hr, hrow⟩ := List.mem_map.mp hs
      cases r with
      | text t => cases hrow
      | link t =>
        cases hrow
        obtain ⟨c, hc, target, htarget, hinfix⟩ := h.links t (List.mem_append_left rest hr)
        exact ⟨c, hc, target, htarget, (isInfix_withoutReturn t).trans hinfix⟩
    · exact h.links s (List.mem_append_right rows (hlast hs))

end Carries

end ApiTypings.Declaration
