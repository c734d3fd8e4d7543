import ApiTypings.Session.Disk
import ApiTypings.Proofs.Page.Traversal
import ApiTypings.Proofs.Text.Pieces
import Mathlib.Data.List.TakeWhile

/-!
# Where paths lead

A path that can be followed leads to the place that its text tells. This is where a file is
written or a folder made.
-/
namespace ApiTypings.Session

open Page (bind_eq_ok)
open Text.Utf8 (Bytes)

theorem Path.exists_mem_steps {s : String} {c : Char} (hc : c ∈ s.toList) (hslash : c ≠ '/') :
    ∃ step ∈ (Path.ofString s).steps, c ∈ step.toList := by
  have hpieces : ∀ {cs : List Char}, c ∈ cs → ∃ step ∈ ofString.split cs, c ∈ step.toList := by
    intro cs hmem
    obtain ⟨piece, hpiece, hcp⟩ : ∃ piece ∈ Text.pieces (· == '/') cs, c ∈ piece :=
      Text.exists_mem_pieces hmem (by simpa using hslash)
    exact ⟨_, List.mem_map_of_mem hpiece, by simpa using hcp⟩
  unfold ofString
  split
  next hs => simp [hs] at hc
  next cs hs =>
    rw [hs] at hc
    exact hpieces ((List.mem_cons.mp hc).resolve_left hslash)
  next => exact hpieces hc

namespace Disk

variable {d d' : Disk} {p : Path}

/-- Where a path leads if all its steps can be taken. -/
def place (d : Disk) (p : Path) : Except Fault Place := do
  p.steps.foldlM move (← d.start p)

/-- Two paths lead to the same place. -/
def Meet (d : Disk) (p q : Path) : Prop := ∃ place, d.place p = .ok place ∧ d.place q = .ok place

theorem place_congr (h : d'.workingFolder = d.workingFolder) : d'.place p = d.place p := by
  simp only [place, start, h]

theorem Meet.congr {q : Path} (h : d'.workingFolder = d.workingFolder) :
    d'.Meet p q ↔ d.Meet p q := by
  simp only [Meet, place_congr h]

/-- A path that holds a null character leads nowhere. -/
theorem not_null_of_place {s : String} {place : Place} (h : d.place (.ofString s) = .ok place) :
    '\x00' ∉ s.toList := by
  intro hnull
  obtain ⟨step, hstep, hin⟩ := Path.exists_mem_steps hnull (by decide)
  obtain ⟨start, hstart, -⟩ := bind_eq_ok.mp h
  have hany : (Path.ofString s).steps.any (fun s => s.toList.contains '\x00') = true :=
    List.any_eq_true.mpr ⟨step, hstep, by simpa using hin⟩
  rw [Disk.start, hany] at hstart
  cases hstart

theorem foldlM_move_of_walk {start place : Place} {steps : List String}
    (h : d.walk start steps = .ok place) : steps.foldlM move start = .ok place := by
  induction steps generalizing start with
  | nil => exact h
  | cons step steps ih =>
    rw [walk, List.foldlM_cons] at h
    obtain ⟨next, hnext, hrest⟩ := bind_eq_ok.mp h
    obtain ⟨_, -, hmove⟩ := bind_eq_ok.mp hnext
    rw [List.foldlM_cons, hmove]
    exact ih hrest

end Disk

end ApiTypings.Session
