import ApiTypings.Proofs.Session.Changes
import ApiTypings.Proofs.Session.Stages

/-!
# Delivering the outputs

The targets are written one after the other. Up to the first fault every one of them is in
its file, unless a later one went to the same file, and nothing else has changed but for
folders that were made around the targets.
-/
namespace ApiTypings.Session

open Disk (Changes)
open Settings (Target)
open Text.Utf8 (Bytes)

/-- The places of the folders around what a path names, as far as its text tells. -/
def Disk.Around (d : Disk) (p : Path) (place : Place) : Prop :=
  d.Along ⟨p.fromRoot, p.parts.dropLast⟩ place

theorem Disk.Around.congr {d d' : Disk} {p : Path} {place : Place}
    (h : d'.workingFolder = d.workingFolder) (ha : d'.Around p place) : d.Around p place := by
  obtain ⟨above, habove, hplace⟩ := ha
  exact ⟨above, habove, (place_congr h).symm.trans hplace⟩

namespace Machine

variable {w w' w'' : Machine}

/-! ### Single operations -/

/-- Some targets have been written, and the folders around some have been seen to. -/
structure Delivered (s : Schema) (written reached : List Target) (w w' : Machine) : Prop
    extends Idle w w' where
  places : ∀ t ∈ written, ∃ place, w.disk.place (.ofString t.path) = .ok place
  changes : Changes (fun place => ∃ t ∈ written, w.disk.place (.ofString t.path) = .ok place)
    (fun place => ∃ t ∈ reached, w.disk.Around (.ofString t.path) place) w.disk w'.disk
  /-- Of the targets that go to one file the last is in it. -/
  contents : ∀ before t after, written = before ++ t :: after →
    (∀ u ∈ after, ¬w.disk.Meet (.ofString u.path) (.ofString t.path)) →
    w'.disk.read (.ofString t.path) = .ok (Text.Utf8.encode (render t s))

variable {s : Schema} {t : Target} {written reached : List Target}

theorem Delivered.cons (h : Delivered s [t] [t] w w') (h' : Delivered s written reached w' w'') :
    Delivered s (t :: written) (t :: reached) w w'' := by
  have hfolder := h.changes.workingFolder
  refine ⟨h.toIdle.trans h'.toIdle, fun u hu => ?_, ?_, fun before u after heq hlast => ?_⟩
  · rcases List.mem_cons.mp hu with rfl | hu
    · exact h.places u List.mem_cons_self
    · obtain ⟨place, hplace⟩ := h'.places u hu
      exact ⟨place, (Disk.place_congr hfolder).symm.trans hplace⟩
  · refine (h.changes.mono ?_ ?_).trans (h'.changes.mono ?_ ?_)
    · rintro place ⟨u, hu, hplace⟩
      exact ⟨u, List.mem_cons.mpr (.inl (List.mem_singleton.mp hu)), hplace⟩
    · rintro place ⟨u, hu, hplace⟩
      exact ⟨u, List.mem_cons.mpr (.inl (List.mem_singleton.mp hu)), hplace⟩
    · rintro place ⟨u, hu, hplace⟩
      exact ⟨u, List.mem_cons_of_mem t hu, (Disk.place_congr hfolder).symm.trans hplace⟩
    · rintro place ⟨u, hu, hplace⟩
      exact ⟨u, List.mem_cons_of_mem t hu, hplace.congr hfolder⟩
  · cases before with
    | nil =>
      obtain ⟨rfl, rfl⟩ := List.cons.inj heq
      have hread := h.contents [] t [] rfl (by simp)
      obtain ⟨place, hplace⟩ := h.places t List.mem_cons_self
      have hplace' := (Disk.place_congr hfolder).trans hplace
      refine h'.changes.read_eq_ok hplace' ?_ hread
      rintro ⟨u, hu, hmeet⟩
      exact hlast u hu ⟨place, (Disk.place_congr hfolder).symm.trans hmeet, hplace⟩
    | cons _ before =>
      obtain ⟨rfl, rfl⟩ := List.cons.inj heq
      refine h'.contents before u after rfl fun v hv hmeet => hlast v hv ?_
      exact (Disk.Meet.congr hfolder).mp hmeet

end Machine

end ApiTypings.Session
