import ApiTypings.Proofs.Session.Places

/-!
# What changes on a disk

A file is written at the place to which its path leads, and folders are made where nothing
stood, at places on the way. Everything else is as before, and since folders never go away,
what could be read still can.
-/
namespace ApiTypings.Session

open Page (bind_eq_ok)
open Text.Utf8 (Bytes)

namespace Disk

variable {d d' d'' : Disk} {p : Path} {files folders : Place → Prop}

/-- One disk comes from another by writing files at certain places and by making folders,
where nothing stood, at others. -/
structure Changes (files folders : Place → Prop) (d d' : Disk) : Prop where
  workingFolder : d'.workingFolder = d.workingFolder
  folder : ∀ place, d.get? place = some .folder → d'.get? place = some .folder
  other : ∀ place, ¬files place → d'.get? place = d.get? place ∨
    (folders place ∧ d.get? place = none ∧ d'.get? place = some .folder)

/-- The places through which a path leads, as far as its text tells. -/
def Along (d : Disk) (p : Path) (place : Place) : Prop :=
  ∃ above, above <+: p.steps ∧ d.place ⟨p.fromRoot, above⟩ = .ok place

theorem Along.mono {fromRoot : Bool} {above steps : List String} {place : Place}
    (h : d.Along ⟨fromRoot, above⟩ place) (hsteps : above <+: steps) :
    d.Along ⟨fromRoot, steps⟩ place := by
  obtain ⟨before, hbefore, hplace⟩ := h
  exact ⟨before, hbefore.trans hsteps, hplace⟩

namespace Changes

theorem refl (files folders : Place → Prop) (d : Disk) : Changes files folders d d :=
  ⟨rfl, fun _ h => h, fun _ _ => .inl rfl⟩

theorem trans (h : Changes files folders d d') (h' : Changes files folders d' d'') :
    Changes files folders d d'' where
  workingFolder := h'.workingFolder.trans h.workingFolder
  folder place hp := h'.folder place (h.folder place hp)
  other place hfile := by
    rcases h.other place hfile with hsame | ⟨hnew, hnone, hfolder⟩
    · rw [← hsame]
      exact h'.other place hfile
    · exact .inr ⟨hnew, hnone, h'.folder place hfolder⟩

theorem mono {files' folders' : Place → Prop} (h : Changes files folders d d')
    (hfiles : ∀ place, files place → files' place)
    (hfolders : ∀ place, folders place → folders' place) : Changes files' folders' d d' where
  workingFolder := h.workingFolder
  folder := h.folder
  other place hfile :=
    (h.other place fun hf => hfile (hfiles place hf)).imp_right
      fun ⟨hnew, hrest⟩ => ⟨hfolders place hnew, hrest⟩

theorem checkFolder {place : Place} (h : Changes files folders d d')
    (hplace : d.checkFolder place = .ok ()) : d'.checkFolder place = .ok () := by
  have hfolder : d.get? place = some .folder := by
    unfold Disk.checkFolder at hplace
    split at hplace
    · cases hplace
    · assumption
    · cases hplace
  rw [Disk.checkFolder, h.folder place hfolder]

theorem walk {start place : Place} {steps : List String} (h : Changes files folders d d')
    (hwalk : d.walk start steps = .ok place) : d'.walk start steps = .ok place := by
  induction steps generalizing start with
  | nil => exact hwalk
  | cons step steps ih =>
    rw [Disk.walk, List.foldlM_cons] at hwalk ⊢
    obtain ⟨next, hnext, hrest⟩ := bind_eq_ok.mp hwalk
    obtain ⟨_, hcheck, hmove⟩ := bind_eq_ok.mp hnext
    exact bind_eq_ok.mpr ⟨next, bind_eq_ok.mpr ⟨(), h.checkFolder hcheck, hmove⟩, ih hrest⟩

theorem start_eq (h : Changes files folders d d') (p : Path) : d'.start p = d.start p := by
  rw [Disk.start, Disk.start, h.workingFolder]

/-- A file that may not be written reads as before. -/
theorem read_eq_ok {place : Place} {content : Bytes} (h : Changes files folders d d')
    (hplace : d.place p = .ok place) (hfile : ¬files place) (hread : d.read p = .ok content) :
    d'.read p = .ok content := by
  obtain ⟨e, hfind, hread⟩ := bind_eq_ok.mp hread
  obtain ⟨start, hstart, hfind⟩ := bind_eq_ok.mp hfind
  obtain ⟨other, hwalk, hget⟩ := bind_eq_ok.mp hfind
  have hother : d.place p = .ok other := by
    rw [Disk.place, hstart]
    exact foldlM_move_of_walk hwalk
  obtain rfl : other = place := Except.ok.inj (hother.symm.trans hplace)
  have hentry : d'.get? other = d.get? other := by
    rcases h.other other hfile with hsame | ⟨-, hnone, -⟩
    · exact hsame
    · rw [hnone] at hget
      cases hget
  refine bind_eq_ok.mpr ⟨e, bind_eq_ok.mpr ⟨start, ?_, bind_eq_ok.mpr ⟨other, h.walk hwalk, ?_⟩⟩,
    hread⟩
  · rw [h.start_eq, hstart]
  · rw [hentry]
    exact hget

end Changes

/-! ### Operations -/

end Disk

end ApiTypings.Session
