import ApiTypings.Proofs.Session.Delivery
import ApiTypings.Proofs.Session.Diagnostics

/-!
# The course of a session

However a session ends, it has changed only what it should: nothing before the page is read,
then the files of the targets up to the first fault with folders around them. The checker is
run after all of this and at most once. What a session does at each stage is told by the
operations of the machine.
-/
namespace ApiTypings.Session

open Settings (Configuration Source Target)

namespace Machine

variable {w w' : Machine}

/-- Some target is to be checked. -/
def WantsCheck (a : Arguments) (c : Configuration) : Prop :=
  a.skipsCheck = false ∧ ∃ t ∈ c.targets, t.language = .typeScript ∧ t.checksSyntax = true

/-- The paths of the targets that ask for a check and can have one. -/
def wantedPaths (c : Configuration) : List String :=
  (c.targets.filter (fun t => t.language = .typeScript ∧ t.checksSyntax = true)).map Target.path

/-- The configuration is there and the page is read. -/
structure Prepared (a : Arguments) (w : Machine) (c : Configuration) (s : Schema) (w' : Machine) :
    Prop extends Unchanged w w' where
  read : ∃ loaded w₁ page, Loaded a w (.ok loaded, w₁) ∧ Adapted a loaded c ∧
    Fetched c.source w₁ (.ok page, w') ∧ Page.readPage page = .ok s

/-- What may become of a session, and of the machine on which it is run. -/
inductive Course (a : Arguments) (w : Machine) : Except Failure (List String) × Machine → Prop
  /-- The configuration cannot be loaded. -/
  | unconfigured {e : Failure} {w' : Machine} (hload : Loaded a w (.error e, w'))
      (h : Unchanged w w') : Course a w (.error e, w')
  /-- The page cannot be had. -/
  | unfetched {loaded c : Configuration} {e : Failure} {w₁ w' : Machine}
      (hload : Loaded a w (.ok loaded, w₁)) (hadapt : Adapted a loaded c)
      (hfetch : Fetched c.source w₁ (.error e, w'))
      (h : Unchanged w w') : Course a w (.error e, w')
  /-- The page is not accepted. -/
  | unread {loaded c : Configuration} {page : String} {e : Page.PageError} {w₁ w' : Machine}
      (hload : Loaded a w (.ok loaded, w₁)) (hadapt : Adapted a loaded c)
      (hfetch : Fetched c.source w₁ (.ok page, w')) (hread : Page.readPage page = .error e)
      (h : Unchanged w w') : Course a w (.error (.page e), w')
  /-- A target cannot be written, all before it are. -/
  | unwritten {c : Configuration} {s : Schema} {written rest : List Target} {t : Target}
      {f : Fault} {w₁ w₂ w' : Machine} (hprepared : Prepared a w c s w₁)
      (htargets : c.targets = written ++ t :: rest) (hwritten : AllWritten s written w₁ w₂)
      (hfault : TargetWritten s t w₂ (.error f, w'))
      (h : Delivered s written (written ++ [t]) w w') : Course a w (.error (.disk f), w')
  /-- All targets are written, and none is to be checked. -/
  | unchecked {c : Configuration} {s : Schema} {w₁ w' : Machine}
      (hprepared : Prepared a w c s w₁) (hwritten : AllWritten s c.targets w₁ w')
      (hcheck : ¬WantsCheck a c)
      (h : Delivered s c.targets c.targets w w') : Course a w (.ok [], w')
  /-- All targets are written, and the checker is run on those that are to be checked. -/
  | checked {c : Configuration} {s : Schema} {r : Report} {w₁ w' : Machine}
      (hprepared : Prepared a w c s w₁) (hwritten : AllWritten s c.targets w₁ w')
      (hcheck : WantsCheck a c) (hchecker : w.checker = some r)
      (hfound : r.status = 0 ∨ markedLines r.output ≠ [])
      (h : Delivered s c.targets c.targets w w') :
      Course a w (.ok ((markedLines r.output).map trimmedText),
        { w' with launches := w.launches ++ ["--noEmit" :: wantedPaths c] })
  /-- All targets are written, and the checker is run, but it fails without a diagnostic. -/
  | undiagnosed {c : Configuration} {s : Schema} {r : Report} {w₁ w' : Machine}
      (hprepared : Prepared a w c s w₁) (hwritten : AllWritten s c.targets w₁ w')
      (hcheck : WantsCheck a c) (hchecker : w.checker = some r)
      (hstatus : r.status ≠ 0) (hnone : markedLines r.output = [])
      (h : Delivered s c.targets c.targets w w') :
      Course a w (.error (.checker (trimmedText r.errors)),
        { w' with launches := w.launches ++ ["--noEmit" :: wantedPaths c] })
  /-- All targets are written, but the checker is not there. -/
  | uncheckable {c : Configuration} {s : Schema} {w₁ w' : Machine}
      (hprepared : Prepared a w c s w₁) (hwritten : AllWritten s c.targets w₁ w')
      (hcheck : WantsCheck a c) (hchecker : w.checker = none)
      (h : Delivered s c.targets c.targets w w') :
      Course a w (.error (.checker ("tsc: " ++ LaunchFault.missing.message)), w')

/-! ### The check -/

theorem checkedPaths_of_not_wantsCheck {a : Arguments} {c : Configuration}
    (h : ¬WantsCheck a c) : checkedPaths a c = [] := by
  rw [checkedPaths, List.map_eq_nil_iff, List.filter_eq_nil_iff]
  intro t ht hchecked
  simp only [Bool.and_eq_true, beq_iff_eq, Bool.not_eq_true'] at hchecked
  exact h ⟨hchecked.2, t, ht, hchecked.1.2, hchecked.1.1⟩

theorem WantsCheck.checkedPaths_eq {a : Arguments} {c : Configuration} (h : WantsCheck a c) :
    checkedPaths a c = wantedPaths c := by
  refine congrArg (List.map Target.path) (List.filter_congr fun t _ => ?_)
  rw [h.1, Bool.eq_iff_iff]
  simp [and_comm]

theorem WantsCheck.wantedPaths_ne_nil {a : Arguments} {c : Configuration} (h : WantsCheck a c) :
    wantedPaths c ≠ [] := by
  obtain ⟨-, t, ht, hwants⟩ := h
  rw [wantedPaths, Ne, List.map_eq_nil_iff, List.filter_eq_nil_iff]
  exact fun hnone => hnone t ht (decide_eq_true hwants)

/-- No path of a written target keeps the checker from being started. -/
theorem Delivered.launch_eq {s : Schema} {c : Configuration} {reached : List Target}
    (h : Delivered s c.targets reached w w') :
    w'.launch (checkerArguments (wantedPaths c)) = match w.checker with
      | none => (.error .missing, w')
      | some r => (.ok r, { w' with launches := w.launches ++ ["--noEmit" :: wantedPaths c] }) := by
  have hnull : (checkerArguments (wantedPaths c)).any
      (fun x => x.toList.contains '\x00') = false := by
    refine List.any_eq_false.mpr fun x hx hcontains => ?_
    rcases List.mem_cons.mp hx with rfl | hx
    · exact absurd hcontains (by decide)
    · obtain ⟨t, ht, rfl⟩ := List.mem_map.mp hx
      obtain ⟨place, hplace⟩ := h.places t (List.mem_filter.mp ht).1
      exact Disk.not_null_of_place hplace (by simpa using hcontains)
  rw [launch, hnull, ← h.checker, ← h.launches]
  rfl

/-- The last part of a session, in which the checker is run unless nothing is to be checked. -/
def checkAll (paths : List String) : ExceptT Failure (StateM Machine) (List String) :=
  match paths with
  | [] => pure []
  | paths => checkSyntax paths

theorem WantsCheck.perform_checkAll {a : Arguments} {c : Configuration} (h : WantsCheck a c)
    (w : Machine) : perform (checkAll (checkedPaths a c)) w =
      (judgeLaunch (w.launch (checkerArguments (wantedPaths c))).1,
        (w.launch (checkerArguments (wantedPaths c))).2) := by
  rw [h.checkedPaths_eq]
  unfold checkAll
  split
  next hnil => exact absurd hnil h.wantedPaths_ne_nil
  next => rfl

/-! ### Whole sessions -/

/-- What a session does when the page has been read. -/
def finish (a : Arguments) (c : Configuration) (s : Schema) :
    ExceptT Failure (StateM Machine) (List String) := do
  c.targets.forM (writeTarget s)
  checkAll (checkedPaths a c)

section

variable {a : Arguments} {c : Configuration} {s : Schema} {w₁ : Machine}
  {o : Except Failure (List String) × Machine}

theorem Prepared.run_eq (h : Prepared a w c s w₁) : run a w = perform (finish a c s) w₁ := by
  obtain ⟨loaded, w₂, page, hload, hadapt, hfetch, hread⟩ := h.read
  unfold run Session.run
  rw [perform_bind_ok (hload.perform_ok hadapt), perform_bind_ok hfetch.perform_eq, hread]
  rfl

theorem Prepared.run_eq_check (h : Prepared a w c s w₁) (hwritten : AllWritten s c.targets w₁ w') :
    run a w = perform (checkAll (checkedPaths a c)) w' := by
  rw [h.run_eq, finish, perform_bind_ok hwritten.perform_eq]

theorem Course.run_eq (h : Course a w o) : run a w = o := by
  cases h with
  | unconfigured hload => exact perform_bind_error hload.perform_error
  | unfetched hload hadapt hfetch =>
    unfold run Session.run
    rw [perform_bind_ok (hload.perform_ok hadapt)]
    exact perform_bind_error hfetch.perform_eq
  | unread hload hadapt hfetch hread =>
    unfold run Session.run
    rw [perform_bind_ok (hload.perform_ok hadapt), perform_bind_ok hfetch.perform_eq, hread]
    rfl
  | @unwritten c s written rest t f _ _ w' hprepared htargets hwritten hfault =>
    rw [hprepared.run_eq, finish, htargets]
    exact perform_bind_error (hfault.perform_stopped hwritten rest)
  | unchecked hprepared hwritten hcheck =>
    rw [hprepared.run_eq_check hwritten, checkedPaths_of_not_wantsCheck hcheck]
    rfl
  | checked hprepared hwritten hcheck hchecker hfound h =>
    rw [hprepared.run_eq_check hwritten, hcheck.perform_checkAll, h.launch_eq, hchecker]
    exact congrArg (·, _) (judge_eq_ok_iff.mpr ⟨hfound, rfl⟩)
  | undiagnosed hprepared hwritten hcheck hchecker hstatus hnone h =>
    rw [hprepared.run_eq_check hwritten, hcheck.perform_checkAll, h.launch_eq, hchecker]
    exact congrArg (·, _) (judge_eq_error_iff.mpr ⟨hstatus, hnone, rfl⟩)
  | uncheckable hprepared hwritten hcheck hchecker h =>
    rw [hprepared.run_eq_check hwritten, hcheck.perform_checkAll, h.launch_eq, hchecker]
    rfl

end

end Machine

end ApiTypings.Session
