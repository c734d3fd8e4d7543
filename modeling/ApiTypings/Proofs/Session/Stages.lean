import ApiTypings.Proofs.Text.Encoding
import ApiTypings.Session.Machine

/-!
# The stages of a session

What each part of a session comes to, told by the operations of the machine alone: how a
configuration arises from the arguments and a file, where the page comes from, and by which
steps the targets reach their files. Until the page is there a session only reads.
-/
namespace ApiTypings.Session

open Settings (Configuration Source Target)
open Text.Utf8 (Bytes)

namespace Machine

variable {α β : Type} {w w' w'' : Machine}

/-! ### What only reads -/

/-- Between two moments of a machine the checker is not run. -/
structure Idle (w w' : Machine) : Prop where
  launches : w'.launches = w.launches
  checker : w'.checker = w.checker

theorem Idle.trans (h : Idle w w') (h' : Idle w' w'') : Idle w w'' :=
  ⟨h'.launches.trans h.launches, h'.checker.trans h.checker⟩

/-- Between two moments of a machine nothing happens that could be seen from outside. -/
structure Unchanged (w w' : Machine) : Prop extends Idle w w' where
  disk : w'.disk = w.disk

theorem Unchanged.refl (w : Machine) : Unchanged w w := ⟨⟨rfl, rfl⟩, rfl⟩

theorem Unchanged.trans (h : Unchanged w w') (h' : Unchanged w' w'') : Unchanged w w'' :=
  ⟨h.toIdle.trans h'.toIdle, h'.disk.trans h.disk⟩

theorem unchanged_strike (w : Machine) : Unchanged w w.strike.2 := ⟨⟨rfl, rfl⟩, rfl⟩

theorem unchanged_read (p : Path) (w : Machine) : Unchanged w (w.read p).2 := by
  have hstruck := unchanged_strike w
  rcases hs : w.strike with ⟨_ | x, w₁⟩ <;> rw [hs] at hstruck <;> simpa only [read, hs]

/-! ### Parts of a session -/

theorem perform_bind (x : ExceptT Failure (StateM Machine) α)
    (f : α → ExceptT Failure (StateM Machine) β) (w : Machine) :
    perform (x >>= f) w = match perform x w with
      | (.ok a, w') => perform (f a) w'
      | (.error e, w') => (.error e, w') := by
  show perform (ExceptT.mk (ExceptT.bindCont f =<< x)) w = _
  show StateT.run (m := Id) (x.run >>= ExceptT.bindCont f) w = _
  rw [StateT.run_bind]
  show StateT.run (ExceptT.bindCont f (perform x w).1) (perform x w).2 = _
  obtain ⟨result, w'⟩ := perform x w
  cases result <;> rfl

section

variable {x : ExceptT Failure (StateM Machine) α} {f : α → ExceptT Failure (StateM Machine) β}

theorem perform_bind_ok {a : α} (h : perform x w = (.ok a, w')) :
    perform (x >>= f) w = perform (f a) w' := by
  rw [perform_bind, h]

theorem perform_bind_error {e : Failure} (h : perform x w = (.error e, w')) :
    perform (x >>= f) w = (.error e, w') := by
  rw [perform_bind, h]

end

theorem perform_read (p : Path) (w : Machine) : perform (onDisk (Host.read p)) w =
    ((w.read p).1.mapError .disk, (w.read p).2) := rfl

theorem perform_write (p : Path) (content : Bytes) (w : Machine) :
    perform (onDisk (Host.write p content)) w =
      ((w.write p content).1.mapError .disk, (w.write p content).2) := rfl

theorem perform_makeFolders (p : Path) (w : Machine) :
    perform (onDisk (Host.makeFolders p)) w =
      ((w.makeFolders p).1.mapError .disk, (w.makeFolders p).2) := rfl

/-! ### The text of a file -/

/-- A file is read as the text of which it has the bytes, or cannot be. -/
inductive TextRead (p : Path) (w : Machine) : Except Failure String × Machine → Prop
  | unreadable {f : Fault} {w' : Machine} (hread : w.read p = (.error f, w')) :
      TextRead p w (.error (.disk f), w')
  | notText {bytes : Bytes} {w' : Machine} (hread : w.read p = (.ok bytes, w'))
      (htext : ∀ text, Text.Utf8.encode text ≠ bytes) : TextRead p w (.error (.disk .notText), w')
  | text {text : String} {w' : Machine} (hread : w.read p = (.ok (Text.Utf8.encode text), w')) :
      TextRead p w (.ok text, w')

namespace TextRead

variable {p : Path}

theorem perform_eq {o : Except Failure String × Machine} (h : TextRead p w o) :
    perform (readText p) w = o := by
  have hrun := perform_read p w
  cases h with
  | unreadable hread =>
    rw [hread] at hrun
    exact perform_bind_error hrun
  | notText hread htext =>
    rw [hread] at hrun
    rw [readText, perform_bind_ok hrun, Text.Utf8.decode?_eq_none_iff.mpr htext]
    rfl
  | @text text w' hread =>
    rw [hread] at hrun
    rw [readText, perform_bind_ok hrun, Text.Utf8.decode?_encode]
    show (Except.ok (String.ofList text.toList), w') = _
    rw [String.ofList_toList]

theorem unchanged {result : Except Failure String} (h : TextRead p w (result, w')) :
    Unchanged w w' := by
  have hsame := unchanged_read p w
  cases h with
  | unreadable hread => rwa [hread] at hsame
  | notText hread _ => rwa [hread] at hsame
  | text hread => rwa [hread] at hsame

end TextRead

/-! ### The configuration -/

/-- The configuration that the arguments change: the stock one, or that of a file. -/
inductive Loaded (a : Arguments) (w : Machine) : Except Failure Configuration × Machine → Prop
  | stock (hpath : a.config = none) : Loaded a w (.ok .stock, w)
  | unreadable {path : String} {e : Failure} {w' : Machine} (hpath : a.config = some path)
      (hread : TextRead (.ofString path) w (.error e, w')) : Loaded a w (.error e, w')
  | invalid {path text : String} {w' : Machine} (hpath : a.config = some path)
      (hread : TextRead (.ofString path) w (.ok text, w'))
      (htext : Configuration.ofText? text = none) : Loaded a w (.error .configuration, w')
  | file {path text : String} {c : Configuration} {w' : Machine} (hpath : a.config = some path)
      (hread : TextRead (.ofString path) w (.ok text, w'))
      (htext : Configuration.ofText? text = some c) : Loaded a w (.ok c, w')

/-- What the arguments make of a configuration. An address or a copy that they give takes the
place of its own, and if they name languages, only the targets in these are kept. -/
structure Adapted (a : Arguments) (loaded c : Configuration) : Prop where
  url : ∀ url, a.url = some url → c.source.url = url
  ownUrl : a.url = none → c.source.url = loaded.source.url
  cache : ∀ path, a.cache = some path → c.source.cache = some path
  ownCache : a.cache = none → c.source.cache = loaded.source.cache
  targets : a.languages ≠ [] → c.targets = loaded.targets.filter (fun t => t.language ∈ a.languages)
  allTargets : a.languages = [] → c.targets = loaded.targets

section

variable {a : Arguments} {loaded c c' : Configuration}

theorem Loaded.unchanged {result : Except Failure Configuration} (h : Loaded a w (result, w')) :
    Unchanged w w' := by
  cases h with
  | stock => exact Unchanged.refl w
  | unreadable _ hread => exact hread.unchanged
  | invalid _ hread _ => exact hread.unchanged
  | file _ hread _ => exact hread.unchanged

theorem adapted_only (a : Arguments) (loaded : Configuration) :
    Adapted a loaded (({ loaded with source := ⟨a.url.getD loaded.source.url,
      a.cache <|> loaded.source.cache⟩ } : Configuration).only a.languages) := by
  unfold Configuration.only
  split
  next hnone =>
    have hnil : a.languages = [] := List.isEmpty_iff.mp hnone
    constructor <;> simp +contextual [hnil]
  next hsome =>
    have hne : a.languages ≠ [] := fun hnil => hsome (List.isEmpty_iff.mpr hnil)
    constructor <;> simp +contextual [hne]

theorem Adapted.unique (h : Adapted a loaded c) (h' : Adapted a loaded c') : c = c' := by
  obtain ⟨⟨url, cache⟩, targets⟩ := c
  obtain ⟨⟨url', cache'⟩, targets'⟩ := c'
  have hurl : url = url' := by
    cases hgiven : a.url with
    | none => exact (h.ownUrl hgiven).trans (h'.ownUrl hgiven).symm
    | some u => exact (h.url u hgiven).trans (h'.url u hgiven).symm
  have hcache : cache = cache' := by
    cases hgiven : a.cache with
    | none => exact (h.ownCache hgiven).trans (h'.ownCache hgiven).symm
    | some path => exact (h.cache path hgiven).trans (h'.cache path hgiven).symm
  have htargets : targets = targets' := by
    by_cases hall : a.languages = []
    · exact (h.allTargets hall).trans (h'.allTargets hall).symm
    · exact (h.targets hall).trans (h'.targets hall).symm
  rw [hurl, hcache, htargets]

theorem Loaded.perform_error {e : Failure} (h : Loaded a w (.error e, w')) :
    perform (configure a) w = (.error e, w') := by
  unfold configure
  cases h with
  | unreadable hpath hread =>
    rw [hpath]
    exact perform_bind_error (perform_bind_error hread.perform_eq)
  | @invalid path text _ hpath hread htext =>
    have hload : perform (loadConfiguration path) w = (.error .configuration, w') := by
      rw [loadConfiguration, perform_bind_ok hread.perform_eq, htext]
      rfl
    rw [hpath]
    exact perform_bind_error hload

theorem Loaded.perform_ok (h : Loaded a w (.ok loaded, w')) (hadapt : Adapted a loaded c) :
    perform (configure a) w = (.ok c, w') := by
  rw [hadapt.unique (adapted_only a loaded)]
  unfold configure
  cases h with
  | stock hpath =>
    rw [hpath]
    rfl
  | @file path text _ _ hpath hread htext =>
    have hload : perform (loadConfiguration path) w = (.ok loaded, w') := by
      rw [loadConfiguration, perform_bind_ok hread.perform_eq, htext]
      rfl
    rw [hpath]
    exact perform_bind_ok hload

end

/-! ### The page -/

/-- No copy of the page is there. -/
def Uncopied (source : Source) (w : Machine) : Prop :=
  ∀ path, source.cache = some path → w.disk.contains (.ofString path) = false

/-- A copy of the page is read wherever there is one. Only without it is the page downloaded. -/
inductive Fetched (source : Source) (w : Machine) : Except Failure String × Machine → Prop
  | copy {path : String} {result : Except Failure String} {w' : Machine}
      (hcache : source.cache = some path) (hcopy : w.disk.contains (.ofString path) = true)
      (hread : TextRead (.ofString path) w (result, w')) : Fetched source w (result, w')
  | page {text : String} (hcopy : Uncopied source w) (hpage : w.download source.url = .ok text) :
      Fetched source w (.ok text, w)
  | unreachable {reason : String} (hcopy : Uncopied source w)
      (hpage : w.download source.url = .error reason) :
      Fetched source w (.error (.download reason), w)

section

variable {source : Source}

theorem Fetched.unchanged {result : Except Failure String} (h : Fetched source w (result, w')) :
    Unchanged w w' := by
  cases h with
  | copy _ _ hread => exact hread.unchanged
  | page => exact Unchanged.refl w
  | unreachable => exact Unchanged.refl w

theorem Uncopied.perform_eq (h : Uncopied source w) :
    perform (ExceptT.lift (cachedCopy? source)) w = (.ok none, w) := by
  obtain ⟨url, cache⟩ := source
  cases cache with
  | none => rfl
  | some path =>
    show (Except.ok (if w.disk.contains (.ofString path) then _ else _), w) = _
    rw [h path rfl]
    rfl

theorem Fetched.perform_eq {o : Except Failure String × Machine} (h : Fetched source w o) :
    perform (fetch source) w = o := by
  cases h with
  | @copy path _ _ hcache hcopy hread =>
    have hrun : perform (ExceptT.lift (cachedCopy? source)) w =
        (.ok (some (.ofString path)), w) := by
      unfold cachedCopy?
      rw [hcache]
      show (Except.ok (if w.disk.contains (.ofString path) then _ else _), w) = _
      rw [hcopy]
      rfl
    rw [fetch, perform_bind_ok hrun]
    exact hread.perform_eq
  | page hcopy hpage =>
    rw [fetch, perform_bind_ok hcopy.perform_eq]
    show ((w.download source.url).mapError _, w) = _
    rw [hpage]
    rfl
  | unreachable hcopy hpage =>
    rw [fetch, perform_bind_ok hcopy.perform_eq]
    show ((w.download source.url).mapError _, w) = _
    rw [hpage]
    rfl

end

/-! ### The targets -/

/-- The folder around what a path names is made, as far as its text tells of one. -/
inductive ParentMade (p : Path) (w : Machine) : Except Fault Unit × Machine → Prop
  | without (hparts : p.parts = []) : ParentMade p w (.ok (), w)
  | along {result : Except Fault Unit} {w' : Machine} (hparts : p.parts ≠ [])
      (hmake : w.makeFolders ⟨p.fromRoot, p.parts.dropLast⟩ = (result, w')) :
      ParentMade p w (result, w')

/-- A target goes to its file when the folder around that is there. Either may fail. -/
inductive TargetWritten (s : Schema) (t : Target) (w : Machine) : Except Fault Unit × Machine → Prop
  | unplaced {f : Fault} {w' : Machine}
      (hparent : ParentMade (.ofString t.path) w (.error f, w')) :
      TargetWritten s t w (.error f, w')
  | placed {result : Except Fault Unit} {w₁ w' : Machine}
      (hparent : ParentMade (.ofString t.path) w (.ok (), w₁))
      (hwrite : w₁.write (.ofString t.path) (Text.Utf8.encode (render t s)) = (result, w')) :
      TargetWritten s t w (result, w')

/-- Targets are written, one after the other. -/
inductive AllWritten (s : Schema) : List Target → Machine → Machine → Prop
  | nil (w : Machine) : AllWritten s [] w w
  | cons {t : Target} {ts : List Target} {w w₁ w' : Machine}
      (hfirst : TargetWritten s t w (.ok (), w₁)) (hrest : AllWritten s ts w₁ w') :
      AllWritten s (t :: ts) w w'

section

variable {s : Schema} {t : Target} {written rest : List Target}

theorem ParentMade.perform_eq {p : Path} {result : Except Fault Unit}
    (h : ParentMade p w (result, w')) :
    perform (makeParent p) w = (result.mapError .disk, w') := by
  unfold makeParent Path.parent?
  cases h with
  | without hparts =>
    rw [if_pos (List.isEmpty_iff.mpr hparts)]
    rfl
  | along hparts hmake =>
    rw [if_neg fun hempty => hparts (List.isEmpty_iff.mp hempty)]
    exact (perform_makeFolders _ w).trans (by rw [hmake])

theorem TargetWritten.perform_eq {result : Except Fault Unit}
    (h : TargetWritten s t w (result, w')) :
    perform (writeTarget s t) w = (result.mapError .disk, w') := by
  cases h with
  | unplaced hparent => exact perform_bind_error hparent.perform_eq
  | placed hparent hwrite =>
    rw [writeTarget, perform_bind_ok hparent.perform_eq, perform_write, hwrite]

theorem forM_cons (t : Target) (ts : List Target) :
    (t :: ts).forM (writeTarget (m := StateM Machine) s) =
      writeTarget s t >>= fun _ => ts.forM (writeTarget s) := rfl

theorem AllWritten.perform_append (h : AllWritten s written w w') (rest : List Target) :
    perform ((written ++ rest).forM (writeTarget s)) w =
      perform (rest.forM (writeTarget s)) w' := by
  induction h with
  | nil w => rfl
  | cons hfirst _ ih => rw [List.cons_append, forM_cons, perform_bind_ok hfirst.perform_eq, ih]

theorem AllWritten.perform_eq (h : AllWritten s written w w') :
    perform (written.forM (writeTarget s)) w = (.ok (), w') := by
  have hrun := h.perform_append []
  rw [List.append_nil] at hrun
  exact hrun

/-- The first target that cannot be written is the last that is tried. -/
theorem TargetWritten.perform_stopped {f : Fault} (h : TargetWritten s t w' (.error f, w''))
    (hwritten : AllWritten s written w w') (rest : List Target) :
    perform ((written ++ t :: rest).forM (writeTarget s)) w = (.error (.disk f), w'') := by
  rw [hwritten.perform_append, forM_cons]
  exact perform_bind_error h.perform_eq

end

end Machine

end ApiTypings.Session
