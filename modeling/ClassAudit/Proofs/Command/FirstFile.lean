import ClassAudit.Command.Run
import ClassAudit.Proofs.Lookup.FirstRoot

/-!
# One file is enough

A run is defined on all files that can be read, but the program visits only the candidates of a
class, and these only up to the first one that is a file.  `runVisiting_eq_run` says that this makes
no difference as long as this file can be read, whatever there is at the other paths.
`runVisiting_of_unreadable` says what happens if it cannot be read: the check fails, even if there
is another file under a later root.

## Strategy

A run depends on the file to which its candidates lead first (`run_eq_of_firstAt_eq`).  Among the
files that can be read this is the one that was visited (`Disk.firstAt_readable`), and so it is if
there is no other file at all (`firstAt_single`).
-/

namespace ClassAudit.Command

/-- The first of some paths at which there is something, with what is there. -/
def firstAt {α : Type} (there : String → Option α) (paths : List String) : Option (String × α) :=
  paths.findSome? fun path => (there path).map (path, ·)

section

variable {α : Type} {there : String → Option α} {paths : List String} {path : String} {found : α}

theorem firstAt_eq_some_iff :
    firstAt there paths = some (path, found) ↔
      ∃ before later, paths = before ++ path :: later ∧ there path = some found ∧
        ∀ earlier ∈ before, there earlier = none := by
  rw [firstAt, List.findSome?_eq_some_iff]
  simp only [Option.map_eq_some_iff, Option.map_eq_none_iff, Prod.mk.injEq]
  constructor
  · rintro ⟨before, _, later, hpaths, ⟨_, hfound, rfl, rfl⟩, hbefore⟩
    exact ⟨before, later, hpaths, hfound, hbefore⟩
  · rintro ⟨before, later, hpaths, hfound, hbefore⟩
    exact ⟨before, path, later, hpaths, ⟨found, hfound, rfl, rfl⟩, hbefore⟩

theorem firstAt_eq_none_iff :
    firstAt there paths = none ↔ ∀ path ∈ paths, there path = none := by
  simp only [firstAt, List.findSome?_eq_none_iff, Option.map_eq_none_iff]

/-- What is first is also first if there is nothing else. -/
theorem firstAt_single (hfirst : firstAt there paths = some (path, found)) :
    firstAt (fun place => if place = path then some found else none) paths = some (path, found) := by
  obtain ⟨before, later, hpaths, hfound, hbefore⟩ := firstAt_eq_some_iff.mp hfirst
  refine firstAt_eq_some_iff.mpr ⟨before, later, hpaths, if_pos rfl, fun earlier hearlier => ?_⟩
  apply if_neg
  rintro rfl
  rw [hbefore earlier hearlier] at hfound
  cases hfound

end

/-! ## Disks -/

/-- What a visit finds at each path. -/
abbrev Disk := String → Option Visit

/-- The files of a disk that can be read. -/
def Disk.readable (disk : Disk) : FileStore := fun path => (disk path).bind Except.toOption

variable {disk : Disk} {paths : List String} {path : String} {content : Bytes}

theorem Disk.readable_eq_none (hnone : disk path = none) : disk.readable path = none := by
  rw [readable, hnone, Option.bind_none]

theorem Disk.firstAt_readable (hfirst : firstAt disk paths = some (path, .ok content)) :
    firstAt disk.readable paths = some (path, content) := by
  obtain ⟨before, later, hpaths, hfound, hbefore⟩ := firstAt_eq_some_iff.mp hfirst
  refine firstAt_eq_some_iff.mpr ⟨before, later, hpaths, ?_, fun earlier hearlier => ?_⟩
  · rw [readable, hfound]
    rfl
  · exact readable_eq_none (hbefore earlier hearlier)

/-- Visiting the paths one by one finds the first file of the disk. -/
theorem firstVisit?_pure {m : Type → Type} [Monad m] [LawfulMonad m] :
    firstVisit? (fun path => (pure (disk path) : m (Option Visit))) paths =
      pure (firstAt disk paths) := by
  simp only [firstVisit?, pure_bind]
  exact List.findSomeM?_pure

/-! ## Runs -/

variable {invocation : Invocation} {className : String}

theorem candidates_of_check (hrequest : invocation.request = .ok (.check className)) :
    invocation.candidates = invocation.searchPath.candidates className := by
  simp only [Invocation.candidates, hrequest]

theorem run_eq_of_firstAt_eq {files others : FileStore}
    (hfirst : firstAt files invocation.candidates = firstAt others invocation.candidates) :
    run invocation files = run invocation others := by
  unfold run
  cases hrequest : invocation.request with
  | error wrong => rfl
  | ok request =>
    cases request with
    | explain flag => rfl
    | check className =>
      rw [candidates_of_check hrequest] at hfirst
      have hanswers : invocation.searchPath.answers files className =
          invocation.searchPath.answers others className :=
        SearchPath.answers_eq_of_locate?_eq hfirst
      have hread : invocation.searchPath.readClass files .standard className =
          invocation.searchPath.readClass others .standard className :=
        congrArg (fun answers => answers.compiled .standard) hanswers
      simp only [check, hread]

theorem respond_firstAt (hreadable : ∀ path reason,
      firstAt disk invocation.candidates ≠ some (path, .error reason)) :
    respond invocation (firstAt disk invocation.candidates) = run invocation disk.readable := by
  match hfirst : firstAt disk invocation.candidates with
  | none =>
    have hnone := firstAt_eq_none_iff.mp hfirst
    apply run_eq_of_firstAt_eq
    rw [firstAt_eq_none_iff.mpr fun _ _ => rfl,
      firstAt_eq_none_iff.mpr fun path hpath => Disk.readable_eq_none (hnone path hpath)]
  | some (path, .ok content) =>
    have hlocated := Disk.firstAt_readable hfirst
    apply run_eq_of_firstAt_eq
    rw [firstAt_single hlocated, hlocated]
  | some (path, .error reason) => exact absurd hfirst (hreadable path reason)

section

variable {m : Type → Type} [Monad m] [LawfulMonad m]

/-- **One file is enough.**  Unless the first candidate that is a file cannot be read, visiting the
candidates up to this one ends as the run does on all files of the disk that can be read. -/
theorem runVisiting_eq_run (hreadable : ∀ path reason,
      firstAt disk invocation.candidates ≠ some (path, .error reason)) :
    runVisiting (fun path => (pure (disk path) : m (Option Visit))) invocation =
      pure (run invocation disk.readable) := by
  rw [runVisiting, firstVisit?_pure, pure_bind, respond_firstAt hreadable]

/-- **A file that cannot be read is not passed over.**  Whatever there is under later roots, the
check ends with the status one and with the reason in the log. -/
theorem runVisiting_of_unreadable {root reason : String} {before later : List String}
    (hrequest : invocation.request = .ok (.check className))
    (hroots : invocation.searchPath.roots = before ++ root :: later)
    (hbefore : ∀ earlier ∈ before, disk (SearchPath.candidate className earlier) = none)
    (hunreadable : disk (SearchPath.candidate className root) = some (.error reason)) :
    runVisiting (fun path => (pure (disk path) : m (Option Visit))) invocation =
      pure ⟨1, "", Log.page (.ofVariable invocation.logFilter)
        [.searching invocation.searchPath,
          .event (.opened className (SearchPath.candidate className root)),
          .unreadable className reason]⟩ := by
  have hcandidates : invocation.candidates = before.map (SearchPath.candidate className) ++
      SearchPath.candidate className root :: later.map (SearchPath.candidate className) := by
    rw [candidates_of_check hrequest, SearchPath.candidates, hroots, List.map_append,
      List.map_cons]
  have hearlier : ∀ path ∈ before.map (SearchPath.candidate className), disk path = none := by
    intro path hpath
    obtain ⟨earlier, hmem, rfl⟩ := List.mem_map.mp hpath
    exact hbefore earlier hmem
  have hfirst : firstAt disk invocation.candidates =
      some (SearchPath.candidate className root, .error reason) :=
    firstAt_eq_some_iff.mpr ⟨_, _, hcandidates, hunreadable, hearlier⟩
  rw [runVisiting, firstVisit?_pure, pure_bind, hfirst]
  simp only [respond, hrequest]
  rfl

end

end ClassAudit.Command
